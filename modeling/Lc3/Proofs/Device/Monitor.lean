/-
A monitor on the bus. It stands at every address, lets every access
through to what would answer it on a machine that has the keyboard alone,
and keeps a log of those that succeeded. So a machine with the monitor
does as one without does, and besides tells which accesses it made and in
which order, the ones buried in fetches, pointers and strings included.

The table that routes all addresses to the monitor is long, and nothing
should ever work it out: what there is to know of it is `route_table`.
-/
import Lc3.Proofs.Machine.Bus

namespace Lc3

/-- An access to the bus. -/
inductive Access where
  /-- A read of the keyboard's status, by what its poll came back with. -/
  | polled (answer : Option Byte)
  | loaded (a w : Word)
  | stored (a w : Word)
deriving DecidableEq, Repr

structure Monitor where
  log : List Access := []
deriving DecidableEq, Repr

namespace Monitor

-- ============================================================== the device

/-- All addresses. -/
@[irreducible]
def everywhere : List Word := (List.range 65536).map (BitVec.ofNat 16)

theorem mem_everywhere (a : Word) : a ∈ everywhere := by
  unfold everywhere
  exact List.mem_map.2 ⟨a.toNat, List.mem_range.2 a.isLt, by simp⟩

variable {κ : Type}

section Served

variable [Console κ]

/-- What answers a read behind the monitor. -/
def behind (a : Word) : Board.Exec κ Word :=
  if a = Keyboard.status then Keyboard.readStatus
  else return (← get).core.peek a

/-- What a poll of the console comes back with. -/
def heard (console : κ) : Option Byte :=
  match (Console.call (.poll Keyboard.patience)).run console with
  | .ok answer _ => answer
  | .error _ _ => none

/-- How a read that gave `w` is noted. -/
def readAs (a w : Word) (console : κ) : Access :=
  if a = Keyboard.status then .polled (heard console) else .loaded a w

/-- Behind the monitor there are plain cells but for one address. -/
theorem behind_of_ne {a : Word} (ha : a ≠ Keyboard.status)
    (b : Board κ) : (behind a).run b = .ok (b.core.peek a) b := by
  unfold behind
  rw [if_neg ha]
  rfl

theorem readAs_of_ne {a : Word} (ha : a ≠ Keyboard.status) (w : Word)
    (console : κ) : readAs a w console = .loaded a w :=
  if_neg ha

end Served

instance : Peripheral Monitor where
  addresses _ := everywhere
  read a
    | (d, b) =>
        match (behind a).run b with
        | .ok w b' => .ok w (⟨d.log ++ [readAs a w b.console]⟩, b')
        | .error f b' => .error f (d, b')
  write a w
    | (d, b) => .ok () (⟨d.log ++ [.stored a w]⟩, b.poke a w)

/-- What fails behind the monitor is not noted. -/
theorem run_read [Console κ] (a : Word) (d : Monitor) (b : Board κ) :
    (Peripheral.read a).run (d, b) =
      match (behind a).run b with
      | .ok w b' => .ok w (⟨d.log ++ [readAs a w b.console]⟩, b')
      | .error f b' => .error f (d, b') :=
  rfl

/-- The monitor alone, in its place. -/
def table (log : List Access) : DeviceTable Monitor where
  devices := [.other ⟨log⟩]
  routes := everywhere.map fun a => (a, 0)

/-- In a table in which all entries are the same, the first that fits is as
good as any. -/
theorem lookup_map_zero {addrs : List Word} {a : Word} (h : a ∈ addrs) :
    (addrs.map fun a => (a, 0)).lookup a = some 0 := by
  induction addrs with
  | nil => cases h
  | cons c addrs ih =>
      rw [List.map_cons, List.lookup_cons]
      by_cases hc : a = c
      · simp [hc]
      · rw [beq_eq_false_iff_ne.2 hc]
        exact ih ((List.mem_cons.1 h).resolve_left hc)

/-- Every address leads to the monitor. This is all that is needed of the
table, and the table itself is never evaluated. -/
theorem route_table (log : List Access) (a : Word) :
    (table log).route a = some 0 :=
  lookup_map_zero (mem_everywhere a)

end Monitor

-- ===================================================== monitored machines

namespace Machine

open Monitor (behind readAs)

variable {κ δ : Type}

/-- The machine with the monitor in the place of its devices. -/
def monitored (log : List Access) (m : Machine κ δ) :
    Machine κ Monitor where
  toBoard := m.toBoard
  devices := Monitor.table log
  running := m.running

variable [Console κ]

/-- A read answers as what is behind the monitor does, on the same board,
and is noted with the answer. -/
theorem run_read_monitored (a : Word) (log : List Access)
    (m : Machine κ δ) :
    (read a).run (m.monitored log) =
      match (behind a).run m.toBoard with
      | .ok w b =>
          .ok w ({ m with toBoard := b }.monitored
            (log ++ [readAs a w m.console]))
      | .error f b => .error f ({ m with toBoard := b }.monitored log) := by
  have hroute : (m.monitored log).devices.route a = some 0 :=
    Monitor.route_table log a
  have hdevice : (m.monitored log).devices.devices[0]?
      = some (.other ⟨log⟩) := rfl
  rw [run_read, hroute]
  show (onDevice 0 (Peripheral.read a)).run (m.monitored log) = _
  rw [run_onDevice _ hdevice]
  have hother : (Peripheral.read a : DeviceExec κ (Device Monitor) Word).run
        (.other ⟨log⟩, (m.monitored log).toBoard)
      = Device.withOther ⟨log⟩ m.toBoard (Peripheral.read a) := rfl
  rw [hother]
  unfold Device.withOther
  rw [Monitor.run_read]
  cases (behind a).run m.toBoard <;> rfl

/-- A read of a cell is noted with the word that is in it. -/
theorem run_read_monitored_of_ne {a : Word} (ha : a ≠ Keyboard.status)
    (log : List Access) (m : Machine κ δ) :
    (read a).run (m.monitored log) =
      .ok (m.core.peek a)
        (m.monitored (log ++ [.loaded a (m.core.peek a)])) := by
  rw [run_read_monitored, Monitor.behind_of_ne ha]
  show EStateM.Result.ok _ (m.monitored (log ++ [readAs a _ _])) = _
  rw [Monitor.readAs_of_ne ha]

/-- A read of the status polls the console. It is noted with the key if one
came, and not at all if the console failed. -/
theorem run_read_monitored_status (log : List Access)
    (m : Machine κ δ) :
    (read Keyboard.status).run (m.monitored log) =
      match (Console.call (.poll Keyboard.patience)).run m.console with
      | .ok (some key) console =>
          .ok Keyboard.ready ((m.deliver key console).monitored
            (log ++ [.polled (some key)]))
      | .ok none console =>
          .ok 0 ((m.clearStatus console).monitored
            (log ++ [.polled none]))
      | .error e console =>
          .error (.console e) ({ m with console }.monitored log) := by
  have hreadAs (w : Word) : readAs Keyboard.status w m.console
      = .polled (Monitor.heard m.console) := if_pos rfl
  have hbehind : behind Keyboard.status
      = (Keyboard.readStatus : Board.Exec κ Word) := if_pos rfl
  rw [run_read_monitored, hbehind, Keyboard.run_readStatus]
  simp only [hreadAs]
  unfold Monitor.heard
  cases (Console.call (.poll Keyboard.patience)).run m.console with
  | error e console => rfl
  | ok answer console => cases answer <;> rfl

/-- A write goes to the cell, wherever it goes, and is noted. -/
theorem run_write_monitored (a w : Word) (log : List Access)
    (m : Machine κ δ) :
    (write a w).run (m.monitored log) =
      .ok () ({ m with toBoard := m.toBoard.poke a w }.monitored
        (log ++ [Access.stored a w])) := by
  have hroute : (m.monitored log).devices.route a = some 0 :=
    Monitor.route_table log a
  have hdevice : (m.monitored log).devices.devices[0]?
      = some (.other ⟨log⟩) := rfl
  rw [run_write, hroute]
  show (onDevice 0 (Peripheral.write a w)).run (m.monitored log) = _
  rw [run_onDevice _ hdevice]
  rfl

/-- What answers behind the monitor is what answers without it. -/
theorem run_read_behind [Peripheral δ] {m : Machine κ δ}
    (hdev : m.devices = .standard) (a : Word) :
    (read a).run m =
      match (behind a).run m.toBoard with
      | .ok w b => .ok w { m with toBoard := b }
      | .error f b => .error f { m with toBoard := b } := by
  rw [run_read_standard a m hdev]
  unfold behind
  by_cases ha : a = Keyboard.status
  · rw [if_pos ha, if_pos ha]
    rw [run_onBoard]
    cases Keyboard.readStatus.run m.toBoard <;> rfl
  · rw [if_neg ha, if_neg ha]
    rfl

end Machine

end Lc3
