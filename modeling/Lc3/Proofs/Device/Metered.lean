/-
Devices with meters. Each device of a machine gets a meter that counts the
accesses it is asked for, the failing ones included. A machine does with
meters just what it does without (`stepped_metered`), so the meters
tell how often a device has been asked in the course of any steps, those
accesses included that are buried in fetches, pointers and strings.
-/
import Lc3.Proofs.Device.Attaching
import Lc3.Proofs.Machine.Broken

namespace Lc3

variable {κ δ α : Type}

-- ============================================================== the device

/-- A device, and how often it has been used. -/
structure Metered (δ : Type) where
  device : Device δ
  uses : Nat
deriving DecidableEq, Repr

namespace Metered

/-- Lets the device behind the meter act, which is one more use. -/
def use (act : DeviceExec κ (Device δ) α) : DeviceExec κ (Metered δ) α
  | (d, board) =>
      mapState (fun s => (⟨s.1, d.uses + 1⟩, s.2))
        (act.run (d.device, board))

instance [Peripheral δ] : Peripheral (Metered δ) where
  addresses d := Peripheral.addresses d.device
  read a := use (Peripheral.read a)
  write a w := use (Peripheral.write a w)

/-- A use is counted whether it succeeds or fails. -/
theorem run_use (act : DeviceExec κ (Device δ) α) (d : Device δ) (n : Nat)
    (b : Board κ) :
    (use act).run (⟨d, n⟩, b)
      = mapState (fun s => (⟨s.1, n + 1⟩, s.2)) (act.run (d, b)) :=
  rfl

/-- The meter is part of the device that is put back. -/
theorem withOther_use (act : DeviceExec κ (Device δ) α) (d : Device δ)
    (n : Nat) (b : Board κ) :
    Device.withOther ⟨d, n⟩ b (use act)
      = mapState (fun s => (.other ⟨s.1, n + 1⟩, s.2)) (act.run (d, b)) := by
  unfold Device.withOther
  rw [run_use]
  cases act.run (d, b) <;> rfl

end Metered

-- =============================================================== the table

/-- One more use of the device that an access leads to, if it leads to
one. -/
def tick (i : Option Nat) (uses : Nat → Nat) : Nat → Nat :=
  fun j => if i = some j then uses j + 1 else uses j

namespace DeviceTable

/-- The table with a meter on each of the devices. -/
def metered (uses : Nat → Nat) (t : DeviceTable δ) :
    DeviceTable (Metered δ) where
  devices := t.devices.mapIdx fun i d => .other ⟨d, uses i⟩
  routes := t.routes

/-- Under its meter each device is where it was. -/
theorem getElem?_metered (uses : Nat → Nat) (t : DeviceTable δ) (i : Nat) :
    (t.metered uses).devices[i]?
      = t.devices[i]?.map fun d => .other ⟨d, uses i⟩ :=
  List.getElem?_mapIdx

/-- Where there is no device there is no meter. -/
theorem metered_tick {t : DeviceTable δ} {i : Nat}
    (h : t.devices[i]? = none) (uses : Nat → Nat) :
    t.metered (tick (some i) uses) = t.metered uses := by
  refine congrArg (DeviceTable.mk · t.routes) (List.ext_getElem? fun j => ?_)
  rw [List.getElem?_mapIdx, List.getElem?_mapIdx]
  by_cases hij : i = j
  · rw [← hij, h]
    rfl
  · simp [tick, hij]

/-- A device that was used goes back with its meter one further on, which
changes no other meter. -/
theorem put_metered (t : DeviceTable δ) (i : Nat) (d : Device δ)
    (uses : Nat → Nat) :
    (t.metered uses).put i (.other ⟨d, uses i + 1⟩)
      = (t.put i d).metered (tick (some i) uses) := by
  refine congrArg (DeviceTable.mk · t.routes) (List.ext_getElem? fun j => ?_)
  show ((t.metered uses).devices.set i _)[j]?
    = ((t.put i d).metered (tick (some i) uses)).devices[j]?
  rw [getElem?_metered]
  show _ = ((t.devices.set i d)[j]?).map _
  rw [List.getElem?_set, List.getElem?_set, getElem?_metered]
  by_cases hij : i = j
  · subst hij
    by_cases hi : i < t.devices.length <;> simp [metered, tick, hi]
  · simp [tick, hij]

end DeviceTable

-- ============================================================= the machine

namespace Machine

/-- The machine with a meter on each of its devices. -/
def metered (uses : Nat → Nat) (m : Machine κ δ) :
    Machine κ (Metered δ) where
  toBoard := m.toBoard
  devices := m.devices.metered uses
  running := m.running

/-- How often device `k` has been used, going by its meter. -/
def usesOf (k : Nat) (m : Machine κ (Metered δ)) : Nat :=
  match m.devices.devices[k]? with
  | some (.other d) => d.uses
  | _ => 0

/-- Asking a device through its meter is asking it, and one more use of it
alone. Where there is none, neither machine has anybody to ask. -/
theorem run_onDevice_metered (i : Nat)
    (act : DeviceExec κ (Device δ) α)
    (act' : DeviceExec κ (Device (Metered δ)) α)
    (hact : ∀ d b, act'.run (.other d, b)
      = Device.withOther d b (Metered.use act))
    (uses : Nat → Nat) (m : Machine κ δ) :
    (onDevice i act').run (m.metered uses)
      = mapState (metered (tick (some i) uses))
          ((onDevice i act).run m) := by
  have hdevice := DeviceTable.getElem?_metered uses m.devices i
  cases hi : m.devices.devices[i]? with
  -- nobody is there to be metered, and the meter of nobody does not count
  | none =>
      rw [hi] at hdevice
      rw [run_onDevice_missing (m := m.metered uses) hdevice act',
        run_onDevice_missing hi act]
      show _ = EStateM.Result.error _ (m.metered (tick (some i) uses))
      unfold metered
      rw [DeviceTable.metered_tick hi]
  | some d =>
      rw [hi] at hdevice
      rw [run_onDevice_placed (m := m.metered uses) hdevice act',
        run_onDevice_placed hi act, hact, Metered.withOther_use]
      -- to be put back and to be metered can be done in either order
      have hput (s : Device δ × Board κ) :
          (m.metered uses).placed i (.other ⟨s.1, uses i + 1⟩, s.2)
            = (m.placed i s).metered (tick (some i) uses) := by
        unfold placed metered
        rw [← DeviceTable.put_metered]
      show mapState _ (mapState _ (act.run (d, m.toBoard))) = _
      cases act.run (d, m.toBoard) with
      | ok x s => exact congrArg (EStateM.Result.ok x) (hput s)
      | error f s => exact congrArg (EStateM.Result.error f) (hput s)

variable [Console κ] [Peripheral δ]

/-- A metered machine reads as the machine does, and if the address leads
to a device, that is one more use of it. -/
theorem run_read_metered (a : Word) (uses : Nat → Nat)
    (m : Machine κ δ) :
    (read a).run (m.metered uses)
      = mapState (metered (tick (m.devices.route a) uses))
          ((read a).run m) := by
  have hroute : (m.metered uses).devices.route a = m.devices.route a := rfl
  rw [run_read, run_read, hroute]
  cases m.devices.route a with
  | none => rfl
  | some i =>
      exact run_onDevice_metered i (Peripheral.read a) (Peripheral.read a)
        (fun _ _ => rfl) uses m

/-- A write, too, is one more use of the device that it leads to, if it
leads to one. -/
theorem run_write_metered (a w : Word) (uses : Nat → Nat)
    (m : Machine κ δ) :
    (write a w).run (m.metered uses)
      = mapState (metered (tick (m.devices.route a) uses))
          ((write a w).run m) := by
  have hroute : (m.metered uses).devices.route a = m.devices.route a := rfl
  rw [run_write, run_write, hroute]
  cases m.devices.route a with
  | none => rfl
  | some i =>
      exact run_onDevice_metered i (Peripheral.write a w)
        (Peripheral.write a w) (fun _ _ => rfl) uses m

-- ================================================================ in step

/-- The second machine is the first with meters. -/
def Meters (m : Machine κ δ) (n : Machine κ (Metered δ)) : Prop :=
  ∃ uses, n = m.metered uses

/-- Reads and writes are all that a machine notices of its devices, and
those are the same with meters. -/
theorem refit_metered :
    Refit (metered : (Nat → Nat) → Machine κ δ → Machine κ (Metered δ)) where
  sight _ _ := rfl
  console _ _ := rfl
  apply a _ _ := by cases a <;> rfl
  withConsole _ _ _ := rfl
  read a uses m := ⟨_, run_read_metered a uses m⟩
  write a w uses m := ⟨_, run_write_metered a w uses m⟩

/-- A step ends in the same way with and without meters. -/
theorem run_step_metered {m : Machine κ δ} {n : Machine κ (Metered δ)}
    (h : Meters m n) : Agree Meters (step.run m) (step.run n) := by
  obtain ⟨uses, rfl⟩ := h
  exact refit_metered.agree twin_step uses m

/-- Step by step, the meters change nothing. -/
theorem stepped_metered (uses : Nat → Nat) (m : Machine κ δ) (n : Nat) :
    Meters (m.stepped n) ((m.metered uses).stepped n) := by
  induction n with
  | zero => exact ⟨uses, rfl⟩
  | succ n ih => exact (run_step_metered ih).after

end Machine

end Lc3
