/-
A sentry on the bus of any machine. It stands at every address in front of
all the devices there are, and of the cells where there is none. Whatever
is asked of it, it passes on to them and gives back what they answer, and
it keeps a list of what it has been asked, in order, the accesses that
failed included.

The monitor does as much for a machine with the keyboard alone, and knows
its answers. A sentry knows nothing of the devices behind it, so it can be
put before any machine, and the machine goes on as it would have without
(`refit_guarded`).
-/
import Lc3.Proofs.Device.Attaching
import Lc3.Proofs.Device.Monitor
import Lc3.Proofs.Machine.Twin

namespace Lc3

variable {κ δ α : Type}

/-- Something asked of the bus. -/
inductive Visit where
  | read (a : Word)
  | write (a w : Word)
deriving DecidableEq, Repr

structure Sentry (δ : Type) where
  behind : DeviceTable δ
  visits : List Visit

namespace Sentry

/-- Lets the machine behind the sentry answer. Whether it runs does not
matter to its bus. -/
def pass (v : Visit) (act : Machine.Exec κ δ α) :
    DeviceExec κ (Sentry δ) α
  | (d, board) =>
      mapState (fun m => (⟨m.devices, d.visits ++ [v]⟩, m.toBoard))
        (act.run ⟨board, d.behind, true⟩)

instance [Peripheral δ] : Peripheral (Sentry δ) where
  addresses _ := Monitor.everywhere
  read a := pass (.read a) (Machine.read a)
  write a w := pass (.write a w) (Machine.write a w)

end Sentry

namespace Machine

/-- The machine behind a sentry that has seen these visits. -/
def guarded (visits : List Visit) (m : Machine κ δ) :
    Machine κ (Sentry δ) where
  toBoard := m.toBoard
  devices := {
    devices := [.other ⟨m.devices, visits⟩]
    routes := Monitor.everywhere.map fun a => (a, 0) }
  running := m.running

/-- What the sentry has seen. -/
def visited (n : Machine κ (Sentry δ)) : List Visit :=
  match n.devices.devices with
  | [.other d] => d.visits
  | _ => []

theorem route_guarded (visits : List Visit) (m : Machine κ δ) (a : Word) :
    (m.guarded visits).devices.route a = some 0 :=
  Monitor.lookup_map_zero (Monitor.mem_everywhere a)

-- ==================================================== a matter of the bus

/-- What goes on does not depend on whether the machine runs, and does not
stop it. -/
def OffDuty (act : Exec κ δ α) : Prop :=
  ∀ (board : Board κ) (devices : DeviceTable δ) (running running' : Bool),
    act.run ⟨board, devices, running⟩
      = mapState (fun m => { m with running })
          (act.run ⟨board, devices, running'⟩)

/-- A device does not see whether the machine runs. -/
theorem offDuty_onDevice (i : Nat) (act : DeviceExec κ (Device δ) α) :
    OffDuty (onDevice i act) := by
  intro board devices running running'
  cases hd : devices.devices[i]? with
  | none =>
      rw [run_onDevice_missing (m := ⟨board, devices, running⟩) hd,
        run_onDevice_missing (m := ⟨board, devices, running'⟩) hd]
      rfl
  | some d =>
      rw [run_onDevice (m := ⟨board, devices, running⟩) act hd,
        run_onDevice (m := ⟨board, devices, running'⟩) act hd]
      dsimp only
      cases act.run (d, board) <;> rfl

/-- What the machine behind the sentry would have answered, it answers. -/
theorem run_onDevice_guarded {act : Exec κ δ α}
    (hact : OffDuty act) {v : Visit}
    {act' : DeviceExec κ (Device (Sentry δ)) α}
    (hpass : ∀ d b, act'.run (.other d, b)
      = Device.withOther d b (Sentry.pass v act))
    (visits : List Visit) (m : Machine κ δ) :
    (onDevice 0 act').run (m.guarded visits)
      = mapState (guarded (visits ++ [v])) (act.run m) := by
  have hdevice : (m.guarded visits).devices.devices[0]?
      = some (.other ⟨m.devices, visits⟩) := rfl
  have hrunning := hact m.toBoard m.devices m.running true
  rw [run_onDevice _ hdevice, hpass]
  show _ = mapState _ (act.run ⟨m.toBoard, m.devices, m.running⟩)
  rw [hrunning]
  unfold Device.withOther Sentry.pass
  show _ = mapState _ (mapState _ (act.run ⟨m.toBoard, m.devices, true⟩))
  simp only [EStateM.run, guarded]
  cases act ⟨m.toBoard, m.devices, true⟩ <;> rfl

variable [Console κ] [Peripheral δ]

/-- Reading is a matter of the bus, and none of whether the machine runs. -/
theorem offDuty_read (a : Word) : OffDuty (read a : Exec κ δ Word) := by
  intro board devices running running'
  rw [run_read, run_read]
  dsimp only
  cases devices.route a with
  | none => rfl
  | some i => exact offDuty_onDevice i _ board devices running running'

/-- So is writing. -/
theorem offDuty_write (a w : Word) :
    OffDuty (write a w : Exec κ δ Unit) := by
  intro board devices running running'
  rw [run_write, run_write]
  dsimp only
  cases devices.route a with
  | none => rfl
  | some i => exact offDuty_onDevice i _ board devices running running'

/-- A read past the sentry is the read, and one more visit. -/
theorem run_read_guarded (a : Word) (visits : List Visit)
    (m : Machine κ δ) :
    (read a).run (m.guarded visits)
      = mapState (guarded (visits ++ [.read a])) ((read a).run m) := by
  rw [run_read, route_guarded]
  exact run_onDevice_guarded (offDuty_read a) (fun _ _ => rfl) visits m

/-- A write past the sentry is the write, and one more visit. -/
theorem run_write_guarded (a w : Word) (visits : List Visit)
    (m : Machine κ δ) :
    (write a w).run (m.guarded visits)
      = mapState (guarded (visits ++ [.write a w])) ((write a w).run m) := by
  rw [run_write, route_guarded]
  exact run_onDevice_guarded (offDuty_write a w) (fun _ _ => rfl) visits m

-- ================================================================ in step

/-- The second machine is the first behind a sentry. -/
def Guards (m : Machine κ δ) (n : Machine κ (Sentry δ)) : Prop :=
  ∃ visits, n = m.guarded visits

/-- The machine goes on behind a sentry as it would have without. -/
theorem refit_guarded :
    Refit (guarded : List Visit → Machine κ δ → Machine κ (Sentry δ)) where
  sight _ _ := rfl
  console _ _ := rfl
  apply a _ _ := by cases a <;> rfl
  withConsole _ _ _ := rfl
  read a visits m := ⟨_, run_read_guarded a visits m⟩
  write a w visits m := ⟨_, run_write_guarded a w visits m⟩

-- ============================================================== the visits

/-- What a computation asks of the bus, going by the sentry. -/
def visits (p : Exec κ (Sentry δ) α) (m : Machine κ δ) : List Visit :=
  visited (Console.after (p.run (m.guarded [])))

end Machine

end Lc3
