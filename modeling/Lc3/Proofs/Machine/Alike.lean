/-
The journal is written and never read. Machines that differ in their
journals at most are alike, and with the keyboard as the only device,
what one of them does the other does too: they go in step, and stay
alike.

So whatever is said of a machine up to its journal can be said while
notes are added or left out. Opening and closing a run are such notes.
-/
import Lc3.Proofs.Machine.Twin

namespace Lc3.Machine

variable {κ δ : Type}

/-- Nothing but the journal differs. -/
structure Alike (m n : Machine κ δ) : Prop where
  core : m.core = n.core
  console : m.console = n.console
  devices : m.devices = n.devices
  running : m.running = n.running

namespace Alike

theorem symm {m n : Machine κ δ} (h : Alike m n) : Alike n m where
  core := h.core.symm
  console := h.console.symm
  devices := h.devices.symm
  running := h.running.symm

theorem trans {m n o : Machine κ δ} (h : Alike m n) (h' : Alike n o) :
    Alike m o where
  core := h.core.trans h'.core
  console := h.console.trans h'.console
  devices := h.devices.trans h'.devices
  running := h.running.trans h'.running

theorem start (m : Machine κ δ) : Alike m m.start :=
  ⟨rfl, rfl, rfl, rfl⟩

theorem finish (m : Machine κ δ) : Alike m m.finish :=
  ⟨rfl, rfl, rfl, rfl⟩

end Alike

/-- Alike, and with the keyboard as the only device. -/
structure AlikeStandard (m n : Machine κ δ) : Prop where
  alike : Alike m n
  devices : m.devices = .standard

/-- No act on the board looks at the journal. -/
theorem AlikeStandard.apply {m n : Machine κ δ} (a : Act)
    (h : AlikeStandard m n) : AlikeStandard (a.apply m) (a.apply n) := by
  obtain ⟨⟨core, journal, console⟩, devices, running⟩ := m
  obtain ⟨⟨core', journal', console'⟩, devices', running'⟩ := n
  obtain ⟨⟨hcore, hconsole, hdevices, hrunning⟩, hdev⟩ := h
  cases hcore
  cases hconsole
  cases hdevices
  cases hrunning
  cases a <;> exact ⟨⟨rfl, rfl, rfl, rfl⟩, hdev⟩

theorem AlikeStandard.withConsole {m n : Machine κ δ}
    (h : AlikeStandard m n) (console : κ) :
    AlikeStandard { m with console } { n with console } :=
  ⟨⟨h.alike.core, rfl, h.alike.devices, h.alike.running⟩, h.devices⟩

variable [Console κ] [Peripheral δ]

/-- Reads and calls do not look at the journal either, so machines that are
alike go in step. -/
theorem lockstep_alike :
    Lockstep (AlikeStandard : Machine κ δ → Machine κ δ → Prop) where
  sight h := by
    unfold sight
    rw [h.alike.core, h.alike.running]
  apply a h := h.apply a
  read {m n} a h := by
    have hdev : n.devices = .standard := h.alike.devices ▸ h.devices
    by_cases ha : a = Keyboard.status
    · rw [ha, run_read_status h.devices, run_read_status hdev,
        h.alike.console]
      -- both have the one console, and poke what it answers
      cases (Console.call (.poll Keyboard.patience)).run n.console with
      | error e console => exact .error _ (h.withConsole console)
      | ok answer console =>
          have h' := h.withConsole console
          cases answer with
          | none => exact .ok _ (h'.apply (.poke _ _))
          | some key =>
              exact .ok _ ((h'.apply (.poke _ _)).apply (.poke _ _))
    · rw [run_read_of_ne h.devices ha, run_read_of_ne hdev ha,
        h.alike.core]
      exact .ok _ h
  write {m n} a w h := by
    have hdev : n.devices = .standard := h.alike.devices ▸ h.devices
    rw [run_write_standard a w m h.devices, run_write_standard a w n hdev]
    exact .ok () (h.apply (.poke a w))
  call {m n} c h := by
    rw [run_call, run_call, h.alike.console]
    cases (Console.call c).run n.console with
    | error e console => exact .error _ (h.withConsole console)
    | ok x console => exact .ok x (h.withConsole console)

/-- A step does not depend on the journal. -/
theorem agree_step {m n : Machine κ δ} (h : AlikeStandard m n) :
    Agree AlikeStandard (step.run m) (step.run n) := by
  have hlimit (m n : Machine κ δ) (h : AlikeStandard m n) :
      walkLimit m = walkLimit n := by
    unfold walkLimit
    rw [h.alike.console]
  exact twin_step.agree lockstep_alike (lockstep_alike.strings hlimit) h

end Lc3.Machine
