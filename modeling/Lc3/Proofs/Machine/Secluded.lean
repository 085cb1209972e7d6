/-
Steps that keep to themselves. An instruction that calls no trap routine
and keeps away from the keyboard's status, with its fetch, its loads and
its pointers, has nothing to do with the console. It makes no call, and
what it does to the machine it does on any console, of whatever kind.

A store may well go to the status. It is a read that polls.
-/
import Lc3.Proofs.Machine.Broken
import Lc3.Proofs.Machine.Runs

namespace Lc3

/-- The addresses that an action reads, one after the other. -/
def Action.reads (c : Core) : Action → List Word
  | load _ address => [address c]
  | loadVia _ pointer => [pointer c, c.peek (pointer c)]
  | storeVia _ pointer => [pointer c]
  | _ => []

/-- The vectors that name no routine are those outside of six. -/
theorem TrapRoutine.ofVector?_eq_none {v : Byte}
    (h : v < 0x20 ∨ 0x25 < v) : ofVector? v = none := by
  revert v
  decide +kernel

namespace Machine

variable {κ κ' δ : Type}

/-- The machine with another console. -/
def onto (c : κ') (m : Machine κ δ) : Machine κ' δ where
  core := m.core
  journal := m.journal
  console := c
  devices := m.devices
  running := m.running

/-- The instruction at the program counter. -/
def atPc (m : Machine κ δ) : Instr := Instr.decode (m.core.peek m.core.pc)

/-- The core that this instruction finds, when it has been fetched and
counted. -/
def coreAtPc (m : Machine κ δ) : Core :=
  { m.core with pc := m.core.pc + 1, executed := m.core.executed + 1 }

/-- The next step calls no routine and does not read the status. -/
structure Secluded (m : Machine κ δ) : Prop where
  fetch : m.core.pc ≠ Keyboard.status
  trap : ∀ v, m.atPc = .trap v → v < 0x20 ∨ 0x25 < v
  reads : Keyboard.status ∉ m.atPc.action.reads m.coreAtPc

variable [Console κ] [Console κ'] [Peripheral δ]

/-- An action that reads nothing but cells, and is no routine, does on any
console what it does on its own. By action: a read is of a cell, and a write
is one wherever it goes. -/
theorem enact_onto {act : Action} {m : Machine κ δ}
    (hdev : m.devices = .standard)
    (htrap : ∀ v, act = .trap v → TrapRoutine.ofVector? v = none)
    (hreads : Keyboard.status ∉ act.reads m.core) (c : κ') :
    (enact m.core act).run (m.onto c)
      = mapState (onto c) ((enact m.core act).run m) := by
  have hdev' : (m.onto c).devices = .standard := hdev
  have hread {a : Word} (ha : a ∈ act.reads m.core) :
      (read a).run m = .ok (m.core.peek a) m
        ∧ (read a).run (m.onto c) = .ok (m.core.peek a) (m.onto c) := by
    have hne : a ≠ Keyboard.status := fun h => hreads (h ▸ ha)
    exact ⟨run_read_of_ne hdev hne, run_read_of_ne hdev' hne⟩
  cases act with
  | compute dr value => rfl
  | load dr address =>
      obtain ⟨h, h'⟩ := hread (List.mem_singleton_self _)
      simp only [enact, run_proceed, EStateM.run_bind, h, h']
      rfl
  | loadVia dr pointer =>
      obtain ⟨h, h'⟩ := hread List.mem_cons_self
      obtain ⟨hvia, hvia'⟩ :=
        hread (List.mem_cons_of_mem _ (List.mem_singleton_self _))
      simp only [enact, run_proceed, EStateM.run_bind, h, h', hvia, hvia']
      rfl
  | store sr address =>
      simp only [enact, run_proceed, run_write_standard _ _ _ hdev,
        run_write_standard _ _ _ hdev']
      rfl
  | storeVia sr pointer =>
      obtain ⟨h, h'⟩ := hread (List.mem_singleton_self _)
      simp only [enact, run_proceed, EStateM.run_bind, h, h', run_getReg,
        run_write_standard _ _ _ hdev, run_write_standard _ _ _ hdev']
      rfl
  | jump target =>
      simp only [enact]
      cases target m.core <;> rfl
  | link target => rfl
  | ignore op => rfl
  | trap v =>
      simp only [enact, trap, htrap v rfl]
      rfl

/-- A step that keeps to itself does the same on every console, and so
does one of a machine that is stopped. -/
theorem step_onto {m : Machine κ δ} (hdev : m.devices = .standard)
    (hsecluded : m.running = true → m.Secluded) (c : κ') :
    step.run (m.onto c) = mapState (onto c) (step.run m) := by
  have hdev' : (m.onto c).devices = .standard := hdev
  cases hrun : m.running with
  | false =>
      have hrun' : (m.onto c).running = false := hrun
      rw [run_step_stopped hrun, run_step_stopped hrun']
      rfl
  | true =>
      have hrun' : (m.onto c).running = true := hrun
      have h := hsecluded hrun
      have hpc' : (m.onto c).core.pc ≠ Keyboard.status := h.fetch
      have htrap (v : Byte) (hv : m.atPc.action = .trap v) :
          TrapRoutine.ofVector? v = none :=
        TrapRoutine.ofVector?_eq_none
          (h.trap v (Instr.eq_trap_of_action hv))
      rw [run_step, run_step, if_pos hrun, if_pos hrun',
        run_fetch_of_ne hdev h.fetch, run_fetch_of_ne hdev' hpc']
      dsimp only
      rw [run_execute, run_execute, run_perform, run_perform]
      -- no device is in the way, so both machines execute the same word
      let fetched : Machine κ δ :=
        { m with toBoard := m.toBoard.setPc (m.core.pc + 1) }
      let found := fetched.counted (m.core.peek m.core.pc)
      have hdevices : found.devices = .standard := hdev
      exact enact_onto hdevices htrap h.reads c

end Machine

end Lc3
