/-
What a step that fails may have done. It has changed no register, no
condition and nothing in memory, it has not stopped the machine, and its
instruction counts as executed if it was fetched at all. The string
routines alone may have disturbed the two cells of the keyboard before
they gave up.
-/
import Lc3.Proofs.Machine.Instructions
import Lc3.Console.Buffered
import Lc3.Console.Tap

namespace Lc3.Machine

variable {κ δ : Type} [Console κ] [Peripheral δ]

/-- Where the fetch would poll, nothing but that poll can fail. -/
theorem failing_poll {m m' : Machine κ δ} {f : Failure}
    (hdev : m.devices = .standard) (hrun : m.running = true)
    (hpc : m.core.pc = Keyboard.status) (h : step.run m = .error f m') :
    ∃ e console,
      (Console.call (.poll Keyboard.patience)).run m.console
          = .error e console
        ∧ f = .console e ∧ m' = { m with console } := by
  have hread := meets_read hdev m.core.pc
  rw [run_step, if_pos hrun, run_fetch] at h
  cases hfetch : (read m.core.pc).run m with
  | error f₁ m₁ =>
      obtain ⟨-, e, console, hpoll, hf, hm⟩ := hread.of_error hfetch
      rw [hfetch] at h
      cases h
      exact ⟨e, console, hpoll, hf, hm⟩
  | ok w m₁ =>
      -- the word fetched is a status, and neither of the two can fail
      have hw : w = 0 ∨ w = Keyboard.ready := by
        rcases (hread.of_ok hfetch).2 with ⟨hne, -⟩ | ⟨-, hw⟩
        · exact absurd hpc hne
        · exact hw
      rw [hfetch] at h
      exact ((perform_polled hw _).of_error
        ((run_execute w _).symm.trans h)).elim

/-- Where it does not, it is the instruction that fails. -/
theorem failing_instr {m m' : Machine κ δ} {f : Failure}
    (hdev : m.devices = .standard) (hrun : m.running = true)
    (hpc : m.core.pc ≠ Keyboard.status) (h : step.run m = .error f m') :
    Broken (Instr.decode (m.core.peek m.core.pc))
      (counted (m.core.peek m.core.pc)
        { m with toBoard := m.toBoard.setPc (m.core.pc + 1) }) m' := by
  rw [run_step, if_pos hrun, run_fetch_of_ne hdev hpc] at h
  exact (meets_execute _ _ (by exact hdev)).of_error h

/-- A step that fails has left the registers and the condition as they
were, and the machine running. Either it could not poll the keyboard for
the instruction itself, and has changed nothing at all; or the program
counter and the count have moved on by one, and memory is as it was. But
PUTS and PUTSP may have changed the two cells of the keyboard. -/
theorem failing_step_keeps {m m' : Machine κ δ} {f : Failure}
    (hdev : m.devices = .standard) (h : step.run m = .error f m') :
    m'.core.regs = m.core.regs ∧ m'.core.cond = m.core.cond
      ∧ m.running = true ∧ m'.running = true
      ∧ (m.core.pc = Keyboard.status ∧ m'.core = m.core
          ∧ (∃ e console,
              (Console.call (.poll Keyboard.patience)).run m.console
                = .error e console
              ∧ f = .console e)
        ∨ m.core.pc ≠ Keyboard.status ∧ m'.core.pc = m.core.pc + 1
          ∧ m'.core.executed = m.core.executed + 1
          ∧ (m'.core.mem = m.core.mem
            ∨ PutsString (Instr.decode (m.core.peek m.core.pc))
              ∧ ∀ a, a ≠ Keyboard.status → a ≠ Keyboard.data →
                m'.core.peek a = m.core.peek a)) := by
  have hrun : m.running = true := by
    cases hrun : m.running with
    | true => rfl
    | false =>
        rw [run_step, hrun] at h
        cases h
  -- a program counter at the status polls, and then the fetch may fail
  by_cases hpc : m.core.pc = Keyboard.status
  · obtain ⟨e, console, hpoll, hf, rfl⟩ := failing_poll hdev hrun hpc h
    exact ⟨rfl, rfl, hrun, hrun, .inl ⟨hpc, rfl, e, console, hpoll, hf⟩⟩
  · rcases failing_instr hdev hrun hpc h with h' | ⟨hputs, h'⟩
    · have hcore := h'.core
      refine ⟨?_, ?_, hrun, h'.running.trans hrun, .inr ⟨hpc, ?_⟩⟩
      · rw [hcore]; rfl
      · rw [hcore]; rfl
      · rw [hcore]
        exact ⟨rfl, rfl, .inl rfl⟩
    · exact ⟨h'.regs, h'.cond, hrun, h'.running.trans hrun,
        .inr ⟨hpc, h'.pc, h'.executed, .inr ⟨hputs, h'.mem⟩⟩⟩

/-- An IN whose echo fails, when its key is already taken. -/
def echoless : Machine (Tap Buffered) Empty :=
  let m := Machine.new
    { inner := { input := [0x6b] }
      fault := some (21, Buffered.closedError) }
  { m with toBoard := m.toBoard.poke Core.entry 0xf023 }

/-- The key is gone from the queue although the step has failed. -/
theorem echoless_takes_key :
    Meets (fun _ _ => False) (fun _ m' => m'.console.inner.input = [])
      (step.run echoless) := by
  decide +kernel

/-- Nothing but the count and the program counter tells that the instruction
was there. -/
theorem failing_step_keeps_echoless :
    ∃ f m', echoless.devices = .standard
      ∧ step.run echoless = .error f m'
      ∧ m'.console.inner.input = []
      ∧ m'.core.regs = echoless.core.regs
      ∧ m'.core.cond = echoless.core.cond
      ∧ m'.running = true
      ∧ m'.core.pc = echoless.core.pc + 1
      ∧ m'.core.executed = echoless.core.executed + 1
      ∧ m'.core.mem = echoless.core.mem := by
  have hdev : echoless.devices = .standard := rfl
  cases h : step.run echoless with
  | ok status m' => exact (echoless_takes_key.of_ok h).elim
  | error f m' =>
  have hinput := echoless_takes_key.of_error h
  obtain ⟨hregs, hcond, -, hrun, ⟨hpc, -⟩ | ⟨-, hpc, hexec, hmem⟩⟩ :=
    failing_step_keeps hdev h
  · exact absurd hpc (by decide)
  · rcases hmem with hmem | ⟨hputs, -⟩
    · exact ⟨f, m', hdev, rfl, hinput, hregs, hcond, hrun, hpc, hexec, hmem⟩
    · have hin : Instr.decode (echoless.core.peek echoless.core.pc)
          = .trap 0x23 := rfl
      rw [hin] at hputs
      exact absurd hputs (by decide)

end Lc3.Machine
