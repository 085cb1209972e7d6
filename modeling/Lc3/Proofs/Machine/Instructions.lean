/-
What an instruction leaves behind: that it went well, and what of the
machine it has left alone, or that it failed, and then hardly anything
has changed.

Most instructions access memory once and change the machine after that,
so there is little to show. The loads and stores through a pointer access
it twice, and the first access may be the one that polls. It takes both
facts about such a read to see that nothing fails behind it: it answers
one of two words, and neither of them leads back to the keyboard's
status. The same two words, fetched as instructions, are a branch on
nothing and an instruction this machine does not have.
-/
import Lc3.Proofs.Machine.Routines

namespace Lc3.Machine

variable {κ δ : Type}

/-- The same devices, the same count, and the machine runs if it did. -/
structure Steady (m m' : Machine κ δ) : Prop where
  executed : m'.core.executed = m.core.executed
  devices : m'.devices = m.devices
  running : m'.running = m.running

namespace Steady

/-- Two stretches with the same devices and the same count are one. -/
theorem trans {m m₁ m₂ : Machine κ δ} (h : Steady m m₁)
    (h' : Steady m₁ m₂) : Steady m m₂ where
  executed := h'.executed.trans h.executed
  devices := h'.devices.trans h.devices
  running := h'.running.trans h.running

end Steady

/-- A poll counts no instruction and stops nothing. -/
theorem Polled.steady {m m' : Machine κ δ} (h : Polled m m') :
    Steady m m' :=
  ⟨h.executed, h.devices, h.running⟩

/-- What leaves the core alone leaves its count alone. -/
theorem Untouched.steady {m m' : Machine κ δ} (h : Untouched m m') :
    Steady m m' :=
  h.polled.steady

-- =========================================================== what is done

/-- One of the two instructions that put out a string. -/
abbrev PutsString (i : Instr) : Prop :=
  i = .trap TrapRoutine.puts.vector ∨ i = .trap TrapRoutine.putsp.vector

abbrev Halts (i : Instr) : Prop := i = .trap TrapRoutine.halt.vector

/-- What an instruction that succeeds has done to the running of the
machine, and what it tells of it. -/
def Done (i : Instr) (status : Status) (m m' : Machine κ δ) : Prop :=
  ¬ Halts i ∧ status = .running ∧ Steady m m'
    ∨ Halts i ∧ status = .halted ∧ Untouched { m with running := false } m'

/-- What an instruction that fails may have done. -/
def Broken (i : Instr) (m m' : Machine κ δ) : Prop :=
  Untouched m m' ∨ PutsString i ∧ Polled m m'

/-- What was done at the console before an instruction makes no difference
to what it has done. -/
theorem Done.after {i : Instr} {status : Status} {m m₁ m' : Machine κ δ}
    (h : Untouched m m₁) (h' : Done i status m₁ m') :
    Done i status m m' := by
  rcases h' with ⟨hi, hs, h'⟩ | ⟨hi, hs, h'⟩
  · exact .inl ⟨hi, hs, h.steady.trans h'⟩
  · exact .inr ⟨hi, hs, h.stopped.trans h'⟩

/-- Nor does it to what an instruction that failed may have done. -/
theorem Broken.after {i : Instr} {m m₁ m' : Machine κ δ}
    (h : Untouched m m₁) (h' : Broken i m₁ m') : Broken i m m' := by
  rcases h' with h' | ⟨hi, h'⟩
  · exact .inl (h.trans h')
  · exact .inr ⟨hi, h.polled.trans h'⟩

/-- A routine at its end has stopped the machine if it was to halt, and told
so, and has done neither otherwise. -/
theorem Ran.done {t : TrapRoutine} {m m' : Machine κ δ}
    (h : Ran t m m') :
    Done (.trap t.vector) (statusAfter t) m m' := by
  cases t with
  | halt => exact .inr ⟨rfl, rfl, h⟩
  | getc | input =>
      obtain ⟨key, h⟩ := h
      exact .inl ⟨by decide, rfl, h.steady.executed, h.devices, h.running⟩
  | out => exact .inl ⟨by decide, rfl, Untouched.steady h⟩
  | puts | putsp => exact .inl ⟨by decide, rfl, Polled.steady h⟩

/-- Of the routines that fail, the two that put out a string may have
polled. -/
theorem GaveUp.broken {t : TrapRoutine} {m m' : Machine κ δ}
    (h : GaveUp t m m') : Broken (.trap t.vector) m m' := by
  cases t with
  | puts => exact .inr ⟨.inl rfl, h⟩
  | putsp => exact .inr ⟨.inr rfl, h⟩
  | getc | out | input | halt => exact .inl h

-- ==================================================== the words of a poll

/-- Neither word that a poll answers with leads to the status. -/
theorem ne_status_of_polled {w : Word} (h : w = 0 ∨ w = Keyboard.ready) :
    w ≠ Keyboard.status := by
  rcases h with rfl | rfl <;> decide

/-- Going somewhere or staying cannot fail. -/
theorem meets_jump (target : Option Word) (m : Machine κ δ) :
    Meets (fun _ => Steady m) (fun _ _ => False)
      ((match target with
        | none => pure ()
        | some a => setPc a : Exec κ δ Unit).run m) := by
  cases target <;> exact ⟨rfl, rfl, rfl⟩

variable [Console κ] [Peripheral δ]

/-- As an instruction, either of them does nothing that could fail. -/
theorem perform_polled {w : Word} (h : w = 0 ∨ w = Keyboard.ready)
    (m : Machine κ δ) :
    Meets (fun status m' => status = .running ∧ Steady m m')
      (fun _ _ => False) ((perform (Instr.decode w)).run m) := by
  rw [run_perform]
  rcases h with rfl | rfl
  · exact meets_proceed
      (meets_jump (m.core.branch false false false 0) m)
  · exact ⟨rfl, rfl, rfl, rfl⟩

-- =========================================================== instructions

/-- A read that fails does so at the status and has done nothing. One
that succeeds has done nothing either, or its word leads elsewhere. -/
theorem meets_read_once (a : Word) {m : Machine κ δ}
    (hdev : m.devices = .standard) :
    Meets
      (fun w m' => Steady m m' ∧ (m' = m ∨ w ≠ Keyboard.status))
      (fun _ m' => a = Keyboard.status ∧ Untouched m m')
      ((read a).run m) := by
  refine (meets_read hdev a).imp ?_ ?_
  · rintro w m' ⟨hpolled, ⟨-, -, hm⟩ | ⟨-, hw⟩⟩
    · exact ⟨hpolled.steady, .inl hm⟩
    · exact ⟨hpolled.steady, .inr (ne_status_of_polled hw)⟩
  · rintro f m' ⟨ha, e, console, -, -, rfl⟩
    exact ⟨ha, ⟨rfl, rfl, rfl⟩⟩

/-- Two reads, the second where the first says, fail with nothing
done. -/
theorem meets_read_twice (a : Word) {m : Machine κ δ}
    (hdev : m.devices = .standard) :
    Meets (fun _ => Steady m) (fun _ => Untouched m)
      ((do read (← read a) : Exec κ δ Word).run m) := by
  refine ((meets_read_once a hdev).imp (fun _ _ => id)
    (fun _ _ => And.right)).bind ?_
  rintro w m₁ ⟨hsteady, hm | hw⟩
  · -- the first read was plain: the second may fail, with nothing done
    subst hm
    exact (meets_read_once w hdev).imp (fun _ _ => And.left)
      (fun _ _ => And.right)
  · -- the first read polled: the second is not at the status
    have hdev₁ := hsteady.devices.trans hdev
    exact (meets_read_once w hdev₁).imp
      (fun _ _ h => hsteady.trans h.1)
      (fun _ _ h => absurd h.1 hw)

/-- A write does not fail. -/
theorem meets_write (a w : Word) {m : Machine κ δ}
    (hdev : m.devices = .standard) :
    Meets (fun _ => Steady m) (fun _ _ => False) ((write a w).run m) := by
  rw [run_write_standard a w m hdev]
  exact ⟨rfl, rfl, rfl⟩

/-- Of all instructions but traps: one that succeeds leaves the machine
running as it was, and one that fails has done nothing at all. What can fail
is a read, and it comes before everything that changes something. A second
read, through the pointer that the first one brought, cannot fail if the
first has polled. -/
theorem meets_enact (act : Action) (m : Machine κ δ)
    (hdev : m.devices = .standard) (hact : ∀ v, act ≠ .trap v) :
    Meets (fun status m' => status = .running ∧ Steady m m')
      (fun _ => Untouched m) ((enact m.core act).run m) := by
  have hresult (dr : Reg) {m₁ : Machine κ δ} (h : Steady m m₁) (w : Word) :
      Meets (fun _ => Steady m) (fun _ => Untouched m)
        ((setResult dr w).run m₁) := ⟨h.executed, h.devices, h.running⟩
  have hwrite {m₁ : Machine κ δ} (h : Steady m m₁) (a w : Word) :
      Meets (fun _ => Steady m) (fun _ => Untouched m)
        ((write a w).run m₁) :=
    (meets_write a w (h.devices.trans hdev)).imp
      (fun _ _ => h.trans) (fun _ _ => False.elim)
  have hread (a : Word) :
      Meets (fun _ => Steady m) (fun _ => Untouched m)
        ((read a).run m) :=
    (meets_read_once a hdev).imp (fun _ _ => And.left)
      (fun _ _ => And.right)
  -- by action; what is computed, looked up or jumped to cannot fail
  cases act with
  | compute dr value =>
      exact meets_proceed (hresult dr ⟨rfl, rfl, rfl⟩ (value m.core))
  | load dr address =>
      exact meets_proceed <|
        (hread (address m.core)).bind fun w _ h => hresult dr h w
  | loadVia dr pointer =>
      refine meets_proceed (Q := fun _ => Steady m) ?_
      have htwice := meets_read_twice (pointer m.core) hdev
      have hload : (do
          setResult dr (← read (← read (pointer m.core))) :
            Exec κ δ Unit)
          = (do read (← read (pointer m.core))) >>= setResult dr := by
        rw [bind_assoc]
      rw [hload]
      exact htwice.bind fun w _ h => hresult dr h w
  | store sr address =>
      exact meets_proceed (hwrite ⟨rfl, rfl, rfl⟩ (address m.core) _)
  | storeVia sr pointer =>
      exact meets_proceed <|
        (hread (pointer m.core)).bind fun a m₁ h =>
          hwrite h a (m₁.core.reg sr)
  | jump target =>
      exact meets_proceed <|
        (meets_jump (target m.core) m).imp (fun _ _ => id)
          (fun _ _ => False.elim)
  | link target => exact ⟨rfl, rfl, rfl, rfl⟩
  | ignore op => exact ⟨rfl, rfl, rfl, rfl⟩
  | trap v => exact absurd rfl (hact v)

-- =================================================== traps and the others

/-- A routine has one vector. -/
theorem vector_of_ofVector? {v : Byte} {t : TrapRoutine}
    (h : TrapRoutine.ofVector? v = some t) : v = t.vector := by
  have hfound : decide (t.vector = v) = true :=
    List.find?_some (p := fun t => decide (TrapRoutine.vector t = v)) h
  exact (of_decide_eq_true hfound).symm

/-- Of a trap: with a routine it does what that leaves behind, and without
one it fails at the console or not at all. -/
theorem meets_trap (v : Byte) (m : Machine κ δ)
    (hdev : m.devices = .standard) :
    Meets (fun status => Done (.trap v) status m)
      (fun _ => Broken (.trap v) m) ((trap v).run m) := by
  unfold trap
  cases hv : TrapRoutine.ofVector? v with
  | none =>
      have hhalt : ¬ Halts (.trap v) := by
        intro h
        injection h with h
        rw [h] at hv
        cases hv
      exact .inl ⟨hhalt, rfl, rfl, rfl, rfl⟩
  | some t =>
      rw [vector_of_ofVector? hv]
      let noted := { m with toBoard := m.toBoard.note (.trapCalled t) }
      have hnote : Untouched m noted := ⟨rfl, rfl, rfl⟩
      refine (meets_routine t noted hdev).imp ?_ ?_
      · rintro status m' ⟨rfl, h⟩
        exact .after hnote h.done
      · intro f m' h
        exact .after hnote h.broken

/-- An instruction is a trap or none, and either way it leaves what it
should. -/
theorem meets_perform (i : Instr) (m : Machine κ δ)
    (hdev : m.devices = .standard) :
    Meets (fun status => Done i status m) (fun _ => Broken i m)
      ((perform i).run m) := by
  rw [run_perform]
  by_cases htrap : ∃ v, i = .trap v
  · obtain ⟨v, rfl⟩ := htrap
    exact meets_trap v m hdev
  · have hact (v : Byte) : i.action ≠ .trap v := by
      intro h
      cases i <;> cases h
      exact htrap ⟨v, rfl⟩
    have hhalt : ¬ Halts i := fun h => htrap ⟨_, h⟩
    exact (meets_enact i.action m hdev hact).imp
      (fun _ _ h => .inl ⟨hhalt, h⟩) (fun _ _ h => .inl h)

-- ======================================================== fetching a word

/-- A fetch that reads a plain cell only moves the program counter. -/
theorem run_fetch_of_ne {m : Machine κ δ} (hdev : m.devices = .standard)
    (hpc : m.core.pc ≠ Keyboard.status) :
    fetch.run m = .ok (m.core.peek m.core.pc)
      { m with toBoard := m.toBoard.setPc (m.core.pc + 1) } := by
  rw [run_fetch, run_read_of_ne hdev hpc]

/-- A fetch may poll, and counts nothing. -/
theorem meets_fetch (m : Machine κ δ) (hdev : m.devices = .standard) :
    Meets (fun _ => Steady m) (fun _ => Steady m) (fetch.run m) := by
  have hread := polled_read m.core.pc hdev
  rw [run_fetch]
  cases h : (read m.core.pc).run m with
  | error f m₁ => exact (hread.of_error h).steady
  | ok w m₁ =>
      have hsteady := (hread.of_ok h).steady
      exact ⟨hsteady.executed, hsteady.devices, hsteady.running⟩

/-- Executing is counted first, and what an instruction leaves it leaves to
the machine that has counted it. -/
theorem meets_execute (w : Word) (m : Machine κ δ)
    (hdev : m.devices = .standard) :
    Meets (fun status => Done (Instr.decode w) status (m.counted w))
      (fun _ => Broken (Instr.decode w) (m.counted w))
      ((execute w).run m) := by
  rw [run_execute]
  exact meets_perform (Instr.decode w) (m.counted w) hdev

end Lc3.Machine
