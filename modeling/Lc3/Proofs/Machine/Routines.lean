/-
The frame of each trap routine: what it leaves of the machine when it
comes to its end, and what when the console fails on the way.

A routine that gives up has changed nothing but the console, whichever
of its calls it was that failed. The string routines are the exception,
because their loop may have polled the keyboard before, and with a
console that breaks its promise about keys they may give up without any
call failing at all. So nothing is assumed of the console here.
-/
import Lc3.Proofs.Machine.Action
import Lc3.Proofs.Machine.Bus

namespace Lc3.Machine

variable {κ δ α β : Type}

-- ========================================================== console calls

/-- Leaves the machine untouched, whatever it comes to. -/
def Quiet (p : Exec κ δ α) (m : Machine κ δ) : Prop :=
  Meets (fun _ => Untouched m) (fun _ => Untouched m) (p.run m)

/-- What follows a quiet computation answers for the machine before it
as if it had started there, as far as giving up goes. -/
theorem Quiet.andThen {p : Exec κ δ α} {f : α → Exec κ δ β}
    {m : Machine κ δ} {Q : β → Machine κ δ → Prop} (h : Quiet p m)
    (hf : ∀ x m', Untouched m m' →
      Meets Q (fun _ => Untouched m') ((f x).run m')) :
    Meets Q (fun _ => Untouched m) ((p >>= f).run m) :=
  h.bind fun x m' h' =>
    (hf x m' h').imp (fun _ _ => id) (fun _ _ => h'.trans)

/-- The machine with a key in R0. -/
def withKey (key : Byte) (m : Machine κ δ) : Machine κ δ :=
  { m with toBoard := m.toBoard.setReg 0 (Word.ofByte key) }

/-- A key may be put into R0 before or after the console was at work. -/
theorem Untouched.withKey {m m' : Machine κ δ} (h : Untouched m m')
    (key : Byte) : Untouched (m.withKey key) (m'.withKey key) where
  core := congrArg
    (fun c : Core => { c with regs := c.regs.set 0 (Word.ofByte key) })
    h.core
  devices := h.devices
  running := h.running

/-- The machine may be stopped before or after the console was at work. -/
theorem Untouched.stopped {m m' : Machine κ δ} (h : Untouched m m') :
    Untouched { m with running := false }
      { m' with running := false } where
  core := h.core
  devices := h.devices
  running := rfl

variable [Console κ]

/-- A call leaves the machine untouched, answered or not. -/
theorem quiet_call (c : Console.Call) (m : Machine κ δ) :
    Quiet (call c) m :=
  (meets_call c m).imp (fun _ _ => id) (fun _ _ => And.right)

/-- So do the bytes of a text, all of them or those before a failure. -/
theorem quiet_say (bytes : List Byte) (m : Machine κ δ) :
    Quiet (say bytes) m :=
  (meets_say bytes m).imp (fun _ _ => id) (fun _ _ => And.right)

-- ========================================================== one character

/-- GETC leaves a key in R0, or nothing at all. -/
theorem meets_getc (m : Machine κ δ) :
    Meets (fun _ m' => ∃ key, Untouched (m.withKey key) m')
      (fun _ => Untouched m) (getc.run m) :=
  (quiet_call .read m).andThen fun key _ h => ⟨key, h.withKey key⟩

/-- OUT is a write and a flush, so it leaves nothing but at the console. -/
theorem meets_out (m : Machine κ δ) :
    Meets (fun _ => Untouched m) (fun _ => Untouched m) (out.run m) := by
  refine Quiet.andThen (p := outByte) (.refl m) fun b m₁ h₁ => ?_
  refine (quiet_call (.write b) m₁).andThen fun _ m₂ h₂ => ?_
  exact (quiet_call .flush m₂).imp (fun _ _ h => (h₁.trans h₂).trans h)
    (fun _ _ => id)

/-- IN prompts first and puts the key into R0 last, so if its echo fails, R0
is as it was. -/
theorem meets_input (m : Machine κ δ) :
    Meets (fun _ m' => ∃ key, Untouched (m.withKey key) m')
      (fun _ => Untouched m) (input.run m) := by
  refine (quiet_say prompt m).andThen fun _ m₁ h₁ => ?_
  refine (quiet_call .flush m₁).andThen fun _ m₂ h₂ => ?_
  refine (quiet_call .read m₂).andThen fun key m₃ h₃ => ?_
  refine (quiet_call (.write key) m₃).andThen fun _ m₄ h₄ => ?_
  refine (quiet_call .flush m₄).andThen fun _ m₅ h₅ => ?_
  have h : Untouched m m₅ :=
    h₁.trans (h₂.trans (h₃.trans (h₄.trans h₅)))
  exact ⟨key, h.withKey key⟩

/-- HALT stops the machine once its flush has succeeded, and not before. -/
theorem meets_halt (m : Machine κ δ) :
    Meets (fun _ => Untouched { m with running := false })
      (fun _ => Untouched m) (halt.run m) :=
  (quiet_call .flush m).andThen fun _ _ h => h.stopped

-- ================================================================ strings

variable [Peripheral δ]

/-- A read polls or changes nothing, and the same if it fails. -/
theorem polled_read (a : Word) {m : Machine κ δ}
    (hdev : m.devices = .standard) :
    Meets (fun _ => Polled m) (fun _ => Polled m) ((read a).run m) := by
  refine (meets_read hdev a).imp (fun _ _ => And.left) ?_
  rintro f m' ⟨-, e, console, -, -, rfl⟩
  exact Untouched.polled ⟨rfl, rfl, rfl⟩

/-- The loop of a string routine keeps what a poll keeps, also where its
limit cuts it off. -/
theorem polled_walk (bytes : Word → List Byte) (limit : Nat) (a : Word)
    (m : Machine κ δ) (hdev : m.devices = .standard) :
    Meets (fun _ => Polled m) (fun _ => Polled m)
      ((walk bytes limit a).run m) := by
  induction limit generalizing a m with
  | zero => exact Polled.refl m
  | succ limit ih =>
      refine (polled_read a hdev).bind fun w m₁ h₁ => ?_
      show Meets _ _ (EStateM.run (if w = 0 then _ else _) m₁)
      by_cases hw : w = 0
      · rw [if_pos hw]
        exact h₁
      rw [if_neg hw]
      refine ((quiet_say (bytes w) m₁).imp (fun _ _ h => h₁.trans h.polled)
        (fun _ _ h => h₁.trans h.polled)).bind fun _ m₂ h₂ => ?_
      exact (ih (a + 1) m₂ (h₂.devices.trans hdev)).imp
        (fun _ _ => h₂.trans) (fun _ _ => h₂.trans)

/-- The loop of a string routine begins at the address in R0, with the limit
that the console gives it. -/
theorem run_putString (bytes : Word → List Byte) (m : Machine κ δ) :
    (putString bytes).run m =
      (do
        walk bytes (walkLimit m) (m.core.reg 0)
        call .flush : Exec κ δ Unit).run m := by
  unfold putString
  rw [EStateM.run_bind, EStateM.run_get]
  show (getReg 0 >>= fun a => _).run m = _
  rw [EStateM.run_bind, run_getReg]

/-- A string routine reads and writes, and may have polled by the time it
fails. -/
theorem meets_putString (bytes : Word → List Byte) (m : Machine κ δ)
    (hdev : m.devices = .standard) :
    Meets (fun _ => Polled m) (fun _ => Polled m)
      ((putString bytes).run m) := by
  have hloop := polled_walk bytes (walkLimit m) (m.core.reg 0) m hdev
  rw [run_putString]
  exact hloop.bind fun _ m₁ h₁ =>
    (quiet_call .flush m₁).imp (fun _ _ h => h₁.trans h.polled)
      (fun _ _ h => h₁.trans h.polled)

-- ========================================================== every routine

/-- What a routine leaves behind when it has come to its end. -/
def Ran : TrapRoutine → Machine κ δ → Machine κ δ → Prop
  | .getc | .input => fun m m' => ∃ key, Untouched (m.withKey key) m'
  | .out => Untouched
  | .puts | .putsp => Polled
  | .halt => fun m m' => Untouched { m with running := false } m'

/-- What a routine leaves behind when it has given up. -/
def GaveUp : TrapRoutine → Machine κ δ → Machine κ δ → Prop
  | .puts | .putsp => Polled
  | .getc | .out | .input | .halt => Untouched

/-- What the machine is told after a routine. -/
def statusAfter : TrapRoutine → Status
  | .halt => .halted
  | .getc | .out | .puts | .input | .putsp => .running

/-- Each routine leaves behind what is said of it, at its end and when it
gives up. -/
theorem meets_routine (t : TrapRoutine) (m : Machine κ δ)
    (hdev : m.devices = .standard) :
    Meets (fun status m' => status = statusAfter t ∧ Ran t m m')
      (fun _ => GaveUp t m) ((routine t).run m) := by
  cases t with
  | getc => exact meets_proceed (meets_getc m)
  | out => exact meets_proceed (meets_out m)
  | puts => exact meets_proceed (meets_putString single m hdev)
  | input => exact meets_proceed (meets_input m)
  | putsp => exact meets_proceed (meets_putString packed m hdev)
  | halt => exact (meets_halt m).bind fun _ _ h => ⟨rfl, h⟩

end Lc3.Machine
