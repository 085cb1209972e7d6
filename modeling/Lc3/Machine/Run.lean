/-
Running until a halt. A program need not halt, so a run is cut into
stretches of a bounded number of steps: `start` opens it, and `advance`
carries it on until it has halted or failed. Cutting it differently
changes nothing (`advance_add`).
-/
import Lc3.Machine.Step

namespace Lc3.Machine

/-- How far a run has come. -/
inductive Progress where
  | going
  | halted
  | failed (f : Failure)
deriving DecidableEq, Repr

variable {κ δ : Type}

/-- Opens a run at the program counter. -/
def start (m : Machine κ δ) : Machine κ δ :=
  { m with toBoard := m.toBoard.note (.started m.core.pc) }

/-- Opens a run at an address. -/
def startAt (a : Word) (m : Machine κ δ) : Machine κ δ :=
  start { m with toBoard := m.toBoard.setPc a }

/-- Closes a run that has come to its halt. -/
def finish (m : Machine κ δ) : Machine κ δ :=
  { m with toBoard := m.toBoard.note (.halted m.core.executed) }

variable [Console κ] [Peripheral δ]

/-- Carries a run on by at most that many steps. -/
def advance : Nat → Machine κ δ → Progress × Machine κ δ
  | 0, m => (.going, m)
  | limit + 1, m =>
      match step.run m with
      | .ok .running m => advance limit m
      | .ok .halted m => (.halted, finish m)
      | .error f m => (.failed f, m)

/-- A run that is carried on twice has come as far as one that was carried
on by both at once, and one that has ended stays where it is. -/
theorem advance_add (i j : Nat) (m : Machine κ δ) :
    advance (i + j) m =
      match advance i m with
      | (.going, m) => advance j m
      | ended => ended := by
  induction i generalizing m with
  | zero => rw [Nat.zero_add]; rfl
  | succ i ih =>
      simp only [Nat.succ_add, advance]
      cases step.run m with
      | error f m => rfl
      | ok status m =>
          cases status with
          | running => exact ih m
          | halted => rfl

end Lc3.Machine
