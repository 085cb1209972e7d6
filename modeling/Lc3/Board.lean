/-
What a device can reach: the processor core, the console, and the
journal in which every write to the core leaves its record. There is no
other way to write memory, a register or the program counter from here
on, which is why the journal is complete.

Two changes leave no record of their own: the condition codes, which
follow from the register written just before, and the count of executed
instructions.
-/
import Lc3.Core
import Lc3.Journal
import Lc3.Failure
import Lc3.Console.Basic

namespace Lc3

structure Board (κ : Type) where
  core : Core
  journal : Journal
  console : κ
deriving DecidableEq, Repr

namespace Board

variable {κ : Type}

-- ====================================================== recorded changes

def note (r : Record) (b : Board κ) : Board κ :=
  { b with journal := b.journal.note r }

def poke (a w : Word) (b : Board κ) : Board κ :=
  let b := b.note (.memWritten a w)
  { b with core := { b.core with mem := b.core.mem.set a w } }

theorem peek_poke (b : Board κ) (a c w : Word) :
    (b.poke a w).core.peek c = if a = c then w else b.core.peek c :=
  Bank.get_set b.core.mem a c w

def setReg (r : Reg) (w : Word) (b : Board κ) : Board κ :=
  let b := b.note (.regWritten r w)
  { b with core := { b.core with regs := b.core.regs.set r w } }

def setPc (w : Word) (b : Board κ) : Board κ :=
  let b := b.note (.pcWritten w)
  { b with core := { b.core with pc := w } }

/-- Puts an image into memory, whatever devices there are. -/
def load (image : Image) (b : Board κ) : Board κ :=
  (image.cells.foldl (fun b (a, w) => b.poke a w) b).note
    (.imageLoaded image.words.length image.origin)

-- ==================================================== changes of their own

def setCond (c : Cond) (b : Board κ) : Board κ :=
  { b with core := { b.core with cond := some c } }

def countInstr (b : Board κ) : Board κ :=
  { b with core := { b.core with executed := b.core.executed + 1 } }

-- =============================================================== the console

/-- A computation on the board. What it did before it failed stays
done. -/
abbrev Exec (κ : Type) := EStateM Failure (Board κ)

/-- Does something with the console. Its errors are failures of the
machine. -/
def onConsole {α : Type} (act : EStateM IoError κ α) : Exec κ α
  | ⟨core, journal, console⟩ =>
      match act.run console with
      | .ok x console => .ok x ⟨core, journal, console⟩
      | .error e console => .error (.console e) ⟨core, journal, console⟩

/-- The console does its part and the core and the journal stay; what it
raises becomes a failure of the machine that names it as the cause. -/
theorem run_onConsole {α : Type} (act : EStateM IoError κ α)
    (b : Board κ) :
    (onConsole act).run b =
      match act.run b.console with
      | .ok x console => .ok x { b with console }
      | .error e console => .error (.console e) { b with console } := by
  rfl

def call [Console κ] (c : Console.Call) : Exec κ c.Answer :=
  onConsole (Console.call c)

end Board

end Lc3
