/-
The keyboard, as two words in the address space. The status register is
the device: every read of it polls the console for a second, and if a
key came in, sets the ready bit and leaves the key in the data register.
The data register is a plain cell. So a key stays there until the next
one is announced or something else is written to it, and what is stored
in the status register is gone by the time anybody reads it.
-/
import Lc3.Device.Basic

namespace Lc3.Keyboard

def status : Word := 0xfe00

def data : Word := 0xfe02

/-- The status that announces a key. -/
def ready : Word := 0x8000

/-- How long a poll waits, in milliseconds. -/
def patience : Nat := 1000

variable {κ : Type} [Console κ]

def readStatus : Board.Exec κ Word := do
  match ← Board.call (.poll patience) with
  | some key =>
      modify (·.poke status ready)
      modify (·.poke data (Word.ofByte key))
  | none => modify (·.poke status 0)
  return (← get).core.peek status

/-- A read of the status register, seen from outside: a key announced
and delivered, or the status cleared, or nothing done at all. -/
theorem run_readStatus (b : Board κ) :
    readStatus.run b =
      match (Console.call (.poll patience)).run b.console with
      | .ok (some key) console =>
          .ok ready (({ b with console }.poke status ready).poke data
            (Word.ofByte key))
      | .ok none console => .ok 0 ({ b with console }.poke status 0)
      | .error e console => .error (.console e) { b with console } := by
  unfold readStatus
  rw [EStateM.run_bind, Board.call, Board.run_onConsole]
  cases (Console.call (.poll patience)).run b.console with
  | error e console => rfl
  | ok answer console =>
      let b := { b with console }
      cases answer with
      | none =>
          have hcell : (b.poke status 0).core.peek status = 0 := by
            rw [Board.peek_poke, if_pos rfl]
          exact congrArg (EStateM.Result.ok · _) hcell
      | some key =>
          have hcell : ((b.poke status ready).poke data
              (Word.ofByte key)).core.peek status = ready := by
            rw [Board.peek_poke, Board.peek_poke, if_neg (by decide),
              if_pos rfl]
          exact congrArg (EStateM.Result.ok · _) hcell

def read (a : Word) : Board.Exec κ Word :=
  if a = status then readStatus else throw (.addressUnserved a)

end Lc3.Keyboard
