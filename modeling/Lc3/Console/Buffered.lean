/-
A console with nobody at it: input is queued beforehand, output is kept
until it is taken. Nothing ever waits. A poll of an empty queue comes
back without a key, a read of one is an error.

Closing it is final and makes all four calls fail; the queue and the
output can still be looked after from outside.
-/
import Lc3.Console.Basic
import Lc3.Text.Utf8

namespace Lc3

structure Buffered where
  input : List Byte := []
  output : Array Byte := #[]
  flushes : Nat := 0
  closed : Bool := false
deriving DecidableEq, Repr

namespace Buffered

-- ====================================================== from the outside

def enqueue (b : Buffered) (bytes : List Byte) : Buffered :=
  { b with input := b.input ++ bytes }

def close (b : Buffered) : Buffered := { b with closed := true }

/-- The output so far, and the console without it. -/
def drain (b : Buffered) : List Byte × Buffered :=
  (b.output.toList, { b with output := #[] })

def outputText (b : Buffered) : String := Text.lossy b.output.toList

-- ========================================================= the four calls

def closedError : IoError := ⟨.brokenPipe, "console closed"⟩

def emptyError : IoError := ⟨.unexpectedEof, "no input queued"⟩

def poll : EStateM IoError Buffered (Option Byte) := fun b =>
  if b.closed then .error closedError b
  else
    match b.input with
    | [] => .ok none b
    | key :: rest => .ok (some key) { b with input := rest }

def read : EStateM IoError Buffered Byte := fun b =>
  if b.closed then .error closedError b
  else
    match b.input with
    | [] => .error emptyError b
    | key :: rest => .ok key { b with input := rest }

def write (byte : Byte) : EStateM IoError Buffered Unit := fun b =>
  if b.closed then .error closedError b
  else .ok () { b with output := b.output.push byte }

def flush : EStateM IoError Buffered Unit := fun b =>
  if b.closed then .error closedError b
  else .ok () { b with flushes := b.flushes + 1 }

/-- A closed console does not even look into its queue; an open one hands
out the key in front, if there is one. -/
theorem run_poll (b : Buffered) :
    poll.run b =
      if b.closed then .error closedError b
      else
        match b.input with
        | [] => .ok none b
        | key :: rest => .ok (some key) { b with input := rest } :=
  rfl

instance : Console Buffered where
  call
    | .poll _ => poll
    | .read => read
    | .write byte => write byte
    | .flush => flush
  pending b := b.input.length

instance : LawfulConsole Buffered where
  pending_poll {_ key s s'} h := by
    simp only [Console.call, run_poll] at h
    split at h
    · cases h
    · split at h
      · cases h
      · rename_i hinput
        cases h
        simp [Console.pending, hinput]
  pending_call c s := by
    obtain ⟨input, output, flushes, closed⟩ := s
    cases closed
    · cases c with
      | poll _ | read =>
          cases input with
          | nil => exact Nat.le_refl _
          | cons key rest => exact Nat.le_succ _
      | write _ | flush => exact Nat.le_refl _
    · cases c <;> exact Nat.le_refl _

end Buffered

end Lc3
