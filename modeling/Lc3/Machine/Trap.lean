/-
The six trap routines. They are part of the machine and not a program in
its memory, so calling one neither links R7 nor sets a condition.

Each does its console calls in order and gives up at the first that
fails. R0 gets a key only after the last of them, so a key that was read
before a failed echo is lost, and R0 is as before.

The two string routines read memory through the bus from the address in
R0 up to a zero word, wrapping at the top. Memory without a zero word
would keep them going for ever, were it not for the keyboard's status
word, which reads as zero once no key is left; every pass over it takes
one key. `walkLimit` counts this out.
-/
import Lc3.Machine.Basic

namespace Lc3.Machine

/-- Whether the machine goes on after an instruction. -/
inductive Status where
  | running
  | halted
deriving DecidableEq, Repr

variable {κ δ : Type}

/-- Does something after which the machine goes on. -/
def proceed (act : Exec κ δ Unit) : Exec κ δ Status := do
  act
  return .running

-- ========================================================= one character

/-- The byte that a routine takes from R0: its low half. -/
def outByte : Exec κ δ Byte := return (← getReg 0).low

variable [Console κ]

def getc : Exec κ δ Unit := do
  let key ← call .read
  setReg 0 (Word.ofByte key)

def out : Exec κ δ Unit := do
  call (.write (← outByte))
  call .flush

def prompt : List Byte :=
  "Enter a character: ".toList.map fun c => BitVec.ofNat 8 c.toNat

def say (bytes : List Byte) : Exec κ δ Unit :=
  onBoard (Board.onConsole (Console.writeAll bytes))

def input : Exec κ δ Unit := do
  say prompt
  call .flush
  let key ← call .read
  call (.write key)
  call .flush
  setReg 0 (Word.ofByte key)

def halt : Exec κ δ Unit := do
  call .flush
  modify fun m => { m with running := false }

-- =============================================================== strings

/-- How the word of a string is put out: one character in it, the high
half ignored. -/
def single (w : Word) : List Byte := [w.low]

/-- How the word of a string is put out: two characters in it, low half
first; a high half of zero is the end of an odd string. -/
def packed (w : Word) : List Byte :=
  if w.high = 0 then [w.low] else [w.low, w.high]

/-- As many times round memory as there are keys to stumble over, and
once more. -/
def walkLimit (m : Machine κ δ) : Nat :=
  65536 * (Console.pending m.console + 1)

variable [Peripheral δ]

/-- Puts out the string at `a`, reading at most `limit` words. -/
def walk (bytes : Word → List Byte) : (limit : Nat) → (a : Word) →
    Exec κ δ Unit
  | 0, _ => throw .endless
  | limit + 1, a => do
      let w ← read a
      if w = 0 then return
      say (bytes w)
      walk bytes limit (a + 1)

def putString (bytes : Word → List Byte) : Exec κ δ Unit := do
  let limit := walkLimit (← get)
  walk bytes limit (← getReg 0)
  call .flush

-- ============================================================== dispatch

def routine : TrapRoutine → Exec κ δ Status
  | .getc => proceed getc
  | .out => proceed out
  | .puts => proceed (putString single)
  | .input => proceed input
  | .putsp => proceed (putString packed)
  | .halt => do
      halt
      return .halted

/-- A vector that names no routine is reported and does nothing. -/
def trap (vector : Byte) : Exec κ δ Status :=
  match TrapRoutine.ofVector? vector with
  | none => proceed (note (.trapUnknown vector))
  | some t => do
      note (.trapCalled t)
      routine t

end Lc3.Machine
