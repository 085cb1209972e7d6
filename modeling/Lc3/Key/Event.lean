/-
What a keyboard reports, and which character a program gets for it.

Only a key going down counts. Without Control, an ASCII character stands
for itself and four named keys have the control character that is
theirs; everything else, arrows and accented letters alike, has none and
is skipped. With Control, a letter becomes the control character it has
in ASCII, whatever its case, with one exception that comes first: a
small c is no input at all but a request to stop.
-/
import Lc3.Word
import Lc3.IoError

namespace Lc3.Key

inductive Code where
  | char (c : Char)
  | enter
  | tab
  | backspace
  | escape
  /-- A key with no character: arrows, function keys and so on. -/
  | special (name : String)
deriving DecidableEq, Repr

structure Modifiers where
  shift : Bool := false
  control : Bool := false
  alt : Bool := false
  super : Bool := false
  hyper : Bool := false
  metaKey : Bool := false
deriving DecidableEq, Repr

inductive Phase where
  | press | held | release
deriving DecidableEq, Repr

structure Event where
  code : Code
  modifiers : Modifiers := {}
  phase : Phase := .press
deriving DecidableEq, Repr

/-- The request to stop. -/
def interrupted : IoError := ⟨.interrupted, "interrupted"⟩

namespace Event

/-- The character of a key pressed together with Control. -/
def controlByte : Code → Except IoError (Option Byte)
  | .char 'c' => .error interrupted
  | .char c =>
      .ok (if c.isAlpha then some (BitVec.ofNat 8 (c.toNat % 32)) else none)
  | _ => .ok none

/-- The character of a key pressed without Control. -/
def plainByte : Code → Option Byte
  | .char c => if c.toNat < 0x80 then some (BitVec.ofNat 8 c.toNat) else none
  | .enter => some 0x0a
  | .tab => some 0x09
  | .backspace => some 0x08
  | .escape => some 0x1b
  | .special _ => none

def byte (e : Event) : Except IoError (Option Byte) :=
  if e.phase ≠ .press then .ok none
  else if e.modifiers.control then controlByte e.code
  else .ok (plainByte e.code)

end Event

end Lc3.Key
