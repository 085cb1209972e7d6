/-
The vocabulary of the instruction set that needs no operands: registers,
the sixteen opcodes, the six trap routines and the three conditions.

Every four-bit number is an opcode, so reading one out of a word cannot
fail; trap vectors are a byte wide and most of them name nothing.
-/
import Lc3.Word
import Lc3.Text.Numeral

namespace Lc3

-- ============================================================== registers

/-- One of the eight general registers. -/
abbrev Reg := BitVec 3

namespace Reg

/-- Only the low three bits of a word select a register. -/
def ofWord (w : Word) : Reg := w.setWidth 3

def name (r : Reg) : String := "R" ++ Text.decimal r.toNat

end Reg

-- ================================================================ opcodes

inductive Opcode where
  | br | add | ld | st | jsr | and | ldr | str
  | rti | not | ldi | sti | jmp | res | lea | trap
deriving DecidableEq, Repr

namespace Opcode

/-- In the order of their numbers. -/
def all : List Opcode :=
  [br, add, ld, st, jsr, .and, ldr, str,
   rti, .not, ldi, sti, jmp, res, lea, trap]

def ofBits (b : BitVec 4) : Opcode :=
  match b.toNat with
  | 0 => br
  | 1 => add
  | 2 => ld
  | 3 => st
  | 4 => jsr
  | 5 => .and
  | 6 => ldr
  | 7 => str
  | 8 => rti
  | 9 => .not
  | 10 => ldi
  | 11 => sti
  | 12 => jmp
  | 13 => res
  | 14 => lea
  | _ => trap

def number : Opcode → Nat
  | br => 0
  | add => 1
  | ld => 2
  | st => 3
  | jsr => 4
  | .and => 5
  | ldr => 6
  | str => 7
  | rti => 8
  | .not => 9
  | ldi => 10
  | sti => 11
  | jmp => 12
  | res => 13
  | lea => 14
  | trap => 15

def ofNumber? (n : Int) : Option Opcode :=
  all.find? fun op => op.number = n

def name : Opcode → String
  | br => "BR"
  | add => "ADD"
  | ld => "LD"
  | st => "ST"
  | jsr => "JSR"
  | .and => "AND"
  | ldr => "LDR"
  | str => "STR"
  | rti => "RTI"
  | .not => "NOT"
  | ldi => "LDI"
  | sti => "STI"
  | jmp => "JMP"
  | res => "RES"
  | lea => "LEA"
  | trap => "TRAP"

/-- Whether an instruction with this opcode leaves its result in the
condition codes. Loads and arithmetic do, and so does the address that
LEA computes. -/
def setsCond : Opcode → Bool
  | add | .and | .not | ld | ldi | ldr | lea => true
  | _ => false

theorem ofBits_number (op : Opcode) : ofBits op.number = op := by
  cases op <;> rfl

/-- No two four-bit numbers are the same opcode, and none is left over. -/
theorem number_ofBits (b : BitVec 4) : (ofBits b).number = b.toNat := by
  revert b
  decide

end Opcode

-- ========================================================== trap routines

inductive TrapRoutine where
  | getc | out | puts | input | putsp | halt
deriving DecidableEq, Repr

namespace TrapRoutine

def all : List TrapRoutine := [getc, out, puts, input, putsp, halt]

def vector : TrapRoutine → Byte
  | getc => 0x20
  | out => 0x21
  | puts => 0x22
  | input => 0x23
  | putsp => 0x24
  | halt => 0x25

def ofNumber? (n : Int) : Option TrapRoutine :=
  all.find? fun t => t.vector.toNat = n

def ofVector? (v : Byte) : Option TrapRoutine :=
  all.find? fun t => t.vector = v

def name : TrapRoutine → String
  | getc => "GETC"
  | out => "OUT"
  | puts => "PUTS"
  | input => "IN"
  | putsp => "PUTSP"
  | halt => "HALT"

end TrapRoutine

-- ============================================================= conditions

/-- What the latest result was. -/
inductive Cond where
  | neg | zero | pos
deriving DecidableEq, Repr

namespace Cond

/-- The sign of a word, read as two's complement. -/
def ofWord (w : Word) : Cond :=
  if w = 0 then zero else if w.msb then neg else pos

/-- The place of each condition in the three bits by which a branch
names its conditions. -/
def bits : Cond → BitVec 3
  | neg => 4
  | zero => 2
  | pos => 1

/-- Whether a branch on these conditions is taken under this one. -/
def selectedBy (c : Cond) (n z p : Bool) : Bool :=
  match c with
  | neg => n
  | zero => z
  | pos => p

def name : Cond → String
  | neg => "Neg"
  | zero => "Zero"
  | pos => "Pos"

def letter : Cond → Char
  | neg => 'N'
  | zero => 'Z'
  | pos => 'P'

end Cond

end Lc3
