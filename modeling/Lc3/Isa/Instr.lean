/-
Instructions with their operands. Offsets and immediates are kept as
whole words, already sign extended, so that executing an instruction
adds them and nothing more.

Decoding is total: every word is an instruction, and the bits that a
layout has no use for are dropped.
-/
import Lc3.Isa.Names

namespace Lc3

/-- The second operand of ADD and AND. -/
inductive Operand where
  | reg (r : Reg)
  | imm (w : Word)
deriving DecidableEq, Repr

inductive Instr where
  | br (n z p : Bool) (offset : Word)
  | add (dr sr : Reg) (operand : Operand)
  | and (dr sr : Reg) (operand : Operand)
  | not (dr sr : Reg)
  | ld (dr : Reg) (offset : Word)
  | ldi (dr : Reg) (offset : Word)
  | ldr (dr base : Reg) (offset : Word)
  | lea (dr : Reg) (offset : Word)
  | st (sr : Reg) (offset : Word)
  | sti (sr : Reg) (offset : Word)
  | str (sr base : Reg) (offset : Word)
  | jmp (base : Reg)
  | jsr (offset : Word)
  | jsrr (base : Reg)
  | trap (vector : Byte)
  | rti
  | res
deriving DecidableEq, Repr

namespace Instr

def opcode : Instr → Opcode
  | br .. => .br
  | add .. => .add
  | .and .. => .and
  | .not .. => .not
  | ld .. => .ld
  | ldi .. => .ldi
  | ldr .. => .ldr
  | lea .. => .lea
  | st .. => .st
  | sti .. => .sti
  | str .. => .str
  | jmp .. => .jmp
  | jsr .. | jsrr .. => .jsr
  | trap .. => .trap
  | rti => .rti
  | res => .res

def setsCond (i : Instr) : Bool := i.opcode.setsCond

-- =============================================================== decoding

/-- The top four bits of a word. -/
def opcodeOf (w : Word) : Opcode := Opcode.ofBits (w.extractLsb' 12 4)

/-- Bits 11 to 9: a destination, or the source of a store. -/
def topReg (w : Word) : Reg := w.extractLsb' 9 3

/-- Bits 8 to 6: a first source, or a base. -/
def midReg (w : Word) : Reg := w.extractLsb' 6 3

/-- Bit 5 tells an immediate in the five bits below it from a register
in the last three. -/
def operandOf (w : Word) : Operand :=
  if w.getLsbD 5 then .imm (w.lowSigned 5) else .reg (.ofWord w)

def decode (w : Word) : Instr :=
  match opcodeOf w with
  | .br =>
      .br (w.getLsbD 11) (w.getLsbD 10) (w.getLsbD 9) (w.lowSigned 9)
  | .add => .add (topReg w) (midReg w) (operandOf w)
  | .and => .and (topReg w) (midReg w) (operandOf w)
  | .not => .not (topReg w) (midReg w)
  | .ld => .ld (topReg w) (w.lowSigned 9)
  | .ldi => .ldi (topReg w) (w.lowSigned 9)
  | .ldr => .ldr (topReg w) (midReg w) (w.lowSigned 6)
  | .lea => .lea (topReg w) (w.lowSigned 9)
  | .st => .st (topReg w) (w.lowSigned 9)
  | .sti => .sti (topReg w) (w.lowSigned 9)
  | .str => .str (topReg w) (midReg w) (w.lowSigned 6)
  | .jmp => .jmp (midReg w)
  | .jsr =>
      if w.getLsbD 11 then .jsr (w.lowSigned 11) else .jsrr (midReg w)
  | .trap => .trap w.low
  | .rti => .rti
  | .res => .res

/-- Decoding keeps the opcode. -/
theorem opcode_decode (w : Word) : (decode w).opcode = opcodeOf w := by
  unfold decode
  cases opcodeOf w
  case jsr =>
    show (if w.getLsbD 11 then _ else _ : Instr).opcode = .jsr
    split <;> rfl
  all_goals rfl

end Instr

end Lc3
