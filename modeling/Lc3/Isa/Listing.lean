/-
How an instruction is written down: its mnemonic, a tab, and its
operands. There are two listings of the same instruction, which differ
in one operand only: what is counted from the program counter stands as
that offset, or as the address it leads to once the instruction's own
address is known.

Three mnemonics are not just the opcode's name. A branch carries the
conditions it asks for, a subroutine call through a register is JSRR,
and a jump through R7 is the return from a subroutine, RET, with nothing
left to say after it.
-/
import Lc3.Isa.Instr

namespace Lc3

def Operand.text : Operand → String
  | reg r => r.name
  | imm w => "#" ++ Text.signedDecimal w.toInt

namespace Instr

/-- The register through which a subroutine returns. -/
def linkReg : Reg := 7

def mnemonic : Instr → String
  | br n z p _ =>
      "BR" ++ (if n then "n" else "") ++ (if z then "z" else "")
        ++ (if p then "p" else "")
  | jmp base => if base = linkReg then "RET" else Opcode.jmp.name
  | jsrr _ => "JSRR"
  | i => i.opcode.name

/-- An offset by itself. -/
def offsetText (offset : Word) : String :=
  "#" ++ Text.signedDecimal offset.toInt

/-- The address that an offset leads to from the instruction at `pc`:
offsets count from the instruction after it. -/
def targetText (pc offset : Word) : String :=
  "x" ++ Text.upperHex 4 (pc + 1 + offset).toNat

/-- The operands in order, given how a distance from the program counter
is written. -/
def operands (relative : Word → String) : Instr → List String
  | br _ _ _ offset => [relative offset]
  | add dr sr operand => [dr.name, sr.name, operand.text]
  | .and dr sr operand => [dr.name, sr.name, operand.text]
  | .not dr sr => [dr.name, sr.name]
  | ld dr offset => [dr.name, relative offset]
  | ldi dr offset => [dr.name, relative offset]
  | ldr dr base offset => [dr.name, base.name, offsetText offset]
  | lea dr offset => [dr.name, relative offset]
  | st sr offset => [sr.name, relative offset]
  | sti sr offset => [sr.name, relative offset]
  | str sr base offset => [sr.name, base.name, offsetText offset]
  | jmp base => if base = linkReg then [] else [base.name]
  | jsr offset => [relative offset]
  | jsrr base => [base.name]
  | trap vector => ["x" ++ Text.upperHex 2 vector.toNat]
  | rti => []
  | res => []

/-- An instruction without operands ends with its mnemonic. -/
def listing (relative : Word → String) (i : Instr) : String :=
  match i.operands relative with
  | [] => i.mnemonic
  | texts => i.mnemonic ++ "\t" ++ ", ".intercalate texts

/-- The listing that needs no address. -/
def text (i : Instr) : String := i.listing offsetText

/-- The listing of the instruction at `pc`. -/
def textAt (pc : Word) (i : Instr) : String := i.listing (targetText pc)

end Instr

end Lc3
