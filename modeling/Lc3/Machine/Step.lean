/-
One instruction: fetched, counted, executed. By the time an instruction
executes, the program counter points behind it, and it is from there
that offsets count.

An instruction changes registers and condition only after its last
access to memory, so a failing one changes neither.
-/
import Lc3.Machine.Trap

namespace Lc3.Machine

variable {κ δ : Type}

-- =============================================================== operands

def operand : Operand → Exec κ δ Word
  | .reg r => getReg r
  | .imm w => return w

/-- The address at an offset from the program counter. -/
def pcRelative (offset : Word) : Exec κ δ Word :=
  return (← getPc) + offset

/-- The address at an offset from a register. -/
def baseRelative (base : Reg) (offset : Word) : Exec κ δ Word :=
  return (← getReg base) + offset

/-- Leaves a result in a register, and its sign in the condition. -/
def setResult (dr : Reg) (w : Word) : Exec κ δ Unit := do
  setReg dr w
  change (·.setCond (.ofWord w))

-- ================================================================== jumps

/-- Without a condition nothing selects it, and the branch is not
taken. -/
def branch (n z p : Bool) (offset : Word) : Exec κ δ Unit := do
  match (← get).core.cond with
  | none => return
  | some c =>
      if c.selectedBy n z p then setPc (← pcRelative offset)

/-- The return address is in place before a base register is read, so
calling through R7 goes to the instruction behind the call. -/
def callSubroutine (target : Exec κ δ Word) : Exec κ δ Unit := do
  setReg Instr.linkReg (← getPc)
  setPc (← target)

/-- Reports an instruction that this machine does not have. -/
def ignore (op : Opcode) : Exec κ δ Unit := do
  note (.notImplemented op ((← getPc) - 1))

-- ============================================================== execution

variable [Console κ] [Peripheral δ]

def perform : Instr → Exec κ δ Status
  | .add dr sr src =>
      proceed do setResult dr ((← getReg sr) + (← operand src))
  | .and dr sr src =>
      proceed do setResult dr ((← getReg sr) &&& (← operand src))
  | .not dr sr => proceed do setResult dr (~~~(← getReg sr))
  | .br n z p offset => proceed (branch n z p offset)
  | .jmp base => proceed do setPc (← getReg base)
  | .jsr offset => proceed (callSubroutine (pcRelative offset))
  | .jsrr base => proceed (callSubroutine (getReg base))
  | .ld dr offset => proceed do
      setResult dr (← read (← pcRelative offset))
  | .ldi dr offset => proceed do
      setResult dr (← read (← read (← pcRelative offset)))
  | .ldr dr base offset => proceed do
      setResult dr (← read (← baseRelative base offset))
  | .lea dr offset => proceed do setResult dr (← pcRelative offset)
  | .st sr offset => proceed do
      write (← pcRelative offset) (← getReg sr)
  | .sti sr offset => proceed do
      write (← read (← pcRelative offset)) (← getReg sr)
  | .str sr base offset => proceed do
      write (← baseRelative base offset) (← getReg sr)
  | .rti => proceed (ignore .rti)
  | .res => proceed (ignore .res)
  | .trap vector => trap vector

/-- Executes a word as the instruction just before the program counter.
That is possible on a halted machine too. -/
def execute (w : Word) : Exec κ δ Status := do
  let i := Instr.decode w
  note (.executing ((← getPc) - 1) i)
  change (·.countInstr)
  perform i

/-- The word at the program counter, which moves past it. -/
def fetch : Exec κ δ Word := do
  let pc ← getPc
  let w ← read pc
  setPc (pc + 1)
  return w

/-- Fetches and executes one instruction. A halted machine does nothing
at all. -/
def step : Exec κ δ Status := do
  if (← get).running then
    let w ← fetch
    execute w
  else return .halted

end Lc3.Machine
