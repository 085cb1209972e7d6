/-
The instruction table, read as an interpreter. It is a second account
of what one step does, and takes nothing from the first but the types of
words and registers: there are no decoded instructions, no bit
operations on fields, no wrapping sums and no devices. An instruction is
cut into fields by division and remainder, an offset is a signed number,
a sum is an integer brought back below 65536, and memory is a function.

The rows are those of the table, by opcode number. TRAP has no row of its
own here: what it does is the business of the trap routines.

# Reading memory

The one address that is not a plain cell is the keyboard's status. A
read of it, by whatever part of a step, waits for a key and leaves what
it found in memory before it answers. A step reads memory at most three
times (the instruction, a pointer, the data), in this order.
-/
import Lc3.Machine.Trap

namespace Lc3.Table

-- Powers of numbers are the plain ones, whatever else is in scope.
attribute [local instance (high)] instPowNat

-- ============================================================ the numbers

/-- The `width` bits of a word from bit `place` upwards. -/
def field (w : Word) (place width : Nat) : Nat :=
  w.toNat / 2 ^ place % 2 ^ width

/-- The low `width` bits as a number with a sign. -/
def signed (w : Word) (width : Nat) : Int :=
  if 2 * field w 0 width < 2 ^ width then field w 0 width
  else field w 0 width - 2 ^ width

/-- A number as a word holds it. -/
def wrap (i : Int) : Word := BitVec.ofNat 16 (i % 65536).toNat

/-- The register that the three bits from `place` upwards name. -/
def regAt (w : Word) (place : Nat) : Reg :=
  BitVec.ofNat 3 (field w place 3)

/-- The condition that a result leaves. -/
def sign (v : Word) : Cond :=
  if v.toNat = 0 then .zero
  else if v.toNat < 32768 then .pos
  else .neg

/-- Whether the conditions that a branch names hold. -/
def taken (w : Word) : Option Cond → Bool
  | none => false
  | some .neg => field w 11 1 = 1
  | some .zero => field w 10 1 = 1
  | some .pos => field w 9 1 = 1

-- ============================================================== the state

/-- What the table speaks of, and the console behind the keyboard. -/
structure Arch (κ : Type) where
  reg : Reg → Word
  mem : Word → Word
  pc : Word
  cond : Option Cond
  executed : Nat
  console : κ

namespace Arch

variable {κ : Type}

def setReg (r : Reg) (v : Word) (s : Arch κ) : Arch κ :=
  { s with reg := fun q => if r = q then v else s.reg q }

def store (a v : Word) (s : Arch κ) : Arch κ :=
  { s with mem := fun c => if a = c then v else s.mem c }

def jump (a : Word) (s : Arch κ) : Arch κ := { s with pc := a }

/-- A result in its register, and its sign in the condition. -/
def result (dr : Reg) (v : Word) (s : Arch κ) : Arch κ :=
  { s.setReg dr v with cond := some (sign v) }

/-- The second operand of ADD and AND. -/
def second (w : Word) (s : Arch κ) : Word :=
  if field w 5 1 = 1 then wrap (signed w 5) else s.reg (regAt w 0)

/-- The address at an offset of that width from the program counter. -/
def near (w : Word) (width : Nat) (s : Arch κ) : Word :=
  wrap (s.pc.toNat + signed w width)

/-- The address at an offset from the base register. -/
def based (w : Word) (s : Arch κ) : Word :=
  wrap ((s.reg (regAt w 6)).toNat + signed w 6)

end Arch

-- ======================================================== the interpreter

abbrev Exec (κ : Type) := EStateM Failure (Arch κ)

variable {κ : Type} [Console κ]

/-- Waits a second for a key. One that came is announced in the status
and left in the data register; without one the status is cleared. -/
def poll : Exec κ Word := fun s =>
  match (Console.call (.poll 1000)).run s.console with
  | .ok (some key) console =>
      .ok 0x8000 (({ s with console }.store 0xfe00 0x8000).store 0xfe02
        (BitVec.ofNat 16 key.toNat))
  | .ok none console => .ok 0 ({ s with console }.store 0xfe00 0)
  | .error e console => .error (.console e) { s with console }

theorem run_poll (s : Arch κ) :
    poll.run s =
      match (Console.call (.poll 1000)).run s.console with
      | .ok (some key) console =>
          .ok 0x8000 (({ s with console }.store 0xfe00 0x8000).store 0xfe02
            (BitVec.ofNat 16 key.toNat))
      | .ok none console => .ok 0 ({ s with console }.store 0xfe00 0)
      | .error e console => .error (.console e) { s with console } :=
  rfl

def read (a : Word) : Exec κ Word := do
  if a = 0xfe00 then poll else return (← get).mem a

/-- The rows of the table, each for a word `w` met in the state `s`, with
the program counter already past it. -/
def row (w : Word) (s : Arch κ) : (opcode : Nat) → Exec κ Unit
  | 0 => -- BR
      if taken w s.cond then modify (·.jump (s.near w 9)) else pure ()
  | 1 => -- ADD
      modify (·.result (regAt w 9)
        (wrap ((s.reg (regAt w 6)).toNat + (s.second w).toNat)))
  | 2 => do -- LD
      let v ← read (s.near w 9)
      modify (·.result (regAt w 9) v)
  | 3 => -- ST
      modify (·.store (s.near w 9) (s.reg (regAt w 9)))
  | 4 => do -- JSR, JSRR
      modify (·.setReg 7 s.pc)
      if field w 11 1 = 1 then modify (·.jump (s.near w 11))
      else modify fun s => s.jump (s.reg (regAt w 6))
  | 5 => -- AND
      modify (·.result (regAt w 9)
        (wrap ((s.reg (regAt w 6)).toNat &&& (s.second w).toNat : Nat)))
  | 6 => do -- LDR
      let v ← read (s.based w)
      modify (·.result (regAt w 9) v)
  | 7 => -- STR
      modify (·.store (s.based w) (s.reg (regAt w 9)))
  | 9 => -- NOT
      modify (·.result (regAt w 9)
        (wrap (65535 - (s.reg (regAt w 6)).toNat)))
  | 10 => do -- LDI
      let a ← read (s.near w 9)
      let v ← read a
      modify (·.result (regAt w 9) v)
  | 11 => do -- STI
      let a ← read (s.near w 9)
      modify (·.store a (s.reg (regAt w 9)))
  | 12 => -- JMP
      modify (·.jump (s.reg (regAt w 6)))
  | 14 => -- LEA
      modify (·.result (regAt w 9) (s.near w 9))
  | _ => -- RTI, RES
      pure ()

def execute (w : Word) : Exec κ Unit := do
  row w (← get) (field w 12 4)

/-- The word at the program counter, which moves on by one. -/
def fetch : Exec κ Word := do
  let w ← read (← get).pc
  modify fun s => s.jump (wrap (s.pc.toNat + 1))
  return w

/-- Fetches a word, counts it, and does what it says. No row of the
table stops the machine. -/
def step : Exec κ Machine.Status := do
  let w ← fetch
  modify fun s => { s with executed := s.executed + 1 }
  execute w
  return .running

end Lc3.Table
