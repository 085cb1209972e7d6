/-
The processor with its memory and nothing around it: sixteen-bit
memory and registers, the program counter, the condition codes and a
count of the instructions executed.

There is no condition until the first instruction that sets one, and
until then no branch is taken.
-/
import Lc3.Bank
import Lc3.Isa.Names

namespace Lc3

abbrev Memory := Bank 16

abbrev Registers := Bank 3

structure Core where
  mem : Memory
  regs : Registers
  pc : Word
  cond : Option Cond
  executed : Nat
deriving DecidableEq, Repr

namespace Core

/-- Where programs begin; what is below is left to the system. -/
def entry : Word := 0x3000

def initial : Core where
  mem := Bank.fill 16 0
  regs := Bank.fill 3 0
  pc := entry
  cond := none
  executed := 0

def peek (c : Core) (a : Word) : Word := c.mem.get a

def reg (c : Core) (r : Reg) : Word := c.regs.get r

end Core

end Lc3
