/-
Everything a host may do to a machine, as data. A session is then a list
of operations, whatever mixture of loading, stepping and meddling it is.

A host sees memory in both ways: `read` and `write` go over the bus and
may disturb a device, `peek` and `poke` look at the cells.
-/
import Lc3.Machine.Run
import Lc3.Machine.Load

namespace Lc3

namespace Machine

inductive Operation (δ : Type) where
  | load (image : Image)
  | getReg (r : Reg)
  | setReg (r : Reg) (w : Word)
  | setPc (w : Word)
  | setCond (c : Cond)
  | countInstr
  | read (a : Word)
  | write (a w : Word)
  | peek (a : Word)
  | poke (a w : Word)
  | fetch
  | execute (w : Word)
  | step
  | attach (d : Device δ) (addrs : Option (List Word))
deriving DecidableEq, Repr

/-- What an operation that succeeded has to say. -/
inductive Answer where
  | done
  | word (w : Word)
  | status (s : Status)
deriving DecidableEq, Repr

variable {κ δ : Type} [Console κ] [Peripheral δ]

def operate : Operation δ → Exec κ δ Answer
  | .load image => do change (·.load image); return .done
  | .getReg r => return .word (← getReg r)
  | .setReg r w => do setReg r w; return .done
  | .setPc w => do setPc w; return .done
  | .setCond c => do change (·.setCond c); return .done
  | .countInstr => do change (·.countInstr); return .done
  | .read a => return .word (← read a)
  | .write a w => do write a w; return .done
  | .peek a => return .word ((← get).core.peek a)
  | .poke a w => do change (·.poke a w); return .done
  | .fetch => return .word (← fetch)
  | .execute w => return .status (← execute w)
  | .step => return .status (← step)
  | .attach d addrs => do attach d addrs; return .done

end Machine

end Lc3
