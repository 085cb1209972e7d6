/-
What a machine reports about itself while it works. A record is data; it
becomes text only when somebody reads it. Records of single writes are
the finest: replayed in order on the memory, registers and program
counter before them, they give those after.

A journal keeps the records up to a level and drops the rest as they
come.
-/
import Lc3.Isa.Listing

namespace Lc3

-- ================================================================= levels

inductive Level where
  | warn | info | debug | trace
deriving DecidableEq, Repr

namespace Level

/-- How fine a level is. -/
def rank : Level → Nat
  | warn => 0
  | info => 1
  | debug => 2
  | trace => 3

def name : Level → String
  | warn => "WARN"
  | info => "INFO"
  | debug => "DEBUG"
  | trace => "TRACE"

end Level

-- ================================================================ records

inductive Record where
  | started (pc : Word)
  | halted (executed : Nat)
  | imageRead (size : Nat) (origin : Word) (path : String)
  | imageLoaded (size : Nat) (origin : Word)
  | executing (pc : Word) (i : Instr)
  | trapCalled (routine : TrapRoutine)
  | trapUnknown (vector : Byte)
  | notImplemented (op : Opcode) (pc : Word)
  | memWritten (a w : Word)
  | regWritten (r : Reg) (w : Word)
  | pcWritten (w : Word)
deriving DecidableEq, Repr

namespace Record

def level : Record → Level
  | trapUnknown .. | notImplemented .. => .warn
  | started .. | halted .. | imageRead .. | imageLoaded .. => .info
  | executing .. | trapCalled .. => .debug
  | memWritten .. | regWritten .. | pcWritten .. => .trace

def wordText (w : Word) : String := "0x" ++ Text.hex 4 w.toNat

def message : Record → String
  | started pc => "CPU start at " ++ wordText pc
  | halted executed =>
      "Halted after " ++ Text.decimal executed ++ " instructions"
  | imageRead size origin path =>
      "Read " ++ Text.decimal size ++ " words for " ++ wordText origin
        ++ " from " ++ path
  | imageLoaded size origin =>
      "Loaded " ++ Text.decimal size ++ " words at " ++ wordText origin
  | executing pc i => "PC: " ++ wordText pc ++ ": " ++ i.textAt pc
  | trapCalled routine => "Trap " ++ routine.name
  | trapUnknown vector =>
      "Unknown trap vector 0x" ++ Text.hex 2 vector.toNat ++ ", ignoring"
  | notImplemented op pc =>
      op.name ++ " at " ++ wordText pc ++ " not implemented, ignoring"
  | memWritten a w =>
      "Mem: writing " ++ wordText w ++ " to " ++ wordText a
  | regWritten r w => "Reg: writing " ++ wordText w ++ " to " ++ r.name
  | pcWritten w => "Reg: writing " ++ wordText w ++ " to PC"

def text (r : Record) : String := r.level.name ++ " " ++ r.message

end Record

-- ============================================================== the journal

structure Journal where
  /-- The finest level kept; nothing is kept without one. -/
  finest : Option Level := none
  records : Array Record := #[]
deriving DecidableEq, Repr

namespace Journal

def keeps (j : Journal) (level : Level) : Bool :=
  j.finest.any fun finest => level.rank ≤ finest.rank

def note (j : Journal) (r : Record) : Journal :=
  if j.keeps r.level then { j with records := j.records.push r } else j

end Journal

end Lc3
