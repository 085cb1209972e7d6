/-
What can go wrong between the machine and the outside: a kind, which a
program may act on, and a message for whoever reads it. Of the kinds,
only `interrupted` changes what this library does: reading a stream
tries again after it.
-/
namespace Lc3

inductive IoError.Kind where
  | notFound | permissionDenied | brokenPipe | interrupted | unexpectedEof
  | writeZero | timedOut | wouldBlock | invalidData | invalidInput
  | isADirectory | notADirectory | invalidFilename | other
deriving DecidableEq, Repr

structure IoError where
  kind : IoError.Kind
  message : String
deriving DecidableEq, Repr

def IoError.isInterrupted (e : IoError) : Bool := e.kind == .interrupted

end Lc3
