/-
A place for bytes that may take fewer than it is given: at most so many
at a time, and at most so many in all. Once it can take none it either
fails with an error of its own or just takes nothing, which a writer
that still has bytes to place must report as a failure too.
-/
import Lc3.Word
import Lc3.IoError

namespace Lc3

structure Sink where
  /-- The most bytes taken at a time. -/
  portion : Option Nat := none
  /-- The most bytes taken in all. -/
  capacity : Option Nat := none
  /-- What happens instead of taking nothing. -/
  failure : Option IoError := none
  written : Array Byte := #[]
deriving DecidableEq, Repr

namespace Sink

/-- How many of `n` bytes the sink takes now. -/
def takes (s : Sink) (n : Nat) : Nat :=
  let n := (s.portion.map (min n)).getD n
  (s.capacity.map fun c => min n (c - s.written.size)).getD n

/-- Reported where bytes are left and the sink takes none. -/
def full : IoError := ⟨.writeZero, "failed to write whole buffer"⟩

/-- Places all of `bytes`, portion by portion, or as many as go in. -/
def writeAll (s : Sink) (bytes : List Byte) : Except IoError Unit × Sink :=
  match bytes with
  | [] => (.ok (), s)
  | b :: bs =>
      match s.takes (bs.length + 1) with
      | 0 => (.error (s.failure.getD full), s)
      | n + 1 =>
          { s with written := s.written ++ (b :: bs.take n) }.writeAll
            (bs.drop n)
termination_by bytes.length

def writeWord (s : Sink) (w : Word) : Except IoError Unit × Sink :=
  s.writeAll [w.high, w.low]

/-- Word after word, up to the first that does not go in whole. -/
def writeWords (s : Sink) : List Word → Except IoError Unit × Sink
  | [] => (.ok (), s)
  | w :: ws =>
      match s.writeWord w with
      | (.ok (), s) => s.writeWords ws
      | (.error e, s) => (.error e, s)

end Sink

end Lc3
