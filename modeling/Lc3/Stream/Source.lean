/-
A source of bytes, described by what it will give: chunks of data and
failures, in order. A chunk need not hold what a reader asks for. One
that is too long stays for the next read with what is left of it, one
that is too short makes the reader ask again, and an empty one is the
end of the stream as far as that read can tell, though later reads go
on behind it. After the last chunk there is nothing but ends.

Readers see neither where chunks are cut nor interruptions, which they
sit out. Any other failure is the answer of the read that met it, and
the bytes that read had already taken are gone.
-/
import Lc3.Word
import Lc3.IoError

namespace Lc3

inductive Chunk where
  | data (bytes : List Byte)
  | failure (e : IoError)
deriving DecidableEq, Repr

abbrev Source := List Chunk

namespace Source

/-- The source behind the first bytes of a chunk: a chunk that is used
up is removed, so that it does not read as an end. -/
def putBack (left : List Byte) (rest : Source) : Source :=
  match left with
  | [] => rest
  | b :: bs => .data (b :: bs) :: rest

-- ==================================================== reading by words

/-- The second byte of a word whose first is `h`. Where the stream ends
before it, the word is filled up with zero. -/
def readLow (h : Byte) : Source → Except IoError Word × Source
  | [] => (.ok (Word.ofBytes h 0), [])
  | .data [] :: rest => (.ok (Word.ofBytes h 0), rest)
  | .data (l :: left) :: rest =>
      (.ok (Word.ofBytes h l), putBack left rest)
  | .failure e :: rest =>
      if e.isInterrupted then readLow h rest else (.error e, rest)

/-- The next word, high byte first; nothing where the stream ends
before it. -/
def readWord : Source → Except IoError (Option Word) × Source
  | [] => (.ok none, [])
  | .data [] :: rest => (.ok none, rest)
  | .data (h :: left) :: rest =>
      let (answer, rest) := readLow h (putBack left rest)
      (answer.map some, rest)
  | .failure e :: rest =>
      if e.isInterrupted then readWord rest else (.error e, rest)

-- =========================================== reading up to the next end

/-- All bytes before the next end. -/
def readAll : Source → Except IoError (List Byte) × Source
  | [] => (.ok [], [])
  | .data [] :: rest => (.ok [], rest)
  | .data (b :: bs) :: rest =>
      let (answer, rest) := readAll rest
      (answer.map (b :: bs ++ ·), rest)
  | .failure e :: rest =>
      if e.isInterrupted then readAll rest else (.error e, rest)

end Source

end Lc3
