/-
An object image: where it goes in memory, and the words that go there
one after another. As bytes it is the origin followed by the words, with
no other header and nothing at the end.

Reading an image back accepts every byte string that has room for the
origin. An odd number of bytes is no error: the last one is the high
half of a last word.
-/
import Lc3.Stream.Source
import Lc3.Stream.Sink
import Lc3.Text.Numeral

namespace Lc3

structure Image where
  origin : Word
  words : List Word
deriving DecidableEq, Repr

inductive Image.Error where
  | io (e : IoError)
  /-- The image is too short to have an origin. -/
  | missingOrigin (length : Nat)
deriving DecidableEq, Repr

def Image.Error.message : Image.Error → String
  | io e => e.message
  | missingOrigin length =>
      "image of " ++ Text.decimal length ++ " byte(s) has no origin word"

namespace Image

-- ================================================================ as bytes

def toBytes (image : Image) : List Byte :=
  bytesOfWords (image.origin :: image.words)

def ofBytes : List Byte → Except Error Image
  | h :: l :: rest => .ok ⟨Word.ofBytes h l, wordsOfBytes rest⟩
  | bytes => .error (.missingOrigin bytes.length)

/-- What is written is read back as it was, whatever the origin and however
many words there are. -/
theorem ofBytes_toBytes (image : Image) :
    ofBytes image.toBytes = .ok image := by
  simp [toBytes, ofBytes, Word.ofBytes_high_low,
    wordsOfBytes_bytesOfWords]

/-- What reading the bytes of an image gave, taken as an image. -/
def ofContents : Except IoError (List Byte) → Except Error Image
  | .ok bytes => ofBytes bytes
  | .error e => .error (.io e)

def ofSource (source : Source) : Except Error Image :=
  ofContents source.readAll.1

def toSink (image : Image) (sink : Sink) : Except IoError Unit × Sink :=
  sink.writeWords (image.origin :: image.words)

-- =============================================================== in memory

/-- Each word with its address, in the order of loading. Addresses wrap
at the top of memory, so a long image comes back to where it began. -/
def cells (image : Image) : List (Word × Word) :=
  image.words.zipIdx.map fun (w, i) =>
    (image.origin + BitVec.ofNat 16 i, w)

end Image

end Lc3
