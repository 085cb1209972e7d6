/-
The units of the machine: a sixteen-bit word, and the byte in which the
outside world counts. Both are bit vectors, so every sum on them wraps,
at the top of the address space as well as at the top of a register.

A word travels as two bytes, the high one first. Turning words into
bytes and back is exact but for one case: a lone last byte stands for a
whole word, of which it is the high half.
-/
namespace Lc3

/-- A register, a memory cell or an address. -/
abbrev Word := BitVec 16

/-- What a console or an object file is made of. -/
abbrev Byte := BitVec 8

namespace Word

-- ===================================================== halves of a word

def high (w : Word) : Byte := w.extractLsb' 8 8

def low (w : Word) : Byte := w.setWidth 8

def ofBytes (high low : Byte) : Word :=
  high.setWidth 16 <<< 8 ||| low.setWidth 16

/-- A byte as a word, with nothing in its high half. -/
def ofByte (b : Byte) : Word := b.setWidth 16

/-- A word is its two halves, so none is lost on its way through bytes. -/
theorem ofBytes_high_low (w : Word) : ofBytes w.high w.low = w := by
  apply BitVec.eq_of_getLsbD_eq
  intro i hi
  simp only [ofBytes, high, low, BitVec.getLsbD_or,
    BitVec.getLsbD_shiftLeft, BitVec.getLsbD_setWidth,
    BitVec.getLsbD_extractLsb']
  grind

/-- The first byte of a pair is the high half of its word. -/
theorem high_ofBytes (h l : Byte) : (ofBytes h l).high = h := by
  apply BitVec.eq_of_getLsbD_eq
  intro i hi
  simp only [ofBytes, high, BitVec.getLsbD_or,
    BitVec.getLsbD_shiftLeft, BitVec.getLsbD_setWidth,
    BitVec.getLsbD_extractLsb']
  grind

/-- The second byte of a pair is the low half of its word. -/
theorem low_ofBytes (h l : Byte) : (ofBytes h l).low = l := by
  apply BitVec.eq_of_getLsbD_eq
  intro i hi
  simp only [ofBytes, low, BitVec.getLsbD_or,
    BitVec.getLsbD_shiftLeft, BitVec.getLsbD_setWidth]
  grind

-- ======================================================= fields of a word

/-- The low `bits` bits, read as two's complement. -/
def lowSigned (w : Word) (bits : Nat) : Word :=
  (w.setWidth bits).signExtend 16

/-- `lowSigned` where it has a meaning: a field has at least a sign, and
no more bits than the word. -/
def lowSigned? (w : Word) (bits : Nat) : Option Word :=
  if 1 ≤ bits ∧ bits ≤ 16 then some (w.lowSigned bits) else none

end Word

-- ==================================================== words in a stream

/-- The bytes of one word after another, high halves first. -/
def bytesOfWords (ws : List Word) : List Byte :=
  ws.flatMap fun w => [w.high, w.low]

/-- Pairs of bytes as words; a lone last byte is a high half. -/
def wordsOfBytes : List Byte → List Word
  | [] => []
  | [h] => [Word.ofBytes h 0]
  | h :: l :: rest => Word.ofBytes h l :: wordsOfBytes rest

@[simp] theorem bytesOfWords_nil : bytesOfWords [] = [] := rfl

@[simp] theorem bytesOfWords_cons (w : Word) (ws : List Word) :
    bytesOfWords (w :: ws) = w.high :: w.low :: bytesOfWords ws := rfl

/-- Words come back from their bytes as they were; there is no lone byte
among them. -/
theorem wordsOfBytes_bytesOfWords (ws : List Word) :
    wordsOfBytes (bytesOfWords ws) = ws := by
  induction ws with
  | nil => rfl
  | cons w ws ih => simp [wordsOfBytes, ih, Word.ofBytes_high_low]

end Lc3
