/-
Text as UTF-8 bytes, and bytes read as UTF-8 text, with no byte string
refused. A well-formed sequence is its character. Anything else becomes
replacement characters, one for each longest piece that could still have
begun a sequence: a lead byte with the continuation bytes that fit it,
or a single byte that begins nothing.

Where only well-formed text will do (`decode?`), it is recognised by its
being what its reading is written as.
-/
import Lc3.Word

namespace Lc3.Text

-- ============================================================= lead bytes

/-- What the first byte of a longer sequence promises: how many bytes
follow, between which bounds the first of them lies (narrower than for
any later one where the sequence would be too long for its character, a
surrogate or past the last character), and the bits it adds itself. -/
structure Lead where
  following : Nat
  least : Byte
  most : Byte
  bits : Nat

def Lead.of? (b : Byte) : Option Lead :=
  if 0xc2 ≤ b ∧ b ≤ 0xdf then
    some ⟨1, 0x80, 0xbf, b.toNat % 32⟩
  else if 0xe0 ≤ b ∧ b ≤ 0xef then
    some ⟨2, if b = 0xe0 then 0xa0 else 0x80,
      if b = 0xed then 0x9f else 0xbf, b.toNat % 16⟩
  else if 0xf0 ≤ b ∧ b ≤ 0xf4 then
    some ⟨3, if b = 0xf0 then 0x90 else 0x80,
      if b = 0xf4 then 0x8f else 0xbf, b.toNat % 8⟩
  else none

/-- Any continuation byte but the first. -/
def isContinuation (b : Byte) : Bool := 0x80 ≤ b && b ≤ 0xbf

/-- The bytes at the front of `bs` that continue a sequence begun by
`lead`: all it promises, or as many as fit. -/
def Lead.continuation (lead : Lead) (bs : List Byte) : List Byte :=
  match bs.take lead.following with
  | [] => []
  | b :: rest =>
      if lead.least ≤ b && b ≤ lead.most then
        b :: rest.takeWhile isContinuation
      else []

/-- The character of a whole sequence. -/
def Lead.char (lead : Lead) (continuation : List Byte) : Char :=
  Char.ofNat
    (continuation.foldl (fun n b => n * 64 + b.toNat % 64) lead.bits)

-- ================================================================ decoding

/-- Stands for what is no text. -/
def replacement : Char := '\ufffd'

/-- Every byte string as text. -/
def decodeLossy : List Byte → List Char
  | [] => []
  | b :: rest =>
      if b < 0x80 then Char.ofNat b.toNat :: decodeLossy rest
      else
        match Lead.of? b with
        | none => replacement :: decodeLossy rest
        | some lead =>
            let continuation := lead.continuation rest
            let c :=
              if continuation.length = lead.following then
                lead.char continuation
              else replacement
            c :: decodeLossy (rest.drop continuation.length)
termination_by bs => bs.length
decreasing_by
  · exact Nat.lt_succ_self _
  · exact Nat.lt_succ_self _
  · rw [List.length_drop]
    exact Nat.lt_succ_of_le (Nat.sub_le ..)

def lossy (bs : List Byte) : String := String.ofList (decodeLossy bs)

-- ================================================================ encoding

def encode (cs : List Char) : List Byte :=
  cs.flatMap fun c => (String.utf8EncodeChar c).map (·.toBitVec)

/-- Bytes as text, if that is what they are. -/
def decode? (bs : List Byte) : Option (List Char) :=
  let cs := decodeLossy bs
  if encode cs = bs then some cs else none

end Lc3.Text
