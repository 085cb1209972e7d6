/-
Key events out of the bytes a terminal sends for them. Most keys are one
byte. A character outside ASCII is its UTF-8 sequence. An escape byte
begins what is longer: a character typed with Alt, a key reported by
number, the text of a paste, what the mouse and the terminal itself
have to say. Of these only the first two are keys with a character, and
only they become events.

The escape byte is also what the escape key sends, and nothing but the
end of the input at hand tells the two apart.

Bytes are gathered one at a time until those at hand are a key, or are
seen to be none, in which case all of them are dropped.
-/
import Lc3.Key.Numbered
import Lc3.Text.Utf8

namespace Lc3.Key

/-- What the bytes gathered so far amount to. -/
inductive Verdict where
  | key (e : Event)
  | wait
  | drop
deriving DecidableEq, Repr

def control (c : Char) : Event :=
  { code := .char c, modifiers := { control := true } }

def typed (c : Char) : Event :=
  { code := .char c, modifiers := { shift := c.isUpper } }

-- ================================================= keys without an escape

/-- How long a character's sequence is, going by its first byte; zero
for a byte that begins none. -/
def sequenceLength (b : Byte) : Nat :=
  if b < 0x80 then 1
  else if b < 0xc0 then 0
  else if b < 0xe0 then 2
  else if b < 0xf0 then 3
  else if b < 0xf8 then 4
  else 0

def gatherChar (b : Byte) (rest : List Byte) : Verdict :=
  if sequenceLength b = 0 ∨ ¬ rest.all Text.isContinuation then .drop
  else if rest.length + 1 < sequenceLength b then .wait
  else
    match Text.decodeLossy (b :: rest) with
    | [c] => .key (typed c)
    | _ => .drop

/-- A carriage return, a tab and a delete are keys of their own; the
other control characters are what Control makes of a space, a letter or
one of four digits. -/
def gatherPlain (b : Byte) (rest : List Byte) : Verdict :=
  if b = 0x0d then .key { code := .enter }
  else if b = 0x09 then .key { code := .tab }
  else if b = 0x7f then .key { code := .backspace }
  else if b = 0x00 then .key (control ' ')
  else if b ≤ 0x1a then .key (control (Char.ofNat (b.toNat + 0x60)))
  else if 0x1c ≤ b ∧ b ≤ 0x1f then
    .key (control (Char.ofNat (b.toNat + 0x18)))
  else gatherChar b rest

-- ==================================================== keys with an escape

def escapeByte : Byte := 0x1b

/-- The last byte of a control sequence that begins with a digit. -/
def isFinal (b : Byte) : Bool := 0x40 ≤ b && b ≤ 0x7e

def isDigit (b : Byte) : Bool := 0x30 ≤ b && b ≤ 0x39

/-- Waits for some number of bytes, whatever they are. -/
def skip (count : Nat) (bytes : List Byte) : Verdict :=
  if bytes.length < count then .wait else .drop

/-- What begins a paste behind an escape and a bracket: `200~`. -/
def pasteBegin : List Byte := [0x32, 0x30, 0x30, 0x7e]

/-- What ends the text of a paste: an escape, a bracket and `201~`. -/
def pasteEnd : List Byte := [0x1b, 0x5b, 0x32, 0x30, 0x31, 0x7e]

/-- Behind an escape and a bracket, a sequence that begins with a digit
and ends with `last`. A u ends the report of a key by number. -/
def gatherNumbers (bytes : List Byte) (last : Byte) : Verdict :=
  if ¬ isFinal last then .wait
  else if pasteBegin.isPrefixOf bytes then
    if pasteEnd.isSuffixOf bytes then .drop else .wait
  else if last = 0x75 then
    match (Text.decode? bytes.dropLast).bind Numbered.event? with
    | some e => .key e
    | none => .drop
  else .drop

/-- Behind an escape and a bracket. What comes next tells how long the
sequence is: a bracket has one more byte, an M three (the mouse), a less
sign all up to an m of either case (the mouse again), a question mark
all up to a c, or a u that does not follow at once (the terminal), and
a digit all up to a final byte. Anything else is by itself. -/
def gatherSequence : List Byte → Verdict
  | [] => .wait
  | b :: rest =>
      let last := rest.getLast?.getD b
      if b = 0x5b then skip 1 rest
      else if b = 0x4d then skip 3 rest
      else if b = 0x3c then
        if last = 0x4d ∨ last = 0x6d then .drop else .wait
      else if b = 0x3f then
        if last = 0x63 ∨ (last = 0x75 ∧ 2 ≤ rest.length) then .drop
        else .wait
      else if isDigit b then gatherNumbers (b :: rest) last
      else .drop

def Verdict.withAlt : Verdict → Verdict
  | key e => key { e with modifiers := { e.modifiers with alt := true } }
  | v => v

/-- Behind an escape, `more` telling whether further bytes are at hand.
An O has one more byte behind it. -/
def gatherEscape (more : Bool) : List Byte → Verdict
  | [] => if more then .wait else .key { code := .escape }
  | b :: rest =>
      if b = 0x4f then skip 1 rest
      else if b = 0x5b then gatherSequence rest
      else if b = escapeByte then .key { code := .escape }
      else (gatherPlain b rest).withAlt

def gather (more : Bool) : List Byte → Verdict
  | [] => .wait
  | b :: rest =>
      if b = escapeByte then gatherEscape more rest else gatherPlain b rest

-- ============================================================ whole input

/-- The events of a run of bytes behind those already `gathered`, and
the bytes at its end that are not yet a key. -/
def decode (gathered : List Byte) : List Byte → List Event × List Byte
  | [] => ([], gathered)
  | b :: rest =>
      match gather (!rest.isEmpty) (gathered ++ [b]) with
      | .key e =>
          let (events, left) := decode [] rest
          (e :: events, left)
      | .wait => decode (gathered ++ [b]) rest
      | .drop => decode [] rest

end Lc3.Key
