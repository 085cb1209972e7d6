/-
Keys that a terminal reports by number: fields between semicolons, made
of parts between colons. The first field is the key, as the number of
its character, and in its second part the character it has with Shift.
The second field is one more than the sum of the modifiers' bits, and in
its second part the phase of the key. Whatever comes behind is not
looked at.

A key that is no number, or no character's number, is no key. Any other
part that is missing or no number leaves its event as it is without it.
-/
import Lc3.Key.Event
import Lc3.Text.Digits

namespace Lc3.Key.Numbered

-- ================================================================= fields

/-- The pieces of a text between separators. -/
def fields (separator : Char) : List Char → List (List Char)
  | [] => [[]]
  | c :: cs =>
      if c = separator then [] :: fields separator cs
      else
        match fields separator cs with
        | [] => [[c]]
        | piece :: rest => (c :: piece) :: rest

def number? (bound : Nat) (text : List Char) : Option Nat :=
  (Text.Digits.readNumber 10 bound text).toOption

/-- The number of a character: one of those Unicode has, surrogates left
out. -/
def codePoint? (text : List Char) : Option Nat :=
  (number? 0x110000 text).filter fun n => n.isValidChar

-- ================================================================== keys

/-- The keypad has numbers of its own. -/
def keypad? (n : Nat) : Option Code :=
  if 57399 ≤ n ∧ n ≤ 57408 then
    some (.char (Char.ofNat (n - 57399 + '0'.toNat)))
  else
    match n with
    | 57409 => some (.char '.')
    | 57410 => some (.char '/')
    | 57411 => some (.char '*')
    | 57412 => some (.char '-')
    | 57413 => some (.char '+')
    | 57414 => some .enter
    | 57415 => some (.char '=')
    | 57416 => some (.char ',')
    | _ => none

/-- Numbers for private use, which stand for keys without a character. -/
def isFunctional (n : Nat) : Bool := 0xe000 ≤ n && n ≤ 0xf8ff

/-- The key with a number. Tab with Shift is another key. -/
def codeOf (shift : Bool) (n : Nat) : Code :=
  match keypad? n with
  | some code => code
  | none =>
      if isFunctional n then .special "functional"
      else
        match Char.ofNat n with
        | '\x1b' => .escape
        | '\r' => .enter
        | '\t' => if shift then .special "back tab" else .tab
        | '\x7f' => .backspace
        | c => .char c

-- ============================================================= modifiers

def modifiersOf (mask : Nat) : Modifiers :=
  let bits := mask - 1
  { shift := bits.testBit 0
    alt := bits.testBit 1
    control := bits.testBit 2
    super := bits.testBit 3
    hyper := bits.testBit 4
    metaKey := bits.testBit 5 }

/-- A modifier that is itself the key counts as held: Shift, Control, Alt
and the super, hyper and meta keys, on the left from 57441 and on the
right from 57447. -/
def heldWith (n : Nat) (m : Modifiers) : Modifiers :=
  { shift := m.shift || n == 57441 || n == 57447
    control := m.control || n == 57442 || n == 57448
    alt := m.alt || n == 57443 || n == 57449
    super := m.super || n == 57444 || n == 57450
    hyper := m.hyper || n == 57445 || n == 57451
    metaKey := m.metaKey || n == 57446 || n == 57452 }

def phaseOf : Nat → Phase
  | 2 => .held
  | 3 => .release
  | _ => .press

/-- The modifiers and the phase that a second field gives. -/
def stateOf (field : List Char) : Modifiers × Phase :=
  let parts := fields ':' field
  match (parts[0]?).bind (number? 256) with
  | none => ({}, .press)
  | some mask =>
      let phase := (parts[1]?).bind (number? 256)
      (modifiersOf mask, phaseOf (phase.getD 1))

-- ================================================================ events

/-- With Shift, the character that the key has with it, if it is given,
takes the place of both. -/
def shifted (e : Event) (alternate : Option Nat) : Event :=
  match e.modifiers.shift, alternate with
  | true, some n =>
      { e with
        code := .char (Char.ofNat n)
        modifiers := { e.modifiers with shift := false } }
  | _, _ => e

/-- The event that a report stands for. -/
def event? (report : List Char) : Option Event := do
  let all := fields ';' report
  let parts := fields ':' (all[0]?.getD [])
  let n ← (parts[0]?).bind codePoint?
  let (modifiers, phase) := (all[1]?.map stateOf).getD ({}, .press)
  let e : Event :=
    { code := codeOf modifiers.shift n
      modifiers := heldWith n modifiers
      phase }
  return shifted e ((parts[1]?).bind codePoint?)

end Lc3.Key.Numbered
