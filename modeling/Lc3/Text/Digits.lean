/-
How numbers are read. Digits are taken from the left and the first thing
wrong is what is reported: a character that is no digit, or the digit
with which the value reaches the bound. Leading zeros are harmless
however many there are.

One plus sign may stand in front. A sign alone has no digits, which
counts as a bad one; only nothing at all is reported as empty.
-/
namespace Lc3.Text.Digits

inductive Fault where
  | empty | invalidDigit | tooLarge
deriving DecidableEq, Repr

def Fault.message : Fault → String
  | empty => "cannot parse integer from empty string"
  | invalidDigit => "invalid digit found in string"
  | tooLarge => "number too large to fit in target type"

/-- The value of an ASCII digit of the base, letters in either case. -/
def digit? (base : Nat) (c : Char) : Option Nat :=
  let value :=
    if '0' ≤ c ∧ c ≤ '9' then some (c.toNat - 48)
    else if 'a' ≤ c ∧ c ≤ 'f' then some (c.toNat - 87)
    else if 'A' ≤ c ∧ c ≤ 'F' then some (c.toNat - 55)
    else none
  value.filter (· < base)

/-- The value of `value` followed by the digits of a text. -/
def readDigits (base bound value : Nat) : List Char → Except Fault Nat
  | [] => .ok value
  | c :: cs =>
      match digit? base c with
      | none => .error .invalidDigit
      | some d =>
          if value * base + d < bound then
            readDigits base bound (value * base + d) cs
          else .error .tooLarge

/-- A number below `bound` of at least one digit, with or without a plus
sign. -/
def readNumber (base bound : Nat) : List Char → Except Fault Nat
  | [] => .error .empty
  | ['+'] => .error .invalidDigit
  | '+' :: digits => readDigits base bound 0 digits
  | digits => readDigits base bound 0 digits

end Lc3.Text.Digits
