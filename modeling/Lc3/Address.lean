/-
Addresses as a person types them: hexadecimal after an x (with or
without a zero before it, either case), decimal otherwise, and after
that choice a number below the size of the address space.
-/
import Lc3.Word
import Lc3.Text.Digits
import Lc3.Text.Quoted

namespace Lc3.Address

open Text

/-- The base a text asks for, and the text behind its mark. -/
def splitBase : List Char → Nat × List Char
  | '0' :: 'x' :: rest => (16, rest)
  | '0' :: 'X' :: rest => (16, rest)
  | 'x' :: rest => (16, rest)
  | 'X' :: rest => (16, rest)
  | text => (10, text)

def ofChars (text : List Char) : Except Digits.Fault Word :=
  let (base, number) := splitBase text
  (Digits.readNumber base 65536 number).map (BitVec.ofNat 16)

def ofString (s : String) : Except Digits.Fault Word := ofChars s.toList

/-- What is said of a text that is no address. -/
def message (s : String) (fault : Digits.Fault) : String :=
  "invalid address " ++ Text.quoted s ++ ": " ++ fault.message

end Lc3.Address
