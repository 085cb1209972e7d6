/-
A text as it is shown inside a message: between double quotes, with
everything escaped that would end the quotation, break the line or be
invisible. A single quote needs no escape there and gets none.
-/
import Lc3.Text.Numeral
import Lc3.Text.Unprintable

namespace Lc3.Text

/-- A code point written out in hexadecimal, as few digits as it has. -/
def escapeCodePoint (c : Char) : List Char :=
  ['\\', 'u', '\x7b'] ++ Nat.toDigits 16 c.toNat ++ ['\x7d']

def escape (c : Char) : List Char :=
  match c with
  | '\x00' => ['\\', '0']
  | '\t' => ['\\', 't']
  | '\n' => ['\\', 'n']
  | '\r' => ['\\', 'r']
  | '"' => ['\\', '"']
  | '\\' => ['\\', '\\']
  | c => if isUnprintable c then escapeCodePoint c else [c]

def quoted (s : String) : String :=
  String.ofList ('"' :: s.toList.flatMap escape ++ ['"'])

end Lc3.Text
