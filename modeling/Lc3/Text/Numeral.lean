/-
How numbers are written. Counts and signed values are decimal with as
few digits as the value needs; addresses and words are hexadecimal of a
fixed width, so that columns line up and a reader can tell a word from a
byte. A fixed width keeps the low digits of a value too large for it;
every caller passes a value that fits.
-/
namespace Lc3.Text

-- ================================================================ decimal

def decimal (n : Nat) : String := String.ofList (Nat.toDigits 10 n)

/-- A minus sign where there is one, and no plus. -/
def signedDecimal (i : Int) : String :=
  if i < 0 then "-" ++ decimal i.natAbs else decimal i.natAbs

-- ============================================================ hexadecimal

/-- The last `width` digits of `n` in base sixteen, lower case. -/
def hexDigits : (width n : Nat) → List Char
  | 0, _ => []
  | width + 1, n => hexDigits width (n / 16) ++ [Nat.digitChar (n % 16)]

/-- The width is kept, whether the value needs all of it or more. -/
@[simp] theorem length_hexDigits (width n : Nat) :
    (hexDigits width n).length = width := by
  induction width generalizing n with
  | zero => rfl
  | succ width ih => simp [hexDigits, ih]

def hex (width n : Nat) : String := String.ofList (hexDigits width n)

def upperHex (width n : Nat) : String :=
  String.ofList ((hexDigits width n).map Char.toUpper)

end Lc3.Text
