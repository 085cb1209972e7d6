/-
A numeral stands for one number. Decimal numerals do whatever their
length, signed ones included, because a sign is no digit. A hexadecimal
numeral of a fixed width does so among the numbers that fit into it.

Of what a numeral is made of, one thing is needed elsewhere: it holds no
character that is used to separate numerals from each other.
-/
import Lc3.Text.Numeral
import Mathlib.Algebra.Group.Nat.Defs

namespace Lc3.Text

-- ================================================================ decimal

theorem toList_decimal (n : Nat) :
    (decimal n).toList = Nat.toDigits 10 n :=
  String.toList_ofList

theorem isDigit_of_mem_decimal {c : Char} {n : Nat}
    (h : c ∈ (decimal n).toList) : c.isDigit = true := by
  rw [toList_decimal] at h
  exact Nat.isDigit_of_mem_toDigits (by decide) (by decide) h

/-- The digits of a number determine it, since it can be read from them. -/
theorem decimal_injective : Function.Injective decimal := by
  intro n n' h
  have hdigits : Nat.toDigits 10 n = Nat.toDigits 10 n' := by
    rw [← toList_decimal, ← toList_decimal, h]
  calc
    n = Nat.ofDigitChars 10 (Nat.toDigits 10 n) 0 :=
      Nat.ofDigitChars_ten_toDigits.symm
    _ = Nat.ofDigitChars 10 (Nat.toDigits 10 n') 0 := by rw [hdigits]
    _ = n' := Nat.ofDigitChars_ten_toDigits

/-- A numeral without a sign is none with one. -/
theorem decimal_ne_minus (n n' : Nat) : decimal n ≠ "-" ++ decimal n' := by
  intro h
  have hminus : '-' ∈ (decimal n).toList := by
    rw [h, String.toList_append]
    exact List.mem_append_left _ (by decide)
  exact absurd (isDigit_of_mem_decimal hminus) (by decide)

/-- A sign is no digit, so numbers of one sign are told apart by their
digits, and those of different signs by their first character. -/
theorem signedDecimal_injective : Function.Injective signedDecimal := by
  intro i i' h
  unfold signedDecimal at h
  by_cases hi : i < 0
  · by_cases hi' : i' < 0
    · rw [if_pos hi, if_pos hi', String.append_right_inj] at h
      have hsize := decimal_injective h
      omega
    · rw [if_pos hi, if_neg hi'] at h
      exact absurd h.symm (decimal_ne_minus _ _)
  · by_cases hi' : i' < 0
    · rw [if_neg hi, if_pos hi'] at h
      exact absurd h (decimal_ne_minus _ _)
    · rw [if_neg hi, if_neg hi'] at h
      have hsize := decimal_injective h
      omega

/-- A signed numeral is of digits and a minus sign, so that a space or a
comma behind it ends it. -/
theorem mem_signedDecimal {c : Char} {i : Int}
    (h : c ∈ (signedDecimal i).toList) : c = '-' ∨ c.isDigit = true := by
  unfold signedDecimal at h
  by_cases hi : i < 0
  · rw [if_pos hi, String.toList_append] at h
    rcases List.mem_append.1 h with h | h
    · exact .inl (List.mem_singleton.1 h)
    · exact .inr (isDigit_of_mem_decimal h)
  · rw [if_neg hi] at h
    exact .inr (isDigit_of_mem_decimal h)

-- ============================================================ hexadecimal

theorem toList_upperHex (width n : Nat) :
    (upperHex width n).toList = (hexDigits width n).map Char.toUpper :=
  String.toList_ofList

theorem length_upperHex (width n : Nat) :
    (upperHex width n).toList.length = width := by
  rw [toList_upperHex, List.length_map, length_hexDigits]

/-- The sixteen digits differ in upper case, too. -/
theorem toUpper_digitChar_inj :
    ∀ d < 16, ∀ d' < 16,
      (Nat.digitChar d).toUpper = (Nat.digitChar d').toUpper → d = d' := by
  decide

/-- Among numbers that fit into the width no digit is lost, and what is left
of a longer number can be the same as of a short one. -/
theorem upperHex_inj {width n n' : Nat} (hn : n < 16 ^ width)
    (hn' : n' < 16 ^ width) (h : upperHex width n = upperHex width n') :
    n = n' := by
  replace h := congrArg String.toList h
  rw [toList_upperHex, toList_upperHex] at h
  induction width generalizing n n' with
  | zero =>
      rw [Nat.pow_zero] at hn hn'
      omega
  | succ width ih =>
      rw [Nat.pow_succ] at hn hn'
      rw [hexDigits, hexDigits, List.map_append, List.map_append] at h
      obtain ⟨hfront, hlast⟩ := List.append_inj' h rfl
      have hquot : n / 16 = n' / 16 := ih (by omega) (by omega) hfront
      have hrem : n % 16 = n' % 16 :=
        toUpper_digitChar_inj _ (Nat.mod_lt _ (by decide)) _
          (Nat.mod_lt _ (by decide)) (List.singleton_inj.1 hlast)
      omega

/-- Each digit is one of sixteen, whatever the number. -/
theorem mem_hexDigits {c : Char} {width n : Nat}
    (h : c ∈ hexDigits width n) : ∃ d < 16, c = Nat.digitChar d := by
  induction width generalizing n with
  | zero => cases h
  | succ width ih =>
      rw [hexDigits] at h
      rcases List.mem_append.1 h with h | h
      · exact ih h
      · exact ⟨n % 16, Nat.mod_lt n (by decide), List.mem_singleton.1 h⟩

/-- A hexadecimal numeral has nothing in it that could be taken for a
separator. -/
theorem isAlphanum_of_mem_upperHex {c : Char} {width n : Nat}
    (h : c ∈ (upperHex width n).toList) : c.isAlphanum = true := by
  have hdigits : ∀ d < 16,
      (Nat.digitChar d).toUpper.isAlphanum = true := by
    decide
  rw [toList_upperHex] at h
  obtain ⟨c', hc', rfl⟩ := List.mem_map.1 h
  obtain ⟨d, hd, rfl⟩ := mem_hexDigits hc'
  exact hdigits d hd

end Lc3.Text
