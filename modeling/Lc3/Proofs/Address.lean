/-
Which texts are addresses, and what is wrong with the others
(`address_grammar`). A mark in front decides about the base, and the marks
are looked for in an order (`marks`); since none of them begins with
another, no text has two. What is behind the mark is read as a number that
has to fit into a word.
-/
import Lc3.Address
import Lc3.Proofs.Text.Digits
import Mathlib.Data.List.Basic

namespace Lc3.Address

open Text
open Text.Digits (Fault Numeral FirstWrong unsigned)

-- ================================================================= marks

/-- The marks of hexadecimal, in the order in which they are looked for. -/
def marks : List (List Char) := [['0', 'x'], ['0', 'X'], ['x'], ['X']]

/-- The base that a text asks for and what is behind the mark; without a
mark, the text is decimal and all of it is the number. -/
def unmarked (text : List Char) : Nat × List Char :=
  match marks.findSome? text.dropPrefix? with
  | some number => (16, number)
  | none => (10, text)

/-- A text without a mark is all number, and decimal. -/
theorem unmarked_of_no_mark {text : List Char}
    (h : ∀ mark ∈ marks, ∀ rest, text ≠ mark ++ rest) :
    unmarked text = (10, text) := by
  have hnone : marks.findSome? text.dropPrefix? = none := by
    rw [List.findSome?_eq_none_iff]
    intro mark hmark
    rw [Option.eq_none_iff_forall_ne_some]
    intro rest hrest
    obtain ⟨mark', htext, heq⟩ := List.dropPrefix?_eq_some_iff.1 hrest
    exact h mark hmark rest (eq_of_beq heq ▸ htext)
  rw [unmarked, hnone]

/-- Looking for the marks in their order comes to the same as the cases that
the reader goes through. -/
theorem splitBase_eq (text : List Char) :
    splitBase text = unmarked text := by
  unfold splitBase
  split
  case h_5 h0x h0X hx hX =>
    refine (unmarked_of_no_mark ?_).symm
    simp only [marks, List.forall_mem_cons]
    exact ⟨h0x, h0X, hx, hX, nofun⟩
  all_goals simp [unmarked, marks, List.dropPrefix?]

/-- Both bases have their digits among the sixteen. -/
theorem base_le {base : Nat} {text number : List Char}
    (h : unmarked text = (base, number)) : base ≤ 16 := by
  unfold unmarked at h
  split at h
  · cases h
    exact Nat.le_refl 16
  · cases h
    exact Nat.le_of_ble_eq_true rfl

-- ================================================================ reading

/-- The text is no address, and this is the cause that is given. -/
def Refused (s cause : String) : Prop :=
  ∃ fault, ofString s = .error fault
    ∧ message s fault
        = "invalid address " ++ Text.quoted s ++ ": " ++ cause

/-- No two faults have the same words, so the words tell which it was. -/
theorem refused_message_iff {s : String} {fault : Fault} :
    Refused s fault.message ↔ ofString s = .error fault := by
  constructor
  · intro h
    obtain ⟨fault', hread, hsame⟩ := h
    unfold message at hsame
    rw [String.append_right_inj] at hsame
    rwa [← Digits.message_injective hsame]
  · intro hread
    refine ⟨fault, hread, ?_⟩
    unfold message
    rfl

section Reading

variable {s : String} {base : Nat} {number : List Char}

/-- An address is the number behind the mark, as a word. -/
theorem ofString_eq (h : unmarked s.toList = (base, number)) :
    ofString s =
      (Digits.readNumber base 65536 number).map (BitVec.ofNat 16) := by
  rw [ofString, ofChars, splitBase_eq, h]

/-- A number that fits is not changed by being made a word. -/
theorem ofString_eq_ok_iff (h : unmarked s.toList = (base, number))
    {n : Nat} :
    (∃ a, ofString s = .ok a ∧ a.toNat = n)
      ↔ Numeral base number n ∧ n < 65536 := by
  rw [ofString_eq h,
    ← Digits.readNumber_eq_ok_iff (base_le h) (by decide)]
  cases hread : Digits.readNumber base 65536 number with
  | error fault => simp [Except.map]
  | ok m =>
      have hm : m < 65536 :=
        ((Digits.readNumber_eq_ok_iff (base_le h) (by decide)).1 hread).2
      simp [Except.map, Nat.mod_eq_of_lt hm]

/-- The cause that is given is that of the number behind the mark. -/
theorem refused_iff_readNumber (h : unmarked s.toList = (base, number))
    {fault : Fault} :
    Refused s fault.message
      ↔ Digits.readNumber base 65536 number = .error fault := by
  rw [refused_message_iff, ofString_eq h]
  cases Digits.readNumber base 65536 number with
  | error fault' => simp [Except.map]
  | ok m => simp [Except.map]

/-- A text is refused where it is no number that fits. -/
theorem refused_iff (h : unmarked s.toList = (base, number)) :
    (∃ cause, Refused s cause)
      ↔ ¬ ∃ n, Numeral base number n ∧ n < 65536 := by
  simp only [← ofString_eq_ok_iff h]
  cases hread : ofString s with
  | error fault => exact iff_of_true ⟨_, refused_message_iff.2 hread⟩ nofun
  | ok a =>
      refine iff_of_false (fun hrefused => ?_)
        (not_not_intro ⟨_, a, rfl, rfl⟩)
      obtain ⟨cause, fault, hfault, -⟩ := hrefused
      rw [hread] at hfault
      cases hfault

end Reading

/-- Every text is a number behind its mark or is refused, and if it is, for
what is wrong at the leftmost place at which something is. -/
theorem address_grammar (s : String) :
    ∃ base number, unmarked s.toList = (base, number)
      ∧ (∀ n, (∃ a, ofString s = .ok a ∧ a.toNat = n)
          ↔ Numeral base number n ∧ n ≤ 65535)
      ∧ ((∃ cause, Refused s cause)
          ↔ ¬ ∃ n, Numeral base number n ∧ n ≤ 65535)
      ∧ (Refused s "cannot parse integer from empty string"
          ↔ number = [])
      ∧ (Refused s "invalid digit found in string" ↔
          number ≠ [] ∧ (unsigned number = []
            ∨ ∃ i, FirstWrong base 65536 (unsigned number) i .invalidDigit))
      ∧ (Refused s "number too large to fit in target type" ↔
          ∃ i, FirstWrong base 65536 (unsigned number) i .tooLarge) := by
  obtain ⟨base, number, h⟩ : ∃ base number,
      unmarked s.toList = (base, number) := ⟨_, _, rfl⟩
  have hbase := base_le h
  have hbound : 0 < 65536 := by decide
  refine ⟨base, number, h, fun n => ?_, ?_, ?_, ?_, ?_⟩
  · rw [ofString_eq_ok_iff h, Nat.lt_succ_iff]
  · simp only [refused_iff h, Nat.lt_succ_iff]
  · exact (refused_iff_readNumber h).trans
      (Digits.readNumber_eq_empty_iff hbase hbound)
  · exact (refused_iff_readNumber h).trans
      (Digits.readNumber_eq_invalidDigit_iff hbase hbound)
  · exact (refused_iff_readNumber h).trans
      (Digits.readNumber_eq_tooLarge_iff hbase hbound)

/-- Zeros in front do no harm, and the sign stands behind the mark. -/
example : ofString "0x+0000fFfF" = .ok 0xffff := by decide

/-- At one place, no digit goes before too large a value. -/
example : ofString "65535z" = .error .invalidDigit := by decide

end Lc3.Address
