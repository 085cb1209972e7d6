/-
What is read of a number, held against what stands there. A text of digits
has a value, which is a matter of the digits and their places and not of
the order in which somebody goes through them. Reading goes through them
from the left, and gives up as soon as the value gets too large to be kept.
All the same it comes to the value, for a text that has one below the
bound (`readDigits_eq_ok_iff`), and for any other text to what is wrong at
the leftmost place where something is (`readDigits_eq_error_iff`).

Both are by induction on the text from its end: what is read of a text and
one more character depends on the text only through what was read of it
(`readDigits_append`), and so does the value.
-/
import Lc3.Text.Digits
import Mathlib.Data.Nat.Digits.Defs
import Mathlib.Data.List.Induction

namespace Lc3.Text.Digits

-- ========================================================= single digits

/-- The character is a digit of the base, in either case, and stands for
this number. -/
def IsDigit (base : Nat) (c : Char) (d : Nat) : Prop :=
  d < base ∧ (c = Nat.digitChar d ∨ c = (Nat.digitChar d).toUpper)

theorem digit?_digitChar :
    ∀ d < 16, digit? 16 (Nat.digitChar d) = some d := by
  decide

theorem digit?_upper_digitChar :
    ∀ d < 16, digit? 16 (Nat.digitChar d).toUpper = some d := by
  decide

/-- In a row of characters, which one it is follows from its number. -/
theorem eq_of_mem_row {start count : Nat} {row : Nat → Char}
    (h : ∀ k < count, Char.ofNat (start + k) = row k) {c : Char}
    (hlow : start ≤ c.toNat) (hhigh : c.toNat < start + count) :
    c = row (c.toNat - start) := by
  have hk : c.toNat - start < count := by omega
  rw [← h _ hk, Nat.add_sub_cancel' hlow, Char.ofNat_toNat]

/-- What has a value as a digit is one of the sixteen characters, or is the
capital of one. The three rows that digits are looked for in are the three
cases. -/
theorem digitChar_of_digit? {c : Char} {d : Nat}
    (h : digit? 16 c = some d) :
    c = Nat.digitChar d ∨ c = (Nat.digitChar d).toUpper := by
  have hdecimal : ∀ k < 10, Char.ofNat (48 + k) = Nat.digitChar k := by
    decide
  have hlower : ∀ k < 6, Char.ofNat (97 + k) = Nat.digitChar (10 + k) := by
    decide
  have hupper : ∀ k < 6,
      Char.ofNat (65 + k) = (Nat.digitChar (10 + k)).toUpper := by
    decide
  obtain ⟨h, -⟩ := Option.filter_eq_some_iff.1 h
  -- the three rows of digits, in the order in which they are tried
  by_cases h09 : '0' ≤ c ∧ c ≤ '9'
  · rw [if_pos h09, Option.some_inj] at h
    obtain ⟨hlow, hhigh⟩ : 48 ≤ c.toNat ∧ c.toNat ≤ 57 := h09
    rw [← h]
    exact .inl (eq_of_mem_row hdecimal hlow (Nat.lt_succ_of_le hhigh))
  rw [if_neg h09] at h
  by_cases haf : 'a' ≤ c ∧ c ≤ 'f'
  · rw [if_pos haf, Option.some_inj] at h
    obtain ⟨hlow, hhigh⟩ : 97 ≤ c.toNat ∧ c.toNat ≤ 102 := haf
    have hd : d = 10 + (c.toNat - 97) := by omega
    rw [hd]
    exact .inl (eq_of_mem_row hlower hlow (Nat.lt_succ_of_le hhigh))
  rw [if_neg haf] at h
  by_cases hAF : 'A' ≤ c ∧ c ≤ 'F'
  · rw [if_pos hAF, Option.some_inj] at h
    obtain ⟨hlow, hhigh⟩ : 65 ≤ c.toNat ∧ c.toNat ≤ 70 := hAF
    have hd : d = 10 + (c.toNat - 65) := by omega
    rw [hd]
    exact .inr (eq_of_mem_row hupper hlow (Nat.lt_succ_of_le hhigh))
  rw [if_neg hAF] at h
  cases h

/-- The digits of a smaller base are some of the sixteen. -/
theorem digit?_eq_some_iff {base : Nat} (hbase : base ≤ 16) {c : Char}
    {d : Nat} : digit? base c = some d ↔ IsDigit base c d := by
  have hsixteen : digit? base c = some d
      ↔ d < base ∧ digit? 16 c = some d := by
    simp only [digit?, Option.filter_eq_some_iff, decide_eq_true_eq]
    constructor
    · intro h
      exact ⟨h.2, h.1, Nat.lt_of_lt_of_le h.2 hbase⟩
    · intro h
      exact ⟨h.2.1, h.1⟩
  rw [hsixteen]
  refine and_congr_right fun hd => ⟨digitChar_of_digit?, fun hc => ?_⟩
  have hd16 : d < 16 := Nat.lt_of_lt_of_le hd hbase
  rcases hc with rfl | rfl
  · exact digit?_digitChar d hd16
  · exact digit?_upper_digitChar d hd16

-- ================================================================ values

/-- The text is made of digits of the base and has this value. The last
digit counts least, and `Nat.ofDigits` begins with it. -/
def Denotes (base : Nat) (text : List Char) (n : Nat) : Prop :=
  ∃ ds, List.Forall₂ (IsDigit base) text.reverse ds
    ∧ n = Nat.ofDigits base ds

/-- No digits are worth nothing. -/
theorem denotes_nil {base n : Nat} : Denotes base [] n ↔ n = 0 := by
  constructor
  · intro h
    obtain ⟨ds, hds, hn⟩ := h
    cases hds
    exact hn
  · intro hn
    exact ⟨[], .nil, hn⟩

/-- One more digit at the end moves the others by a place. -/
theorem denotes_concat {base n : Nat} {text : List Char} {c : Char} :
    Denotes base (text ++ [c]) n ↔
      ∃ m d, Denotes base text m ∧ IsDigit base c d
        ∧ n = m * base + d := by
  have hvalue : ∀ d ds, Nat.ofDigits base (d :: ds)
      = Nat.ofDigits base ds * base + d := by
    intro d ds
    rw [Nat.ofDigits_cons, Nat.mul_comm]
    exact Nat.add_comm d _
  unfold Denotes
  rw [List.reverse_concat]
  constructor
  · intro h
    obtain ⟨ds, hds, rfl⟩ := h
    cases hds with
    | cons hd hds => exact ⟨_, _, ⟨_, hds, rfl⟩, hd, hvalue _ _⟩
  · intro h
    obtain ⟨m, d, ⟨ds, hds, rfl⟩, hd, rfl⟩ := h
    exact ⟨d :: ds, .cons hd hds, (hvalue d ds).symm⟩

-- =============================================================== reading

section Reading

variable {base bound : Nat}

/-- What is read of two texts in a row is read of the second from the value
of the first. This is what the inductions from the end rest on. -/
theorem readDigits_append (value : Nat) (text rest : List Char) :
    readDigits base bound value (text ++ rest) = (do
      let n ← readDigits base bound value text
      readDigits base bound n rest) := by
  induction text generalizing value with
  | nil => rfl
  | cons c text ih =>
      rw [List.cons_append, readDigits, readDigits]
      cases digit? base c with
      | none => rfl
      | some d =>
          by_cases hlt : value * base + d < bound
          · simp only [if_pos hlt]
            exact ih _
          · simp only [if_neg hlt]
            rfl

theorem readDigits_append_eq_ok_iff {value n : Nat}
    {text rest : List Char} :
    readDigits base bound value (text ++ rest) = .ok n ↔
      ∃ m, readDigits base bound value text = .ok m
        ∧ readDigits base bound m rest = .ok n := by
  rw [readDigits_append]
  cases readDigits base bound value text with
  | error fault => simp [bind, Except.bind]
  | ok m => simp [bind, Except.bind]

/-- The first fault is the one that is reported, and behind it nothing is
looked at. -/
theorem readDigits_append_eq_error_iff {value : Nat} {fault : Fault}
    {text rest : List Char} :
    readDigits base bound value (text ++ rest) = .error fault ↔
      readDigits base bound value text = .error fault
        ∨ ∃ m, readDigits base bound value text = .ok m
          ∧ readDigits base bound m rest = .error fault := by
  rw [readDigits_append]
  cases readDigits base bound value text with
  | error fault' => simp [bind, Except.bind]
  | ok m => simp [bind, Except.bind]

theorem readDigits_single_eq_ok_iff {value n : Nat} {c : Char} :
    readDigits base bound value [c] = .ok n ↔
      ∃ d, digit? base c = some d ∧ n = value * base + d
        ∧ n < bound := by
  rw [readDigits]
  cases digit? base c with
  | none => exact iff_of_false nofun nofun
  | some d =>
      simp only [readDigits, Option.some.injEq, exists_eq_left']
      split <;> grind

theorem readDigits_single_eq_error_iff {value : Nat} {fault : Fault}
    {c : Char} :
    readDigits base bound value [c] = .error fault ↔
      (fault = .invalidDigit ∧ digit? base c = none)
        ∨ fault = .tooLarge
          ∧ ∃ d, digit? base c = some d ∧ bound ≤ value * base + d := by
  rw [readDigits]
  cases digit? base c with
  | none => grind
  | some d =>
      simp only [readDigits, Option.some.injEq, exists_eq_left']
      split <;> grind

/-- Giving up early does no harm: if the value of all digits is below the
bound, then so is that of each text it begins with. -/
theorem readDigits_eq_ok_iff (hbase : base ≤ 16) (hbound : 0 < bound)
    {text : List Char} {n : Nat} :
    readDigits base bound 0 text = .ok n
      ↔ Denotes base text n ∧ n < bound := by
  induction text using List.reverseRecOn generalizing n with
  | nil =>
      rw [denotes_nil, readDigits, Except.ok.injEq]
      omega
  | append_singleton text c ih =>
      simp only [readDigits_append_eq_ok_iff, denotes_concat, ih,
        readDigits_single_eq_ok_iff, digit?_eq_some_iff hbase]
      constructor
      · intro h
        obtain ⟨m, ⟨hm, -⟩, d, hd, hn, hlt⟩ := h
        exact ⟨⟨m, d, hm, hd, hn⟩, hlt⟩
      · intro h
        obtain ⟨⟨m, d, hm, hd, hn⟩, hlt⟩ := h
        -- with one digit less the value is no larger
        have hfirst : m ≤ m * base :=
          Nat.le_mul_of_pos_right m (Nat.zero_lt_of_lt hd.1)
        exact ⟨m, ⟨hm, by omega⟩, d, hd, hn, hlt⟩

/-- A text has one value only, the one that is read of it where there is
room for both. -/
theorem Denotes.unique (hbase : base ≤ 16) {text : List Char} {n n' : Nat}
    (h : Denotes base text n) (h' : Denotes base text n') : n = n' := by
  have hread : readDigits base (n + n' + 1) 0 text = .ok n :=
    (readDigits_eq_ok_iff hbase (Nat.succ_pos _)).2 ⟨h, by omega⟩
  have hread' : readDigits base (n + n' + 1) 0 text = .ok n' :=
    (readDigits_eq_ok_iff hbase (Nat.succ_pos _)).2 ⟨h', by omega⟩
  exact Except.ok.inj (hread.symm.trans hread')

end Reading

-- ================================================================ faults

/-- At this place of the text is no digit of the base. -/
def NoDigitAt (base : Nat) (text : List Char) (i : Nat) : Prop :=
  ∃ c, text[i]? = some c ∧ ∀ d, ¬ IsDigit base c d

/-- The text has digits up to this place, and together with the one here
they have a value that is not below the bound. -/
def TooLargeAt (base bound : Nat) (text : List Char) (i : Nat) : Prop :=
  i < text.length ∧ ∃ n, Denotes base (text.take (i + 1)) n ∧ bound ≤ n

/-- What may be wrong at a place. -/
def WrongAt (base bound : Nat) (text : List Char) (i : Nat) :
    Fault → Prop
  | .empty => False
  | .invalidDigit => NoDigitAt base text i
  | .tooLarge => TooLargeAt base bound text i

/-- This is wrong, and it is the leftmost place where anything is. -/
structure FirstWrong (base bound : Nat) (text : List Char) (i : Nat)
    (fault : Fault) : Prop where
  wrong : WrongAt base bound text i fault
  leftmost : ∀ j < i, ∀ f, ¬ WrongAt base bound text j f

section Faults

variable {base bound : Nat}

/-- Only at a place of the text can something be wrong with it. -/
theorem WrongAt.lt {text : List Char} {i : Nat} {fault : Fault}
    (h : WrongAt base bound text i fault) : i < text.length := by
  cases fault with
  | empty => cases h
  | invalidDigit =>
      obtain ⟨c, hc, -⟩ := h
      exact (List.getElem?_eq_some_iff.1 hc).1
  | tooLarge => exact h.1

theorem not_firstWrong_nil {fault : Fault} :
    ¬ ∃ i, FirstWrong base bound [] i fault := by
  intro h
  obtain ⟨i, hfirst⟩ := h
  exact Nat.not_lt_zero i hfirst.wrong.lt

theorem lt_or_end_of_concat {text : List Char} {c : Char} {i : Nat}
    (h : i < (text ++ [c]).length) : i < text.length ∨ i = text.length := by
  rw [List.length_append, List.length_singleton] at h
  omega

/-- What stands behind a place has no part in it. -/
theorem wrongAt_append {text : List Char} {i : Nat}
    (h : i < text.length) (rest : List Char) (fault : Fault) :
    WrongAt base bound (text ++ rest) i fault
      ↔ WrongAt base bound text i fault := by
  cases fault with
  | empty => exact Iff.rfl
  | invalidDigit =>
      unfold WrongAt NoDigitAt
      rw [List.getElem?_append_left h]
  | tooLarge =>
      unfold WrongAt TooLargeAt
      rw [List.take_append_of_le_length h, List.length_append]
      simp only [h, Nat.lt_add_right, true_and]

/-- At the end of a text that could be read, what is wrong is what reading
says of one more character. -/
theorem wrongAt_concat_length (hbase : base ≤ 16) (hbound : 0 < bound)
    {text : List Char} {m : Nat}
    (h : readDigits base bound 0 text = .ok m) (c : Char) (fault : Fault) :
    WrongAt base bound (text ++ [c]) text.length fault
      ↔ readDigits base bound m [c] = .error fault := by
  have hread := (readDigits_eq_ok_iff hbase hbound).1 h
  -- with `c` at the end the number is the old one and one more digit
  have hmore : ∀ n, Denotes base (text ++ [c]) n
      ↔ ∃ d, digit? base c = some d ∧ n = m * base + d := by
    intro n
    rw [denotes_concat]
    constructor
    · intro h
      obtain ⟨m', d, hm', hd, hn⟩ := h
      rw [hread.1.unique hbase hm']
      exact ⟨d, (digit?_eq_some_iff hbase).2 hd, hn⟩
    · intro h
      obtain ⟨d, hd, hn⟩ := h
      exact ⟨m, d, hread.1, (digit?_eq_some_iff hbase).1 hd, hn⟩
  rw [readDigits_single_eq_error_iff]
  cases fault with
  | empty => exact iff_of_false id (by simp)
  | invalidDigit =>
      unfold WrongAt NoDigitAt
      simp [← digit?_eq_some_iff hbase, Option.eq_none_iff_forall_ne_some]
  | tooLarge =>
      unfold WrongAt TooLargeAt
      simp [List.take_of_length_le, hmore]

theorem not_wrongAt_of_ok (hbase : base ≤ 16) (hbound : 0 < bound)
    {text : List Char} {n : Nat}
    (h : readDigits base bound 0 text = .ok n) (i : Nat) (fault : Fault) :
    ¬ WrongAt base bound text i fault := by
  induction text using List.reverseRecOn generalizing n with
  | nil => exact fun hwrong => Nat.not_lt_zero i hwrong.lt
  | append_singleton text c ih =>
      obtain ⟨m, htext, hc⟩ := readDigits_append_eq_ok_iff.1 h
      intro hwrong
      rcases lt_or_end_of_concat hwrong.lt with hi | rfl
      · exact ih htext ((wrongAt_append hi [c] fault).1 hwrong)
      · rw [wrongAt_concat_length hbase hbound htext, hc] at hwrong
        cases hwrong

/-- Reading reports what is wrong at the leftmost place. A text that can be
read has nothing wrong with it anywhere, so one more character at its end is
either the first wrong place or none. -/
theorem readDigits_eq_error_iff (hbase : base ≤ 16) (hbound : 0 < bound)
    {text : List Char} {fault : Fault} :
    readDigits base bound 0 text = .error fault
      ↔ ∃ i, FirstWrong base bound text i fault := by
  induction text using List.reverseRecOn generalizing fault with
  | nil => exact iff_of_false nofun not_firstWrong_nil
  | append_singleton text c ih =>
      rw [readDigits_append_eq_error_iff, ih]
      constructor
      · intro h
        -- either reading failed before the last character or at it
        rcases h with ⟨i, hfirst⟩ | ⟨m, htext, hc⟩
        · have hi := hfirst.wrong.lt
          refine ⟨i, (wrongAt_append hi [c] fault).2 hfirst.wrong, ?_⟩
          intro j hj f hwrong
          exact hfirst.leftmost j hj f
            ((wrongAt_append (hj.trans hi) [c] f).1 hwrong)
        · refine ⟨text.length,
            (wrongAt_concat_length hbase hbound htext c fault).2 hc, ?_⟩
          intro j hj f hwrong
          exact not_wrongAt_of_ok hbase hbound htext j f
            ((wrongAt_append hj [c] f).1 hwrong)
      · intro h
        obtain ⟨i, hwrong, hleftmost⟩ := h
        have hbefore : ∀ j < i, j < text.length →
            ∀ f, ¬ WrongAt base bound text j f := by
          intro j hj hlt f hwrong
          exact hleftmost j hj f ((wrongAt_append hlt [c] f).2 hwrong)
        -- the first wrong place is in the text, or it is the last character
        rcases lt_or_end_of_concat hwrong.lt with hi | rfl
        · refine .inl ⟨i, (wrongAt_append hi [c] fault).1 hwrong, ?_⟩
          exact fun j hj => hbefore j hj (hj.trans hi)
        · right
          cases htext : readDigits base bound 0 text with
          | error f =>
              obtain ⟨j, hfirst⟩ := ih.1 htext
              have hj := hfirst.wrong.lt
              exact absurd hfirst.wrong (hbefore j hj hj f)
          | ok m =>
              exact ⟨m, rfl,
                (wrongAt_concat_length hbase hbound htext c fault).1 hwrong⟩

end Faults

theorem message_injective : Function.Injective Fault.message := by
  intro fault fault' h
  cases fault <;> cases fault' <;> simp_all [Fault.message]

-- ================================================================= signs

/-- The text without the plus sign that it begins with, if it does. -/
def unsigned : List Char → List Char
  | '+' :: digits => digits
  | text => text

/-- A number, as text: at least one digit, with or without a plus sign. -/
def Numeral (base : Nat) (text : List Char) (n : Nat) : Prop :=
  ∃ digits, (text = digits ∨ text = '+' :: digits)
    ∧ digits ≠ [] ∧ Denotes base digits n

theorem unsigned_eq_self {text : List Char} (h : text.head? ≠ some '+') :
    unsigned text = text := by
  unfold unsigned
  split
  · exact absurd rfl h
  · rfl

section Signs

variable {base bound : Nat}

theorem Denotes.head_ne_plus (hbase : base ≤ 16) {text : List Char}
    {n : Nat} (h : Denotes base text n) : text.head? ≠ some '+' := by
  intro hplus
  obtain ⟨rest, rfl⟩ := List.head?_eq_some_iff.1 hplus
  have hread : readDigits base (n + 1) 0 ('+' :: rest) = .ok n :=
    (readDigits_eq_ok_iff hbase (Nat.succ_pos n)).2 ⟨h, Nat.lt_succ_self n⟩
  cases hread

/-- No digit is a plus sign, so a sign is never taken for one. -/
theorem numeral_iff (hbase : base ≤ 16) {text : List Char} {n : Nat} :
    Numeral base text n
      ↔ unsigned text ≠ [] ∧ Denotes base (unsigned text) n := by
  constructor
  · intro h
    obtain ⟨digits, rfl | rfl, hne, hdigits⟩ := h
    · rw [unsigned_eq_self (hdigits.head_ne_plus hbase)]
      exact ⟨hne, hdigits⟩
    · exact ⟨hne, hdigits⟩
  · intro h
    obtain ⟨hne, hdigits⟩ := h
    refine ⟨unsigned text, ?_, hne, hdigits⟩
    by_cases hplus : text.head? = some '+'
    · obtain ⟨rest, rfl⟩ := List.head?_eq_some_iff.1 hplus
      exact .inr rfl
    · exact .inl (unsigned_eq_self hplus).symm

/-- A text that does not begin with a sign is its digits. -/
theorem readNumber_cons {c : Char} (h : c ≠ '+') (base bound : Nat)
    (text : List Char) :
    readNumber base bound (c :: text)
      = readDigits base bound 0 (c :: text) := by
  unfold readNumber
  split <;> simp_all

/-- What is read of a text is what is read of its digits, if there are
any. -/
theorem readNumber_eq {text : List Char} (h : text ≠ []) :
    readNumber base bound text =
      if unsigned text = [] then .error .invalidDigit
      else readDigits base bound 0 (unsigned text) := by
  by_cases hplus : text.head? = some '+'
  · obtain ⟨rest, rfl⟩ := List.head?_eq_some_iff.1 hplus
    cases rest with
    | nil => rfl
    | cons c rest => rfl
  · rw [unsigned_eq_self hplus, if_neg h]
    obtain ⟨c, rest, rfl⟩ := List.exists_cons_of_ne_nil h
    exact readNumber_cons (fun hc => hplus (congrArg some hc)) base bound rest

/-- A number is read just in case it is written, with or without the sign,
and fits. -/
theorem readNumber_eq_ok_iff (hbase : base ≤ 16) (hbound : 0 < bound)
    {text : List Char} {n : Nat} :
    readNumber base bound text = .ok n
      ↔ Numeral base text n ∧ n < bound := by
  rw [numeral_iff hbase]
  by_cases htext : text = []
  · rw [htext]
    exact iff_of_false nofun fun h => h.1.1 rfl
  rw [readNumber_eq htext]
  by_cases hdigits : unsigned text = []
  · rw [if_pos hdigits]
    exact iff_of_false nofun fun h => h.1.1 hdigits
  · rw [if_neg hdigits, readDigits_eq_ok_iff hbase hbound]
    simp [hdigits]

/-- A sign alone is not reported as empty. -/
theorem readNumber_eq_empty_iff (hbase : base ≤ 16) (hbound : 0 < bound)
    {text : List Char} :
    readNumber base bound text = .error .empty ↔ text = [] := by
  by_cases htext : text = []
  · rw [htext]
    exact iff_of_true rfl rfl
  refine iff_of_false (fun h => ?_) htext
  rw [readNumber_eq htext] at h
  split at h
  · cases h
  · obtain ⟨i, hfirst⟩ := (readDigits_eq_error_iff hbase hbound).1 h
    exact hfirst.wrong

/-- A sign alone counts as a bad digit. -/
theorem readNumber_eq_invalidDigit_iff (hbase : base ≤ 16)
    (hbound : 0 < bound) {text : List Char} :
    readNumber base bound text = .error .invalidDigit ↔
      text ≠ [] ∧ (unsigned text = []
        ∨ ∃ i, FirstWrong base bound (unsigned text) i .invalidDigit) := by
  by_cases htext : text = []
  · rw [htext]
    exact iff_of_false nofun fun h => h.1 rfl
  rw [readNumber_eq htext, and_iff_right htext]
  by_cases hdigits : unsigned text = []
  · rw [if_pos hdigits]
    exact iff_of_true rfl (.inl hdigits)
  · rw [if_neg hdigits, or_iff_right hdigits,
      readDigits_eq_error_iff hbase hbound]

/-- A value counts as too large at the digit with which it gets so, before
anything behind it is looked at. -/
theorem readNumber_eq_tooLarge_iff (hbase : base ≤ 16)
    (hbound : 0 < bound) {text : List Char} :
    readNumber base bound text = .error .tooLarge
      ↔ ∃ i, FirstWrong base bound (unsigned text) i .tooLarge := by
  by_cases hdigits : unsigned text = []
  · rw [hdigits]
    refine iff_of_false (fun h => ?_) not_firstWrong_nil
    by_cases htext : text = []
    · rw [htext] at h
      cases h
    · rw [readNumber_eq htext, if_pos hdigits] at h
      cases h
  · have htext : text ≠ [] := by
      intro htext
      rw [htext] at hdigits
      exact hdigits rfl
    rw [readNumber_eq htext, if_neg hdigits,
      readDigits_eq_error_iff hbase hbound]

end Signs

end Lc3.Text.Digits
