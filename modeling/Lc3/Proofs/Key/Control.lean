/-
Which bytes come from keys, and which key it is that stops a program. Only
a key going down has a byte, and the byte is an ASCII character. Control
makes the same control character of a letter in either case, with one
letter excepted: a small c asks to stop, and a capital C does not
(`byte_toUpper_iff`). What a program is given for a capital C is the
very byte that the two cases would otherwise have had in common, and it is
given that byte for nothing else that is typed with Control.
-/
import Lc3.Key.Event

namespace Lc3.Key.Event

-- =============================================================== letters

theorem toNat_of_isLower {c : Char} (h : c.isLower) :
    97 ≤ c.toNat ∧ c.toNat ≤ 122 := by
  obtain ⟨hlow, hhigh⟩ := Bool.and_eq_true_iff.1 h
  exact ⟨of_decide_eq_true hlow, of_decide_eq_true hhigh⟩

theorem toNat_of_isUpper {c : Char} (h : c.isUpper) :
    65 ≤ c.toNat ∧ c.toNat ≤ 90 :=
  of_decide_eq_true h

theorem toNat_of_isAlpha {c : Char} (h : c.isAlpha) :
    (65 ≤ c.toNat ∧ c.toNat ≤ 90) ∨ (97 ≤ c.toNat ∧ c.toNat ≤ 122) :=
  (Bool.or_eq_true_iff.1 h).imp toNat_of_isUpper toNat_of_isLower

/-- The small letters are twenty-six in a row, so what they have in common
can be looked up. -/
theorem small_letter {P : Char → Prop}
    (h : ∀ k < 26, P (Char.ofNat (97 + k))) {c : Char} (hc : c.isLower) :
    P c := by
  obtain ⟨hlow, hhigh⟩ := toNat_of_isLower hc
  have hk := h (c.toNat - 97) (by omega)
  rwa [Nat.add_sub_cancel' hlow, Char.ofNat_toNat] at hk

/-- The capital of a letter has its number in the alphabet, and is never
the key that asks to stop. -/
theorem toUpper_letter {c : Char} (h : c.isLower) :
    c.toUpper.isAlpha ∧ c.toUpper ≠ 'c'
      ∧ c.toUpper.toNat % 32 = c.toNat % 32 :=
  small_letter (P := fun c => c.toUpper.isAlpha ∧ c.toUpper ≠ 'c'
    ∧ c.toUpper.toNat % 32 = c.toNat % 32) (by decide) h

-- ================================================================= bytes

/-- The number of a letter, as a control character. -/
def letterByte (c : Char) : Byte := BitVec.ofNat 8 (c.toNat % 32)

/-- With Control a character is a request to stop, a letter or nothing, and
the request is looked for first. -/
theorem controlByte_char (c : Char) :
    controlByte (.char c) =
      if c = 'c' then .error interrupted
      else .ok (if c.isAlpha then some (letterByte c) else none) := by
  unfold controlByte
  split <;> simp_all [letterByte]

/-- Every other letter, in either case, is the control character of its
number. -/
theorem controlByte_letter {c : Char} (h : c.isAlpha) (hc : c ≠ 'c') :
    controlByte (.char c) = .ok (some (letterByte c)) := by
  rw [controlByte_char, if_neg hc, if_pos h]

theorem letterByte_lt (c : Char) : letterByte c < 0x80 := by
  rw [BitVec.lt_def, letterByte, BitVec.toNat_ofNat]
  show c.toNat % 32 % 2 ^ 8 < 128
  omega

/-- Whatever is typed with Control, what comes of it is ASCII. -/
theorem controlByte_lt {code : Code} {b : Byte}
    (h : controlByte code = .ok (some b)) : b < 0x80 := by
  cases code with
  | char c =>
      rw [controlByte_char] at h
      split at h
      · cases h
      · split at h
        · cases h
          exact letterByte_lt c
        · cases h
  | enter | tab | backspace | escape | special _ => cases h

/-- Nothing but the small letter asks to stop. -/
theorem controlByte_eq_error_iff {code : Code} {err : IoError} :
    controlByte code = .error err
      ↔ err = interrupted ∧ code = .char 'c' := by
  cases code with
  | char c =>
      rw [controlByte_char]
      by_cases hstop : c = 'c'
      · rw [if_pos hstop, hstop, and_iff_left rfl, Except.error.injEq,
          eq_comm]
      · rw [if_neg hstop]
        exact iff_of_false nofun fun h => hstop (Code.char.inj h.2)
  | enter | tab | backspace | escape | special _ =>
      exact iff_of_false nofun nofun

/-- The third letter is the only one with its byte, and the small one asks
to stop instead. -/
theorem controlByte_eq_three_iff {code : Code} :
    controlByte code = .ok (some 3) ↔ code = .char 'C' := by
  cases code with
  | char c =>
      constructor
      · intro h
        rw [controlByte_char] at h
        split at h
        · cases h
        rename_i hstop
        split at h
        · rename_i halpha
          have hbyte : c.toNat % 32 % 2 ^ 8 = 3 := congrArg BitVec.toNat
            (Option.some.inj (Except.ok.inj h))
          have hrange := toNat_of_isAlpha halpha
          have hthird : c.toNat = 67 ∨ c.toNat = 99 := by omega
          rcases hthird with hc | hc
          · exact congrArg Code.char (Char.toNat_inj.1 hc)
          · exact absurd (Char.toNat_inj.1 hc) hstop
        · cases h
      · intro h
        rw [h]
        rfl
  | enter | tab | backspace | escape | special _ =>
      exact iff_of_false nofun nofun

/-- Without Control, too, what comes of a key is ASCII. -/
theorem plainByte_lt {code : Code} {b : Byte}
    (h : plainByte code = some b) : b < 0x80 := by
  cases code with
  | char c =>
      by_cases hascii : c.toNat < 0x80
      · rw [plainByte, if_pos hascii] at h
        cases h
        rw [BitVec.lt_def, BitVec.toNat_ofNat]
        exact Nat.lt_of_le_of_lt (Nat.mod_le _ _) hascii
      · rw [plainByte, if_neg hascii] at h
        cases h
  | enter | tab | backspace | escape => cases h; decide
  | special _ => cases h

-- ================================================================ events

theorem byte_idle {e : Event} (h : e.phase ≠ .press) : e.byte = .ok none :=
  if_pos h

theorem byte_control {e : Event} (hpress : e.phase = .press)
    (hcontrol : e.modifiers.control) : e.byte = controlByte e.code := by
  rw [byte, if_neg (not_not_intro hpress), if_pos hcontrol]

theorem byte_plain {e : Event} (hpress : e.phase = .press)
    (hcontrol : ¬ e.modifiers.control) : e.byte = .ok (plainByte e.code) := by
  rw [byte, if_neg (not_not_intro hpress), if_neg hcontrol]

/-- A key that is held or let go of has no byte, and a byte is ASCII however
its key was typed. -/
theorem press_of_byte {e : Event} {b : Byte} (h : e.byte = .ok (some b)) :
    e.phase = .press ∧ b < 0x80 := by
  by_cases hpress : e.phase = .press
  · refine ⟨hpress, ?_⟩
    by_cases hcontrol : e.modifiers.control
    · rw [byte_control hpress hcontrol] at h
      exact controlByte_lt h
    · rw [byte_plain hpress hcontrol] at h
      exact plainByte_lt (Except.ok.inj h)
  · rw [byte_idle hpress] at h
    cases h

/-- A request to stop is a key going down, with Control, that is the small
letter and no other. -/
theorem byte_eq_error_iff {e : Event} {err : IoError} :
    e.byte = .error err ↔ err = interrupted ∧ e.phase = .press
      ∧ e.modifiers.control ∧ e.code = .char 'c' := by
  by_cases hpress : e.phase = .press
  · by_cases hcontrol : e.modifiers.control
    · rw [byte_control hpress hcontrol, controlByte_eq_error_iff]
      simp only [hpress, hcontrol, true_and]
    · rw [byte_plain hpress hcontrol]
      exact iff_of_false nofun fun h => hcontrol h.2.2.1
  · rw [byte_idle hpress]
    exact iff_of_false nofun fun h => hpress h.2.1

/-- With Control, one key has the byte that the request to stop would have,
and it is the capital letter. -/
theorem byte_eq_three_iff {e : Event} (hcontrol : e.modifiers.control) :
    e.byte = .ok (some 3) ↔ e.phase = .press ∧ e.code = .char 'C' := by
  by_cases hpress : e.phase = .press
  · rw [byte_control hpress hcontrol, controlByte_eq_three_iff]
    simp only [hpress, true_and]
  · rw [byte_idle hpress]
    exact iff_of_false nofun fun h => hpress h.1

/-- The two cases of a letter are one key, unless it is the key that asks
to stop. -/
theorem byte_toUpper_iff {e : Event} (hcontrol : e.modifiers.control)
    {c : Char} (hc : c.isLower) :
    byte { e with code := .char c.toUpper } = byte { e with code := .char c }
      ↔ ¬ (e.phase = .press ∧ c = 'c') := by
  by_cases hpress : e.phase = .press
  · have hpressed : ∀ code, byte { e with code } = controlByte code :=
      fun code => byte_control (e := { e with code }) hpress hcontrol
    have halpha : c.isAlpha := Bool.or_eq_true_iff.2 (.inr hc)
    obtain ⟨hupper, hcapital, hnumber⟩ := toUpper_letter hc
    rw [hpressed, hpressed, controlByte_letter hupper hcapital,
      letterByte, hnumber, ← letterByte]
    by_cases hstop : c = 'c'
    · rw [controlByte_char, if_pos hstop]
      exact iff_of_false nofun fun h => h ⟨hpress, hstop⟩
    · rw [controlByte_letter halpha hstop]
      exact iff_of_true rfl fun h => hstop h.2
  · have hidle : ∀ code, byte { e with code } = .ok none :=
      fun _ => byte_idle hpress
    rw [hidle, hidle]
    exact iff_of_true rfl fun h => hpress h.1

/-- What has a byte, what asks to stop, and where the case of a letter that
is typed with Control makes a difference. -/
theorem control_folds_case (e : Event) :
    (∀ b, e.byte = .ok (some b) → e.phase = .press ∧ b < 0x80)
      ∧ (∀ err, e.byte = .error err ↔ err = interrupted ∧ e.phase = .press
          ∧ e.modifiers.control ∧ e.code = .char 'c')
      ∧ (e.modifiers.control →
          (∀ c : Char, c.isLower →
            (byte { e with code := .char c.toUpper }
                = byte { e with code := .char c }
              ↔ ¬ (e.phase = .press ∧ c = 'c')))
          ∧ (e.byte = .ok (some 3)
              ↔ e.phase = .press ∧ e.code = .char 'C')) := by
  refine ⟨?_, ?_, ?_⟩
  · intro b h
    exact press_of_byte h
  · intro err
    exact byte_eq_error_iff
  · intro hcontrol
    refine ⟨?_, byte_eq_three_iff hcontrol⟩
    intro c hc
    exact byte_toUpper_iff hcontrol hc

/-- Control with a capital C, typed with Shift. -/
def capitalC : Event :=
  { code := .char 'C', modifiers := { shift := true, control := true } }

theorem control_folds_case_other_letter :
    capitalC.modifiers.control ∧ ('d').isLower
      ∧ byte { capitalC with code := .char ('d').toUpper }
          = byte { capitalC with code := .char 'd' } := by
  have hcontrol : capitalC.modifiers.control := rfl
  have hlower : ('d').isLower := rfl
  have hother : ¬ (capitalC.phase = .press ∧ 'd' = 'c') := by decide
  obtain ⟨-, -, hfolds⟩ := control_folds_case capitalC
  exact ⟨hcontrol, hlower, ((hfolds hcontrol).1 'd' hlower).2 hother⟩

/-- What asks to stop in one case is a character in the other. -/
theorem capitalC_delivered :
    ('c').isLower ∧ capitalC.modifiers.control
      ∧ capitalC = { capitalC with code := .char ('c').toUpper }
      ∧ byte capitalC = .ok (some 3)
      ∧ byte { capitalC with code := .char 'c' } = .error interrupted :=
  ⟨rfl, rfl, rfl, rfl, rfl⟩

end Lc3.Key.Event
