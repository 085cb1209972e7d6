/-
The table's numbers are the machine's bits. Each way in which the table
gets at a number (a field, a signed offset, a sum, the sign of a result)
has one lemma here that says which bit operation it is.
-/
import Lc3.Proofs.Table.Basic
import Lc3.Proofs.Machine.Action

namespace Lc3.Table

-- ================================================================= fields

/-- A field by division and remainder is the field by its bits. -/
theorem toNat_extract (w : Word) (place width : Nat) :
    (w.extractLsb' place width).toNat = field w place width := by
  rw [BitVec.extractLsb'_toNat, Nat.shiftRight_eq_div_pow]
  rfl

/-- The register that three bits name is these bits. -/
theorem ofNat_field (w : Word) (place : Nat) :
    regAt w place = w.extractLsb' place 3 := by
  rw [regAt, ← toNat_extract, BitVec.ofNat_toNat, BitVec.setWidth_eq]

theorem regAt_nine (w : Word) : regAt w 9 = Instr.topReg w :=
  ofNat_field w 9

theorem regAt_six (w : Word) : regAt w 6 = Instr.midReg w :=
  ofNat_field w 6

theorem regAt_zero (w : Word) : regAt w 0 = Reg.ofWord w := by
  rw [ofNat_field, Reg.ofWord]
  apply BitVec.eq_of_toNat_eq
  rw [toNat_extract, BitVec.toNat_setWidth, field, Nat.pow_zero,
    Nat.div_one]

theorem getLsbD_field (w : Word) (i : Nat) :
    w.getLsbD i = decide (field w i 1 = 1) :=
  Nat.testBit_eq_decide_div_mod_eq

theorem number_opcodeOf (w : Word) :
    (Instr.opcodeOf w).number = field w 12 4 := by
  rw [Instr.opcodeOf, Opcode.number_ofBits, toNat_extract]

-- ==================================================== numbers with a sign

/-- A number with a sign is the field with as much taken away as its highest
bit counts for, twice. -/
theorem signed_eq (w : Word) (n : Nat) :
    signed w n = (w.setWidth n).toInt := by
  have hfield : field w 0 n = (w.setWidth n).toNat := by
    rw [field, Nat.pow_zero, Nat.div_one, BitVec.toNat_setWidth]
  rw [signed, BitVec.toInt_eq_toNat_cond, hfield]
  push_cast
  rfl

/-- A number brought back below 65536 is the word of that number. -/
theorem wrap_eq (i : Int) : wrap i = BitVec.ofInt 16 i := by
  apply BitVec.eq_of_toNat_eq
  rw [wrap, BitVec.toNat_ofNat, BitVec.toNat_ofInt]
  have hlt := Int.emod_lt_of_pos i (show (0 : Int) < 65536 by decide)
  have hle := Int.emod_nonneg i (show (65536 : Int) ≠ 0 by decide)
  omega

theorem wrap_toNat (a : Word) : wrap a.toNat = a := by
  rw [wrap_eq, BitVec.ofInt_natCast, BitVec.ofNat_toNat,
    BitVec.setWidth_eq]

/-- Sums may be brought back term by term, and a sum of words wraps in doing
so. -/
theorem wrap_add (i j : Int) : wrap (i + j) = wrap i + wrap j := by
  rw [wrap_eq, wrap_eq, wrap_eq, BitVec.ofInt_add]

/-- An offset with a sign is the sign extension of its field. -/
theorem wrap_signed (w : Word) (n : Nat) :
    wrap (signed w n) = w.lowSigned n := by
  rw [wrap_eq, signed_eq]
  rfl

-- ================================================================ results

/-- The complement of a word is what is missing to the largest one. -/
theorem wrap_complement (a : Word) : wrap (65535 - a.toNat) = ~~~a := by
  have hlt := a.isLt
  have hnat : (65535 - a.toNat : Int) = (~~~a).toNat := by
    rw [BitVec.toNat_not]
    omega
  rw [hnat, wrap_toNat]

/-- Bit by bit, words stay below 65536. -/
theorem wrap_and (a b : Word) :
    wrap (a.toNat &&& b.toNat : Nat) = a &&& b := by
  rw [← BitVec.toNat_and, wrap_toNat]

/-- The three cases of a result by its number are the three by its highest
bit and by being zero. -/
theorem sign_eq (v : Word) : sign v = .ofWord v := by
  unfold sign Cond.ofWord
  rw [BitVec.msb_eq_decide]
  by_cases hzero : v = 0
  · rw [if_pos hzero, if_pos (by rw [hzero]; rfl)]
  · have hnat : v.toNat ≠ 0 := fun h => hzero (BitVec.eq_of_toNat_eq h)
    rw [if_neg hzero, if_neg hnat]
    by_cases hsmall : v.toNat < 32768
    · rw [if_pos hsmall, if_neg (by simpa using hsmall)]
    · rw [if_neg hsmall, if_pos (by simpa using hsmall)]

/-- A branch is taken on the conditions that its word names. -/
theorem taken_eq (w : Word) (cond : Option Cond) :
    taken w cond = cond.any
      (·.selectedBy (w.getLsbD 11) (w.getLsbD 10) (w.getLsbD 9)) := by
  rw [getLsbD_field, getLsbD_field, getLsbD_field]
  cases cond with
  | none => rfl
  | some c => cases c <;> rfl

end Lc3.Table
