/-
Which instructions there are. Decoding reads an instruction off the bits of
a word, and `encode` puts a word together that it could be read off from
(`decode_encode`). That cannot be done for every instruction: an offset or
an immediate has to be within the reach of its field. Everything else about
an instruction is free, and so it is known what decoding comes to
(`decode_reaches_iff`).

It is all a matter of single bits. A word is laid out in three fields: the
opcode, a register or what stands in its place, and nine bits for the rest
(`pack`).
-/
import Lc3.Isa.Instr
import Mathlib.Algebra.Group.Int.Defs
import Mathlib.Algebra.Group.Nat.Defs

namespace Lc3

-- ================================================================= opcodes

namespace Opcode

def bits (op : Opcode) : BitVec 4 := BitVec.ofNat 4 op.number

theorem ofBits_bits (op : Opcode) : ofBits op.bits = op := by
  cases op <;> rfl

theorem bits_ofBits (b : BitVec 4) : (ofBits b).bits = b := by
  rw [bits, number_ofBits]
  exact BitVec.ofNat_toNat 4 b

end Opcode

-- =========================================================== signed fields

namespace Word

/-- Below its sign, a signed field is the bits of the word. -/
theorem getLsbD_lowSigned {n k : Nat} (hn : n ≤ 16) (hk : k < n)
    (w : Word) : (w.lowSigned n).getLsbD k = w.getLsbD k := by
  have hk' : k < 16 := Nat.lt_of_lt_of_le hk hn
  rw [lowSigned, BitVec.getLsbD_signExtend, BitVec.getLsbD_setWidth]
  simp [hk, hk']

/-- Read with its sign, a field is what is left of the word's number modulo
the size of the field, taken around zero. -/
theorem toInt_lowSigned {n : Nat} (hn : n ≤ 16) (w : Word) :
    (w.lowSigned n).toInt = w.toInt.bmod (2 ^ n) := by
  have hcut : w.setWidth n = w.signExtend n :=
    (BitVec.signExtend_eq_setWidth_of_le w hn).symm
  rw [lowSigned, BitVec.toInt_signExtend_of_le hn, hcut,
    BitVec.toInt_signExtend, Nat.min_eq_left hn]

/-- A signed field is made of nothing but its bits. -/
theorem lowSigned_congr {n : Nat} {w w' : Word}
    (h : ∀ k < n, w.getLsbD k = w'.getLsbD k) :
    w.lowSigned n = w'.lowSigned n := by
  have hcut : w.setWidth n = w'.setWidth n := by
    apply BitVec.eq_of_getLsbD_eq
    intro k hk
    rw [BitVec.getLsbD_setWidth, BitVec.getLsbD_setWidth, h k hk]
  rw [lowSigned, lowSigned, hcut]

theorem lowSigned_lowSigned {n : Nat} (hn : n ≤ 16) (w : Word) :
    (w.lowSigned n).lowSigned n = w.lowSigned n :=
  lowSigned_congr fun _ hk => getLsbD_lowSigned hn hk w

/-- The word, read with its sign, is not further below zero than `reach`,
and above zero not quite as far. -/
def Within (reach : Int) (w : Word) : Prop :=
  -reach ≤ w.toInt ∧ w.toInt < reach

/-- A word comes out of a signed field as it is, if it fits into it. -/
theorem lowSigned_eq_self_iff {n : Nat} (hn : n < 16) (w : Word) :
    w.lowSigned (n + 1) = w ↔ w.Within (2 ^ n) := by
  constructor
  · intro h
    rw [← h, lowSigned, Within, BitVec.toInt_signExtend_of_le hn]
    exact ⟨BitVec.le_toInt _, BitVec.toInt_lt⟩
  · rintro ⟨hlow, hhigh⟩
    apply BitVec.eq_of_toInt_eq
    rw [toInt_lowSigned hn]
    apply Int.bmod_eq_of_le
    · rw [Nat.pow_succ]
      push_cast
      omega
    · rw [Nat.pow_succ]
      push_cast
      omega

/-- A field reaches no further than its bits do. -/
theorem within_lowSigned {n : Nat} (hn : n < 16) (w : Word) :
    (w.lowSigned (n + 1)).Within (2 ^ n) :=
  (lowSigned_eq_self_iff hn _).1 (lowSigned_lowSigned hn w)

end Word

-- ================================================================== layout

namespace Operand

def bits : Operand → BitVec 6
  | reg r => 0#3 ++ r
  | imm w => 1#1 ++ w.setWidth 5

theorem getLsbD_bits_reg (r : Reg) {k : Nat} (hk : k < 3) :
    (reg r).bits.getLsbD k = r.getLsbD k := by
  rw [bits, BitVec.getLsbD_append, if_pos hk]

theorem getLsbD_bits_imm (w : Word) {k : Nat} (hk : k < 5) :
    (imm w).bits.getLsbD k = w.getLsbD k := by
  rw [bits, BitVec.getLsbD_append, if_pos hk, BitVec.getLsbD_setWidth]
  simp [hk]

theorem mode_bits_reg (r : Reg) : (reg r).bits.getLsbD 5 = false := by
  rw [bits, BitVec.getLsbD_append]
  rfl

theorem mode_bits_imm (w : Word) : (imm w).bits.getLsbD 5 = true := by
  rw [bits, BitVec.getLsbD_append]
  rfl

end Operand

namespace Instr

/-- A word, by the fields that most instructions have. -/
def pack (op : Opcode) (top : BitVec 3) (rest : BitVec 9) : Word :=
  op.bits ++ top ++ rest

section Pack

variable (op : Opcode) (top : BitVec 3) (rest : BitVec 9)

/-- The nine low bits of the word are the last field. -/
theorem getLsbD_pack_rest {k : Nat} (hk : k < 9) :
    (pack op top rest).getLsbD k = rest.getLsbD k := by
  rw [pack, BitVec.getLsbD_append, if_pos hk]

/-- Above them are the three of the middle field. -/
theorem getLsbD_pack_top {k : Nat} (hk : k < 3) :
    (pack op top rest).getLsbD (9 + k) = top.getLsbD k := by
  have hrest : ¬ 9 + k < 9 := by omega
  rw [pack, BitVec.getLsbD_append, if_neg hrest, Nat.add_sub_cancel_left,
    BitVec.getLsbD_append, if_pos hk]

/-- The four bits at the top are the opcode's. -/
theorem getLsbD_pack_op (k : Nat) :
    (pack op top rest).getLsbD (12 + k) = op.bits.getLsbD k := by
  have hrest : ¬ 12 + k < 9 := by omega
  have htop : ¬ 12 + k - 9 < 3 := by omega
  have hop : 12 + k - 9 - 3 = k := by omega
  rw [pack, BitVec.getLsbD_append, if_neg hrest, BitVec.getLsbD_append,
    if_neg htop, hop]

/-- The opcode is read off as it was put in. -/
theorem opcodeOf_pack : opcodeOf (pack op top rest) = op := by
  have hbits : (pack op top rest).extractLsb' 12 4 = op.bits := by
    apply BitVec.eq_of_getLsbD_eq
    intro k hk
    rw [BitVec.getLsbD_extractLsb', getLsbD_pack_op]
    simp [hk]
  rw [opcodeOf, hbits, Opcode.ofBits_bits]

/-- So is the register behind it. -/
theorem topReg_pack : topReg (pack op top rest) = top := by
  apply BitVec.eq_of_getLsbD_eq
  intro k hk
  rw [topReg, BitVec.getLsbD_extractLsb', getLsbD_pack_top _ _ _ hk]
  simp [hk]

variable (mid : Reg)

/-- Where the last field begins with a register, six bits are left below
it. -/
theorem getLsbD_pack_low (low : BitVec 6) {k : Nat} (hk : k < 6) :
    (pack op top (mid ++ low)).getLsbD k = low.getLsbD k := by
  have hrest : k < 9 := by omega
  rw [getLsbD_pack_rest _ _ _ hrest, BitVec.getLsbD_append, if_pos hk]

/-- The register in the middle is read off as it was put in, whatever is
below it. -/
theorem midReg_pack (low : BitVec 6) :
    midReg (pack op top (mid ++ low)) = mid := by
  apply BitVec.eq_of_getLsbD_eq
  intro k hk
  have hrest : 6 + k < 9 := by omega
  have hlow : ¬ 6 + k < 6 := by omega
  rw [midReg, BitVec.getLsbD_extractLsb', getLsbD_pack_rest _ _ _ hrest,
    BitVec.getLsbD_append, if_neg hlow, Nat.add_sub_cancel_left]
  simp [hk]

/-- An offset of nine bits is read off as far as it fits. -/
theorem lowSigned_pack (offset : Word) :
    (pack op top (offset.setWidth 9)).lowSigned 9 = offset.lowSigned 9 := by
  refine Word.lowSigned_congr fun k hk => ?_
  rw [getLsbD_pack_rest _ _ _ hk, BitVec.getLsbD_setWidth]
  simp [hk]

/-- An offset of six bits is read off as far as it fits. -/
theorem lowSigned_pack_mid (offset : Word) :
    (pack op top (mid ++ offset.setWidth 6)).lowSigned 6
      = offset.lowSigned 6 := by
  refine Word.lowSigned_congr fun k hk => ?_
  rw [getLsbD_pack_low _ _ _ _ hk, BitVec.getLsbD_setWidth]
  simp [hk]

/-- An operand comes back, if it is none that has been cut. -/
theorem operandOf_pack {src : Operand}
    (h : ∀ w, src = .imm w → w.lowSigned 5 = w) :
    operandOf (pack op top (mid ++ src.bits)) = src := by
  unfold operandOf
  rw [getLsbD_pack_low _ _ _ _ (by decide)]
  -- which of the two it is, the sixth bit from below tells
  cases src with
  | reg r =>
      have hreg : Reg.ofWord (pack op top (mid ++ (Operand.reg r).bits))
          = r := by
        apply BitVec.eq_of_getLsbD_eq
        intro k hk
        have hlow : k < 6 := by omega
        rw [Reg.ofWord, BitVec.getLsbD_setWidth,
          getLsbD_pack_low _ _ _ _ hlow, Operand.getLsbD_bits_reg r hk]
        simp [hk]
      rw [Operand.mode_bits_reg, if_neg nofun, hreg]
  | imm w =>
      have himm : (pack op top (mid ++ (Operand.imm w).bits)).lowSigned 5
          = w.lowSigned 5 := by
        refine Word.lowSigned_congr fun k hk => ?_
        have hlow : k < 6 := by omega
        rw [getLsbD_pack_low _ _ _ _ hlow, Operand.getLsbD_bits_imm w hk]
      rw [Operand.mode_bits_imm, if_pos rfl, himm, h w rfl]

end Pack

/-- The word for an instruction, zero in the bits that nobody needs. What
does not fit into its field is cut off. -/
def encode : Instr → Word
  | br n z p offset =>
      pack .br (BitVec.ofBool n ++ BitVec.ofBool z ++ BitVec.ofBool p)
        (offset.setWidth 9)
  | add dr sr src => pack .add dr (sr ++ src.bits)
  | .and dr sr src => pack .and dr (sr ++ src.bits)
  | .not dr sr => pack .not dr (sr ++ 0#6)
  | ld dr offset => pack .ld dr (offset.setWidth 9)
  | ldi dr offset => pack .ldi dr (offset.setWidth 9)
  | ldr dr base offset => pack .ldr dr (base ++ offset.setWidth 6)
  | lea dr offset => pack .lea dr (offset.setWidth 9)
  | st sr offset => pack .st sr (offset.setWidth 9)
  | sti sr offset => pack .sti sr (offset.setWidth 9)
  | str sr base offset => pack .str sr (base ++ offset.setWidth 6)
  | jmp base => pack .jmp 0 (base ++ 0#6)
  | jsr offset =>
      pack .jsr (1#1 ++ offset.extractLsb' 9 2) (offset.setWidth 9)
  | jsrr base => pack .jsr 0 (base ++ 0#6)
  | trap vector => pack .trap 0 (0#1 ++ vector)
  | rti => pack .rti 0 0
  | res => pack .res 0 0

-- ======================================================= which instructions

/-- The instructions that fit into a word. -/
def Encodable : Instr → Prop
  | br _ _ _ offset | ld _ offset | ldi _ offset | lea _ offset
  | st _ offset | sti _ offset => offset.Within 256
  | jsr offset => offset.Within 1024
  | ldr _ _ offset | str _ _ offset => offset.Within 32
  | add _ _ (.imm w) | .and _ _ (.imm w) => w.Within 16
  | _ => True

/-- An immediate fits if it is from -16 to 15. -/
theorem lowSigned_five (w : Word) : w.lowSigned 5 = w ↔ w.Within 16 :=
  Word.lowSigned_eq_self_iff (n := 4) (by decide) w

/-- An offset from a base register fits if it is from -32 to 31. -/
theorem lowSigned_six (w : Word) : w.lowSigned 6 = w ↔ w.Within 32 :=
  Word.lowSigned_eq_self_iff (n := 5) (by decide) w

/-- An offset from the program counter fits if it is from -256 to 255. -/
theorem lowSigned_nine (w : Word) : w.lowSigned 9 = w ↔ w.Within 256 :=
  Word.lowSigned_eq_self_iff (n := 8) (by decide) w

/-- The offset of a subroutine call fits if it is from -1024 to 1023. -/
theorem lowSigned_eleven (w : Word) :
    w.lowSigned 11 = w ↔ w.Within 1024 :=
  Word.lowSigned_eq_self_iff (n := 10) (by decide) w

/-- The three conditions of a branch stand in the order of their bits. -/
theorem getLsbD_conditions (n z p : Bool) :
    let bits := BitVec.ofBool n ++ BitVec.ofBool z ++ BitVec.ofBool p
    bits.getLsbD 2 = n ∧ bits.getLsbD 1 = z ∧ bits.getLsbD 0 = p := by
  cases n <;> cases z <;> cases p <;> decide

/-- The long offset of a subroutine call, which takes up two fields. -/
theorem lowSigned_encode_jsr (offset : Word) :
    (encode (jsr offset)).lowSigned 11 = offset.lowSigned 11 := by
  refine Word.lowSigned_congr fun k hk => ?_
  unfold encode
  by_cases hrest : k < 9
  · rw [getLsbD_pack_rest _ _ _ hrest, BitVec.getLsbD_setWidth]
    simp [hrest]
  · obtain ⟨j, rfl⟩ := Nat.exists_eq_add_of_le (Nat.le_of_not_lt hrest)
    have htop : j < 3 := by omega
    have hlong : j < 2 := by omega
    rw [getLsbD_pack_top _ _ _ htop, BitVec.getLsbD_append, if_pos hlong,
      BitVec.getLsbD_extractLsb']
    simp [hlong]

/-- The low byte of a trap is its vector. -/
theorem low_encode_trap (vector : Byte) :
    (encode (trap vector)).low = vector := by
  apply BitVec.eq_of_getLsbD_eq
  intro k hk
  have hrest : k < 9 := by omega
  rw [Word.low, BitVec.getLsbD_setWidth, encode,
    getLsbD_pack_rest _ _ _ hrest, BitVec.getLsbD_append, if_pos hk]
  simp [hk]

/-- Nothing gets lost of an instruction that fits. -/
theorem decode_encode {i : Instr} (h : i.Encodable) :
    decode (encode i) = i := by
  have hopcode : opcodeOf (encode i) = i.opcode := by
    cases i <;> exact opcodeOf_pack _ _ _
  unfold decode
  rw [hopcode]
  -- instructions of one layout are one case: their fields are read off alike
  cases i with
  | br n z p offset =>
      have htop {k : Nat} (hk : k < 3) :
          (encode (br n z p offset)).getLsbD (9 + k) = _ :=
        getLsbD_pack_top .br _ _ hk
      obtain ⟨hn, hz, hp⟩ := getLsbD_conditions n z p
      have h11 := (htop (show 2 < 3 by decide)).trans hn
      have h10 := (htop (show 1 < 3 by decide)).trans hz
      have h9 := (htop (show 0 < 3 by decide)).trans hp
      simp only [opcode, h11, h10, h9]
      simp only [encode, lowSigned_pack, (lowSigned_nine offset).2 h]
  | ld r offset | ldi r offset | lea r offset | st r offset
  | sti r offset =>
      simp only [opcode, encode, topReg_pack, lowSigned_pack,
        (lowSigned_nine offset).2 h]
  | ldr r base offset | str r base offset =>
      simp only [opcode, encode, topReg_pack, midReg_pack,
        lowSigned_pack_mid, (lowSigned_six offset).2 h]
  | add r sr src | and r sr src =>
      have hsrc : ∀ w, src = .imm w → w.lowSigned 5 = w := by
        rintro w rfl
        exact (lowSigned_five w).2 h
      simp only [opcode, encode, topReg_pack, midReg_pack,
        operandOf_pack _ _ _ hsrc]
  | not r sr => simp only [opcode, encode, topReg_pack, midReg_pack]
  | jmp base => simp only [opcode, encode, midReg_pack]
  | jsr offset =>
      have hmode : (encode (jsr offset)).getLsbD 11 = true := by
        refine (getLsbD_pack_top _ _ _ (show 2 < 3 by decide)).trans ?_
        rw [BitVec.getLsbD_append]
        rfl
      simp only [opcode, hmode, if_true, lowSigned_encode_jsr,
        (lowSigned_eleven offset).2 h]
  | jsrr base =>
      have hmode : (encode (jsrr base)).getLsbD 11 = false :=
        getLsbD_pack_top _ _ _ (show 2 < 3 by decide)
      simp only [opcode, hmode, Bool.false_eq_true, if_false]
      simp only [encode, midReg_pack]
  | trap vector => simp only [opcode, low_encode_trap]
  | rti | res => rfl

/-- An immediate that was read is within the reach of its field. -/
theorem within_operandOf {w v : Word} (h : operandOf w = .imm v) :
    v.Within 16 := by
  unfold operandOf at h
  split at h
  · cases h
    exact Word.within_lowSigned (n := 4) (by decide) w
  · cases h

/-- What was read off a word has its offsets and immediates out of fields,
and so within their reach. -/
theorem encodable_decode (w : Word) : (decode w).Encodable := by
  unfold decode
  cases opcodeOf w with
  | br | ld | ldi | lea | st | sti =>
      exact Word.within_lowSigned (n := 8) (by decide) w
  | ldr | str => exact Word.within_lowSigned (n := 5) (by decide) w
  | add | and =>
      dsimp only
      cases hsrc : operandOf w with
      | reg r => trivial
      | imm v => exact within_operandOf hsrc
  | jsr =>
      dsimp only
      split
      · exact Word.within_lowSigned (n := 10) (by decide) w
      · trivial
  | _ => trivial

/-- Decoding comes to the instructions that fit, and to all of them. -/
theorem decode_reaches_iff (i : Instr) :
    (∃ w, decode w = i) ↔ i.Encodable := by
  constructor
  · rintro ⟨w, rfl⟩
    exact encodable_decode w
  · intro h
    exact ⟨encode i, decode_encode h⟩

end Instr

end Lc3
