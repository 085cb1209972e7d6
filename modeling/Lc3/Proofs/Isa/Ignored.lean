/-
Which words are the same instruction. Every field of a word is equal to
that of another where the two agree on its bits, so to decode alike is to
agree on the bits of all the fields. Those are the bits of the word but
for a few that its layout has no use for (`ignored`), and the opcode and
the bit that tells the forms of an instruction apart are never among them.
-/
import Lc3.Proofs.Isa.Encoding

namespace Lc3.Instr

-- ============================================================ single fields

/-- The words agree on so many bits from a place on. -/
abbrev Alike (w w' : Word) (place width : Nat) : Prop :=
  ∀ k, place ≤ k → k < place + width → w.getLsbD k = w'.getLsbD k

section Pairs

variable {w w' : Word}

/-- A field that is cut out is its bits. -/
theorem extract_eq_iff {place width : Nat} :
    w.extractLsb' place width = w'.extractLsb' place width
      ↔ Alike w w' place width := by
  constructor
  · intro h k hlow hhigh
    have hbit := congrArg (·.getLsbD (k - place)) h
    have hk : k - place < width := by omega
    have hplace : place + (k - place) = k := by omega
    simpa only [BitVec.getLsbD_extractLsb', hk, hplace, decide_true,
      Bool.true_and] using hbit
  · intro h
    apply BitVec.eq_of_getLsbD_eq
    intro k hk
    rw [BitVec.getLsbD_extractLsb', BitVec.getLsbD_extractLsb',
      h (place + k) (by omega) (by omega)]

/-- A field at the low end is its bits. -/
theorem setWidth_eq_iff {n : Nat} (hn : n ≤ 16) :
    w.setWidth n = w'.setWidth n ↔ Alike w w' 0 n := by
  rw [BitVec.setWidth_eq_extractLsb' hn, BitVec.setWidth_eq_extractLsb' hn]
  exact extract_eq_iff

/-- A signed field repeats its highest bit, and has no others. -/
theorem lowSigned_eq_iff {n : Nat} (hn : n ≤ 16) :
    w.lowSigned n = w'.lowSigned n ↔ Alike w w' 0 n := by
  constructor
  · intro h k _ hk
    rw [Nat.zero_add] at hk
    rw [← Word.getLsbD_lowSigned hn hk w, h, Word.getLsbD_lowSigned hn hk]
  · intro h
    exact Word.lowSigned_congr fun k hk => h k (by omega) (by omega)

/-- Every four bits are an opcode of their own. -/
theorem opcodeOf_eq_iff :
    opcodeOf w = opcodeOf w' ↔ Alike w w' 12 4 := by
  rw [← extract_eq_iff]
  constructor
  · intro h
    rw [← Opcode.bits_ofBits (w.extractLsb' 12 4),
      ← Opcode.bits_ofBits (w'.extractLsb' 12 4)]
    exact congrArg Opcode.bits h
  · exact congrArg Opcode.ofBits

/-- Two forms that a bit tells apart. -/
theorem form_eq_iff {α β γ : Type} {f : α → γ} {g : β → γ}
    (hf : Function.Injective f) (hg : Function.Injective g)
    (hne : ∀ x y, f x ≠ g y) {b b' : Bool} {x x' : α} {y y' : β} :
    (if b then f x else g y) = (if b' then f x' else g y')
      ↔ b = b' ∧ if b then x = x' else y = y' := by
  cases b with
  | true =>
      cases b' with
      | true => simpa using ⟨fun h => hf h, congrArg f⟩
      | false => simpa using hne x y'
  | false =>
      cases b' with
      | true => simpa using (hne x' y).symm
      | false => simpa using ⟨fun h => hg h, congrArg g⟩

/-- Of the low six bits, an immediate uses all and a register the lowest
three and the one that says so. -/
theorem operandOf_eq_iff :
    operandOf w = operandOf w' ↔
      w.getLsbD 5 = w'.getLsbD 5
        ∧ if w.getLsbD 5 then Alike w w' 0 5 else Alike w w' 0 3 := by
  unfold operandOf
  rw [form_eq_iff (fun _ _ => Operand.imm.inj) (fun _ _ => Operand.reg.inj)
    nofun, lowSigned_eq_iff (by decide), Reg.ofWord, Reg.ofWord,
    setWidth_eq_iff (by decide)]

/-- A subroutine call uses its long offset or its register, as one bit
says. -/
theorem call_eq_iff :
    (if w.getLsbD 11 then jsr (w.lowSigned 11) else jsrr (midReg w))
        = (if w'.getLsbD 11 then jsr (w'.lowSigned 11)
            else jsrr (midReg w')) ↔
      w.getLsbD 11 = w'.getLsbD 11
        ∧ if w.getLsbD 11 then Alike w w' 0 11 else Alike w w' 6 3 := by
  rw [form_eq_iff (fun _ _ => jsr.inj) (fun _ _ => jsrr.inj) nofun,
    lowSigned_eq_iff (by decide), midReg, midReg, extract_eq_iff]

end Pairs

-- ============================================================= whole words

/-- The places of the bits that the layout of the word has no use for. -/
def ignored (w : Word) : List Nat :=
  match opcodeOf w with
  | .add | .and => if w.getLsbD 5 then [] else .range' 3 2
  | .not => .range' 0 6
  | .jmp => .range' 0 6 ++ .range' 9 3
  | .jsr => if w.getLsbD 11 then [] else .range' 0 6 ++ .range' 9 2
  | .trap => .range' 8 4
  | .rti | .res => .range' 0 12
  | _ => []

/-- Words decode alike if their opcodes agree and all bits that their layout
has a use for. By opcode, both sides are brought down to statements about
single bits; where an instruction has two forms, the bit between them
decides which bits those are. -/
theorem decode_eq_iff {w w' : Word} :
    decode w = decode w' ↔ opcodeOf w = opcodeOf w'
      ∧ ∀ k < 16, k ∉ ignored w → w.getLsbD k = w'.getLsbD k := by
  by_cases hop : opcodeOf w = opcodeOf w'
  · have hbits := opcodeOf_eq_iff.1 hop
    rw [and_iff_right hop]
    unfold decode ignored
    rw [← hop]
    -- once the fields are down to bits, both sides are about the same places
    cases opcodeOf w with
    | br =>
        simp only [br.injEq, lowSigned_eq_iff (n := 9) (by decide)]
        grind
    | ld | ldi | lea | st | sti =>
        simp only [ld.injEq, ldi.injEq, lea.injEq, st.injEq, sti.injEq,
          topReg, extract_eq_iff, lowSigned_eq_iff (n := 9) (by decide)]
        grind
    | ldr | str =>
        simp only [ldr.injEq, str.injEq, topReg, midReg, extract_eq_iff,
          lowSigned_eq_iff (n := 6) (by decide)]
        grind
    | add | and =>
        simp only [add.injEq, and.injEq, topReg, midReg, extract_eq_iff,
          operandOf_eq_iff]
        grind
    | not =>
        simp only [not.injEq, topReg, midReg, extract_eq_iff]
        grind
    | jmp =>
        simp only [jmp.injEq, midReg, extract_eq_iff]
        grind
    | jsr =>
        rw [call_eq_iff]
        grind
    | trap =>
        simp only [trap.injEq, Word.low,
          setWidth_eq_iff (n := 8) (by decide)]
        grind
    | rti | res => grind
  · have hne : decode w ≠ decode w' := by
      intro h
      apply hop
      rw [← opcode_decode, ← opcode_decode, h]
    exact iff_of_false hne fun h => hop h.1

/-- In a word of ADD with a register, two bits are not looked at. -/
example : decode 0x1058 = decode 0x1040 := by decide

/-- What decoding comes to, and what it makes no difference between. -/
theorem decode_recognises :
    (∀ i : Instr, (∃ w, decode w = i) ↔ i.Encodable)
      ∧ (∀ w w' : Word, decode w = decode w' ↔
          opcodeOf w = opcodeOf w'
            ∧ ∀ k < 16, k ∉ ignored w → w.getLsbD k = w'.getLsbD k)
      ∧ ∀ w : Word, (decode w).opcode = opcodeOf w :=
  ⟨decode_reaches_iff, fun _ _ => decode_eq_iff, opcode_decode⟩

end Lc3.Instr
