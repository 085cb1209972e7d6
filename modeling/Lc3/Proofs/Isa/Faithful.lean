/-
A listing tells which instruction it is the listing of. There is no tab in
a mnemonic and no comma in an operand, so tab and commas are where the
layout has put them, and from the text one gets back its mnemonic and its
operands (`listing_parts`).

These make the instruction (`eq_of_parts`). The mnemonic gives the opcode,
and of a branch its conditions; the operands are registers and numerals,
which are all different. Some mnemonics begin as others do, and some
instructions share the shape of their operands, but never do two of them
share both.

How a distance from the program counter is written is left open. It may be
any way that tells distances apart and makes do without commas, and the
two listings are two such ways.
-/
import Lc3.Isa.Listing
import Lc3.Proofs.Text.Numeral

namespace Lc3

-- ============================================================== separators

/-- What stands before the first of the separators, and what behind it. -/
theorem cut_inj {c : Char} {front front' rest rest' : List Char}
    (h : c ∉ front) (h' : c ∉ front')
    (heq : front ++ c :: rest = front' ++ c :: rest') :
    front = front' ∧ rest = rest' := by
  induction front generalizing front' with
  | nil =>
      cases front' with
      | nil => exact ⟨rfl, (List.cons.inj heq).2⟩
      | cons x front' =>
          obtain ⟨rfl, -⟩ := List.cons.inj heq
          exact absurd (List.mem_cons_self ..) h'
  | cons x front ih =>
      cases front' with
      | nil =>
          obtain ⟨rfl, -⟩ := List.cons.inj heq
          exact absurd (List.mem_cons_self ..) h
      | cons x' front' =>
          obtain ⟨rfl, hrest⟩ := List.cons.inj heq
          rw [List.mem_cons, not_or] at h h'
          obtain ⟨rfl, htail⟩ := ih h.2 h'.2 hrest
          exact ⟨rfl, htail⟩

/-- A text that can stand in a list of texts. -/
def Unbroken (text : String) : Prop := ',' ∉ text.toList

instance (text : String) : Decidable (Unbroken text) :=
  inferInstanceAs (Decidable (',' ∉ text.toList))

namespace Unbroken

/-- Texts without a comma make one without. -/
theorem append {s t : String} (hs : Unbroken s) (ht : Unbroken t) :
    Unbroken (s ++ t) := by
  unfold Unbroken at *
  rw [String.toList_append, List.mem_append]
  exact fun h => h.elim hs ht

theorem decimal (n : Nat) : Unbroken (Text.decimal n) :=
  fun h => absurd (Text.isDigit_of_mem_decimal h) (by decide)

/-- A signed number is made of digits and a sign, none of which is a
comma. -/
theorem signedDecimal (i : Int) : Unbroken (Text.signedDecimal i) := by
  intro h
  rcases Text.mem_signedDecimal h with h | h
  · exact absurd h (by decide)
  · exact absurd h (by decide)

theorem upperHex (width n : Nat) : Unbroken (Text.upperHex width n) :=
  fun h => absurd (Text.isAlphanum_of_mem_upperHex h) (by decide)

end Unbroken

/-- The first text of several ends at the first comma. -/
theorem toList_joined (t u : String) (ts : List String) :
    (", ".intercalate (t :: u :: ts)).toList
      = t.toList ++ ',' :: ' ' :: (", ".intercalate (u :: ts)).toList := by
  rw [String.intercalate_cons_cons, String.toList_append,
    String.toList_append, List.append_assoc]
  rfl

/-- A single text is not several. -/
theorem ne_joined {t : String} (ht : Unbroken t) (t' u : String)
    (ts : List String) : t ≠ ", ".intercalate (t' :: u :: ts) := by
  rintro rfl
  apply ht
  rw [toList_joined]
  simp

/-- A list of texts without commas can be had back from the line it makes.
The induction cuts off the text before the first comma. -/
theorem joined_inj {t t' : String} {ts ts' : List String}
    (h : ∀ u ∈ t :: ts, Unbroken u) (h' : ∀ u ∈ t' :: ts', Unbroken u)
    (heq : ", ".intercalate (t :: ts) = ", ".intercalate (t' :: ts')) :
    t :: ts = t' :: ts' := by
  have ht : Unbroken t := h t (List.mem_cons_self ..)
  have ht' : Unbroken t' := h' t' (List.mem_cons_self ..)
  induction ts generalizing t t' ts' with
  | nil =>
      rw [String.intercalate_singleton] at heq
      cases ts' with
      | nil =>
          rw [String.intercalate_singleton] at heq
          rw [heq]
      | cons u' ts' => exact absurd heq (ne_joined ht t' u' ts')
  | cons u ts ih =>
      cases ts' with
      | nil =>
          rw [String.intercalate_singleton] at heq
          exact absurd heq.symm (ne_joined ht' t u ts)
      | cons u' ts' =>
          rw [List.forall_mem_cons] at h h'
          replace heq := congrArg String.toList heq
          rw [toList_joined, toList_joined] at heq
          -- no part has a separator in it, so both are cut at the same place
          obtain ⟨hfirst, hrest⟩ := cut_inj ht ht' heq
          have hrest' := String.toList_inj.1 (List.cons.inj hrest).2
          rw [String.toList_inj.1 hfirst,
            ih h.2 h'.2 hrest' (h.2 u (List.mem_cons_self ..))
              (h'.2 u' (List.mem_cons_self ..))]

namespace Instr

-- ============================================================ the mnemonic

/-- The opcodes, by all the mnemonics that there are for them. -/
def mnemonics : List (String × Opcode) :=
  [("BR", .br), ("BRn", .br), ("BRz", .br), ("BRp", .br), ("BRnz", .br),
    ("BRnp", .br), ("BRzp", .br), ("BRnzp", .br), ("RET", .jmp),
    ("JSRR", .jsr)] ++ Opcode.all.map fun op => (op.name, op)

/-- Every mnemonic that an instruction can have is in the list, with its
opcode. -/
theorem lookup_mnemonic (i : Instr) :
    mnemonics.lookup i.mnemonic = some i.opcode := by
  cases i with
  | br n z p offset =>
      have hbranch : ∀ n z p,
          mnemonics.lookup (br n z p 0).mnemonic = some .br := by
        decide
      exact hbranch n z p
  | jmp base =>
      unfold mnemonic
      by_cases h : base = linkReg
      · simp only [if_pos h]
        rfl
      · simp only [if_neg h]
        rfl
  | _ => rfl

/-- The list has each mnemonic once, so it tells the opcode. -/
theorem opcode_of_mnemonic {i j : Instr} (h : i.mnemonic = j.mnemonic) :
    i.opcode = j.opcode := by
  have hsome : some i.opcode = some j.opcode := by
    rw [← lookup_mnemonic, ← lookup_mnemonic, h]
  exact Option.some.inj hsome

/-- The tab behind a mnemonic is the first in the line. -/
theorem tab_not_mem_mnemonic (i : Instr) : '\t' ∉ i.mnemonic.toList := by
  have hnone : ∀ entry ∈ mnemonics, '\t' ∉ entry.1.toList := by decide
  obtain ⟨front, rest, heq, -⟩ :=
    List.lookup_eq_some_iff.1 (lookup_mnemonic i)
  refine hnone (i.mnemonic, i.opcode) ?_
  rw [heq]
  exact List.mem_append_right _ (List.mem_cons_self ..)

/-- A branch is named for its conditions. -/
theorem conditions_of_mnemonic {n z p n' z' p' : Bool}
    {offset offset' : Word}
    (h : (br n z p offset).mnemonic = (br n' z' p' offset').mnemonic) :
    n = n' ∧ z = z' ∧ p = p' := by
  have hbranches : ∀ n z p n' z' p',
      (br n z p 0).mnemonic = (br n' z' p' 0).mnemonic →
        n = n' ∧ z = z' ∧ p = p' := by
    decide
  exact hbranches n z p n' z' p' h

-- ========================================================== the two parts

theorem unbroken_name (r : Reg) : Unbroken r.name :=
  .append (by decide) (.decimal _)

theorem unbroken_offsetText (offset : Word) :
    Unbroken (offsetText offset) :=
  .append (by decide) (.signedDecimal _)

theorem unbroken_targetText (pc offset : Word) :
    Unbroken (targetText pc offset) :=
  .append (by decide) (.upperHex 4 _)

/-- An operand is a register or a number, and there is no comma in either.
-/
theorem unbroken_operand (operand : Operand) : Unbroken operand.text := by
  cases operand with
  | reg r => exact unbroken_name r
  | imm w => exact unbroken_offsetText w

variable {relative : Word → String}

/-- No operand of any instruction has a comma in it, if no distance is
written with one. -/
theorem unbroken_operands (h : ∀ w, Unbroken (relative w)) (i : Instr) :
    ∀ t ∈ i.operands relative, Unbroken t := by
  have hvector (v : Byte) : Unbroken ("x" ++ Text.upperHex 2 v.toNat) :=
    .append (by decide) (.upperHex 2 _)
  cases i with
  | jmp base =>
      by_cases hret : base = linkReg <;>
        simp [operands, hret, unbroken_name]
  | _ =>
      simp [operands, h, hvector, unbroken_name, unbroken_operand,
        unbroken_offsetText]

theorem listing_bare {i : Instr} (h : i.operands relative = []) :
    i.listing relative = i.mnemonic := by
  unfold listing
  rw [h]

/-- With operands, a tab comes behind the mnemonic, and then the list. -/
theorem toList_listing {i : Instr} {t : String} {ts : List String}
    (h : i.operands relative = t :: ts) :
    (i.listing relative).toList
      = i.mnemonic.toList ++ '\t' :: (", ".intercalate (t :: ts)).toList := by
  unfold listing
  rw [h]
  show (i.mnemonic ++ "\t" ++ ", ".intercalate (t :: ts)).toList = _
  rw [String.toList_append, String.toList_append, List.append_assoc]
  rfl

/-- Nothing to say after the mnemonic is not the same as something. -/
theorem listing_bare_ne {i j : Instr} {t : String} {ts : List String}
    (hi : i.operands relative = []) (hj : j.operands relative = t :: ts) :
    i.listing relative ≠ j.listing relative := by
  intro heq
  apply tab_not_mem_mnemonic i
  rw [← listing_bare hi, heq, toList_listing hj]
  simp

/-- A listing falls into its mnemonic and its operands in one way only: at
the first tab, and at the commas behind it. -/
theorem listing_parts (h : ∀ w, Unbroken (relative w)) {i j : Instr}
    (heq : i.listing relative = j.listing relative) :
    i.mnemonic = j.mnemonic
      ∧ i.operands relative = j.operands relative := by
  cases hi : i.operands relative with
  | nil =>
      cases hj : j.operands relative with
      | nil => exact ⟨listing_bare hi ▸ listing_bare hj ▸ heq, rfl⟩
      | cons t ts => exact absurd heq (listing_bare_ne hi hj)
  | cons t ts =>
      cases hj : j.operands relative with
      | nil => exact absurd heq.symm (listing_bare_ne hj hi)
      | cons t' ts' =>
          replace heq := congrArg String.toList heq
          rw [toList_listing hi, toList_listing hj] at heq
          obtain ⟨hmnemonic, hjoined⟩ := cut_inj (tab_not_mem_mnemonic i)
            (tab_not_mem_mnemonic j) heq
          refine ⟨String.toList_inj.1 hmnemonic, joined_inj ?_ ?_ ?_⟩
          · exact hi ▸ unbroken_operands h i
          · exact hj ▸ unbroken_operands h j
          · exact String.toList_inj.1 hjoined

-- ============================================================ the operands

/-- Registers are told apart by their digit. -/
theorem name_inj {r r' : Reg} : r.name = r'.name ↔ r = r' := by
  constructor
  · intro h
    have hnumber := Text.decimal_injective ((String.append_right_inj _).1 h)
    exact BitVec.eq_of_toNat_eq hnumber
  · exact congrArg Reg.name

/-- Different offsets are written differently, since a word is determined by
its signed value. -/
theorem offsetText_inj {w w' : Word} :
    offsetText w = offsetText w' ↔ w = w' := by
  constructor
  · intro h
    have hvalue :=
      Text.signedDecimal_injective ((String.append_right_inj _).1 h)
    exact BitVec.eq_of_toInt_eq hvalue
  · exact congrArg offsetText

/-- Seen from one place, different distances lead to different addresses. -/
theorem targetText_injective (pc : Word) :
    Function.Injective (targetText pc) := by
  intro w w' h
  have htarget := Text.upperHex_inj (BitVec.isLt _) (BitVec.isLt _)
    ((String.append_right_inj _).1 h)
  exact (BitVec.add_right_inj (pc + 1)).1 (BitVec.eq_of_toNat_eq htarget)

/-- A vector is written with both of its digits. -/
theorem vectorText_inj {v v' : Byte}
    (h : "x" ++ Text.upperHex 2 v.toNat = "x" ++ Text.upperHex 2 v'.toNat) :
    v = v' := by
  have hnumber := Text.upperHex_inj (BitVec.isLt v) (BitVec.isLt v')
    ((String.append_right_inj _).1 h)
  exact BitVec.eq_of_toNat_eq hnumber

/-- A register does not look like a number. -/
theorem name_ne_offsetText (r : Reg) (w : Word) :
    r.name ≠ offsetText w := by
  intro h
  have hfirst := congrArg (fun s => s.toList.head?) h
  simp [Reg.name, offsetText, String.toList_append] at hfirst

/-- Operands of one kind are told apart by what they are, and those of
different kinds by how they begin. -/
theorem operandText_inj {operand operand' : Operand} :
    operand.text = operand'.text ↔ operand = operand' := by
  constructor
  · intro h
    cases operand with
    | reg r =>
        cases operand' with
        | reg r' => rw [name_inj.1 h]
        | imm w' => exact absurd h (name_ne_offsetText r w')
    | imm w =>
        cases operand' with
        | reg r' => exact absurd h.symm (name_ne_offsetText r' w)
        | imm w' => rw [offsetText_inj.1 h]
  · exact congrArg Operand.text

-- ============================================================ all together

/-- Two instructions with the same mnemonic and the same operands are
one. -/
theorem eq_of_parts (hrelative : Function.Injective relative) {i j : Instr}
    (hmnemonic : i.mnemonic = j.mnemonic)
    (hoperands : i.operands relative = j.operands relative) : i = j := by
  have hop := opcode_of_mnemonic hmnemonic
  have hdistance (w w' : Word) : relative w = relative w' ↔ w = w' :=
    ⟨fun h => hrelative h, congrArg relative⟩
  -- with the opcode given, the other instruction is of the same kind; only
  -- JMP and JSR come in two forms that this leaves open
  cases i with
  | br n z p offset =>
      cases j <;> cases hop
      obtain ⟨rfl, rfl, rfl⟩ := conditions_of_mnemonic hmnemonic
      rw [hrelative (List.cons.inj hoperands).1]
  | jmp base =>
      cases j <;> cases hop
      rename_i base'
      by_cases hret : base = linkReg
      · by_cases hret' : base' = linkReg
        · rw [hret, hret']
        · simp [operands, hret, hret'] at hoperands
      · by_cases hret' : base' = linkReg
        · simp [operands, hret, hret'] at hoperands
        · simpa [operands, hret, hret', name_inj] using hoperands
  | jsr offset =>
      cases j <;> cases hop
      · rw [hrelative (List.cons.inj hoperands).1]
      · exact absurd (show "JSR" = "JSRR" from hmnemonic) (by decide)
  | jsrr base =>
      cases j <;> cases hop
      · exact absurd (show "JSRR" = "JSR" from hmnemonic) (by decide)
      · rw [name_inj.1 (List.cons.inj hoperands).1]
  | trap vector =>
      cases j <;> cases hop
      rw [vectorText_inj (List.cons.inj hoperands).1]
  | rti | res =>
      cases j <;> cases hop
      rfl
  | _ =>
      cases j <;> cases hop
      simpa [operands, hdistance, name_inj, offsetText_inj,
        operandText_inj] using hoperands

/-- A listing is that of one instruction, however it writes distances, if
it writes them without commas and all of them differently. -/
theorem listing_injective (hunbroken : ∀ w, Unbroken (relative w))
    (hrelative : Function.Injective relative) :
    Function.Injective (listing relative) := by
  intro i j h
  obtain ⟨hmnemonic, hoperands⟩ := listing_parts hunbroken h
  exact eq_of_parts hrelative hmnemonic hoperands

/-- So both listings are faithful, the one with distances and, wherever
the instruction stands, the one with addresses. -/
theorem listings_faithful :
    Function.Injective text ∧ ∀ pc, Function.Injective (textAt pc) :=
  ⟨listing_injective unbroken_offsetText fun _ _ => offsetText_inj.1,
    fun pc =>
      listing_injective (unbroken_targetText pc) (targetText_injective pc)⟩

end Instr

end Lc3
