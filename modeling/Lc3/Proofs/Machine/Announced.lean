/-
An instruction is announced by its listing, and the address in the listing
is the one that the instruction uses. The listing counts an offset from
the address of the instruction, execution counts it from the program
counter behind it. The two come to the same address, past the end of
memory as anywhere.

To use an address means different things (`Uses`). A branch that is taken
and a subroutine call go there, LEA leaves it in a register, and a load or
a store asks the bus for it before anything else. What is asked of the bus
a sentry sees, so nothing need be known of the devices.
-/
import Lc3.Proofs.Device.Sentry
import Lc3.Proofs.Machine.Ledger
import Lc3.Proofs.Text.Numeral

namespace Lc3

-- ========================================================= named addresses

/-- An address as it stands in a listing. -/
def addressText (a : Word) : String := "x" ++ Text.upperHex 4 a.toNat

/-- The text comes down to this address. -/
def Names (text : String) (a : Word) : Prop :=
  ∃ front, text = front ++ addressText a

/-- An address takes up five characters, an x and four digits. -/
theorem length_addressText (a : Word) :
    (addressText a).toList.length = 5 := by
  rw [addressText, String.toList_append, List.length_append,
    Text.length_upperHex]
  rfl

/-- A text does not name two addresses. -/
theorem names_unique {text : String} {a a' : Word} (h : Names text a)
    (h' : Names text a') : a = a' := by
  obtain ⟨front, rfl⟩ := h
  obtain ⟨front', heq⟩ := h'
  replace heq := congrArg String.toList heq
  rw [String.toList_append, String.toList_append] at heq
  have hlength : (addressText a).toList.length
      = (addressText a').toList.length := by
    rw [length_addressText, length_addressText]
  have htext := String.toList_inj.1 (List.append_inj' heq hlength).2
  have hnumber := Text.upperHex_inj a.isLt a'.isLt
    ((String.append_right_inj _).1 htext)
  exact BitVec.eq_of_toNat_eq hnumber

namespace Instr

/-- The distance from the program counter that the instruction has to
do with. -/
def distance : Instr → Option Word
  | br _ _ _ offset | ld _ offset | ldi _ offset | lea _ offset
  | st _ offset | sti _ offset | jsr offset => some offset
  | _ => none

/-- An instruction with a distance has it as its last operand. -/
theorem operands_of_distance {i : Instr} {offset : Word}
    (h : i.distance = some offset) (relative : Word → String) :
    ∃ texts, i.operands relative = texts ++ [relative offset] := by
  cases i with
  | br | jsr =>
      cases h
      exact ⟨[], rfl⟩
  | ld r _ | ldi r _ | lea r _ | st r _ | sti r _ =>
      cases h
      exact ⟨[r.name], rfl⟩
  | _ => cases h

/-- Then it stands at the end of the listing. -/
theorem listing_of_distance {i : Instr} {offset : Word}
    (h : i.distance = some offset) (relative : Word → String) :
    ∃ front, i.listing relative = front ++ relative offset := by
  obtain ⟨texts, htexts⟩ := operands_of_distance h relative
  unfold listing
  rw [htexts]
  cases texts with
  | nil =>
      refine ⟨i.mnemonic ++ "\t", ?_⟩
      show i.mnemonic ++ "\t" ++ ", ".intercalate [relative offset] = _
      rw [String.intercalate_singleton]
  | cons t ts =>
      refine ⟨i.mnemonic ++ "\t" ++ (", ".intercalate (t :: ts) ++ ", "), ?_⟩
      show i.mnemonic ++ "\t"
        ++ ", ".intercalate (t :: ts ++ [relative offset]) = _
      rw [String.intercalate_append_of_ne_nil (List.cons_ne_nil t ts)
        (List.cons_ne_nil _ []), String.intercalate_singleton]
      simp only [String.append_assoc]

/-- A listing comes down to the address behind the next one by the
distance. -/
theorem names_textAt {i : Instr} {offset : Word}
    (h : i.distance = some offset) (pc : Word) :
    Names (i.textAt pc) (pc + 1 + offset) :=
  listing_of_distance h (targetText pc)

/-- An instruction that has none reads the same everywhere. -/
theorem textAt_of_distance {i : Instr} (h : i.distance = none) (pc : Word) :
    i.textAt pc = i.text := by
  cases i with
  | br | jsr | ld | ldi | lea | st | sti => cases h
  | _ => rfl

end Instr

namespace Machine

variable {κ δ : Type} [Console κ] [Peripheral δ]

-- ============================================================== the visits

omit [Console κ] [Peripheral δ] in
/-- Telling that the machine runs on leaves it as the act did. -/
theorem after_proceed (p : Exec κ δ Unit) (m : Machine κ δ) :
    Console.after ((proceed p).run m) = Console.after (p.run m) :=
  after_map p (fun _ => Status.running) m

/-- An access that comes first, and what is made of its answer. -/
theorem visited_read_bind {α : Type} (a : Word)
    (f : Word → Exec κ (Sentry δ) α) (seen : List Visit)
    (m : Machine κ δ) :
    visited (Console.after ((read a >>= f).run (m.guarded seen)))
      = match (read a).run m with
        | .ok w m' => visited (Console.after
            ((f w).run (m'.guarded (seen ++ [.read a]))))
        | .error _ _ => seen ++ [.read a] := by
  rw [EStateM.run_bind, run_read_guarded]
  cases (read a).run m <;> rfl

/-- A write is one visit, whatever comes of it. -/
theorem visited_write (a w : Word) (seen : List Visit) (m : Machine κ δ) :
    visited (Console.after ((write a w).run (m.guarded seen)))
      = seen ++ [.write a w] := by
  rw [run_write_guarded, after_mapState]
  rfl

/-- The visits of an instruction are those of its action. -/
theorem visits_execute (w : Word) (m : Machine κ δ) :
    visits (execute w) m
      = visited (Console.after
          ((enact (m.counted w).core (Instr.decode w).action).run
            ((m.counted w).guarded []))) := by
  unfold visits
  rw [run_execute, run_perform]
  rfl

variable (c : Core) (m : Machine κ δ)

/-- A load asks for its address and for no other. -/
theorem visited_load (dr : Reg) (address : Core → Word) :
    visited (Console.after
        ((enact c (.load dr address)).run (m.guarded [])))
      = [.read (address c)] := by
  unfold enact
  rw [after_proceed, visited_read_bind]
  cases (read (address c)).run m <;> rfl

/-- A store gives its word to its address and asks for nothing. -/
theorem visited_store (sr : Reg) (address : Core → Word) :
    visited (Console.after
        ((enact c (.store sr address)).run (m.guarded [])))
      = [.write (address c) (c.reg sr)] := by
  unfold enact
  rw [after_proceed, visited_write]
  rfl

/-- What comes after the pointer depends on what it is. -/
theorem visited_loadVia (dr : Reg) (pointer : Core → Word) :
    ∃ rest, visited (Console.after
        ((enact c (.loadVia dr pointer)).run (m.guarded [])))
      = .read (pointer c) :: rest := by
  unfold enact
  rw [after_proceed, visited_read_bind]
  cases (read (pointer c)).run m with
  | error f m' => exact ⟨[], rfl⟩
  | ok a m' =>
      refine ⟨[.read a], ?_⟩
      dsimp only
      rw [visited_read_bind]
      cases (read a).run m' <;> rfl

/-- A store through a pointer asks for the pointer before anything else. -/
theorem visited_storeVia (sr : Reg) (pointer : Core → Word) :
    ∃ rest, visited (Console.after
        ((enact c (.storeVia sr pointer)).run (m.guarded [])))
      = .read (pointer c) :: rest := by
  unfold enact
  rw [after_proceed, visited_read_bind]
  cases (read (pointer c)).run m with
  | error f m' => exact ⟨[], rfl⟩
  | ok a m' =>
      refine ⟨[.write a (m'.core.reg sr)], ?_⟩
      dsimp only
      rw [EStateM.run_bind, run_getReg]
      exact visited_write a (m'.core.reg sr) [.read (pointer c)] m'

-- ================================================================= the uses

/-- What executing `w`, which is the instruction, does with the address
`x`. -/
def Uses (w : Word) (x : Word) (m : Machine κ δ) : Instr → Prop
  | .br n z p _ => m.core.cond.any (·.selectedBy n z p) →
      ∃ m', (execute w).run m = .ok .running m' ∧ m'.core.pc = x
  | .jsr _ => ∃ m', (execute w).run m = .ok .running m' ∧ m'.core.pc = x
  | .lea dr _ =>
      ∃ m', (execute w).run m = .ok .running m' ∧ m'.core.reg dr = x
  | .ld .. => visits (execute w) m = [.read x]
  | .st sr _ => visits (execute w) m = [.write x (m.core.reg sr)]
  | .ldi .. | .sti .. => ∃ rest, visits (execute w) m = .read x :: rest
  | _ => False

/-- An instruction with a distance uses the address at that distance. By
form: a branch or a call goes there, LEA has it, and a load or a store asks
the bus for it first. -/
theorem uses_of_distance {w offset : Word} {m : Machine κ δ}
    (h : (Instr.decode w).distance = some offset) :
    Uses w (m.core.pc + offset) m (Instr.decode w) := by
  have hvisits := visits_execute w m
  have hrun (m' : Machine κ δ) : (execute w).run m = .ok .running m'
      ↔ (enact (m.counted w).core (Instr.decode w).action).run
          (m.counted w) = .ok .running m' := by
    rw [run_execute, run_perform]
  cases hw : Instr.decode w with
  | br n z p o =>
      rw [hw] at h hrun
      cases h
      -- the condition at the start tells whether it is taken
      intro htaken
      have htarget : (m.counted w).core.branch n z p offset
          = some (m.core.pc + offset) := if_pos htaken
      have hjump : (enact (m.counted w).core
          (Instr.br n z p offset).action).run (m.counted w) = _ :=
        run_enact_jump_some htarget (m.counted w)
      exact ⟨_, (hrun _).2 hjump, rfl⟩
  | jsr o =>
      rw [hw] at h hrun
      cases h
      exact ⟨_, (hrun _).2 rfl, rfl⟩
  | lea dr o =>
      rw [hw] at h hrun
      cases h
      exact ⟨_, (hrun _).2 rfl, Bank.get_set_self m.core.regs dr _⟩
  | ld dr o =>
      rw [hw] at h hvisits
      cases h
      exact hvisits.trans (visited_load _ _ dr _)
  | st sr o =>
      rw [hw] at h hvisits
      cases h
      exact hvisits.trans (visited_store _ _ sr _)
  | ldi dr o =>
      rw [hw] at h hvisits
      cases h
      obtain ⟨rest, hrest⟩ := visited_loadVia (m.counted w).core
        (m.counted w) dr fun c => c.pc + offset
      exact ⟨rest, hvisits.trans hrest⟩
  | sti sr o =>
      rw [hw] at h hvisits
      cases h
      obtain ⟨rest, hrest⟩ := visited_storeVia (m.counted w).core
        (m.counted w) sr fun c => c.pc + offset
      exact ⟨rest, hvisits.trans hrest⟩
  -- no other form has a distance
  | _ =>
      rw [hw] at h
      cases h

-- ======================================================== the announcement

/-- What is said of the word `w` at the address `a` before the machine
executes it, and what it then does. -/
structure Announced (w a : Word) (m : Machine κ δ) : Prop where
  /-- Before anything else the instruction goes on record. -/
  noted : ∃ n : Machine κ δ,
    n.journal = m.journal.note (.executing a (Instr.decode w))
      ∧ (execute w).run m = (perform (Instr.decode w)).run n
  /-- It stays on record if no device meddles with the journal. -/
  kept : OrderlyPeripheral δ → ∃ rs : List Record,
    (Console.after ((execute w).run m)).journal
      = (.executing a (Instr.decode w) :: rs).foldl Journal.note m.journal
  /-- The record shows the listing of the instruction at its address. -/
  shown : ∃ front, (Record.executing a (Instr.decode w)).text
    = front ++ (Instr.decode w).textAt a
  plain : (Instr.decode w).distance = none →
    (Instr.decode w).textAt a = (Instr.decode w).text
  /-- And if there is an address in it, that is the one used. -/
  used : (Instr.decode w).distance ≠ none →
    ∃ x, (∀ y, Names ((Instr.decode w).textAt a) y ↔ y = x)
      ∧ Uses w x m (Instr.decode w)
  /-- The sentry that tells so has not been in the way. -/
  undisturbed :
    Agree Guards ((execute w).run m) ((execute w).run (m.guarded []))

/-- The announcement is on record before anything that the instruction
records itself. -/
theorem journal_execute [OrderlyPeripheral δ] (w : Word)
    (m : Machine κ δ) :
    ∃ rs : List Record, (Console.after ((execute w).run m)).journal
      = (.executing (m.core.pc - 1) (Instr.decode w) :: rs).foldl
          Journal.note m.journal := by
  have hread : Accounts toBoard (call .read : Exec κ δ Byte) :=
    accounts_call .read
  have haccount := conserved_accounted.enact (m.counted w).core
    (Instr.decode w).action (fun _ => accounts_setCond) (fun _ => hread)
    (m.counted w)
  obtain ⟨rs, hjournal, -, -⟩ := haccount
  refine ⟨rs, ?_⟩
  rw [run_execute, run_perform]
  exact hjournal

/-- Every instruction is announced as what it is: its listing is on record
before it is performed, and an address in it is the address that it goes
to, leaves in its register, or asks the bus for first. -/
theorem executed_as_announced (w : Word) {a : Word} {m : Machine κ δ}
    (hpc : m.core.pc = a + 1) : Announced w a m := by
  have ha : m.core.pc - 1 = a := by rw [hpc, BitVec.add_sub_cancel]
  have htext : (Record.executing a (Instr.decode w)).text
      = "DEBUG" ++ " " ++ ("PC: " ++ Record.wordText a ++ ": "
          ++ (Instr.decode w).textAt a) := rfl
  refine ⟨⟨m.counted w, ?_, run_execute w m⟩, ?_,
    ⟨"DEBUG" ++ " " ++ ("PC: " ++ Record.wordText a ++ ": "), ?_⟩,
    fun h => Instr.textAt_of_distance h a, ?_,
    refit_guarded.agree (twin_execute w) [] m⟩
  · rw [← ha]
    rfl
  · intro _
    rw [← ha]
    exact journal_execute w m
  · rw [htext]
    simp only [String.append_assoc]
  · intro h
    obtain ⟨offset, hoffset⟩ := Option.ne_none_iff_exists'.1 h
    -- the distance counts from the next instruction, as the text does
    have hnames := Instr.names_textAt hoffset a
    have huses := uses_of_distance (m := m) hoffset
    rw [hpc] at huses
    refine ⟨a + 1 + offset, fun y => ⟨fun hy => ?_, ?_⟩, huses⟩
    · exact names_unique hy hnames
    · rintro rfl
      exact hnames

/-- A machine that has just come round to the bottom of memory. -/
def cameRound : Machine Buffered Empty :=
  let m := Machine.new {}
  { m with toBoard := m.toBoard.setPc 0 }

/-- The last word of memory is a subroutine call, and calls itself. -/
theorem executed_as_announced_cameRound :
    cameRound.core.pc = 0xffff + 1
      ∧ (Instr.decode 0x4fff).textAt 0xffff = "JSR\txFFFF"
      ∧ ∃ m', (execute 0x4fff).run cameRound = .ok .running m'
        ∧ m'.core.pc = 0xffff := by
  have hpc : cameRound.core.pc = 0xffff + 1 := rfl
  have hcall : Instr.decode 0x4fff = .jsr 0xffff := by decide
  have htext : (Instr.decode 0x4fff).textAt 0xffff = "JSR\txFFFF" := by
    decide
  have hnamed : Names ((Instr.decode 0x4fff).textAt 0xffff) 0xffff :=
    ⟨"JSR\t", htext.trans (by decide)⟩
  obtain ⟨x, hx, huses⟩ :=
    (executed_as_announced 0x4fff hpc).used (by decide)
  rw [← (hx 0xffff).1 hnamed, hcall] at huses
  exact ⟨hpc, htext, huses⟩

end Machine

end Lc3
