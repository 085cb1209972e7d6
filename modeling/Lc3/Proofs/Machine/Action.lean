/-
What an instruction does, with the seventeen forms of instruction
brought down to nine actions. Forms that differ only in where an
operand comes from, or in what is computed from it, are one action: ADD,
AND, NOT and LEA compute a result, LD and LDR load from an address, BR
and JMP go somewhere or stay.

An action names the core that its operands are looked up in, and spells
out every access to memory and every change in its order. `run_perform`
says that performing an instruction is enacting its action; proofs
about all instructions go over the actions.
-/
import Lc3.Proofs.Outcome

namespace Lc3

-- ============================================================ the actions

inductive Action where
  /-- A result made of registers, program counter and immediates. -/
  | compute (dr : Reg) (value : Core → Word)
  | load (dr : Reg) (address : Core → Word)
  /-- A load from where the word at `pointer` points to. -/
  | loadVia (dr : Reg) (pointer : Core → Word)
  | store (sr : Reg) (address : Core → Word)
  | storeVia (sr : Reg) (pointer : Core → Word)
  | jump (target : Core → Option Word)
  /-- A jump that leaves the way back in R7 first. -/
  | link (target : Core → Word)
  | ignore (op : Opcode)
  | trap (vector : Byte)

namespace Core

def operand (c : Core) : Operand → Word
  | .reg r => c.reg r
  | .imm w => w

/-- Where a branch goes under these conditions, if it is taken. -/
def branch (c : Core) (n z p : Bool) (offset : Word) : Option Word :=
  if c.cond.any (·.selectedBy n z p) then some (c.pc + offset) else none

end Core

def Instr.action : Instr → Action
  | .add dr sr src => .compute dr fun c => c.reg sr + c.operand src
  | .and dr sr src => .compute dr fun c => c.reg sr &&& c.operand src
  | .not dr sr => .compute dr fun c => ~~~c.reg sr
  | .lea dr offset => .compute dr fun c => c.pc + offset
  | .ld dr offset => .load dr fun c => c.pc + offset
  | .ldr dr base offset => .load dr fun c => c.reg base + offset
  | .ldi dr offset => .loadVia dr fun c => c.pc + offset
  | .st sr offset => .store sr fun c => c.pc + offset
  | .str sr base offset => .store sr fun c => c.reg base + offset
  | .sti sr offset => .storeVia sr fun c => c.pc + offset
  | .br n z p offset => .jump fun c => c.branch n z p offset
  | .jmp base => .jump fun c => some (c.reg base)
  | .jsr offset => .link fun c => c.pc + offset
  | .jsrr base => .link fun c => c.reg base
  | .rti => .ignore .rti
  | .res => .ignore .res
  | .trap vector => .trap vector

/-- No other instruction acts as a trap does. -/
theorem Instr.eq_trap_of_action {i : Instr} {v : Byte}
    (h : i.action = .trap v) : i = .trap v := by
  cases i with
  | trap vector =>
      injection h with hv
      rw [hv]
  | _ => cases h

namespace Machine

variable {κ δ : Type}

-- ====================================================== looking things up

theorem run_operand (src : Operand) (m : Machine κ δ) :
    (operand src).run m = .ok (m.core.operand src) m := by
  cases src <;> rfl

/-- A branch is a jump, if it is taken. -/
theorem run_branch (n z p : Bool) (offset : Word) (m : Machine κ δ) :
    (branch n z p offset).run m =
      (match m.core.branch n z p offset with
        | none => pure ()
        | some a => setPc a : Exec κ δ Unit).run m := by
  unfold branch Core.branch
  rw [EStateM.run_bind, EStateM.run_get]
  dsimp only
  cases m.core.cond with
  | none => rfl
  | some c =>
      rw [Option.any_some]
      show EStateM.run (if c.selectedBy n z p then _ else _) m = _
      by_cases h : c.selectedBy n z p
      · rw [if_pos h, if_pos h]
        rfl
      · rw [if_neg h, if_neg h]

/-- An act that succeeds leaves the machine running, and one that fails is a
failed instruction. -/
theorem run_proceed (act : Exec κ δ Unit) (m : Machine κ δ) :
    (proceed act).run m =
      match act.run m with
      | .ok () m' => .ok .running m'
      | .error f m' => .error f m' := by
  unfold proceed
  rw [EStateM.run_bind]
  cases act.run m <;> rfl

/-- What an act leaves behind, it leaves behind as an instruction. -/
theorem meets_proceed {Q : Unit → Machine κ δ → Prop}
    {E : Failure → Machine κ δ → Prop} {act : Exec κ δ Unit}
    {m : Machine κ δ} (h : Meets Q E (act.run m)) :
    Meets (fun status m' => status = .running ∧ Q () m') E
      ((proceed act).run m) := by
  rw [run_proceed]
  cases hact : act.run m with
  | ok x m' => exact ⟨rfl, h.of_ok hact⟩
  | error f m' => exact h.of_error hact

/-- And if that is all that matters of it. -/
theorem meets_proceed_state {T : Machine κ δ → Prop}
    {E : Failure → Machine κ δ → Prop} {act : Exec κ δ Unit}
    {m : Machine κ δ} (h : Meets (fun _ => T) E (act.run m)) :
    Meets (fun _ => T) E ((proceed act).run m) :=
  (meets_proceed h).imp (fun _ _ => And.right) fun _ _ => id

-- =============================================================== enacting

variable [Console κ] [Peripheral δ]

/-- Does what an action says, its operands looked up in `c`. -/
def enact (c : Core) : Action → Exec κ δ Status
  | .compute dr value => proceed (setResult dr (value c))
  | .load dr address => proceed do setResult dr (← read (address c))
  | .loadVia dr pointer => proceed do
      setResult dr (← read (← read (pointer c)))
  | .store sr address => proceed (write (address c) (c.reg sr))
  | .storeVia sr pointer => proceed do
      write (← read (pointer c)) (← getReg sr)
  | .jump target => proceed <|
      match target c with
      | none => pure ()
      | some a => setPc a
  | .link target => proceed do
      setReg Instr.linkReg c.pc
      setPc (target (← get).core)
  | .ignore op => proceed (note (.notImplemented op (c.pc - 1)))
  | .trap vector => trap vector

/-- A jump that is not made leaves everything as it was. -/
theorem run_enact_jump_none {c : Core} {target : Core → Option Word}
    (h : target c = none) (m : Machine κ δ) :
    (enact c (.jump target)).run m = .ok .running m := by
  simp only [enact, h]
  rfl

/-- A jump that is made moves the program counter, and nothing else. -/
theorem run_enact_jump_some {c : Core} {target : Core → Option Word}
    {a : Word} (h : target c = some a) (m : Machine κ δ) :
    (enact c (.jump target)).run m
      = .ok .running { m with toBoard := m.toBoard.setPc a } := by
  simp only [enact, h]
  rfl

/-- To perform an instruction is to enact its action, with operands looked
up where it began. Nothing but this goes over all the instructions. -/
theorem run_perform (i : Instr) (m : Machine κ δ) :
    (perform i).run m = (enact m.core i.action).run m := by
  cases i <;>
    simp only [perform, enact, Instr.action, proceed, pcRelative,
      baseRelative, callSubroutine, ignore, EStateM.run_bind,
      EStateM.run_pure, EStateM.run_get, run_getPc, run_getReg,
      run_operand, run_branch]

-- =============================================================== one step

/-- The program counter moves on once the word is there, so where the read
fails it stays. -/
theorem run_fetch (m : Machine κ δ) :
    fetch.run m =
      match (read m.core.pc).run m with
      | .ok w m' =>
          .ok w { m' with toBoard := m'.toBoard.setPc (m.core.pc + 1) }
      | .error f m' => .error f m' := by
  unfold fetch
  rw [EStateM.run_bind, run_getPc]
  show (read m.core.pc >>= fun w => _).run m = _
  rw [EStateM.run_bind]
  cases (read m.core.pc).run m <;> rfl

/-- The machine with the execution of a word on record. -/
def counted (w : Word) (m : Machine κ δ) : Machine κ δ :=
  { m with
    toBoard := (m.toBoard.note
      (.executing (m.core.pc - 1) (Instr.decode w))).countInstr }

/-- An instruction is on record and has been counted before it does
anything. -/
theorem run_execute (w : Word) (m : Machine κ δ) :
    (execute w).run m = (perform (Instr.decode w)).run (m.counted w) := by
  unfold execute
  rw [EStateM.run_bind, run_getPc]
  rfl

/-- The machine as a trap routine finds it. -/
def called (w : Word) (t : TrapRoutine) (m : Machine κ δ) :
    Machine κ δ :=
  { m with toBoard := (m.counted w).toBoard.note (.trapCalled t) }

/-- A trap with a routine is noted, and then it is the routine. -/
theorem run_execute_trap {w : Word} {t : TrapRoutine}
    (hw : Instr.decode w = .trap t.vector) (m : Machine κ δ) :
    (execute w).run m = (routine t).run (m.called w t) := by
  have hvector : TrapRoutine.ofVector? t.vector = some t := by
    cases t <;> rfl
  rw [run_execute, hw]
  show (trap t.vector).run _ = _
  unfold trap
  rw [hvector]
  rfl

/-- A machine that has stopped does nothing; any other fetches and
executes. -/
theorem run_step (m : Machine κ δ) :
    step.run m =
      if m.running then
        match fetch.run m with
        | .ok w m' => (execute w).run m'
        | .error f m' => .error f m'
      else .ok .halted m := by
  unfold step
  rw [EStateM.run_bind, EStateM.run_get]
  show EStateM.run (if m.running then fetch >>= execute else _) m = _
  cases m.running with
  | false => rfl
  | true =>
      rw [if_pos rfl, if_pos rfl, EStateM.run_bind]
      cases fetch.run m <;> rfl

end Machine

end Lc3
