/-
A step of the machine is a step of the table.

The machine's state shows as the table's: registers and memory as
functions, the rest as it is, and the journal left out. Through this
view a read of the machine is a read of the table, and each action is
what its rows say. The theorem follows by going over the opcodes once,
with the lemmas on fields telling that both sides look up the same
operands.

What is not in the view stays out of the way: a step leaves the devices
as they are, and none but TRAP stops the machine, so both facts are
carried along (`Shows`).
-/
import Lc3.Proofs.Table.Fields
import Lc3.Proofs.Machine.Bus
import Lc3.Console.Buffered

namespace Lc3.Table

open Machine (Status)

variable {κ δ : Type}

-- =============================================================== the view

/-- The machine's state as the table speaks of it. -/
def view (m : Machine κ δ) : Arch κ where
  reg := m.core.reg
  mem := m.core.peek
  pc := m.core.pc
  cond := m.core.cond
  executed := m.core.executed
  console := m.console

/-- The running machine `m`, with the keyboard as its only device, shows
as the state `s`. -/
structure Shows (m : Machine κ δ) (s : Arch κ) : Prop where
  view_eq : view m = s
  devices : m.devices = .standard
  running : m.running = true

/-- A write to a register shows as one. -/
theorem view_setReg (r : Reg) (v : Word) (m : Machine κ δ) :
    view { m with toBoard := m.toBoard.setReg r v }
      = (view m).setReg r v := by
  have hreg : (m.core.regs.set r v).get
      = fun q => if r = q then v else m.core.regs.get q :=
    funext fun q => Bank.get_set m.core.regs r q v
  exact congrArg (fun reg => { view m with reg }) hreg

/-- A write to memory shows as one. -/
theorem view_poke (a v : Word) (m : Machine κ δ) :
    view { m with toBoard := m.toBoard.poke a v }
      = (view m).store a v := by
  have hmem : (m.core.mem.set a v).get
      = fun c => if a = c then v else m.core.mem.get c :=
    funext fun c => Bank.get_set m.core.mem a c v
  exact congrArg (fun mem => { view m with mem }) hmem

namespace Shows

variable {m : Machine κ δ} {s : Arch κ}

theorem setReg (h : Shows m s) (r : Reg) (v : Word) :
    Shows { m with toBoard := m.toBoard.setReg r v } (s.setReg r v) where
  view_eq := by rw [view_setReg, h.view_eq]
  devices := h.devices
  running := h.running

theorem poke (h : Shows m s) (a v : Word) :
    Shows { m with toBoard := m.toBoard.poke a v } (s.store a v) where
  view_eq := by rw [view_poke, h.view_eq]
  devices := h.devices
  running := h.running

theorem setPc (h : Shows m s) (a : Word) :
    Shows { m with toBoard := m.toBoard.setPc a } (s.jump a) where
  view_eq := by rw [← h.view_eq]; rfl
  devices := h.devices
  running := h.running

theorem result (h : Shows m s) (dr : Reg) (v : Word) :
    Shows
      { m with toBoard := (m.toBoard.setReg dr v).setCond (.ofWord v) }
      (s.result dr v) where
  view_eq := by
    rw [Arch.result, sign_eq, ← (h.setReg dr v).view_eq]
    rfl
  devices := h.devices
  running := h.running

theorem console (h : Shows m s) (console : κ) :
    Shows { m with console } { s with console } where
  view_eq := by rw [← h.view_eq]; rfl
  devices := h.devices
  running := h.running

theorem note (h : Shows m s) (r : Record) :
    Shows { m with toBoard := m.toBoard.note r } s where
  view_eq := h.view_eq
  devices := h.devices
  running := h.running

theorem counted (h : Shows m s) (w : Word) :
    Shows (m.counted w) { s with executed := s.executed + 1 } where
  view_eq := by rw [← h.view_eq]; rfl
  devices := h.devices
  running := h.running

end Shows

-- =============================================================== operands

/-- An address near the program counter is a wrapping sum with the extended
field. -/
theorem near_view (w : Word) (n : Nat) (m : Machine κ δ) :
    (view m).near w n = m.core.pc + w.lowSigned n := by
  rw [Arch.near, wrap_add, wrap_signed, wrap_toNat]
  rfl

/-- So is one near a base register. -/
theorem based_view (w : Word) (m : Machine κ δ) :
    (view m).based w
      = m.core.reg (Instr.midReg w) + w.lowSigned 6 := by
  rw [Arch.based, wrap_add, wrap_signed, wrap_toNat, regAt_six]
  rfl

/-- Both accounts of the second operand look at the same bit, and then at
the same register or number. -/
theorem second_view (w : Word) (m : Machine κ δ) :
    (view m).second w = m.core.operand (Instr.operandOf w) := by
  unfold Arch.second Instr.operandOf
  rw [getLsbD_field, wrap_signed, regAt_zero]
  by_cases h : field w 5 1 = 1
  · rw [if_pos h, if_pos (decide_eq_true h)]
    rfl
  · rw [if_neg h, if_neg (by simpa using h)]
    rfl

-- ======================================= rows that only look at registers

/-- A result goes to its register and shows in the condition. -/
theorem agree_result {m : Machine κ δ} {s : Arch κ} (h : Shows m s)
    (dr : Reg) (v : Word) :
    Agree Shows ((Machine.setResult dr v).run m)
      ((modify (·.result dr v) : Exec κ Unit).run s) :=
  .ok _ (h.result dr v)

/-- A branch goes where the row says, or stays. -/
theorem agree_branch {m : Machine κ δ} {s : Arch κ} (h : Shows m s)
    (n z p : Bool) (offset : Word) :
    Agree Shows
      ((match m.core.branch n z p offset with
        | none => pure ()
        | some a => Machine.setPc a : Machine.Exec κ δ Unit).run m)
      ((if m.core.cond.any (·.selectedBy n z p) then
          modify (·.jump (m.core.pc + offset))
        else pure () : Exec κ Unit).run s) := by
  unfold Core.branch
  cases m.core.cond.any (·.selectedBy n z p) with
  | false => exact .ok _ h
  | true => exact .ok _ (h.setPc _)

/-- The way back is in R7 before the target is looked up, on both
sides. -/
theorem agree_link {m : Machine κ δ} (h : Shows m (view m))
    (target : Core → Word) (target' : Arch κ → Word)
    (ht : target' ((view m).setReg 7 m.core.pc)
      = target (m.toBoard.setReg 7 m.core.pc).core) :
    Agree Shows
      ((do
        Machine.setReg Instr.linkReg m.core.pc
        Machine.setPc (target (← get).core) : Machine.Exec κ δ Unit).run m)
      ((do
        modify (·.setReg 7 (view m).pc)
        modify fun s => s.jump (target' s) : Exec κ Unit).run (view m)) := by
  show Agree Shows
    (.ok () { m with
      toBoard := (m.toBoard.setReg 7 m.core.pc).setPc
        (target (m.toBoard.setReg 7 m.core.pc).core) })
    (.ok () (((view m).setReg 7 m.core.pc).jump
      (target' ((view m).setReg 7 m.core.pc))))
  rw [ht]
  exact .ok _ ((h.setReg 7 m.core.pc).setPc _)

/-- Rows that agree do so as whole instructions: either side goes on. -/
theorem agree_proceed {m : Machine κ δ} {s : Arch κ}
    {p : Machine.Exec κ δ Unit} {q : Exec κ Unit}
    (h : Agree Shows (p.run m) (q.run s)) :
    Agree Shows ((Machine.proceed p).run m)
      ((do q; return Status.running : Exec κ Status).run s) :=
  h.bind fun _ _ _ _ h' => .ok _ h'

-- ================================================ rows that access memory

variable [Console κ] [Peripheral δ]

/-- A read of the machine is a read of the table, poll and all. -/
theorem agree_read {m : Machine κ δ} {s : Arch κ} (h : Shows m s)
    (a : Word) : Agree Shows ((Machine.read a).run m) ((read a).run s) := by
  obtain ⟨rfl, hdev, hrun⟩ := h
  have h : Shows m (view m) := ⟨rfl, hdev, hrun⟩
  by_cases ha : a = Keyboard.status
  · have hpoll : read a = (poll : Exec κ Word) := if_pos ha
    have hconsole : (view m).console = m.console := rfl
    have hpatience : Keyboard.patience = 1000 := rfl
    rw [hpoll, run_poll, ha, Machine.run_read_status hdev, hconsole,
      hpatience]
    cases (Console.call (.poll 1000)).run m.console with
    | error e console => exact .error _ (h.console console)
    | ok answer console =>
        cases answer with
        | none => exact .ok _ ((h.console console).poke _ _)
        | some key =>
            have hkey : BitVec.ofNat 16 key.toNat = Word.ofByte key :=
              BitVec.ofNat_toNat 16 key
            simp only [hkey]
            exact .ok _ (((h.console console).poke _ _).poke _ _)
  · have hcell : read a = (return (← get).mem a : Exec κ Word) := if_neg ha
    rw [Machine.run_read_of_ne hdev ha, hcell]
    exact .ok _ h

/-- Storing agrees as well, and there is no address at which it polls. -/
theorem agree_write {m : Machine κ δ} {s : Arch κ} (h : Shows m s)
    (a v : Word) :
    Agree Shows ((Machine.write a v).run m)
      ((modify (·.store a v) : Exec κ Unit).run s) := by
  rw [Machine.run_write_standard a v m h.devices]
  exact .ok _ (h.poke a v)

/-- A store through a pointer: what is stored was in its register before
the pointer was read as much as after. -/
theorem agree_storeVia {m : Machine κ δ} (h : Shows m (view m)) (sr : Reg)
    (pointer : Word) :
    Agree Shows
      ((do Machine.write (← Machine.read pointer) (← Machine.getReg sr) :
        Machine.Exec κ δ Unit).run m)
      ((do
        let a ← read pointer
        modify (·.store a ((view m).reg sr)) :
          Exec κ Unit).run (view m)) := by
  refine (agree_read h pointer).bind fun a m' s' hread h' => ?_
  have hpolled := ((Machine.meets_read h.devices pointer).of_ok hread).1
  have hreg : (view m).reg sr = m'.core.reg sr := by
    show m.core.regs.get sr = m'.core.regs.get sr
    rw [hpolled.regs]
  rw [hreg]
  exact agree_write h' a (m'.core.reg sr)

-- =============================================================== one step

/-- Every word but a TRAP does what its row says. -/
theorem agree_execute {m : Machine κ δ} {s : Arch κ} (h : Shows m s)
    {w : Word} (hw : field w 12 4 ≠ 15) :
    Agree Shows ((Machine.perform (Instr.decode w)).run m)
      ((do execute w; return Status.running : Exec κ Status).run s) := by
  obtain ⟨rfl, hdev, hrun⟩ := h
  have h : Shows m (view m) := ⟨rfl, hdev, hrun⟩
  have hrow : (execute w).run (view m)
      = (row w (view m) (Instr.opcodeOf w).number).run (view m) := by
    rw [number_opcodeOf]
    rfl
  rw [← number_opcodeOf] at hw
  rw [Machine.run_perform]
  unfold Instr.decode
  -- the goal by opcode, with the row that it leads to
  revert hrow hw
  cases Instr.opcodeOf w
  case trap => exact fun hw => absurd rfl hw
  case jsr =>
    intro _ hrow
    by_cases hmode : field w 11 1 = 1
    · have hbit : w.getLsbD 11 = true := by
        rw [getLsbD_field, hmode]
        rfl
      simp only [hbit, if_true]
      refine agree_proceed ?_
      rw [hrow]
      simp only [row, Opcode.number, hmode, if_true, near_view]
      exact agree_link h (fun c => c.pc + w.lowSigned 11)
        (fun _ => m.core.pc + w.lowSigned 11) rfl
    · have hbit : w.getLsbD 11 = false := by
        rw [getLsbD_field]
        exact decide_eq_false hmode
      simp only [hbit, Bool.false_eq_true, if_false]
      refine agree_proceed ?_
      rw [hrow]
      simp only [row, Opcode.number, hmode, if_false, regAt_six]
      refine agree_link h (fun c => c.reg (Instr.midReg w))
        (fun s => s.reg (Instr.midReg w)) ?_
      rw [← (h.setReg 7 m.core.pc).view_eq]
      rfl
  all_goals
    intro _ hrow
    refine agree_proceed ?_
    rw [hrow]
    simp only [row, Opcode.number, regAt_nine, regAt_six, near_view,
      based_view, second_view, taken_eq, wrap_add, wrap_toNat, wrap_and,
      wrap_complement]
  case add | and | not | lea => exact agree_result h _ _
  case ld | ldr =>
    exact (agree_read h _).bind fun v _ _ _ h' => agree_result h' _ v
  case ldi =>
    refine (agree_read h _).bind fun a _ _ _ h' => ?_
    exact (agree_read h' a).bind fun v _ _ _ h'' => agree_result h'' _ v
  case st | str => exact agree_write h _ _
  case sti => exact agree_storeVia h _ _
  case br => exact agree_branch h _ _ _ _
  case jmp => exact .ok _ (h.setPc _)
  case rti | res => exact .ok _ (h.note _)

/-- Fetching is a read on both sides, and the program counter moves on by
one whether or not that wraps. -/
theorem agree_fetch {m : Machine κ δ} {s : Arch κ} (h : Shows m s) :
    Agree Shows (Machine.fetch.run m) (fetch.run s) := by
  obtain ⟨rfl, hdev, hrun⟩ := h
  have h : Shows m (view m) := ⟨rfl, hdev, hrun⟩
  refine (agree_read h m.core.pc).bind fun w m' s' hread h' => ?_
  have hpolled := ((Machine.meets_read hdev m.core.pc).of_ok hread).1
  have hpc : wrap (s'.pc.toNat + 1) = m.core.pc + 1 := by
    rw [wrap_add, wrap_toNat, ← h'.view_eq]
    show m'.core.pc + wrap 1 = m.core.pc + 1
    rw [hpolled.pc]
    rfl
  show Agree Shows (.ok w _) (.ok w (s'.jump (wrap (s'.pc.toNat + 1))))
  rw [hpc]
  exact .ok w (h'.setPc (m.core.pc + 1))

/-- The next step of a running machine with the keyboard as its only
device is the table's, unless it fetches a TRAP: the same result or the
same failure, and the same registers, memory, program counter, condition,
count and console after it. -/
theorem step_agrees_table (m : Machine κ δ) (hrun : m.running = true)
    (hdev : m.devices = .standard)
    (hword : ∀ w m', Machine.fetch.run m = .ok w m' →
      field w 12 4 ≠ 15) :
    Agree Shows (Machine.step.run m) (step.run (view m)) := by
  have h : Shows m (view m) := ⟨rfl, hdev, hrun⟩
  have hstep : Machine.step.run m
      = (Machine.fetch >>= Machine.execute).run m := by
    rw [Machine.run_step, if_pos hrun, EStateM.run_bind]
    cases Machine.fetch.run m <;> rfl
  rw [hstep]
  refine (agree_fetch h).bind fun w m' s' hfetch h' => ?_
  rw [Machine.run_execute]
  exact agree_execute (h'.counted w) (hword w m' hfetch)

/-- An indirect load in the last cell of memory, through a pointer to the
keyboard's status, with a key waiting. -/
def statusLoad : Machine Buffered Empty :=
  let m := Machine.new { input := [0x41] }
  { m with
    toBoard := ((m.toBoard.poke 0xffff 0xa601).poke 0x0001 0xfe00).setPc
      0xffff }

/-- The load waits for its key on either side, and finds it. -/
theorem step_agrees_table_statusLoad :
    statusLoad.running = true ∧ statusLoad.devices = .standard
      ∧ (∀ w m', Machine.fetch.run statusLoad = .ok w m' →
          field w 12 4 ≠ 15)
      ∧ Agree Shows (Machine.step.run statusLoad)
          (step.run (view statusLoad)) := by
  have hword : ∀ w m', Machine.fetch.run statusLoad = .ok w m' →
      field w 12 4 ≠ 15 := by
    intro w m' h
    have hfetch : Machine.fetch.run statusLoad = .ok 0xa601 _ := rfl
    injection hfetch.symm.trans h with hw
    rw [← hw]
    decide
  exact ⟨rfl, rfl, hword, step_agrees_table statusLoad rfl rfl hword⟩

end Lc3.Table
