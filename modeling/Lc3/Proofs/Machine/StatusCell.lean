/-
The cell behind the keyboard's status. A word can be stored there, by a
program as well as by an image, and no program ever gets to see it: every
read at that address polls the console first, and what the poll found is
in the cell before it is read. A poll that fails leaves the cell as it is,
but then the read fails too.

So the word in this cell is nothing to the machine. Two machines that
differ in it at most go in step, whichever way the word might have been
read: fetched, loaded, taken for a pointer or for a character of a
string. Only a host who looks at the cell past the bus can tell them
apart, which is why such looks are left out here.
-/
import Lc3.Proofs.Machine.Moves
import Lc3.Proofs.Machine.Instructions
import Lc3.Proofs.Machine.Broken

namespace Lc3.Machine

variable {κ δ : Type}

-- ===================================================== equal but one cell

/-- Nothing but the cell at the keyboard's status differs. -/
structure AlikeButStatus (m n : Machine κ δ) : Prop where
  mem : ∀ a, a ≠ Keyboard.status → m.core.peek a = n.core.peek a
  regs : m.core.regs = n.core.regs
  pc : m.core.pc = n.core.pc
  cond : m.core.cond = n.core.cond
  executed : m.core.executed = n.core.executed
  journal : m.journal = n.journal
  console : m.console = n.console
  devices : m.devices = n.devices
  running : m.running = n.running

namespace AlikeButStatus

variable {m n : Machine κ δ}

/-- What is written to both is in both, also where it is written to the
cell. -/
theorem poke (h : AlikeButStatus m n) (a w : Word) :
    AlikeButStatus { m with toBoard := m.toBoard.poke a w }
      { n with toBoard := n.toBoard.poke a w } where
  mem c hc := by
    show (m.toBoard.poke a w).core.peek c = (n.toBoard.poke a w).core.peek c
    rw [Board.peek_poke, Board.peek_poke, h.mem c hc]
  regs := h.regs
  pc := h.pc
  cond := h.cond
  executed := h.executed
  journal := congrArg (·.note (.memWritten a w)) h.journal
  console := h.console
  devices := h.devices
  running := h.running

theorem withConsole (h : AlikeButStatus m n) (console : κ) :
    AlikeButStatus { m with console } { n with console } :=
  { h with console := rfl }

/-- No act looks at a cell. -/
theorem apply (h : AlikeButStatus m n) (a : Act) :
    AlikeButStatus (a.apply m) (a.apply n) := by
  cases a with
  | poke a w => exact h.poke a w
  | note r => exact { h with journal := congrArg (·.note r) h.journal }
  | setPc w =>
      exact { h with
        pc := rfl, journal := congrArg (·.note (.pcWritten w)) h.journal }
  | setReg r w =>
      exact { h with
        regs := congrArg (·.set r w) h.regs
        journal := congrArg (·.note (.regWritten r w)) h.journal }
  | setCond c => exact { h with cond := rfl }
  | countInstr =>
      exact { h with executed := congrArg (· + 1) h.executed }
  | stop => exact { h with running := rfl }

theorem tapped (h : AlikeButStatus m n) :
    AlikeButStatus m.tapped n.tapped :=
  { h with console := congrArg (fun c => ({ inner := c } : Tap κ)) h.console }

end AlikeButStatus

/-- Equal but for the cell, and with the keyboard as the only device. -/
structure StatusHidden (m n : Machine κ δ) : Prop where
  alike : AlikeButStatus m n
  devices : m.devices = .standard

variable [Console κ] [Peripheral δ]

-- ================================================================= in step

/-- The cell is read by polls alone, and a poll has written to it. -/
theorem agree_read_hidden (a : Word) {m n : Machine κ δ}
    (h : StatusHidden m n) :
    Agree StatusHidden ((read a).run m) ((read a).run n) := by
  have hdev : n.devices = .standard := h.alike.devices ▸ h.devices
  by_cases ha : a = Keyboard.status
  · rw [ha, run_read_status h.devices, run_read_status hdev,
      h.alike.console]
    cases (Console.call (.poll Keyboard.patience)).run n.console with
    | error e console =>
        exact .error _ ⟨h.alike.withConsole console, h.devices⟩
    | ok answer console =>
        have h' := h.alike.withConsole console
        cases answer with
        | none => exact .ok _ ⟨h'.poke Keyboard.status 0, h.devices⟩
        | some key =>
            have hstatus := h'.poke Keyboard.status Keyboard.ready
            exact .ok _
              ⟨hstatus.poke Keyboard.data (Word.ofByte key), h.devices⟩
  · rw [run_read_of_ne h.devices ha, run_read_of_ne hdev ha,
      h.alike.mem a ha]
    exact .ok _ h

/-- The cell is read in one place only, and there it has just been written.
So machines that differ in it go in step. -/
theorem lockstep_hidden :
    Lockstep (StatusHidden : Machine κ δ → Machine κ δ → Prop) where
  sight h := by
    unfold sight
    rw [h.alike.regs, h.alike.pc, h.alike.cond, h.alike.running]
  apply a h := by
    refine ⟨h.alike.apply a, ?_⟩
    cases a <;> exact h.devices
  read a h := agree_read_hidden a h
  write {m n} a w h := by
    have hdev : n.devices = .standard := h.alike.devices ▸ h.devices
    rw [run_write_standard a w m h.devices, run_write_standard a w n hdev]
    exact .ok () ⟨h.alike.poke a w, h.devices⟩
  call {m n} c h := by
    rw [run_call, run_call, h.alike.console]
    cases (Console.call c).run n.console with
    | error e console =>
        exact .error _ ⟨h.alike.withConsole console, h.devices⟩
    | ok x console =>
        exact .ok x ⟨h.alike.withConsole console, h.devices⟩

/-- And they do so over all the moves of a host who does not look at it
himself. -/
theorem outcomes_hidden {moves : List (Move κ δ)}
    (hplain : ∀ move ∈ moves, move.Plain)
    (hlooks : ∀ move ∈ moves, move.Overlooks Keyboard.status)
    {m n : Machine κ δ} (h : StatusHidden m n) :
    List.Forall₂ (Agree StatusHidden) (outcomes moves m)
      (outcomes moves n) := by
  refine lockstep_hidden.outcomes ?_ ?_ ?_ hplain ?_ h
  · -- the limit of the string routines is the console's
    refine lockstep_hidden.strings fun m n h => ?_
    unfold walkLimit
    rw [h.alike.console]
  · exact fun m n h => h.alike.executed
  · intro f m n h
    have hconsole := h.alike.console
    rw [hconsole]
    exact ⟨h.alike.withConsole (f n.console), h.devices⟩
  · exact fun a ha m n h => h.alike.mem a (hlooks _ ha)

-- ============================================================= the theorem

/-- What is in the cell at the keyboard's status has no influence: moves
that do not look at it past the bus come to the same outcomes, through the
same calls of the console, and leave no other difference. -/
theorem status_cell_unseen {m n : Machine κ δ} (h : AlikeButStatus m n)
    (hdev : m.devices = .standard) {moves : List (Move κ δ)}
    (hplain : ∀ move ∈ moves, move.Plain)
    (hlooks : ∀ move ∈ moves, move.Overlooks Keyboard.status) :
    List.Forall₂ (Agree AlikeButStatus) (outcomes moves m)
        (outcomes moves n)
      ∧ List.Forall₂
        (fun r r' => (Console.after r).console.calls
          = (Console.after r').console.calls)
        (outcomes (moves.map Move.tapped) m.tapped)
        (outcomes (moves.map Move.tapped) n.tapped) := by
  constructor
  · refine (outcomes_hidden hplain hlooks ⟨h, hdev⟩).imp fun r r' hr => ?_
    exact hr.imp fun _ _ h => h.alike
  · have hplain' : ∀ move ∈ moves.map Move.tapped, move.Plain := by
      rw [List.forall_mem_map]
      exact fun move hmove => (hplain move hmove).tapped
    have hlooks' : ∀ move ∈ moves.map Move.tapped,
        move.Overlooks Keyboard.status := by
      rw [List.forall_mem_map]
      exact fun move hmove => (hlooks move hmove).tapped
    have htapped := outcomes_hidden hplain' hlooks' ⟨h.tapped, hdev⟩
    refine htapped.imp fun r r' hr => ?_
    exact congrArg Tap.calls hr.after.alike.console

/-- A machine with one key in the queue. -/
def polling : Machine Buffered Empty := new { input := [0x41] }

/-- The same machine, with a word in the cell. -/
def scribbled : Machine Buffered Empty :=
  { polling with
    core :=
      { polling.core with mem := polling.core.mem.set Keyboard.status 7 } }

/-- The two machines differ in the one word. -/
theorem alike_scribbled : AlikeButStatus polling scribbled where
  mem _ ha := (Bank.get_set_of_ne polling.core.mem 7 ha.symm).symm
  regs := rfl
  pc := rfl
  cond := rfl
  executed := rfl
  journal := rfl
  console := rfl
  devices := rfl
  running := rfl

/-- A program loads the status through a pointer, and somebody looks at
the keyboard after that. -/
def prying : List (Move Buffered Empty) :=
  [.operate (.load ⟨Core.entry, [0xa202, 0, 0, Keyboard.status]⟩),
    .operate .step, .operate (.peek Keyboard.data),
    .operate (.read Keyboard.status)]

/-- The word in the cell is not what the program gets. -/
theorem status_cell_unseen_prying :
    polling.core.peek Keyboard.status
        ≠ scribbled.core.peek Keyboard.status
      ∧ List.Forall₂ (Agree AlikeButStatus) (outcomes prying polling)
        (outcomes prying scribbled)
      ∧ List.Forall₂
        (fun r r' => (Console.after r).console.calls
          = (Console.after r').console.calls)
        (outcomes (prying.map Move.tapped) polling.tapped)
        (outcomes (prying.map Move.tapped) scribbled.tapped)
      ∧ (played prying scribbled).core.reg 1 = Keyboard.ready := by
  have hplain : ∀ move ∈ prying, move.Plain := by
    simp [prying, Move.Plain]
  have hlooks : ∀ move ∈ prying, move.Overlooks Keyboard.status := by
    simp [prying, Move.Overlooks, Keyboard.data, Keyboard.status]
  obtain ⟨houtcomes, hcalls⟩ :=
    status_cell_unseen alike_scribbled rfl hplain hlooks
  refine ⟨?_, houtcomes, hcalls, ?_⟩
  · decide +kernel
  · decide +kernel

end Lc3.Machine
