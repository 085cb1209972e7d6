/-
The journal is a ledger. Whatever is done to a machine, the records that
it makes meanwhile, replayed in their order on the memory, registers and
program counter from before, give those from after, and among them is one
record of an executed instruction for each that was counted.

# How it is shown

A board is accounted for by another if such a list of records leads from
the one to the other (`Accounted`). That is reflexive and transitive, so
it holds along a sequence of computations if it holds for each, whether
they succeed or fail (`Accounts.bind`). Single changes of the board
are accounted for by the one record that they make, and calls of the
console by none. From there it goes up: orderly devices and the bus, the
routines and actions, an instruction with the record that announces it,
runs, and all that a host may ask for.

A journal that drops some of its records cannot tell so much. Records
are dropped as they come, so the ledger is kept of what is noted; a
journal that takes everything has it all (`records_foldl_note`).
-/
import Lc3.Proofs.Machine.Conserved
import Lc3.Proofs.Machine.Life

namespace Lc3

-- ============================================================== replaying

/-- What the records of single writes restore. -/
structure Saved where
  mem : Memory
  regs : Registers
  pc : Word
deriving DecidableEq, Repr

def Core.saved (c : Core) : Saved where
  mem := c.mem
  regs := c.regs
  pc := c.pc

namespace Record

/-- Does once more what the record of a single write is of. -/
def redo : Record → Saved → Saved
  | memWritten a w, s => { s with mem := s.mem.set a w }
  | regWritten r w, s => { s with regs := s.regs.set r w }
  | pcWritten w, s => { s with pc := w }
  | _, s => s

/-- The record that announces an instruction. -/
def isExecuting : Record → Bool
  | executing .. => true
  | _ => false

def replay (rs : List Record) (s : Saved) : Saved :=
  rs.foldl (fun s r => r.redo s) s

/-- Replaying can be broken off and taken up again. -/
theorem replay_append (rs rs' : List Record) (s : Saved) :
    replay (rs ++ rs') s = replay rs' (replay rs s) :=
  List.foldl_append

/-- A remark stands for no change, so redoing it does nothing. -/
theorem redo_remark {r : Record} (h : r.isRemark) (s : Saved) :
    r.redo s = s := by
  cases r with
  | memWritten | regWritten | pcWritten => cases h
  | _ => rfl

/-- And it announces no instruction. -/
theorem isExecuting_remark {r : Record} (h : r.isRemark) :
    r.isExecuting = false := by
  cases r with
  | executing => cases h
  | _ => rfl

end Record

/-- A journal of the finest level keeps what is noted. -/
theorem records_foldl_note (rs : List Record) {j : Journal}
    (h : j.finest = some .trace) :
    (rs.foldl Journal.note j).records.toList
      = j.records.toList ++ rs := by
  induction rs generalizing j with
  | nil => simp
  | cons r rs ih =>
      have hkeeps : j.keeps r.level = true := by
        unfold Journal.keeps
        rw [h]
        cases r.level <;> rfl
      have hnote : j.note r = { j with records := j.records.push r } :=
        if_pos hkeeps
      rw [List.foldl_cons, ih (by rw [hnote]; exact h), hnote]
      simp

-- ================================================================ accounts

namespace Board

variable {κ : Type}

/-- Records that were noted on the way from `b` to `b'` tell all of the
way. -/
def Accounted (b b' : Board κ) : Prop :=
  ∃ rs : List Record, b'.journal = rs.foldl Journal.note b.journal
    ∧ Record.replay rs b.core.saved = b'.core.saved
    ∧ b'.core.executed = b.core.executed + rs.countP Record.isExecuting

namespace Accounted

/-- A way on which nothing happens needs no records. -/
theorem refl (b : Board κ) : Accounted b b :=
  ⟨[], rfl, rfl, rfl⟩

/-- Two stretches of the way, each with its records, are one with both
lists. -/
theorem trans {b b₁ b₂ : Board κ} (h : Accounted b b₁)
    (h' : Accounted b₁ b₂) : Accounted b b₂ := by
  obtain ⟨rs, hjournal, hsaved, hcount⟩ := h
  obtain ⟨rs', hjournal', hsaved', hcount'⟩ := h'
  refine ⟨rs ++ rs', ?_, ?_, ?_⟩
  · rw [hjournal', hjournal, List.foldl_append]
  · rw [Record.replay_append, hsaved, hsaved']
  · rw [hcount', hcount, List.countP_append, Nat.add_assoc]

/-- A remark is one record, of nothing. -/
theorem remark {r : Record} (h : r.isRemark) (b : Board κ) :
    Accounted b (b.note r) := by
  refine ⟨[r], rfl, Record.redo_remark h _, ?_⟩
  rw [List.countP_singleton, Record.isExecuting_remark h]
  rfl

/-- A change of the board leaves the record that redoes it, or it is the
condition's, which is not restored. -/
theorem change (c : Change) (b : Board κ) : Accounted b (c.apply b) := by
  cases c with
  | remark r h => exact remark h b
  | poke a w => exact ⟨[.memWritten a w], rfl, rfl, rfl⟩
  | setReg r w => exact ⟨[.regWritten r w], rfl, rfl, rfl⟩
  | setPc w => exact ⟨[.pcWritten w], rfl, rfl, rfl⟩
  | setCond c => exact ⟨[], rfl, rfl, rfl⟩

/-- An instruction is announced and counted. -/
theorem counted (pc : Word) (i : Instr) (b : Board κ) :
    Accounted b (b.note (.executing pc i)).countInstr :=
  ⟨[.executing pc i], rfl, rfl, rfl⟩

/-- Several writes to memory have their records one by one. -/
theorem pokes (cells : List (Word × Word)) (b : Board κ) :
    Accounted b (cells.foldl (fun b (a, w) => b.poke a w) b) := by
  induction cells generalizing b with
  | nil => exact refl b
  | cons cell cells ih =>
      exact (change (.poke cell.1 cell.2) b).trans (ih _)

/-- So has an image, and one more for being loaded. -/
theorem load (image : Image) (b : Board κ) :
    Accounted b (b.load image) :=
  (pokes image.cells b).trans (remark rfl _)

end Accounted

end Board

open Board (Accounted)

variable {κ δ ρ σ α β : Type}

/-- Whatever it comes to, and from whatever state, the computation
accounts for what it has done to the board that the state holds. -/
def Accounts (board : σ → Board κ) (p : EStateM Failure σ α) : Prop :=
  ∀ s, Accounted (board s) (board (Console.after (p.run s)))

namespace Accounts

variable {board : σ → Board κ}

/-- Nothing is to be accounted for where nothing was done. -/
theorem pure (x : α) : Accounts board (pure x) :=
  fun s => .refl (board s)

/-- A failure does nothing either. -/
theorem throw (f : Failure) :
    Accounts board (throw f : EStateM Failure σ α) :=
  fun s => .refl (board s)

/-- A sequence accounts for itself if its parts do, also where the first of
them fails. -/
theorem bind {p : EStateM Failure σ α} {f : α → EStateM Failure σ β}
    (h : Accounts board p) (hf : ∀ x, Accounts board (f x)) :
    Accounts board (p >>= f) := by
  have htrans (s s₁ s₂ : σ) :
      Accounted (board s) (board s₁) → Accounted (board s₁) (board s₂) →
        Accounted (board s) (board s₂) := .trans
  exact Conserves.bind htrans h hf

/-- A computation that changes something that is not on the board. -/
theorem aside {f : σ → σ} (h : ∀ s, board (f s) = board s) :
    Accounts board (modify f : EStateM Failure σ Unit) := by
  intro s
  show Accounted (board s) (board (f s))
  rw [h]
  exact .refl (board s)

end Accounts

/-- Orderly devices account for what they do. -/
theorem DeviceExec.Orderly.accounts [Console κ] {p : DeviceExec κ ρ α}
    (h : p.Orderly) : Accounts Prod.snd p := by
  induction h with
  | pure x => exact .pure x
  | throw f => exact .throw f
  | bind _ _ ih ihf => exact ih.bind ihf
  | look f => exact fun s => .refl s.2
  | own f => exact .aside fun _ => rfl
  | change c => exact fun s => .change c s.2
  | call c =>
      rintro ⟨d, b⟩
      rw [run_ofBoard, Board.call, Board.run_onConsole]
      cases (Console.call c).run b.console <;> exact ⟨[], rfl, rfl, rfl⟩

namespace Machine

/-- To answer in other words takes no record. -/
theorem accounts_answer {p : Exec κ δ α} (h : Accounts toBoard p)
    (f : α → Answer) :
    Accounts toBoard (do return f (← p) : Exec κ δ Answer) :=
  h.bind fun x => .pure (f x)

/-- A file that cannot be read leaves no trace, and any other leaves the
records of its image. -/
theorem accounts_loadFrom (v : Volume) (path : String) :
    Accounts toBoard (loadFrom v path : Exec κ δ Unit) := by
  unfold loadFrom readImage
  intro m
  cases Image.ofContents (v.read path) with
  | error e => exact .refl m.toBoard
  | ok image =>
      have hread : Accounted m.toBoard (m.toBoard.note
          (.imageRead image.words.length image.origin path)) :=
        .remark rfl m.toBoard
      exact hread.trans (.load image _)

variable [Console κ]

-- ======================================================== single accesses

/-- An access that is served by something orderly accounts for itself. -/
theorem Served.accounts {p : Exec κ δ α} (h : Served p) :
    Accounts toBoard p := by
  rintro ⟨board, devices, running⟩
  obtain ⟨ρ, r, act, table, hact, hrun⟩ := h devices running
  rw [hrun, after_mapState]
  exact hact.accounts (r, board)

/-- A recorded change accounts for itself. -/
theorem accounts_change (c : Board.Change) :
    Accounts toBoard (change c.apply : Exec κ δ Unit) :=
  (served_change c).accounts

/-- The condition is none of what is restored. -/
theorem accounts_setCond (c : Cond) :
    Accounts toBoard (change (·.setCond c) : Exec κ δ Unit) :=
  accounts_change (.setCond c)

/-- A call leaves no record and changes nothing on the core. -/
theorem accounts_call (c : Console.Call) :
    Accounts toBoard (call c : Exec κ δ c.Answer) :=
  (served_call c).accounts

variable [Peripheral δ] [OrderlyPeripheral δ]

/-- A read accounts for what a device may have done about it. -/
theorem accounts_read (a : Word) :
    Accounts toBoard (read a : Exec κ δ Word) :=
  (served_read a).accounts

/-- So does a write. -/
theorem accounts_write (a w : Word) :
    Accounts toBoard (write a w : Exec κ δ Unit) :=
  (served_write a w).accounts

/-- So does whatever the machine makes of them. -/
theorem conserved_accounted :
    Conserved fun m m' : Machine κ δ => Accounted m.toBoard m'.toBoard where
  refl m := .refl m.toBoard
  trans := .trans
  remark h m := .remark h m.toBoard
  counted w m := .counted (m.core.pc - 1) (Instr.decode w) m.toBoard
  setReg r w m := .change (.setReg r w) m.toBoard
  setPc w m := .change (.setPc w) m.toBoard
  stop m := .refl m.toBoard
  read := accounts_read
  write := accounts_write
  put b := accounts_call (.write b)
  flush := accounts_call .flush

/-- A run accounts for all of its steps, and for its opening and its
close. -/
theorem Ends.accounted {m m' : Machine κ δ} {p : Progress}
    (h : Ends m p m') : Accounted m.toBoard m'.toBoard := by
  obtain ⟨-, limit, hlimit⟩ := h
  have hstart : Accounted m.toBoard m.start.toBoard :=
    .remark rfl m.toBoard
  have hrun := hstart.trans
    (conserved_accounted.advance accounts_setCond (accounts_call .read)
      limit m.start)
  rw [hlimit] at hrun
  exact hrun

-- =============================================================== operations

/-- Single operations of a host account for themselves, but for the one that
counts an instruction that was never executed. -/
theorem accounts_operate {op : Operation δ}
    (hattach : ∀ d addrs, op ≠ .attach d addrs) (hown : op ≠ .countInstr) :
    Accounts toBoard (operate op : Exec κ δ Answer) := by
  cases op with
  | attach d addrs => exact absurd rfl (hattach d addrs)
  | countInstr => exact absurd rfl hown
  | load image => exact fun m => .load image m.toBoard
  | getReg r => exact fun m => .refl m.toBoard
  | peek a => exact fun m => .refl m.toBoard
  | setReg r w => exact fun m => .change (.setReg r w) m.toBoard
  | setPc w => exact fun m => .change (.setPc w) m.toBoard
  | setCond c => exact fun m => .change (.setCond c) m.toBoard
  | poke a w => exact fun m => .change (.poke a w) m.toBoard
  | read a => exact accounts_answer (accounts_read a) .word
  | write a w =>
      exact accounts_answer (accounts_write a w) fun _ => .done
  | fetch => exact accounts_answer conserved_accounted.fetch .word
  -- `conserved_accounted` leaves open the flags and the wait for a key
  | execute w =>
      have hread : Accounts toBoard (call .read : Exec κ δ Byte) :=
        accounts_call .read
      have hexecute :=
        conserved_accounted.execute w (fun _ => accounts_setCond) fun _ =>
          hread
      exact accounts_answer hexecute .status
  | step =>
      have hread : Accounts toBoard (call .read : Exec κ δ Byte) :=
        accounts_call .read
      have hstep := conserved_accounted.step accounts_setCond hread
      exact accounts_answer hstep .status

/-- So do all of his calls. -/
theorem Returns.accounted {m m' : Machine κ δ} {c : Call δ}
    (h : Returns m c m') (hown : c ≠ .operate .countInstr) :
    Accounted m.toBoard m'.toBoard := by
  cases h with
  | @operate op hop =>
      have hop' : op ≠ .countInstr := fun h => hown (h ▸ rfl)
      exact accounts_operate hop hop' m
  | loadEncoded bytes =>
      unfold Machine.loadEncoded
      cases Image.ofBytes bytes with
      | error e => exact .refl m.toBoard
      | ok image => exact .load image m.toBoard
  | loadFrom v path => exact accounts_loadFrom v path m
  | run h => exact h.accounted
  | @runAt a _ _ h =>
      have hpc : Accounted m.toBoard (m.toBoard.setPc a) :=
        .change (.setPc a) m.toBoard
      exact hpc.trans h.accounted

-- ============================================================= the sessions

/-- Calls of a host, one after the other, the console being anybody's in
between. -/
inductive Session (m : Machine κ δ) :
    List (Call δ) → Machine κ δ → Prop where
  | opened : Session m [] m
  | call {calls : List (Call δ)} {c : Call δ} {m₁ m₂ : Machine κ δ}
      (h : Session m calls m₁) (hreturns : Returns m₁ c m₂) :
      Session m (calls ++ [c]) m₂
  | shared {calls : List (Call δ)} {m₁ : Machine κ δ} (console : κ)
      (h : Session m calls m₁) : Session m calls { m₁ with console }

/-- And so does a session of calls, by induction on it. -/
theorem Session.accounted {m m' : Machine κ δ} {calls : List (Call δ)}
    (h : Session m calls m') (hown : .operate .countInstr ∉ calls) :
    Accounted m.toBoard m'.toBoard := by
  induction h with
  | opened => exact .refl m.toBoard
  | @call calls c m₁ m₂ _ hreturns ih =>
      rw [List.mem_append, List.mem_singleton, not_or] at hown
      have hc : c ≠ .operate .countInstr := fun h => hown.2 h.symm
      exact (ih hown.1).trans (hreturns.accounted hc)
  | shared console _ ih => exact ih hown

/-- In a session in which the host does not count instructions himself,
a journal of the finest level gains records that restore the memory, the
registers and the program counter from those before, and that announce as
many instructions as were counted. -/
theorem journal_restores {m m' : Machine κ δ} {calls : List (Call δ)}
    (h : Session m calls m') (hown : .operate .countInstr ∉ calls)
    (hjournal : m.journal.finest = some .trace) :
    ∃ rs, m'.journal.records.toList = m.journal.records.toList ++ rs
      ∧ Record.replay rs m.core.saved = m'.core.saved
      ∧ m'.core.executed
          = m.core.executed + rs.countP Record.isExecuting := by
  obtain ⟨rs, hnoted, hsaved, hcount⟩ := h.accounted hown
  refine ⟨rs, ?_, hsaved, hcount⟩
  rw [hnoted]
  exact records_foldl_note rs hjournal

/-- A machine that keeps all records, and has no key to give. -/
def observed : Machine Buffered Empty := new {} { finest := some .trace }

/-- A subroutine is called and asks for a key, in vain; then somebody
looks at the keyboard. -/
def observation : List (Call Empty) :=
  [.operate (.load ⟨Core.entry, [0x4801, 0, 0xf020]⟩), .operate .step,
    .operate .step, .operate (.read Keyboard.status)]

/-- Two steps, of which the second fails, and a look at the keyboard: what
they did is on record. -/
theorem journal_restores_observed :
    ∃ m' rs, Session observed observation m' ∧ m'.core.pc = 0x3003
      ∧ m'.core.executed = 2
      ∧ m'.journal.records.toList = rs
      ∧ Record.replay rs observed.core.saved = m'.core.saved
      ∧ m'.core.executed = rs.countP Record.isExecuting := by
  let after (op : Operation Empty) (m : Machine Buffered Empty) :=
    Console.after ((operate op).run m)
  let loaded := after (.load ⟨Core.entry, [0x4801, 0, 0xf020]⟩) observed
  let stepped := after .step loaded
  let failed := after .step stepped
  have hload : Returns observed
      (.operate (.load ⟨Core.entry, [0x4801, 0, 0xf020]⟩)) loaded :=
    .operate nofun
  have hstep : Returns loaded (.operate .step) stepped := .operate nofun
  have hfail : Returns stepped (.operate .step) failed := .operate nofun
  have hlook : Returns failed (.operate (.read Keyboard.status))
      (after (.read Keyboard.status) failed) :=
    .operate nofun
  have h : Session observed observation
      (after (.read Keyboard.status) failed) :=
    (((Session.opened.call hload).call hstep).call hfail).call hlook
  have hown : .operate .countInstr ∉ observation := by
    simp [observation]
  obtain ⟨rs, hrecords, hsaved, hcount⟩ := journal_restores h hown rfl
  have hempty : observed.journal.records.toList = [] := rfl
  have hzero : observed.core.executed = 0 := rfl
  rw [hempty, List.nil_append] at hrecords
  rw [hzero, Nat.zero_add] at hcount
  refine ⟨_, rs, h, ?_, ?_, hrecords, hsaved, hcount⟩
  · decide +kernel
  · decide +kernel

end Machine

end Lc3
