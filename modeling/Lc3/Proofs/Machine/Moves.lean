/-
What a host does with a machine, move by move. Most moves are operations
of the machine; besides, a program may come as bytes or out of a file, a
run may be carried on for some time, and the console is shared, so that
the host can type on it or close it in between. A session of moves is a
list, and each of them comes to an outcome of its own, which the next one
starts from whether it was a success or a failure.

Machines that go in step do so move by move as well (`Lockstep.make`,
`Lockstep.outcomes`).
-/
import Lc3.Proofs.Machine.Twin
import Lc3.Machine.Operation
import Lc3.Console.Tap
import Mathlib.Data.List.Forall2

namespace Lc3.Machine

open EStateM (Result)

variable {κ δ α : Type}

-- ============================================================== the moves

inductive Move (κ δ : Type) where
  | operate (op : Operation δ)
  | loadEncoded (bytes : List Byte)
  | loadFrom (v : Volume) (path : String)
  /-- A run, and no more than so many steps of it. -/
  | run (limit : Nat)
  | share (f : κ → κ)

/-- What a host is told when a move comes to its end. -/
inductive Reply where
  | answer (a : Answer)
  | refused (e : Image.Error)
  | progress (p : Progress)

namespace Move

/-- Puts no device on the bus. -/
def Plain : Move κ δ → Prop
  | operate (.attach ..) => False
  | _ => True

/-- Looks at no cell itself but through the bus, or at another one. -/
def Overlooks (a : Word) : Move κ δ → Prop
  | operate (.peek c) => c ≠ a
  | _ => True

/-- The move on a console with a tap on it. -/
def tapped : Move κ δ → Move (Tap κ) δ
  | operate op => operate op
  | loadEncoded bytes => loadEncoded bytes
  | loadFrom v path => loadFrom v path
  | run limit => run limit
  | share f => share fun t => { t with inner := f t.inner }

/-- A tap makes no difference to what is put on the bus. -/
theorem Plain.tapped {move : Move κ δ} (h : move.Plain) :
    move.tapped.Plain := by
  cases move with
  | operate op => cases op <;> exact h
  | _ => exact h

/-- Nor does it to which cells are looked at. -/
theorem Overlooks.tapped {a : Word} {move : Move κ δ}
    (h : move.Overlooks a) : move.tapped.Overlooks a := by
  cases move with
  | operate op => cases op <;> exact h
  | _ => exact h

end Move

variable [Console κ] [Peripheral δ]

/-- Opens a run and carries it on by so many steps. -/
def runFor (limit : Nat) : Exec κ δ Progress := fun m =>
  .ok (advance limit m.start).1 (advance limit m.start).2

/-- Bytes that are no image are refused, which is no failure. -/
def takeBytes (bytes : List Byte) : Exec κ δ Reply := fun m =>
  match m.loadEncoded bytes with
  | .ok m' => .ok (.answer .done) m'
  | .error e => .ok (.refused e) m

/-- What a move does to a machine, and what the host is told of it. -/
def make : Move κ δ → Exec κ δ Reply
  | .operate op => return .answer (← operate op)
  | .loadEncoded bytes => takeBytes bytes
  | .loadFrom v path => do
      loadFrom v path
      return .answer .done
  | .run limit => return .progress (← runFor limit)
  | .share f => do
      modify fun m => { m with console := f m.console }
      return .answer .done

/-- What each of the moves comes to, one after the other. -/
def outcomes : List (Move κ δ) → Machine κ δ →
    List (Result Failure (Machine κ δ) Reply)
  | [], _ => []
  | move :: moves, m =>
      let r := (make move).run m
      r :: outcomes moves (Console.after r)

/-- The machine after these moves. -/
def played (moves : List (Move κ δ)) (m : Machine κ δ) : Machine κ δ :=
  moves.foldl (fun m move => Console.after ((make move).run m)) m

-- ============================================================ in lockstep

omit [Console κ] [Peripheral δ] in
/-- What agrees still does so when it is told in other words. -/
theorem agree_answer {R : Machine κ δ → Machine κ δ → Prop}
    {m n : Machine κ δ} {β : Type} {p q : Exec κ δ α}
    (h : Agree R (p.run m) (q.run n)) (f : α → β) :
    Agree R ((do return f (← p) : Exec κ δ β).run m)
      ((do return f (← q) : Exec κ δ β).run n) :=
  h.bind fun x _ _ _ h' => .ok (f x) h'

namespace Lockstep

section Runs

variable {κ' δ' : Type} [Console κ'] [Peripheral δ']
  {R : Machine κ δ → Machine κ' δ' → Prop} {m : Machine κ δ}
  {n : Machine κ' δ'}

/-- Opening a run is an act, with a look at the program counter. -/
theorem start (hR : Lockstep R) (hmn : R m n) : R m.start n.start := by
  have hpc : m.core.pc = n.core.pc := congrArg Sight.pc (hR.sight hmn)
  unfold Machine.start
  rw [hpc]
  exact hR.apply (.note (.started n.core.pc)) hmn

/-- The record that closes a run has the count. -/
theorem finish (hR : Lockstep R)
    (hcount : m.core.executed = n.core.executed) (hmn : R m n) :
    R m.finish n.finish := by
  unfold Machine.finish
  rw [hcount]
  exact hR.apply (.note (.halted n.core.executed)) hmn

/-- Machines in step make their runs in step: each step ends alike on both,
and so does the first that does not go on. -/
theorem advance (hR : Lockstep R) (hstrings : StringsAgree R)
    (hcount : ∀ m n, R m n → m.core.executed = n.core.executed)
    (limit : Nat) (hmn : R m n) :
    (advance limit m).1 = (advance limit n).1
      ∧ R (advance limit m).2 (advance limit n).2 := by
  induction limit generalizing m n with
  | zero => exact ⟨rfl, hmn⟩
  | succ limit ih =>
      have hstep := twin_step.agree hR hstrings hmn
      rw [Machine.advance, Machine.advance]
      generalize step.run m = r at hstep
      generalize step.run n = r' at hstep
      cases hstep with
      | error f h => exact ⟨rfl, h⟩
      | @ok status m₁ n₁ h =>
          cases status with
          | running => exact ih h
          | halted => exact ⟨rfl, hR.finish (hcount m₁ n₁ h) h⟩

/-- So a run that is opened and carried on comes to the same. -/
theorem runFor (hR : Lockstep R) (hstrings : StringsAgree R)
    (hcount : ∀ m n, R m n → m.core.executed = n.core.executed)
    (limit : Nat) (hmn : R m n) :
    Agree R ((runFor limit).run m) ((runFor limit).run n) := by
  obtain ⟨hp, hrest⟩ :=
    hR.advance hstrings hcount limit (hR.start hmn)
  show Agree R (.ok (Machine.advance limit m.start).1 _)
    (.ok (Machine.advance limit n.start).1 _)
  rw [hp]
  exact .ok _ hrest

end Runs

variable {R : Machine κ δ → Machine κ δ → Prop}

/-- An image is acts, one for each cell and one for the note. -/
theorem load (hR : Lockstep R) (image : Image) {m n : Machine κ δ}
    (hmn : R m n) :
    R { m with toBoard := m.toBoard.load image }
      { n with toBoard := n.toBoard.load image } := by
  have hcells (cells : List (Word × Word)) {m n : Machine κ δ}
      (hmn : R m n) :
      R { m with
          toBoard := cells.foldl (fun b c => b.poke c.1 c.2) m.toBoard }
        { n with
          toBoard :=
            cells.foldl (fun b c => b.poke c.1 c.2) n.toBoard } := by
    induction cells generalizing m n with
    | nil => exact hmn
    | cons cell cells ih => exact ih (hR.apply (.poke cell.1 cell.2) hmn)
  exact hR.apply (.note (.imageLoaded image.words.length image.origin))
    (hcells image.cells hmn)

/-- Each operation of a host is made of acts, looks and accesses. A look at
a cell past the bus is not, and has to be asked for by itself. -/
theorem operate (hR : Lockstep R) (hstrings : StringsAgree R)
    {op : Operation δ} (hplain : (Move.operate op : Move κ δ).Plain)
    {m n : Machine κ δ} (hmn : R m n)
    (hpeek : ∀ a, op = .peek a → m.core.peek a = n.core.peek a) :
    Agree R ((operate op).run m) ((operate op).run n) := by
  cases op with
  | attach d addrs => exact absurd hplain id
  | load image => exact .ok Answer.done (hR.load image hmn)
  | getReg r =>
      exact agree_answer ((twin_getReg r).agree hR hstrings hmn) Answer.word
  | setReg r w => exact .ok Answer.done (hR.apply (.setReg r w) hmn)
  | setPc w => exact .ok Answer.done (hR.apply (.setPc w) hmn)
  | setCond c => exact .ok Answer.done (hR.apply (.setCond c) hmn)
  | countInstr => exact .ok Answer.done (hR.apply .countInstr hmn)
  | poke a w => exact .ok Answer.done (hR.apply (.poke a w) hmn)
  | read a => exact agree_answer (hR.read a hmn) Answer.word
  | write a w =>
      exact agree_answer (hR.write a w hmn) fun _ => Answer.done
  -- a peek shows what the relation may hide, so it has to be the same
  | peek a =>
      show Agree R (.ok (Answer.word (m.core.peek a)) m)
        (.ok (Answer.word (n.core.peek a)) n)
      rw [hpeek a rfl]
      exact .ok _ hmn
  | fetch => exact agree_answer (twin_fetch.agree hR hstrings hmn) Answer.word
  | execute w =>
      exact agree_answer ((twin_execute w).agree hR hstrings hmn)
        Answer.status
  | step =>
      exact agree_answer (twin_step.agree hR hstrings hmn) Answer.status

/-- Whether bytes are an image is a matter of the bytes. -/
theorem takeBytes (hR : Lockstep R) (bytes : List Byte)
    {m n : Machine κ δ} (hmn : R m n) :
    Agree R ((takeBytes bytes).run m) ((takeBytes bytes).run n) := by
  unfold Machine.takeBytes loadEncoded
  cases Image.ofBytes bytes with
  | error e => exact .ok (Reply.refused e) hmn
  | ok image => exact .ok (Reply.answer .done) (hR.load image hmn)

/-- So is what a file holds a matter of the volume. -/
theorem loadFrom (hR : Lockstep R) (v : Volume) (path : String)
    {m n : Machine κ δ} (hmn : R m n) :
    Agree R ((loadFrom v path).run m) ((loadFrom v path).run n) := by
  unfold Machine.loadFrom readImage
  cases Image.ofContents (v.read path) with
  | error e => exact .error _ hmn
  | ok image =>
      have hread :=
        hR.apply (.note (.imageRead image.words.length image.origin path))
          hmn
      exact .ok () (hR.load image hread)

/-- Each move comes to the same on both, and leaves the machines in step. -/
theorem make (hR : Lockstep R) (hstrings : StringsAgree R)
    (hcount : ∀ m n, R m n → m.core.executed = n.core.executed)
    (hshare : ∀ (f : κ → κ) (m n : Machine κ δ), R m n →
      R { m with console := f m.console } { n with console := f n.console })
    {move : Move κ δ} (hplain : move.Plain) {m n : Machine κ δ}
    (hmn : R m n)
    (hpeek : ∀ a, move = .operate (.peek a) →
      m.core.peek a = n.core.peek a) :
    Agree R ((make move).run m) ((make move).run n) := by
  cases move with
  | operate op =>
      have hop := hR.operate hstrings hplain hmn fun a h =>
        hpeek a (congrArg Move.operate h)
      exact agree_answer hop Reply.answer
  | loadEncoded bytes => exact hR.takeBytes bytes hmn
  | loadFrom v path =>
      exact agree_answer (hR.loadFrom v path hmn) fun _ =>
        Reply.answer .done
  | run limit =>
      exact agree_answer (hR.runFor hstrings hcount limit hmn)
        Reply.progress
  | share f => exact .ok (Reply.answer .done) (hshare f m n hmn)

/-- Related machines come to agreeing outcomes, move by move. -/
theorem outcomes (hR : Lockstep R) (hstrings : StringsAgree R)
    (hcount : ∀ m n, R m n → m.core.executed = n.core.executed)
    (hshare : ∀ (f : κ → κ) (m n : Machine κ δ), R m n →
      R { m with console := f m.console } { n with console := f n.console })
    {moves : List (Move κ δ)} (hplain : ∀ move ∈ moves, move.Plain)
    (hpeek : ∀ a, .operate (.peek a) ∈ moves → ∀ m n, R m n →
      m.core.peek a = n.core.peek a)
    {m n : Machine κ δ} (hmn : R m n) :
    List.Forall₂ (Agree R) (outcomes moves m) (outcomes moves n) := by
  induction moves generalizing m n with
  | nil => exact .nil
  | cons move moves ih =>
      rw [List.forall_mem_cons] at hplain
      have hfirst := hR.make hstrings hcount hshare hplain.1 hmn fun a h =>
        hpeek a (h ▸ List.mem_cons_self) m n hmn
      have hrest (a : Word) (h : .operate (.peek a) ∈ moves) :=
        hpeek a (List.mem_cons_of_mem move h)
      exact .cons hfirst (ih hplain.2 hrest hfirst.after)

end Lockstep

end Lc3.Machine
