/-
One computation on two machines. The machines may differ in what their
consoles and devices are, and in their states; the computation is the
same, because it is made of the same few acts in the same order: looking
at a register, changing one, a read or a write on the bus, a call of the
console.

`Twin p q` says that `p` and `q` are made in this way, and everything that
a machine does to execute instructions is its own twin (`twin_step`). It
leaves the machines open. What relates them is chosen for each question
anew, and has to be shown for the single acts alone: `Twin.agree` carries
it over to a whole step.

The string routines count as one act. How often their loop may go round is
taken from the console, and two consoles need not promise the same.
-/
import Lc3.Proofs.Machine.Routines

namespace Lc3.Machine

variable {κ κ' δ δ' : Type}

-- =============================================================== the acts

/-- A change that asks neither the bus nor the console. -/
inductive Act where
  | note (r : Record)
  | setPc (w : Word)
  | setReg (r : Reg) (w : Word)
  | setCond (c : Cond)
  | countInstr
  | poke (a w : Word)
  | stop

def Act.apply : Act → Machine κ δ → Machine κ δ
  | note r, m => { m with toBoard := m.toBoard.note r }
  | setPc w, m => { m with toBoard := m.toBoard.setPc w }
  | setReg r w, m => { m with toBoard := m.toBoard.setReg r w }
  | setCond c, m => { m with toBoard := m.toBoard.setCond c }
  | countInstr, m => { m with toBoard := m.toBoard.countInstr }
  | poke a w, m => { m with toBoard := m.toBoard.poke a w }
  | stop, m => { m with running := false }

/-- No act has to do with the devices. -/
theorem devices_apply (a : Act) (m : Machine κ δ) :
    (a.apply m).devices = m.devices := by
  cases a <;> rfl

def act (a : Act) : Exec κ δ Unit := modify a.apply

/-- What a computation may look at without asking the bus. -/
structure Sight where
  regs : Registers
  pc : Word
  cond : Option Cond
  running : Bool

def sight (m : Machine κ δ) : Sight where
  regs := m.core.regs
  pc := m.core.pc
  cond := m.core.cond
  running := m.running

def look {α : Type} (f : Sight → α) : Exec κ δ α :=
  return f (← get).sight

/-- A call that the machine makes itself. Polling is left to devices. -/
def Direct : Console.Call → Prop
  | .poll _ => False
  | _ => True

variable [Console κ] [Console κ'] [Peripheral δ] [Peripheral δ']

/-- The same computation, here and there. -/
inductive Twin : {α : Type} → Exec κ δ α → Exec κ' δ' α → Prop where
  | pure {α : Type} (x : α) : Twin (pure x) (pure x)
  | bind {α β : Type} {p : Exec κ δ α} {q : Exec κ' δ' α}
      {f : α → Exec κ δ β} {g : α → Exec κ' δ' β} (h : Twin p q)
      (hf : ∀ x, Twin (f x) (g x)) : Twin (p >>= f) (q >>= g)
  | look {α : Type} (f : Sight → α) : Twin (look f) (look f)
  | act (a : Act) : Twin (act a) (act a)
  | read (a : Word) : Twin (read a) (read a)
  | write (a w : Word) : Twin (write a w) (write a w)
  | call (c : Console.Call) (hc : Direct c) : Twin (call c) (call c)
  | putString (bytes : Word → List Byte) :
      Twin (putString bytes) (putString bytes)

-- ======================================================= related machines

/-- Machines related by `R` go in step: they do every single act alike,
and are related after it. -/
structure Lockstep (R : Machine κ δ → Machine κ' δ' → Prop) : Prop where
  sight {m n} : R m n → m.sight = n.sight
  apply {m n} (a : Act) : R m n → R (a.apply m) (a.apply n)
  read {m n} (a : Word) :
    R m n → Agree R ((read a).run m) ((read a).run n)
  write {m n} (a w : Word) :
    R m n → Agree R ((write a w).run m) ((write a w).run n)
  call {m n} (c : Console.Call) :
    R m n → Agree R ((call c).run m) ((call c).run n)

/-- And they put out strings alike, too. -/
def StringsAgree (R : Machine κ δ → Machine κ' δ' → Prop) : Prop :=
  ∀ (bytes : Word → List Byte) (m : Machine κ δ) (n : Machine κ' δ'),
    R m n → Agree R ((putString bytes).run m) ((putString bytes).run n)

/-- What is so of the single acts is so of everything that is made of them.
The induction follows how the two computations were made. -/
theorem Twin.agree {R : Machine κ δ → Machine κ' δ' → Prop}
    (hR : Lockstep R) (hstrings : StringsAgree R) {α : Type}
    {p : Exec κ δ α} {q : Exec κ' δ' α} (h : Twin p q) {m : Machine κ δ}
    {n : Machine κ' δ'} (hmn : R m n) : Agree R (p.run m) (q.run n) := by
  induction h generalizing m n with
  | pure x => exact .ok x hmn
  | bind _ _ ih ihf =>
      exact (ih hmn).bind fun x _ _ _ h => ihf x h
  | look f =>
      show Agree R (.ok (f m.sight) m) (.ok (f n.sight) n)
      rw [hR.sight hmn]
      exact .ok _ hmn
  | act a => exact .ok () (hR.apply a hmn)
  | read a => exact hR.read a hmn
  | write a w => exact hR.write a w hmn
  | call c _ => exact hR.call c hmn
  | putString bytes => exact hstrings bytes m n hmn

-- ================================================ what machines do, twice

theorem twin_getPc :
    Twin (getPc : Exec κ δ Word) (getPc : Exec κ' δ' Word) :=
  .look Sight.pc

theorem twin_getReg (r : Reg) :
    Twin (getReg r : Exec κ δ Word) (getReg r : Exec κ' δ' Word) :=
  .look fun s => s.regs.get r

theorem twin_note (r : Record) :
    Twin (note r : Exec κ δ Unit) (note r : Exec κ' δ' Unit) :=
  .act (.note r)

theorem twin_setPc (w : Word) :
    Twin (setPc w : Exec κ δ Unit) (setPc w : Exec κ' δ' Unit) :=
  .act (.setPc w)

theorem twin_setReg (r : Reg) (w : Word) :
    Twin (setReg r w : Exec κ δ Unit) (setReg r w : Exec κ' δ' Unit) :=
  .act (.setReg r w)

theorem twin_proceed {p : Exec κ δ Unit} {q : Exec κ' δ' Unit}
    (h : Twin p q) : Twin (proceed p) (proceed q) :=
  h.bind fun _ => .pure Status.running

/-- An operand is a register or a number, on both sides the same. -/
theorem twin_operand (src : Operand) :
    Twin (operand src : Exec κ δ Word) (operand src : Exec κ' δ' Word) := by
  cases src with
  | reg r => exact twin_getReg r
  | imm w => exact .pure w

theorem twin_pcRelative (offset : Word) :
    Twin (pcRelative offset : Exec κ δ Word)
      (pcRelative offset : Exec κ' δ' Word) :=
  twin_getPc.bind fun pc => .pure (pc + offset)

theorem twin_baseRelative (base : Reg) (offset : Word) :
    Twin (baseRelative base offset : Exec κ δ Word)
      (baseRelative base offset : Exec κ' δ' Word) :=
  (twin_getReg base).bind fun w => .pure (w + offset)

theorem twin_setResult (dr : Reg) (w : Word) :
    Twin (setResult dr w : Exec κ δ Unit)
      (setResult dr w : Exec κ' δ' Unit) :=
  (twin_setReg dr w).bind fun _ => .act (.setCond (.ofWord w))

omit [Console κ] [Peripheral δ] in
/-- What a branch depends on can be seen without asking the bus. -/
theorem branch_eq (n z p : Bool) (offset : Word) :
    (branch n z p offset : Exec κ δ Unit) =
      (do
        if (← look Sight.cond).any (·.selectedBy n z p) then
          setPc (← pcRelative offset)) := by
  funext m
  refine (run_branch n z p offset m).trans ?_
  unfold Core.branch
  show _ = EStateM.run (if m.core.cond.any _ then _ else _) m
  cases m.core.cond.any (·.selectedBy n z p) <;> rfl

/-- So it is taken on both sides or on neither. -/
theorem twin_branch (n z p : Bool) (offset : Word) :
    Twin (branch n z p offset : Exec κ δ Unit)
      (branch n z p offset : Exec κ' δ' Unit) := by
  rw [branch_eq, branch_eq]
  refine .bind (.look Sight.cond) fun cond => ?_
  cases cond.any (·.selectedBy n z p) with
  | false => exact .pure ()
  | true => exact (twin_pcRelative offset).bind twin_setPc

/-- The way back is left on both sides before the target is looked up. -/
theorem twin_callSubroutine {target : Exec κ δ Word}
    {target' : Exec κ' δ' Word} (h : Twin target target') :
    Twin (callSubroutine target) (callSubroutine target') :=
  twin_getPc.bind fun pc =>
    (twin_setReg Instr.linkReg pc).bind fun _ => h.bind twin_setPc

theorem twin_ignore (op : Opcode) :
    Twin (ignore op : Exec κ δ Unit) (ignore op : Exec κ' δ' Unit) :=
  twin_getPc.bind fun pc => twin_note (.notImplemented op (pc - 1))

theorem twin_store {p : Exec κ δ Word} {q : Exec κ' δ' Word}
    (h : Twin p q) (sr : Reg) :
    Twin (do write (← p) (← getReg sr)) (do write (← q) (← getReg sr)) :=
  h.bind fun a => (twin_getReg sr).bind fun w => .write a w

-- ================================================================== traps

omit [Peripheral δ] in
/-- A text goes out byte by byte. -/
theorem say_cons (b : Byte) (bs : List Byte) :
    (say (b :: bs) : Exec κ δ Unit) = (do call (.write b); say bs) := by
  funext m
  show (say (b :: bs)).run m = (call (.write b) >>= fun _ => say bs).run m
  rw [run_say, Console.writeAll, EStateM.run_bind, EStateM.run_bind,
    run_call]
  cases (Console.call (.write b)).run m.console with
  | error e console => rfl
  | ok x console => exact (run_say bs { m with console }).symm

/-- A text is calls, one for each byte. -/
theorem twin_say (bytes : List Byte) :
    Twin (say bytes : Exec κ δ Unit) (say bytes : Exec κ' δ' Unit) := by
  induction bytes with
  | nil => exact .pure ()
  | cons b bs ih =>
      rw [say_cons, say_cons]
      exact .bind (.call (.write b) trivial) fun _ => ih

namespace Lockstep

variable {R : Machine κ δ → Machine κ' δ' → Prop}

/-- Machines in step put out a text alike, or fail at the same byte. -/
theorem say (hR : Lockstep R) (bytes : List Byte) {m : Machine κ δ}
    {n : Machine κ' δ'} (hmn : R m n) :
    Agree R ((say bytes).run m) ((say bytes).run n) := by
  induction bytes generalizing m n with
  | nil => exact .ok () hmn
  | cons b bs ih =>
      rw [say_cons, say_cons]
      exact (hR.call (.write b) hmn).bind fun _ _ _ _ => ih

/-- Given one limit, they also go through the loop of a string routine
alike. -/
theorem walk (hR : Lockstep R) (bytes : Word → List Byte) (limit : Nat)
    (a : Word) {m : Machine κ δ} {n : Machine κ' δ'} (hmn : R m n) :
    Agree R ((walk bytes limit a).run m) ((walk bytes limit a).run n) := by
  induction limit generalizing a m n with
  | zero => exact .error Failure.endless hmn
  | succ limit ih =>
      refine (hR.read a hmn).bind fun w m₁ n₁ _ h₁ => ?_
      show Agree R (EStateM.run (if w = 0 then _ else _) m₁)
        (EStateM.run (if w = 0 then _ else _) n₁)
      by_cases hw : w = 0
      · rw [if_pos hw, if_pos hw]
        exact .ok () h₁
      · rw [if_neg hw, if_neg hw]
        exact (hR.say (bytes w) h₁).bind fun _ _ _ _ => ih (a + 1)

/-- Where the loops may go round equally often, they do. -/
theorem strings (hR : Lockstep R)
    (hlimit : ∀ m n, R m n → walkLimit m = walkLimit n) :
    StringsAgree R := by
  -- `putString` takes its limit from the console, then it is a `walk`
  intro bytes m n hmn
  have hreg : m.core.reg 0 = n.core.reg 0 :=
    congrArg (fun s => s.regs.get 0) (hR.sight hmn)
  rw [run_putString, run_putString, hlimit m n hmn, hreg]
  exact (hR.walk bytes _ _ hmn).bind fun _ _ _ _ => hR.call .flush

end Lockstep

-- ============================================================ other devices

/-- Machines can be fitted with other devices that answer as their own do,
and may have something of their own to keep. -/
structure Refit {ι : Type} (fit : ι → Machine κ δ → Machine κ δ') :
    Prop where
  sight (x m) : (fit x m).sight = m.sight
  console (x m) : (fit x m).console = m.console
  apply (a : Act) (x m) : a.apply (fit x m) = fit x (a.apply m)
  withConsole (c : κ) (x m) :
    { fit x m with console := c } = fit x { m with console := c }
  read (a : Word) (x m) : ∃ y,
    (read a).run (fit x m) = mapState (fit y) ((read a).run m)
  write (a w : Word) (x m) : ∃ y,
    (write a w).run (fit x m) = mapState (fit y) ((write a w).run m)

namespace Refit

variable {ι : Type} {fit : ι → Machine κ δ → Machine κ δ'}

theorem run_call (h : Refit fit) (c : Console.Call) (x : ι)
    (m : Machine κ δ) :
    (call c).run (fit x m) = mapState (fit x) ((call c).run m) := by
  rw [Machine.run_call, Machine.run_call, h.console]
  cases (Console.call c).run m.console with
  | ok answer s =>
      exact congrArg (EStateM.Result.ok answer) (h.withConsole s x m)
  | error e s =>
      exact congrArg (EStateM.Result.error _) (h.withConsole s x m)

/-- A machine that was refitted stays in step with what it was, and what the
fitting keeps is all that can differ. -/
theorem lockstep (h : Refit fit) :
    Lockstep fun (m : Machine κ δ) n => ∃ x, n = fit x m where
  sight {m n} hn := by
    obtain ⟨x, rfl⟩ := hn
    exact (h.sight x m).symm
  apply {m n} a hn := by
    obtain ⟨x, rfl⟩ := hn
    exact ⟨x, h.apply a x m⟩
  read {m n} a hn := by
    obtain ⟨x, rfl⟩ := hn
    obtain ⟨y, hread⟩ := h.read a x m
    rw [hread]
    exact agree_mapState (fun _ => ⟨y, rfl⟩) _
  write {m n} a w hn := by
    obtain ⟨x, rfl⟩ := hn
    obtain ⟨y, hwrite⟩ := h.write a w x m
    rw [hwrite]
    exact agree_mapState (fun _ => ⟨y, rfl⟩) _
  call {m n} c hn := by
    obtain ⟨x, rfl⟩ := hn
    rw [h.run_call]
    exact agree_mapState (fun _ => ⟨x, rfl⟩) _

/-- What is done alike is done alike with the other devices. -/
theorem agree (h : Refit fit) {α : Type} {p : Exec κ δ α}
    {q : Exec κ δ' α} (hpq : Twin p q) (x : ι) (m : Machine κ δ) :
    Agree (fun m n => ∃ x, n = fit x m) (p.run m) (q.run (fit x m)) := by
  refine hpq.agree h.lockstep (h.lockstep.strings ?_) ⟨x, rfl⟩
  rintro m n ⟨x, rfl⟩
  unfold walkLimit
  rw [h.console]

end Refit

/-- The routines are made of calls, looks and acts, and of strings, which
are one act here. -/
theorem twin_routine (t : TrapRoutine) :
    Twin (routine t : Exec κ δ Status) (routine t : Exec κ' δ' Status) := by
  -- each routine by its calls, and the string routines by their loop
  cases t with
  | getc =>
      exact twin_proceed <|
        .bind (.call .read trivial) fun key =>
          twin_setReg 0 (Word.ofByte key)
  | out =>
      exact twin_proceed <|
        .bind ((twin_getReg 0).bind fun w => .pure w.low) fun b =>
          .bind (.call (.write b) trivial) fun _ => .call .flush trivial
  | puts => exact twin_proceed (.putString single)
  | input =>
      exact twin_proceed <|
        (twin_say prompt).bind fun _ =>
          .bind (.call .flush trivial) fun _ =>
            .bind (.call .read trivial) fun key =>
              .bind (.call (.write key) trivial) fun _ =>
                .bind (.call .flush trivial) fun _ =>
                  twin_setReg 0 (Word.ofByte key)
  | putsp => exact twin_proceed (.putString packed)
  | halt =>
      exact .bind (.bind (.call .flush trivial) fun _ => .act .stop)
        fun _ => .pure Status.halted

/-- A vector leads to the same routine on both sides. -/
theorem twin_trap (v : Byte) :
    Twin (trap v : Exec κ δ Status) (trap v : Exec κ' δ' Status) := by
  unfold trap
  cases TrapRoutine.ofVector? v with
  | none => exact twin_proceed (twin_note (.trapUnknown v))
  | some t => exact (twin_note (.trapCalled t)).bind fun _ => twin_routine t

-- =========================================================== instructions

/-- Each instruction is made of the same acts on both sides. -/
theorem twin_perform (i : Instr) :
    Twin (perform i : Exec κ δ Status) (perform i : Exec κ' δ' Status) := by
  cases i with
  | add dr sr src | and dr sr src =>
      exact twin_proceed <|
        (twin_getReg sr).bind fun v => (twin_operand src).bind fun w =>
          twin_setResult dr _
  | not dr sr =>
      exact twin_proceed <|
        (twin_getReg sr).bind fun v => twin_setResult dr _
  | br n z p offset => exact twin_proceed (twin_branch n z p offset)
  | jmp base => exact twin_proceed ((twin_getReg base).bind twin_setPc)
  | jsr offset =>
      exact twin_proceed (twin_callSubroutine (twin_pcRelative offset))
  | jsrr base => exact twin_proceed (twin_callSubroutine (twin_getReg base))
  | ld dr offset =>
      exact twin_proceed <|
        (twin_pcRelative offset).bind fun a => .bind (.read a)
          (twin_setResult dr)
  | ldi dr offset =>
      exact twin_proceed <|
        (twin_pcRelative offset).bind fun a => .bind (.read a) fun b =>
          .bind (.read b) (twin_setResult dr)
  | ldr dr base offset =>
      exact twin_proceed <|
        (twin_baseRelative base offset).bind fun a => .bind (.read a)
          (twin_setResult dr)
  | lea dr offset =>
      exact twin_proceed ((twin_pcRelative offset).bind (twin_setResult dr))
  | st sr offset =>
      exact twin_proceed (twin_store (twin_pcRelative offset) sr)
  | sti sr offset =>
      exact twin_proceed <|
        (twin_pcRelative offset).bind fun a => .bind (.read a) fun b =>
          (twin_getReg sr).bind fun w => .write b w
  | str sr base offset =>
      exact twin_proceed (twin_store (twin_baseRelative base offset) sr)
  | rti => exact twin_proceed (twin_ignore .rti)
  | res => exact twin_proceed (twin_ignore .res)
  | trap v => exact twin_trap v

/-- Being counted is two acts. -/
theorem twin_execute (w : Word) :
    Twin (execute w : Exec κ δ Status) (execute w : Exec κ' δ' Status) :=
  twin_getPc.bind fun pc =>
    (twin_note (.executing (pc - 1) (Instr.decode w))).bind fun _ =>
      .bind (.act .countInstr) fun _ => twin_perform (Instr.decode w)

/-- A fetch is a look, a read and an act. -/
theorem twin_fetch :
    Twin (fetch : Exec κ δ Word) (fetch : Exec κ' δ' Word) :=
  twin_getPc.bind fun pc => .bind (.read pc) fun w =>
    (twin_setPc (pc + 1)).bind fun _ => .pure w

/-- Whether the machine runs can be seen without asking the bus. -/
theorem step_eq :
    (step : Exec κ δ Status) =
      (do
        if ← look Sight.running then
          let w ← fetch
          execute w
        else return .halted) := by
  rfl

/-- A step is the same computation on all machines. This is what every
comparison of machines starts from. -/
theorem twin_step :
    Twin (step : Exec κ δ Status) (step : Exec κ' δ' Status) := by
  rw [step_eq, step_eq]
  refine .bind (.look Sight.running) fun running => ?_
  cases running with
  | false => exact .pure Status.halted
  | true => exact twin_fetch.bind twin_execute

-- ============================================== what goes through sequences

/-- What is so of a sequence if it is so of its parts. -/
structure Sequential (P : {α : Type} → Exec κ δ α → Prop) : Prop where
  pure {α : Type} (x : α) : P (pure x)
  bind {α β : Type} {p : Exec κ δ α} {f : α → Exec κ δ β} (h : P p)
    (hf : ∀ x, P (f x)) : P (p >>= f)

namespace Sequential

variable {P : {α : Type} → Exec κ δ α → Prop}

omit [Peripheral δ] in
/-- What goes through sequences holds of a text if it holds of one byte. -/
theorem say (hP : Sequential P) (hput : ∀ b, P (call (.write b)))
    (bytes : List Byte) : P (say bytes) := by
  induction bytes with
  | nil => exact hP.pure ()
  | cons b bs ih =>
      rw [say_cons]
      exact hP.bind (hput b) fun _ => ih

/-- The loop of the string routines is so, if putting out and reading
are. -/
theorem walk (hP : Sequential P)
    (hendless : P (throw .endless : Exec κ δ Unit))
    (hput : ∀ b, P (call (.write b))) (hread : ∀ a, P (read a))
    (bytes : Word → List Byte) (limit : Nat) (a : Word) :
    P (walk bytes limit a) := by
  induction limit generalizing a with
  | zero => exact hendless
  | succ limit ih =>
      refine hP.bind (hread a) fun w => ?_
      by_cases hw : w = 0
      · rw [if_pos hw]
        exact hP.pure ()
      · rw [if_neg hw]
        exact hP.bind (hP.say hput (bytes w)) fun _ => ih (a + 1)

/-- Where a computation is judged run by run, a string is its loop and a
flush. -/
theorem putString (hP : Sequential P)
    (hruns : ∀ {p : Exec κ δ Unit},
      (∀ m, ∃ q : Exec κ δ Unit, P q ∧ p.run m = q.run m) → P p)
    (hendless : P (throw .endless : Exec κ δ Unit))
    (hput : ∀ b, P (Machine.call (.write b)))
    (hflush : P (Machine.call .flush)) (hread : ∀ a, P (Machine.read a))
    (bytes : Word → List Byte) : P (Machine.putString bytes) := by
  refine hruns fun m => ⟨_, ?_, run_putString bytes m⟩
  exact hP.bind (hP.walk hendless hput hread bytes _ _) fun _ => hflush

/-- What is so of every act is so of whatever has a twin. -/
theorem twin (hP : Sequential P)
    (hlook : ∀ {α : Type} (f : Sight → α), P (look f))
    (hact : ∀ a, P (act a)) (hread : ∀ a, P (Machine.read a))
    (hwrite : ∀ a w, P (Machine.write a w))
    (hcall : ∀ c, Direct c → P (Machine.call c))
    (hstring : ∀ bytes, P (Machine.putString bytes)) {α : Type}
    {p : Exec κ δ α} {q : Exec κ' δ' α} (h : Twin p q) : P p := by
  induction h with
  | pure x => exact hP.pure x
  | bind _ _ ih ihf => exact hP.bind ih ihf
  | look f => exact hlook f
  | act a => exact hact a
  | read a => exact hread a
  | write a w => exact hwrite a w
  | call c hc => exact hcall c hc
  | putString bytes => exact hstring bytes

end Sequential

end Lc3.Machine
