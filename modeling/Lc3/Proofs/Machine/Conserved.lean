/-
What the machine conserves. A relation between the states before and
after is conserved if it can be read off the single things that a machine
does: a note, a change of a register, an access to the bus, a byte put
out. It is reflexive and transitive, and so it holds across whatever is
made of these things, a step and a run included, and no less when they
fail on the way.

Two of the single things are kept apart, because relations of interest
break with them: a result that is left in the condition, and a key that a
routine takes from the console. Where an instruction does neither, it
conserves what the rest conserves.
-/
import Lc3.Proofs.Device.Orderly
import Lc3.Proofs.Machine.Instructions
import Lc3.Proofs.Machine.Twin

namespace Lc3

variable {κ δ σ α β : Type}

-- ============================================ who sets, and who takes a key

/-- Where the action leaves a result that the condition tells of. -/
def Action.destination : Action → Option Reg
  | compute dr _ | load dr _ | loadVia dr _ => some dr
  | _ => none

/-- The routine waits for a key. -/
def TrapRoutine.TakesKey (t : TrapRoutine) : Prop :=
  t = getc ∨ t = input

def Action.TakesKey (act : Action) : Prop :=
  ∃ t : TrapRoutine, t.TakesKey ∧ act = trap t.vector

-- ============================================================ computations

/-- Whatever the computation comes to, and from whatever state, it is
related to the state that it leaves. -/
def Conserves (T : σ → σ → Prop) (p : EStateM Failure σ α) : Prop :=
  ∀ s, T s (Console.after (p.run s))

/-- What is done one after the other, and not pursued after a failure. -/
theorem Conserves.bind {T : σ → σ → Prop}
    (htrans : ∀ s s₁ s₂, T s s₁ → T s₁ s₂ → T s s₂)
    {p : EStateM Failure σ α} {f : α → EStateM Failure σ β}
    (h : Conserves T p) (hf : ∀ x, Conserves T (f x)) :
    Conserves T (p >>= f) := by
  intro s
  have hfirst := h s
  rw [EStateM.run_bind]
  cases hp : p.run s with
  | error e s' =>
      rw [hp] at hfirst
      exact hfirst
  | ok x s' =>
      rw [hp] at hfirst
      exact htrans s s' _ hfirst (hf x s')

/-- It is a matter of single runs. -/
theorem Conserves.of_runs {T : σ → σ → Prop} {p : EStateM Failure σ α}
    (h : ∀ s, ∃ q : EStateM Failure σ α,
      Conserves T q ∧ p.run s = q.run s) : Conserves T p := by
  intro s
  obtain ⟨q, hq, hrun⟩ := h s
  rw [hrun]
  exact hq s

/-- What is conserved is so after a success and after a failure. -/
theorem Conserves.meets {T : σ → σ → Prop} {p : EStateM Failure σ α}
    (h : Conserves T p) (s : σ) :
    Meets (fun _ => T s) (fun _ => T s) (p.run s) :=
  .of_after (h s)

theorem Conserves.meets_ok {T : σ → σ → Prop} {p : EStateM Failure σ α}
    (h : Conserves T p) (s : σ) :
    Meets (fun _ => T s) (fun _ _ => True) (p.run s) :=
  (h.meets s).imp (fun _ _ => id) fun _ _ _ => trivial

namespace Machine

/-- A relation that can be gone through step by step is conserved by a
sequence whose parts conserve it. -/
theorem sequential_conserves {T : Machine κ δ → Machine κ δ → Prop}
    (hrefl : ∀ m, T m m)
    (htrans : ∀ m m₁ m₂, T m m₁ → T m₁ m₂ → T m m₂) :
    Sequential (Conserves T : {α : Type} → Exec κ δ α → Prop) where
  pure _ := hrefl
  bind h hf := h.bind htrans hf

variable [Console κ] [Peripheral δ]

/-- What the single acts conserve, all that is made of them conserves. -/
theorem Twin.conserves {κ' δ' : Type} [Console κ'] [Peripheral δ']
    {T : Machine κ δ → Machine κ δ → Prop}
    (hseq : Sequential (Conserves T : {α : Type} → Exec κ δ α → Prop))
    (hact : ∀ a, Conserves T (Machine.act a))
    (hread : ∀ a, Conserves T (Machine.read a))
    (hwrite : ∀ a w, Conserves T (Machine.write a w))
    (hcall : ∀ c, Direct c → Conserves T (Machine.call c))
    {p : Exec κ δ α} {q : Exec κ' δ' α} (h : Twin p q) :
    Conserves T p := by
  refine hseq.twin (fun f => hseq.pure ()) hact hread hwrite hcall ?_ h
  exact hseq.putString Conserves.of_runs (hseq.pure ())
    (fun b => hcall (.write b) trivial) (hcall .flush trivial) hread

/-- Related by every single thing that is done to a machine. -/
structure Conserved (T : Machine κ δ → Machine κ δ → Prop) : Prop where
  refl (m) : T m m
  trans {m m₁ m₂} : T m m₁ → T m₁ m₂ → T m m₂
  remark {r : Record} (h : r.isRemark) (m) :
    T m { m with toBoard := m.toBoard.note r }
  counted (w m) : T m (m.counted w)
  setReg (r w m) : T m { m with toBoard := m.toBoard.setReg r w }
  setPc (w m) : T m { m with toBoard := m.toBoard.setPc w }
  stop (m) : T m { m with running := false }
  read (a) : Conserves T (read a)
  write (a w) : Conserves T (write a w)
  put (b) : Conserves T (call (.write b))
  flush : Conserves T (call .flush)

namespace Conserved

variable {T : Machine κ δ → Machine κ δ → Prop}

theorem sequential (hT : Conserved T) :
    Sequential (Conserves T : {α : Type} → Exec κ δ α → Prop) :=
  sequential_conserves hT.refl fun _ _ _ => hT.trans

theorem look (hT : Conserved T) (f : Machine κ δ → α) :
    Conserves T (do return f (← get) : Exec κ δ α) :=
  hT.refl

theorem proceed (hT : Conserved T) {p : Exec κ δ Unit}
    (h : Conserves T p) : Conserves T (proceed p) :=
  hT.sequential.bind h fun _ => hT.refl

theorem note (hT : Conserved T) {r : Record} (h : r.isRemark) :
    Conserves T (note r) :=
  hT.remark h

/-- A result is one for its register and one for the condition, and only the
second is left open. -/
theorem setResult (hT : Conserved T)
    (hcond : ∀ c, Conserves T (change (·.setCond c)))
    (dr : Reg) (w : Word) : Conserves T (setResult dr w) :=
  hT.sequential.bind (hT.setReg dr w) fun _ => hcond _

-- ==================================================================== traps

/-- A string is reads, writes and a flush, however long it is and however it
ends. -/
theorem putString (hT : Conserved T) (bytes : Word → List Byte) :
    Conserves T (putString bytes) :=
  hT.sequential.putString Conserves.of_runs hT.refl hT.put hT.flush hT.read
    bytes

/-- A routine conserves what single things do, unless it waits for a key;
then it is the key that decides. The routines go one by one. -/
theorem routine (hT : Conserved T) (t : TrapRoutine)
    (hread : t.TakesKey → Conserves T (call .read)) :
    Conserves T (routine t) := by
  have hbind {α β : Type} {p : Exec κ δ α} {f : α → Exec κ δ β}
      (h : Conserves T p) (hf : ∀ x, Conserves T (f x)) :
      Conserves T (p >>= f) := hT.sequential.bind h hf
  cases t with
  | getc =>
      refine hT.proceed (hbind (hread (.inl rfl)) fun key => ?_)
      exact hT.setReg 0 (Word.ofByte key)
  | out =>
      refine hT.proceed (hbind (hT.look fun m => (m.core.reg 0).low) ?_)
      exact fun b => hbind (hT.put b) fun _ => hT.flush
  | puts => exact hT.proceed (hT.putString single)
  | input =>
      have hsay : Conserves T (say prompt) :=
        hT.sequential.say hT.put prompt
      refine hT.proceed (hbind hsay fun _ => ?_)
      refine hbind hT.flush fun _ => ?_
      refine hbind (hread (.inr rfl)) fun key => ?_
      refine hbind (hT.put key) fun _ => ?_
      refine hbind hT.flush fun _ => ?_
      exact hT.setReg 0 (Word.ofByte key)
  | putsp => exact hT.proceed (hT.putString packed)
  | halt =>
      refine hbind ?_ fun _ => hT.refl
      exact hbind hT.flush fun _ => hT.stop

/-- A vector leads to a routine or to a failure, after a note. -/
theorem trap (hT : Conserved T) (v : Byte)
    (hread : (Action.trap v).TakesKey → Conserves T (call .read)) :
    Conserves T (trap v) := by
  unfold Machine.trap
  cases hv : TrapRoutine.ofVector? v with
  | none => exact hT.proceed (hT.note rfl)
  | some t =>
      have hvector := vector_of_ofVector? hv
      have hread' (h : t.TakesKey) : Conserves T (call .read) :=
        hread ⟨t, h, congrArg Action.trap hvector⟩
      exact hT.sequential.bind (hT.note rfl) fun _ => hT.routine t hread'

-- ============================================================ instructions

/-- An action conserves what single things do, but for its result and its
key. -/
theorem enact (hT : Conserved T) (c : Core) (act : Action)
    (hcond : act.destination ≠ none →
      ∀ c, Conserves T (change (·.setCond c)))
    (hread : act.TakesKey → Conserves T (call .read)) :
    Conserves T (enact c act) := by
  have hbind {α β : Type} {p : Exec κ δ α} {f : α → Exec κ δ β}
      (h : Conserves T p) (hf : ∀ x, Conserves T (f x)) :
      Conserves T (p >>= f) := hT.sequential.bind h hf
  cases act with
  | compute dr value =>
      exact hT.proceed (hT.setResult (hcond nofun) dr (value c))
  | load dr address =>
      refine hT.proceed (hbind (hT.read (address c)) ?_)
      exact hT.setResult (hcond nofun) dr
  | loadVia dr pointer =>
      refine hT.proceed (hbind (hT.read (pointer c)) fun a => ?_)
      exact hbind (hT.read a) (hT.setResult (hcond nofun) dr)
  | store sr address =>
      exact hT.proceed (hT.write (address c) (c.reg sr))
  | storeVia sr pointer =>
      refine hT.proceed (hbind (hT.read (pointer c)) fun a => ?_)
      exact hbind (hT.look fun m => m.core.reg sr) (hT.write a)
  | jump target =>
      refine hT.proceed ?_
      cases target c with
      | none => exact hT.refl
      | some a => exact hT.setPc a
  | link target =>
      refine hT.proceed (hbind (hT.setReg Instr.linkReg c.pc) fun _ => ?_)
      exact fun m => hT.setPc (target m.core) m
  | ignore op => exact hT.proceed (hT.note rfl)
  | trap v => exact hT.trap v hread

/-- Being counted is conserved over, and then it is the action. -/
theorem execute (hT : Conserved T) (w : Word)
    (hcond : (Instr.decode w).action.destination ≠ none →
      ∀ c, Conserves T (change (·.setCond c)))
    (hread : (Instr.decode w).action.TakesKey →
      Conserves T (call .read)) : Conserves T (execute w) := by
  intro m
  rw [run_execute, run_perform]
  exact hT.trans (hT.counted w m)
    (hT.enact _ _ hcond hread (m.counted w))

/-- Fetching is a read, and then the program counter moves on. -/
theorem fetch (hT : Conserved T) : Conserves T fetch := by
  refine hT.sequential.bind (hT.look fun m => m.core.pc) fun pc => ?_
  refine hT.sequential.bind (hT.read pc) fun w => ?_
  exact hT.sequential.bind (hT.setPc (pc + 1)) fun _ => hT.refl

section Whole

variable (hT : Conserved T)
  (hcond : ∀ c, Conserves T (change (·.setCond c)))
  (hread : Conserves T (call .read))
include hT hcond hread

/-- If nothing that a machine does breaks with a relation, no step does. -/
theorem step : Conserves T step := by
  rw [step_eq]
  refine hT.sequential.bind (hT.look fun m => m.sight.running) ?_
  intro running
  cases running with
  | false => exact hT.refl
  | true =>
      exact hT.sequential.bind hT.fetch fun w =>
        hT.execute w (fun _ => hcond) fun _ => hread

/-- Nor does a run: by induction on the limit, each step has been related to
what it left. -/
theorem advance (limit : Nat) (m : Machine κ δ) :
    T m (advance limit m).2 := by
  induction limit generalizing m with
  | zero => exact hT.refl m
  | succ limit ih =>
      have hstep := hT.step hcond hread m
      rw [Machine.advance]
      cases h : Machine.step.run m with
      | error f m₁ =>
          rw [h] at hstep
          exact hstep
      | ok status m₁ =>
          rw [h] at hstep
          cases status with
          | running => exact hT.trans hstep (ih m₁)
          | halted => exact hT.trans hstep (hT.remark rfl m₁)

end Whole

end Conserved

end Machine

end Lc3
