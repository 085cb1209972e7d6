/-
The condition over whole runs. Two lists have to agree: which opcodes are
said to set the condition (`Opcode.setsCond`), and which instructions
leave a result in it when they are executed. They do, for every
instruction, and an instruction that fails leaves the condition alone,
whichever list it is on (`classified`).

So the condition of a machine is the sign of the latest result that one
of its steps has come to, and there is none as long as there was no such
step. Until then no branch is taken.

# How it is shown

Nothing but a result touches the condition, in the sense of `Conserved`;
that takes care of all instructions without a destination, traps
included, and of all that happens before a result is there. The rest are
three actions, each of which ends in `setResult`.
-/
import Lc3.Proofs.Machine.Conserved
import Lc3.Proofs.Machine.Runs
import Lc3.Proofs.Machine.Broken
import Lc3.Machine.Load

namespace Lc3

/-- Where an instruction leaves its result. -/
def Instr.destination : Instr → Option Reg
  | add dr .. | .and dr .. | .not dr _ | lea dr _
  | ld dr _ | ldi dr _ | ldr dr .. => some dr
  | _ => none

/-- Where the result goes can be read off the instruction or off its
action. -/
theorem Instr.destination_action (i : Instr) :
    i.action.destination = i.destination := by
  cases i <;> rfl

/-- The instructions that are said to set the condition are those that
have a result. -/
theorem Instr.setsCond_eq (i : Instr) :
    i.setsCond = i.destination.isSome := by
  cases i <;> rfl

namespace Machine

variable {κ δ : Type}

/-- The condition is the sign of what is in this register. -/
def Tells (dr : Reg) (m : Machine κ δ) : Prop :=
  m.core.cond = some (.ofWord (m.core.reg dr))

/-- The condition is as it was, and the keyboard is the only device. -/
structure SameCond (m m' : Machine κ δ) : Prop where
  devices : m'.devices = .standard
  cond : m'.core.cond = m.core.cond

/-- The condition is that of a result, and the keyboard is the only
device. -/
structure Resulted (dr : Reg) (m' : Machine κ δ) : Prop where
  devices : m'.devices = .standard
  tells : Tells dr m'

/-- As long as the keyboard was the only device. -/
def KeepsCond (m m' : Machine κ δ) : Prop :=
  m.devices = .standard → SameCond m m'

theorem Polled.keepsCond {m m' : Machine κ δ} (h : Polled m m') :
    KeepsCond m m' :=
  fun hdev => ⟨h.devices.trans hdev, h.cond⟩

theorem SameCond.trans {m m₁ m₂ : Machine κ δ} (h : SameCond m m₁)
    (h' : SameCond m₁ m₂) : SameCond m m₂ :=
  ⟨h'.devices, h'.cond.trans h.cond⟩

variable [Console κ]

/-- A call does not touch the condition. -/
theorem keepsCond_call (c : Console.Call) :
    Conserves KeepsCond (call c : Exec κ δ c.Answer) := by
  intro m
  have hquiet := (quiet_call c m).after
  exact hquiet.polled.keepsCond

variable [Peripheral δ]

/-- Of the single things that are done to a machine, none touches the
condition but a result. -/
theorem conserved_keepsCond :
    Conserved (KeepsCond : Machine κ δ → Machine κ δ → Prop) where
  refl _ hdev := ⟨hdev, rfl⟩
  trans h h' hdev := (h hdev).trans (h' (h hdev).devices)
  remark _ _ hdev := ⟨hdev, rfl⟩
  counted _ _ hdev := ⟨hdev, rfl⟩
  setReg _ _ _ hdev := ⟨hdev, rfl⟩
  setPc _ _ hdev := ⟨hdev, rfl⟩
  stop _ hdev := ⟨hdev, rfl⟩
  read a m hdev := (polled_read a hdev).after.keepsCond hdev
  write a w m hdev := by
    rw [run_write_standard a w m hdev]
    exact ⟨hdev, rfl⟩
  put b := keepsCond_call (.write b)
  flush := keepsCond_call .flush

-- =========================================================== instructions

/-- An action without a destination leaves the condition alone, a trap that
takes a key included. -/
theorem meets_enact_resultless {act : Action}
    (hact : act.destination = none) {m : Machine κ δ}
    (hdev : m.devices = .standard) :
    Meets (fun _ => SameCond m) (fun _ => SameCond m)
      ((enact m.core act).run m) := by
  have hkeeps : Conserves KeepsCond (enact m.core act : Exec κ δ Status) :=
    conserved_keepsCond.enact m.core act (fun h => absurd hact h)
      fun _ => keepsCond_call .read
  exact (hkeeps.meets m).imp (fun _ _ h => h hdev) (fun _ _ h => h hdev)

/-- An action with a destination leaves there a result and its sign, or
fails before there is one, and then the condition is as it was. -/
theorem meets_enact_result {act : Action} {dr : Reg}
    (hact : act.destination = some dr) {m : Machine κ δ}
    (hdev : m.devices = .standard) :
    Meets (fun _ => Resulted dr) (fun _ => SameCond m)
      ((enact m.core act).run m) := by
  have hresult {m₁ : Machine κ δ} (h : SameCond m m₁) (w : Word) :
      Meets (fun _ => Resulted dr) (fun _ => SameCond m)
        ((setResult dr w).run m₁) := by
    refine ⟨h.devices, ?_⟩
    show some (Cond.ofWord w)
      = some (Cond.ofWord ((m₁.core.regs.set dr w).get dr))
    rw [Bank.get_set_self]
  have hread (a : Word) {m₁ : Machine κ δ} (h : SameCond m m₁) :
      Meets (fun _ => SameCond m) (fun _ => SameCond m)
        ((read a).run m₁) :=
    (polled_read a h.devices).imp
      (fun _ _ h' => h.trans (h'.keepsCond h.devices))
      (fun _ _ h' => h.trans (h'.keepsCond h.devices))
  have hstart : SameCond m m := ⟨hdev, rfl⟩
  -- by the actions that have a destination; the others contradict `hact`
  cases act with
  | compute _ value =>
      cases hact
      exact meets_proceed_state (hresult hstart (value m.core))
  | load _ address =>
      cases hact
      refine meets_proceed_state ((hread _ hstart).bind ?_)
      exact fun w m₁ h => hresult h w
  | loadVia _ pointer =>
      cases hact
      refine meets_proceed_state ((hread _ hstart).bind ?_)
      exact fun a m₁ h => (hread a h).bind fun w m₂ h' => hresult h' w
  | store | storeVia | jump | link | ignore | trap => cases hact

/-- What an instruction is said to do to the condition is what it does. -/
def Classified (i : Instr) (m : Machine κ δ) : Prop :=
  Meets
    (fun _ m' =>
      if i.setsCond then ∃ dr, i.destination = some dr ∧ Tells dr m'
      else m'.core.cond = m.core.cond)
    (fun _ m' => m'.core.cond = m.core.cond) ((perform i).run m)

/-- An instruction does to the condition what it is said to do. Which
actions have a destination decides, and those are the opcodes on the list.
-/
theorem classified (i : Instr) {m : Machine κ δ}
    (hdev : m.devices = .standard) : Classified i m := by
  unfold Classified
  rw [run_perform, i.setsCond_eq]
  cases hdest : i.destination with
  | none =>
      rw [← i.destination_action] at hdest
      exact (meets_enact_resultless hdest hdev).imp
        (fun _ _ h => h.cond) (fun _ _ h => h.cond)
  | some dr =>
      rw [← i.destination_action] at hdest
      exact (meets_enact_result hdest hdev).imp
        (fun _ _ h => ⟨dr, rfl, h.tells⟩) (fun _ _ h => h.cond)

-- =============================================================== one step

/-- The instruction that the next step completes. -/
def completed (m : Machine κ δ) : Option Instr :=
  match step.run m with
  | .ok _ _ => m.upcoming
  | .error _ _ => none

theorem completed_of_ok {m m' : Machine κ δ} {status : Status}
    (h : step.run m = .ok status m') : m.completed = m.upcoming := by
  unfold completed
  rw [h]

theorem completed_of_error {m m' : Machine κ δ} {f : Failure}
    (h : step.run m = .error f m') : m.completed = none := by
  unfold completed
  rw [h]

/-- The next step completes an instruction that is said to set the
condition. -/
def Sets (m : Machine κ δ) : Prop :=
  ∃ i, m.completed = some i ∧ i.setsCond = true

/-- A fetch moves the program counter on by one and leaves the condition
alone. -/
theorem fetch_ok {m m₁ : Machine κ δ} {w : Word}
    (hdev : m.devices = .standard) (h : fetch.run m = .ok w m₁) :
    SameCond m m₁ ∧ m₁.core.pc = m.core.pc + 1 := by
  have hkeeps := conserved_keepsCond.fetch m hdev
  rw [h] at hkeeps
  refine ⟨hkeeps, ?_⟩
  rw [run_fetch] at h
  cases hread : (read m.core.pc).run m with
  | error f m' =>
      rw [hread] at h
      cases h
  | ok v m' =>
      rw [hread] at h
      cases h
      rfl

/-- Where no instruction was completed none has set the condition. -/
theorem not_sets_of_completed {m : Machine κ δ}
    (h : m.completed = none) : ¬ m.Sets := by
  intro hsets
  obtain ⟨i, hi, -⟩ := hsets
  rw [h] at hi
  cases hi

/-- A step that sets the condition leaves a result, and any other, one
that fails included, leaves the condition alone. -/
structure StepCond (m m' : Machine κ δ) : Prop where
  sets : m.Sets → ∃ i dr, m.completed = some i ∧ i.setsCond = true
    ∧ i.destination = some dr ∧ Tells dr m'
  keeps : ¬ m.Sets → m'.core.cond = m.core.cond

/-- Leaving the condition alone is all that is asked of a step that does not
set it. -/
theorem StepCond.of_not_sets {m m' : Machine κ δ} (h : ¬ m.Sets)
    (hcond : m'.core.cond = m.core.cond) : StepCond m m' :=
  ⟨fun hsets => absurd hsets h, fun _ => hcond⟩

/-- What has been fetched is executed, or the fetch was all there was. -/
theorem stepCond_running {m : Machine κ δ} (hdev : m.devices = .standard)
    (hrun : m.running = true) :
    StepCond m (Console.after (step.run m)) := by
  cases hfetch : fetch.run m with
  | error f m₁ =>
      have hstep : step.run m = .error f m₁ := by
        rw [run_step, if_pos hrun, hfetch]
      have hnot := not_sets_of_completed (completed_of_error hstep)
      have hkeeps := conserved_keepsCond.fetch m hdev
      rw [hfetch] at hkeeps
      rw [hstep]
      exact .of_not_sets hnot hkeeps.cond
  | ok w m₁ =>
      obtain ⟨hsame, -⟩ := fetch_ok hdev hfetch
      have hclass := classified (Instr.decode w) (m := m₁.counted w)
        hsame.devices
      have hstep : step.run m
          = (perform (Instr.decode w)).run (m₁.counted w) := by
        rw [run_step, if_pos hrun, hfetch]
        exact run_execute w m₁
      have hupcoming := upcoming_of_fetch hrun hfetch
      unfold Classified at hclass
      rw [← hstep] at hclass
      cases h : step.run m with
      | error f m' =>
          -- on either list, the condition is what the fetch has left
          have hnot := not_sets_of_completed (completed_of_error h)
          exact .of_not_sets hnot ((hclass.of_error h).trans hsame.cond)
      | ok status m' =>
          have hsome := (completed_of_ok h).trans hupcoming
          have hleft := hclass.of_ok h
          cases hsets : (Instr.decode w).setsCond with
          | true =>
              rw [if_pos hsets] at hleft
              obtain ⟨dr, hdest, htells⟩ := hleft
              exact ⟨fun _ => ⟨_, dr, hsome, hsets, hdest, htells⟩,
                fun hnot => absurd ⟨_, hsome, hsets⟩ hnot⟩
          | false =>
              rw [if_neg (by rw [hsets]; exact Bool.false_ne_true)] at hleft
              refine .of_not_sets ?_ (hleft.trans hsame.cond)
              intro h'
              obtain ⟨i, hi, hi'⟩ := h'
              rw [hsome] at hi
              cases hi
              rw [hsets] at hi'
              cases hi'

/-- The same of every machine, since one that has stopped completes nothing
and does nothing. -/
theorem stepCond {m : Machine κ δ} (hdev : m.devices = .standard) :
    StepCond m (Console.after (step.run m)) := by
  cases hrun : m.running with
  | true => exact stepCond_running hdev hrun
  | false =>
      have hnone : m.completed = none :=
        (completed_of_ok (run_step_stopped hrun)).trans
          (upcoming_stopped hrun)
      rw [run_step_stopped hrun]
      exact .of_not_sets (not_sets_of_completed hnone) rfl

/-- No step puts anything on the bus. -/
theorem devices_step {m : Machine κ δ} (hdev : m.devices = .standard) :
    (Console.after (step.run m)).devices = .standard := by
  cases hrun : m.running with
  | true =>
      exact ((meets_step hdev hrun).imp (fun _ _ => And.left)
        fun _ _ => And.left).after
  | false =>
      rw [run_step_stopped hrun]
      exact hdev

-- ================================================================== a run

/-- Nor do several. -/
theorem devices_stepped {m : Machine κ δ} (hdev : m.devices = .standard)
    (n : Nat) : (m.stepped n).devices = .standard := by
  induction n with
  | zero => exact hdev
  | succ n ih => exact devices_step ih

/-- A branch without a condition goes on behind itself. -/
theorem pc_branch {m : Machine κ δ} (hdev : m.devices = .standard)
    (hcond : m.core.cond = none) {n z p : Bool} {offset : Word}
    (h : m.upcoming = some (.br n z p offset)) :
    (Console.after (step.run m)).core.pc = m.core.pc + 1 := by
  obtain ⟨hrun, w, m₁, hfetch, hw⟩ := fetch_of_upcoming h
  obtain ⟨hsame, hpc⟩ := fetch_ok hdev hfetch
  have hnone : (m₁.counted w).core.branch n z p offset = none := by
    have hcond₁ : (m₁.counted w).core.cond = none :=
      hsame.cond.trans hcond
    unfold Core.branch
    rw [hcond₁]
    rfl
  have hstep : step.run m = .ok .running (m₁.counted w) := by
    rw [run_step, if_pos hrun, hfetch]
    dsimp only
    rw [run_execute, hw, run_perform]
    exact run_enact_jump_none hnone (m₁.counted w)
  rw [hstep]
  exact hpc

/-- A step that sets the condition leaves one. -/
theorem cond_of_sets {m : Machine κ δ} (hdev : m.devices = .standard)
    {i : Nat} (h : (m.stepped i).Sets) :
    (m.stepped (i + 1)).core.cond ≠ none := by
  obtain ⟨_, dr, -, -, -, htells⟩ :=
    (stepCond (devices_stepped hdev i)).sets h
  show (Console.after (step.run (m.stepped i))).core.cond ≠ none
  rw [htells]
  exact Option.some_ne_none _

/-- Steps that do not set the condition keep it. -/
theorem cond_of_not_sets {m : Machine κ δ} (hdev : m.devices = .standard)
    {i : Nat} (h : ¬ (m.stepped i).Sets) :
    (m.stepped (i + 1)).core.cond = (m.stepped i).core.cond :=
  (stepCond (devices_stepped hdev i)).keeps h

/-- Once there is a condition there is one for ever. -/
theorem cond_stays {m : Machine κ δ} (hdev : m.devices = .standard)
    {i n : Nat} (hi : i ≤ n) (h : (m.stepped i).core.cond ≠ none) :
    (m.stepped n).core.cond ≠ none := by
  induction hi with
  | refl => exact h
  | @step n _ ih =>
      by_cases hsets : (m.stepped n).Sets
      · exact cond_of_sets hdev hsets
      · rw [cond_of_not_sets hdev hsets]
        exact ih

/-- Until some step sets it, the condition is what it was at first. -/
theorem cond_of_unset {m : Machine κ δ} (hdev : m.devices = .standard)
    {n : Nat} (h : ∀ i < n, ¬ (m.stepped i).Sets) :
    (m.stepped n).core.cond = m.core.cond := by
  induction n with
  | zero => rfl
  | succ n ih =>
      have hbefore := ih fun i hi => h i (Nat.lt_succ_of_lt hi)
      exact (cond_of_not_sets hdev (h n n.lt_succ_self)).trans hbefore

/-- Of `n` steps, the `i`-th is the latest to set the condition, and `c`
is the sign of what it has left in its destination. -/
structure SetBy (m : Machine κ δ) (n i : Nat) (c : Cond) : Prop where
  lt : i < n
  latest : ∀ j, i < j → j < n → ¬ (m.stepped j).Sets
  result : ∃ ins dr, (m.stepped i).completed = some ins
    ∧ ins.setsCond = true ∧ ins.destination = some dr
    ∧ c = .ofWord ((m.stepped (i + 1)).core.reg dr)

/-- A step that does not set the condition leaves the latest one where it
was. -/
theorem SetBy.succ {m : Machine κ δ} {n i : Nat} {c : Cond}
    (h : SetBy m n i c) (hsets : ¬ (m.stepped n).Sets) :
    SetBy m (n + 1) i c where
  lt := Nat.lt_succ_of_lt h.lt
  latest j hj hj' := by
    rcases Nat.lt_succ_iff_lt_or_eq.1 hj' with hlt | rfl
    · exact h.latest j hj hlt
    · exact hsets
  result := h.result

/-- A step that does is the latest. -/
theorem setBy_last {m : Machine κ δ} (hdev : m.devices = .standard)
    {n : Nat} (hsets : (m.stepped n).Sets) {c : Cond}
    (hc : (m.stepped (n + 1)).core.cond = some c) :
    SetBy m (n + 1) n c := by
  obtain ⟨ins, dr, hins, hset, hdest, htells⟩ :=
    (stepCond (devices_stepped hdev n)).sets hsets
  have hword : some c = some (.ofWord ((m.stepped (n + 1)).core.reg dr)) :=
    hc.symm.trans htells
  refine ⟨n.lt_succ_self, fun j hj hj' => ?_, ins, dr, hins, hset, hdest,
    Option.some.inj hword⟩
  omega

/-- A condition that was not there at first was set by some step. -/
theorem exists_setBy {m : Machine κ δ} (hdev : m.devices = .standard)
    (hcond : m.core.cond = none) {n : Nat} {c : Cond}
    (hc : (m.stepped n).core.cond = some c) : ∃ i, SetBy m n i c := by
  induction n with
  | zero =>
      have hnone : (m.stepped 0).core.cond = none := hcond
      rw [hnone] at hc
      cases hc
  | succ n ih =>
      by_cases hsets : (m.stepped n).Sets
      · exact ⟨n, setBy_last hdev hsets hc⟩
      · rw [cond_of_not_sets hdev hsets] at hc
        obtain ⟨i, hi⟩ := ih hc
        exact ⟨i, hi.succ hsets⟩

/-- How the condition fares in so many steps. -/
structure ConditionLaw (m : Machine κ δ) (n : Nat) : Prop where
  /-- There is a condition if some step has set it. -/
  none_iff : (m.stepped n).core.cond = none
    ↔ ∀ i < n, ¬ (m.stepped i).Sets
  /-- It is the sign of what the latest of these steps has left in its
  destination. -/
  latest : ∀ c, (m.stepped n).core.cond = some c → ∃ i, SetBy m n i c
  /-- Once there, it does not go. -/
  stays : ∀ i ≤ n, (m.stepped i).core.cond ≠ none →
    (m.stepped n).core.cond ≠ none
  /-- Every instruction, on every machine, does to it what it is said to
  do, and nothing if it fails. -/
  classified : ∀ ins (o : Machine κ δ), o.devices = .standard →
    Classified ins o
  /-- As long as it is not there, no branch is taken. -/
  noBranch : (m.stepped n).core.cond = none → ∀ neg zero pos offset,
    (m.stepped n).upcoming = some (.br neg zero pos offset) →
      (m.stepped (n + 1)).core.pc = (m.stepped n).core.pc + 1

/-- On a machine that begins without a condition, the keyboard being the
only device, the condition tells of the latest result. -/
theorem condition_tells {m : Machine κ δ} (hdev : m.devices = .standard)
    (hcond : m.core.cond = none) (n : Nat) : ConditionLaw m n := by
  constructor
  case none_iff =>
    constructor
    · intro hnone i hi hsets
      exact cond_stays hdev hi (cond_of_sets hdev hsets) hnone
    · intro h
      exact (cond_of_unset hdev h).trans hcond
  case latest => exact fun c hc => exists_setBy hdev hcond hc
  case stays => exact fun i hi h => cond_stays hdev hi h
  case classified => exact fun ins o ho => Machine.classified ins ho
  case noBranch =>
    intro hnone neg zero pos offset h
    exact pc_branch (devices_stepped hdev n) hnone h

/-- A branch on anything, a result below zero, and a request for a key
that is not there. -/
def unconditioned : Machine Buffered Empty :=
  (new {}).load ⟨Core.entry, [0x0e05, 0x127f, 0xf020]⟩

/-- A branch on all conditions is passed by while there is none, and an
instruction that fails leaves the sign of the one before it. -/
theorem condition_tells_unconditioned :
    ConditionLaw unconditioned 3
      ∧ (unconditioned.stepped 1).core.pc = 0x3001
      ∧ (unconditioned.stepped 1).core.cond = none
      ∧ (unconditioned.stepped 3).core.cond = some .neg := by
  refine ⟨condition_tells rfl rfl 3, ?_, ?_, ?_⟩
  · decide +kernel
  · decide +kernel
  · decide +kernel

end Machine

end Lc3
