/-
A run is its steps. `advance` counts a limit down, and every answer but
one ends it: a step that goes on is followed by the next, and the first
that does not is the last (`advance_iff`). So a run halts just in case
some number of steps go on and the one behind them halts, and fails just
in case the one behind them fails.

Opening and closing a run leaves notes in the journal. They are all that
tells a run from the steps by themselves, since no step depends on the
journal.
-/
import Lc3.Proofs.Machine.Alike
import Lc3.Proofs.Machine.Instructions

namespace Lc3.Machine

variable {κ δ : Type} [Console κ] [Peripheral δ]

-- =============================================================== one step

theorem run_step_stopped {m : Machine κ δ} (hrun : m.running = false) :
    step.run m = .ok .halted m := by
  rw [run_step, hrun]
  rfl

/-- The instruction that the next step executes, if it gets to one. -/
def upcoming (m : Machine κ δ) : Option Instr :=
  if m.running then
    match fetch.run m with
    | .ok w _ => some (Instr.decode w)
    | .error _ _ => none
  else none

/-- A machine that has stopped has no next instruction. -/
theorem upcoming_stopped {m : Machine κ δ} (hrun : m.running = false) :
    m.upcoming = none := by
  unfold upcoming
  rw [hrun]
  rfl

/-- What is fetched is what is upcoming. -/
theorem upcoming_of_fetch {m m₁ : Machine κ δ} {w : Word}
    (hrun : m.running = true) (hfetch : fetch.run m = .ok w m₁) :
    m.upcoming = some (Instr.decode w) := by
  unfold upcoming
  rw [if_pos hrun, hfetch]

/-- An upcoming instruction has been fetched by a machine that runs. -/
theorem fetch_of_upcoming {m : Machine κ δ} {i : Instr}
    (h : m.upcoming = some i) :
    m.running = true
      ∧ ∃ w m₁, fetch.run m = .ok w m₁ ∧ Instr.decode w = i := by
  unfold upcoming at h
  cases hrun : m.running with
  | false =>
      rw [hrun] at h
      cases h
  | true =>
      rw [if_pos hrun] at h
      cases hfetch : fetch.run m with
      | error f m₁ =>
          rw [hfetch] at h
          cases h
      | ok w m₁ =>
          rw [hfetch] at h
          exact ⟨rfl, w, m₁, rfl, Option.some.inj h⟩

/-- A step that succeeds on a running machine has fetched a word, and
executed it. -/
theorem step_ok {m m' : Machine κ δ} {status : Status}
    (hrun : m.running = true) (h : step.run m = .ok status m') :
    ∃ w m₁, fetch.run m = .ok w m₁
      ∧ (execute w).run m₁ = .ok status m' := by
  rw [run_step, if_pos hrun] at h
  cases hfetch : fetch.run m with
  | error f m₁ =>
      rw [hfetch] at h
      cases h
  | ok w m₁ =>
      rw [hfetch] at h
      exact ⟨w, m₁, rfl, h⟩

/-- What a step of a running machine says of its running is so, and if
it says anything, it counts. -/
theorem meets_step {m : Machine κ δ} (hdev : m.devices = .standard)
    (hrun : m.running = true) :
    Meets
      (fun status m' => m'.devices = .standard
        ∧ m'.core.executed = m.core.executed + 1
        ∧ (status = .running ∧ m'.running = true
          ∨ status = .halted ∧ m'.running = false))
      (fun _ m' => m'.devices = .standard ∧ m'.running = true)
      (step.run m) := by
  have hfetch := meets_fetch m hdev
  rw [run_step, if_pos hrun]
  cases h : fetch.run m with
  | error f m₁ =>
      have hm₁ := hfetch.of_error h
      exact ⟨hm₁.devices.trans hdev, hm₁.running.trans hrun⟩
  | ok w m₁ =>
      have hm₁ := hfetch.of_ok h
      have hdev₁ := hm₁.devices.trans hdev
      have hrun₁ := hm₁.running.trans hrun
      have hcount : (m₁.counted w).core.executed
          = m.core.executed + 1 := congrArg (· + 1) hm₁.executed
      -- the instruction ran on or was HALT, and a failure stops nothing
      refine (meets_execute w m₁ hdev₁).imp ?_ ?_
      · rintro status m' (⟨-, hs, h'⟩ | ⟨-, hs, h'⟩)
        · exact ⟨h'.devices.trans hdev₁, h'.executed.trans hcount,
            .inl ⟨hs, h'.running.trans hrun₁⟩⟩
        · exact ⟨h'.devices.trans hdev₁,
            h'.steady.executed.trans hcount, .inr ⟨hs, h'.running⟩⟩
      · rintro f m' (h' | ⟨-, h'⟩)
        · exact ⟨h'.devices.trans hdev₁, h'.running.trans hrun₁⟩
        · exact ⟨h'.devices.trans hdev₁, h'.running.trans hrun₁⟩

-- ============================================================= many steps

/-- That many steps, one after the other, all of which go on. -/
inductive Going : Nat → Machine κ δ → Machine κ δ → Prop where
  | zero (m : Machine κ δ) : Going 0 m m
  | succ {n : Nat} {m m₁ m' : Machine κ δ}
      (hstep : step.run m = .ok .running m₁) (rest : Going n m₁ m') :
      Going (n + 1) m m'

/-- What a run comes to at a step that does not go on. -/
inductive Stops (m : Machine κ δ) : Progress → Machine κ δ → Prop where
  | halted {m' : Machine κ δ} (h : step.run m = .ok .halted m') :
      Stops m .halted m'.finish
  | failed {f : Failure} {m' : Machine κ δ} (h : step.run m = .error f m') :
      Stops m (.failed f) m'

/-- The steps of a machine that runs are counted. -/
theorem Going.counts {n : Nat} {m m' : Machine κ δ} (h : Going n m m')
    (hdev : m.devices = .standard) (hrun : m.running = true) :
    m'.devices = .standard ∧ m'.running = true
      ∧ m'.core.executed = m.core.executed + n := by
  induction h with
  | zero m => exact ⟨hdev, hrun, rfl⟩
  | @succ n m m₁ m' hstep _ ih =>
      obtain ⟨hdev₁, hcount, ⟨-, hrun₁⟩ | ⟨hs, -⟩⟩ :=
        (meets_step hdev hrun).of_ok hstep
      · obtain ⟨hdev', hrun', hcount'⟩ := ih hdev₁ hrun₁
        exact ⟨hdev', hrun', by omega⟩
      · cases hs

/-- A machine that is not running does not even begin. -/
theorem Going.stopped {n : Nat} {m m' : Machine κ δ} (h : Going n m m')
    (hrun : m.running = false) : n = 0 ∧ m' = m := by
  cases h with
  | zero => exact ⟨rfl, rfl⟩
  | succ hstep _ =>
      rw [run_step_stopped hrun] at hstep
      cases hstep

/-- How a run stops does not depend on the journal. -/
theorem Stops.alike {m m' o : Machine κ δ} {p : Progress}
    (h : Stops m p m') (ho : AlikeStandard m o) :
    ∃ o', Stops o p o' ∧ Alike m' o' := by
  cases h with
  | @halted m₁ h =>
      obtain ⟨o₁, h', ho₁⟩ := (agree_step ho).of_ok h
      exact ⟨o₁.finish, .halted h',
        (Alike.finish m₁).symm.trans (ho₁.alike.trans (.finish o₁))⟩
  | failed h =>
      obtain ⟨o₁, h', ho₁⟩ := (agree_step ho).of_error h
      exact ⟨o₁, .failed h', ho₁.alike⟩

/-- Nor do the steps that go on. -/
theorem Going.alike {n : Nat} {m m' o : Machine κ δ} (h : Going n m m')
    (ho : AlikeStandard m o) :
    ∃ o', Going n o o' ∧ AlikeStandard m' o' := by
  induction h generalizing o with
  | zero m => exact ⟨o, .zero o, ho⟩
  | succ hstep _ ih =>
      obtain ⟨o₁, hstep', ho₁⟩ := (agree_step ho).of_ok hstep
      obtain ⟨o', hrest, ho'⟩ := ih ho₁
      exact ⟨o', .succ hstep' hrest, ho'⟩

-- ================================================================== a run

/-- A run ends in the first step that does not go on. -/
theorem advance_iff {p : Progress} (hp : p ≠ .going)
    {m m' : Machine κ δ} :
    (∃ limit, advance limit m = (p, m'))
      ↔ ∃ n m₁, Going n m m₁ ∧ Stops m₁ p m' := by
  constructor
  · -- a limit that was enough, step by step
    rintro ⟨limit, h⟩
    -- on the limit, which is one for each step that goes on
    induction limit generalizing m with
    | zero =>
        injection h with h
        exact absurd h.symm hp
    | succ limit ih =>
        rw [advance] at h
        cases hstep : step.run m with
        | error f m₁ =>
            rw [hstep] at h
            cases h
            exact ⟨0, m, .zero m, .failed hstep⟩
        | ok status m₁ =>
            rw [hstep] at h
            cases status with
            | halted =>
                cases h
                exact ⟨0, m, .zero m, .halted hstep⟩
            | running =>
                obtain ⟨n, m₂, hgoing, hstops⟩ := ih h
                exact ⟨n + 1, m₂, .succ hstep hgoing, hstops⟩
  · -- one more than the steps that go on is enough
    rintro ⟨n, m₁, hgoing, hstops⟩
    refine ⟨n + 1, ?_⟩
    induction hgoing with
    | zero m =>
        rw [advance]
        cases hstops with
        | halted h => rw [h]
        | failed h => rw [h]
    | succ hstep _ ih =>
        rw [advance, hstep]
        exact ih hstops

/-- A run that is opened at `m` comes to an end. -/
def Ends (m : Machine κ δ) (p : Progress) (m' : Machine κ δ) : Prop :=
  p ≠ .going ∧ ∃ limit, advance limit m.start = (p, m')

/-- However long one waits for it, a run has one end. -/
theorem Ends.unique {m m₁ m₂ : Machine κ δ} {p q : Progress}
    (h₁ : Ends m p m₁) (h₂ : Ends m q m₂) : p = q ∧ m₁ = m₂ := by
  obtain ⟨hp, i, hi⟩ := h₁
  obtain ⟨hq, j, hj⟩ := h₂
  -- either limit carries the run to its end before the sum of both does
  have hleft : advance (i + j) m.start = (p, m₁) := by
    rw [advance_add, hi]
    cases p with
    | going => exact absurd rfl hp
    | halted | failed _ => rfl
  have hright : advance (j + i) m.start = (q, m₂) := by
    rw [advance_add, hj]
    cases q with
    | going => exact absurd rfl hq
    | halted | failed _ => rfl
  rw [Nat.add_comm, hright] at hleft
  cases hleft
  exact ⟨rfl, rfl⟩

/-- That many steps go on, and the next one halts. -/
def HaltsIn (n : Nat) (m m' : Machine κ δ) : Prop :=
  ∃ m₁, Going n m m₁ ∧ step.run m₁ = .ok .halted m'

/-- That many steps go on, and the next one fails. -/
def FailsIn (n : Nat) (f : Failure) (m m' : Machine κ δ) : Prop :=
  ∃ m₁, Going n m m₁ ∧ step.run m₁ = .error f m'

-- ============================================== a run and its steps alone

/-- The steps of a run are those of the machine it was opened at. -/
theorem ends_of_going {n : Nat} {m m₁ m₂ : Machine κ δ} {p : Progress}
    (hdev : m.devices = .standard) (hp : p ≠ .going)
    (hgoing : Going n m m₁) (hstops : Stops m₁ p m₂) :
    ∃ m', Ends m p m' ∧ Alike m₂ m' := by
  have hstart : AlikeStandard m m.start := ⟨.start m, hdev⟩
  obtain ⟨o₁, hgoing', ho₁⟩ := hgoing.alike hstart
  obtain ⟨m', hstops', hm'⟩ := hstops.alike ho₁
  exact ⟨m', ⟨hp, (advance_iff hp).2 ⟨n, o₁, hgoing', hstops'⟩⟩, hm'⟩

/-- A run that ended was so many steps and the one behind them. -/
theorem going_of_ends {m m' : Machine κ δ} {p : Progress}
    (hdev : m.devices = .standard) (h : Ends m p m') :
    ∃ n m₁ m₂, Going n m m₁ ∧ Stops m₁ p m₂ := by
  obtain ⟨hp, hlimit⟩ := h
  obtain ⟨n, o₁, hgoing, hstops⟩ := (advance_iff hp).1 hlimit
  have hstart : AlikeStandard m.start m := ⟨(Alike.start m).symm, hdev⟩
  obtain ⟨m₁, hgoing', hm₁⟩ := hgoing.alike hstart
  obtain ⟨m₂, hstops', -⟩ := hstops.alike hm₁
  exact ⟨n, m₁, m₂, hgoing', hstops'⟩

/-- A run halts just in case the steps by themselves do. -/
theorem ends_halted_iff {m : Machine κ δ} (hdev : m.devices = .standard) :
    (∃ m', Ends m .halted m') ↔ ∃ n m₂, HaltsIn n m m₂ := by
  constructor
  · rintro ⟨m', h⟩
    obtain ⟨n, m₁, _, hgoing, hstops⟩ := going_of_ends hdev h
    cases hstops with
    | @halted m₂ hstep => exact ⟨n, m₂, m₁, hgoing, hstep⟩
  · rintro ⟨n, m₂, m₁, hgoing, hstep⟩
    obtain ⟨m', h, -⟩ :=
      ends_of_going hdev (by decide) hgoing (.halted hstep)
    exact ⟨m', h⟩

/-- It fails just in case they do, and with the same failure. -/
theorem ends_failed_iff {m : Machine κ δ} (hdev : m.devices = .standard)
    (f : Failure) :
    (∃ m', Ends m (.failed f) m') ↔ ∃ n m₂, FailsIn n f m m₂ := by
  constructor
  · rintro ⟨m', h⟩
    obtain ⟨n, m₁, m₂, hgoing, hstops⟩ := going_of_ends hdev h
    cases hstops with
    | failed hstep => exact ⟨n, m₂, m₁, hgoing, hstep⟩
  · rintro ⟨n, m₂, m₁, hgoing, hstep⟩
    have hp : Progress.failed f ≠ .going := Progress.noConfusion
    obtain ⟨m', h, -⟩ := ends_of_going hdev hp hgoing (.failed hstep)
    exact ⟨m', h⟩

/-- A run that halts leaves what its steps leave. -/
theorem HaltsIn.alike {n : Nat} {m m₂ m' : Machine κ δ}
    (h : HaltsIn n m m₂) (hdev : m.devices = .standard)
    (hends : Ends m .halted m') : Alike m₂ m' := by
  obtain ⟨m₁, hgoing, hstep⟩ := h
  obtain ⟨m'', hends', hm''⟩ :=
    ends_of_going hdev (by decide) hgoing (.halted hstep)
  obtain ⟨-, rfl⟩ := hends.unique hends'
  exact (Alike.finish m₂).trans hm''

/-- The steps of a run, the one that halts included, are counted, unless
the machine was not running in the first place. -/
theorem HaltsIn.counts {n : Nat} {m m₂ : Machine κ δ}
    (h : HaltsIn n m m₂) (hdev : m.devices = .standard) :
    m₂.core.executed
      = m.core.executed + if m.running then n + 1 else 0 := by
  obtain ⟨m₁, hgoing, hstep⟩ := h
  cases hrun : m.running with
  | true =>
      obtain ⟨hdev₁, hrun₁, hcount⟩ := hgoing.counts hdev hrun
      have hlast := ((meets_step hdev₁ hrun₁).of_ok hstep).2.1
      rw [hlast, hcount]
      rfl
  | false =>
      obtain ⟨-, rfl⟩ := hgoing.stopped hrun
      rw [run_step_stopped hrun] at hstep
      cases hstep
      rfl

end Lc3.Machine
