/-
No failure of the console is swallowed, replaced or survived. One machine
runs on a console that does as it likes, another on the same console with
one call broken. Up to that call both do the same; the step that makes
the call gives up there, and what it tells the host is the error that the
call failed with.

# How it is shown

A computation is exposed to the broken call (`Exposed`) if it touches the
console by calls alone, and if it comes out in one of two ways where it
meets the fault: not at all, and then both machines come to the same; or
by failing, and then the broken call was the last (`Splits`). Both ways
go through a sequence (`Exposed.bind`): what follows on the intact machine
only adds calls to a log that is long enough already.

What leaves the console alone is exposed, a call is, and so are orderly
devices and all that is made of these. A step is, because it is made of
the few acts that a twin may be made of (`twin_step`).
-/
import Lc3.Proofs.Console.Broken
import Lc3.Proofs.Device.Orderly
import Lc3.Proofs.Machine.Twin

namespace Lc3

open EStateM (Result)

variable {κ δ ρ σ α β : Type}

-- ======================================================= states with a tap

namespace Machine

/-- The machine with a tap on its console. -/
def tapped (m : Machine κ δ) : Machine (Tap κ) δ :=
  { m with toBoard := { m.toBoard with console := { inner := m.console } } }

/-- The machine with a fault in waiting. -/
def arm (k : Nat) (e : IoError) (m : Machine (Tap κ) δ) :
    Machine (Tap κ) δ :=
  { m with console := m.console.arm k e }

end Machine

/-- States that hold a tapped console. -/
class Tapped (σ : Type) (κ : outParam Type) where
  tap : σ → Tap κ
  arm : Nat → IoError → σ → σ

instance : Tapped (Machine (Tap κ) δ) κ where
  tap m := m.console
  arm := Machine.arm

instance : Tapped (ρ × Board (Tap κ)) κ where
  tap s := s.2.console
  arm k e s := (s.1, { s.2 with console := s.2.console.arm k e })

open Tapped (tap arm)

-- ==================================================== exposed computations

variable [Console κ] [Tapped σ κ]

/-- What a computation comes to with all calls intact, and what with call
`k` broken: the same, if it does not get there, and otherwise the failure
of that call. -/
inductive Splits (k : Nat) (e : IoError) (c₀ : κ)
    (r : Result Failure σ α) : Result Failure σ α → Prop where
  | whole (h : (tap (Console.after r)).calls.size ≤ k) :
      Splits k e c₀ r (mapState (arm k e) r)
  | cut {s : σ} (h : Tap.Cut k e c₀ (tap (Console.after r)) (tap s)) :
      Splits k e c₀ r (.error (.console e) s)

namespace Splits

variable {k : Nat} {e : IoError} {c₀ : κ} {r r' : Result Failure σ α}

/-- Where the intact machine has not got to the call, both have come to the
same. -/
theorem eq_of_le (h : Splits k e c₀ r r')
    (hk : (tap (Console.after r)).calls.size ≤ k) :
    r' = mapState (arm k e) r := by
  cases h with
  | whole _ => rfl
  | cut hcut => exact absurd hcut.reached (Nat.not_lt.2 hk)

/-- Where it has got past the call, the other has failed there. -/
theorem error_of_lt (h : Splits k e c₀ r r')
    (hk : k < (tap (Console.after r)).calls.size) :
    ∃ s, r' = .error (.console e) s
      ∧ Tap.Cut k e c₀ (tap (Console.after r)) (tap s) := by
  cases h with
  | whole hsize => exact absurd hk (Nat.not_lt.2 hsize)
  | cut hcut => exact ⟨_, rfl, hcut⟩

end Splits

/-- Whatever it does to the console is calls, and none of them may break
without its coming to light. -/
structure Exposed (p : EStateM Failure σ α) : Prop where
  onward (s : σ) :
    ∃ cs, tap (Console.after (p.run s)) = Console.afterCalls cs (tap s)
  splits {k : Nat} (e : IoError) {c₀ : κ} {s : σ}
    (hs : Tap.Faithful c₀ (tap s)) (hk : (tap s).calls.size ≤ k) :
    Splits k e c₀ (p.run s) (p.run (arm k e s))

namespace Exposed

/-- A computation that neither touches the tap nor depends on it. -/
theorem aside {p : EStateM Failure σ α}
    (htap : ∀ s, tap (Console.after (p.run s)) = tap s)
    (harm : ∀ k e (s : σ),
      p.run (arm k e s) = mapState (arm k e) (p.run s)) :
    Exposed p where
  onward s := ⟨[], htap s⟩
  splits {k} e {c₀} {s} _ hk := by
    have hsize : (tap (Console.after (p.run s))).calls.size ≤ k := by
      rw [htap]
      exact hk
    rw [harm]
    exact .whole hsize

theorem pure (x : α) : Exposed (pure x : EStateM Failure σ α) :=
  aside (fun _ => rfl) fun _ _ _ => rfl

theorem throw (f : Failure) :
    Exposed (throw f : EStateM Failure σ α) :=
  aside (fun _ => rfl) fun _ _ _ => rfl

/-- The first part may have met the fault, and then the second is never
begun; what it would have called only makes the intact log longer. If the
first part has not, the second may. -/
theorem bind {p : EStateM Failure σ α} {f : α → EStateM Failure σ β}
    (h : Exposed p) (hf : ∀ x, Exposed (f x)) :
    Exposed (p >>= f) where
  onward s := by
    obtain ⟨cs, hcs⟩ := h.onward s
    rw [EStateM.run_bind]
    cases hp : p.run s with
    | error g s' =>
        rw [hp] at hcs
        exact ⟨cs, hcs⟩
    | ok x s' =>
        rw [hp] at hcs
        obtain ⟨ds, hds⟩ := (hf x).onward s'
        refine ⟨cs ++ ds, ?_⟩
        rw [Console.afterCalls_append, ← hcs]
        exact hds
  -- the first part decides, unless it has gone through on both sides
  splits {k} e {c₀} {s} hs hk := by
    obtain ⟨cs, hcs⟩ := h.onward s
    have hsplits := h.splits e hs hk
    rw [EStateM.run_bind, EStateM.run_bind]
    generalize p.run s = r at hcs hsplits
    generalize p.run (arm k e s) = r' at hsplits
    cases hsplits with
    | whole hsize =>
        cases r with
        | error g s' => exact .whole hsize
        | ok x s' =>
            -- so far nothing was broken, and all of it is to come
            have hs' : Tap.Faithful c₀ (tap s') := by
              rw [show tap s' = _ from hcs]
              exact hs.afterCalls cs
            exact (hf x).splits e hs' hsize
    | cut hcut =>
        cases r with
        | error g s' => exact .cut hcut
        | ok x s' =>
            -- the intact machine goes on alone
            obtain ⟨ds, hds⟩ := (hf x).onward s'
            refine .cut ?_
            show Tap.Cut k e c₀ (tap (Console.after ((f x).run s'))) _
            rw [hds]
            exact hcut.afterCalls ds

end Exposed

-- ================================================================= devices

namespace DeviceExec

/-- What a call of the console comes to when a device makes it. -/
def answered (d : ρ) (b : Board κ) :
    Result IoError κ α → Result Failure (ρ × Board κ) α
  | .ok x console => .ok x (d, { b with console })
  | .error e console => .error (.console e) (d, { b with console })

/-- A call that a device makes is the console's, and the device keeps its
state. -/
theorem run_call (c : Console.Call) (d : ρ) (b : Board κ) :
    (ofBoard (Board.call c)).run (d, b)
      = answered d b ((Console.call c).run b.console) := by
  rw [run_ofBoard, Board.call, Board.run_onConsole]
  cases (Console.call c).run b.console <;> rfl

/-- A call fails if it is the broken one, and else does what it did. -/
theorem exposed_call (c : Console.Call) :
    Exposed (ofBoard (Board.call c) :
      DeviceExec (Tap κ) ρ c.Answer) := by
  have htap (d : ρ) (b : Board (Tap κ)) :
      tap (Console.after ((ofBoard (Board.call c)).run (d, b)))
        = Console.after ((Console.call c).run b.console) := by
    rw [run_call]
    cases (Console.call c).run b.console <;> rfl
  constructor
  · rintro ⟨d, b⟩
    exact ⟨[c], htap d b⟩
  · rintro k e c₀ ⟨d, b⟩ hs hk
    change Tap.Faithful c₀ b.console at hs
    change b.console.calls.size ≤ k at hk
    have harmed : (ofBoard (Board.call c)).run (arm k e (d, b))
        = answered d b ((Console.call c).run (b.console.arm k e)) := by
      refine (run_call c d { b with console := _ }).trans ?_
      show answered _ _ ((Console.call c).run (b.console.arm k e)) = _
      cases (Console.call c).run (b.console.arm k e) <;> rfl
    rw [harmed]
    -- this call is the one to break, or the fault stays armed
    by_cases hdue : b.console.calls.size = k
    · rw [Tap.run_call_due hdue]
      refine .cut ?_
      rw [htap]
      exact hs.cut hdue c
    · have hsame : answered d b ((Console.call c).run (b.console.arm k e))
          = mapState (arm k e) ((ofBoard (Board.call c)).run (d, b)) := by
        rw [Tap.run_call_arm hs.fault hdue, run_call]
        cases (Console.call c).run b.console <;> rfl
      rw [hsame]
      refine .whole ?_
      rw [htap, Tap.calls_call, Array.size_push]
      omega

/-- An orderly device is made of looks, changes and calls, each of which is
exposed. -/
theorem Orderly.exposed {p : DeviceExec (Tap κ) ρ α} (h : p.Orderly) :
    Exposed p := by
  induction h with
  | pure x => exact .pure x
  | throw f => exact .throw f
  | bind _ _ ih ihf => exact ih.bind ihf
  | look f => exact .aside (fun _ => rfl) fun _ _ _ => rfl
  | own f => exact .aside (fun _ => rfl) fun _ _ _ => rfl
  | change c =>
      cases c <;> exact .aside (fun _ => rfl) fun _ _ _ => rfl
  | call c => exact exposed_call c

end DeviceExec

-- ============================================================= the machine

namespace Machine

/-- So is an access to the bus, which is served by something orderly
wherever it leads. -/
theorem Served.exposed {p : Exec (Tap κ) δ α} (h : Served p) :
    Exposed p := by
  constructor
  · rintro ⟨board, devices, running⟩
    obtain ⟨ρ, r, act, table, hact, hrun⟩ := h devices running
    obtain ⟨cs, hcs⟩ :=
      hact.exposed.onward (r, board)
    rw [hrun, after_mapState]
    exact ⟨cs, hcs⟩
  · rintro k e c₀ ⟨board, devices, running⟩ hs hk
    obtain ⟨ρ, r, act, table, hact, hrun⟩ := h devices running
    have hsplits : Splits k e c₀ (act.run (r, board))
        (act.run (Tapped.arm k e (r, board))) :=
      hact.exposed.splits e hs hk
    have harmed : p.run (Tapped.arm k e ⟨board, devices, running⟩)
        = mapState (fun s => ⟨s.2, table s.1, running⟩)
          (act.run (Tapped.arm k e (r, board))) :=
      hrun { board with console := board.console.arm k e }
    rw [hrun, harmed]
    -- what is left of the machine is the serving device's act alone
    generalize act.run (r, board) = q at hsplits
    generalize act.run (Tapped.arm k e (r, board)) = q' at hsplits
    cases hsplits with
    | whole hsize =>
        cases q with
        | ok x s => exact .whole hsize
        | error f s => exact .whole hsize
    | cut hcut =>
        refine .cut ?_
        rw [after_mapState]
        exact hcut

/-- The machine's own calls are exposed like those of a device. -/
theorem exposed_call (c : Console.Call) :
    Exposed (call c : Exec (Tap κ) δ c.Answer) :=
  (served_call c).exposed

theorem sequential_exposed :
    Sequential (Exposed : {α : Type} → Exec (Tap κ) δ α → Prop) where
  pure := .pure
  bind := .bind

/-- Acts do not come near the console. -/
theorem exposed_act (a : Act) :
    Exposed (act a : Exec (Tap κ) δ Unit) := by
  refine .aside (fun m => ?_) fun k e m => ?_
  · show (a.apply m).console = m.console
    cases a <;> rfl
  · show Result.ok () (a.apply (m.arm k e)) = .ok () ((a.apply m).arm k e)
    cases a <;> rfl

variable [Peripheral δ] [OrderlyPeripheral δ]

theorem exposed_read (a : Word) :
    Exposed (read a : Exec (Tap κ) δ Word) :=
  (served_read a).exposed

/-- A fault in waiting does not change how many keys are pending, so the
loop may go round as often as it could. -/
theorem exposed_putString (bytes : Word → List Byte) :
    Exposed (putString bytes : Exec (Tap κ) δ Unit) := by
  have hloop (m : Machine (Tap κ) δ) :
      Exposed (do
        walk bytes (walkLimit m) (m.core.reg 0)
        call .flush : Exec (Tap κ) δ Unit) :=
    (sequential_exposed.walk (.throw .endless)
      (fun b => exposed_call (.write b)) exposed_read bytes _ _).bind
      fun _ => exposed_call .flush
  constructor
  · intro m
    rw [run_putString]
    exact (hloop m).onward m
  · intro k e c₀ m hs hk
    rw [run_putString, run_putString]
    exact (hloop m).splits e hs hk

/-- What is made of exposed acts is exposed. -/
theorem Twin.exposed {p q : Exec (Tap κ) δ α} (h : Twin p q) :
    Exposed p :=
  sequential_exposed.twin
    (fun _ => .aside (fun _ => rfl) fun _ _ _ => rfl) exposed_act
    exposed_read (fun a w => (served_write a w).exposed)
    (fun c _ => exposed_call c) exposed_putString h

/-- A step is made of the acts that twins are made of. -/
theorem exposed_step :
    Exposed (step : Exec (Tap κ) δ Status) :=
  twin_step.exposed

-- =================================================== one step after another

/-- The machine after that many steps, whatever they came to. -/
def stepped {κ : Type} [Console κ] (m : Machine κ δ) : Nat → Machine κ δ
  | 0 => m
  | n + 1 => Console.after (step.run (m.stepped n))

/-- Later steps only add calls. -/
theorem onward_stepped (m : Machine (Tap κ) δ) {n n' : Nat}
    (h : n ≤ n') :
    ∃ cs, (m.stepped n').console
      = Console.afterCalls cs (m.stepped n).console := by
  induction h with
  | refl => exact ⟨[], rfl⟩
  | @step n' _ ih =>
      obtain ⟨cs, hcs⟩ := ih
      obtain ⟨ds, hds⟩ := exposed_step.onward (m.stepped n')
      refine ⟨cs ++ ds, ?_⟩
      rw [Console.afterCalls_append, ← hcs]
      exact hds

/-- The tap on an intact console tells at any time how the console has come
to be what it is. -/
theorem faithful_stepped (m : Machine κ δ) (n : Nat) :
    Tap.Faithful m.console (m.tapped.stepped n).console := by
  obtain ⟨cs, hcs⟩ := onward_stepped m.tapped n.zero_le
  have hstart : Tap.Faithful m.console (m.tapped.stepped 0).console :=
    ⟨rfl, rfl⟩
  rw [hcs]
  exact hstart.afterCalls cs

/-- The log never gets shorter. -/
theorem calls_stepped (m : Machine (Tap κ) δ) {n n' : Nat} (h : n ≤ n') :
    (m.stepped n).console.calls.size
      ≤ (m.stepped n').console.calls.size := by
  obtain ⟨cs, hcs⟩ := onward_stepped m h
  rw [hcs, ← Array.length_toList, ← Array.length_toList,
    Tap.calls_afterCalls, List.length_append]
  exact Nat.le_add_right _ _

/-- What was put out by one step is there after all later ones. -/
theorem view_stepped (m : Machine κ δ) {view : κ → List β}
    (hview : Console.Grows view) {n n' : Nat} (h : n ≤ n') :
    view (m.tapped.stepped n).console.inner
      <+: view (m.tapped.stepped n').console.inner := by
  obtain ⟨cs, hcs⟩ := onward_stepped m.tapped h
  have hcalls : (m.tapped.stepped n).console.calls.toList
      <+: (m.tapped.stepped n').console.calls.toList := by
    rw [hcs, Tap.calls_afterCalls]
    exact List.prefix_append _ cs
  rw [(faithful_stepped m n).inner, (faithful_stepped m n').inner]
  exact hview.of_prefix hcalls m.console

variable {k : Nat} (e : IoError)

/-- A step either does not get to the broken call, or fails there. -/
theorem splits_stepped (m : Machine κ δ) {n : Nat}
    (h : (m.tapped.stepped n).console.calls.size ≤ k) :
    Splits k e m.console (step.run (m.tapped.stepped n))
      (step.run ((m.tapped.stepped n).arm k e)) :=
  exposed_step.splits e (faithful_stepped m n) h

/-- As long as the call has not come up, the machines go side by side. -/
theorem stepped_arm (m : Machine κ δ) {n : Nat}
    (h : (m.tapped.stepped n).console.calls.size ≤ k) :
    (m.tapped.arm k e).stepped n = (m.tapped.stepped n).arm k e := by
  induction n with
  | zero => rfl
  | succ n ih =>
      have hbefore : (m.tapped.stepped n).console.calls.size ≤ k :=
        Nat.le_trans (calls_stepped m.tapped n.le_succ) h
      show Console.after (step.run ((m.tapped.arm k e).stepped n)) = _
      rw [ih hbefore, (splits_stepped e m hbefore).eq_of_le h]
      exact after_mapState _ _

/-- The step that the fault comes up in, if it does in this one, puts out
no more than it would without. -/
theorem view_stepped_arm (m : Machine κ δ) {n : Nat}
    (h : (m.tapped.stepped n).console.calls.size ≤ k)
    {view : κ → List β} (hview : Console.Grows view) :
    view ((m.tapped.arm k e).stepped (n + 1)).console.inner
      <+: view (m.tapped.stepped (n + 1)).console.inner := by
  by_cases hk : (m.tapped.stepped (n + 1)).console.calls.size ≤ k
  · rw [stepped_arm e m hk]
    exact List.prefix_refl _
  · obtain ⟨s, hs, hcut⟩ :=
      (splits_stepped e m h).error_of_lt (Nat.not_le.1 hk)
    have hlast : (m.tapped.arm k e).stepped (n + 1) = s := by
      show Console.after (step.run ((m.tapped.arm k e).stepped n)) = s
      rw [stepped_arm e m h, hs]
      rfl
    rw [hlast]
    exact hcut.grown (faithful_stepped m (n + 1)) hview

omit [OrderlyPeripheral δ] in
/-- If the call comes up at all, there is a step that makes it. -/
theorem exists_step_of_lt (m : Machine κ δ) {n : Nat}
    (h : k < (m.tapped.stepped n).console.calls.size) :
    ∃ i < n, (m.tapped.stepped i).console.calls.size ≤ k
      ∧ k < (m.tapped.stepped (i + 1)).console.calls.size := by
  induction n with
  | zero => exact absurd h (Nat.not_lt_zero k)
  | succ n ih =>
      by_cases hbefore : (m.tapped.stepped n).console.calls.size ≤ k
      · exact ⟨n, n.lt_succ_self, hbefore, h⟩
      · obtain ⟨i, hi, hle, hlt⟩ := ih (Nat.not_le.1 hbefore)
        exact ⟨i, Nat.lt_succ_of_lt hi, hle, hlt⟩

-- ================================================================== a run

/-- A run, too, only adds calls. -/
theorem onward_advance (limit : Nat) (m : Machine (Tap κ) δ) :
    ∃ cs, (advance limit m).2.console
      = Console.afterCalls cs m.console := by
  induction limit generalizing m with
  | zero => exact ⟨[], rfl⟩
  | succ limit ih =>
      obtain ⟨cs, hcs⟩ := exposed_step.onward m
      rw [advance]
      cases hstep : step.run m with
      | error f m₁ =>
          rw [hstep] at hcs
          exact ⟨cs, hcs⟩
      | ok status m₁ =>
          rw [hstep] at hcs
          change m₁.console = Console.afterCalls cs m.console at hcs
          cases status with
          | halted => exact ⟨cs, hcs⟩
          | running =>
              -- the calls of the first step, then those of the rest
              obtain ⟨ds, hds⟩ := ih m₁
              refine ⟨cs ++ ds, ?_⟩
              rw [Console.afterCalls_append, ← hcs]
              exact hds

/-- How a run fares with the call broken: as before, if it does not get
there, and otherwise it fails. -/
inductive RunSplits (k : Nat) (e : IoError) (c₀ : κ)
    (r : Progress × Machine (Tap κ) δ) :
    Progress × Machine (Tap κ) δ → Prop where
  | whole (h : r.2.console.calls.size ≤ k) :
      RunSplits k e c₀ r (r.1, r.2.arm k e)
  | cut {s : Machine (Tap κ) δ} (h : Tap.Cut k e c₀ r.2.console s.console) :
      RunSplits k e c₀ r (.failed (.console e), s)

namespace RunSplits

variable {e} {c₀ : κ} {r r' : Progress × Machine (Tap κ) δ}

omit [Peripheral δ] [OrderlyPeripheral δ]

/-- A run that does not get to the call is as before. -/
theorem eq_of_le (h : RunSplits k e c₀ r r')
    (hk : r.2.console.calls.size ≤ k) : r' = (r.1, r.2.arm k e) := by
  cases h with
  | whole _ => rfl
  | cut hcut => exact absurd hcut.reached (Nat.not_lt.2 hk)

/-- A run that gets past the call fails with it broken. -/
theorem failed_of_lt (h : RunSplits k e c₀ r r')
    (hk : k < r.2.console.calls.size) :
    r'.1 = .failed (.console e)
      ∧ Tap.Cut k e c₀ r.2.console r'.2.console := by
  cases h with
  | whole hsize => exact absurd hk (Nat.not_lt.2 hsize)
  | cut hcut => exact ⟨rfl, hcut⟩

end RunSplits

/-- A run either does not get to the broken call, or fails at the step that
does. The induction is on the limit; once a step has failed the run is over
on the one side, and on the other it goes on with longer logs. -/
theorem splits_advance {c₀ : κ} (limit : Nat) {m : Machine (Tap κ) δ}
    (hm : Tap.Faithful c₀ m.console) (hk : m.console.calls.size ≤ k) :
    RunSplits k e c₀ (advance limit m) (advance limit (m.arm k e)) := by
  induction limit generalizing m with
  | zero => exact .whole hk
  | succ limit ih =>
      obtain ⟨cs, hcs⟩ := exposed_step.onward m
      have hsplits := exposed_step.splits e hm hk
      change Splits k e c₀ (step.run m) (step.run (m.arm k e)) at hsplits
      rw [advance, advance]
      generalize step.run m = r at hcs hsplits
      generalize step.run (m.arm k e) = r' at hsplits
      -- the first step is the same on both sides, or a call breaks in it
      cases hsplits with
      | whole hsize =>
          cases r with
          | error f m₁ => exact .whole hsize
          | ok status m₁ =>
              cases status with
              | halted => exact .whole hsize
              | running =>
                  have hm₁ : Tap.Faithful c₀ m₁.console := by
                    rw [show m₁.console = _ from hcs]
                    exact hm.afterCalls cs
                  exact ih hm₁ hsize
      | cut hcut =>
          cases r with
          | error f m₁ => exact .cut hcut
          | ok status m₁ =>
              cases status with
              | halted => exact .cut hcut
              | running =>
                  -- the other run only makes more calls
                  obtain ⟨ds, hds⟩ := onward_advance limit m₁
                  refine .cut ?_
                  show Tap.Cut k e c₀ (advance limit m₁).2.console _
                  rw [hds]
                  exact hcut.afterCalls ds

/-- What was put out by a run that was broken off is the beginning of what
it would have put out. -/
theorem view_advance {c₀ : κ} (limit : Nat) {m : Machine (Tap κ) δ}
    (hm : Tap.Faithful c₀ m.console) (hk : m.console.calls.size ≤ k)
    {view : κ → List β} (hview : Console.Grows view) :
    view (advance limit (m.arm k e)).2.console.inner
      <+: view (advance limit m).2.console.inner := by
  have hsplits := splits_advance e limit hm hk
  obtain ⟨cs, hcs⟩ := onward_advance limit m
  have hlogged : Tap.Faithful c₀ (advance limit m).2.console := by
    rw [hcs]
    exact hm.afterCalls cs
  by_cases hsize : (advance limit m).2.console.calls.size ≤ k
  · rw [hsplits.eq_of_le hsize]
    exact List.prefix_refl _
  · obtain ⟨-, hcut⟩ := hsplits.failed_of_lt (Nat.not_le.1 hsize)
    exact hcut.grown hlogged hview

-- ==================================================== both machines compared

/-- How a machine fares when call `k` of its console, counted from zero
over all that it does, fails with `e` and has no effect. It is compared
with the same machine and its console intact, both with a tap that counts
the calls. -/
structure Surfaces (k : Nat) (e : IoError) (m : Machine κ δ) : Prop where
  /-- The log of the intact machine tells what its console has been
  through. -/
  logged (n : Nat) : Tap.Faithful m.console (m.tapped.stepped n).console
  /-- Up to the broken call both are in the same state. -/
  same (n : Nat) (h : (m.tapped.stepped n).console.calls.size ≤ k) :
    (m.tapped.arm k e).stepped n = (m.tapped.stepped n).arm k e
  /-- And a step that does not get there gives the same answer. -/
  answers (n : Nat)
    (h : (m.tapped.stepped (n + 1)).console.calls.size ≤ k) :
    step.run ((m.tapped.arm k e).stepped n)
      = mapState (arm k e) (step.run (m.tapped.stepped n))
  /-- The step that gets there fails with that error, and the broken call
  is its last. -/
  fails (n : Nat) (h : k < (m.tapped.stepped n).console.calls.size) :
    ∃ i < n, (m.tapped.stepped i).console.calls.size ≤ k ∧
      ∃ s, step.run ((m.tapped.arm k e).stepped i) = .error (.console e) s
        ∧ Tap.Cut k e m.console (m.tapped.stepped (i + 1)).console s.console
  /-- Until then, the failing step included, nothing has been put out that
  the intact machine does not put out. -/
  output {β : Type} (view : κ → List β) (hview : Console.Grows view)
    (n n' : Nat) (h : (m.tapped.stepped n).console.calls.size ≤ k)
    (hn : n < n') :
    view ((m.tapped.arm k e).stepped (n + 1)).console.inner
      <+: view (m.tapped.stepped n').console.inner
  /-- A run that does not get there is the same. -/
  runSame (limit : Nat)
    (h : (advance limit m.tapped.start).2.console.calls.size ≤ k) :
    advance limit (m.tapped.arm k e).start =
      ((advance limit m.tapped.start).1,
        (advance limit m.tapped.start).2.arm k e)
  /-- And one that gets there fails with that error. -/
  runFails (limit : Nat)
    (h : k < (advance limit m.tapped.start).2.console.calls.size) :
    (advance limit (m.tapped.arm k e).start).1 = .failed (.console e)
      ∧ Tap.Cut k e m.console (advance limit m.tapped.start).2.console
        (advance limit (m.tapped.arm k e).start).2.console
  runOutput {β : Type} (view : κ → List β) (hview : Console.Grows view)
    (limit : Nat) :
    view (advance limit (m.tapped.arm k e).start).2.console.inner
      <+: view (advance limit m.tapped.start).2.console.inner

/-- A console call that fails, whichever it is, ends the step that made it
and is what the host is told. -/
theorem broken_call_surfaces (k : Nat) (e : IoError) (m : Machine κ δ) :
    Surfaces k e m := by
  have hstart : Tap.Faithful m.console m.tapped.start.console := ⟨rfl, rfl⟩
  have hrun (limit : Nat) :
      RunSplits k e m.console (advance limit m.tapped.start)
        (advance limit (m.tapped.arm k e).start) :=
    splits_advance e limit hstart k.zero_le
  constructor
  case logged => exact faithful_stepped m
  case same => exact fun n h => stepped_arm e m h
  case answers =>
    intro n h
    have hbefore := Nat.le_trans (calls_stepped m.tapped n.le_succ) h
    rw [stepped_arm e m hbefore]
    exact (splits_stepped e m hbefore).eq_of_le h
  case fails =>
    intro n h
    obtain ⟨i, hi, hbefore, hreached⟩ := exists_step_of_lt m h
    refine ⟨i, hi, hbefore, ?_⟩
    rw [stepped_arm e m hbefore]
    exact (splits_stepped e m hbefore).error_of_lt hreached
  case output =>
    intro β view hview n n' h hn
    exact (view_stepped_arm e m h hview).trans (view_stepped m hview hn)
  case runSame => exact fun limit h => (hrun limit).eq_of_le h
  case runFails => exact fun limit h => (hrun limit).failed_of_lt h
  case runOutput =>
    intro β view hview limit
    exact view_advance e limit hstart k.zero_le hview

/-- A machine about to ask for a key, with one in the queue. -/
def asking : Machine Buffered Empty :=
  let m : Machine Buffered Empty := new { input := [0x41] }
  { m with toBoard := m.toBoard.poke Core.entry 0xf023 }

def unplugged : IoError := ⟨.brokenPipe, "unplugged"⟩

/-- The prompt breaks off after five letters, the key stays where it was,
and the host is told. -/
theorem broken_call_surfaces_prompt :
    (∃ s, step.run (asking.tapped.arm 5 unplugged)
          = .error (.console unplugged) s
        ∧ s.console.calls.size = 6
        ∧ s.console.inner
          = { input := [0x41], output := #[69, 110, 116, 101, 114] })
      ∧ ((asking.tapped.arm 5 unplugged).stepped 1).console.inner.output.toList
        <+: (asking.tapped.stepped 1).console.inner.output.toList
      ∧ (asking.tapped.stepped 1).console.inner.output.size = 20 := by
  have h := broken_call_surfaces 5 unplugged asking
  have hreached : 5 < (asking.tapped.stepped 1).console.calls.size := by
    decide +kernel
  obtain ⟨i, hi, -, s, hs, hcut⟩ := h.fails 1 hreached
  -- there is one step, so it is the one that fails
  cases Nat.lt_one_iff.1 hi
  have hoff : (asking.tapped.stepped 0).console.calls.size ≤ 5 := by
    decide +kernel
  refine ⟨⟨s, hs, ?_, ?_⟩,
    h.output _ Buffered.grows_output 0 1 hoff Nat.zero_lt_one, ?_⟩
  · rw [← Array.length_toList, hcut.calls]
    decide +kernel
  · rw [hcut.inner]
    decide +kernel
  · decide +kernel

end Machine

end Lc3
