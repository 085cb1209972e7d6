/-
A run with the keyboard alone, and what can be heard of it at the
console. Two things are to be known of such a run before anyone outside
can rely on how it ends: that nothing but the console makes it fail, and
that listening in on the console does not disturb it.

The first is a matter of single acts, a string routine among them: that
its loop has an end is known from what it has ahead (`walk_ends`), so its
limit is no cause of failure. The second is a lockstep of the machine with
the same machine behind a tap. It takes the keyboard alone, because a
device may ask of its board what kind of console it has.
-/
import Lc3.Proofs.Machine.Moves
import Lc3.Proofs.Machine.Secluded
import Lc3.Proofs.Machine.Strings

namespace Lc3.Machine

variable {κ δ α : Type} [Console κ] [Peripheral δ]

-- ============================================================== failures

/-- From a machine with the keyboard alone, only the console makes the
computation fail, and a success leaves such a machine. -/
def Dependable (p : Exec κ δ α) : Prop :=
  ∀ m : Machine κ δ, m.devices = .standard →
    Meets (fun _ m' => m'.devices = .standard) (fun f _ => FromConsole f)
      (p.run m)

omit [Console κ] [Peripheral δ] in
/-- What only the console makes fail, part by part, only the console makes
fail. -/
theorem sequential_dependable :
    Sequential (Dependable : {α : Type} → Exec κ δ α → Prop) where
  pure _ _ hdev := hdev
  bind h hf := fun m hdev => (h m hdev).bind fun x m' => hf x m'

/-- A read polls or looks at a cell. -/
theorem dependable_read (a : Word) :
    Dependable (read a : Exec κ δ Word) := by
  intro m hdev
  refine (meets_read hdev a).imp ?_ ?_
  · rintro w m' ⟨hpolled, -⟩
    exact hpolled.devices.trans hdev
  · rintro f m' ⟨-, e, console, -, hf, -⟩
    exact ⟨e, hf⟩

/-- A write is a cell's, since the keyboard's data register is one and its
status takes what it is given. -/
theorem dependable_write (a w : Word) :
    Dependable (write a w : Exec κ δ Unit) := by
  intro m hdev
  rw [run_write_standard a w m hdev]
  exact hdev

omit [Peripheral δ] in
/-- A call fails by the console's failure. -/
theorem dependable_call (c : Console.Call) :
    Dependable (call c : Exec κ δ c.Answer) :=
  fun m hdev => (meets_call c m).imp
    (fun _ _ h => h.devices.trans hdev) fun _ _ h => h.1

/-- With a limit above what is ahead, the loop of the string routines has
no failure of its own. -/
theorem meets_walk [LawfulConsole κ] (bytes : Word → List Byte)
    {limit : Nat} (a : Word) {m : Machine κ δ}
    (hdev : m.devices = .standard) (hlimit : ahead a m < limit) :
    Meets (fun _ m' => m'.devices = .standard) (fun f _ => FromConsole f)
      ((walk bytes limit a).run m) := by
  have hpolled := polled_walk bytes limit a m hdev
  obtain ⟨reads, polls, hwalks, -, -⟩ :=
    walk_ends bytes limit a m hdev hlimit
  have hfails := hwalks.fromConsole hdev
  cases hrun : (walk bytes limit a).run m with
  | error f m₁ => exact hfails.of_error hrun
  | ok x m₁ => exact (hpolled.of_ok hrun).devices.trans hdev

/-- A string comes to its end, or the console breaks it off. Its loop has a
limit, but is done before that. -/
theorem dependable_putString [LawfulConsole κ]
    (bytes : Word → List Byte) :
    Dependable (putString bytes : Exec κ δ Unit) := by
  intro m hdev
  have hloop := meets_walk bytes (m.core.reg 0) hdev
    (ahead_lt_walkLimit _ m)
  rw [run_putString]
  exact hloop.bind fun _ m₁ => dependable_call .flush m₁

/-- A step is made of these acts. -/
theorem dependable_step [LawfulConsole κ] :
    Dependable (step : Exec κ δ Status) :=
  sequential_dependable.twin (fun _ _ hdev => hdev)
    (fun a m hdev => (devices_apply a m).trans hdev) dependable_read
    dependable_write (fun c _ => dependable_call c) dependable_putString
    (twin_step : Twin step (step : Exec κ δ Status))

/-- A run that fails does so with the console. -/
theorem fromConsole_advance [LawfulConsole κ] (limit : Nat)
    {m m' : Machine κ δ} (hdev : m.devices = .standard) {f : Failure}
    (h : advance limit m = (.failed f, m')) : FromConsole f := by
  induction limit generalizing m with
  | zero => cases h
  | succ limit ih =>
      -- it fails with the console, or the keyboard is still alone
      have hone := dependable_step m hdev
      rw [advance] at h
      cases hstep : step.run m with
      | error f' m₁ =>
          rw [hstep] at h
          cases h
          exact hone.of_error hstep
      | ok status m₁ =>
          rw [hstep] at h
          cases status with
          | halted => cases h
          | running => exact ih (hone.of_ok hstep) h

-- ============================================================= listening

/-- The machine, and the same machine behind a tap that has noted how the
console came to be from `c₀`. -/
structure Overheard (c₀ : κ) (m : Machine κ δ) (n : Machine (Tap κ) δ) :
    Prop where
  devices : m.devices = .standard
  behind : ∃ t : Tap κ,
    Tap.Faithful c₀ t ∧ t.inner = m.console ∧ n = m.onto t

omit [Peripheral δ] in
/-- At first the tap has nothing to tell. -/
theorem overheard_tapped {m : Machine κ δ} (hdev : m.devices = .standard) :
    Overheard m.console m m.tapped where
  devices := hdev
  behind := ⟨{ inner := m.console }, ⟨rfl, rfl⟩, rfl, rfl⟩

variable {c₀ : κ}

/-- With the keyboard alone, a machine goes on behind a tap as it does
without: every access is a cell's or the keyboard's, and the keyboard knows
its console by calls. -/
theorem lockstep_overheard :
    Lockstep (Overheard c₀ : Machine κ δ → Machine (Tap κ) δ → Prop) where
  sight h := by
    obtain ⟨-, t, -, -, rfl⟩ := h
    rfl
  apply a h := by
    obtain ⟨hdev, t, ht, hinner, rfl⟩ := h
    cases a <;> exact ⟨hdev, t, ht, hinner, rfl⟩
  read {m n} a h := by
    obtain ⟨hdev, t, ht, hinner, rfl⟩ := h
    have hdev' : (m.onto t).devices = .standard := hdev
    by_cases ha : a = Keyboard.status
    · subst ha
      obtain ⟨t', ht', hinner', hpoll⟩ :=
        ht.run_call (.poll Keyboard.patience)
      have hconsole : (m.onto t).console = t := rfl
      rw [run_read_status hdev, run_read_status hdev', hconsole, hpoll]
      rw [hinner] at hinner' ⊢
      -- there is one poll, and the tap passes its answer on
      generalize (Console.call (.poll Keyboard.patience)).run m.console = r
        at hinner' ⊢
      cases r with
      | error e c => exact .error _ ⟨hdev, t', ht', hinner', rfl⟩
      | ok answer c =>
          cases answer with
          | none => exact .ok _ ⟨hdev, t', ht', hinner', rfl⟩
          | some key => exact .ok _ ⟨hdev, t', ht', hinner', rfl⟩
    · rw [run_read_of_ne hdev ha, run_read_of_ne hdev' ha]
      exact .ok _ ⟨hdev, t, ht, hinner, rfl⟩
  write {m n} a w h := by
    obtain ⟨hdev, t, ht, hinner, rfl⟩ := h
    have hdev' : (m.onto t).devices = .standard := hdev
    rw [run_write_standard a w m hdev, run_write_standard a w _ hdev']
    exact .ok () ⟨hdev, t, ht, hinner, rfl⟩
  call {m n} c h := by
    obtain ⟨hdev, t, ht, hinner, rfl⟩ := h
    obtain ⟨t', ht', hinner', hcall⟩ := ht.run_call c
    have hconsole : (m.onto t).console = t := rfl
    rw [run_call, run_call, hconsole, hcall]
    rw [hinner] at hinner' ⊢
    generalize (Console.call c).run m.console = r at hinner' ⊢
    cases r with
    | error e console => exact .error _ ⟨hdev, t', ht', hinner', rfl⟩
    | ok x console => exact .ok x ⟨hdev, t', ht', hinner', rfl⟩

/-- The tap promises as many keys as the console does, so the loops of the
string routines have one limit on both sides. -/
theorem strings_overheard :
    StringsAgree
      (Overheard c₀ : Machine κ δ → Machine (Tap κ) δ → Prop) := by
  refine lockstep_overheard.strings fun m n h => ?_
  obtain ⟨-, t, -, hinner, rfl⟩ := h
  have hpending : Console.pending m.console = Console.pending t :=
    congrArg Console.pending hinner.symm
  exact congrArg (fun keys => 65536 * (keys + 1)) hpending

/-- Behind a tap a run goes the same way, and what it leaves of the console
is what the calls leave that the tap has noted. -/
theorem console_advance (limit : Nat) {m : Machine κ δ}
    (hdev : m.devices = .standard) :
    (advance limit m.tapped).1 = (advance limit m).1
      ∧ (advance limit m).2.console
        = Console.afterCalls
            (advance limit m.tapped).2.console.calls.toList m.console := by
  have hcount (o : Machine κ δ) (n : Machine (Tap κ) δ)
      (h : Overheard m.console o n) :
      o.core.executed = n.core.executed := by
    obtain ⟨-, t, -, -, rfl⟩ := h
    rfl
  obtain ⟨hsame, -, t, ht, hinner, hbehind⟩ :=
    lockstep_overheard.advance strings_overheard hcount limit
      (overheard_tapped hdev)
  refine ⟨hsame.symm, ?_⟩
  rw [hbehind]
  exact hinner.symm.trans ht.inner

end Lc3.Machine
