/-
How two computations compare, and what one of them may leave behind.
Both questions are asked of an outcome: the value or the failure that a
computation came to, together with the state it left.

Two outcomes agree if they are of one kind, have equal values or equal
failures, and leave related states. An outcome meets a pair of
conditions if its state is as the first says after a success, and as
the second says after a failure. Either judgement goes through a
sequence of computations part by part (`Agree.bind`, `Meets.bind`), and
that is the only thing proofs about the machine need to know about
sequencing.
-/
import Lc3.Machine.Run

namespace Lc3

open EStateM (Result)

variable {ε σ τ α β : Type}

-- ======================================================= two computations

/-- Equal values or equal failures, in states related by `R`. -/
inductive Agree (R : σ → τ → Prop) :
    Result ε σ α → Result ε τ α → Prop where
  | ok (x : α) {s : σ} {t : τ} (h : R s t) : Agree R (.ok x s) (.ok x t)
  | error (e : ε) {s : σ} {t : τ} (h : R s t) :
      Agree R (.error e s) (.error e t)

namespace Agree

variable {R : σ → τ → Prop} {r : Result ε σ α} {r' : Result ε τ α}

/-- What the first of two agreeing computations has come to, the second has
come to as well. -/
theorem of_ok {x : α} {s : σ} (h : Agree R r r') (hr : r = .ok x s) :
    ∃ t, r' = .ok x t ∧ R s t := by
  cases h with
  | ok _ h => cases hr; exact ⟨_, rfl, h⟩
  | error _ _ => cases hr

/-- A failure of the first is the same failure of the second, so neither can
hide one. -/
theorem of_error {e : ε} {s : σ} (h : Agree R r r')
    (hr : r = .error e s) : ∃ t, r' = .error e t ∧ R s t := by
  cases h with
  | ok _ _ => cases hr
  | error _ h => cases hr; exact ⟨_, rfl, h⟩

/-- Less can be asked of the states. -/
theorem imp {R' : σ → τ → Prop} (h : Agree R r r')
    (hR : ∀ s t, R s t → R' s t) : Agree R' r r' := by
  cases h with
  | ok x h => exact .ok x (hR _ _ h)
  | error e h => exact .error e (hR _ _ h)

theorem after (h : Agree R r r') :
    R (Console.after r) (Console.after r') := by
  cases h with
  | ok _ h => exact h
  | error _ h => exact h

/-- What follows an agreement agrees if it does so from related
states. -/
theorem bind {p : EStateM ε σ α} {q : EStateM ε τ α}
    {f : α → EStateM ε σ β} {g : α → EStateM ε τ β} {s : σ} {t : τ}
    (h : Agree R (p.run s) (q.run t))
    (hf : ∀ x s' t', p.run s = .ok x s' → R s' t' →
      Agree R ((f x).run s') ((g x).run t')) :
    Agree R ((p >>= f).run s) ((q >>= g).run t) := by
  rw [EStateM.run_bind, EStateM.run_bind]
  cases hp : p.run s with
  | ok x s' =>
      obtain ⟨t', hq, hR⟩ := h.of_ok hp
      rw [hq]
      exact hf x s' t' hp hR
  | error e s' =>
      obtain ⟨t', hq, hR⟩ := h.of_error hp
      rw [hq]
      exact .error e hR

end Agree

-- ======================================================== one computation

/-- Answering in other words does not touch the state. -/
theorem after_map (p : EStateM ε σ α) (f : α → β) (s : σ) :
    Console.after ((do return f (← p)).run s) = Console.after (p.run s) := by
  rw [EStateM.run_bind]
  cases p.run s <;> rfl

/-- A sequence succeeds where both of its parts do. -/
theorem run_bind_ok_iff {p : EStateM ε σ α} {f : α → EStateM ε σ β}
    {s s' : σ} {y : β} :
    (p >>= f).run s = .ok y s' ↔
      ∃ x s₁, p.run s = .ok x s₁ ∧ (f x).run s₁ = .ok y s' := by
  rw [EStateM.run_bind]
  cases p.run s with
  | error e s₁ => simp
  | ok x s₁ => simp [and_assoc]

/-- The outcome with another view of the state that was left. -/
def mapState (f : σ → τ) : Result ε σ α → Result ε τ α
  | .ok x s => .ok x (f s)
  | .error e s => .error e (f s)

theorem after_mapState (f : σ → τ) (r : Result ε σ α) :
    Console.after (mapState f r) = f (Console.after r) := by
  cases r <;> rfl

/-- Looking at the state in another way is no event. -/
theorem agree_mapState {R : σ → τ → Prop} {f : σ → τ} (h : ∀ s, R s (f s))
    (r : Result ε σ α) : Agree R r (mapState f r) := by
  cases r with
  | ok x s => exact .ok x (h s)
  | error e s => exact .error e (h s)

/-- A success leaves a state as `Q` says, a failure one as `E` says. -/
def Meets (Q : α → σ → Prop) (E : ε → σ → Prop) : Result ε σ α → Prop
  | .ok x s => Q x s
  | .error e s => E e s

instance {Q : α → σ → Prop} {E : ε → σ → Prop}
    [∀ x s, Decidable (Q x s)] [∀ e s, Decidable (E e s)] :
    (r : Result ε σ α) → Decidable (Meets Q E r)
  | .ok x s => inferInstanceAs (Decidable (Q x s))
  | .error e s => inferInstanceAs (Decidable (E e s))

namespace Meets

variable {Q Q' : α → σ → Prop} {E E' : ε → σ → Prop}
  {r : Result ε σ α}

/-- Less can be asked of either outcome. -/
theorem imp (h : Meets Q E r) (hQ : ∀ x s, Q x s → Q' x s)
    (hE : ∀ e s, E e s → E' e s) : Meets Q' E' r := by
  cases r with
  | ok x s => exact hQ x s h
  | error e s => exact hE e s h

/-- Two things that were found out apart from each other hold together, of
one and the same outcome. -/
theorem and (h : Meets Q E r) (h' : Meets Q' E' r) :
    Meets (fun x s => Q x s ∧ Q' x s) (fun e s => E e s ∧ E' e s) r := by
  cases r with
  | ok x s => exact ⟨h, h'⟩
  | error e s => exact ⟨h, h'⟩

theorem of_ok {x : α} {s : σ} (h : Meets Q E r) (hr : r = .ok x s) :
    Q x s := by
  rw [hr] at h
  exact h

theorem of_error {e : ε} {s : σ} (h : Meets Q E r)
    (hr : r = .error e s) : E e s := by
  rw [hr] at h
  exact h

/-- What cannot be a failure is a success. -/
theorem ok_of_never (h : Meets Q (fun _ _ => False) r) :
    ∃ x s, r = .ok x s ∧ Q x s := by
  cases r with
  | ok x s => exact ⟨x, s, rfl, h⟩
  | error e s => exact absurd h id

/-- What holds after either kind of outcome holds after it. -/
theorem after {P : σ → Prop} (h : Meets (fun _ => P) (fun _ => P) r) :
    P (Console.after r) := by
  cases r with
  | ok x s => exact h
  | error e s => exact h

/-- What holds of the state that was left holds whichever way it was left.
-/
theorem of_after {P : σ → Prop} (h : P (Console.after r)) :
    Meets (fun _ => P) (fun _ => P) r := by
  cases r with
  | ok x s => exact h
  | error e s => exact h

/-- The second computation is answerable from the states that the first
succeeds in; failures of either are failures of both. -/
theorem bind {p : EStateM ε σ α} {f : α → EStateM ε σ β} {s : σ}
    {P : β → σ → Prop} (h : Meets Q E (p.run s))
    (hf : ∀ x s', Q x s' → Meets P E ((f x).run s')) :
    Meets P E ((p >>= f).run s) := by
  rw [EStateM.run_bind]
  cases hp : p.run s with
  | ok x s' => exact hf x s' (h.of_ok hp)
  | error e s' => exact h.of_error hp

end Meets

end Lc3
