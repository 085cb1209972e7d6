/-
What a console has been through, told by the calls that were made of it.
The calls alone say it: whatever they answered, what is left of the
console is what they left (`afterCalls`), and a tap that breaks nothing
writes them down one by one (`Tap.Faithful`).

A tap that breaks one call is, up to that call, the same tap with a fault
in waiting (`Tap.arm`), and what it leaves at that call is what the other
one had by then (`Tap.Cut`). So what has been put out is cut short and
nothing else: `Tap.Cut.grown`.
-/
import Lc3.Console.Buffered
import Lc3.Console.Tap
import Lc3.Proofs.Outcome

namespace Lc3

namespace Console

variable {κ β : Type} [Console κ]

-- ================================================================== calls

/-- What is left of a console when these calls were made of it, whatever
they answered. -/
def afterCalls (cs : List Call) (s : κ) : κ :=
  cs.foldl (fun s c => after ((call c).run s)) s

/-- Calls that are made later start from what the earlier ones left. -/
theorem afterCalls_append (cs ds : List Call) (s : κ) :
    afterCalls (cs ++ ds) s = afterCalls ds (afterCalls cs s) :=
  List.foldl_append

/-- A view of the console to which calls add, and from which they take
nothing away. -/
def Grows (view : κ → List β) : Prop :=
  ∀ c s, view s <+: view (after ((call c).run s))

/-- What has grown call by call has grown over all of them. -/
theorem Grows.afterCalls {view : κ → List β} (h : Grows view)
    (cs : List Call) (s : κ) : view s <+: view (afterCalls cs s) := by
  induction cs generalizing s with
  | nil => exact List.prefix_refl _
  | cons c cs ih => exact (h c s).trans (ih _)

/-- A console that has been through fewer calls has the beginning of what it
would have with more. -/
theorem Grows.of_prefix {view : κ → List β} (h : Grows view)
    {cs ds : List Call} (hcs : cs <+: ds) (s : κ) :
    view (Console.afterCalls cs s) <+: view (Console.afterCalls ds s) := by
  obtain ⟨es, rfl⟩ := hcs
  rw [afterCalls_append]
  exact h.afterCalls es _

end Console

/-- What was put out stays put out. -/
theorem Buffered.grows_output :
    Console.Grows fun b : Buffered => b.output.toList := by
  intro c b
  obtain ⟨input, output, flushes, closed⟩ := b
  cases closed with
  | true => cases c <;> exact List.prefix_refl _
  | false =>
      cases c with
      | poll _ | read => cases input <;> exact List.prefix_refl _
      | write byte => exact ⟨[byte], Array.toList_push.symm⟩
      | flush => exact List.prefix_refl _

namespace Tap

variable {κ : Type} [Console κ]

-- ========================================================== the whole log

/-- The tap has broken nothing, and its log tells how the console behind
it came to be from `c₀`. -/
structure Faithful (c₀ : κ) (t : Tap κ) : Prop where
  fault : t.fault = none
  inner : t.inner = Console.afterCalls t.calls.toList c₀

omit [Console κ] in
theorem due_of_fault {t : Tap κ} (h : t.fault = none) : t.due = none := by
  unfold due
  rw [h]
  rfl

/-- A call that is not due to fail is noted, and is the console's
own. -/
theorem run_call_undue {t : Tap κ} (h : t.due = none)
    (c : Console.Call) :
    (Console.call c).run t =
      mapState (fun inner => { t with inner, calls := t.calls.push c })
        ((Console.call c).run t.inner) := by
  refine (run_call c t).trans ?_
  rw [h]
  cases (Console.call c).run t.inner <;> rfl

/-- A call is noted whether it is answered, fails or is broken. -/
theorem calls_call (c : Console.Call) (t : Tap κ) :
    (Console.after ((Console.call c).run t)).calls = t.calls.push c := by
  have hrun : (Console.call c).run t = (call c).run t := rfl
  rw [hrun, run_call]
  cases t.due with
  | some e => rfl
  | none => cases (Console.call c).run t.inner <;> rfl

/-- The log is that of all calls in their order, and nothing in it is taken
back. -/
theorem calls_afterCalls (cs : List Console.Call) (t : Tap κ) :
    (Console.afterCalls cs t).calls.toList = t.calls.toList ++ cs := by
  induction cs generalizing t with
  | nil => exact (List.append_nil _).symm
  | cons c cs ih =>
      refine (ih _).trans ?_
      rw [calls_call, Array.toList_push, List.append_assoc]
      rfl

/-- A tap that has told everything so far tells the next call as well. -/
theorem Faithful.call {c₀ : κ} {t : Tap κ} (h : Faithful c₀ t)
    (c : Console.Call) :
    Faithful c₀ (Console.after ((Console.call c).run t)) := by
  rw [run_call_undue (due_of_fault h.fault), after_mapState]
  refine ⟨h.fault, ?_⟩
  show Console.after _ = Console.afterCalls (t.calls.push c).toList c₀
  rw [Array.toList_push, Console.afterCalls_append, ← h.inner]
  rfl

/-- Behind such a tap a call has the answer that it has without. -/
theorem Faithful.run_call {c₀ : κ} {t : Tap κ} (h : Faithful c₀ t)
    (c : Console.Call) :
    ∃ t' : Tap κ, Faithful c₀ t'
      ∧ t'.inner = Console.after ((Console.call c).run t.inner)
      ∧ (Console.call c).run t
        = mapState (fun _ => t') ((Console.call c).run t.inner) := by
  refine ⟨_, h.call c, ?_⟩
  rw [run_call_undue (due_of_fault h.fault)]
  cases (Console.call c).run t.inner <;> exact ⟨rfl, rfl⟩

/-- A tap without a fault keeps telling everything. -/
theorem Faithful.afterCalls {c₀ : κ} {t : Tap κ} (h : Faithful c₀ t)
    (cs : List Console.Call) : Faithful c₀ (Console.afterCalls cs t) := by
  induction cs generalizing t with
  | nil => exact h
  | cons c cs ih => exact ih (h.call c)

-- ============================================================= one fault

/-- The tap with a fault in waiting. -/
def arm (k : Nat) (e : IoError) (t : Tap κ) : Tap κ :=
  { t with fault := some (k, e) }

/-- The tap `t'` has broken call `k` of those that `t` has in its log,
and that was the last call made through it: the ones before had their
effect, and this one had none. -/
structure Cut (k : Nat) (e : IoError) (c₀ : κ) (t t' : Tap κ) :
    Prop where
  reached : k < t.calls.size
  fault : t'.fault = some (k, e)
  calls : t'.calls.toList = t.calls.toList.take (k + 1)
  inner : t'.inner = Console.afterCalls (t.calls.toList.take k) c₀

variable {k : Nat} {e : IoError} {c₀ : κ} {t t' : Tap κ}

/-- Before its call comes up, a fault in waiting changes nothing. -/
theorem run_call_arm (h : t.fault = none) (hk : t.calls.size ≠ k)
    (c : Console.Call) :
    (Console.call c).run (t.arm k e) =
      mapState (arm k e) ((Console.call c).run t) := by
  have hdue : (t.arm k e).due = none := if_neg (Ne.symm hk)
  rw [run_call_undue hdue, run_call_undue (due_of_fault h)]
  show mapState _ ((Console.call c).run t.inner) = _
  cases (Console.call c).run t.inner <;> rfl

/-- The call that is due fails with the fault in place of what the console
would have done, and is noted all the same. -/
theorem run_call_due (hk : t.calls.size = k) (c : Console.Call) :
    (Console.call c).run (t.arm k e) =
      .error e { t.arm k e with calls := t.calls.push c } := by
  have hdue : (t.arm k e).due = some e := if_pos hk.symm
  refine (run_call c (t.arm k e)).trans ?_
  rw [hdue]
  rfl

/-- The call at which the fault comes up is the last of the one tap and was
never made of the console, where the other tap has let it through. -/
theorem Faithful.cut (h : Faithful c₀ t) (hk : t.calls.size = k)
    (c : Console.Call) :
    Cut k e c₀ (Console.after ((Console.call c).run t))
      { t.arm k e with calls := t.calls.push c } where
  reached := by
    rw [calls_call, Array.size_push, hk]
    exact Nat.lt_succ_self k
  fault := rfl
  calls := by
    have hlength : (t.calls.push c).toList.length = k + 1 := by
      rw [Array.length_toList, Array.size_push, hk]
    rw [calls_call, List.take_of_length_le (Nat.le_of_eq hlength)]
  inner := by
    have hlength : t.calls.toList.length = k := hk
    rw [calls_call, Array.toList_push, ← hlength, List.take_left]
    exact h.inner

/-- Calls that are made later do not touch what was cut off. -/
theorem Cut.afterCalls (h : Cut k e c₀ t t') (cs : List Console.Call) :
    Cut k e c₀ (Console.afterCalls cs t) t' := by
  have hreached : k < t.calls.toList.length := h.reached
  refine ⟨?_, h.fault, ?_, ?_⟩
  · rw [← Array.length_toList, calls_afterCalls, List.length_append]
    omega
  · rw [h.calls, calls_afterCalls, List.take_append_of_le_length hreached]
  · rw [h.inner, calls_afterCalls,
      List.take_append_of_le_length (Nat.le_of_lt hreached)]

/-- What was put out is cut short. -/
theorem Cut.grown {β : Type} {view : κ → List β}
    (h : Cut k e c₀ t t') (ht : Faithful c₀ t)
    (hview : Console.Grows view) : view t'.inner <+: view t.inner := by
  rw [h.inner, ht.inner]
  exact hview.of_prefix (List.take_prefix k _) c₀

end Tap

end Lc3
