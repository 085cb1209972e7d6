/-
Dialogues with a console. Of calls that are made one after the other, each
may fail, and nobody asks on behind a failure. So a dialogue in which
every call was answered is one that went to its end, and its answers are
all that was learned from the console.
-/
import Lc3.Proofs.Outcome

namespace Lc3.Console

/-- A call that succeeded, and its answer. -/
structure Exchange where
  call : Call
  answer : call.Answer

/-- Bytes that were written. -/
def writes (bytes : List Byte) : List Exchange :=
  bytes.map fun b => ⟨.write b, ()⟩

variable {κ : Type} [Console κ]

/-- From the console `s` on, the calls are answered like this, one after
the other, and leave `s'`. -/
inductive Dialogue : κ → List Exchange → κ → Prop where
  | over (s : κ) : Dialogue s [] s
  | answered {c : Call} {x : c.Answer} {s s₁ s' : κ} {es : List Exchange}
      (h : (call c).run s = .ok x s₁) (rest : Dialogue s₁ es s') :
      Dialogue s (⟨c, x⟩ :: es) s'

/-- Saying nothing leaves the console where it was. -/
@[simp] theorem dialogue_nil {s s' : κ} :
    Dialogue s [] s' ↔ s' = s := by
  constructor
  · intro h
    cases h
    rfl
  · rintro rfl
    exact .over _

/-- A dialogue goes on from where its first answer left the console. -/
@[simp] theorem dialogue_cons {c : Call} {x : c.Answer}
    {es : List Exchange} {s s' : κ} :
    Dialogue s (⟨c, x⟩ :: es) s' ↔
      ∃ s₁, (call c).run s = .ok x s₁ ∧ Dialogue s₁ es s' := by
  constructor
  · intro h
    cases h with
    | answered h rest => exact ⟨_, h, rest⟩
  · rintro ⟨s₁, h, rest⟩
    exact .answered h rest

/-- Two dialogues are one if the second begins where the first has left the
console, and each can be cut into two so. -/
theorem dialogue_append {es fs : List Exchange} {s s' : κ} :
    Dialogue s (es ++ fs) s' ↔
      ∃ s₁, Dialogue s es s₁ ∧ Dialogue s₁ fs s' := by
  induction es generalizing s with
  | nil => simp
  | cons e es ih =>
      obtain ⟨c, x⟩ := e
      simp only [List.cons_append, dialogue_cons, ih]
      constructor
      · rintro ⟨s₁, h, s₂, hes, hfs⟩
        exact ⟨s₂, ⟨s₁, h, hes⟩, hfs⟩
      · rintro ⟨s₂, ⟨s₁, h, hes⟩, hfs⟩
        exact ⟨s₁, h, s₂, hes, hfs⟩

/-- All bytes are written if every write is answered. -/
theorem writeAll_ok_iff {bytes : List Byte} {s s' : κ} :
    (writeAll bytes).run s = .ok () s' ↔ Dialogue s (writes bytes) s' := by
  induction bytes generalizing s with
  | nil =>
      show EStateM.Result.ok () s = .ok () s' ↔ Dialogue s [] s'
      simp [eq_comm]
  | cons b bytes ih =>
      have hcons : writes (b :: bytes) = ⟨.write b, ()⟩ :: writes bytes :=
        rfl
      rw [writeAll, run_bind_ok_iff, hcons, dialogue_cons]
      simp only [ih]
      constructor
      · rintro ⟨⟨⟩, s₁, hwrite, hrest⟩
        exact ⟨s₁, hwrite, hrest⟩
      · rintro ⟨s₁, hwrite, hrest⟩
        exact ⟨(), s₁, hwrite, hrest⟩

end Lc3.Console
