/-
Two machines that keep company until they part. Of some machines one can
say that they do everything alike for as long as something has not
happened, and of what comes later nothing is to be said. What it is that
has happened is told by a mark on the first machine, or by how the first
machine failed.

A mark stays where it is. So it is enough to look for it at the end: if
it is not there, it was not there at any time before, and all acts have
been alike (`Twin.unless`). The loops of the string routines may have
different limits on the two sides, if the first one's reaching its limit
is among the failures that part them.
-/
import Lc3.Proofs.Machine.Conserved

namespace Lc3

open EStateM (Result)

variable {ε σ τ α β : Type}

-- ================================================================ outcomes

/-- The outcomes agree, unless the first is one that parts them: a success
in a state with the mark `P`, or one of the failures `F`. -/
def AgreeUnless (P : σ → Prop) (F : ε → σ → Prop) (R : σ → τ → Prop)
    (r : Result ε σ α) (r' : Result ε τ α) : Prop :=
  Meets (fun _ => P) F r ∨ Agree R r r'

namespace AgreeUnless

variable {P : σ → Prop} {F : ε → σ → Prop} {R : σ → τ → Prop}

/-- What follows does not take a mark away, so it need not be compared
once there is one. -/
theorem bind {p : EStateM ε σ α} {q : EStateM ε τ α}
    {f : α → EStateM ε σ β} {g : α → EStateM ε τ β} {s : σ} {t : τ}
    (h : AgreeUnless P F R (p.run s) (q.run t))
    (hmark : ∀ x s', P s' → Meets (fun _ => P) F ((f x).run s'))
    (hf : ∀ x s' t', R s' t' →
      AgreeUnless P F R ((f x).run s') ((g x).run t')) :
    AgreeUnless P F R ((p >>= f).run s) ((q >>= g).run t) := by
  rcases h with hparted | hagree
  · exact .inl (hparted.bind hmark)
  · rw [EStateM.run_bind, EStateM.run_bind]
    generalize p.run s = r at hagree
    generalize q.run t = r' at hagree
    cases hagree with
    | ok x h => exact hf x _ _ h
    | error e h => exact .inr (.error e h)

end AgreeUnless

namespace Machine

variable {κ κ' δ δ' : Type} [Console κ] [Console κ'] [Peripheral δ]
  [Peripheral δ']

-- ================================================================ machines

/-- Machines related by `R` keep company: they do every single act alike
and stay related, unless the first gets the mark `P` or fails as `F`
says. -/
structure Company (P : Machine κ δ → Prop)
    (F : Failure → Machine κ δ → Prop)
    (R : Machine κ δ → Machine κ' δ' → Prop) : Prop where
  sight {m n} : R m n → m.sight = n.sight
  apply {m n} (a : Act) : R m n → R (a.apply m) (a.apply n)
  read {m n} (a : Word) :
    R m n → AgreeUnless P F R ((read a).run m) ((read a).run n)
  write {m n} (a w : Word) :
    R m n → AgreeUnless P F R ((write a w).run m) ((write a w).run n)
  call {m n} (c : Console.Call) (hc : Direct c) :
    R m n → AgreeUnless P F R ((call c).run m) ((call c).run n)
  limit {m n} : R m n → walkLimit m = walkLimit n
    ∨ walkLimit m ≤ walkLimit n ∧ ∀ o, F .endless o
  /-- With the mark, all failures part them. -/
  failed {m} (f : Failure) : P m → F f m
  appliedMark {m} (a : Act) : P m → P (a.apply m)
  readMark (a : Word) :
    Conserves (fun m m' => P m → P m') (Machine.read a)
  writeMark (a w : Word) :
    Conserves (fun m m' => P m → P m') (Machine.write a w)
  calledMark (c : Console.Call) (hc : Direct c) :
    Conserves (fun m m' => P m → P m') (Machine.call c)

namespace Company

variable {P : Machine κ δ → Prop} {F : Failure → Machine κ δ → Prop}
  {R : Machine κ δ → Machine κ' δ' → Prop}

omit [Console κ] [Peripheral δ] in
/-- A mark that stays through each part of a sequence stays through the
sequence. -/
theorem sequential_mark :
    Sequential (Conserves fun m m' => P m → P m' :
      {α : Type} → Exec κ δ α → Prop) :=
  sequential_conserves (fun _ h => h) fun _ _ _ h h' hm => h' (h hm)

/-- What keeps the mark parts them, if they are parted. -/
theorem parted (hR : Company P F R) {p : Exec κ δ α}
    (hp : Conserves (fun m m' => P m → P m') p) {m : Machine κ δ}
    (hm : P m) : Meets (fun _ => P) F (p.run m) :=
  (hp.meets m).imp (fun _ _ h => h hm) fun f _ h => hR.failed f (h hm)

/-- The first of two machines in company never loses the mark, whatever it
does. -/
theorem mark (hR : Company P F R) {p : Exec κ δ α} {q : Exec κ' δ' α}
    (h : Twin p q) : Conserves (fun m m' => P m → P m') p :=
  h.conserves sequential_mark (fun a _ => hR.appliedMark a) hR.readMark
    hR.writeMark hR.calledMark

/-- Putting out a text, they stay in company byte by byte, or one of the
writes has parted them. -/
theorem say (hR : Company P F R) (bytes : List Byte) {m : Machine κ δ}
    {n : Machine κ' δ'} (hmn : R m n) :
    AgreeUnless P F R ((say bytes).run m) ((say bytes).run n) := by
  induction bytes generalizing m n with
  | nil => exact .inr (.ok () hmn)
  | cons b bs ih =>
      have hrest : Conserves (fun m m' => P m → P m')
          (Machine.say bs : Exec κ δ Unit) :=
        sequential_mark.say (fun b => hR.calledMark (.write b) trivial) bs
      rw [say_cons, say_cons]
      refine (hR.call (.write b) trivial hmn).bind ?_ ?_
      · intro _ m₁ h₁
        exact hR.parted hrest h₁
      · intro _ m₁ n₁ h₁
        exact ih h₁

/-- The first loop may be the one that is cut off earlier. -/
theorem walk (hR : Company P F R) (bytes : Word → List Byte)
    {limit limit' : Nat}
    (hlimit : limit = limit' ∨ limit ≤ limit' ∧ ∀ o, F .endless o)
    (a : Word) {m : Machine κ δ} {n : Machine κ' δ'} (hmn : R m n) :
    AgreeUnless P F R ((walk bytes limit a).run m)
      ((walk bytes limit' a).run n) := by
  have hput (b : Byte) :
      Conserves (fun m m' => P m → P m')
        (Machine.call (.write b) : Exec κ δ Unit) :=
    hR.calledMark (.write b) trivial
  -- on the first limit; the second is the same or larger, and a turn that
  -- both make lowers either
  induction limit generalizing limit' a m n with
  | zero =>
      rcases hlimit with rfl | ⟨-, hendless⟩
      · exact .inr (.error Failure.endless hmn)
      · exact .inl (hendless m)
  | succ limit ih =>
      obtain ⟨limit', rfl⟩ : ∃ l, limit' = l + 1 :=
        ⟨limit' - 1, by omega⟩
      have hlimit' : limit = limit'
          ∨ limit ≤ limit' ∧ ∀ o, F .endless o := by
        rcases hlimit with heq | ⟨hle, hendless⟩
        · exact .inl (by omega)
        · exact .inr ⟨by omega, hendless⟩
      have hloop := sequential_mark.walk (fun _ h => h) hput hR.readMark
        bytes limit
      refine (hR.read a hmn).bind ?_ ?_
      -- the read has parted them, and the rest of the loop keeps the mark
      · intro w m₁ h₁
        show Meets _ _ (EStateM.run (if w = 0 then _ else _) m₁)
        by_cases hw : w = 0
        · rw [if_pos hw]
          exact h₁
        · rw [if_neg hw]
          have hrest := sequential_mark.bind
            (sequential_mark.say hput (bytes w)) fun _ => hloop (a + 1)
          exact hR.parted hrest h₁
      -- both have read the same word
      · intro w m₁ n₁ h₁
        show AgreeUnless P F R (EStateM.run (if w = 0 then _ else _) m₁)
          (EStateM.run (if w = 0 then _ else _) n₁)
        by_cases hw : w = 0
        · rw [if_pos hw, if_pos hw]
          exact .inr (.ok () h₁)
        · rw [if_neg hw, if_neg hw]
          refine (hR.say (bytes w) h₁).bind ?_ ?_
          · intro _ m₂ h₂
            exact hR.parted (hloop (a + 1)) h₂
          · intro _ m₂ n₂ h₂
            exact ih hlimit' (a + 1) h₂

/-- The loops may have limits of their own: where the first machine reaches
its limit, that has parted them. -/
theorem putString (hR : Company P F R) (bytes : Word → List Byte)
    {m : Machine κ δ} {n : Machine κ' δ'} (hmn : R m n) :
    AgreeUnless P F R ((putString bytes).run m)
      ((putString bytes).run n) := by
  have hreg : m.core.reg 0 = n.core.reg 0 :=
    congrArg (fun s => s.regs.get 0) (hR.sight hmn)
  rw [run_putString, run_putString, hreg]
  refine (hR.walk bytes (hR.limit hmn) _ hmn).bind ?_ ?_
  · intro _ m₁ h₁
    exact hR.parted (hR.calledMark .flush trivial) h₁
  · intro _ m₁ n₁ h₁
    exact hR.call .flush trivial h₁

end Company

/-- What two machines do alike act by act, they do alike, unless they part
on the way. -/
theorem Twin.unless {P : Machine κ δ → Prop}
    {F : Failure → Machine κ δ → Prop}
    {R : Machine κ δ → Machine κ' δ' → Prop} (hR : Company P F R)
    {p : Exec κ δ α} {q : Exec κ' δ' α} (h : Twin p q) {m : Machine κ δ}
    {n : Machine κ' δ'} (hmn : R m n) :
    AgreeUnless P F R (p.run m) (q.run n) := by
  induction h generalizing m n with
  | pure x => exact .inr (.ok x hmn)
  | bind _ hf ih ihf =>
      refine (ih hmn).bind ?_ ?_
      · intro x m₁ h₁
        exact hR.parted (hR.mark (hf x)) h₁
      · intro x m₁ n₁ h₁
        exact ihf x h₁
  | look f =>
      have hlook : Agree R (.ok (f m.sight) m : Result Failure _ _)
          (.ok (f n.sight) n) := by
        rw [hR.sight hmn]
        exact .ok _ hmn
      exact .inr hlook
  | act a => exact .inr (.ok () (hR.apply a hmn))
  | read a => exact hR.read a hmn
  | write a w => exact hR.write a w hmn
  | call c hc => exact hR.call c hc hmn
  | putString bytes => exact hR.putString bytes hmn

end Machine

end Lc3
