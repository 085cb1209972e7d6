/-
A bank of words addressed by `n` bits: memory with sixteen of them, the
register file with three. It is a complete binary tree whose levels are
decided by one address bit each, the highest first, so that a write
copies one path and shares the rest with the bank before it. Keeping an
old state of the whole memory costs nothing, and neither does evaluating
a few accesses to a memory of 65536 words.

A bank is determined by what its cells hold (`ext_get`), and a write is
seen at its address and nowhere else (`get_set`).
-/
import Lc3.Word

namespace Lc3

inductive Bank : Nat → Type where
  | cell (w : Word) : Bank 0
  | split {n : Nat} (low high : Bank n) : Bank (n + 1)
deriving DecidableEq, Repr

namespace Bank

-- Powers of numbers are the plain ones, whatever else is in scope.
attribute [local instance (high)] instPowNat

variable {n : Nat}

-- ============================================================= operations

/-- Every cell holds `w`. -/
def fill : (n : Nat) → (w : Word) → Bank n
  | 0, w => cell w
  | n + 1, w =>
      let half := fill n w
      split half half

/-- The cell that the low `n` bits of `i` lead to. -/
def find : {n : Nat} → Bank n → (i : Nat) → Word
  | _, cell w, _ => w
  | n + 1, split low high, i =>
      if i.testBit n then high.find i else low.find i

/-- Replaces the cell that the low `n` bits of `i` lead to. -/
def replace : {n : Nat} → Bank n → (i : Nat) → (w : Word) → Bank n
  | _, cell _, _, w => cell w
  | n + 1, split low high, i, w =>
      if i.testBit n then split low (high.replace i w)
      else split (low.replace i w) high

def get (b : Bank n) (a : BitVec n) : Word := b.find a.toNat

def set (b : Bank n) (a : BitVec n) (w : Word) : Bank n :=
  b.replace a.toNat w

-- =================================================== what a write changes

/-- A filled bank is the same word wherever one looks, also past its end. -/
theorem find_fill (n : Nat) (w : Word) (i : Nat) :
    (fill n w).find i = w := by
  induction n with
  | zero => rfl
  | succ n ih => simp [fill, find, ih]

@[simp] theorem get_fill (w : Word) (a : BitVec n) :
    (fill n w).get a = w :=
  find_fill n w a.toNat

theorem find_replace_same (b : Bank n) (i : Nat) (w : Word) :
    (b.replace i w).find i = w := by
  induction b with
  | cell _ => rfl
  | split low high ihl ihh =>
      unfold replace
      split <;> simp [find, *]

/-- The two paths part at some level, and from there on they have no node in
common. The induction goes down to that level. -/
theorem find_replace_of_ne (b : Bank n) (i j : Nat) (w : Word)
    (h : ∃ k < n, i.testBit k ≠ j.testBit k) :
    (b.replace i w).find j = b.find j := by
  induction b with
  | cell _ => simp at h
  | @split n low high ihl ihh =>
      have lower (same : i.testBit n = j.testBit n) :
          ∃ k < n, i.testBit k ≠ j.testBit k := by
        obtain ⟨k, hk, hne⟩ := h
        refine ⟨k, ?_, hne⟩
        rcases Nat.lt_succ_iff_lt_or_eq.1 hk with hlt | rfl
        · exact hlt
        · exact absurd same hne
      unfold replace
      by_cases hi : i.testBit n <;> by_cases hj : j.testBit n
      · simp [find, hi, hj, ihh (lower (by simp [hi, hj]))]
      · simp [find, hi, hj]
      · simp [find, hi, hj]
      · simp [find, hi, hj, ihl (lower (by simp [hi, hj]))]

@[simp] theorem get_set_self (b : Bank n) (a : BitVec n) (w : Word) :
    (b.set a w).get a = w :=
  find_replace_same b a.toNat w

/-- Addresses that differ have a bit in which they do, which is what it
takes for the paths to part. -/
theorem get_set_of_ne (b : Bank n) {a c : BitVec n} (w : Word)
    (h : a ≠ c) : (b.set a w).get c = b.get c := by
  refine find_replace_of_ne b _ _ w ?_
  apply Classical.byContradiction
  intro same
  refine h (BitVec.eq_of_getLsbD_eq fun i hi => ?_)
  apply Classical.byContradiction
  intro hne
  exact same ⟨i, hi, hne⟩

/-- A write is seen at its address and nowhere else. -/
theorem get_set (b : Bank n) (a c : BitVec n) (w : Word) :
    (b.set a w).get c = if a = c then w else b.get c := by
  by_cases h : a = c
  · subst h
    simp
  · rw [if_neg h, get_set_of_ne b w h]

-- ===================================================== cells make the bank

/-- The bits above the ones a bank looks at do not matter. -/
theorem find_add_pow (b : Bank n) (i k : Nat) (hk : n ≤ k) :
    b.find (2 ^ k + i) = b.find i := by
  induction b with
  | cell _ => rfl
  | @split n low high ihl ihh =>
      have hbit : (2 ^ k + i).testBit n = i.testBit n := by
        rw [Nat.testBit_two_pow_add_gt (by omega)]
      unfold find
      rw [hbit, ihl (by omega), ihh (by omega)]

/-- The half that an address is in is told by its highest bit, so both
halves are seen, each from all of its own addresses. -/
theorem ext_find {b c : Bank n}
    (h : ∀ i < 2 ^ n, b.find i = c.find i) : b = c := by
  induction n with
  | zero =>
      match b, c with
      | cell v, cell w =>
          have := h 0 (by simp)
          simpa [find] using this
  | succ n ih =>
      match b, c with
      | split low high, split low' high' =>
          have hlow : low = low' := ih fun i hi => by
            have hbit : i.testBit n = false := Nat.testBit_lt_two_pow hi
            have := h i (by omega)
            simpa [find, hbit] using this
          have hhigh : high = high' := ih fun i hi => by
            have hbit : (2 ^ n + i).testBit n = true := by
              rw [Nat.testBit_two_pow_add_eq, Nat.testBit_lt_two_pow hi]
              rfl
            have := h (2 ^ n + i) (by omega)
            simpa [find, hbit, find_add_pow _ i n (Nat.le_refl n)]
              using this
          rw [hlow, hhigh]

/-- A bank is what its cells hold. States of the machine are compared by
this, cell by cell. -/
theorem ext_get {b c : Bank n} (h : ∀ a, b.get a = c.get a) : b = c :=
  ext_find fun i hi => by
    have := h (BitVec.ofNat n i)
    simpa [get, Nat.mod_eq_of_lt hi] using this

end Bank

end Lc3
