/-
Consoles that can be written to. On a console that works, a write or a
flush succeeds at any time, so a sequence of them is made from the first
to the last, and all that is left to say of it is which calls they were.

What the calls come to is the console's own business. On a buffered one
that has not been closed, bytes that are written stand at the end of the
output, and a flush counts once; the keys that are waiting stay where
they are.
-/
import Lc3.Proofs.Console.Screen

namespace Lc3

namespace Console

-- =============================================================== working

/-- A call that puts something out, or has it shown. -/
def Call.isOutput : Call → Bool
  | .write _ | .flush => true
  | .poll _ | .read => false

variable {κ : Type} [Console κ]

/-- The console takes all that is put out: a write or a flush succeeds,
whatever writes and flushes there were before it. -/
def Works (s : κ) : Prop :=
  ∀ cs : List Call, (∀ c ∈ cs, c.isOutput) → ∀ c : Call, c.isOutput →
    ∃ x s', (call c).run (afterCalls cs s) = .ok x s'

/-- On a console that works a write or a flush can be made at once, and what
it leaves is what calls leave. -/
theorem Works.run_call {s : κ} (h : Works s) {c : Call}
    (hc : c.isOutput) :
    ∃ x, (call c).run s = .ok x (afterCalls [c] s) := by
  obtain ⟨x, s', hrun⟩ := h [] (by simp) c hc
  have hs' : afterCalls [c] s = s' := congrArg after hrun
  rw [hs']
  exact ⟨x, hrun⟩

/-- A console that works still does so behind any writes and flushes. -/
theorem Works.afterCalls {s : κ} (h : Works s) {cs : List Call}
    (hcs : ∀ c ∈ cs, c.isOutput) : Works (afterCalls cs s) := by
  intro ds hds c hc
  rw [← afterCalls_append]
  refine h (cs ++ ds) ?_ c hc
  intro d hd
  rcases List.mem_append.1 hd with hd | hd
  · exact hcs d hd
  · exact hds d hd

/-- Writing bytes puts something out and asks for nothing. -/
theorem isOutput_writes (bs : List Byte) :
    ∀ c ∈ bs.map Call.write, c.isOutput := by
  intro c hc
  obtain ⟨b, -, rfl⟩ := List.mem_map.1 hc
  rfl

/-- On a console that works all bytes are written. -/
theorem Works.run_writeAll {s : κ} (h : Works s) (bs : List Byte) :
    (writeAll bs).run s = .ok () (Console.afterCalls (bs.map .write) s) := by
  induction bs generalizing s with
  | nil => rfl
  | cons b bs ih =>
      obtain ⟨x, hwrite⟩ := h.run_call (c := .write b) rfl
      have hrest : Works (Console.afterCalls [.write b] s) :=
        h.afterCalls (by simp [Call.isOutput])
      rw [writeAll, EStateM.run_bind, hwrite]
      exact ih hrest

end Console

-- ============================================================== buffered

namespace Buffered

open Console (afterCalls written)

/-- A write or a flush of an open console adds what it puts out, or
counts. -/
theorem after_output {b : Buffered} (h : b.closed = false)
    {c : Console.Call} (hc : c.isOutput) :
    ∃ x, (Console.call c).run b = .ok x
      { b with
        output := b.output ++ written [c]
        flushes := b.flushes + [c].count .flush } := by
  obtain ⟨input, output, flushes, closed⟩ := b
  cases h
  cases c with
  | poll _ | read => cases hc
  | write byte => exact ⟨(), rfl⟩
  | flush => exact ⟨(), rfl⟩

/-- Writes and flushes add up: the bytes stand in the order of the writes,
and the flushes are counted. Neither closes the console. -/
theorem afterCalls_outputs {b : Buffered} (h : b.closed = false)
    {cs : List Console.Call} (hcs : ∀ c ∈ cs, c.isOutput) :
    afterCalls cs b =
      { b with
        output := b.output ++ written cs
        flushes := b.flushes + cs.count .flush } := by
  induction cs generalizing b with
  | nil => simp [afterCalls, written]
  | cons c cs ih =>
      obtain ⟨x, hrun⟩ := after_output h (hcs c (by simp))
      have hwritten : written (c :: cs) = written [c] ++ written cs :=
        Console.written_append [c] cs
      have hcount : (c :: cs).count .flush
          = [c].count .flush + cs.count .flush := by
        rw [← List.count_append, List.singleton_append]
      have houtput : b.output ++ written [c] ++ written cs
          = b.output ++ (written [c] ++ written cs) :=
        Array.ext' (by simp)
      have hafter : Console.after ((Console.call c).run b)
          = { b with
              output := b.output ++ written [c]
              flushes := b.flushes + [c].count .flush } :=
        congrArg Console.after hrun
      have hrest : ∀ d ∈ cs, d.isOutput := fun d hd => hcs d (by simp [hd])
      show afterCalls cs (Console.after ((Console.call c).run b)) = _
      rw [hafter, ih (by exact h) hrest, hwritten, hcount, ← houtput,
        ← Nat.add_assoc]

/-- An open console takes everything, since only a closing makes a write or
a flush fail and no call closes it. -/
theorem works {b : Buffered} (h : b.closed = false) : Console.Works b := by
  intro cs hcs c hc
  rw [afterCalls_outputs h hcs]
  obtain ⟨x, hrun⟩ := after_output
    (b := { b with
      output := b.output ++ written cs
      flushes := b.flushes + cs.count .flush }) h hc
  exact ⟨x, _, hrun⟩

end Buffered

end Lc3
