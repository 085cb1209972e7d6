/-
A console behind which another one does the work, while every call is
noted, a failing one included. A tap can also break one chosen call:
the call with that number, counted from zero over all four kinds, fails
with the given error and never reaches the console behind.
-/
import Lc3.Console.Basic

namespace Lc3

structure Tap (κ : Type) where
  inner : κ
  calls : Array Console.Call := #[]
  fault : Option (Nat × IoError) := none
deriving DecidableEq, Repr

namespace Tap

variable {κ : Type}

/-- The error that the next call is due to fail with. -/
def due (t : Tap κ) : Option IoError :=
  t.fault.bind fun (i, e) => if i = t.calls.size then some e else none

def call [Console κ] (c : Console.Call) : EStateM IoError (Tap κ) c.Answer
  | ⟨inner, calls, fault⟩ =>
      match Tap.due ⟨inner, calls, fault⟩ with
      | some e => .error e ⟨inner, calls.push c, fault⟩
      | none =>
          match (Console.call c).run inner with
          | .ok a inner => .ok a ⟨inner, calls.push c, fault⟩
          | .error e inner => .error e ⟨inner, calls.push c, fault⟩

/-- A call that is not due to fail is the inner console's. -/
theorem run_call [Console κ] (c : Console.Call) (t : Tap κ) :
    (call c).run t =
      match t.due with
      | some e => .error e { t with calls := t.calls.push c }
      | none =>
          match (Console.call c).run t.inner with
          | .ok a inner => .ok a { t with inner, calls := t.calls.push c }
          | .error e inner =>
              .error e { t with inner, calls := t.calls.push c } :=
  rfl

instance [Console κ] : Console (Tap κ) where
  call := Tap.call
  pending t := Console.pending t.inner

instance [Console κ] [LawfulConsole κ] : LawfulConsole (Tap κ) where
  pending_poll {millis key s s'} h := by
    replace h := (run_call _ s).symm.trans h
    split at h
    · cases h
    · split at h
      · rename_i answer inner hcall
        cases h
        have hlt : Console.pending inner < Console.pending s.inner :=
          LawfulConsole.pending_poll hcall
        exact hlt
      · cases h
  pending_call c s := by
    have hinner := LawfulConsole.pending_call c s.inner
    simp only [Console.call, run_call]
    split
    · exact Nat.le_refl _
    · split <;> rename_i hcall <;> rw [hcall] at hinner <;> exact hinner

end Tap

end Lc3
