/-
The console of a person at a terminal: the keys typed so far, of which
programs see only those that have a character, and the screen. The
screen is in raw mode and does not return to the left margin by itself,
so a line feed goes out as a carriage return and a line feed.

A terminal is live while its person is still there. Nothing here can
wait for them, so on a live terminal a poll or a read that has run out
of keys fails with `noKey`, and whoever can wait may give the terminal
more keys and try again. On one that is not, a poll goes without a key.
-/
import Lc3.Console.Basic
import Lc3.Key.Event

namespace Lc3

structure Terminal where
  keys : List Key.Event := []
  screen : Array Byte := #[]
  live : Bool := false
deriving DecidableEq, Repr

namespace Terminal

/-- Skips to the first key that has a character, or that asks to stop,
and takes it. -/
def nextByte :
    List Key.Event → Except IoError (Option Byte) × List Key.Event
  | [] => (.ok none, [])
  | e :: rest =>
      match e.byte with
      | .ok none => nextByte rest
      | answer => (answer, rest)

/-- Looking for a character uses keys up and brings none. -/
theorem nextByte_length_le (keys : List Key.Event) :
    (nextByte keys).2.length ≤ keys.length := by
  induction keys with
  | nil => exact Nat.le_refl _
  | cons e rest ih =>
      unfold nextByte
      split
      · exact Nat.le_succ_of_le ih
      · exact Nat.le_succ _

/-- A character comes from a key. -/
theorem nextByte_length_lt {keys left : List Key.Event} {b : Byte}
    (h : nextByte keys = (.ok (some b), left)) :
    left.length < keys.length := by
  induction keys with
  | nil => cases h
  | cons e rest ih =>
      unfold nextByte at h
      split at h
      · exact Nat.lt_succ_of_lt (ih h)
      · have hleft : rest = left := congrArg Prod.snd h
        rw [← hleft]
        exact Nat.lt_succ_self _

/-- There is no key to be had without waiting. -/
def noKey : IoError := ⟨.wouldBlock, "no key typed"⟩

/-- How one byte is put on the screen. -/
def shown (b : Byte) : List Byte := if b = 0x0a then [0x0d, 0x0a] else [b]

def poll : EStateM IoError Terminal (Option Byte) := fun t =>
  match nextByte t.keys with
  | (.ok (some b), keys) => .ok (some b) { t with keys }
  | (.ok none, keys) =>
      if t.live then .error noKey { t with keys }
      else .ok none { t with keys }
  | (.error e, keys) => .error e { t with keys }

def read : EStateM IoError Terminal Byte := fun t =>
  match nextByte t.keys with
  | (.ok (some b), keys) => .ok b { t with keys }
  | (.ok none, keys) => .error noKey { t with keys }
  | (.error e, keys) => .error e { t with keys }

def write (b : Byte) : EStateM IoError Terminal Unit := fun t =>
  .ok () { t with screen := t.screen ++ shown b }

theorem run_poll (t : Terminal) :
    poll.run t =
      match nextByte t.keys with
      | (.ok (some b), keys) => .ok (some b) { t with keys }
      | (.ok none, keys) =>
          if t.live then .error noKey { t with keys }
          else .ok none { t with keys }
      | (.error e, keys) => .error e { t with keys } :=
  rfl

theorem run_read (t : Terminal) :
    read.run t =
      match nextByte t.keys with
      | (.ok (some b), keys) => .ok b { t with keys }
      | (.ok none, keys) => .error noKey { t with keys }
      | (.error e, keys) => .error e { t with keys } :=
  rfl

instance : Console Terminal where
  call
    | .poll _ => poll
    | .read => read
    | .write b => write b
    | .flush => pure ()
  pending t := t.keys.length

instance : LawfulConsole Terminal where
  pending_poll {_ key s s'} h := by
    simp only [Console.call, run_poll] at h
    split at h
    · rename_i hnext
      cases h
      exact nextByte_length_lt hnext
    · split at h <;> cases h
    · cases h
  pending_call c s := by
    have hnext := nextByte_length_le s.keys
    cases c with
    | poll _ =>
        simp only [Console.call, run_poll]
        split <;> rename_i heq <;> rw [heq] at hnext
        · exact hnext
        · split <;> exact hnext
        · exact hnext
    | read =>
        simp only [Console.call, run_read]
        split <;> rename_i heq <;> rw [heq] at hnext <;> exact hnext
    | write _ | flush => exact Nat.le_refl _

end Terminal

end Lc3
