/-
The one way in which the machine meets its user: a console of keys and
characters. There are four things to ask of it. A poll waits a while for
a key and may come back without one; a read waits until there is a key;
a write puts out one byte; a flush makes what was written visible. Each
may fail, and what a console is behind these four calls is its own
business.

The calls are a type, so that a log of them is a list and a wrapper can
treat all of them alike. `Call.Answer` is what a call that succeeds
comes back with.

A console also bounds how many keys polling it can still deliver. What
reads through the keyboard's status register until there is no key is
finite because of that bound. A lawful console keeps to it: a key that a
poll delivers is one fewer to come, and nothing the machine can ask of a
console adds any.
-/
import Lc3.Word
import Lc3.IoError

namespace Lc3

namespace Console

inductive Call where
  | poll (millis : Nat)
  | read
  | write (b : Byte)
  | flush
deriving DecidableEq, Repr

abbrev Call.Answer : Call → Type
  | .poll _ => Option Byte
  | .read => Byte
  | .write _ => Unit
  | .flush => Unit

end Console

class Console (κ : Type) where
  call : (c : Console.Call) → EStateM IoError κ c.Answer
  /-- No more keys than this come out of any number of polls. -/
  pending : κ → Nat

/-- What a computation leaves behind, whether it succeeded or not. -/
def Console.after {ε σ α : Type} : EStateM.Result ε σ α → σ
  | .ok _ s => s
  | .error _ s => s

class LawfulConsole (κ : Type) [Console κ] : Prop where
  pending_poll {millis : Nat} {key : Byte} {s s' : κ} :
    (Console.call (.poll millis)).run s = .ok (some key) s' →
      Console.pending s' < Console.pending s
  pending_call (c : Console.Call) (s : κ) :
    Console.pending (Console.after ((Console.call c).run s))
      ≤ Console.pending s

namespace Console

variable {κ : Type} [Console κ]

/-- Writes byte after byte, up to the first that fails. -/
def writeAll : List Byte → EStateM IoError κ Unit
  | [] => pure ()
  | b :: bs => do
      call (.write b)
      writeAll bs

end Console

end Lc3
