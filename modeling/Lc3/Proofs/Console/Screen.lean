/-
What is on the screen of a terminal, and what has been written to have it
there. Of the calls of a console only a write puts anything out, and on a
terminal no write fails, so the screen shows the bytes of all writes in
their order (`Terminal.screen_afterCalls`).

A line feed shows as two bytes, of which the first may also have been
written by itself. Nothing is lost by that: a line feed is never shown but
behind the carriage return that belongs to it, so wherever the two stand
together, they are one byte (`Terminal.unshown_shown`).
-/
import Lc3.Console.Terminal
import Lc3.Proofs.Console.Broken

namespace Lc3

-- ====================================================== what is written

/-- The byte that a call puts out. -/
def Console.Call.put? : Console.Call → Option Byte
  | .write b => some b
  | .poll _ | .read | .flush => none

/-- The bytes that the calls put out, one after the other. -/
def Console.written (cs : List Console.Call) : List Byte :=
  cs.filterMap Console.Call.put?

theorem Console.written_append (cs ds : List Console.Call) :
    Console.written (cs ++ ds) = Console.written cs ++ Console.written ds :=
  List.filterMap_append

namespace Terminal

-- ========================================================= what is shown

/-- A call adds to the screen what it puts out. -/
theorem screen_call (c : Console.Call) (t : Terminal) :
    (Console.after ((Console.call c).run t)).screen.toList
      = t.screen.toList ++ (Console.written [c]).flatMap shown := by
  obtain ⟨keys, screen, live⟩ := t
  cases c with
  | poll millis =>
      have hrun : (Console.call (.poll millis)).run
          (⟨keys, screen, live⟩ : Terminal) = poll.run _ := rfl
      rw [hrun, run_poll]
      split
      · exact (List.append_nil _).symm
      · split <;> exact (List.append_nil _).symm
      · exact (List.append_nil _).symm
  | read =>
      have hrun : (Console.call .read).run
          (⟨keys, screen, live⟩ : Terminal) = read.run _ := rfl
      rw [hrun, run_read]
      split <;> exact (List.append_nil _).symm
  | write b =>
      refine Array.toList_appendList.trans ?_
      exact congrArg (screen.toList ++ ·) (List.append_nil _).symm
  | flush => exact (List.append_nil _).symm

/-- The screen shows what has been written. -/
theorem screen_afterCalls (cs : List Console.Call) (t : Terminal) :
    (Console.afterCalls cs t).screen.toList
      = t.screen.toList ++ (Console.written cs).flatMap shown := by
  induction cs generalizing t with
  | nil => exact (List.append_nil _).symm
  | cons c cs ih =>
      have hwritten := Console.written_append [c] cs
      rw [List.singleton_append] at hwritten
      refine (ih _).trans ?_
      rw [screen_call, hwritten, List.flatMap_append, List.append_assoc]

-- ====================================================== and taken back

/-- The bytes that show as the given text. -/
def unshown : List Byte → List Byte
  | [] => []
  | [b] => [b]
  | b :: c :: text =>
      if b = 0x0d ∧ c = 0x0a then 0x0a :: unshown text
      else b :: unshown (c :: text)

/-- No line feed stands first on a screen. -/
theorem shown_ne_cons (bytes text : List Byte) :
    bytes.flatMap shown ≠ 0x0a :: text := by
  cases bytes with
  | nil => exact (List.cons_ne_nil _ _).symm
  | cons b bytes =>
      intro h
      rw [List.flatMap_cons, shown] at h
      by_cases hb : b = 0x0a
      · rw [if_pos hb] at h
        exact absurd (List.cons.inj h).1 (by decide)
      · rw [if_neg hb] at h
        exact hb (List.cons.inj h).1

/-- A byte with no line feed behind it is its own, whatever it is. -/
theorem unshown_cons {b : Byte} {text : List Byte}
    (h : ∀ rest, text ≠ 0x0a :: rest) :
    unshown (b :: text) = b :: unshown text := by
  cases text with
  | nil => rfl
  | cons c text =>
      refine if_neg ?_
      rintro ⟨-, rfl⟩
      exact h text rfl

/-- What has been written can be told from what is shown. -/
theorem unshown_shown (bytes : List Byte) :
    unshown (bytes.flatMap shown) = bytes := by
  induction bytes with
  | nil => rfl
  | cons b bytes ih =>
      rw [List.flatMap_cons, shown]
      by_cases hb : b = 0x0a
      · rw [if_pos hb, hb]
        show 0x0a :: unshown (bytes.flatMap shown) = _
        rw [ih]
      · rw [if_neg hb]
        show unshown (b :: bytes.flatMap shown) = _
        rw [unshown_cons (shown_ne_cons bytes), ih]

/-- A carriage return that is not a line feed's, and one that is. -/
example : unshown [0x0d, 0x0d, 0x0a] = [0x0d, 0x0a] := by decide

end Terminal

end Lc3
