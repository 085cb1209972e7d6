/-
The keyboard's two registers over whole sessions. Reading the status takes
the oldest key from the queue, and leaves it in the data register; with
no key it leaves the data register alone. So the data register holds what
was put into it last, be it a key, a word that was stored, or one from an
image, and it makes no difference where in a session that happened: in a
fetch, behind a pointer, or in the midst of a string.

What happened is the traffic on the bus, and the last word put into the
data register can be told from it (`lastPut`). A single access keeps the
register and the traffic together, so a session does (`telling_keeps`).
-/
import Lc3.Proofs.Machine.Traffic
import Lc3.Console.Buffered

namespace Lc3

open Keyboard (data status ready)

-- ============================================== what is put into the register

namespace Access

/-- The word that an access puts into the keyboard's data register. -/
def put? : Access → Option Word
  | polled answer => answer.map Word.ofByte
  | stored a w => if a = data then some w else none
  | loaded .. => none

end Access

/-- What is in the data register after these accesses, if `w` was there
before them. -/
def lastPut (w : Word) (es : List Access) : Word :=
  (es.filterMap Access.put?).getLast?.getD w

/-- What was put there last is told by later accesses, if any of them put
something there. -/
theorem lastPut_append (w : Word) (es es' : List Access) :
    lastPut w (es ++ es') = lastPut (lastPut w es) es' := by
  unfold lastPut
  rw [List.filterMap_append, List.getLast?_append]
  cases (es'.filterMap Access.put?).getLast? <;> simp

/-- Accesses that put nothing there. -/
theorem lastPut_of_none {es : List Access} (h : ∀ e ∈ es, e.put? = none)
    (w : Word) : lastPut w es = w := by
  unfold lastPut
  rw [List.filterMap_eq_nil_iff.2 h]
  rfl

/-- Whoever loads the data register gets what was put there last. -/
def LoadsLast (w : Word) (es : List Access) : Prop :=
  ∀ before v after, es = before ++ .loaded data v :: after →
    v = lastPut w before

namespace LoadsLast

/-- Who loads nothing loads nothing wrong. -/
theorem nil (w : Word) : LoadsLast w [] := by
  intro before v after h
  cases before <;> cases h

/-- Loads in a second session get what the first has left, unless the second
has put something there before. -/
theorem append {w : Word} {es es' : List Access} (h : LoadsLast w es)
    (h' : LoadsLast (lastPut w es) es') : LoadsLast w (es ++ es') := by
  intro before v after heq
  rcases List.append_eq_append_iff.1 heq with
    ⟨cs, hbefore, hes'⟩ | ⟨cs, hes, hrest⟩
  · -- the load is among the later accesses
    rw [hbefore, lastPut_append]
    exact h' cs v after hes'
  · cases cs with
    | nil =>
        rw [List.append_nil] at hes
        rw [List.nil_append] at hrest
        rw [← hes]
        exact h' [] v after hrest.symm
    | cons c cs =>
        injection hrest with hc
        rw [← hc] at hes
        exact h before v cs hes

/-- A single access, by what it says if it is such a load. -/
theorem single {w : Word} {e : Access}
    (h : ∀ v, e = .loaded data v → v = w) : LoadsLast w [e] := by
  intro before v after heq
  cases before with
  | nil =>
      injection heq with he
      exact h v he
  | cons c before =>
      injection heq with _ hnil
      cases before <;> cases hnil

end LoadsLast

/-- The accesses account for what is in the data register, and for what
was loaded from it. -/
structure KeepsKey {κ : Type} (b : Board κ) (es : List Access)
    (b' : Board κ) : Prop where
  last : b'.core.peek data = lastPut (b.core.peek data) es
  loads : LoadsLast (b.core.peek data) es

namespace Machine

variable {κ δ : Type} [Console κ] [Peripheral δ]

/-- Each single access keeps the data register and what is told of it
together: a poll that brings a key and a store to the register put something
there, and nothing else does. -/
theorem telling_keeps :
    Telling (KeepsKey : Board κ → List Access → Board κ → Prop) where
  still {b b'} hmem _ := ⟨congrArg (·.get data) hmem, .nil _⟩
  append {b b₁ b₂ es es'} h h' := by
    refine ⟨?_, h.loads.append ?_⟩
    · rw [h'.last, h.last, lastPut_append]
    · rw [← h.last]
      exact h'.loads
  key {b key console} _ := by
    refine ⟨?_, .single nofun⟩
    rw [Board.peek_poke, if_pos rfl]
    rfl
  noKey {b console} _ := by
    refine ⟨?_, .single nofun⟩
    rw [Board.peek_poke, if_neg (by decide)]
    rfl
  unanswered _ := ⟨rfl, .nil _⟩
  loaded {a} _ b := by
    refine ⟨rfl, .single fun v h => ?_⟩
    injection h with ha hv
    rw [← hv, ha]
  stored a w b := by
    refine ⟨?_, .single nofun⟩
    rw [Board.peek_poke]
    unfold lastPut
    by_cases ha : a = data
    · rw [if_pos ha]
      simp [Access.put?, ha]
    · rw [if_neg ha]
      simp [Access.put?, ha]
  put _ _ := ⟨rfl, .nil _⟩
  flush _ := ⟨rfl, .nil _⟩

-- ========================================================= reading the status

/-- What a read of the status answers, and what it makes of the queue and
of the data register. -/
def Announces (n : Machine Buffered δ) (w : Word)
    (n' : Machine Buffered δ) : Prop :=
  match n.console.input with
  | [] =>
      w = 0 ∧ n'.console = n.console
        ∧ n'.core.peek data = n.core.peek data
  | key :: rest =>
      w = ready ∧ n'.console = { n.console with input := rest }
        ∧ n'.core.peek data = Word.ofByte key

/-- A read of the status takes the oldest key and announces it, or says
that there is none, and is noted as such. It fails on a closed console
only, and then nothing has happened. -/
def PollsQueue (n : Machine Buffered δ) : Prop :=
  Meets
    (fun w n' => n.console.closed = false ∧ Announces n w n'
      ∧ traffic (read status) n = [.polled n.console.input.head?])
    (fun f n' => n.console.closed = true
      ∧ f = .console Buffered.closedError ∧ n' = n)
    ((read status).run n)

/-- A read of the status is a poll of the queue. The three cases are a
closed console, an empty queue and a key in front. -/
theorem pollsQueue {n : Machine Buffered δ}
    (hdev : n.devices = .standard) : PollsQueue n := by
  have hpoll : (Console.call (.poll Keyboard.patience)).run n.console
      = Buffered.poll.run n.console := rfl
  have htraffic : traffic (read status) n
      = logged (Console.after ((read status).run (n.monitored []))) := rfl
  rw [run_read_monitored_status] at htraffic
  rw [hpoll, Buffered.run_poll] at htraffic
  unfold PollsQueue Announces
  rw [run_read_status hdev, hpoll, Buffered.run_poll]
  -- closed, without a key, or with one: those are the answers to a poll
  generalize hconsole : n.console = console at htraffic ⊢
  obtain ⟨input, output, flushes, closed⟩ := console
  cases closed with
  | true =>
      refine ⟨rfl, rfl, ?_⟩
      rw [← hconsole]
  | false =>
      cases input with
      | nil =>
          refine ⟨rfl, ⟨rfl, rfl, ?_⟩, htraffic⟩
          show (Board.poke ..).core.peek data = _
          rw [Board.peek_poke, if_neg (by decide)]
      | cons key rest =>
          refine ⟨rfl, ⟨rfl, rfl, ?_⟩, htraffic⟩
          show (Board.poke ..).core.peek data = _
          rw [Board.peek_poke, if_pos rfl]

-- ============================================================= the theorem

/-- How the keyboard's registers fare in a session. -/
structure KeyRegister (m : Machine Buffered δ)
    (moves : List (Move Buffered δ)) : Prop where
  /-- Wherever the status is read, and whatever was stored there. -/
  status : ∀ n : Machine Buffered δ, n.devices = .standard →
    PollsQueue n
  /-- The keyboard stays the only device. -/
  devices : (played moves m).devices = .standard
  /-- The data register holds what was put there last. -/
  last : (played moves m).core.peek data
    = lastPut (m.core.peek data) (trafficOf moves m)
  /-- And so it did whenever it was loaded. -/
  loads : LoadsLast (m.core.peek data) (trafficOf moves m)
  /-- A machine that was just switched on has nothing there. -/
  fresh : ∀ console journal, m = new console journal →
    (played moves m).core.peek data = lastPut 0 (trafficOf moves m)
  /-- A key once announced is what is loaded later, if nothing was put in
  its place. -/
  waits : ∀ before key between w after,
    trafficOf moves m
        = before ++ .polled (some key) :: between
          ++ .loaded data w :: after →
      (∀ e ∈ between, e.put? = none) → w = Word.ofByte key

/-- With the keyboard as the only device and a queue of keys, the data
register keeps to what was announced and stored. -/
theorem key_register_keeps {m : Machine Buffered δ}
    (hdev : m.devices = .standard) {moves : List (Move Buffered δ)}
    (hplain : ∀ move ∈ moves, move.Plain) : KeyRegister m moves := by
  have hanyConsole (b : Board Buffered) (c : Buffered) :
      KeepsKey b [] { b with console := c } := ⟨rfl, .nil _⟩
  obtain ⟨hdevices, hkeeps⟩ :=
    telling_keeps.played hanyConsole hplain hdev
  constructor
  case status => exact fun n hn => pollsQueue hn
  case devices => exact hdevices
  case last => exact hkeeps.last
  case loads => exact hkeeps.loads
  case fresh =>
    intro console journal hm
    have hzero : m.core.peek data = 0 := by
      rw [hm]
      exact Bank.get_fill 0 data
    rw [← hzero]
    exact hkeeps.last
  case waits =>
    intro before key between w after htraffic hnone
    -- the load has the word put last, and that was the key
    have hload := hkeeps.loads _ w after htraffic
    rw [hload, lastPut_append]
    have hkey (v : Word) : lastPut v (.polled (some key) :: between)
        = lastPut (Word.ofByte key) between :=
      lastPut_append v [.polled (some key)] between
    rw [hkey, lastPut_of_none hnone]

/-- Two keys are waiting. -/
def typed : Machine Buffered Empty := new { input := [0x41, 0x42] }

/-- A program loads the status and then the data register, both through
pointers, while the host meddles with a register and types one more
key. -/
def typing : List (Move Buffered Empty) :=
  [.operate (.load ⟨Core.entry, [0xa203, 0xa403, 0, 0, status, data]⟩),
    .operate .step, .operate (.setReg 5 7), .share (·.enqueue [0x43]),
    .operate .step]

/-- The first key is what was put there, and what the program gets. -/
theorem key_register_keeps_typed :
    KeyRegister typed typing
      ∧ lastPut 0 (trafficOf typing typed) = 0x41
      ∧ (played typing typed).core.reg 2 = 0x41
      ∧ (played typing typed).console.input = [0x42, 0x43] := by
  have hplain : ∀ move ∈ typing, move.Plain := by
    simp [typing, Move.Plain]
  have hkeeps := key_register_keeps (m := typed) rfl hplain
  have hlast := hkeeps.fresh { input := [0x41, 0x42] } {} rfl
  refine ⟨hkeeps, ?_, ?_, ?_⟩
  · rw [← hlast]
    decide +kernel
  · decide +kernel
  · decide +kernel

end Machine

end Lc3
