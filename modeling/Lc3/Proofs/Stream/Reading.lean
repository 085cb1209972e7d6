/-
What reading word after word makes of a source, for any cutting of its
bytes into chunks and with interruptions wherever they may fall.

# What a reader hears

Of a source, a reader can tell the bytes apart and the places where the
stream broke off: where it ended for a while, and where it failed. These
are the source's events (`events`). Where chunks were joined, and where
an interruption was sat out, is not among them, and one read takes from
the events just what it takes from the source (`readWord_events`): up to
two bytes, or up to the first break.

# The cut at the breaks

A script is the same list of events, cut at its breaks into pieces of
bytes, with a last piece that nothing breaks. What a piece answers can be
said without any loop: its pairs of bytes, and then one answer for the
break, which is the only one to know of a byte left over. So alignment
starts afresh behind each break, and no answer depends on more than one
piece. `reading_hears_events` puts this together for all answers that
there will ever be.
-/
import Lc3.Stream.Source

namespace Lc3

namespace Source

-- ================================================================= breaks

/-- How a stream breaks off before a read. -/
inductive Break where
  | ended
  | failed (e : IoError)
deriving DecidableEq, Repr

/-- The bytes in a chunk. -/
def bytesOf : Chunk → List Byte
  | .data bytes => bytes
  | .failure _ => []

/-- The break at a chunk. There is none where bytes are to be had, and
none at an interruption. -/
def breakAt? : Chunk → Option Break
  | .data [] => some .ended
  | .data (_ :: _) => none
  | .failure e => if e.isInterrupted then none else some (.failed e)

-- ================================================================= events

inductive Event where
  | byte (b : Byte)
  | stop (k : Break)
deriving DecidableEq, Repr

/-- What a reader can tell of a source. -/
def events (s : Source) : List Event :=
  s.flatMap fun c =>
    (bytesOf c).map .byte ++ (breakAt? c).toList.map .stop

/-- What one read for a word can answer; `none` is the end. -/
abbrev Answer := Except IoError (Option Word)

/-- The answer of call number `n`, counted from zero, if a word is asked
for again and again. -/
def answer (s : Source) : Nat → Answer
  | 0 => s.readWord.1
  | n + 1 => answer s.readWord.2 n

/-- The answer of a read that comes to a break with this byte already in
hand, if any. -/
def Break.answer : Break → Option Byte → Answer
  | ended, odd => .ok (odd.map fun h => Word.ofBytes h 0)
  | failed e, _ => .error e

/-- Reading a word from what can be told of a source. -/
def hear : List Event → Answer × List Event
  | [] => (.ok none, [])
  | .stop k :: rest => (k.answer none, rest)
  | [.byte h] => (.ok (some (Word.ofBytes h 0)), [])
  | .byte h :: .byte l :: rest => (.ok (some (Word.ofBytes h l)), rest)
  | .byte h :: .stop k :: rest => (k.answer (some h), rest)

/-- A byte in front of a piece is the first that happens. -/
theorem events_byte (b : Byte) (bs : List Byte) (s : Source) :
    events (.data (b :: bs) :: s) = .byte b :: events (putBack bs s) := by
  cases bs <;> simp [events, putBack, bytesOf, breakAt?]

/-- Being interrupted is not told: it is sat out. -/
theorem events_interrupted {e : IoError} (he : e.isInterrupted = true)
    (s : Source) : events (.failure e :: s) = events s := by
  simp [events, bytesOf, breakAt?, he]

/-- Any other failure stops the reading once, and what comes behind it can
still be read. -/
theorem events_failed {e : IoError} (he : e.isInterrupted = false)
    (s : Source) :
    events (.failure e :: s) = .stop (.failed e) :: events s := by
  simp [events, bytesOf, breakAt?, he]

/-- The second byte is read for as the events have it. -/
theorem readLow_events (h : Byte) (s : Source) :
    ((readLow h s).1.map some, (readLow h s).2.events)
      = hear (.byte h :: s.events) := by
  induction s with
  | nil => rfl
  | cons c s ih =>
      match c with
      | .data [] => rfl
      | .data (l :: left) =>
          rw [events_byte]
          rfl
      | .failure e =>
          cases he : e.isInterrupted with
          | true =>
              rw [events_interrupted he, ← ih]
              simp only [readLow, he, if_true]
          | false =>
              rw [events_failed he]
              simp only [readLow, he]
              rfl

/-- A read takes from the events what it takes from the source. -/
theorem readWord_events (s : Source) :
    (s.readWord.1, s.readWord.2.events) = hear s.events := by
  induction s with
  | nil => rfl
  | cons c s ih =>
      match c with
      | .data [] => rfl
      | .data (h :: left) =>
          rw [events_byte]
          exact readLow_events h (putBack left s)
      | .failure e =>
          cases he : e.isInterrupted with
          | true =>
              rw [events_interrupted he, ← ih]
              simp only [readWord, he, if_true]
          | false =>
              rw [events_failed he]
              simp only [readWord, he]
              rfl

-- ======================================================== pairs of bytes

/-- The words for which both bytes are there. -/
def pairs : List Byte → List Word
  | h :: l :: rest => Word.ofBytes h l :: pairs rest
  | _ => []

/-- The byte that is left over. -/
def odd? : List Byte → Option Byte
  | [] => none
  | [h] => some h
  | _ :: _ :: rest => odd? rest

/-- As words, bytes are their pairs and, filled up, the one left over. -/
theorem wordsOfBytes_eq (bytes : List Byte) :
    wordsOfBytes bytes
      = pairs bytes ++ (odd? bytes).toList.map fun h => Word.ofBytes h 0 := by
  induction bytes using wordsOfBytes.induct with
  | case1 => rfl
  | case2 h => rfl
  | case3 h l rest ih => simp [wordsOfBytes, pairs, odd?, ih]

-- ================================================================ scripts

/-- Bytes up to a break. -/
structure Piece where
  bytes : List Byte
  stop : Break
deriving DecidableEq, Repr

/-- All that a source gives, cut at its breaks. -/
structure Script where
  pieces : List Piece
  /-- What comes behind the last break. -/
  last : List Byte
deriving DecidableEq, Repr

def Piece.events (p : Piece) : List Event :=
  p.bytes.map .byte ++ [.stop p.stop]

def Script.events (c : Script) : List Event :=
  c.pieces.flatMap Piece.events ++ c.last.map .byte

/-- The script with one more byte in front. -/
def Script.push (b : Byte) : Script → Script
  | ⟨[], last⟩ => ⟨[], b :: last⟩
  | ⟨p :: pieces, last⟩ => ⟨⟨b :: p.bytes, p.stop⟩ :: pieces, last⟩

def Script.ofEvents : List Event → Script
  | [] => ⟨[], []⟩
  | .byte b :: es => (ofEvents es).push b
  | .stop k :: es => ⟨⟨[], k⟩ :: (ofEvents es).pieces, (ofEvents es).last⟩

def script (s : Source) : Script := .ofEvents s.events

/-- A piece answers its pairs of bytes in order, and then its break. -/
def Piece.answers (p : Piece) : List Answer :=
  (pairs p.bytes).map (fun w => .ok (some w)) ++ [p.stop.answer (odd? p.bytes)]

/-- The answers piece by piece. The last piece has no break to answer for,
but a byte left over there is still filled up. -/
def Script.answers (c : Script) : List Answer :=
  c.pieces.flatMap Piece.answers
    ++ (pairs c.last).map (fun w => .ok (some w))
    ++ (odd? c.last).toList.map fun h => .ok (some (Word.ofBytes h 0))

/-- A byte put in front of a script is the first thing it tells. -/
theorem Script.events_push (b : Byte) (c : Script) :
    (c.push b).events = .byte b :: c.events := by
  obtain ⟨pieces, last⟩ := c
  cases pieces <;> simp [push, Script.events, Piece.events]

/-- Cutting loses nothing. -/
theorem Script.events_ofEvents (es : List Event) :
    (ofEvents es).events = es := by
  induction es with
  | nil => rfl
  | cons e es ih =>
      cases e with
      | byte b => rw [ofEvents, events_push, ih]
      | stop k =>
          have hrest : (ofEvents es).pieces.flatMap Piece.events
              ++ (ofEvents es).last.map .byte = es := ih
          simp [ofEvents, Script.events, Piece.events, hrest]

-- ========================================================= all the answers

/-- The source gives these answers, and from then on only ends. -/
def Answers (s : Source) (as : List Answer) : Prop :=
  ∀ n, s.answer n = as.getD n (.ok none)

/-- One answer is heard, and the others are those of whatever source tells
the rest. -/
theorem Answers.cons {s : Source} {a : Answer} {es : List Event}
    {as : List Answer} (h : hear s.events = (a, es))
    (hrest : ∀ t : Source, t.events = es → Answers t as) :
    Answers s (a :: as) := by
  have hread := (readWord_events s).trans h
  intro n
  cases n with
  | zero => exact congrArg Prod.fst hread
  | succ n => exact hrest s.readWord.2 (congrArg Prod.snd hread) n

/-- Where nothing is left to be told, every further read comes to an end. -/
theorem answers_nil {s : Source} (h : s.events = []) : Answers s [] := by
  intro n
  have hread := readWord_events s
  rw [h] at hread
  -- an end leaves nothing but ends behind it
  induction n generalizing s with
  | zero => exact congrArg Prod.fst hread
  | succ n ih =>
      have hrest : s.readWord.2.events = [] := congrArg Prod.snd hread
      have hnext := readWord_events s.readWord.2
      rw [hrest] at hnext
      exact ih hrest hnext

/-- Behind the last break there are words, and then nothing. -/
theorem answers_last {s : Source} {bytes : List Byte}
    (h : s.events = bytes.map .byte) :
    Answers s (Script.answers ⟨[], bytes⟩) := by
  induction bytes using odd?.induct generalizing s with
  | case1 => exact answers_nil h
  | case2 b => exact .cons (by rw [h]; rfl) fun t ht => answers_nil ht
  | case3 b l rest ih => exact .cons (by rw [h]; rfl) fun t ht => ih ht

/-- A piece is answered for, and then what comes behind it. -/
theorem answers_piece {p : Piece} {es : List Event} {as : List Answer}
    (hrest : ∀ t : Source, t.events = es → Answers t as) {s : Source}
    (h : s.events = p.events ++ es) : Answers s (p.answers ++ as) := by
  obtain ⟨bytes, k⟩ := p
  -- two bytes at a time, so that what is left over meets the break
  induction bytes using odd?.induct generalizing s with
  | case1 => exact .cons (by rw [h]; rfl) hrest
  | case2 b => exact .cons (by rw [h]; rfl) hrest
  | case3 b l rest ih => exact .cons (by rw [h]; rfl) fun t ht => ih ht

/-- The pieces are answered for from the front, and at last what is behind
all breaks. -/
theorem answers_script {c : Script} {s : Source}
    (h : s.events = c.events) : Answers s c.answers := by
  obtain ⟨pieces, last⟩ := c
  induction pieces generalizing s with
  | nil => exact answers_last h
  | cons p pieces ih =>
      have hsplit : s.events
          = p.events ++ Script.events ⟨pieces, last⟩ := by
        simp [h, Script.events]
      have hanswers : Script.answers ⟨p :: pieces, last⟩
          = p.answers ++ Script.answers ⟨pieces, last⟩ := by
        simp [Script.answers]
      rw [hanswers]
      exact answers_piece (fun t ht => ih ht) hsplit

/-- Sources of which the same can be told are read alike for ever,
however their bytes were cut and whatever interruptions were sat out.
The answers are those of the pieces between the breaks, in order: of each
piece its pairs of bytes, and one answer for the break, which is the
failure itself, or at an end the word begun there, if one was. The last
piece is answered for with its words, the last of them filled up if need
be, and then nothing more comes. -/
theorem reading_hears_events {s t : Source} (h : s.events = t.events) :
    s.script.events = s.events
      ∧ (∀ n, s.answer n = s.script.answers.getD n (.ok none))
      ∧ ∀ n, t.answer n = s.answer n := by
  have hcut : s.script.events = s.events := Script.events_ofEvents s.events
  have hs : Answers s s.script.answers := answers_script hcut.symm
  have ht : Answers t s.script.answers :=
    answers_script (h.symm.trans hcut.symm)
  exact ⟨hcut, hs, fun n => (ht n).trans (hs n).symm⟩

/-- Five bytes, broken off by a failure and by an end. -/
def abrupt : Source :=
  [.data [0x12, 0x34, 0x56], .failure ⟨.timedOut, "late"⟩, .data [0x78],
    .data [], .data [0x9a]]

/-- The same with every byte for itself, and interrupted. -/
def choppy : Source :=
  [.data [0x12], .failure ⟨.interrupted, "signal"⟩, .data [0x34],
    .data [0x56], .failure ⟨.interrupted, "signal"⟩,
    .failure ⟨.timedOut, "late"⟩, .data [0x78],
    .failure ⟨.interrupted, "signal"⟩, .data [], .data [0x9a]]

theorem reading_hears_events_choppy :
    events abrupt = events choppy
      ∧ ∀ n, choppy.answer n
        = [.ok (some 0x1234), .error ⟨.timedOut, "late"⟩, .ok (some 0x7800),
            .ok (some 0x9a00)].getD n (.ok none) := by
  have h : events abrupt = events choppy := rfl
  obtain ⟨-, habrupt, hchoppy⟩ := reading_hears_events h
  exact ⟨h, fun n => (hchoppy n).trans (habrupt n)⟩

end Source

end Lc3
