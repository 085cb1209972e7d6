/-
Three ways to an image: from the bytes of a whole stream, from a byte
string that is all there, and from the stream directly, word by word.
They agree for any cutting of the stream into chunks.

A whole stream is read up to its first break. If that is a failure, it
is all there is to say, whatever bytes came before; if it is an end, or
if there is no break at all, then the bytes up to there are the image's.
Both are told by the events of the stream alone (`readAll_events`), which
is why it does not matter how they were cut.

Word by word a stream without breaks gives the origin, the words and then
nothing. The converse fails: a single byte reads as a word, but is no
image.
-/
import Lc3.Image
import Lc3.Proofs.Stream.Reading

namespace Lc3

namespace Source

-- ======================================================== the first break

def firstBreak (s : Source) : Option Break := s.findSome? breakAt?

/-- The bytes in the chunks up to the first break. -/
def contents (s : Source) : List Byte :=
  (s.takeWhile fun c => (breakAt? c).isNone).flatMap bytesOf

/-- A source begins with its contents, and then comes its first break. -/
theorem events_contents (s : Source) :
    ∃ rest, s.events
      = s.contents.map .byte ++ s.firstBreak.elim [] (.stop · :: rest) := by
  induction s with
  | nil => exact ⟨[], rfl⟩
  | cons c s ih =>
      cases hc : breakAt? c with
      -- reading stops at a break, and what is behind it is the rest
      | some k =>
          have hempty : bytesOf c = [] := by
            match c with
            | .data [] | .failure e => rfl
          refine ⟨events s, ?_⟩
          simp [events, contents, firstBreak, hc, hempty]
      | none =>
          obtain ⟨rest, hrest⟩ := ih
          have hevents : events (c :: s)
              = (bytesOf c).map .byte ++ events s := by
            simp [events, hc]
          have hbreak : firstBreak (c :: s) = firstBreak s := by
            simp [firstBreak, hc]
          have hcontents : contents (c :: s)
              = bytesOf c ++ contents s := by
            simp [contents, hc]
          refine ⟨rest, ?_⟩
          rw [hevents, hrest, hbreak, hcontents, List.map_append,
            List.append_assoc]

/-- All bytes before the first break, or the failure that it is, as the
events tell it. -/
def gather : List Event → Except IoError (List Byte)
  | [] => .ok []
  | .byte b :: es => (gather es).map (b :: ·)
  | .stop .ended :: _ => .ok []
  | .stop (.failed e) :: _ => .error e

/-- Bytes in front of a break are kept if it is an end, and are lost if it
is a failure. -/
theorem gather_bytes (bytes : List Byte) (es : List Event) :
    gather (bytes.map .byte ++ es) = (gather es).map (bytes ++ ·) := by
  induction bytes with
  | nil => cases h : gather es <;> simp [h, Except.map]
  | cons b bytes ih =>
      simp only [List.map_cons, List.cons_append, gather, ih]
      cases gather es <;> rfl

/-- Reading a whole stream answers what its events tell, so neither the
cutting nor an interruption shows. -/
theorem readAll_events (s : Source) : s.readAll.1 = gather s.events := by
  induction s with
  | nil => rfl
  | cons c s ih =>
      match c with
      | .data [] => rfl
      | .data (b :: bs) =>
          have hevents : events (.data (b :: bs) :: s)
              = (b :: bs).map .byte ++ events s := by
            simp [events, bytesOf, breakAt?]
          rw [hevents, gather_bytes, ← ih]
          rfl
      | .failure e =>
          cases he : e.isInterrupted with
          | true =>
              rw [events_interrupted he, ← ih]
              simp only [readAll, he, if_true]
          | false =>
              rw [events_failed he]
              simp only [readAll, he]
              rfl

/-- Reading to the end gives the contents, or fails at the first break. -/
theorem readAll_eq (s : Source) :
    s.readAll.1 = match s.firstBreak with
      | some (.failed e) => .error e
      | some .ended | none => .ok s.contents := by
  obtain ⟨rest, hrest⟩ := s.events_contents
  rw [readAll_events, hrest, gather_bytes]
  match s.firstBreak with
  | none => simp [gather, Except.map]
  | some .ended => simp [gather, Except.map]
  | some (.failed e) => rfl

end Source

namespace Image

open Source

/-- The words of an image's bytes, with the origin in front. -/
theorem wordsOfBytes_of_ofBytes {bytes : List Byte} {image : Image}
    (h : ofBytes bytes = .ok image) :
    wordsOfBytes bytes = image.origin :: image.words := by
  match bytes with
  | [] | [_] => cases h
  | b :: l :: rest =>
      cases h
      rfl

/-- An image read from a source is the one in its contents, and fails
with the source if that is broken off by a failure. Which image it is, or
which error, is told by the source's events. If nothing breaks the source
off, reading it word by word gives the origin of that image, its words in
their order, and from then on the end. -/
theorem ofSource_agrees (s : Source) :
    (ofSource s = match s.firstBreak with
      | some (.failed e) => .error (.io e)
      | some .ended | none => ofBytes s.contents)
    ∧ (∀ t : Source, t.events = s.events → ofSource t = ofSource s)
    ∧ (s.firstBreak = none → ∀ image, ofSource s = .ok image →
      ∀ n, s.answer n
        = ((image.origin :: image.words).map fun w =>
            .ok (some w)).getD n (.ok none)) := by
  have hsource : ofSource s = match s.firstBreak with
      | some (.failed e) => .error (.io e)
      | some .ended | none => ofBytes s.contents := by
    rw [ofSource, readAll_eq]
    match s.firstBreak with
    | none | some .ended | some (.failed e) => rfl
  refine ⟨hsource, ?_, ?_⟩
  · intro t ht
    rw [ofSource, ofSource, readAll_events, readAll_events, ht]
  · intro hbreak image himage
    rw [hbreak] at hsource
    have hwords := wordsOfBytes_of_ofBytes (hsource.symm.trans himage)
    obtain ⟨rest, hrest⟩ := s.events_contents
    rw [hbreak] at hrest
    -- without a break the answers are the words of the contents
    have hanswers : Answers s (Script.answers ⟨[], s.contents⟩) :=
      answers_script (by simpa [Script.events] using hrest)
    have hlast : Script.answers ⟨[], s.contents⟩
        = (wordsOfBytes s.contents).map fun w => .ok (some w) := by
      simp [Script.answers, wordsOfBytes_eq]
    rw [hlast, hwords] at hanswers
    exact hanswers

/-- An image in pieces, with an interruption, and an odd byte at its
end. -/
def piecemeal : Source :=
  [.data [0x30], .failure ⟨.interrupted, "signal"⟩, .data [0x00, 0x12],
    .data [0x34, 0x56]]

theorem ofSource_agrees_piecemeal :
    ofSource piecemeal = .ok ⟨0x3000, [0x1234, 0x5600]⟩
      ∧ ∀ n, piecemeal.answer n
        = [.ok (some 0x3000), .ok (some 0x1234), .ok (some 0x5600)].getD n
          (.ok none) := by
  have himage : ofSource piecemeal = .ok ⟨0x3000, [0x1234, 0x5600]⟩ := rfl
  obtain ⟨-, -, hwords⟩ := ofSource_agrees piecemeal
  exact ⟨himage, hwords rfl _ himage⟩

/-- A byte by itself is a word to a reader, but no image. -/
example : Source.answer [.data [0x30]] 0 = .ok (some 0x3000)
    ∧ ofSource [.data [0x30]] = .error (.missingOrigin 1) :=
  ⟨rfl, rfl⟩

end Image

end Lc3
