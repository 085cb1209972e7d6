/-
An image and its bytes. Writing is exact, and reading undoes it; reading
accepts every byte string with room for an origin, and writing undoes
that, but for the zero that completes a lone last byte.

# The two loops

`toBytes` and `ofBytes` say what the bytes of an image are. A writer puts
them out word by word, each word high half first, and a reader takes
them in word by word from what is left of the string, until a word does
not begin any more. That these loops come to the same is part of what is
shown: `writeWords_unbounded` for the writer, and `gives_slice` for the
reader, with `Gives` for the words that reading one after another
brings before the end.
-/
import Lc3.Image

namespace Lc3

-- ======================================================== words and bytes

/-- Bytes filled up to whole words. -/
def padded (bytes : List Byte) : List Byte :=
  if bytes.length % 2 = 0 then bytes else bytes ++ [0]

/-- Filling up is a matter of the end, and two bytes in front are a word of
their own. -/
theorem padded_cons_cons (h l : Byte) (bytes : List Byte) :
    padded (h :: l :: bytes) = h :: l :: padded bytes := by
  unfold padded
  have hparity : (h :: l :: bytes).length % 2 = bytes.length % 2 := by
    simp only [List.length_cons]
    omega
  rw [hparity]
  split <;> rfl

/-- A byte left over makes a word as well. -/
theorem length_wordsOfBytes (bytes : List Byte) :
    (wordsOfBytes bytes).length = (bytes.length + 1) / 2 := by
  induction bytes using wordsOfBytes.induct with
  | case1 => rfl
  | case2 h => simp [wordsOfBytes]
  | case3 h l rest ih =>
      simp only [wordsOfBytes, List.length_cons, ih]
      omega

/-- Words keep the bytes they are made of. -/
theorem bytesOfWords_wordsOfBytes (bytes : List Byte) :
    bytesOfWords (wordsOfBytes bytes) = padded bytes := by
  induction bytes using wordsOfBytes.induct with
  | case1 => rfl
  | case2 h =>
      rw [wordsOfBytes, bytesOfWords_cons, Word.high_ofBytes,
        Word.low_ofBytes]
      rfl
  | case3 h l rest ih =>
      rw [wordsOfBytes, bytesOfWords_cons, Word.high_ofBytes,
        Word.low_ofBytes, ih, padded_cons_cons]

-- =================================================== writing word by word

namespace Sink

/-- A sink that sets no bounds takes all that it is given. -/
theorem writeAll_unbounded {s : Sink} (hportion : s.portion = none)
    (hcapacity : s.capacity = none) (bytes : List Byte) :
    s.writeAll bytes
      = (.ok (), { s with written := s.written ++ bytes.toArray }) := by
  cases bytes with
  | nil => simp [writeAll]
  | cons b bs =>
      have htakes (n : Nat) : s.takes n = n := by
        simp [takes, hportion, hcapacity]
      have hrest : bs.drop bs.length = [] := List.drop_length
      have hwritten : s.written ++ (b :: bs)
          = s.written ++ (b :: bs).toArray := Array.ext' (by simp)
      rw [writeAll, htakes]
      dsimp only
      rw [hrest, List.take_length, writeAll, hwritten]

/-- Word by word, each high half first, a sink without bounds gets the bytes
of all the words. -/
theorem writeWords_unbounded {s : Sink} (hportion : s.portion = none)
    (hcapacity : s.capacity = none) (ws : List Word) :
    s.writeWords ws = (.ok (),
      { s with written := s.written ++ (bytesOfWords ws).toArray }) := by
  induction ws generalizing s with
  | nil => simp [writeWords]
  | cons w ws ih =>
      rw [writeWords, writeWord, writeAll_unbounded hportion hcapacity]
      dsimp only
      rw [ih (by exact hportion) (by exact hcapacity)]
      simp

end Sink

-- =================================================== reading word by word

namespace Source

/-- Read one after another, these are the words before the source's
end. -/
inductive Gives : Source → List Word → Prop where
  | ended {s s' : Source} (h : s.readWord = (.ok none, s')) : Gives s []
  | word {s s' : Source} {w : Word} {ws : List Word}
      (h : s.readWord = (.ok (some w), s')) (rest : Gives s' ws) :
      Gives s (w :: ws)

/-- A source has one list of words: reading is a function, so both lists
have the same first word and go on from the same source. -/
theorem Gives.unique {s : Source} {ws vs : List Word} (h : Gives s ws)
    (h' : Gives s vs) : ws = vs := by
  induction h generalizing vs with
  | ended h =>
      cases h' with
      | ended _ => rfl
      | word hword _ =>
          rw [h] at hword
          cases hword
  | word h _ ih =>
      cases h' with
      | ended hended =>
          rw [h] at hended
          cases hended
      | word hword rest =>
          rw [h] at hword
          cases hword
          rw [ih rest]

/-- From a string that is all there, reading takes two bytes at a time,
and makes a word of a last byte as well. -/
theorem gives_slice (bytes : List Byte) :
    Gives (putBack bytes []) (wordsOfBytes bytes) := by
  induction bytes using wordsOfBytes.induct with
  | case1 => exact .ended rfl
  | case2 h => exact .word rfl (.ended rfl)
  | case3 h l rest ih => exact .word rfl ih

end Source

-- ================================================================= images

namespace Image

/-- What an image is as bytes. -/
structure Written (image : Image) : Prop where
  reread : ofBytes image.toBytes = .ok image
  format : image.toBytes = bytesOfWords (image.origin :: image.words)
  /-- Where there is room, writing word by word puts out these bytes. -/
  placed : image.toSink {}
    = (.ok (), { written := image.toBytes.toArray })

/-- What a byte string is as an image. -/
structure Parsed (bytes : List Byte) : Prop where
  /-- Only the lack of an origin is an error. -/
  short_iff :
    ofBytes bytes = .error (.missingOrigin bytes.length)
      ↔ bytes.length < 2
  /-- All else is an image, and keeps its bytes. Its words are those that
  reading word by word gives behind the origin. -/
  long : 2 ≤ bytes.length → ∃ image, ofBytes bytes = .ok image
    ∧ image.words.length = (bytes.length + 1) / 2 - 1
    ∧ image.toBytes = padded bytes
    ∧ ∀ ws, Source.Gives (Source.putBack (bytes.drop 2) []) ws
        ↔ ws = image.words

/-- Where there is room, writing an image puts out its bytes and nothing
else. -/
theorem toSink_unbounded (image : Image) :
    image.toSink {} = (.ok (), { written := image.toBytes.toArray }) := by
  have h := Sink.writeWords_unbounded (s := {}) rfl rfl
    (image.origin :: image.words)
  rw [toSink, h]
  simp [toBytes]

/-- The image that a byte string with room for an origin is. -/
theorem parsed_cons_cons (h l : Byte) (rest : List Byte) :
    Parsed (h :: l :: rest) where
  short_iff := by
    have hlength : ¬ (h :: l :: rest).length < 2 := by simp
    constructor
    · intro herror
      cases herror
    · intro hshort
      exact absurd hshort hlength
  long _ := by
    refine ⟨⟨Word.ofBytes h l, wordsOfBytes rest⟩, rfl, ?_, ?_, ?_⟩
    · rw [length_wordsOfBytes]
      simp only [List.length_cons]
      omega
    · rw [toBytes, bytesOfWords_cons, Word.high_ofBytes, Word.low_ofBytes,
        bytesOfWords_wordsOfBytes, padded_cons_cons]
    · intro ws
      have hgives : Source.Gives (Source.putBack rest [])
          (wordsOfBytes rest) := Source.gives_slice rest
      constructor
      · intro h
        exact h.unique hgives
      · rintro rfl
        exact hgives

/-- An image is what its bytes are read as, and a byte string that is
long enough is what the image is written as, filled up to whole words;
one that is not is refused, with its length. -/
theorem image_bytes_inverse (image : Image) (bytes : List Byte) :
    Written image ∧ Parsed bytes := by
  constructor
  · exact ⟨ofBytes_toBytes image, rfl, toSink_unbounded image⟩
  · match bytes with
    | [] => exact ⟨⟨fun _ => Nat.zero_lt_two, fun _ => rfl⟩, nofun⟩
    | [b] =>
        refine ⟨⟨fun _ => Nat.one_lt_two, fun _ => rfl⟩, ?_⟩
        intro hlength
        simp at hlength
    | h :: l :: rest => exact parsed_cons_cons h l rest

/-- Five bytes are an origin, a word, and half a word. -/
example : (ofBytes [0x30, 0x00, 0x12, 0x34, 0x56]).toOption.map toBytes
    = some [0x30, 0x00, 0x12, 0x34, 0x56, 0x00] := by
  decide

end Image

end Lc3
