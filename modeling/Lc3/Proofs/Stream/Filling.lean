/-
What is in a sink that has less room than it is given bytes for: the
first of them, as many as there is room for, whatever the portions were
in which it took them.

One statement about a string of bytes carries everything
(`writeAll_bounded`): what a writer leaves behind, and whether it
succeeded, depends on the room alone. It goes by the loop of `writeAll`,
in which each portion lowers the bytes still to come and the room by as
much. Writing word by word is the same again for each word, with the room
that the words before have left; the first word that does not fit fills
the sink up, and all later ones find it full.
-/
import Lc3.Image

namespace Lc3

theorem length_bytesOfWords (ws : List Word) :
    (bytesOfWords ws).length = 2 * ws.length := by
  induction ws with
  | nil => rfl
  | cons w ws ih =>
      simp only [bytesOfWords_cons, List.length_cons, ih]
      omega

namespace Sink

/-- The sink takes `p` bytes at a time at the most, but some, and `c`
in all. If it has a failure of its own, that is final: being interrupted
is none. -/
structure Bounded (p c : Nat) (s : Sink) : Prop where
  portion : s.portion = some p
  progress : 1 ≤ p
  capacity : s.capacity = some c
  final : ∀ e, s.failure = some e → e.isInterrupted = false

variable {p c : Nat} {s : Sink}

/-- How many bytes a sink with this capacity can still take. -/
def room (c : Nat) (s : Sink) : Nat := c - s.written.size

/-- What a writer answers to whom the sink has failed. -/
def refusal (s : Sink) : IoError := s.failure.getD full

/-- The sink with that much of the bytes in it. -/
def holding (s : Sink) (bytes : List Byte) : Sink :=
  { s with written := s.written ++ bytes }

/-- What is in a sink has no part in how much it takes at a time and in
all. -/
theorem Bounded.holding (h : s.Bounded p c) (bytes : List Byte) :
    (s.holding bytes).Bounded p c :=
  ⟨h.portion, h.progress, h.capacity, h.final⟩

/-- Every byte that went in takes up the room of one. -/
theorem room_holding (s : Sink) (bytes : List Byte) :
    (s.holding bytes).room c = s.room c - bytes.length := by
  have hsize : (s.written ++ bytes).size
      = s.written.size + bytes.length := by
    rw [← Array.length_toList, Array.toList_appendList,
      List.length_append, Array.length_toList]
  simp only [room, Sink.holding, hsize]
  omega

theorem holding_nil (s : Sink) : s.holding [] = s := by
  simp [Sink.holding]

/-- Bytes that go in one string after another lie behind one another. -/
theorem holding_append (s : Sink) (xs ys : List Byte) :
    (s.holding xs).holding ys = s.holding (xs ++ ys) := by
  have hwritten : s.written ++ xs ++ ys = s.written ++ (xs ++ ys) :=
    Array.ext' (by simp)
  simp only [Sink.holding, hwritten]

/-- A portion is as much as is offered, as the sink takes at a time and as
it has room for. -/
theorem Bounded.takes (h : s.Bounded p c) (n : Nat) :
    s.takes n = min (min n p) (s.room c) := by
  simp [Sink.takes, room, h.portion, h.capacity]

/-- All that fits is placed, and all is well if that is everything. -/
theorem writeAll_bounded (h : s.Bounded p c) (bytes : List Byte) :
    s.writeAll bytes =
      (if bytes.length ≤ s.room c then .ok () else .error s.refusal,
        s.holding (bytes.take (s.room c))) := by
  induction s, bytes using writeAll.induct with
  | case1 s =>
      rw [writeAll, List.take_nil, holding_nil, List.length_nil,
        if_pos (Nat.zero_le _)]
  | case2 s b bs htakes =>
      have hprogress := h.progress
      have hroom : s.room c = 0 := by
        rw [h.takes] at htakes
        omega
      rw [writeAll, htakes, hroom, List.take_zero, holding_nil]
      rfl
  | case3 s b bs n htakes ih =>
      -- a portion, which lowers the bytes to come as much as the room
      have hportion : n + 1 ≤ s.room c ∧ n ≤ bs.length := by
        rw [h.takes] at htakes
        omega
      have hwrite : s.writeAll (b :: bs)
          = (s.holding (b :: bs.take n)).writeAll (bs.drop n) := by
        rw [writeAll, htakes]
        rfl
      have hlength : (b :: bs.take n).length = n + 1 := by
        simp only [List.length_cons, List.length_take]
        omega
      have hfits : (bs.drop n).length ≤ s.room c - (n + 1)
          ↔ (b :: bs).length ≤ s.room c := by
        simp only [List.length_drop, List.length_cons]
        omega
      have htaken : b :: bs.take n ++ (bs.drop n).take (s.room c - (n + 1))
          = (b :: bs).take (s.room c) := by
        obtain ⟨q, hq⟩ := Nat.exists_eq_add_of_le hportion.1
        rw [hq, Nat.add_sub_cancel_left, Nat.add_right_comm,
          List.take_succ_cons, List.take_add, List.cons_append]
      have hrest : (s.holding (b :: bs.take n)).writeAll (bs.drop n)
          = (if (bs.drop n).length ≤ (s.holding (b :: bs.take n)).room c
              then .ok () else .error s.refusal,
            (s.holding (b :: bs.take n)).holding
              ((bs.drop n).take
                ((s.holding (b :: bs.take n)).room c))) :=
        ih (h.holding _)
      rw [hwrite, hrest, room_holding, hlength, holding_append, htaken]
      simp only [hfits]

-- ============================================================== by words

/-- Room that is filled by one string after the other is filled by both
in one. -/
theorem holding_take (s : Sink) (r : Nat) (xs ys : List Byte) :
    (s.holding (xs.take r)).holding (ys.take (r - xs.length))
      = s.holding ((xs ++ ys).take r) := by
  rw [holding_append, List.take_append]

/-- Where a string is cut in two makes no difference to a bounded
sink. -/
theorem writeAll_append (h : s.Bounded p c) (xs ys : List Byte) :
    s.writeAll (xs ++ ys) =
      match s.writeAll xs with
      | (.ok (), s) => s.writeAll ys
      | (.error e, s) => (.error e, s) := by
  have hlength : (xs ++ ys).length = xs.length + ys.length :=
    List.length_append
  rw [writeAll_bounded h, writeAll_bounded h, ← holding_take, hlength]
  by_cases hfits : xs.length ≤ s.room c
  · -- the first part fits, so the second is up against what is left
    have hroom : (s.holding (xs.take (s.room c))).room c
        = s.room c - xs.length := by
      rw [List.take_of_length_le hfits, room_holding]
    have hboth : xs.length + ys.length ≤ s.room c
        ↔ ys.length ≤ s.room c - xs.length := by
      omega
    simp only [if_pos hfits]
    rw [writeAll_bounded (h.holding _), hroom]
    simp only [hboth]
    rfl
  · -- the first part has filled the sink, and the second is not even tried
    have hnone : s.room c - xs.length = 0 := by omega
    have hboth : ¬ xs.length + ys.length ≤ s.room c := by omega
    simp only [if_neg hfits, if_neg hboth]
    rw [hnone, List.take_zero, holding_nil]

/-- Word by word, the bytes are those of all the words. -/
theorem writeWords_eq (h : s.Bounded p c) (ws : List Word) :
    s.writeWords ws = s.writeAll (bytesOfWords ws) := by
  induction ws generalizing s with
  | nil => rw [writeWords, bytesOfWords_nil, writeAll]
  | cons w ws ih =>
      have hsplit : bytesOfWords (w :: ws)
          = [w.high, w.low] ++ bytesOfWords ws := rfl
      rw [hsplit, writeAll_append h, writeWords, writeWord,
        writeAll_bounded h]
      by_cases hfits : [w.high, w.low].length ≤ s.room c
      · simp only [if_pos hfits]
        exact ih (h.holding _)
      · simp only [if_neg hfits]

/-- Words written one after another, each whether or not those before it
went in, with what every one of them was told. -/
def writeEach (s : Sink) : List Word → List (Except IoError Unit) × Sink
  | [] => ([], s)
  | w :: ws =>
      let (answer, s) := s.writeWord w
      let (answers, s) := s.writeEach ws
      (answer :: answers, s)

/-- What is told to the writer of the `i`th word, if the sink has room
for that many bytes at first. -/
def told (s : Sink) (room i : Nat) : Except IoError Unit :=
  if 2 * (i + 1) ≤ room then .ok () else .error s.refusal

/-- A word is two bytes, and goes in whole, by half or not at all. -/
theorem writeWord_bounded (h : s.Bounded p c) (w : Word) :
    s.writeWord w =
      (s.told (s.room c) 0, s.holding ([w.high, w.low].take (s.room c))) :=
  writeAll_bounded h [w.high, w.low]

/-- A word further on finds the room without the bytes of one more. -/
theorem told_succ (s : Sink) (room i : Nat) :
    s.told room (i + 1) = s.told (room - 2) i := by
  have hfits : 2 * (i + 1 + 1) ≤ room ↔ 2 * (i + 1) ≤ room - 2 := by
    omega
  simp only [told, hfits]

/-- The words that fit go in, in their order, and of the next one the
half that may still fit. -/
theorem writeEach_bounded (h : s.Bounded p c) (ws : List Word) :
    s.writeEach ws = ((List.range ws.length).map (s.told (s.room c)),
      s.holding ((bytesOfWords ws).take (s.room c))) := by
  induction ws generalizing s with
  | nil => simp [writeEach, holding_nil]
  | cons w ws ih =>
      have hroom : (s.holding ([w.high, w.low].take (s.room c))).room c
          = s.room c - 2 := by
        rw [room_holding, List.length_take]
        show s.room c - min (s.room c) 2 = s.room c - 2
        omega
      -- the words behind are told as with two bytes less of room
      have htold : (List.range (w :: ws).length).map (s.told (s.room c))
          = s.told (s.room c) 0
            :: (List.range ws.length).map (s.told (s.room c - 2)) := by
        rw [List.length_cons, List.range_succ_eq_map, List.map_cons,
          List.map_map]
        congr 1
        exact List.map_congr_left fun i _ => told_succ s (s.room c) i
      have hheld : (s.holding ([w.high, w.low].take (s.room c))).holding
            ((bytesOfWords ws).take (s.room c - 2))
          = s.holding ((bytesOfWords (w :: ws)).take (s.room c)) :=
        holding_take s (s.room c) [w.high, w.low] (bytesOfWords ws)
      rw [writeEach, writeWord_bounded h]
      dsimp only
      rw [ih (h.holding _), hroom, hheld, htold]
      rfl

-- ========================================================= an empty sink

/-- An image written to a sink leaves there its first bytes, as many as
go in, whatever the portions, and is written well if that is all of them;
else the writer is told the sink's own failure, or that nothing was taken
any more. Words that are written one by one leave their first bytes in
the same way, and each is written well if it ends within the capacity. -/
theorem writing_fills (h : s.Bounded p c) (hempty : s.written = #[])
    (image : Image) (ws : List Word) :
    (image.toSink s).2.written.toList
        = (bytesOfWords (image.origin :: image.words)).take
          (min c (2 * (image.words.length + 1)))
      ∧ (image.toSink s).1
        = (if 2 * (image.words.length + 1) ≤ c then .ok ()
          else .error (s.failure.getD full))
      ∧ (s.writeEach ws).1
        = (List.range ws.length).map (fun i =>
          if 2 * (i + 1) ≤ c then .ok ()
          else .error (s.failure.getD full))
      ∧ (s.writeEach ws).2.written.toList
        = (bytesOfWords ws).take (min c (2 * ws.length)) := by
  have hroom : s.room c = c := by
    rw [room, hempty]
    rfl
  have hheld (vs : List Word) :
      (s.holding ((bytesOfWords vs).take c)).written.toList
        = (bytesOfWords vs).take (min c (2 * vs.length)) := by
    rw [← length_bytesOfWords, ← List.take_eq_take_min]
    simp [holding, hempty]
  have himage := writeWords_eq h (image.origin :: image.words)
  rw [writeAll_bounded h, hroom, length_bytesOfWords] at himage
  have heach := writeEach_bounded h ws
  rw [hroom] at heach
  rw [Image.toSink, himage, heach]
  exact ⟨hheld _, rfl, rfl, hheld ws⟩

/-- A sink for five bytes, three at a time. -/
def narrow : Sink := { portion := some 3, capacity := some 5 }

theorem writing_fills_narrow :
    narrow.Bounded 3 5 ∧ narrow.written = #[]
      ∧ (Image.toSink ⟨0x3000, [0x1234, 0xf025]⟩ narrow).2.written.toList
        = [0x30, 0x00, 0x12, 0x34, 0xf0]
      ∧ (Image.toSink ⟨0x3000, [0x1234, 0xf025]⟩ narrow).1 = .error full
      ∧ (narrow.writeEach [0x1234, 0xf025, 0x0001, 0x0002]).1
        = [.ok (), .ok (), .error full, .error full]
      ∧ (narrow.writeEach [0x1234, 0xf025, 0x0001, 0x0002]).2.written.toList
        = [0x12, 0x34, 0xf0, 0x25, 0x00] := by
  have hbounded : narrow.Bounded 3 5 := ⟨rfl, by decide, rfl, nofun⟩
  exact ⟨hbounded, rfl, writing_fills hbounded rfl ⟨0x3000, [0x1234, 0xf025]⟩
    [0x1234, 0xf025, 0x0001, 0x0002]⟩

end Sink

end Lc3
