/-
Where the words of an image end up. Addresses wrap, so an image that is
longer than memory comes by an address several times, and of images
loaded one after another several may cover it. What is found there in
the end is the word that came last: of the last image that covers the
address, the word with the largest index among those that go there.

Both halves of this are one argument at two levels. Loading is a fold, so
the induction takes words, and then images, from the back: the last one
either covers the address or leaves what was there before it.
-/
import Lc3.Image
import Lc3.Core
import Mathlib.Data.List.Induction

namespace Lc3

namespace Image

-- ============================================================== covering

/-- Word number `i` of the image goes to the address `a`. -/
def Puts (image : Image) (i : Nat) (a : Word) : Prop :=
  i < image.words.length ∧ (image.origin.toNat + i) % 65536 = a.toNat

def Covers (image : Image) (a : Word) : Prop := ∃ i, image.Puts i a

/-- Of the words that go to `a`, the last is `w`. -/
def LastAt (image : Image) (a w : Word) : Prop :=
  ∃ i, image.Puts i a ∧ image.words[i]? = some w
    ∧ ∀ j, image.Puts j a → j ≤ i

/-- Of the images that cover `a`, the last one's last word there is
`w`. -/
def LastAmong (images : List Image) (a w : Word) : Prop :=
  ∃ before image after, images = before ++ image :: after
    ∧ image.LastAt a w ∧ ∀ later ∈ after, ¬ later.Covers a

/-- No address is covered by both. -/
def Apart (image other : Image) : Prop :=
  ∀ a, ¬ (image.Covers a ∧ other.Covers a)

theorem Apart.symm {image other : Image} (h : image.Apart other) :
    other.Apart image := by
  intro a hboth
  exact h a hboth.symm

theorem LastAt.covers {image : Image} {a w : Word}
    (h : image.LastAt a w) : image.Covers a := by
  obtain ⟨i, hputs, -⟩ := h
  exact ⟨i, hputs⟩

/-- At an address one word is the last, since of two places the later one
is. -/
theorem LastAt.unique {image : Image} {a w v : Word}
    (h : image.LastAt a w) (h' : image.LastAt a v) : w = v := by
  obtain ⟨i, hi, hw, hlast⟩ := h
  obtain ⟨j, hj, hv, hlast'⟩ := h'
  have hij : i = j := by
    have hle := hlast' i hi
    have hge := hlast j hj
    omega
  subst hij
  rw [hw] at hv
  injection hv

/-- The address of a word, as the image's cells have it. -/
theorem address_eq_iff (origin a : Word) (i : Nat) :
    origin + BitVec.ofNat 16 i = a
      ↔ (origin.toNat + i) % 65536 = a.toNat := by
  rw [← BitVec.toNat_inj, BitVec.toNat_add, BitVec.toNat_ofNat]
  omega

/-- As long as it does not come round, an image puts one word at an
address. -/
theorem Puts.index_unique {image : Image} {i j : Nat} {a : Word}
    (h : image.Puts i a) (h' : image.Puts j a)
    (hlength : image.words.length ≤ 65536) : i = j := by
  obtain ⟨hi, hia⟩ := h
  obtain ⟨hj, hja⟩ := h'
  omega

/-- In an image that fits into memory each word is the last at its address,
because it is the only one there. -/
theorem lastAt_of_getElem? {image : Image} {i : Nat} {w : Word}
    (hlength : image.words.length ≤ 65536)
    (hw : image.words[i]? = some w) :
    image.LastAt (image.origin + BitVec.ofNat 16 i) w := by
  obtain ⟨hi, -⟩ := List.getElem?_eq_some_iff.1 hw
  have hputs : image.Puts i (image.origin + BitVec.ofNat 16 i) :=
    ⟨hi, (address_eq_iff _ _ i).1 rfl⟩
  refine ⟨i, hputs, hw, ?_⟩
  intro j hj
  exact Nat.le_of_eq (hj.index_unique hputs hlength)

-- ================================================ one more word at the end

/-- One more word is one more cell, at the address behind the others. -/
theorem cells_concat (origin : Word) (ws : List Word) (w : Word) :
    (⟨origin, ws ++ [w]⟩ : Image).cells
      = (⟨origin, ws⟩ : Image).cells
        ++ [(origin + BitVec.ofNat 16 ws.length, w)] := by
  simp [cells, List.zipIdx_append]

/-- One more word adds a place, and takes none away. -/
theorem puts_concat {origin : Word} {ws : List Word} {w a : Word}
    {i : Nat} :
    (⟨origin, ws ++ [w]⟩ : Image).Puts i a
      ↔ (⟨origin, ws⟩ : Image).Puts i a
        ∨ i = ws.length ∧ origin + BitVec.ofNat 16 ws.length = a := by
  rw [address_eq_iff]
  unfold Puts
  simp only [List.length_append, List.length_singleton]
  constructor
  · rintro ⟨hi, ha⟩
    rcases Nat.lt_succ_iff_lt_or_eq.1 hi with hlt | rfl
    · exact .inl ⟨hlt, ha⟩
    · exact .inr ⟨rfl, ha⟩
  · rintro (⟨hi, ha⟩ | ⟨rfl, ha⟩)
    · exact ⟨by omega, ha⟩
    · exact ⟨by omega, ha⟩

/-- The last word of all is the last at its address. -/
theorem lastAt_concat_self (origin : Word) (ws : List Word) (w : Word) :
    (⟨origin, ws ++ [w]⟩ : Image).LastAt
      (origin + BitVec.ofNat 16 ws.length) w := by
  refine ⟨ws.length, puts_concat.2 (.inr ⟨rfl, rfl⟩), by simp, ?_⟩
  intro j hj
  have hlt : j < (ws ++ [w]).length := hj.1
  rw [List.length_append, List.length_singleton] at hlt
  omega

/-- Elsewhere it does not matter. -/
theorem lastAt_concat_of_ne {origin : Word} {ws : List Word}
    {w a v : Word} (ha : origin + BitVec.ofNat 16 ws.length ≠ a)
    (h : (⟨origin, ws⟩ : Image).LastAt a v) :
    (⟨origin, ws ++ [w]⟩ : Image).LastAt a v := by
  obtain ⟨i, hputs, hv, hlast⟩ := h
  refine ⟨i, puts_concat.2 (.inl hputs), ?_, ?_⟩
  · exact (List.getElem?_append_left hputs.1).trans hv
  · intro j hj
    rcases puts_concat.1 hj with hj | ⟨-, ha'⟩
    · exact hlast j hj
    · exact absurd ha' ha

-- ============================================================ into memory

/-- Memory with the image in it. -/
def overlay (image : Image) (mem : Memory) : Memory :=
  image.cells.foldl (fun mem (a, w) => mem.set a w) mem

def overlayAll (images : List Image) (mem : Memory) : Memory :=
  images.foldl (fun mem image => image.overlay mem) mem

/-- The last image is laid over all the others. -/
theorem overlayAll_concat (images : List Image) (image : Image)
    (mem : Memory) :
    overlayAll (images ++ [image]) mem
      = image.overlay (overlayAll images mem) := by
  unfold overlayAll
  rw [List.foldl_append]
  rfl

/-- After an image has been laid over memory, an address holds its last word
there, or what it held. The induction is on the words from the end, since it
is the last word that counts. -/
theorem get_overlay (image : Image) (mem : Memory) (a : Word) :
    image.LastAt a ((image.overlay mem).get a)
      ∨ ¬ image.Covers a ∧ (image.overlay mem).get a = mem.get a := by
  obtain ⟨origin, ws⟩ := image
  -- from the back, since the word put last at an address stays
  induction ws using List.reverseRecOn with
  | nil =>
      refine .inr ⟨?_, rfl⟩
      rintro ⟨i, hi, -⟩
      exact absurd hi (Nat.not_lt_zero i)
  | append_singleton ws w ih =>
      have hset : (⟨origin, ws ++ [w]⟩ : Image).overlay mem
          = ((⟨origin, ws⟩ : Image).overlay mem).set
              (origin + BitVec.ofNat 16 ws.length) w := by
        unfold overlay
        rw [cells_concat, List.foldl_append]
        rfl
      rw [hset, Bank.get_set]
      by_cases ha : origin + BitVec.ofNat 16 ws.length = a
      · subst ha
        rw [if_pos rfl]
        exact .inl (lastAt_concat_self origin ws w)
      · rw [if_neg ha]
        rcases ih with hlast | ⟨hcovers, hget⟩
        · exact .inl (lastAt_concat_of_ne ha hlast)
        · -- neither the words before nor the last one are put there
          refine .inr ⟨?_, hget⟩
          rintro ⟨i, hputs⟩
          rcases puts_concat.1 hputs with hputs | ⟨-, ha'⟩
          · exact hcovers ⟨i, hputs⟩
          · exact ha ha'

/-- Where an image puts a word, that is what is found. -/
theorem get_overlay_of_lastAt {image : Image} {a w : Word}
    (h : image.LastAt a w) (mem : Memory) :
    (image.overlay mem).get a = w := by
  rcases get_overlay image mem a with hlast | ⟨hcovers, -⟩
  · exact hlast.unique h
  · exact absurd h.covers hcovers

/-- Where it puts none, nothing changes. -/
theorem get_overlay_of_not_covers {image : Image} {a : Word}
    (h : ¬ image.Covers a) (mem : Memory) :
    (image.overlay mem).get a = mem.get a := by
  rcases get_overlay image mem a with hlast | ⟨-, hget⟩
  · exact absurd hlast.covers h
  · exact hget

/-- Of several images the last that covers an address decides. The induction
takes the images from the end, as the one for a single image takes its
words. -/
theorem get_overlayAll (images : List Image) (mem : Memory) (a : Word) :
    LastAmong images a ((overlayAll images mem).get a)
      ∨ (∀ image ∈ images, ¬ image.Covers a)
        ∧ (overlayAll images mem).get a = mem.get a := by
  induction images using List.reverseRecOn with
  | nil => exact .inr ⟨nofun, rfl⟩
  | append_singleton images image ih =>
      rw [overlayAll_concat]
      rcases get_overlay image (overlayAll images mem) a with
        hlast | ⟨hcovers, hget⟩
      · exact .inl ⟨images, image, [], rfl, hlast, nofun⟩
      · rw [hget]
        have hmore {others : List Image}
            (h : ∀ other ∈ others, ¬ other.Covers a) :
            ∀ other ∈ others ++ [image], ¬ other.Covers a :=
          List.forall_mem_append.2 ⟨h, List.forall_mem_singleton.2 hcovers⟩
        -- the last image does not cover the address, so one before it
        -- decides
        rcases ih with ⟨before, last, after, himages, hlast, hlater⟩ |
          ⟨hnone, hold⟩
        · refine .inl ⟨before, last, after ++ [image], ?_, hlast, hmore hlater⟩
          rw [himages, List.append_assoc]
          rfl
        · exact .inr ⟨hmore hnone, hold⟩

-- ================================================================== order

/-- What an image leaves at an address depends on nothing but what was
there. -/
theorem get_overlay_congr (image : Image) {mem mem' : Memory} {a : Word}
    (h : mem.get a = mem'.get a) :
    (image.overlay mem).get a = (image.overlay mem').get a := by
  rcases get_overlay image mem a with hlast | ⟨hcovers, hget⟩
  · rw [get_overlay_of_lastAt hlast mem']
  · rw [hget, get_overlay_of_not_covers hcovers, h]

/-- Of two images that keep apart, each address has one at the most to
decide about it. -/
theorem overlay_comm {image other : Image} (h : image.Apart other)
    (mem : Memory) :
    other.overlay (image.overlay mem)
      = image.overlay (other.overlay mem) := by
  apply Bank.ext_get
  intro a
  -- at an address, the other image leaves what is there
  by_cases ha : image.Covers a
  · have hother : ¬ other.Covers a := fun hb => h a ⟨ha, hb⟩
    rw [get_overlay_of_not_covers hother]
    exact get_overlay_congr image
      (get_overlay_of_not_covers hother mem).symm
  · rw [get_overlay_of_not_covers ha]
    exact get_overlay_congr other (get_overlay_of_not_covers ha mem)

/-- Images that keep apart may come in any order. -/
theorem overlayAll_perm {images images' : List Image}
    (hperm : images.Perm images') (hapart : images.Pairwise Apart)
    (mem : Memory) : overlayAll images mem = overlayAll images' mem := by
  induction hperm generalizing mem with
  | nil => rfl
  | cons image _ ih =>
      exact ih (List.pairwise_cons.1 hapart).2 (image.overlay mem)
  | swap image other rest =>
      have hpair : other.Apart image :=
        (List.pairwise_cons.1 hapart).1 image List.mem_cons_self
      show overlayAll rest (image.overlay (other.overlay mem))
        = overlayAll rest (other.overlay (image.overlay mem))
      rw [overlay_comm hpair]
  | trans hleft _ ih ih' =>
      have hapart' := (hleft.pairwise_iff Apart.symm).1 hapart
      rw [ih hapart, ih' hapart']

end Image

end Lc3
