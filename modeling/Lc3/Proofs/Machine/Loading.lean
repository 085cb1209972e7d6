/-
Loading into a machine. A host hands over images as they are or as bytes,
in any number, and what memory holds afterwards is what the images laid
over it leave (`Image.overlayAll`). Everything else about the machine is
as it was, the journal apart: loading goes past the bus, and bytes that
are no image do nothing at all.
-/
import Lc3.Machine.Load
import Lc3.Proofs.Image.Overlay
import Lc3.Proofs.Machine.Alike

namespace Lc3

-- =============================================================== the board

namespace Board

variable {κ : Type}

/-- Writing cells one by one changes nothing but memory, and the
journal. -/
theorem foldl_poke (cells : List (Word × Word)) (b : Board κ) :
    (cells.foldl (fun b (a, w) => b.poke a w) b).core
        = { b.core with
            mem := cells.foldl (fun mem (a, w) => mem.set a w) b.core.mem }
      ∧ (cells.foldl (fun b (a, w) => b.poke a w) b).console
        = b.console := by
  induction cells generalizing b with
  | nil => exact ⟨rfl, rfl⟩
  | cons cell cells ih =>
      obtain ⟨a, w⟩ := cell
      rw [List.foldl_cons, List.foldl_cons]
      exact ih (b.poke a w)

/-- An image is laid over memory, and nothing else of the core changes. -/
theorem core_load (image : Image) (b : Board κ) :
    (b.load image).core
      = { b.core with mem := image.overlay b.core.mem } :=
  (foldl_poke image.cells b).1

/-- Nothing is asked of the console. -/
theorem console_load (image : Image) (b : Board κ) :
    (b.load image).console = b.console :=
  (foldl_poke image.cells b).2

end Board

namespace Machine

variable {κ δ : Type}

/-- Images are laid over memory one after the other, and nothing else of the
core changes. -/
theorem core_loadAll (images : List Image) (m : Machine κ δ) :
    (m.loadAll images).core
      = { m.core with mem := Image.overlayAll images m.core.mem } := by
  induction images generalizing m with
  | nil => rfl
  | cons image images ih =>
      have hload : (m.load image).core
          = { m.core with mem := image.overlay m.core.mem } :=
        Board.core_load image m.toBoard
      show (loadAll images (m.load image)).core = _
      rw [ih, hload]
      rfl

/-- No loading is heard at the console. -/
theorem console_loadAll (images : List Image) (m : Machine κ δ) :
    (m.loadAll images).console = m.console := by
  induction images generalizing m with
  | nil => rfl
  | cons image images ih =>
      show (loadAll images (m.load image)).console = _
      rw [ih]
      exact Board.console_load image m.toBoard

/-- Loading puts nothing on the bus and stops nothing. -/
theorem devices_loadAll (images : List Image) (m : Machine κ δ) :
    (m.loadAll images).devices = m.devices
      ∧ (m.loadAll images).running = m.running := by
  induction images generalizing m with
  | nil => exact ⟨rfl, rfl⟩
  | cons image images ih => exact ih (m.load image)

-- ============================================================== deliveries

/-- How a host hands over an image. -/
inductive Delivery where
  | image (image : Image)
  | encoded (bytes : List Byte)
deriving DecidableEq, Repr

/-- The image handed over, if it is one. -/
def Delivery.image? : Delivery → Option Image
  | .image i => some i
  | .encoded bytes => (Image.ofBytes bytes).toOption

/-- Takes a delivery. What cannot be read leaves the machine as it is. -/
def receive (m : Machine κ δ) : Delivery → Machine κ δ
  | .image image => m.load image
  | .encoded bytes => (m.loadEncoded bytes).toOption.getD m

def receiveAll (deliveries : List Delivery) (m : Machine κ δ) :
    Machine κ δ :=
  deliveries.foldl receive m

/-- Only the image matters, not how it came. -/
theorem receive_eq (m : Machine κ δ) (d : Delivery) :
    m.receive d = match d.image? with
      | none => m
      | some image => m.load image := by
  cases d with
  | image image => rfl
  | encoded bytes =>
      show (m.loadEncoded bytes).toOption.getD m
        = match (Image.ofBytes bytes).toOption with
          | none => m
          | some image => m.load image
      unfold loadEncoded
      cases Image.ofBytes bytes <;> rfl

/-- Of deliveries the images count, in the order in which they came. -/
theorem receiveAll_eq (deliveries : List Delivery) (m : Machine κ δ) :
    m.receiveAll deliveries
      = m.loadAll (deliveries.filterMap Delivery.image?) := by
  induction deliveries generalizing m with
  | nil => rfl
  | cons d deliveries ih =>
      show receiveAll deliveries (m.receive d) = _
      rw [ih, receive_eq, List.filterMap_cons]
      cases d.image? <;> rfl

/-- Deliveries whose images, if they are any, keep apart. -/
def Delivery.Apart (d d' : Delivery) : Prop :=
  ∀ image ∈ d.image?, ∀ image' ∈ d'.image?, image.Apart image'

-- ============================================================= the theorem

/-- What loading does to a machine, and what it does not do. -/
structure LoadsOver (m : Machine κ δ) : Prop where
  /-- An address holds the last word of the last image that covers it,
  and if there is none, what it held before. -/
  cells : ∀ deliveries a,
    let images := deliveries.filterMap Delivery.image?
    Image.LastAmong images a ((m.receiveAll deliveries).core.peek a)
      ∨ (∀ image ∈ images, ¬ image.Covers a)
        ∧ (m.receiveAll deliveries).core.peek a = m.core.peek a
  /-- Nothing but memory and the journal differs. -/
  rest : ∀ deliveries, ∃ mem journal,
    m.receiveAll deliveries
      = { m with core := { m.core with mem }, journal }
  /-- No device has a part in it: with others, or with none, it would all
  be the same. -/
  devices : ∀ deliveries {δ' : Type} (n : Machine κ δ'),
    n.toBoard = m.toBoard →
      (n.receiveAll deliveries).toBoard
        = (m.receiveAll deliveries).toBoard
  /-- An image that fits into memory is there, word for word. -/
  readBack : ∀ d image, d.image? = some image →
    image.words.length ≤ 65536 → ∀ i w, image.words[i]? = some w →
      (m.receive d).core.peek (image.origin + BitVec.ofNat 16 i) = w
  /-- Images that keep apart may come in any order. -/
  anyOrder : ∀ deliveries deliveries', deliveries.Perm deliveries' →
    deliveries.Pairwise Delivery.Apart →
      Alike (m.receiveAll deliveries) (m.receiveAll deliveries')
  /-- Bytes that are no image are refused, and change nothing. -/
  refused : ∀ bytes, (∃ e, m.loadEncoded bytes = .error e) →
    m.receive (.encoded bytes) = m

/-- What deliveries do is done on the board, whatever the machine has
besides. -/
theorem toBoard_receiveAll (deliveries : List Delivery)
    (m : Machine κ δ) :
    (m.receiveAll deliveries).toBoard
      = (deliveries.filterMap Delivery.image?).foldl
          (fun b image => b.load image) m.toBoard := by
  rw [receiveAll_eq]
  generalize deliveries.filterMap Delivery.image? = images
  induction images generalizing m with
  | nil => rfl
  | cons image images ih => exact ih (m.load image)

/-- Of the core, deliveries change memory alone. -/
theorem core_receiveAll (deliveries : List Delivery) (m : Machine κ δ) :
    (m.receiveAll deliveries).core = { m.core with
      mem := Image.overlayAll (deliveries.filterMap Delivery.image?)
        m.core.mem } := by
  rw [receiveAll_eq, core_loadAll]

/-- Deliveries that keep apart are of images that do. -/
theorem pairwise_apart_images {deliveries : List Delivery}
    (h : deliveries.Pairwise Delivery.Apart) :
    (deliveries.filterMap Delivery.image?).Pairwise Image.Apart := by
  rw [List.pairwise_filterMap]
  exact h.imp fun hapart image himage image' himage' =>
    hapart image himage image' himage'

/-- Loading lays images over memory, and does nothing else. -/
theorem loading_overlays (m : Machine κ δ) : LoadsOver m where
  cells deliveries a := by
    have hcell : (m.receiveAll deliveries).core.peek a
        = (Image.overlayAll (deliveries.filterMap Delivery.image?)
            m.core.mem).get a :=
      congrArg (·.peek a) (core_receiveAll deliveries m)
    rw [hcell]
    exact Image.get_overlayAll _ m.core.mem a
  rest deliveries := by
    have hcore := core_receiveAll deliveries m
    rw [receiveAll_eq] at hcore ⊢
    generalize deliveries.filterMap Delivery.image? = images at hcore ⊢
    have hconsole := console_loadAll images m
    obtain ⟨hdevices, hrunning⟩ := devices_loadAll images m
    refine ⟨Image.overlayAll images m.core.mem,
      (m.loadAll images).journal, ?_⟩
    rw [← hcore, ← hconsole, ← hdevices, ← hrunning]
  devices deliveries δ' n hboard := by
    rw [toBoard_receiveAll, toBoard_receiveAll, hboard]
  readBack d image hd hlength i w hw := by
    -- an image that fits covers no address twice
    have hlast := Image.lastAt_of_getElem? hlength hw
    rw [receive_eq, hd]
    show (m.toBoard.load image).core.peek _ = w
    rw [Board.core_load]
    exact Image.get_overlay_of_lastAt hlast m.core.mem
  anyOrder deliveries deliveries' hperm hapart := by
    -- in either order memory is overlaid alike, and the rest is not touched
    have hmem := Image.overlayAll_perm
      (hperm.filterMap Delivery.image?)
      (pairwise_apart_images hapart) m.core.mem
    have hcore := core_receiveAll deliveries m
    rw [hmem, ← core_receiveAll] at hcore
    rw [receiveAll_eq, receiveAll_eq] at hcore ⊢
    constructor
    · exact hcore
    · rw [console_loadAll, console_loadAll]
    · rw [(devices_loadAll _ m).1, (devices_loadAll _ m).1]
    · rw [(devices_loadAll _ m).2, (devices_loadAll _ m).2]
  refused bytes hrefused := by
    obtain ⟨e, he⟩ := hrefused
    show (m.loadEncoded bytes).toOption.getD m = m
    rw [he]
    rfl

end Machine

end Lc3
