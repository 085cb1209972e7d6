/-
Who answers at an address. A device is put on the bus with a list of
addresses, at any time and whatever has happened before, and from then on
it answers for these addresses and for no other. Nobody can be put in its
place: a list with an address that somebody has, or with one that it has
twice, is refused (`served_by_lists`).

It follows that no access goes astray. Each failure that a host is told of
comes from the console, from a string that does not end, from a file, or
from a device that was added and asked for an address of its own list
(`Blamed`). That there is no such device, or that the keyboard was asked
for an address it does not serve, is not among them.
-/
import Lc3.Proofs.Machine.Furnished
import Lc3.Console.Buffered

namespace Lc3.Machine

open EStateM (Result)

variable {κ δ α β : Type} [Console κ] [Peripheral δ]

-- =================================================================== blame

/-- Where a failure of the machine can come from. -/
def Blamed (κ : Type) [Console κ] (added : List (Registration δ))
    (f : Failure) : Prop :=
  FromConsole f ∨ f = .endless ∨ ∃ r ∈ added, r.Raises κ f

variable {added : List (Registration δ)} {m : Machine κ δ} {f : Failure}

/-- A failure that a registered device raises is one for which something can
be blamed, and if it is the keyboard's, then it is the console. -/
theorem blamed_of_raises {r : Registration δ} (hr : r ∈ registered added)
    (h : r.Raises κ f) : Blamed κ added f := by
  rcases List.mem_cons.1 hr with rfl | hadded
  · exact .inl (Registration.raises_keyboard κ h)
  · exact .inr (.inr ⟨r, hadded, h⟩)

/-- A computation that leaves a furnished machine furnished, and that can
account for its failures. -/
def Contained (added : List (Registration δ)) (p : Exec κ δ α) : Prop :=
  ∀ m, Furnished added m →
    Meets (fun _ => Furnished added)
      (fun f m' => Furnished added m' ∧ Blamed κ added f) (p.run m)

/-- What can account for its failures part by part can do so as a whole. -/
theorem sequential_contained :
    Sequential (Contained added : {α : Type} → Exec κ δ α → Prop) where
  pure _ _ h := h
  bind h hf m hm := (h m hm).bind fun x m' hm' => hf x m' hm'

/-- What is told of a success makes no difference. -/
theorem Contained.answer {p : Exec κ δ α} (h : Contained added p)
    (f : α → β) : Contained added (do return f (← p)) :=
  sequential_contained.bind h fun _ _ hm => hm

omit [Console κ] [Peripheral δ] in
/-- What is so after either kind of outcome, with something besides that
is so after a failure. -/
theorem meets_of_after {P : Machine κ δ → Prop} {E : Failure → Prop}
    {r : Result Failure (Machine κ δ) α} (h : P (Console.after r))
    (hf : ∀ f m', r = .error f m' → E f) :
    Meets (fun _ => P) (fun f m' => P m' ∧ E f) r := by
  cases r with
  | ok x m' => exact h
  | error f m' => exact ⟨h, hf f m' rfl⟩

/-- A read fails as the device fails that answers it, and where there is
none it does not. -/
theorem contained_read (a : Word) :
    Contained added (read a : Exec κ δ Word) := by
  intro m h
  refine meets_of_after (h.read a) fun f m' hrun => ?_
  by_cases ha : Mapped added a
  · obtain ⟨r, hr, hlist⟩ := ha
    obtain ⟨i, hi⟩ := List.getElem?_of_mem hr
    obtain ⟨d, -, hbecame, hread, -⟩ := h.routed.answers hi hlist
    rw [hread] at hrun
    cases hdevice : (Peripheral.read a).run (d, m.toBoard) with
    | ok w s =>
        rw [hdevice] at hrun
        cases hrun
    | error g s =>
        rw [hdevice] at hrun
        cases hrun
        exact blamed_of_raises hr ⟨d, hbecame, a, hlist, _, s, .inl hdevice⟩
  · rw [(h.routed.plain ha).1] at hrun
    cases hrun

/-- So does a write. -/
theorem contained_write (a w : Word) :
    Contained added (write a w : Exec κ δ Unit) := by
  intro m h
  refine meets_of_after (h.write a w) fun f m' hrun => ?_
  by_cases ha : Mapped added a
  · obtain ⟨r, hr, hlist⟩ := ha
    obtain ⟨i, hi⟩ := List.getElem?_of_mem hr
    obtain ⟨d, -, hbecame, -, hwrite⟩ := h.routed.answers hi hlist
    rw [hwrite w] at hrun
    cases hdevice : (Peripheral.write a w).run (d, m.toBoard) with
    | ok x s =>
        rw [hdevice] at hrun
        cases hrun
    | error g s =>
        rw [hdevice] at hrun
        cases hrun
        exact blamed_of_raises hr
          ⟨d, hbecame, a, hlist, _, s, .inr ⟨w, hdevice⟩⟩
  · rw [(h.routed.plain ha).2 w] at hrun
    cases hrun

/-- A call fails by the console's failure. -/
theorem contained_call (c : Console.Call) :
    Contained added (call c : Exec κ δ c.Answer) := by
  intro m h
  refine meets_of_after (h.call c) fun f m' hrun => ?_
  exact .inl ((meets_call c m).of_error hrun).1

/-- What is made of the acts of a machine accounts for its failures, and
besides, a string may not come to its end. -/
theorem Twin.contained {p : Exec κ δ α} (h : Twin p p) :
    Contained added p := by
  refine sequential_contained.twin (fun _ _ h => h)
    (fun a _ h => h.act a) contained_read contained_write
    (fun c _ => contained_call c) ?_ h
  refine sequential_contained.putString ?_
    (fun _ h => ⟨h, .inr (.inl rfl)⟩)
    (fun b => contained_call (.write b)) (contained_call .flush)
    contained_read
  intro p hruns m hm
  obtain ⟨q, hq, hrun⟩ := hruns m
  rw [hrun]
  exact hq m hm

-- =================================================================== moves

/-- Loading is writes to cells and a note, and none of them has to do with
the bus. -/
theorem Furnished.load (h : Furnished added m) (image : Image) :
    Furnished added { m with toBoard := m.toBoard.load image } := by
  have hcells (cells : List (Word × Word)) {m : Machine κ δ}
      (h : Furnished added m) :
      Furnished added
        { m with
          toBoard :=
            cells.foldl (fun b c => b.poke c.1 c.2) m.toBoard } := by
    induction cells generalizing m with
    | nil => exact h
    | cons cell cells ih => exact ih (h.act (.poke cell.1 cell.2))
  exact (hcells image.cells h).act
    (.note (.imageLoaded image.words.length image.origin))

/-- Each operation but attaching leaves the machine furnished as it was. -/
theorem contained_operate {op : Operation δ}
    (hplain : (Move.operate op : Move κ δ).Plain) :
    Contained added (operate op : Exec κ δ Answer) := by
  cases op with
  | attach d addrs => exact absurd hplain id
  | load image => exact fun m h => h.load image
  | peek a => exact fun m h => h
  | getReg r => exact (twin_getReg r).contained.answer Answer.word
  | setReg r w => exact fun m h => h.act (.setReg r w)
  | setPc w => exact fun m h => h.act (.setPc w)
  | setCond c => exact fun m h => h.act (.setCond c)
  | countInstr => exact fun m h => h.act .countInstr
  | poke a w => exact fun m h => h.act (.poke a w)
  | read a => exact (contained_read a).answer Answer.word
  | write a w => exact (contained_write a w).answer fun _ => Answer.done
  | fetch => exact twin_fetch.contained.answer Answer.word
  | execute w => exact (twin_execute w).contained.answer Answer.status
  | step => exact twin_step.contained.answer Answer.status

/-- So does a run, step by step, and if it fails, the step at which it does
has somebody to blame. -/
theorem Furnished.advance (h : Furnished added m) (limit : Nat) :
    Furnished added (advance limit m).2
      ∧ ∀ f, (advance limit m).1 = .failed f → Blamed κ added f := by
  induction limit generalizing m with
  | zero =>
      refine ⟨h, fun f hf => ?_⟩
      cases hf
  | succ limit ih =>
      have hstep := twin_step.contained m h
      rw [Machine.advance]
      cases hrun : step.run m with
      | error f m₁ =>
          obtain ⟨h₁, hblamed⟩ := hstep.of_error hrun
          refine ⟨h₁, fun g hg => ?_⟩
          cases hg
          exact hblamed
      | ok status m₁ =>
          have h₁ := hstep.of_ok hrun
          cases status with
          | running => exact ih h₁
          | halted =>
              refine ⟨h₁.act (.note _), fun f hf => ?_⟩
              cases hf

/-- A move leaves a furnished machine furnished, and whatever failure the
host is told of, as such or as the end of a run, is accounted for. -/
theorem Furnished.make (h : Furnished added m) {move : Move κ δ}
    (hplain : move.Plain) :
    Meets
      (fun reply m' => Furnished added m'
        ∧ ∀ f, reply = .progress (.failed f) → Blamed κ added f)
      (fun f m' => Furnished added m'
        ∧ (Blamed κ added f ∨ ∃ path e, f = .image path e))
      ((make move).run m) := by
  cases move with
  | operate op =>
      have hop : Meets (fun _ => Furnished added)
          (fun f m' => Furnished added m'
            ∧ (Blamed κ added f ∨ ∃ path e, f = .image path e))
          ((Machine.operate op).run m) :=
        (contained_operate hplain m h).imp (fun _ _ => id)
          fun _ _ hfailed => hfailed.imp_right .inl
      exact hop.bind fun _ _ hm' => ⟨hm', nofun⟩
  | loadEncoded bytes =>
      show Meets _ _ ((takeBytes bytes).run m)
      unfold takeBytes loadEncoded
      cases Image.ofBytes bytes with
      | error e => exact ⟨h, nofun⟩
      | ok image => exact ⟨h.load image, nofun⟩
  | loadFrom v path =>
      show Meets _ _ (EStateM.run (do
        loadFrom v path
        return Reply.answer .done) m)
      unfold loadFrom readImage
      cases Image.ofContents (v.read path) with
      | error e => exact ⟨h, .inr ⟨path, e, rfl⟩⟩
      | ok image => exact ⟨(h.act (.note _)).load image, nofun⟩
  | run limit =>
      obtain ⟨hend, hblamed⟩ := (h.act (.note _)).advance limit
      refine ⟨hend, fun f hf => hblamed f ?_⟩
      injection hf
  | share f => exact ⟨h.share f, nofun⟩

-- ================================================================ the lists

namespace Routed

theorem taken_eq (h : Routed added m) : m.devices.Taken = Mapped added :=
  funext fun a => propext (h.taken_iff a)

/-- A device is refused for a clash, and for nothing else. -/
theorem attach_error_iff (h : Routed added m) (d : Device δ)
    (addrs : Option (List Word)) :
    (∃ f m', (Machine.attach d addrs).run m = .error f m')
      ↔ Clashes (Mapped added) (addrs.getD (Peripheral.addresses d)) := by
  rw [run_attach, ← h.taken_eq]
  rcases m.devices.attach_cases d (addrs.getD (Peripheral.addresses d))
    with ⟨hfree, t, hok, -⟩ | ⟨a, ha, herr⟩
  · rw [hok]
    constructor
    · rintro ⟨f, m', hrun⟩
      cases hrun
    · intro hclash
      exact absurd hclash hfree
  · rw [herr]
    exact ⟨fun _ => ha.clashes, fun _ => ⟨_, m, rfl⟩⟩

/-- The refusal names the address that clashed first. -/
theorem attach_error (h : Routed added m) {d : Device δ}
    {addrs : Option (List Word)} {f : Failure} {m' : Machine κ δ}
    (hrun : (Machine.attach d addrs).run m = .error f m') :
    ∃ a, f = .addressTaken a
      ∧ FirstClash (Mapped added) (addrs.getD (Peripheral.addresses d))
        a := by
  rw [run_attach] at hrun
  cases htable : m.devices.attach d (addrs.getD (Peripheral.addresses d))
    with
  | ok t =>
      rw [htable] at hrun
      cases hrun
  | error g =>
      rw [htable] at hrun
      cases hrun
      obtain ⟨a, ha, hf⟩ := DeviceTable.attach_error htable
      exact ⟨a, hf, h.taken_eq ▸ ha⟩

/-- An address leads to one device, so it is in the list of that one
alone. -/
theorem apart (h : Routed added m) {i j : Nat} {r r' : Registration δ}
    (hr : (registered added)[i]? = some r)
    (hr' : (registered added)[j]? = some r') {a : Word}
    (ha : a ∈ r.addresses) (ha' : a ∈ r'.addresses) : i = j := by
  have hi := (h.route a i).2 ⟨r, hr, ha⟩
  have hj := (h.route a j).2 ⟨r', hr', ha'⟩
  exact Option.some.inj (hi.symm.trans hj)

omit [Peripheral δ] in
theorem registered_keyboard :
    (registered added)[0]? = some .keyboard :=
  rfl

omit [Peripheral δ] in
theorem mem_keyboard {a : Word} :
    a ∈ (Registration.keyboard : Registration δ).addresses
      ↔ a = Keyboard.status :=
  List.mem_singleton

/-- The keyboard stays where it was from the start, and only its status
leads to it. -/
theorem keyboard (h : Routed added m) :
    m.devices.devices[0]? = some .keyboard
      ∧ ∀ a, m.devices.route a = some 0 ↔ a = Keyboard.status := by
  obtain ⟨d, hd, hbecame⟩ := h.became registered_keyboard
  cases Registration.became_keyboard κ hbecame
  refine ⟨hd, fun a => ?_⟩
  rw [h.route a 0]
  constructor
  · rintro ⟨r, hr, ha⟩
    cases hr
    exact mem_keyboard.1 ha
  · intro ha
    exact ⟨_, registered_keyboard, mem_keyboard.2 ha⟩

/-- Its status can be read unless the console fails, and be written. -/
theorem answered (h : Routed added m) :
    Meets (fun _ _ => True) (fun f _ => FromConsole f)
        ((Machine.read Keyboard.status).run m)
      ∧ ∀ w, ∃ m', (Machine.write Keyboard.status w).run m
          = .ok () m' := by
  have hown := (mem_keyboard (δ := δ)).2 rfl
  obtain ⟨d, -, hbecame, hread, hwrite⟩ :=
    h.answers registered_keyboard hown
  cases Registration.became_keyboard κ hbecame
  refine ⟨?_, fun w => ⟨_, hwrite w⟩⟩
  cases hrun : (Machine.read Keyboard.status).run m with
  | ok w m' => exact trivial
  | error f m' =>
      rw [hread] at hrun
      cases hdevice : (Peripheral.read Keyboard.status).run
          ((.keyboard : Device δ), m.toBoard) with
      | ok w s =>
          rw [hdevice] at hrun
          cases hrun
      | error g s =>
          rw [hdevice] at hrun
          cases hrun
          exact Registration.raises_keyboard κ
            ⟨_, .first, _, hown, _, s, .inl hdevice⟩

end Routed

-- ============================================================ who answers

/-- How the bus of a machine works to which these devices were added. -/
structure Routing (added : List (Registration δ)) (m : Machine κ δ) :
    Prop where
  /-- Another device is refused just in case its list clashes with what is
  mapped, or with itself, -/
  refused (d : Device δ) (addrs : Option (List Word)) :
    (∃ f m', (attach d addrs).run m = .error f m')
      ↔ Clashes (Mapped added) (addrs.getD (Peripheral.addresses d))
  /-- and then the first address that does is named. -/
  names {d : Device δ} {addrs : Option (List Word)} {f : Failure}
    {m' : Machine κ δ} (h : (attach d addrs).run m = .error f m') :
    ∃ a, f = .addressTaken a
      ∧ FirstClash (Mapped added) (addrs.getD (Peripheral.addresses d)) a
  /-- If it is not refused, it is one more that was added. -/
  joins {d : Device δ} {addrs : Option (List Word)} {m' : Machine κ δ}
    (h : (attach d addrs).run m = .ok () m') :
    Furnished (added ++ [⟨d, addrs.getD (Peripheral.addresses d)⟩]) m'
  /-- Nothing else that a host may do adds any, and no failure that it is
  told of comes from asking a device in vain. -/
  stays {move : Move κ δ} (hplain : move.Plain) :
    Meets
      (fun reply m' => Furnished added m'
        ∧ ∀ f, reply = .progress (.failed f) → Blamed κ added f)
      (fun f m' => Furnished added m'
        ∧ (Blamed κ added f ∨ ∃ path e, f = .image path e))
      ((make move).run m)
  /-- An address of a list is read and written by the device of that
  list, in whatever state its own accesses have brought it to. -/
  served {i : Nat} {r : Registration δ}
    (hr : (registered added)[i]? = some r) {a : Word}
    (ha : a ∈ r.addresses) :
    ∃ d, m.devices.devices[i]? = some d ∧ r.Became κ d
      ∧ (read a).run m
          = mapState (m.placed i) ((Peripheral.read a).run (d, m.toBoard))
      ∧ ∀ w, (write a w).run m
          = mapState (m.placed i)
              ((Peripheral.write a w).run (d, m.toBoard))
  /-- No address is in two lists. -/
  apart {i j : Nat} {r r' : Registration δ}
    (hr : (registered added)[i]? = some r)
    (hr' : (registered added)[j]? = some r') {a : Word}
    (ha : a ∈ r.addresses) (ha' : a ∈ r'.addresses) : i = j
  /-- The number that an address leads to is that of a device. -/
  inRange {a : Word} {i : Nat} (h : m.devices.route a = some i) :
    i < m.devices.devices.length
  /-- An address in no list is a cell. -/
  plain {a : Word} (ha : ¬ Mapped added a) :
    (read a).run m = .ok (m.core.peek a) m
      ∧ ∀ w, (write a w).run m
          = .ok () { m with toBoard := m.toBoard.poke a w }
  /-- The keyboard that was there from the start is asked for its status
  only, -/
  keyboard : m.devices.devices[0]? = some .keyboard
    ∧ ∀ a, m.devices.route a = some 0 ↔ a = Keyboard.status
  /-- and has an answer, unless the console fails. -/
  answered :
    Meets (fun _ _ => True) (fun f _ => FromConsole f)
        ((read Keyboard.status).run m)
      ∧ ∀ w, ∃ m', (write Keyboard.status w).run m = .ok () m'

/-- Whatever was added to a machine, and whatever happened to it in
between: the lists say who answers. -/
theorem served_by_lists (h : Furnished added m) : Routing added m where
  refused := h.routed.attach_error_iff
  names := h.routed.attach_error
  joins := h.attach
  stays := h.make
  served := h.routed.answers
  apart := h.routed.apart
  inRange := h.routed.lt_of_route
  plain := h.routed.plain
  keyboard := h.routed.keyboard
  answered := h.routed.answered

/-- A second keyboard, at two addresses neither of which it serves. -/
def spare : Registration Empty := ⟨.keyboard, [0xfe10, 0xfe12]⟩

/-- A machine with the spare keyboard added to it. -/
def spared : Machine Buffered Empty :=
  { (new {} : Machine Buffered Empty) with
    devices :=
      { devices := [.keyboard, .keyboard]
        routes := [(0xfe12, 1), (0xfe10, 1), (Keyboard.status, 0)] } }

/-- The spare keyboard was put where nobody was. -/
theorem furnished_spared : Furnished [spare] spared := by
  have hattach : (attach spare.device (some spare.addresses)).run (new {})
      = .ok () spared := by
    rw [run_attach]
    rfl
  exact .attach (.new _ _) hattach

/-- Neither keyboard can be put in the place of the other, and it is the
spare one that is asked in vain, also after it has been. -/
theorem served_by_lists_spare :
    Furnished [spare] (Console.after ((read 0xfe12).run spared))
      ∧ Routing [spare] (Console.after ((read 0xfe12).run spared))
      ∧ Meets (fun _ _ => False) (fun f _ => f = .addressTaken 0xfe12)
        ((attach .keyboard (some [0x4000, 0xfe12, 0x4000])).run spared)
      ∧ Meets (fun _ _ => False)
        (fun f _ => f = .addressTaken Keyboard.status)
        ((attach .keyboard none).run spared)
      ∧ Meets (fun _ _ => False) (fun f _ => f = .addressUnserved 0xfe12)
        ((read 0xfe12).run spared)
      ∧ Meets (fun w _ => w = 0) (fun _ _ => False)
        ((read Keyboard.status).run spared) := by
  have hasked := furnished_spared.read 0xfe12
  refine ⟨hasked, served_by_lists hasked, ?_, ?_, ?_, ?_⟩
  · decide +kernel
  · decide +kernel
  · decide +kernel
  · decide +kernel

end Lc3.Machine
