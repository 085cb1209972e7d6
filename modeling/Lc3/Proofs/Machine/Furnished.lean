/-
A machine and the devices it was furnished with. It comes with the
keyboard, more may be put on its bus at any time, and in between anything
may happen to it. What was put on the bus is a list of registrations, and
of a machine so furnished one can say by that list alone who answers at an
address (`Routed`).

The states counted in are finer than those a host gets to see: they
include each state within an instruction from which memory may be read.
So what holds of all of them also holds in the middle of an instruction,
of a string, and of a run that fails.

A device changes its state when it is asked something, and in no other
way. `Registration.Became` says of a state that it came about by questions
for addresses of the registration.
-/
import Lc3.Proofs.Device.Attaching
import Lc3.Proofs.Machine.Moves

namespace Lc3

variable {κ δ α : Type}

-- =========================================================== registrations

/-- A device, and the addresses it was put at. -/
structure Registration (δ : Type) where
  device : Device δ
  addresses : List Word

namespace Registration

/-- The keyboard in its place. -/
def keyboard : Registration δ := ⟨.keyboard, [Keyboard.status]⟩

variable (κ) [Console κ] [Peripheral δ]

/-- A state that the device may be in after some questions, each of them
for one of its own addresses. -/
inductive Became (r : Registration δ) : Device δ → Prop where
  | first : Became r r.device
  | read {d : Device δ} (h : Became r d) {a : Word}
      (ha : a ∈ r.addresses) (b : Board κ) :
      Became r (Console.after ((Peripheral.read a).run (d, b))).1
  | write {d : Device δ} (h : Became r d) {a : Word}
      (ha : a ∈ r.addresses) (w : Word) (b : Board κ) :
      Became r (Console.after ((Peripheral.write a w).run (d, b))).1

/-- A question for one of its own addresses may make the device fail like
this. -/
def Raises (r : Registration δ) (f : Failure) : Prop :=
  ∃ d, r.Became κ d ∧ ∃ a ∈ r.addresses, ∃ (b : Board κ) (s : Device δ × _),
    (Peripheral.read a).run (d, b) = .error f s
      ∨ ∃ w, (Peripheral.write a w).run (d, b) = .error f s

/-- The keyboard has no state to change. -/
theorem became_keyboard {d : Device δ} (h : keyboard.Became κ d) :
    d = .keyboard := by
  induction h with
  | first => rfl
  | read _ ha b ih =>
      rw [ih, Device.run_read_keyboard]
      cases (Keyboard.read _).run b <;> rfl
  | write _ ha w b ih =>
      rw [ih]
      rfl

/-- Of its one address, the keyboard fails only where the console does. -/
theorem raises_keyboard {f : Failure}
    (h : (keyboard : Registration δ).Raises κ f) :
    Machine.FromConsole f := by
  obtain ⟨d, hd, a, ha, b, s, h⟩ := h
  cases List.mem_singleton.1 ha
  cases became_keyboard κ hd
  rcases h with hread | ⟨w, hwrite⟩
  · rw [Device.run_read_keyboard, Keyboard.read, if_pos rfl,
      Keyboard.run_readStatus] at hread
    cases hpoll : (Console.call (.poll Keyboard.patience)).run b.console with
    | error e console =>
        rw [hpoll] at hread
        cases hread
        exact ⟨e, rfl⟩
    | ok answer console =>
        rw [hpoll] at hread
        cases answer <;> cases hread
  · cases hwrite

end Registration

namespace Machine

/-- All that is on the bus: the keyboard, and what was added. -/
def registered (added : List (Registration δ)) : List (Registration δ) :=
  .keyboard :: added

/-- Some device was put at the address. -/
def Mapped (added : List (Registration δ)) (a : Word) : Prop :=
  ∃ r ∈ registered added, a ∈ r.addresses

variable [Console κ] [Peripheral δ]

/-- A machine as it may be after these devices were added to it, and
whatever else has happened: changes, accesses to the bus and calls of the
console in any order, whether they succeeded or not, and whatever a host
may do to the console. -/
inductive Furnished : List (Registration δ) → Machine κ δ → Prop where
  | new (console : κ) (journal : Journal) :
      Furnished [] (new console journal)
  | act {added : List (Registration δ)} {m : Machine κ δ} (a : Act)
      (h : Furnished added m) : Furnished added (a.apply m)
  | read {added : List (Registration δ)} {m : Machine κ δ} (a : Word)
      (h : Furnished added m) :
      Furnished added (Console.after ((Machine.read a).run m))
  | write {added : List (Registration δ)} {m : Machine κ δ} (a w : Word)
      (h : Furnished added m) :
      Furnished added (Console.after ((Machine.write a w).run m))
  | call {added : List (Registration δ)} {m : Machine κ δ}
      (c : Console.Call) (h : Furnished added m) :
      Furnished added (Console.after ((Machine.call c).run m))
  | share {added : List (Registration δ)} {m : Machine κ δ} (f : κ → κ)
      (h : Furnished added m) :
      Furnished added { m with console := f m.console }
  | attach {added : List (Registration δ)} {m m' : Machine κ δ}
      {d : Device δ} {addrs : Option (List Word)} (h : Furnished added m)
      (hattach : (Machine.attach d addrs).run m = .ok () m') :
      Furnished (added ++ [⟨d, addrs.getD (Peripheral.addresses d)⟩]) m'

-- ================================================================= routing

/-- What the bus is like. The devices are those of the registrations, in
their order; an address leads to a device if it is in the device's
list. -/
structure Routed (added : List (Registration δ)) (m : Machine κ δ) :
    Prop where
  count : m.devices.devices.length = (registered added).length
  became {i : Nat} {r : Registration δ} (h : (registered added)[i]? = some r) :
    ∃ d, m.devices.devices[i]? = some d ∧ r.Became κ d
  route (a : Word) (i : Nat) : m.devices.route a = some i
    ↔ ∃ r, (registered added)[i]? = some r ∧ a ∈ r.addresses

omit [Peripheral δ] in
/-- A call of the console puts nothing on the bus. -/
theorem devices_call (c : Console.Call) (m : Machine κ δ) :
    (Console.after ((Machine.call c).run m)).devices = m.devices := by
  rw [run_call]
  cases (Console.call c).run m.console <;> rfl

namespace Routed

variable {added : List (Registration δ)} {m m' : Machine κ δ}

/-- A new machine has the keyboard alone, at its one address. -/
theorem new (console : κ) (journal : Journal) :
    Routed [] (new console journal : Machine κ δ) where
  count := rfl
  became {i r} h := by
    cases i with
    | zero =>
        cases h
        exact ⟨.keyboard, rfl, .first⟩
    | succ i => cases h
  route a i := by
    show DeviceTable.standard.route a = some i ↔ _
    rw [DeviceTable.route_standard]
    cases i with
    | zero =>
        by_cases ha : a = Keyboard.status <;>
          simp [registered, Registration.keyboard, ha]
    | succ i => by_cases ha : a = Keyboard.status <;> simp [registered, ha]

/-- It is all in the table. -/
theorem of_devices (h : Routed added m) (hdev : m'.devices = m.devices) :
    Routed added m' where
  count := hdev ▸ h.count
  became := hdev ▸ h.became
  route := hdev ▸ h.route

/-- An address leads to a number that is some device's. -/
theorem lt_of_route (h : Routed added m) {a : Word} {i : Nat}
    (ha : m.devices.route a = some i) : i < m.devices.devices.length := by
  obtain ⟨r, hr, -⟩ := (h.route a i).1 ha
  obtain ⟨hi, -⟩ := List.getElem?_eq_some_iff.1 hr
  exact h.count ▸ hi

/-- An address is taken if it is in some list. -/
theorem taken_iff (h : Routed added m) (a : Word) :
    m.devices.Taken a ↔ Mapped added a := by
  unfold DeviceTable.Taken
  constructor
  · intro ha
    obtain ⟨i, hi⟩ := Option.ne_none_iff_exists'.1 ha
    obtain ⟨r, hr, hmem⟩ := (h.route a i).1 hi
    exact ⟨r, List.mem_of_getElem? hr, hmem⟩
  · rintro ⟨r, hr, hmem⟩
    obtain ⟨i, hi⟩ := List.getElem?_of_mem hr
    rw [(h.route a i).2 ⟨r, hi, hmem⟩]
    exact Option.some_ne_none i

/-- A new state of one device, come about as it must. -/
theorem placed (h : Routed added m) {i : Nat} {r : Registration δ}
    (hr : (registered added)[i]? = some r) {s : Device δ × Board κ}
    (hs : r.Became κ s.1) : Routed added (m.placed i s) where
  count := by
    show (m.devices.devices.set i s.1).length = _
    rw [List.length_set]
    exact h.count
  became {j r'} hr' := by
    show ∃ d, (m.devices.devices.set i s.1)[j]? = some d ∧ _
    obtain ⟨d, hd, hbecame⟩ := h.became hr'
    rw [List.getElem?_set]
    by_cases hij : i = j
    · subst hij
      rw [hr] at hr'
      cases hr'
      obtain ⟨hlt, -⟩ := List.getElem?_eq_some_iff.1 hd
      rw [if_pos rfl, if_pos hlt]
      exact ⟨s.1, rfl, hs⟩
    · rw [if_neg hij]
      exact ⟨d, hd, hbecame⟩
  route := h.route

-- ================================================================= answers

/-- Whoever was put at the address answers, for reads and for writes. -/
theorem answers (h : Routed added m) {i : Nat} {r : Registration δ}
    (hr : (registered added)[i]? = some r) {a : Word}
    (ha : a ∈ r.addresses) :
    ∃ d, m.devices.devices[i]? = some d ∧ r.Became κ d
      ∧ (Machine.read a).run m
          = mapState (m.placed i) ((Peripheral.read a).run (d, m.toBoard))
      ∧ ∀ w, (Machine.write a w).run m
          = mapState (m.placed i)
              ((Peripheral.write a w).run (d, m.toBoard)) := by
  obtain ⟨d, hd, hbecame⟩ := h.became hr
  have hroute := (h.route a i).2 ⟨r, hr, ha⟩
  refine ⟨d, hd, hbecame, ?_, fun w => ?_⟩
  · rw [run_read, hroute]
    exact run_onDevice_placed hd _
  · rw [run_write, hroute]
    exact run_onDevice_placed hd _

/-- An address in no list leads nowhere. -/
theorem route_of_not_mapped (h : Routed added m) {a : Word}
    (ha : ¬ Mapped added a) : m.devices.route a = none :=
  Decidable.not_not.1 fun htaken => ha ((h.taken_iff a).1 htaken)

/-- An address that nobody was put at is a cell. -/
theorem plain (h : Routed added m) {a : Word} (ha : ¬ Mapped added a) :
    (Machine.read a).run m = .ok (m.core.peek a) m
      ∧ ∀ w, (Machine.write a w).run m
          = .ok () { m with toBoard := m.toBoard.poke a w } := by
  have hroute := h.route_of_not_mapped ha
  refine ⟨?_, fun w => ?_⟩
  · rw [run_read, hroute]
  · rw [run_write, hroute]
    rfl

/-- A read may change the device that answers it, which stays the device of
its list. -/
theorem read (h : Routed added m) (a : Word) :
    Routed added (Console.after ((Machine.read a).run m)) := by
  by_cases ha : Mapped added a
  · obtain ⟨r, hmem, hlist⟩ := ha
    obtain ⟨i, hr⟩ := List.getElem?_of_mem hmem
    obtain ⟨d, -, hbecame, hread, -⟩ := h.answers hr hlist
    rw [hread, after_mapState]
    exact h.placed hr (hbecame.read hlist m.toBoard)
  · rw [(h.plain ha).1]
    exact h

/-- So does a write. -/
theorem write (h : Routed added m) (a w : Word) :
    Routed added (Console.after ((Machine.write a w).run m)) := by
  by_cases ha : Mapped added a
  · obtain ⟨r, hmem, hlist⟩ := ha
    obtain ⟨i, hr⟩ := List.getElem?_of_mem hmem
    obtain ⟨d, -, hbecame, -, hwrite⟩ := h.answers hr hlist
    rw [hwrite w, after_mapState]
    exact h.placed hr (hbecame.write hlist w m.toBoard)
  · rw [(h.plain ha).2 w]
    exact h.of_devices rfl

omit [Console κ] [Peripheral δ] in
/-- A registration of the longer list is one of the shorter or the last. -/
theorem getElem?_registered_concat (r : Registration δ) (i : Nat)
    (r' : Registration δ) :
    (registered (added ++ [r]))[i]? = some r'
      ↔ (registered added)[i]? = some r'
        ∨ i = (registered added).length ∧ r' = r := by
  have hlist : registered (added ++ [r]) = registered added ++ [r] := rfl
  rw [hlist, List.getElem?_append]
  by_cases hi : i < (registered added).length
  · rw [if_pos hi]
    exact ⟨.inl, fun h => h.resolve_right fun h' => absurd hi (by omega)⟩
  · rw [if_neg hi, List.getElem?_eq_none (Nat.not_lt.1 hi),
      List.getElem?_singleton]
    by_cases hlast : i = (registered added).length
    · simp [hlast, eq_comm]
    · have hbeyond : i - (registered added).length ≠ 0 := by omega
      simp [hlast, hbeyond]

/-- What is put on the bus comes last and takes nobody's place. -/
theorem attach (h : Routed added m) {d : Device δ}
    {addrs : Option (List Word)}
    (hattach : (Machine.attach d addrs).run m = .ok () m') :
    Routed (added ++ [⟨d, addrs.getD (Peripheral.addresses d)⟩]) m' := by
  rw [run_attach] at hattach
  generalize addrs.getD (Peripheral.addresses d) = list at *
  cases htable : m.devices.attach d list with
  | error f =>
      rw [htable] at hattach
      cases hattach
  | ok t =>
  rw [htable] at hattach
  cases hattach
  obtain ⟨hfree, hdevices, hroute⟩ := DeviceTable.attach_ok htable
  constructor
  case count =>
    show t.devices.length = (registered added ++ [_]).length
    rw [hdevices, List.length_append, List.length_append, h.count]
    rfl
  case became =>
    intro i r hr
    show ∃ d', t.devices[i]? = some d' ∧ _
    rw [hdevices]
    rcases (getElem?_registered_concat _ i r).1 hr with hold | ⟨rfl, rfl⟩
    · obtain ⟨d', hd', hbecame⟩ := h.became hold
      obtain ⟨hlt, -⟩ := List.getElem?_eq_some_iff.1 hd'
      rw [List.getElem?_append_left hlt]
      exact ⟨d', hd', hbecame⟩
    · rw [← h.count, List.getElem?_concat_length]
      exact ⟨d, rfl, .first⟩
  case route =>
    intro a i
    show t.route a = some i ↔ _
    simp only [getElem?_registered_concat, or_and_right, exists_or]
    rw [hroute, ← h.route a i]
    by_cases ha : a ∈ list
    · -- nobody had the address before
      have hfree : ¬ m.devices.Taken a :=
        DeviceTable.not_taken_of_mem hfree ha
      rw [if_pos ha, Decidable.not_not.1 hfree, h.count]
      constructor
      · intro hi
        exact .inr ⟨⟨d, list⟩, ⟨(Option.some.inj hi).symm, rfl⟩, ha⟩
      · rintro (hold | ⟨r, ⟨rfl, -⟩, -⟩)
        · cases hold
        · rfl
    · rw [if_neg ha]
      constructor
      · exact .inl
      · rintro (hold | ⟨r, ⟨-, rfl⟩, hmem⟩)
        · exact hold
        · exact absurd hmem ha

end Routed

/-- Whatever has happened to a machine, its bus is that of its
registrations. -/
theorem Furnished.routed {added : List (Registration δ)}
    {m : Machine κ δ} (h : Furnished added m) : Routed added m := by
  induction h with
  | new console journal => exact .new console journal
  | act a _ ih => exact ih.of_devices (devices_apply a _)
  | read a _ ih => exact ih.read a
  | write a w _ ih => exact ih.write a w
  | call c _ ih => exact ih.of_devices (devices_call c _)
  | share f _ ih => exact ih.of_devices rfl
  | attach _ hattach ih => exact ih.attach hattach

end Machine

end Lc3
