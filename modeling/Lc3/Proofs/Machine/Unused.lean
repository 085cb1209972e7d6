/-
A device that nobody asks might as well not be there. Two machines differ
in one device that the second has besides: every address leads on it where
it leads on the first, or to that device. Under a meter one sees whether
the device has been asked. As long as it has not, both machines do the
same, call for call (`unused_device_unseen`).

The company of the two is kept by the metered machine, whose mark is that
the meter of the device no longer stands at zero.
-/
import Lc3.Proofs.Device.Metered
import Lc3.Proofs.Machine.Parting
import Lc3.Machine.Load

namespace Lc3.Machine

open EStateM (Result)

variable {κ δ α : Type} {k : Nat} {d : Device δ} {m m' : Machine κ δ}

-- ============================================================== one besides

/-- The second machine has one device besides, with number `k` and in
state `d`. It stands at addresses only that were free. -/
structure Besides (k : Nat) (d : Device δ) (m m' : Machine κ δ) :
    Prop where
  board : m'.toBoard = m.toBoard
  running : m'.running = m.running
  number : m.devices.devices.length = k
  devices : m'.devices.devices = m.devices.devices ++ [d]
  route (a : Word) : m'.devices.route a = m.devices.route a
    ∨ m.devices.route a = none ∧ m'.devices.route a = some k

/-- A device that was put on the bus is besides what was there: it is the
last, and it has taken no address from the others. -/
theorem besides_of_attach [Peripheral δ] {addrs : Option (List Word)}
    (h : (attach d addrs).run m = .ok () m') :
    Besides m.devices.devices.length d m m' := by
  rw [run_attach] at h
  cases htable : m.devices.attach d (addrs.getD (Peripheral.addresses d))
    with
  | error f =>
      rw [htable] at h
      cases h
  | ok t =>
      rw [htable] at h
      cases h
      obtain ⟨hfree, hdevices, hroute⟩ := DeviceTable.attach_ok htable
      refine ⟨rfl, rfl, rfl, hdevices, fun a => ?_⟩
      show t.route a = m.devices.route a
        ∨ m.devices.route a = none ∧ t.route a = some _
      rw [hroute a]
      by_cases ha : a ∈ addrs.getD (Peripheral.addresses d)
      · have hnone := DeviceTable.not_taken_of_mem hfree ha
        rw [if_pos ha]
        exact .inr ⟨Decidable.not_not.1 hnone, rfl⟩
      · rw [if_neg ha]
        exact .inl rfl

namespace Besides

/-- An address leads where it did, unless it leads to the device. -/
theorem route_eq (h : Besides k d m m') {a : Word}
    (ha : m'.devices.route a ≠ some k) :
    m'.devices.route a = m.devices.route a :=
  (h.route a).resolve_right fun hk => ha hk.2

theorem withBoard (h : Besides k d m m') {b b' : Board κ} (hb : b' = b) :
    Besides k d { m with toBoard := b } { m' with toBoard := b' } :=
  ⟨hb, h.running, h.number, h.devices, h.route⟩

/-- Another device may change its state, on both machines in the same way.
-/
theorem placed (h : Besides k d m m') {i : Nat}
    (hi : i < m.devices.devices.length) (s : Device δ × Board κ) :
    Besides k d (m.placed i s) (m'.placed i s) where
  board := rfl
  running := h.running
  number := by
    show (m.devices.devices.set i s.1).length = k
    rw [List.length_set]
    exact h.number
  devices := by
    show m'.devices.devices.set i s.1 = m.devices.devices.set i s.1 ++ [d]
    rw [h.devices, List.set_append_left i s.1 hi]
  route := h.route

/-- Any other device does as it did, and one that is missing is missing on
both. -/
theorem agree_onDevice (h : Besides k d m m') {i : Nat} (hi : i ≠ k)
    (act : DeviceExec κ (Device δ) α) :
    Agree (Besides k d) ((onDevice i act).run m)
      ((onDevice i act).run m') := by
  have hnumber := h.number
  cases hdevice : m.devices.devices[i]? with
  | none =>
      have hbeyond := List.getElem?_eq_none_iff.1 hdevice
      have hdevice' : m'.devices.devices[i]? = none := by
        rw [h.devices, List.getElem?_eq_none_iff, List.length_append,
          List.length_singleton]
        omega
      rw [run_onDevice_missing hdevice, run_onDevice_missing hdevice']
      exact .error (Failure.deviceMissing i) h
  | some e =>
      obtain ⟨hlt, -⟩ := List.getElem?_eq_some_iff.1 hdevice
      have hdevice' : m'.devices.devices[i]? = some e := by
        rw [h.devices, List.getElem?_append_left hlt]
        exact hdevice
      rw [run_onDevice_placed hdevice, run_onDevice_placed hdevice',
        h.board]
      cases act.run (e, m.toBoard) with
      | ok x s => exact .ok x (h.placed hlt s)
      | error f s => exact .error f (h.placed hlt s)

variable [Console κ] [Peripheral δ]

/-- A read that does not lead to the device is answered alike on both. -/
theorem agree_read (h : Besides k d m m') {a : Word}
    (ha : m'.devices.route a ≠ some k) :
    Agree (Besides k d) ((read a).run m) ((read a).run m') := by
  have hroute := h.route_eq ha
  rw [hroute] at ha
  rw [run_read, run_read, hroute]
  cases hi : m.devices.route a with
  | none =>
      have hcell : m'.core.peek a = m.core.peek a :=
        congrArg (fun b : Board κ => b.core.peek a) h.board
      dsimp only
      rw [hcell]
      exact .ok (m.core.peek a) h
  | some i =>
      rw [hi] at ha
      exact h.agree_onDevice (fun heq => ha (congrArg some heq)) _

/-- So is a write. -/
theorem agree_write (h : Besides k d m m') {a : Word}
    (ha : m'.devices.route a ≠ some k) (w : Word) :
    Agree (Besides k d) ((write a w).run m) ((write a w).run m') := by
  have hroute := h.route_eq ha
  rw [hroute] at ha
  rw [run_write, run_write, hroute]
  cases hi : m.devices.route a with
  | none =>
      exact .ok () (h.withBoard (congrArg (Board.poke a w) h.board))
  | some i =>
      rw [hi] at ha
      exact h.agree_onDevice (fun heq => ha (congrArg some heq)) _

omit [Peripheral δ] in
/-- A call has nothing to do with devices. -/
theorem agree_call (h : Besides k d m m') (c : Console.Call) :
    Agree (Besides k d) ((call c).run m) ((call c).run m') := by
  have hconsole : m'.console = m.console := congrArg Board.console h.board
  have hboard (console : κ) : ({ m'.toBoard with console } : Board κ)
      = { m.toBoard with console } := by
    rw [h.board]
  rw [run_call, run_call, hconsole]
  cases (Console.call c).run m.console with
  | ok x console => exact .ok x (h.withBoard (hboard console))
  | error e console => exact .error _ (h.withBoard (hboard console))

omit [Console κ] [Peripheral δ] in
/-- Nor has an act. -/
theorem apply (h : Besides k d m m') (a : Act) :
    Besides k d (a.apply m) (a.apply m') := by
  cases a with
  | stop => exact ⟨h.board, rfl, h.number, h.devices, h.route⟩
  | note r => exact h.withBoard (congrArg (Board.note r) h.board)
  | setPc w => exact h.withBoard (congrArg (Board.setPc w) h.board)
  | setReg r w => exact h.withBoard (congrArg (Board.setReg r w) h.board)
  | setCond c => exact h.withBoard (congrArg (Board.setCond c) h.board)
  | countInstr => exact h.withBoard (congrArg Board.countInstr h.board)
  | poke a w => exact h.withBoard (congrArg (Board.poke a w) h.board)

omit [Peripheral δ] [Console κ] in
/-- Nothing of a device is to be seen without asking the bus. -/
theorem sight_eq (h : Besides k d m m') : m'.sight = m.sight := by
  unfold sight
  rw [h.board, h.running]

end Besides

-- =============================================================== under use

/-- The meter of device `k` does not stand at zero. -/
def Used (k : Nat) (n : Machine κ (Metered δ)) : Prop := usesOf k n ≠ 0

section Use

variable {n : Machine κ (Metered δ)} (act : DeviceExec κ (Device δ) α)
  {act' : DeviceExec κ (Device (Metered δ)) α}
  (hact : ∀ d b, act'.run (.other d, b)
    = Device.withOther d b (Metered.use act))
include hact

/-- A device that was asked has a meter that tells so. -/
theorem used_onDevice {e : Metered δ}
    (hdevice : n.devices.devices[k]? = some (.other e)) :
    Used k (Console.after ((onDevice k act').run n)) := by
  obtain ⟨hlt, -⟩ := List.getElem?_eq_some_iff.1 hdevice
  have hstate (s : Device δ × Board κ) :
      usesOf k (n.placed k (.other ⟨s.1, e.uses + 1⟩, s.2))
        = e.uses + 1 := by
    unfold usesOf placed DeviceTable.put
    rw [List.getElem?_set_self hlt]
  rw [run_onDevice_placed hdevice, after_mapState, hact,
    Metered.withOther_use, after_mapState]
  unfold Used
  rw [hstate]
  exact Nat.succ_ne_zero _

/-- No use of any device is forgotten. -/
theorem keeps_used_onDevice (i : Nat) :
    Conserves (fun n n' => Used k n → Used k n') (onDevice i act') := by
  intro n hused
  cases hdevice : n.devices.devices[i]? with
  | none =>
      rw [run_onDevice_missing hdevice]
      exact hused
  | some e =>
      by_cases hik : i = k
      · subst hik
        cases e with
        | keyboard =>
            unfold Used usesOf at hused
            rw [hdevice] at hused
            exact absurd rfl hused
        | other e => exact used_onDevice act hact hdevice
      · rw [run_onDevice_placed hdevice, after_mapState]
        unfold Used usesOf placed DeviceTable.put
        rw [List.getElem?_set_ne hik]
        exact hused

end Use

variable [Console κ] [Peripheral δ]

/-- No meter is ever put back, whatever the machine does. -/
theorem keeps_used_read (a : Word) :
    Conserves (fun n n' => Used k n → Used k n')
      (read a : Exec κ (Metered δ) Word) := by
  intro n hused
  rw [run_read]
  cases n.devices.route a with
  | none => exact hused
  | some i =>
      exact keeps_used_onDevice (Peripheral.read a) (fun _ _ => rfl) i n
        hused

theorem keeps_used_write (a w : Word) :
    Conserves (fun n n' => Used k n → Used k n')
      (write a w : Exec κ (Metered δ) Unit) := by
  intro n hused
  rw [run_write]
  cases n.devices.route a with
  | none => exact hused
  | some i =>
      exact keeps_used_onDevice (Peripheral.write a w) (fun _ _ => rfl) i
        n hused

omit [Console κ] [Peripheral δ] in
theorem Used.apply {n : Machine κ (Metered δ)} (h : Used k n) (a : Act) :
    Used k (a.apply n) := by
  cases a <;> exact h

omit [Peripheral δ] in
theorem keeps_used_call (c : Console.Call) :
    Conserves (fun n n' => Used k n → Used k n')
      (call c : Exec κ (Metered δ) c.Answer) := by
  intro n hused
  rw [run_call]
  cases (Console.call c).run n.console <;> exact hused

/-- A step is made of such acts and accesses. -/
theorem keeps_used_step :
    Conserves (fun n n' => Used k n → Used k n')
      (step : Exec κ (Metered δ) Status) := by
  have hself : Twin (step : Exec κ (Metered δ) Status)
      (step : Exec κ (Metered δ) Status) := twin_step
  exact hself.conserves Company.sequential_mark (fun a _ h => h.apply a)
    keeps_used_read keeps_used_write fun c _ => keeps_used_call c

-- ================================================================= company

/-- The second machine is the first without the device, and without
meters. -/
def Without (k : Nat) (d : Device δ) (n : Machine κ (Metered δ))
    (m : Machine κ δ) : Prop :=
  ∃ m' uses, n = m'.metered uses ∧ Besides k d m m'

omit [Console κ] [Peripheral δ] in
/-- What agrees without meters agrees with them. -/
theorem without_of_agree {r r' : Result Failure (Machine κ δ) α}
    (h : Agree (Besides k d) r r') (uses : Nat → Nat) :
    Agree (Without k d) (mapState (metered uses) r') r := by
  cases h with
  | ok x h => exact .ok x ⟨_, uses, rfl, h⟩
  | error f h => exact .error f ⟨_, uses, rfl, h⟩

omit [Console κ] [Peripheral δ] in
/-- Under its meter the device is the last, as it is without. -/
theorem Besides.device_metered (h : Besides k d m m') (uses : Nat → Nat) :
    (m'.metered uses).devices.devices[k]? = some (.other ⟨d, uses k⟩) := by
  refine (DeviceTable.getElem?_metered uses m'.devices k).trans ?_
  rw [h.devices, ← h.number, List.getElem?_concat_length]
  rfl

/-- Without the device, all is as it is with it, until it is used. -/
theorem company_without :
    Company (Used k) (fun _ => Used k)
      (Without k d : Machine κ (Metered δ) → Machine κ δ → Prop) where
  sight h := by
    obtain ⟨m', uses, rfl, h⟩ := h
    exact h.sight_eq
  apply a h := by
    obtain ⟨m', uses, rfl, h⟩ := h
    refine ⟨a.apply m', uses, ?_, h.apply a⟩
    cases a <;> rfl
  read {n m} a h := by
    obtain ⟨m', uses, rfl, h⟩ := h
    by_cases ha : m'.devices.route a = some k
    · -- this is the device's address, and its meter shows it
      have hroute : (m'.metered uses).devices.route a = some k := ha
      rw [run_read, hroute]
      exact .inl (.of_after (used_onDevice (Peripheral.read a)
        (fun _ _ => rfl) (h.device_metered uses)))
    · rw [run_read_metered]
      exact .inr (without_of_agree (h.agree_read ha) _)
  write {n m} a w h := by
    obtain ⟨m', uses, rfl, h⟩ := h
    by_cases ha : m'.devices.route a = some k
    · have hroute : (m'.metered uses).devices.route a = some k := ha
      rw [run_write, hroute]
      exact .inl (.of_after (used_onDevice (Peripheral.write a w)
        (fun _ _ => rfl) (h.device_metered uses)))
    · rw [run_write_metered]
      exact .inr (without_of_agree (h.agree_write ha w) _)
  call {n m} c _ h := by
    obtain ⟨m', uses, rfl, h⟩ := h
    rw [refit_metered.run_call]
    exact .inr (without_of_agree (h.agree_call c) uses)
  limit {n m} h := by
    obtain ⟨m', uses, rfl, h⟩ := h
    have hconsole : m'.console = m.console := congrArg Board.console h.board
    refine .inl ?_
    show 65536 * (Console.pending m'.console + 1) = _
    rw [hconsole]
    rfl
  failed _ hused := hused
  appliedMark a h := h.apply a
  readMark := keeps_used_read
  writeMark := keeps_used_write
  calledMark c _ := keeps_used_call c

/-- A step in the course of which the device was not asked comes to the same
without it. -/
theorem agree_step_without {n : Machine κ (Metered δ)}
    (h : Without k d n m) (hused : ¬ Used k (Console.after (step.run n))) :
    Agree (Without k d) (step.run n) (step.run m) :=
  (twin_step.unless company_without h).resolve_left
    fun hparted => hused hparted.after

omit [Console κ] [Peripheral δ] in
/-- A machine is known by its metered self. -/
theorem metered_inj {uses uses' : Nat → Nat}
    (h : m.metered uses = m'.metered uses') : m = m' := by
  have hboard : m.toBoard = m'.toBoard :=
    congrArg (fun n : Machine κ (Metered δ) => n.toBoard) h
  have hrunning : m.running = m'.running :=
    congrArg (fun n : Machine κ (Metered δ) => n.running) h
  have hroutes : m.devices.routes = m'.devices.routes :=
    congrArg (fun n : Machine κ (Metered δ) => n.devices.routes) h
  have hdevices : m.devices.devices = m'.devices.devices := by
    refine List.ext_getElem? fun i => ?_
    have hi := congrArg
      (fun n : Machine κ (Metered δ) => n.devices.devices[i]?) h
    change (m.devices.metered uses).devices[i]?
      = (m'.devices.metered uses').devices[i]? at hi
    rw [DeviceTable.getElem?_metered, DeviceTable.getElem?_metered] at hi
    cases hm : m.devices.devices[i]? <;>
      cases hm' : m'.devices.devices[i]? <;> simp_all
  obtain ⟨board, ⟨devices, routes⟩, running⟩ := m
  obtain ⟨board', ⟨devices', routes'⟩, running'⟩ := m'
  cases hboard
  cases hrunning
  cases hroutes
  cases hdevices
  rfl

-- ============================================================= many steps

/-- In the course of so many steps, device `k` is not asked for any
access. -/
def Unused (k : Nat) (m : Machine κ δ) (n : Nat) : Prop :=
  usesOf k ((m.metered fun _ => 0).stepped n) = 0

instance (k : Nat) (m : Machine κ δ) (n : Nat) : Decidable (Unused k m n) :=
  inferInstanceAs (Decidable (_ = _))

/-- A device that is not asked in so many steps is not asked in fewer. -/
theorem Unused.of_le {i n : Nat} (h : Unused k m n) (hi : i ≤ n) :
    Unused k m i := by
  induction hi with
  | refl => exact h
  | step _ ih =>
      refine ih (Decidable.not_not.1 fun hused => ?_)
      exact keeps_used_step _ hused h

omit [Console κ] [Peripheral δ] in
/-- Machines that agree with meters agree without them, since a meter hides
nothing of what it counts. -/
theorem besides_of_without {r r' : Result Failure (Machine κ δ) α}
    {r'' : Result Failure (Machine κ (Metered δ)) α}
    (hmeters : Agree Meters r' r'') (h : Agree (Without k d) r'' r) :
    Agree (Besides k d) r r' := by
  have hstate {n : Machine κ (Metered δ)} {o o' : Machine κ δ}
      (hn : Meters o' n) (h : Without k d n o) : Besides k d o o' := by
    obtain ⟨uses, rfl⟩ := hn
    obtain ⟨_, _, heq, hbesides⟩ := h
    cases metered_inj heq
    exact hbesides
  cases hmeters with
  | ok x hn =>
      obtain ⟨o, rfl, ho⟩ := h.of_ok rfl
      exact .ok x (hstate hn ho)
  | error f hn =>
      obtain ⟨o, rfl, ho⟩ := h.of_error rfl
      exact .error f (hstate hn ho)

/-- A step in which the device is not asked is the same without it. -/
theorem agree_step_besides {i : Nat}
    (h : Besides k d (m.stepped i) (m'.stepped i))
    (hunused : Unused k m' (i + 1)) :
    Agree (Besides k d) (step.run (m.stepped i))
      (step.run (m'.stepped i)) := by
  obtain ⟨uses, hmeters⟩ := stepped_metered (fun _ => 0) m' i
  have hwithout : Without k d ((m'.metered fun _ => 0).stepped i)
      (m.stepped i) := ⟨m'.stepped i, uses, hmeters, h⟩
  have hunmarked : ¬ Used k
      (Console.after (step.run ((m'.metered fun _ => 0).stepped i))) :=
    fun hused => hused hunused
  exact besides_of_without (run_step_metered ⟨uses, hmeters⟩)
    (agree_step_without hwithout hunmarked)

/-- Step after step, what differs is the device and nothing else, until it
is asked. -/
theorem besides_stepped (h : Besides k d m m') {n : Nat}
    (hunused : Unused k m' n) :
    Besides k d (m.stepped n) (m'.stepped n) := by
  induction n with
  | zero => exact h
  | succ n ih =>
      have hbefore := ih (hunused.of_le n.le_succ)
      exact (agree_step_besides hbefore hunused).after

-- ========================================================== not to be seen

/-- The machine `m` and the machine `m'` with one more device in state `d`,
over any number of steps in which that device is not asked. -/
structure Unseen (d : Device δ) (m m' : Machine κ δ) : Prop where
  /-- Every step has the same outcome, and leaves the device as it was and
  the rest as it leaves it without the device. -/
  steps {n : Nat} (h : Unused m.devices.devices.length m' n) {i : Nat}
    (hi : i < n) :
    Agree (Besides m.devices.devices.length d) (step.run (m.stepped i))
      (step.run (m'.stepped i))
  /-- And every call that the one makes of its console is made by the
  other. -/
  calls {n : Nat} (h : Unused m.devices.devices.length m'.tapped n)
    {i : Nat} (hi : i ≤ n) :
    (m'.tapped.stepped i).console.calls
      = (m.tapped.stepped i).console.calls

/-- A device that was put on the bus, at whatever addresses were free,
changes nothing for as long as it is not asked. -/
theorem unused_device_unseen {addrs : Option (List Word)}
    (hattach : (attach d addrs).run m = .ok () m') : Unseen d m m' := by
  have hbesides := besides_of_attach hattach
  constructor
  case steps =>
    intro n hunused i hi
    have hbefore :=
      besides_stepped hbesides (hunused.of_le (Nat.le_of_lt hi))
    exact agree_step_besides hbefore (hunused.of_le hi)
  case calls =>
    intro n hunused i hi
    have htapped : Besides m.devices.devices.length d m.tapped m'.tapped :=
      ⟨congrArg (fun b : Board κ =>
          ({ b with console := { inner := b.console } } : Board (Tap κ)))
          hbesides.board,
        hbesides.running, rfl, hbesides.devices, hbesides.route⟩
    have hstepped := besides_stepped htapped (hunused.of_le hi)
    exact congrArg (fun b : Board (Tap κ) => b.console.calls)
      hstepped.board

/-- A machine that takes a key, puts it out and halts. -/
def echoing : Machine Buffered Empty :=
  (new { input := [0x41] }).load ⟨Core.entry, [0xf020, 0xf021, 0xf025]⟩

/-- The same with a second keyboard. -/
def overequipped : Machine Buffered Empty :=
  { echoing with
    devices :=
      { devices := [.keyboard, .keyboard]
        routes := [(0xfe10, 1), (Keyboard.status, 0)] } }

/-- The spare keyboard has addresses of its own and is not asked, so nobody
can tell that it is there. -/
theorem unused_device_unseen_overequipped :
    (attach .keyboard (some [0xfe10])).run echoing = .ok () overequipped
      ∧ Unused 1 overequipped 3 ∧ Unused 1 overequipped.tapped 3
      ∧ Agree (Besides 1 .keyboard) (step.run (echoing.stepped 2))
        (step.run (overequipped.stepped 2))
      ∧ (overequipped.tapped.stepped 3).console.calls
        = (echoing.tapped.stepped 3).console.calls
      ∧ (echoing.tapped.stepped 3).console.calls
        = #[.read, .write 0x41, .flush, .flush] := by
  have hattach : (attach .keyboard (some [0xfe10])).run echoing
      = .ok () overequipped := by
    rw [run_attach]
    rfl
  have hunused : Unused 1 overequipped 3 := by decide +kernel
  have htapped : Unused 1 overequipped.tapped 3 := by decide +kernel
  have h := unused_device_unseen hattach
  refine ⟨hattach, hunused, htapped, h.steps hunused (by decide),
    h.calls htapped (Nat.le_refl 3), ?_⟩
  decide +kernel

end Lc3.Machine
