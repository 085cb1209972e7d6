/-
Putting a device on the bus. It is a matter of the table alone. The
addresses are taken one after the other, and each must still be free: of
older devices, and of the new one itself. A list is refused just in case
it clashes, and the refusal names the first address that does
(`attach_error`). A list that does not clash leads to the new device
afterwards, and every other address leads where it did (`attach_ok`).
-/
import Lc3.Proofs.Outcome

namespace Lc3

-- ================================================================= clashes

/-- An address of the list is taken already, or comes a second time. -/
def Clashes (taken : Word → Prop) (addrs : List Word) : Prop :=
  ∃ before a after, addrs = before ++ a :: after ∧ (taken a ∨ a ∈ before)

/-- This is the first address of the list that clashes. -/
def FirstClash (taken : Word → Prop) (addrs : List Word) (a : Word) :
    Prop :=
  ∃ before after, addrs = before ++ a :: after ∧ (taken a ∨ a ∈ before)
    ∧ ¬ Clashes taken before

theorem FirstClash.clashes {taken : Word → Prop} {addrs : List Word}
    {a : Word} (h : FirstClash taken addrs a) : Clashes taken addrs := by
  obtain ⟨before, after, haddrs, ha, -⟩ := h
  exact ⟨before, a, after, haddrs, ha⟩

theorem not_clashes_nil (taken : Word → Prop) : ¬ Clashes taken [] := by
  rintro ⟨before, a, after, h, -⟩
  simp at h

/-- To the rest of a list, its first address is one more that is taken. -/
theorem clashes_cons (taken : Word → Prop) (c : Word)
    (addrs : List Word) :
    Clashes taken (c :: addrs)
      ↔ taken c ∨ Clashes (fun a => taken a ∨ a = c) addrs := by
  constructor
  · rintro ⟨before, a, after, haddrs, ha⟩
    cases before with
    | nil =>
        cases haddrs
        exact .inl (ha.resolve_right (by simp))
    | cons b before =>
        cases haddrs
        rw [List.mem_cons, ← or_assoc] at ha
        exact .inr ⟨before, a, after, rfl, ha⟩
  · rintro (hc | ⟨before, a, after, rfl, ha⟩)
    · exact ⟨[], c, addrs, rfl, .inl hc⟩
    · refine ⟨c :: before, a, after, rfl, ?_⟩
      rw [List.mem_cons, ← or_assoc]
      exact ha

/-- An address in front that is free leaves the first clash where it is. -/
theorem FirstClash.cons {taken : Word → Prop} {c : Word}
    {addrs : List Word} {a : Word} (hc : ¬ taken c)
    (h : FirstClash (fun a => taken a ∨ a = c) addrs a) :
    FirstClash taken (c :: addrs) a := by
  obtain ⟨before, after, rfl, ha, hbefore⟩ := h
  refine ⟨c :: before, after, rfl, ?_, ?_⟩
  · rw [List.mem_cons, ← or_assoc]
    exact ha
  · rw [clashes_cons]
    exact not_or.2 ⟨hc, hbefore⟩

namespace DeviceTable

variable {δ : Type}

/-- The address leads to a device. -/
def Taken (t : DeviceTable δ) (a : Word) : Prop := t.route a ≠ none

-- ================================================================ claiming

/-- An address that leads to a device stays that device's, and is named. -/
theorem claim_of_taken {t : DeviceTable δ} {a : Word} (h : t.Taken a)
    (i : Nat) : claim i t a = .error (.addressTaken a) := by
  unfold claim
  cases hroute : t.route a with
  | none => exact absurd hroute h
  | some j => rfl

/-- A free address is put in front of the others, all of which lead where
they did. -/
theorem claim_of_free {t : DeviceTable δ} {a : Word} (h : ¬ t.Taken a)
    (i : Nat) :
    claim i t a = .ok { t with routes := (a, i) :: t.routes } := by
  unfold claim
  rw [Decidable.not_not.1 h]

/-- The newest entry for an address is the one that is followed. -/
theorem route_cons (t : DeviceTable δ) (a c : Word) (i : Nat) :
    ({ t with routes := (c, i) :: t.routes } : DeviceTable δ).route a
      = if a = c then some i else t.route a := by
  unfold route
  rw [List.lookup_cons]
  by_cases h : a = c
  · simp [h]
  · rw [if_neg h, beq_eq_false_iff_ne.2 h]

/-- What comes of claiming a list of addresses: all of them, or the first
clash. -/
theorem foldlM_claim (i : Nat) (addrs : List Word) (t : DeviceTable δ) :
    (¬ Clashes t.Taken addrs ∧ ∃ t', addrs.foldlM (claim i) t = .ok t'
        ∧ t'.devices = t.devices
        ∧ ∀ a, t'.route a = if a ∈ addrs then some i else t.route a)
      ∨ ∃ a, FirstClash t.Taken addrs a
        ∧ addrs.foldlM (claim i) t = .error (.addressTaken a) := by
  induction addrs generalizing t with
  | nil =>
      refine .inl ⟨not_clashes_nil _, t, rfl, rfl, fun a => ?_⟩
      rw [if_neg List.not_mem_nil]
  | cons c addrs ih =>
      rw [List.foldlM_cons]
      by_cases hc : t.Taken c
      · -- somebody has `c`, and the rest is never looked at
        right
        rw [claim_of_taken hc]
        exact ⟨c, ⟨[], addrs, rfl, .inl hc, not_clashes_nil _⟩, rfl⟩
      · -- if the rest clashes with `c` now, it is in the list twice
        let t₁ : DeviceTable δ := { t with routes := (c, i) :: t.routes }
        have hroute (a : Word) :
            t₁.route a = if a = c then some i else t.route a :=
          route_cons t a c i
        have htaken : t₁.Taken = fun a => t.Taken a ∨ a = c := by
          funext a
          by_cases ha : a = c <;> simp [Taken, hroute, ha]
        rw [claim_of_free hc]
        rcases ih t₁ with ⟨hfree, t', hok, hdevices, hroute'⟩ | ⟨a, ha, herr⟩
        · left
          rw [htaken] at hfree
          refine ⟨?_, t', hok, hdevices, fun a => ?_⟩
          · rw [clashes_cons]
            exact not_or.2 ⟨hc, hfree⟩
          · rw [hroute', hroute]
            by_cases hac : a = c <;> by_cases hmem : a ∈ addrs <;>
              simp [hac, hmem]
        · right
          rw [htaken] at ha
          exact ⟨a, ha.cons hc, herr⟩

-- =============================================================== attaching

variable {t t' : DeviceTable δ} {d : Device δ} {addrs : List Word}

/-- A list is claimed as a whole, for a device behind all others, or it
clashes. -/
theorem attach_cases (t : DeviceTable δ) (d : Device δ)
    (addrs : List Word) :
    (¬ Clashes t.Taken addrs ∧ ∃ t', t.attach d addrs = .ok t'
        ∧ t'.devices = t.devices ++ [d]
        ∧ ∀ a, t'.route a
            = if a ∈ addrs then some t.devices.length else t.route a)
      ∨ ∃ a, FirstClash t.Taken addrs a
        ∧ t.attach d addrs = .error (.addressTaken a) :=
  foldlM_claim t.devices.length addrs { t with devices := t.devices ++ [d] }

/-- A device that was put on the bus is the last one, and it is found at
the addresses of its list, none of which was taken before. -/
theorem attach_ok (h : t.attach d addrs = .ok t') :
    ¬ Clashes t.Taken addrs ∧ t'.devices = t.devices ++ [d]
      ∧ ∀ a, t'.route a
          = if a ∈ addrs then some t.devices.length else t.route a := by
  rcases attach_cases t d addrs with ⟨hfree, _, hok, hrest⟩ | ⟨a, -, herr⟩
  · rw [hok] at h
    cases h
    exact ⟨hfree, hrest⟩
  · rw [herr] at h
    cases h

/-- A refusal names an address, and it is the first that clashes. -/
theorem attach_error {f : Failure} (h : t.attach d addrs = .error f) :
    ∃ a, FirstClash t.Taken addrs a ∧ f = .addressTaken a := by
  rcases attach_cases t d addrs with ⟨-, _, hok, -⟩ | ⟨a, ha, herr⟩
  · rw [hok] at h
    cases h
  · rw [herr] at h
    cases h
    exact ⟨a, ha, rfl⟩

/-- Nothing in a list that does not clash was taken. -/
theorem not_taken_of_mem {taken : Word → Prop} {a : Word}
    (h : ¬ Clashes taken addrs) (ha : a ∈ addrs) : ¬ taken a := by
  intro htaken
  obtain ⟨before, after, haddrs⟩ := List.append_of_mem ha
  exact h ⟨before, a, after, haddrs, .inl htaken⟩

end DeviceTable

-- ============================================================== the machine

namespace Machine

variable {κ δ α : Type}

/-- The machine after the device with number `i` has acted on its
board. -/
def placed (i : Nat) (m : Machine κ δ) (s : Device δ × Board κ) :
    Machine κ δ :=
  { m with toBoard := s.2, devices := m.devices.put i s.1 }

/-- Where there is a device, what it does to itself and to the board is done
to the machine. -/
theorem run_onDevice_placed {i : Nat} {d : Device δ} {m : Machine κ δ}
    (h : m.devices.devices[i]? = some d)
    (act : DeviceExec κ (Device δ) α) :
    (onDevice i act).run m
      = mapState (m.placed i) (act.run (d, m.toBoard)) := by
  rw [run_onDevice act h]
  cases act.run (d, m.toBoard) <;> rfl

/-- A number that is no device's is a failure, and nobody has acted. -/
theorem run_onDevice_missing {i : Nat} {m : Machine κ δ}
    (h : m.devices.devices[i]? = none)
    (act : DeviceExec κ (Device δ) α) :
    (onDevice i act).run m = .error (.deviceMissing i) m := by
  obtain ⟨board, devices, running⟩ := m
  change devices.devices[i]? = none at h
  simp only [EStateM.run, onDevice, h]

/-- Attaching is a matter of the table, which takes a list as a whole or
refuses it. -/
theorem run_attach [Peripheral δ] (d : Device δ) (addrs : Option (List Word))
    (m : Machine κ δ) :
    (attach d addrs).run m =
      match m.devices.attach d (addrs.getD (Peripheral.addresses d)) with
      | .ok devices => .ok () { m with devices }
      | .error f => .error f m := by
  unfold attach
  rw [EStateM.run_bind, EStateM.run_get]
  dsimp only
  cases m.devices.attach d (addrs.getD (Peripheral.addresses d)) <;> rfl

end Machine

end Lc3
