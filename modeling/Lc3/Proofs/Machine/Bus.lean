/-
What a call of the console and an access to the bus leave behind, on a
machine with the keyboard as its only device.

Two relations between the machine before and after say it. `Untouched`
is what a console call keeps: everything but the console and the
journal. `Polled` is what a read keeps: it allows the two cells of the
keyboard to change as well, since a read that polls rewrites them. Both
are reflexive and transitive, so a loop of calls and reads keeps what
each of them keeps.

A failing access is rarer than the code suggests. A write never fails,
and a read fails only at the keyboard's status, and then leaves
everything but the console as it was (`meets_read`).
-/
import Lc3.Proofs.Outcome

namespace Lc3.Machine

variable {κ δ : Type}

-- ======================================================= before and after

/-- Nothing but the console and the journal differs. -/
structure Untouched (m m' : Machine κ δ) : Prop where
  core : m'.core = m.core
  devices : m'.devices = m.devices
  running : m'.running = m.running

/-- Nothing but the console, the journal and the keyboard's two cells
differs. -/
structure Polled (m m' : Machine κ δ) : Prop where
  mem : ∀ a, a ≠ Keyboard.status → a ≠ Keyboard.data →
    m'.core.peek a = m.core.peek a
  regs : m'.core.regs = m.core.regs
  pc : m'.core.pc = m.core.pc
  cond : m'.core.cond = m.core.cond
  executed : m'.core.executed = m.core.executed
  devices : m'.devices = m.devices
  running : m'.running = m.running

namespace Untouched

theorem refl (m : Machine κ δ) : Untouched m m := ⟨rfl, rfl, rfl⟩

/-- Calls in a row leave the core alone if each does. -/
theorem trans {m m₁ m₂ : Machine κ δ} (h : Untouched m m₁)
    (h' : Untouched m₁ m₂) : Untouched m m₂ where
  core := h'.core.trans h.core
  devices := h'.devices.trans h.devices
  running := h'.running.trans h.running

/-- What leaves the core alone leaves all but two of its cells alone. -/
theorem polled {m m' : Machine κ δ} (h : Untouched m m') :
    Polled m m' where
  mem _ _ _ := by rw [h.core]
  regs := by rw [h.core]
  pc := by rw [h.core]
  cond := by rw [h.core]
  executed := by rw [h.core]
  devices := h.devices
  running := h.running

end Untouched

namespace Polled

theorem refl (m : Machine κ δ) : Polled m m := (Untouched.refl m).polled

/-- Reads in a row change no more than the two cells, however often they
poll. -/
theorem trans {m m₁ m₂ : Machine κ δ} (h : Polled m m₁)
    (h' : Polled m₁ m₂) : Polled m m₂ where
  mem a hs hd := (h'.mem a hs hd).trans (h.mem a hs hd)
  regs := h'.regs.trans h.regs
  pc := h'.pc.trans h.pc
  cond := h'.cond.trans h.cond
  executed := h'.executed.trans h.executed
  devices := h'.devices.trans h.devices
  running := h'.running.trans h.running

end Polled

-- ================================================================= a poll

/-- The machine after a poll that brought a key. -/
def deliver (key : Byte) (console : κ) (m : Machine κ δ) :
    Machine κ δ :=
  { m with
    toBoard := ({ m.toBoard with console }.poke Keyboard.status
      Keyboard.ready).poke Keyboard.data (Word.ofByte key) }

/-- The machine after a poll that brought none. -/
def clearStatus (console : κ) (m : Machine κ δ) : Machine κ δ :=
  { m with
    toBoard := { m.toBoard with console }.poke Keyboard.status 0 }

/-- A key goes to the keyboard's two cells. -/
theorem polled_deliver (key : Byte) (console : κ) (m : Machine κ δ) :
    Polled m (m.deliver key console) where
  mem a hs hd := by
    show ((Board.poke ..).poke ..).core.peek a = _
    rw [Board.peek_poke, if_neg (Ne.symm hd), Board.peek_poke,
      if_neg (Ne.symm hs)]
  regs := rfl
  pc := rfl
  cond := rfl
  executed := rfl
  devices := rfl
  running := rfl

/-- Without one, the status is all that is written. -/
theorem polled_clearStatus (console : κ) (m : Machine κ δ) :
    Polled m (m.clearStatus console) where
  mem a hs _ := by
    show (Board.poke ..).core.peek a = _
    rw [Board.peek_poke, if_neg (Ne.symm hs)]
  regs := rfl
  pc := rfl
  cond := rfl
  executed := rfl
  devices := rfl
  running := rfl

-- ========================================================== console calls

/-- What the console does is all that happens, and what it raises is named
as coming from it. -/
theorem run_onConsole {α : Type} (act : EStateM IoError κ α)
    (m : Machine κ δ) :
    (onBoard (Board.onConsole act)).run m =
      match act.run m.console with
      | .ok x console => .ok x { m with console }
      | .error e console => .error (.console e) { m with console } := by
  rw [run_onBoard, Board.run_onConsole]
  cases act.run m.console <;> rfl

/-- A failure that comes from the console. -/
def FromConsole (f : Failure) : Prop := ∃ e, f = .console e

/-- Whatever is done at the console, nothing else is done. -/
theorem meets_onConsole {α : Type} (act : EStateM IoError κ α)
    (m : Machine κ δ) :
    Meets (fun _ m' => Untouched m m')
      (fun f m' => FromConsole f ∧ Untouched m m')
      ((onBoard (Board.onConsole act)).run m) := by
  rw [run_onConsole]
  cases act.run m.console with
  | ok x console => exact ⟨rfl, rfl, rfl⟩
  | error e console => exact ⟨⟨e, rfl⟩, rfl, rfl, rfl⟩

variable [Console κ]

/-- A call is the console's own. -/
theorem run_call (c : Console.Call) (m : Machine κ δ) :
    (call c).run m =
      match (Console.call c).run m.console with
      | .ok x console => .ok x { m with console }
      | .error e console => .error (.console e) { m with console } := by
  refine (run_onConsole (Console.call c) m).trans ?_
  cases (Console.call c).run m.console <;> rfl

/-- So are the writes of a text. -/
theorem run_say (bytes : List Byte) (m : Machine κ δ) :
    (say bytes).run m =
      match (Console.writeAll bytes).run m.console with
      | .ok x console => .ok x { m with console }
      | .error e console => .error (.console e) { m with console } := by
  refine (run_onConsole (Console.writeAll bytes) m).trans ?_
  cases (Console.writeAll bytes).run m.console <;> rfl

/-- A call leaves all but the console, and fails by the console's failure
alone. -/
theorem meets_call (c : Console.Call) (m : Machine κ δ) :
    Meets (fun _ m' => Untouched m m')
      (fun f m' => FromConsole f ∧ Untouched m m') ((call c).run m) :=
  meets_onConsole (Console.call c) m

/-- So does a text, with whatever part of it has gone out. -/
theorem meets_say (bytes : List Byte) (m : Machine κ δ) :
    Meets (fun _ m' => Untouched m m')
      (fun f m' => FromConsole f ∧ Untouched m m')
      ((say bytes).run m) :=
  meets_onConsole (Console.writeAll bytes) m

-- ================================================================ reading

variable [Peripheral δ]

/-- All addresses but one are cells, and reading a cell changes nothing and
cannot fail. -/
theorem run_read_of_ne {m : Machine κ δ} (hdev : m.devices = .standard)
    {a : Word} (ha : a ≠ Keyboard.status) :
    (read a).run m = .ok (m.core.peek a) m := by
  rw [run_read_standard a m hdev, if_neg ha]

/-- At the keyboard's status a read polls, and of a poll it keeps the key.
-/
theorem run_read_status {m : Machine κ δ}
    (hdev : m.devices = .standard) :
    (read Keyboard.status).run m =
      match (Console.call (.poll Keyboard.patience)).run m.console with
      | .ok (some key) console => .ok Keyboard.ready (m.deliver key console)
      | .ok none console => .ok 0 (m.clearStatus console)
      | .error e console => .error (.console e) { m with console } := by
  rw [run_read_standard _ m hdev, if_pos rfl, run_onBoard,
    Keyboard.run_readStatus]
  cases (Console.call (.poll Keyboard.patience)).run m.console with
  | error e console => rfl
  | ok answer console => cases answer <;> rfl

/-- A read keeps all that a poll keeps. Away from the keyboard's status
it changes nothing and cannot fail; there it answers one of two words,
neither of which is the status's own address. -/
theorem meets_read {m : Machine κ δ} (hdev : m.devices = .standard)
    (a : Word) :
    Meets
      (fun w m' => Polled m m' ∧
        (a ≠ Keyboard.status ∧ w = m.core.peek a ∧ m' = m
          ∨ a = Keyboard.status ∧ (w = 0 ∨ w = Keyboard.ready)))
      (fun f m' => a = Keyboard.status ∧ ∃ e console,
        (Console.call (.poll Keyboard.patience)).run m.console
            = .error e console
          ∧ f = .console e ∧ m' = { m with console })
      ((read a).run m) := by
  by_cases ha : a = Keyboard.status
  · subst ha
    rw [run_read_status hdev]
    cases (Console.call (.poll Keyboard.patience)).run m.console with
    | error e console => exact ⟨rfl, e, console, rfl, rfl, rfl⟩
    | ok answer console =>
        cases answer with
        | none =>
            exact ⟨polled_clearStatus console m, .inr ⟨rfl, .inl rfl⟩⟩
        | some key =>
            exact ⟨polled_deliver key console m, .inr ⟨rfl, .inr rfl⟩⟩
  · rw [run_read_of_ne hdev ha]
    exact ⟨.refl m, .inl ⟨ha, rfl, rfl⟩⟩

end Lc3.Machine
