/-
Devices that keep order on the board. A device is handed the whole board,
and could do anything to it. An orderly one does what the machine itself
does: it looks at its own state and at the core, it changes the core by
recorded changes, and it reaches the console by calls alone. It neither
counts instructions nor carries on when a call has failed.

The keyboard is orderly (`orderly_keyboard`), and of added devices it is
asked as a law. From there on an access to the bus need not be taken
apart by what answers it: wherever it leads, it is one orderly
computation, the same for every board (`Served`).
-/
import Lc3.Proofs.Outcome

namespace Lc3

variable {κ δ ρ α β : Type}

-- ================================================== changes of the board

/-- A record that stands for no change and for no instruction. -/
def Record.isRemark : Record → Bool
  | executing .. | memWritten .. | regWritten .. | pcWritten .. => false
  | _ => true

/-- What may be done to a board: remarks, and changes of the core that
go on record where they have a record. -/
inductive Board.Change where
  | remark (r : Record) (h : r.isRemark)
  | poke (a w : Word)
  | setReg (r : Reg) (w : Word)
  | setPc (w : Word)
  | setCond (c : Cond)

def Board.Change.apply : Board.Change → Board κ → Board κ
  | remark r _ => Board.note r
  | poke a w => Board.poke a w
  | setReg r w => Board.setReg r w
  | setPc w => Board.setPc w
  | setCond c => Board.setCond c

-- =================================================== orderly computations

namespace DeviceExec

/-- A sequence on the board is one for the device that is at it. -/
theorem ofBoard_bind (p : Board.Exec κ α) (f : α → Board.Exec κ β) :
    (ofBoard (p >>= f) : DeviceExec κ ρ β)
      = ofBoard p >>= fun x => ofBoard (f x) := by
  funext ⟨d, b⟩
  show (ofBoard (p >>= f)).run (d, b)
    = (ofBoard p >>= fun x => ofBoard (f x)).run (d, b)
  rw [run_ofBoard, EStateM.run_bind, EStateM.run_bind, run_ofBoard]
  cases p.run b <;> rfl

variable [Console κ]

/-- Made of looks, changes and calls, and left where one of them
fails. -/
inductive Orderly : {α : Type} → DeviceExec κ ρ α → Prop where
  | pure {α : Type} (x : α) : Orderly (pure x)
  | throw {α : Type} (f : Failure) :
      Orderly (throw f : DeviceExec κ ρ α)
  | bind {α β : Type} {p : DeviceExec κ ρ α} {f : α → DeviceExec κ ρ β}
      (h : Orderly p) (hf : ∀ x, Orderly (f x)) : Orderly (p >>= f)
  | look {α : Type} (f : ρ → Core → α) :
      Orderly fun s => .ok (f s.1 s.2.core) s
  | own (f : ρ → ρ) : Orderly (modify fun s => (f s.1, s.2))
  | change (c : Board.Change) : Orderly (ofBoard (modify c.apply))
  | call (c : Console.Call) : Orderly (ofBoard (Board.call c))

/-- The keyboard polls, and then puts the key and the status into their
cells or clears the status. All of this goes on record. -/
theorem orderly_readStatus :
    (ofBoard Keyboard.readStatus : DeviceExec κ ρ Word).Orderly := by
  unfold Keyboard.readStatus
  rw [ofBoard_bind]
  refine .bind (.call (.poll Keyboard.patience)) fun answer => ?_
  cases answer with
  | none =>
      dsimp only
      rw [ofBoard_bind]
      refine .bind (.change (.poke Keyboard.status 0)) fun _ => ?_
      exact .look fun _ core => core.peek Keyboard.status
  | some key =>
      dsimp only
      rw [ofBoard_bind]
      refine .bind (.change (.poke Keyboard.status Keyboard.ready))
        fun _ => ?_
      rw [ofBoard_bind]
      refine .bind (.change (.poke Keyboard.data (Word.ofByte key)))
        fun _ => ?_
      exact .look fun _ core => core.peek Keyboard.status

/-- Asked for anything but its status the keyboard fails, which is in
order. -/
theorem orderly_keyboard (a : Word) :
    (ofBoard (Keyboard.read a) : DeviceExec κ ρ Word).Orderly := by
  unfold Keyboard.read
  by_cases ha : a = Keyboard.status
  · rw [if_pos ha]
    exact orderly_readStatus
  · rw [if_neg ha]
    exact .throw (.addressUnserved a)

end DeviceExec

/-- Devices all of whose answers are orderly. -/
class OrderlyPeripheral (δ : Type) [Peripheral δ] : Prop where
  read {κ : Type} [Console κ] (a : Word) :
    (Peripheral.read a : DeviceExec κ δ Word).Orderly
  write {κ : Type} [Console κ] (a w : Word) :
    (Peripheral.write a w : DeviceExec κ δ Unit).Orderly

instance : OrderlyPeripheral Empty where
  read {κ} _ a := by
    have hread : (Peripheral.read a : DeviceExec κ Empty Word)
        = Pure.pure 0 := funext fun s => nomatch s.1
    rw [hread]
    exact .pure 0
  write {κ} _ a w := .change (.poke a w)

-- ================================================================ the bus

namespace Machine

variable [Console κ]

/-- Done by an orderly computation of some device, whatever the board;
the rest of the machine is left but for that device. -/
def Served (p : Exec κ δ α) : Prop :=
  ∀ (devices : DeviceTable δ) (running : Bool),
    ∃ (ρ : Type) (r : ρ) (act : DeviceExec κ ρ α)
      (table : ρ → DeviceTable δ),
    act.Orderly ∧ ∀ board : Board κ, p.run ⟨board, devices, running⟩
      = mapState (fun s => ⟨s.2, table s.1, running⟩)
          (act.run (r, board))

/-- What is orderly on the board needs no device to be so. -/
theorem served_onBoard {p : Board.Exec κ α}
    (h : (DeviceExec.ofBoard p : DeviceExec κ Unit α).Orderly) :
    Served (onBoard p : Exec κ δ α) := by
  intro devices running
  refine ⟨Unit, (), .ofBoard p, fun _ => devices, h, fun board => ?_⟩
  rw [run_onBoard, DeviceExec.run_ofBoard]
  cases p.run board <;> rfl

theorem served_change (c : Board.Change) :
    Served (change c.apply : Exec κ δ Unit) :=
  served_onBoard (.change c)

theorem served_call (c : Console.Call) :
    Served (call c : Exec κ δ c.Answer) :=
  served_onBoard (.call c)

/-- An access that leads to a device, given what the keyboard and what
other devices make of it. -/
theorem served_onDevice (i : Nat) {act : DeviceExec κ (Device δ) α}
    (keyboard : Board.Exec κ α) (other : DeviceExec κ δ α)
    (hkeyboard : ∀ b, act.run (.keyboard, b)
      = mapState (fun b => (Device.keyboard, b)) (keyboard.run b))
    (hother : ∀ d b, act.run (.other d, b)
      = mapState (fun s => (Device.other s.1, s.2)) (other.run (d, b)))
    (h : (DeviceExec.ofBoard keyboard : DeviceExec κ Unit α).Orderly)
    (h' : other.Orderly) : Served (onDevice i act) := by
  intro devices running
  cases hd : devices.devices[i]? with
  | none =>
      -- an act of no device, which fails before it does anything
      refine ⟨Unit, (), throw (.deviceMissing i), fun _ => devices,
        .throw _, fun board => ?_⟩
      simp only [EStateM.run, onDevice, hd]
      rfl
  | some d =>
      have hrun (board : Board κ) :=
        run_onDevice (m := ⟨board, devices, running⟩) act hd
      cases d with
      | keyboard =>
          refine ⟨Unit, (), .ofBoard keyboard,
            fun _ => devices.put i .keyboard, h, fun board => ?_⟩
          rw [hrun, hkeyboard, DeviceExec.run_ofBoard]
          cases keyboard.run board <;> rfl
      | other d =>
          refine ⟨δ, d, other, fun d => devices.put i (.other d), h',
            fun board => ?_⟩
          rw [hrun, hother]
          cases other.run (d, board) <;> rfl

variable [Peripheral δ] [OrderlyPeripheral δ]

/-- A read is orderly whatever answers it: a cell, the keyboard or a device
that was added. -/
theorem served_read (a : Word) : Served (read a : Exec κ δ Word) := by
  intro devices running
  cases hroute : devices.route a with
  | none =>
      -- a cell is read by a device that only looks
      refine ⟨Unit, (), fun s => .ok (s.2.core.peek a) s,
        fun _ => devices, .look fun _ core => core.peek a,
        fun board => ?_⟩
      rw [run_read, hroute]
      rfl
  | some i =>
      have hdevice : Served (onDevice i (Peripheral.read a) :
          Exec κ δ Word) := by
        refine served_onDevice i (Keyboard.read a) (Peripheral.read a)
          (fun b => ?_) (fun d b => ?_) (DeviceExec.orderly_keyboard a)
          (OrderlyPeripheral.read a)
        · rw [Device.run_read_keyboard]
          cases (Keyboard.read a).run b <;> rfl
        · show Device.withOther d b (Peripheral.read a) = _
          unfold Device.withOther
          cases (Peripheral.read a : DeviceExec κ δ Word).run (d, b) <;> rfl
      obtain ⟨ρ, r, act, table, hact, hrun⟩ := hdevice devices running
      refine ⟨ρ, r, act, table, hact, fun board => ?_⟩
      rw [run_read, hroute]
      exact hrun board

/-- A write is orderly as well, whatever takes it. -/
theorem served_write (a w : Word) :
    Served (write a w : Exec κ δ Unit) := by
  intro devices running
  have hcell : Served (change (·.poke a w) : Exec κ δ Unit) :=
    served_change (.poke a w)
  cases hroute : devices.route a with
  | none =>
      obtain ⟨ρ, r, act, table, hact, hrun⟩ := hcell devices running
      refine ⟨ρ, r, act, table, hact, fun board => ?_⟩
      rw [run_write, hroute]
      exact hrun board
  | some i =>
      have hdevice : Served (onDevice i (Peripheral.write a w) :
          Exec κ δ Unit) := by
        refine served_onDevice i (modify (·.poke a w))
          (Peripheral.write a w) (fun b => rfl) (fun d b => ?_)
          (.change (.poke a w)) (OrderlyPeripheral.write a w)
        show Device.withOther d b (Peripheral.write a w) = _
        unfold Device.withOther
        cases (Peripheral.write a w : DeviceExec κ δ Unit).run (d, b) <;>
          rfl
      obtain ⟨ρ, r, act, table, hact, hrun⟩ := hdevice devices running
      refine ⟨ρ, r, act, table, hact, fun board => ?_⟩
      rw [run_write, hroute]
      exact hrun board

end Machine

end Lc3
