/-
The machine: a board, the devices on its bus, and whether it is still
running. Programs see memory through the bus only. An address that leads
to a device is the device's to read and write, every other one is a
plain cell; fetching an instruction makes no exception.

Operations keep what they did before they failed. That is the order of
events on a console: a prompt that was written stays written when the
read behind it fails.
-/
import Lc3.Device.Table

namespace Lc3

structure Machine (κ δ : Type) extends Board κ where
  devices : DeviceTable δ := .standard
  running : Bool := true
deriving DecidableEq, Repr

namespace Machine

/-- A computation on a machine. -/
abbrev Exec (κ δ : Type) := EStateM Failure (Machine κ δ)

variable {κ δ : Type}

/-- A machine as it is switched on: memory and registers zero, the
keyboard in its place. -/
def new (console : κ) (journal : Journal := {}) : Machine κ δ where
  core := .initial
  journal := journal
  console := console

-- ============================================================= the board

/-- Does on the board what devices may do too. -/
def onBoard {α : Type} (act : Board.Exec κ α) : Exec κ δ α
  | ⟨board, devices, running⟩ =>
      match act.run board with
      | .ok x board => .ok x ⟨board, devices, running⟩
      | .error f board => .error f ⟨board, devices, running⟩

/-- The devices and the running flag have no part in what is done on the
board, and what was done before a failure stays done. -/
theorem run_onBoard {α : Type} (act : Board.Exec κ α)
    (m : Machine κ δ) :
    (onBoard act).run m =
      match act.run m.toBoard with
      | .ok x board => .ok x { m with toBoard := board }
      | .error f board => .error f { m with toBoard := board } := by
  rfl

def change (f : Board κ → Board κ) : Exec κ δ Unit := onBoard (modify f)

def note (r : Record) : Exec κ δ Unit := change (·.note r)

def setPc (w : Word) : Exec κ δ Unit := change (·.setPc w)

def setReg (r : Reg) (w : Word) : Exec κ δ Unit := change (·.setReg r w)

def getPc : Exec κ δ Word := return (← get).core.pc

def getReg (r : Reg) : Exec κ δ Word := return (← get).core.reg r

@[simp] theorem run_getPc (m : Machine κ δ) :
    getPc.run m = .ok m.core.pc m := by
  rfl

@[simp] theorem run_getReg (r : Reg) (m : Machine κ δ) :
    (getReg r).run m = .ok (m.core.reg r) m := by
  rfl

def call [Console κ] (c : Console.Call) : Exec κ δ c.Answer :=
  onBoard (Board.call c)

-- =============================================================== the bus

/-- Lets the device with number `i` act. -/
def onDevice {α : Type} (i : Nat) (act : DeviceExec κ (Device δ) α) :
    Exec κ δ α
  | ⟨board, devices, running⟩ =>
      match devices.devices[i]? with
      | none => .error (.deviceMissing i) ⟨board, devices, running⟩
      | some d =>
          match act.run (d, board) with
          | .ok x (d, board) =>
              .ok x ⟨board, devices.put i d, running⟩
          | .error f (d, board) =>
              .error f ⟨board, devices.put i d, running⟩

/-- A device that is there acts on the board, and its new state takes the
place of the old one, also where it fails. -/
theorem run_onDevice {α : Type} {i : Nat} {d : Device δ}
    {m : Machine κ δ} (act : DeviceExec κ (Device δ) α)
    (h : m.devices.devices[i]? = some d) :
    (onDevice i act).run m =
      match act.run (d, m.toBoard) with
      | .ok x (d, board) =>
          .ok x { m with toBoard := board, devices := m.devices.put i d }
      | .error f (d, board) =>
          .error f
            { m with toBoard := board, devices := m.devices.put i d } := by
  obtain ⟨board, devices, running⟩ := m
  change devices.devices[i]? = some d at h
  simp only [EStateM.run, onDevice, h]

variable [Peripheral δ]

/-- Puts a device at the given addresses, or at its own. -/
def attach (d : Device δ) (addrs : Option (List Word)) :
    Exec κ δ Unit := do
  let addrs := addrs.getD (Peripheral.addresses d)
  match (← get).devices.attach d addrs with
  | .ok devices => modify fun m => { m with devices }
  | .error f => throw f

variable [Console κ]

def read (a : Word) : Exec κ δ Word := do
  match (← get).devices.route a with
  | none => return (← get).core.peek a
  | some i => onDevice i (Peripheral.read a)

def write (a w : Word) : Exec κ δ Unit := do
  match (← get).devices.route a with
  | none => change (·.poke a w)
  | some i => onDevice i (Peripheral.write a w)

-- ======================================== the bus, seen from the outside

/-- Where no device answers, a read is a look at the cell. -/
theorem run_read (a : Word) (m : Machine κ δ) :
    (read a).run m =
      match m.devices.route a with
      | none => .ok (m.core.peek a) m
      | some i => (onDevice i (Peripheral.read a)).run m := by
  unfold read
  rw [EStateM.run_bind, EStateM.run_get]
  show EStateM.run (match m.devices.route a with
    | none => _
    | some i => _) m = _
  cases m.devices.route a <;> rfl

/-- Where no device answers, a write is a write to the cell. -/
theorem run_write (a w : Word) (m : Machine κ δ) :
    (write a w).run m =
      match m.devices.route a with
      | none => (change (·.poke a w)).run m
      | some i => (onDevice i (Peripheral.write a w)).run m := by
  unfold write
  rw [EStateM.run_bind, EStateM.run_get]
  show EStateM.run (match m.devices.route a with
    | none => _
    | some i => _) m = _
  cases m.devices.route a <;> rfl

/-- With the keyboard as the only device, a read is a look at the cell
but for one address. -/
theorem run_read_standard (a : Word) (m : Machine κ δ)
    (h : m.devices = .standard) :
    (read a).run m =
      if a = Keyboard.status then
        (onBoard Keyboard.readStatus).run m
      else .ok (m.core.peek a) m := by
  obtain ⟨board, devices, running⟩ := m
  change devices = .standard at h
  subst h
  rw [run_read, DeviceTable.route_standard]
  by_cases ha : a = Keyboard.status
  · cases ha
    simp only [if_true]
    rw [run_onDevice _ rfl, Device.run_read_keyboard, run_onBoard,
      Keyboard.read, if_pos rfl]
    cases Keyboard.readStatus.run board <;> rfl
  · simp only [ha, if_false]

/-- With the keyboard as the only device, every write goes to the
cell. -/
theorem run_write_standard (a w : Word) (m : Machine κ δ)
    (h : m.devices = .standard) :
    (write a w).run m =
      .ok () { m with toBoard := m.toBoard.poke a w } := by
  obtain ⟨board, devices, running⟩ := m
  change devices = .standard at h
  subst h
  rw [run_write, DeviceTable.route_standard]
  by_cases ha : a = Keyboard.status
  · cases ha
    rfl
  · simp only [ha, if_false]
    rfl

end Machine

end Lc3
