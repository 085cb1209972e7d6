/-
The devices of a machine and the addresses that lead to them. A device,
once attached, keeps its number, and an address, once routed, keeps its
device: attaching refuses a list that has an address taken already, be
it by an older device or further up in the list itself.
-/
import Lc3.Device.Keyboard

namespace Lc3

/-- The keyboard, or a device that somebody added. -/
inductive Device (δ : Type) where
  | keyboard
  | other (d : δ)
deriving DecidableEq, Repr

namespace Device

variable {κ δ : Type}

/-- Runs an added device inside the type of all devices. -/
def withOther {α : Type} (d : δ) (board : Board κ)
    (act : DeviceExec κ δ α) :
    EStateM.Result Failure (Device δ × Board κ) α :=
  match act.run (d, board) with
  | .ok x (d, board) => .ok x (other d, board)
  | .error f (d, board) => .error f (other d, board)

instance [Peripheral δ] : Peripheral (Device δ) where
  addresses
    | keyboard => [Keyboard.status]
    | other d => Peripheral.addresses d
  read a
    | (keyboard, board) =>
        (DeviceExec.ofBoard (Keyboard.read a)).run (keyboard, board)
    | (other d, board) => withOther d board (Peripheral.read a)
  write a w
    | (keyboard, board) =>
        (DeviceExec.ofBoard (modify (·.poke a w))).run (keyboard, board)
    | (other d, board) => withOther d board (Peripheral.write a w)

/-- The keyboard has no state of its own, so it is the same after a read,
whether it has answered or failed. -/
theorem run_read_keyboard [Console κ] [Peripheral δ] (a : Word)
    (b : Board κ) :
    (Peripheral.read a : DeviceExec κ (Device δ) Word).run (keyboard, b) =
      match (Keyboard.read a).run b with
      | .ok w b => .ok w (keyboard, b)
      | .error f b => .error f (keyboard, b) := by
  show (DeviceExec.ofBoard (Keyboard.read a)).run (keyboard, b) = _
  rw [DeviceExec.run_ofBoard]
  cases (Keyboard.read a).run b <;> rfl

end Device

-- ============================================================= the table

structure DeviceTable (δ : Type) where
  devices : List (Device δ) := []
  /-- The number of the device at an address. -/
  routes : List (Word × Nat) := []
deriving DecidableEq, Repr

namespace DeviceTable

variable {δ : Type}

def route (t : DeviceTable δ) (a : Word) : Option Nat := t.routes.lookup a

/-- The table with a new state of a device. -/
def put (t : DeviceTable δ) (i : Nat) (d : Device δ) : DeviceTable δ :=
  { t with devices := t.devices.set i d }

/-- Routes one more address to the device with the given number. -/
def claim (i : Nat) (t : DeviceTable δ) (a : Word) :
    Except Failure (DeviceTable δ) :=
  match t.route a with
  | none => .ok { t with routes := (a, i) :: t.routes }
  | some _ => .error (.addressTaken a)

/-- Adds a device and routes the addresses to it, in order, or fails at
the first that is taken. -/
def attach (t : DeviceTable δ) (d : Device δ) (addrs : List Word) :
    Except Failure (DeviceTable δ) :=
  addrs.foldlM (claim t.devices.length)
    { t with devices := t.devices ++ [d] }

/-- The keyboard alone, in its place. -/
def standard : DeviceTable δ where
  devices := [.keyboard]
  routes := [(Keyboard.status, 0)]

/-- On the standard table one address leads to a device, and to the
keyboard. -/
theorem route_standard (a : Word) :
    (standard : DeviceTable δ).route a =
      if a = Keyboard.status then some 0 else none := by
  simp only [standard, route, List.lookup_cons, List.lookup_nil]
  by_cases h : a = Keyboard.status
  · simp [h]
  · rw [if_neg h, beq_eq_false_iff_ne.2 h]

/-- The standard table is the empty one with a keyboard attached. -/
theorem attach_keyboard :
    attach ({} : DeviceTable δ) .keyboard [Keyboard.status]
      = .ok standard :=
  rfl

end DeviceTable

end Lc3
