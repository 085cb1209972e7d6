/-
A device lives at some addresses of the machine and answers for them in
place of memory. It has a state of its own and may use the whole board:
most devices keep what they show in the cells they stand in front of.

A device knows its console through the four calls only, so one
definition serves every console.
-/
import Lc3.Board

namespace Lc3

/-- A computation of a device with state `δ`. -/
abbrev DeviceExec (κ δ : Type) := EStateM Failure (δ × Board κ)

/-- A device that leaves its own state alone. -/
def DeviceExec.ofBoard {κ δ α : Type} (act : Board.Exec κ α) :
    DeviceExec κ δ α
  | (d, board) =>
      match act.run board with
      | .ok x board => .ok x (d, board)
      | .error f board => .error f (d, board)

/-- A device that only uses the board keeps its state. -/
theorem DeviceExec.run_ofBoard {κ δ α : Type} (act : Board.Exec κ α)
    (d : δ) (b : Board κ) :
    (ofBoard act).run (d, b) =
      match act.run b with
      | .ok x b => .ok x (d, b)
      | .error f b => .error f (d, b) := by
  rfl

class Peripheral (δ : Type) where
  /-- The addresses a device is put at when none are chosen for it. -/
  addresses : δ → List Word
  read {κ : Type} [Console κ] (a : Word) : DeviceExec κ δ Word
  /-- Unless the device has a use for them, writes go to the cell. -/
  write {κ : Type} [Console κ] (a w : Word) : DeviceExec κ δ Unit :=
    .ofBoard (modify (·.poke a w))

/-- No device at all. -/
instance : Peripheral Empty where
  addresses d := nomatch d
  read _ := fun (d, _) => nomatch d

end Lc3
