/-
The command. What it decides is elsewhere; here are only the files, the
screen and the keys of a real terminal.

Standard input cannot be asked whether there is a key, only for the next
one, so the machine is taken step by step. A step that finds no key is
abandoned: what it has written already is shown, the next bytes are
waited for, and the step is taken again from where it began, its first
bytes now being on the screen.
-/
import Lc3.CommandLine.Run
import Lc3.Key.Typed

namespace Lc3.CommandLine

-- =================================================================== files

/-- A failure of the file system in the words of this library. -/
def ioErrorOf : IO.Error → IoError
  | .noFileOrDirectory .. => Volume.notFound
  | .inappropriateType (some _) .. => Volume.notADirectory
  | .inappropriateType none .. => Volume.isADirectory
  | .permissionDenied .. =>
      ⟨.permissionDenied, "Permission denied (os error 13)"⟩
  | e => ⟨.other, toString e⟩

def readFile (path : String) : IO (Except IoError (List Byte)) := do
  try
    let bytes ← IO.FS.readBinFile path
    return .ok (bytes.toList.map fun b => b.toBitVec)
  catch e => return .error (ioErrorOf e)

-- ============================================================ the terminal

/-- Puts bytes on the screen, leaving out those that are there. -/
def showBytes (bytes : List Byte) (shown : Nat) : IO Unit := do
  let fresh := (bytes.drop shown).map fun b => UInt8.ofNat b.toNat
  unless fresh.isEmpty do
    let out ← IO.getStdout
    out.write ⟨fresh.toArray⟩
    out.flush

/-- Shows how a run ended. -/
def close (outcome : Outcome) (shown : Nat) : IO UInt32 := do
  showBytes outcome.output shown
  unless outcome.errors.isEmpty do
    IO.eprint outcome.errors
  return outcome.exit.toUInt32

/-- The terminal after the next bytes typed, with those at their end
that are not yet a key; no longer live once there are no more. -/
def waitForKeys (t : Terminal) (gathered : List Byte) :
    IO (Terminal × List Byte) := do
  let bytes ← (← IO.getStdin).read 1024
  if bytes.isEmpty then return ({ t with live := false }, gathered)
  let typed := bytes.toList.map fun b => b.toBitVec
  let (events, gathered) := Key.decode gathered typed
  return ({ t with keys := t.keys ++ events }, gathered)

partial def drive (c : Computer) (shown : Nat) (gathered : List Byte) :
    IO UInt32 := do
  let (progress, next) := Machine.advance 1 c
  if progress = .failed (.console Terminal.noKey) ∧ c.console.live then
    showBytes next.console.screen.toList shown
    let (console, gathered) ← waitForKeys c.console gathered
    drive { c with console } next.console.screen.size gathered
  else
    match conclude (progress, next) with
    | some outcome => close outcome shown
    | none =>
        showBytes next.console.screen.toList shown
        let console := { next.console with screen := #[] }
        drive { next with console } 0 gathered

end Lc3.CommandLine

open Lc3.CommandLine in
def main (arguments : List String) : IO UInt32 := do
  match ← prepare readFile { live := true } arguments with
  | .error outcome => close outcome 0
  | .ok computer => drive computer 0 []
