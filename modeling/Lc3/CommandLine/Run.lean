/-
A whole run of the command: arguments, images, machine, result. All
images are read before there is a machine, so one that cannot be had is
reported before anything has happened. What the user sees afterwards
depends on the screen and on how the run ended, and on nothing else.
-/
import Lc3.CommandLine.Usage
import Lc3.Console.Terminal
import Lc3.Machine.Run
import Lc3.Machine.Load
import Lc3.Text.Utf8

namespace Lc3.CommandLine

/-- The machine of the command: at a terminal, with the keyboard and no
further device. -/
abbrev Computer := Machine Terminal Empty

structure Outcome where
  exit : Nat
  output : List Byte := []
  errors : String := ""
deriving DecidableEq, Repr

namespace Outcome

def refused : Refusal → Outcome
  | .help => { exit := 0, output := Text.encode help.toList }
  | r => { exit := 2, errors := r.report }

/-- What is left after a failure: the screen as it was then, and the
failure. -/
def failed (f : Failure) (screen : List Byte) : Outcome :=
  { exit := 1, output := screen, errors := "error: " ++ f.message ++ "\n" }

end Outcome

/-- A machine with the images loaded, at the start of its run. -/
def boot (images : List Image) (start : Word) (terminal : Terminal) :
    Computer :=
  ((Machine.new terminal).loadAll images).startAt start

/-- From a command line to a machine that is ready to run. -/
def prepare {m : Type → Type} [Monad m]
    (readFile : String → m (Except IoError (List Byte)))
    (terminal : Terminal) (arguments : List String) :
    m (Except Outcome Computer) := do
  match Arguments.parse arguments with
  | .error r => return .error (.refused r)
  | .ok ⟨paths, start⟩ =>
      match ← Image.readAll readFile paths with
      | .error f => return .error (.failed f [])
      | .ok images => return .ok (boot images start terminal)

/-- How a run ended, if it has. -/
def conclude : Machine.Progress × Computer → Option Outcome
  | (.going, _) => none
  | (.halted, c) => some { exit := 0, output := c.console.screen.toList }
  | (.failed f, c) => some (.failed f c.console.screen.toList)

end Lc3.CommandLine
