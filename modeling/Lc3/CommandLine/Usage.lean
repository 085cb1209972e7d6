/-
What the command says about itself: its help, and how it turns a command
line down.
-/
import Lc3.CommandLine.Arguments
import Lc3.Text.Controls

namespace Lc3.CommandLine

def usage : String := "Usage: emu_cli [OPTIONS] <IMAGES>..."

def help : String :=
  "LC-3 Emulator\n\n" ++ usage ++ "\n\n" ++
  "Arguments:\n" ++
  "  <IMAGES>...  Object images to load, in order. Later images " ++
  "overwrite earlier ones where they overlap\n\n" ++
  "Options:\n" ++
  "      --start <START>  Address at which to start executing (hex " ++
  "with 0x/x prefix, or decimal) [default: 12288]\n" ++
  "  -h, --help           Print help\n"

namespace Refusal

/-- What is wrong, with the arguments in it quoted as they were given, but
for anything in them that would work the terminal. -/
def headline : Refusal → String
  | help => "help"
  | unknown argument =>
      "unexpected argument '" ++ Text.Controls.strip argument ++ "' found"
  | needlessValue value =>
      "unexpected value '" ++ Text.Controls.strip value
        ++ "' for '--help' found; no more were expected"
  | missingValue =>
      "a value is required for '--start <START>' but none was supplied"
  | badValue value fault =>
      "invalid value '" ++ Text.Controls.strip value
        ++ "' for '--start <START>': " ++ Address.message value fault
  | repeated =>
      "the argument '--start <START>' cannot be used multiple times"
  | missingImages => "the following required arguments were not provided:"

/-- What stands under the headline, if anything. -/
def detail : Refusal → String
  | missingImages => "\n  <IMAGES>..."
  | _ => ""

def report (r : Refusal) : String :=
  "error: " ++ r.headline ++ r.detail ++ "\n\n" ++ usage ++ "\n\n" ++
  "For more information, try '--help'.\n"

end Refusal

end Lc3.CommandLine
