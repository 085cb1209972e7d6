/-
The command line: one or more images, in order, and an option `--start`
with the address to begin at. An option may stand anywhere among the
images. Behind a `--` everything is an image, a single dash is one
anywhere, and anything else that begins with a dash is an option or a
mistake.

Arguments are judged from the left, with one delay: the value of
`--start` is looked at only when the next image, the next known option
or the end comes. So an option that is not known is reported before a
bad value in front of it, and help is not given behind one.
-/
import Lc3.Address
import Lc3.Core

namespace Lc3.CommandLine

-- ================================================================ refusals

/-- Why a command line is not run. Asking for help is one reason. -/
inductive Refusal where
  | help
  | unknown (argument : String)
  | needlessValue (value : String)
  | missingValue
  | badValue (value : String) (fault : Text.Digits.Fault)
  | repeated
  | missingImages
deriving DecidableEq, Repr

structure Arguments where
  images : List String
  start : Word
deriving DecidableEq, Repr

-- ================================================================= scanning

/-- How an argument looks. -/
inductive Shape where
  | plain
  | separator
  | long (name : String) (value : Option String)
  | short (letter : Char)
deriving DecidableEq, Repr

def Shape.of (argument : String) : Shape :=
  match argument.toList with
  | ['-', '-'] => separator
  | '-' :: '-' :: rest =>
      let name := String.ofList (rest.takeWhile (· ≠ '='))
      match rest.dropWhile (· ≠ '=') with
      | [] => long name none
      | _ :: value => long name (some (String.ofList value))
  | '-' :: letter :: _ => short letter
  | _ => plain

/-- What has been gathered up to some argument. -/
structure Gathered where
  images : List String := []
  start : Option Word := none
  /-- An occurrence of `--start` not judged yet, with its value if there
  is one. -/
  waiting : Option (Option String) := none
deriving DecidableEq, Repr

namespace Gathered

/-- Judges the occurrence of `--start` that is waiting. That there is a
value comes first, that there was one before comes next. -/
def settle (g : Gathered) : Except Refusal Gathered :=
  match g.waiting with
  | none => .ok g
  | some none => .error .missingValue
  | some (some value) =>
      if g.start.isSome then .error .repeated
      else
        match Address.ofString value with
        | .ok start => .ok { g with start := some start, waiting := none }
        | .error fault => .error (.badValue value fault)

def addImage (g : Gathered) (image : String) :
    Except Refusal Gathered := do
  let g ← g.settle
  return { g with images := g.images ++ [image] }

/-- An occurrence of `--start`, to be judged later. -/
def offer (g : Gathered) (value : Option String) : Gathered :=
  { g with waiting := some value }

/-- A plain argument is the value of a `--start` just before it, and
otherwise an image. -/
def addPlain (g : Gathered) (argument : String) :
    Except Refusal Gathered :=
  match g.waiting with
  | some none => .ok (g.offer (some argument))
  | _ => g.addImage argument

def scan (g : Gathered) : List String → Except Refusal Gathered
  | [] => g.settle
  | argument :: rest =>
      match Shape.of argument with
      | .plain => do
          let g ← g.addPlain argument
          g.scan rest
      | .separator => do
          let g ← rest.foldlM addImage g
          g.settle
      | .long "start" none => do
          let g ← g.settle
          (g.offer none).scan rest
      | .long "start" (some value) => do
          let g ← g.settle
          let g ← (g.offer (some value)).settle
          g.scan rest
      | .long "help" none => do
          let _ ← g.settle
          throw .help
      | .long "help" (some value) => throw (.needlessValue value)
      | .long name _ => throw (.unknown ("--" ++ name))
      | .short 'h' => do
          let _ ← g.settle
          throw .help
      | .short letter => throw (.unknown ("-" ++ letter.toString))

end Gathered

def Arguments.parse (arguments : List String) :
    Except Refusal Arguments := do
  let g ← ({} : Gathered).scan arguments
  if g.images.isEmpty then throw .missingImages
  return { images := g.images, start := g.start.getD Core.entry }

end Lc3.CommandLine
