/-
Files by name. A volume lies in a directory below the root, and a path is
names between slashes, taken one after the other: from the root if the
path begins with a slash, otherwise from a place that nothing is known
of. Nothing and a dot are names too, for the place one is at already, and
two dots lead back by a step, at the root to the root itself. The way to
a file leads through directories only, and each step that cannot be taken
has its error: a name that is not there or too long to be there, or a
file where a directory would have to be, even if just a slash follows.

What a path as a whole is refused for comes before any step: a NUL in
it, nothing at all, or too many bytes. Besides what is on the volume
there are only the directories on the way to it.
-/
import Lc3.Word
import Lc3.IoError

namespace Lc3

inductive Volume.Entry where
  | file (bytes : List Byte)
  | directory
deriving DecidableEq, Repr

structure Volume where
  /-- The names that lead from the root to the volume. -/
  mount : List String
  entries : List (String × Volume.Entry)
deriving DecidableEq, Repr

namespace Volume

def notFound : IoError :=
  ⟨.notFound, "No such file or directory (os error 2)"⟩

def notADirectory : IoError :=
  ⟨.notADirectory, "Not a directory (os error 20)"⟩

def isADirectory : IoError :=
  ⟨.isADirectory, "Is a directory (os error 21)"⟩

def nulInName : IoError :=
  ⟨.invalidInput, "file name contained an unexpected NUL byte"⟩

def nameTooLong : IoError :=
  ⟨.invalidFilename, "File name too long (os error 36)"⟩

/-- The most bytes in one name. -/
def maxName : Nat := 255

/-- The most bytes in a path. -/
def maxPath : Nat := 4095

/-- The volume that holds nothing and is nowhere but at its own root. -/
def empty : Volume := ⟨[], []⟩

/-- The entry with exactly these names on its path through the volume.
What something lies in is a directory. -/
def entryAt (v : Volume) (names : List String) : Option Entry :=
  match v.entries.find? fun (path, _) => path.splitOn "/" = names with
  | some (_, entry) => some entry
  | none =>
      if v.entries.any fun (path, _) =>
          names.isPrefixOf (path.splitOn "/") then
        some .directory
      else none

/-- The entry with exactly these names on its path from the root. -/
def lookup (v : Volume) (names : List String) : Option Entry :=
  if names.isPrefixOf v.mount then some .directory
  else if v.mount.isPrefixOf names then
    v.entryAt (names.drop v.mount.length)
  else none

/-- From an entry, reached by `path`, along the names that are left. -/
def descend (v : Volume) (path : List String) (here : Entry) :
    List String → Except IoError Entry
  | [] => .ok here
  | name :: rest =>
      match here with
      | .file _ => .error notADirectory
      | .directory =>
          if name = "" ∨ name = "." then v.descend path here rest
          else if name = ".." then v.descend path.dropLast here rest
          else if maxName < name.utf8ByteSize then .error nameTooLong
          else
            match v.lookup (path ++ [name]) with
            | none => .error notFound
            | some entry => v.descend (path ++ [name]) entry rest

/-- What is at a path. -/
def resolve (v : Volume) (path : String) : Except IoError Entry :=
  if path.contains '\x00' then .error nulInName
  else if path.isEmpty then .error notFound
  else if maxPath < path.utf8ByteSize then .error nameTooLong
  else
    let start := if path.startsWith "/" then v else empty
    start.descend [] .directory (path.splitOn "/")

def read (v : Volume) (path : String) : Except IoError (List Byte) :=
  match v.resolve path with
  | .ok (.file bytes) => .ok bytes
  | .ok .directory => .error isADirectory
  | .error e => .error e

end Volume

end Lc3
