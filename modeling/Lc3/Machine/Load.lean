/-
Getting programs into a machine. Loading writes the words of an image to
the cells themselves, not through the bus: an image that covers a
device's address calls no device. It touches nothing but memory, and
what cannot be read leaves even that alone.
-/
import Lc3.Machine.Basic
import Lc3.Volume

namespace Lc3

/-- Images by path, in order, up to the first that cannot be had. How a
file is read is the caller's choice. -/
def Image.readAll {m : Type → Type} [Monad m]
    (readFile : String → m (Except IoError (List Byte))) :
    List String → m (Except Failure (List Image))
  | [] => return .ok []
  | path :: paths => do
      match Image.ofContents (← readFile path) with
      | .error e => return .error (.image path e)
      | .ok image => return (← readAll readFile paths).map (image :: ·)

namespace Machine

variable {κ δ : Type}

def load (image : Image) (m : Machine κ δ) : Machine κ δ :=
  { m with toBoard := m.toBoard.load image }

def loadAll (images : List Image) (m : Machine κ δ) : Machine κ δ :=
  images.foldl (fun m image => m.load image) m

def loadEncoded (bytes : List Byte) (m : Machine κ δ) :
    Except Image.Error (Machine κ δ) :=
  (Image.ofBytes bytes).map m.load

/-- Reads an image without loading it. -/
def readImage (v : Volume) (path : String) : Exec κ δ Image := do
  match Image.ofContents (v.read path) with
  | .error e => throw (.image path e)
  | .ok image =>
      note (.imageRead image.words.length image.origin path)
      return image

def loadFrom (v : Volume) (path : String) : Exec κ δ Unit := do
  let image ← readImage v path
  change (·.load image)

end Machine

end Lc3
