/-
Everything that can stop the machine short of a halt, by cause. Most
runs know two of these only: the console failed, or an image could not
be had. The next two are mistakes in how devices were put on the bus:
an address claimed twice, and a device asked for an address that it does
not serve. The last two do not arise at all on a machine built by the
operations of this library, and are here so that every operation is
total.
-/
import Lc3.Image

namespace Lc3

inductive Failure where
  | console (e : IoError)
  | image (path : String) (e : Image.Error)
  | addressTaken (a : Word)
  | addressUnserved (a : Word)
  | deviceMissing (index : Nat)
  | endless
deriving DecidableEq, Repr

def Failure.message : Failure → String
  | console e => "console I/O failed: " ++ e.message
  | image path e => "failed to load image " ++ path ++ ": " ++ e.message
  | addressTaken a =>
      "Duplicate MMIOHandler for 0x" ++ Text.hex 4 a.toNat
  | addressUnserved a =>
      "Keyboard doesn't handle address 0x" ++ Text.hex 4 a.toNat
  | deviceMissing index => "no device " ++ Text.decimal index
  | endless => "endless string"

end Lc3
