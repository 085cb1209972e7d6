import Lc3.Text.Quoted
import Lc3.Text.Utf8
import Lc3.Isa.Listing
import Lc3.Image
import Lc3.Address
import Lc3.Console.Buffered
import Lc3.Console.Tap
import Lc3.Key.Typed
import Lc3.Machine.Operation
import Lc3.CommandLine.Run
import Lc3.Main
import Lc3.Proofs.Outcome
import Lc3.Proofs.Machine.Action
import Lc3.Proofs.Machine.Bus
import Lc3.Proofs.Machine.Routines
import Lc3.Proofs.Machine.Instructions
import Lc3.Proofs.Machine.Failing
import Lc3.Proofs.Machine.Strings
import Lc3.Proofs.Machine.Twin
import Lc3.Proofs.Machine.Alike
import Lc3.Proofs.Machine.Runs
import Lc3.Proofs.Machine.Life
import Lc3.Proofs.Table.Basic
import Lc3.Proofs.Table.Fields
import Lc3.Proofs.Table.Refinement
import Lc3.Proofs.Image.Codec
import Lc3.Proofs.Stream.Reading
import Lc3.Proofs.Image.Streamed
import Lc3.Proofs.Image.Overlay
import Lc3.Proofs.Machine.Loading
import Lc3.Proofs.Device.Orderly
import Lc3.Proofs.Machine.Ledger
import Lc3.Proofs.Console.Broken
import Lc3.Proofs.Machine.Broken
import Lc3.Proofs.Machine.Moves
import Lc3.Proofs.Machine.StatusCell
import Lc3.Proofs.Machine.Conserved
import Lc3.Proofs.Device.Monitor
import Lc3.Proofs.Machine.Traffic
import Lc3.Proofs.Machine.KeyRegister
import Lc3.Proofs.Machine.Feeding
import Lc3.Proofs.Machine.Condition
import Lc3.Proofs.Machine.Parting
import Lc3.Proofs.Device.Attaching
import Lc3.Proofs.Machine.Furnished
import Lc3.Proofs.Machine.Routing
import Lc3.Proofs.Device.Metered
import Lc3.Proofs.Machine.Unused
import Lc3.Proofs.Machine.TypeAhead
import Lc3.Proofs.Machine.Overheard
import Lc3.Proofs.CommandLine.Asking
import Lc3.Proofs.CommandLine.Whole
import Lc3.Proofs.Stream.Filling
import Lc3.Proofs.Console.Working
import Lc3.Proofs.Console.Dialogue
import Lc3.Proofs.Machine.Spelling
import Lc3.Proofs.Machine.TrapFrame
import Lc3.Proofs.Text.Numeral
import Lc3.Proofs.Isa.Faithful
import Lc3.Proofs.Isa.Encoding
import Lc3.Proofs.Isa.Ignored
import Lc3.Proofs.Device.Sentry
import Lc3.Proofs.Machine.Announced
import Lc3.Proofs.Text.Digits
import Lc3.Proofs.Address
import Lc3.Proofs.Console.History
import Lc3.Proofs.Key.Control
