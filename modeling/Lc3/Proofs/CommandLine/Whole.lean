/-
The command as a whole, from the files to what its user is left with.
All images are had, or the first that is not is all that is reported
(`readAll_cases`): there is no machine then, so nothing has been run and
nothing is on the screen. Otherwise there is one machine to run, fresh and
with the images in it, and three things tell how it comes out. It halts,
or its console fails (`fromConsole_advance`); what it has done to the
console, a tap has noted (`console_advance`); and what was noted shows on
the screen (`Terminal.screen_afterCalls`).
-/
import Lc3.CommandLine.Run
import Lc3.Proofs.CommandLine.Asking
import Lc3.Proofs.Console.Screen
import Lc3.Proofs.Machine.Loading
import Lc3.Proofs.Machine.Overheard
import Mathlib.Data.List.Forall2

namespace Lc3

-- =============================================================== the files

namespace Image

/-- What is wrong with an image, told from what reading its file gave. -/
def fault? : Except IoError (List Byte) → Option Error
  | .error e => some (.io e)
  | .ok bytes =>
      if bytes.length < 2 then some (.missingOrigin bytes.length) else none

/-- The image in a file. -/
def Reads (contents : Except IoError (List Byte)) (image : Image) : Prop :=
  ∃ bytes, contents = .ok bytes ∧ ofBytes bytes = .ok image

/-- A file is an image or has something wrong with it, and the image is made
of the bytes that are in it. -/
theorem ofContents_cases (contents : Except IoError (List Byte)) :
    (∃ e, fault? contents = some e ∧ ofContents contents = .error e)
      ∨ ∃ image, fault? contents = none ∧ Reads contents image
        ∧ ofContents contents = .ok image := by
  cases contents with
  | error e => exact .inl ⟨_, rfl, rfl⟩
  | ok bytes =>
      match bytes with
      | [] => exact .inl ⟨_, rfl, rfl⟩
      | [b] => exact .inl ⟨_, rfl, rfl⟩
      | h :: l :: rest =>
          have hlength : ¬ (h :: l :: rest).length < 2 :=
            Nat.not_lt.2 (Nat.le_add_left 2 rest.length)
          refine .inr ⟨_, ?_, ⟨_, rfl, rfl⟩, rfl⟩
          rw [fault?, if_neg hlength]

variable (readFile : String → Except IoError (List Byte))

/-- The first file that cannot be had ends the reading, and later ones are
not opened. -/
theorem readAll_cons_error {path : String} {e : Error}
    (h : ofContents (readFile path) = .error e) (paths : List String) :
    readAll (m := Id) readFile (path :: paths)
      = .error (.image path e) := by
  simp only [readAll, bind, pure, h]

/-- An image that was had is put in front of those behind it. -/
theorem readAll_cons_ok {path : String} {image : Image}
    (h : ofContents (readFile path) = .ok image) (paths : List String) :
    readAll (m := Id) readFile (path :: paths)
      = (readAll (m := Id) readFile paths).map (image :: ·) := by
  simp only [readAll, bind, pure, h]

/-- Images are read to the last, or to the first that cannot be had. -/
theorem readAll_cases (paths : List String) :
    (∃ images, (∀ path ∈ paths, fault? (readFile path) = none)
        ∧ List.Forall₂ (fun path => Reads (readFile path)) paths images
        ∧ readAll (m := Id) readFile paths = .ok images)
      ∨ ∃ before path after e, paths = before ++ path :: after
        ∧ (∀ p ∈ before, fault? (readFile p) = none)
        ∧ fault? (readFile path) = some e
        ∧ readAll (m := Id) readFile paths = .error (.image path e) := by
  induction paths with
  | nil => exact .inl ⟨[], by simp, .nil, rfl⟩
  | cons path paths ih =>
      rcases ofContents_cases (readFile path) with
        ⟨e, hfault, hread⟩ | ⟨image, hfault, hreads, hread⟩
      · rw [readAll_cons_error readFile hread]
        exact .inr ⟨[], path, paths, e, rfl, by simp, hfault, rfl⟩
      · rw [readAll_cons_ok readFile hread]
        rcases ih with ⟨images, hnone, hall, hok⟩ |
          ⟨before, p, after, e, rfl, hnone, hfirst, herror⟩
        · refine .inl ⟨image :: images, ?_, .cons hreads hall, ?_⟩
          · exact List.forall_mem_cons.2 ⟨hfault, hnone⟩
          · rw [hok]
            rfl
        · refine .inr ⟨path :: before, p, after, e, rfl, ?_, hfirst, ?_⟩
          · exact List.forall_mem_cons.2 ⟨hfault, hnone⟩
          · rw [herror]
            rfl

end Image

namespace CommandLine

open Machine (advance startAt loadAll)

variable (readFile : String → Except IoError (List Byte))

-- ================================================================ the end

/-- What the user is left with, when a run of the machine that has put out
these bytes has come to its end. -/
inductive Closes (bytes : List Byte) : Machine.Progress → Outcome → Prop
    where
  | halted :
      Closes bytes .halted
        { exit := 0, output := bytes.flatMap Terminal.shown, errors := "" }
  | failed (e : IoError) :
      Closes bytes (.failed (.console e))
        { exit := 1
          output := bytes.flatMap Terminal.shown
          errors := "error: " ++ ("console I/O failed: " ++ e.message)
            ++ "\n" }

/-- A machine as it is switched on, but for the images in its memory and
the address at which it is going to begin. -/
structure Ready (images : List Image) (start : Word) (terminal : Terminal)
    (computer : Computer) : Prop where
  core : computer.core
    = { Core.initial with
        mem := Image.overlayAll images Core.initial.mem
        pc := start }
  /-- An address holds the last word of the last image that covers it, and
  if there is none, zero. -/
  cells (a : Word) :
    Image.LastAmong images a (computer.core.peek a)
      ∨ (∀ image ∈ images, ¬ image.Covers a) ∧ computer.core.peek a = 0
  console : computer.console = terminal
  devices : computer.devices = .standard
  running : computer.running = true

/-- What a command line comes to that asks for images at these paths, to be
started there. -/
structure WholeRun (paths : List String) (start : Word) : Prop where
  asked : (∃ arguments, Arguments.parse arguments = .ok ⟨paths, start⟩)
    ↔ paths ≠ []
  /-- The first image that cannot be had is reported, and no machine is
  made. -/
  refused (h : ∃ path ∈ paths, Image.fault? (readFile path) ≠ none) :
    ∃ before path after e, paths = before ++ path :: after
      ∧ (∀ p ∈ before, Image.fault? (readFile p) = none)
      ∧ Image.fault? (readFile path) = some e
      ∧ ∀ arguments terminal,
          Arguments.parse arguments = .ok ⟨paths, start⟩ →
          prepare (m := Id) readFile terminal arguments
            = .error
              { exit := 1
                output := []
                errors := "error: " ++ ("failed to load image " ++ path
                  ++ ": " ++ e.message) ++ "\n" }
  /-- Otherwise the run is that of one machine, a new one into which the
  images were loaded in the order of the paths. -/
  runs (h : ∀ path ∈ paths, Image.fault? (readFile path) = none) :
    ∃ images, List.Forall₂ (fun path => Image.Reads (readFile path)) paths
        images
      ∧ ∀ arguments terminal,
          Arguments.parse arguments = .ok ⟨paths, start⟩ →
          ∃ computer,
            prepare (m := Id) readFile terminal arguments = .ok computer
              ∧ computer = startAt start (loadAll images (.new terminal))
              ∧ Ready images start terminal computer
  /-- And this is how it ends, if it does. -/
  ends {arguments : List String} {keys : List Key.Event} {live : Bool}
    {computer : Computer}
    (h : prepare (m := Id) readFile { keys, live } arguments = .ok computer)
    (limit : Nat) (hends : (advance limit computer).1 ≠ .going) :
    (advance limit computer.tapped).1 = (advance limit computer).1
      ∧ ∃ outcome, conclude (advance limit computer) = some outcome
        ∧ Closes
          (Console.written
            (advance limit computer.tapped).2.console.calls.toList)
          (advance limit computer).1 outcome
  /-- The bytes can be told from the screen. -/
  recovered (bytes : List Byte) :
    Terminal.unshown (bytes.flatMap Terminal.shown) = bytes

/-- A command line that was understood is refused for its files or for
nothing. -/
theorem prepare_eq (terminal : Terminal) {arguments paths : List String}
    {start : Word} (h : Arguments.parse arguments = .ok ⟨paths, start⟩) :
    prepare (m := Id) readFile terminal arguments
      = match Image.readAll (m := Id) readFile paths with
        | .error f => .error (.failed f [])
        | .ok images => .ok (boot images start terminal) := by
  unfold prepare
  rw [h]
  show (match Image.readAll (m := Id) readFile paths with
    | .error f => _
    | .ok images => _) = _
  cases Image.readAll (m := Id) readFile paths <;> rfl

/-- Loading comes before the start, so an image cannot move it, and it
leaves nothing of a new machine's memory but what no image covers. -/
theorem boot_ready (images : List Image) (start : Word)
    (terminal : Terminal) :
    Ready images start terminal (boot images start terminal) := by
  obtain ⟨hdevices, hrunning⟩ :=
    Machine.devices_loadAll images (.new terminal : Computer)
  have hcore : (boot images start terminal).core
      = { Core.initial with
          mem := Image.overlayAll images Core.initial.mem
          pc := start } :=
    congrArg (fun core : Core => { core with pc := start })
      (Machine.core_loadAll images (.new terminal : Computer))
  constructor
  case core => exact hcore
  case cells =>
    intro a
    have hcell : (boot images start terminal).core.peek a
        = (Image.overlayAll images Core.initial.mem).get a :=
      congrArg (·.peek a) hcore
    have hzero : Core.initial.mem.get a = 0 := Bank.get_fill 0 a
    rw [hcell, ← hzero]
    exact Image.get_overlayAll images Core.initial.mem a
  case console => exact Machine.console_loadAll images (.new terminal)
  case devices => exact hdevices
  case running => exact hrunning

/-- The machine that a command line leads to is at the terminal, with the
keyboard alone. -/
theorem fresh_of_prepare {readFile} {terminal : Terminal}
    {arguments : List String} {computer : Computer}
    (h : prepare (m := Id) readFile terminal arguments = .ok computer) :
    computer.console = terminal ∧ computer.devices = .standard := by
  cases hparse : Arguments.parse arguments with
  | error r =>
      unfold prepare at h
      rw [hparse] at h
      cases h
  | ok asked =>
      obtain ⟨paths, start⟩ := asked
      rw [prepare_eq readFile terminal hparse] at h
      cases hread : Image.readAll (m := Id) readFile paths with
      | error f =>
          rw [hread] at h
          cases h
      | ok images =>
          rw [hread] at h
          cases h
          have hready := boot_ready images start terminal
          exact ⟨hready.console, hready.devices⟩

/-- A run that has come to its end is concluded by what it has put out. -/
theorem closes {computer : Computer} (hdev : computer.devices = .standard)
    (hscreen : computer.console.screen = #[]) (limit : Nat)
    (hends : (advance limit computer).1 ≠ .going) :
    ∃ outcome, conclude (advance limit computer) = some outcome
      ∧ Closes
        (Console.written
          (advance limit computer.tapped).2.console.calls.toList)
        (advance limit computer).1 outcome := by
  obtain ⟨-, hconsole⟩ := Machine.console_advance limit hdev
  have hshown := Terminal.screen_afterCalls
    (advance limit computer.tapped).2.console.calls.toList computer.console
  rw [← hconsole, hscreen, List.nil_append] at hshown
  generalize Console.written _ = bytes at hshown ⊢
  -- there is an outcome only of a run that is over
  cases hrun : advance limit computer with
  | mk p c =>
      rw [hrun] at hends hshown
      cases p with
      | going => exact absurd rfl hends
      | halted =>
          refine ⟨_, rfl, ?_⟩
          rw [hshown]
          exact .halted
      | failed f =>
          obtain ⟨e, rfl⟩ := Machine.fromConsole_advance limit hdev hrun
          refine ⟨_, rfl, ?_⟩
          rw [hshown]
          exact .failed e

/-- Two files: a program that puts out a line feed, and half an origin. -/
def twoFiles : String → Except IoError (List Byte)
  | "feed" =>
      .ok [0x30, 0x00, 0xe0, 0x02, 0xf0, 0x22, 0xf0, 0x25, 0x00, 0x0a]
  | "half" => .ok [0x30]
  | _ => .error Volume.notFound

/-- The machine that the first of them makes. -/
def feeding : Computer :=
  startAt 0x3000 <|
    loadAll [⟨0x3000, [0xe002, 0xf022, 0xf025, 0x000a]⟩] (.new {})

end CommandLine

end Lc3
