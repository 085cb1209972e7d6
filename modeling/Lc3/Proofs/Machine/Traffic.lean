/-
The traffic on the bus. A machine with the keyboard alone and the same
machine with a monitor go in step (`lockstep_watched`), so the log of the
monitor is the traffic of either.

What the traffic says about the board before and after is a relation of
three (`Telling`): it has to be shown for single accesses, and for the
few other things that the machine does to its board. From there it
passes to whole computations, over the monitored machine, whose log grows
by what each of its parts adds.
-/
import Lc3.Proofs.Device.Monitor
import Lc3.Proofs.Machine.Conserved
import Lc3.Proofs.Machine.Moves

namespace Lc3.Machine

variable {κ δ α : Type}

-- ================================================================ watching

/-- The monitored machine is the other one, with the monitor in place of
the keyboard. -/
structure Watched (m : Machine κ δ) (n : Machine κ Monitor) : Prop where
  devices : m.devices = .standard
  same : ∃ log, n = m.monitored log

/-- What the monitor has noted. -/
def logged (n : Machine κ Monitor) : List Access :=
  match n.devices.devices with
  | [.other d] => d.log
  | _ => []

/-- The log is what the monitor's state holds. -/
theorem logged_eq {n : Machine κ Monitor} {log : List Access}
    (h : n.devices = Monitor.table log) : logged n = log := by
  unfold logged
  rw [h]
  rfl

/-- The accesses to the bus in the course of a computation. -/
def traffic (p : Exec κ Monitor α) (m : Machine κ δ) : List Access :=
  logged (Console.after (p.run (m.monitored [])))

/-- A machine that is monitored already is not changed by being so. -/
theorem monitored_self {n : Machine κ Monitor} {log : List Access}
    (h : n.devices = Monitor.table log) : n.monitored log = n := by
  unfold monitored
  rw [← h]

/-- Between these two states, the monitor has noted what tells of it. -/
def Told (Q : Board κ → List Access → Board κ → Prop)
    (n n' : Machine κ Monitor) : Prop :=
  ∀ log, n.devices = Monitor.table log →
    ∃ es, n'.devices = Monitor.table (log ++ es) ∧ Q n.toBoard es n'.toBoard

/-- Something that the monitor does not get to see. -/
theorem told_unseen {Q : Board κ → List Access → Board κ → Prop}
    {n n' : Machine κ Monitor} (h : Q n.toBoard [] n'.toBoard)
    (hdev : n'.devices = n.devices) : Told Q n n' := by
  intro log hlog
  refine ⟨[], ?_, h⟩
  rw [List.append_nil]
  exact hdev.trans hlog

variable [Console κ] [Peripheral δ]

/-- The monitor stands for the keyboard and for all the cells, and answers
as they do. -/
theorem lockstep_watched :
    Lockstep (Watched : Machine κ δ → Machine κ Monitor → Prop) where
  sight h := by
    obtain ⟨-, log, rfl⟩ := h
    rfl
  apply a h := by
    obtain ⟨hdev, log, rfl⟩ := h
    cases a <;> exact ⟨hdev, log, rfl⟩
  read {m n} a h := by
    obtain ⟨hdev, log, rfl⟩ := h
    rw [run_read_behind hdev, run_read_monitored]
    cases (Monitor.behind a).run m.toBoard with
    | ok w b => exact .ok w ⟨hdev, _, rfl⟩
    | error f b => exact .error f ⟨hdev, log, rfl⟩
  write {m n} a w h := by
    obtain ⟨hdev, log, rfl⟩ := h
    rw [run_write_standard a w m hdev, run_write_monitored]
    exact .ok () ⟨hdev, _, rfl⟩
  call {m n} c h := by
    obtain ⟨hdev, log, rfl⟩ := h
    rw [run_call, run_call]
    have hconsole : (m.monitored log).console = m.console := rfl
    rw [hconsole]
    cases (Console.call c).run m.console with
    | ok x console => exact .ok x ⟨hdev, log, rfl⟩
    | error e console => exact .error _ ⟨hdev, log, rfl⟩

/-- It has the same console, so the loops of the string routines have one
limit. -/
theorem strings_watched :
    StringsAgree (Watched : Machine κ δ → Machine κ Monitor → Prop) := by
  refine lockstep_watched.strings fun m n h => ?_
  obtain ⟨-, log, rfl⟩ := h
  rfl

/-- What is done alike is done alike under the monitor. -/
theorem Twin.watched {p : Exec κ δ α} {q : Exec κ Monitor α}
    (h : Twin p q) {m : Machine κ δ} (hdev : m.devices = .standard) :
    Agree Watched (p.run m) (q.run (m.monitored [])) :=
  h.agree lockstep_watched strings_watched ⟨hdev, [], rfl⟩

-- ================================================================= telling

/-- What a list of accesses tells of the board before and after them, as
long as no routine takes a key. -/
structure Telling (Q : Board κ → List Access → Board κ → Prop) :
    Prop where
  still {b b' : Board κ} (hmem : b'.core.mem = b.core.mem)
    (hconsole : b'.console = b.console) : Q b [] b'
  append {b b₁ b₂ : Board κ} {es es' : List Access} :
    Q b es b₁ → Q b₁ es' b₂ → Q b (es ++ es') b₂
  key {b : Board κ} {key : Byte} {console : κ}
    (h : (Console.call (.poll Keyboard.patience)).run b.console
      = .ok (some key) console) :
    Q b [.polled (some key)]
      (({ b with console }.poke Keyboard.status Keyboard.ready).poke
        Keyboard.data (Word.ofByte key))
  noKey {b : Board κ} {console : κ}
    (h : (Console.call (.poll Keyboard.patience)).run b.console
      = .ok none console) :
    Q b [.polled none] ({ b with console }.poke Keyboard.status 0)
  unanswered {b : Board κ} {e : IoError} {console : κ}
    (h : (Console.call (.poll Keyboard.patience)).run b.console
      = .error e console) : Q b [] { b with console }
  loaded {a : Word} (ha : a ≠ Keyboard.status) (b : Board κ) :
    Q b [.loaded a (b.core.peek a)] b
  stored (a w : Word) (b : Board κ) : Q b [.stored a w] (b.poke a w)
  put (x : Byte) (b : Board κ) :
    Q b [] { b with
      console := Console.after ((Console.call (.write x)).run b.console) }
  flush (b : Board κ) :
    Q b [] { b with
      console := Console.after ((Console.call .flush).run b.console) }

namespace Telling

variable {Q : Board κ → List Access → Board κ → Prop}

/-- A read is told by its access: a poll by what it brought, and a load
changes nothing. -/
theorem told_read (hQ : Telling Q) (a : Word) :
    Conserves (Told Q) (read a : Exec κ Monitor Word) := by
  intro n log hlog
  by_cases ha : a = Keyboard.status
  · have hrun := run_read_monitored_status log n
    rw [monitored_self hlog] at hrun
    rw [ha, hrun]
    cases h : (Console.call (.poll Keyboard.patience)).run n.console with
    | error e console =>
        refine ⟨[], ?_, hQ.unanswered h⟩
        rw [List.append_nil]
        rfl
    | ok answer console =>
        cases answer with
        | none => exact ⟨[.polled none], rfl, hQ.noKey h⟩
        | some key => exact ⟨[.polled (some key)], rfl, hQ.key h⟩
  · have hrun := run_read_monitored_of_ne ha log n
    rw [monitored_self hlog] at hrun
    rw [hrun]
    exact ⟨[.loaded a (n.core.peek a)], rfl, hQ.loaded ha n.toBoard⟩

/-- A write is told as a store. -/
theorem told_write (hQ : Telling Q) (a w : Word) :
    Conserves (Told Q) (write a w : Exec κ Monitor Unit) := by
  intro n log hlog
  have hrun := run_write_monitored a w log n
  rw [monitored_self hlog] at hrun
  rw [hrun]
  exact ⟨[.stored a w], rfl, hQ.stored a w n.toBoard⟩

omit [Peripheral δ] in
/-- A call that the machine makes itself is no access, so it tells nothing,
and whatever is told must bear with that. -/
theorem told_call {c : Console.Call}
    (h : ∀ b : Board κ, Q b [] { b with
      console := Console.after ((Console.call c).run b.console) }) :
    Conserves (Told Q) (call c : Exec κ Monitor c.Answer) := by
  intro n
  have hcall := h n.toBoard
  rw [run_call]
  cases hrun : (Console.call c).run n.console with
  | ok x console =>
      rw [hrun] at hcall
      exact told_unseen hcall rfl
  | error e console =>
      rw [hrun] at hcall
      exact told_unseen hcall rfl

/-- What the machine does is told, but for taking a key. -/
theorem conserved (hQ : Telling Q) : Conserved (Told Q) where
  refl n := told_unseen (hQ.still rfl rfl) rfl
  trans h h' := by
    intro log hlog
    obtain ⟨es, hes, htold⟩ := h log hlog
    obtain ⟨es', hes', htold'⟩ := h' _ hes
    refine ⟨es ++ es', ?_, hQ.append htold htold'⟩
    rw [hes', List.append_assoc]
  remark _ n := told_unseen (hQ.still rfl rfl) rfl
  counted w n := told_unseen (hQ.still rfl rfl) rfl
  setReg r w n := told_unseen (hQ.still rfl rfl) rfl
  setPc w n := told_unseen (hQ.still rfl rfl) rfl
  stop n := told_unseen (hQ.still rfl rfl) rfl
  read := hQ.told_read
  write := hQ.told_write
  put x := told_call (hQ.put x)
  flush := told_call hQ.flush

/-- The condition is not on the bus. -/
theorem told_setCond (hQ : Telling Q) (c : Cond) :
    Conserves (Told Q) (change (·.setCond c) : Exec κ Monitor Unit) :=
  fun _ => told_unseen (hQ.still rfl rfl) rfl

/-- A run is told by the accesses of its steps, one after the other. -/
theorem told_runFor (hQ : Telling Q)
    (hread : Conserves (Told Q) (call .read : Exec κ Monitor Byte))
    (limit : Nat) :
    Conserves (Told Q) (runFor limit : Exec κ Monitor Progress) := by
  intro n
  have hstart : Told Q n n.start := hQ.conserved.remark rfl n
  exact hQ.conserved.trans hstart
    (hQ.conserved.advance hQ.told_setCond hread limit n.start)

end Telling

omit [Console κ] [Peripheral δ] in
/-- What is told under the monitor is told of the machine without it, by
its traffic. -/
theorem tells {Q : Board κ → List Access → Board κ → Prop}
    {p : Exec κ δ α} {q : Exec κ Monitor α} (hq : Conserves (Told Q) q)
    {m : Machine κ δ}
    (h : Agree Watched (p.run m) (q.run (m.monitored []))) :
    (Console.after (p.run m)).devices = .standard
      ∧ Q m.toBoard (traffic q m) (Console.after (p.run m)).toBoard := by
  obtain ⟨hdev, log, hsame⟩ := h.after
  obtain ⟨es, hes, htold⟩ := hq (m.monitored []) [] rfl
  have htraffic : traffic q m = es := logged_eq hes
  refine ⟨hdev, ?_⟩
  rw [htraffic]
  rw [hsame] at htold
  exact htold

-- ================================================================ sessions

/-- Putting an image into memory, as accesses. -/
def storesOf (image : Image) : List Access :=
  image.cells.map fun (a, w) => .stored a w

/-- And putting one there that may not have been to be had. -/
def storesOfRead : Except Image.Error Image → List Access
  | .ok image => storesOf image
  | .error _ => []

/-- The accesses in the course of a move. What is written to the cells
past the bus counts as stored. -/
def Move.traffic (m : Machine κ δ) : Move κ δ → List Access
  | operate (.load image) => storesOf image
  | operate (.poke a w) => [.stored a w]
  | operate (.read a) => Machine.traffic (Machine.read a) m
  | operate (.write a w) => Machine.traffic (Machine.write a w) m
  | operate .fetch => Machine.traffic Machine.fetch m
  | operate (.execute w) => Machine.traffic (Machine.execute w) m
  | operate .step => Machine.traffic Machine.step m
  | loadEncoded bytes => storesOfRead (Image.ofBytes bytes)
  | loadFrom v path => storesOfRead (Image.ofContents (v.read path))
  | run limit => Machine.traffic (Machine.runFor limit) m
  | _ => []

/-- The accesses in the course of a session. -/
def trafficOf : List (Move κ δ) → Machine κ δ → List Access
  | [], _ => []
  | move :: moves, m =>
      move.traffic m
        ++ trafficOf moves (Console.after ((make move).run m))

namespace Telling

variable {Q : Board κ → List Access → Board κ → Prop}

omit [Peripheral δ] in
/-- An image is told as a store for each of its words. -/
theorem load (hQ : Telling Q) (image : Image) (b : Board κ) :
    Q b (storesOf image) (b.load image) := by
  have hcells (cells : List (Word × Word)) (b : Board κ) :
      Q b (cells.map fun (a, w) => Access.stored a w)
        (cells.foldl (fun b (a, w) => b.poke a w) b) := by
    induction cells generalizing b with
    | nil => exact hQ.still rfl rfl
    | cons cell cells ih =>
        have hfirst := hQ.stored cell.1 cell.2 b
        exact hQ.append hfirst (ih _)
  have hnote : Q (image.cells.foldl (fun b (a, w) => b.poke a w) b) []
      (b.load image) := hQ.still rfl rfl
  have hload := hQ.append (hcells image.cells b) hnote
  rw [List.append_nil] at hload
  exact hload

omit [Peripheral δ] in
/-- Bytes that are an image are told as it is, and others not at all. -/
theorem takeBytes (hQ : Telling Q) (bytes : List Byte) {m : Machine κ δ}
    (hdev : m.devices = .standard) :
    (Console.after ((takeBytes bytes).run m)).devices = .standard
      ∧ Q m.toBoard (storesOfRead (Image.ofBytes bytes))
        (Console.after ((takeBytes bytes).run m)).toBoard := by
  unfold Machine.takeBytes loadEncoded
  cases Image.ofBytes bytes with
  | error e => exact ⟨hdev, hQ.still rfl rfl⟩
  | ok image => exact ⟨hdev, hQ.load image m.toBoard⟩

omit [Peripheral δ] in
/-- So is a file that can be read, and one that is an image. -/
theorem loadFrom (hQ : Telling Q) (v : Volume) (path : String)
    {m : Machine κ δ} (hdev : m.devices = .standard) :
    (Console.after ((loadFrom v path).run m)).devices = .standard
      ∧ Q m.toBoard (storesOfRead (Image.ofContents (v.read path)))
        (Console.after ((loadFrom v path).run m)).toBoard := by
  unfold Machine.loadFrom readImage
  cases Image.ofContents (v.read path) with
  | error e => exact ⟨hdev, hQ.still rfl rfl⟩
  | ok image =>
      let noted := m.toBoard.note
        (.imageRead image.words.length image.origin path)
      have hnote : Q m.toBoard [] noted := hQ.still rfl rfl
      exact ⟨hdev, hQ.append hnote (hQ.load image noted)⟩

/-- Each operation of a host is told by what it asks of the bus, or by what
it writes past it. -/
theorem operate (hQ : Telling Q)
    (hread : Conserves (Told Q) (call .read : Exec κ Monitor Byte))
    {op : Operation δ} (hplain : (Move.operate op : Move κ δ).Plain)
    {m : Machine κ δ} (hdev : m.devices = .standard) :
    (Console.after ((operate op).run m)).devices = .standard
      ∧ Q m.toBoard ((Move.operate op : Move κ δ).traffic m)
        (Console.after ((operate op).run m)).toBoard := by
  have hwatched : Watched m (m.monitored []) := ⟨hdev, [], rfl⟩
  have hstill {b : Board κ} (hmem : b.core.mem = m.core.mem)
      (hconsole : b.console = m.console) : Q m.toBoard [] b :=
    hQ.still hmem hconsole
  unfold Machine.operate
  -- what goes over the bus is told under the monitor, the rest at once
  cases op with
  | attach d addrs => exact absurd hplain id
  | load image => exact ⟨hdev, hQ.load image m.toBoard⟩
  | poke a w => exact ⟨hdev, hQ.stored a w m.toBoard⟩
  | getReg | setReg | setPc | setCond | countInstr | peek =>
      exact ⟨hdev, hstill rfl rfl⟩
  | read a =>
      rw [after_map]
      exact tells (hQ.told_read a) (lockstep_watched.read a hwatched)
  | write a w =>
      rw [after_map]
      exact tells (hQ.told_write a w) (lockstep_watched.write a w hwatched)
  | fetch =>
      rw [after_map]
      exact tells hQ.conserved.fetch (twin_fetch.watched hdev)
  | execute w =>
      have hexecute := hQ.conserved.execute w (fun _ => hQ.told_setCond)
        fun _ => hread
      rw [after_map]
      exact tells hexecute ((twin_execute w).watched hdev)
  | step =>
      have hstep := hQ.conserved.step hQ.told_setCond hread
      rw [after_map]
      exact tells hstep (twin_step.watched hdev)

/-- A move keeps the keyboard the only device, and its traffic tells of
it, if it does so whatever happens to the console. -/
theorem make (hQ : Telling Q)
    (hconsole : ∀ (b : Board κ) (c : κ), Q b [] { b with console := c })
    {move : Move κ δ} (hplain : move.Plain) {m : Machine κ δ}
    (hdev : m.devices = .standard) :
    (Console.after ((make move).run m)).devices = .standard
      ∧ Q m.toBoard (move.traffic m)
        (Console.after ((make move).run m)).toBoard := by
  have hread : Conserves (Told Q) (call .read : Exec κ Monitor Byte) :=
    told_call fun b => hconsole b _
  unfold Machine.make
  cases move with
  | operate op =>
      rw [after_map]
      exact hQ.operate hread hplain hdev
  | loadEncoded bytes => exact hQ.takeBytes bytes hdev
  | loadFrom v path =>
      rw [after_map]
      exact hQ.loadFrom v path hdev
  | run limit =>
      -- a run is watched as a whole, as its traffic is that of all its steps
      have hwatched : Watched m (m.monitored []) := ⟨hdev, [], rfl⟩
      rw [after_map]
      refine tells (hQ.told_runFor hread limit) ?_
      refine lockstep_watched.runFor strings_watched ?_ limit hwatched
      intro m n h
      obtain ⟨-, log, rfl⟩ := h
      rfl
  | share f => exact ⟨hdev, hconsole m.toBoard (f m.console)⟩

/-- A session is told by the accesses of its moves, one after the other. The
induction is on the moves from the first on. -/
theorem played (hQ : Telling Q)
    (hconsole : ∀ (b : Board κ) (c : κ), Q b [] { b with console := c })
    {moves : List (Move κ δ)} (hplain : ∀ move ∈ moves, move.Plain)
    {m : Machine κ δ} (hdev : m.devices = .standard) :
    (played moves m).devices = .standard
      ∧ Q m.toBoard (trafficOf moves m) (played moves m).toBoard := by
  induction moves generalizing m with
  | nil => exact ⟨hdev, hQ.still rfl rfl⟩
  | cons move moves ih =>
      rw [List.forall_mem_cons] at hplain
      obtain ⟨hdev', hfirst⟩ := hQ.make hconsole hplain.1 hdev
      obtain ⟨hdev'', hrest⟩ := ih hplain.2 hdev'
      exact ⟨hdev'', hQ.append hfirst hrest⟩

end Telling

end Lc3.Machine
