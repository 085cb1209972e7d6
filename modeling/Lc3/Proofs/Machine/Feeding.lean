/-
Where the keys go. A console with a queue of keys is read from in two
ways: by polls of the keyboard, whose keys are left in its data register,
and by the two routines that wait for a key, which leave it in R0. Each
takes the oldest key and no other, nothing puts one back, and so the keys
of a run that goes well, in their order, are those that were delivered
and those that are left.

What a step delivers is told by its traffic, as far as it polled, and by
R0, if it was one of the two routines (`delivered`). A routine does not
touch the bus while it waits, and no other instruction waits, so the two
never mix. That is what is shown of a single step (`delivers_step`), and a run
follows by induction.
-/
import Lc3.Proofs.Machine.KeyRegister
import Lc3.Proofs.Machine.Secluded

namespace Lc3

-- ================================================================= the queue

namespace Buffered

/-- A poll takes the oldest key if there is one, and with none it takes
nothing. -/
theorem meets_poll (b : Buffered) :
    Meets
      (fun answer b' => b.input = answer.toList ++ b'.input
        ∧ b.output.toList <+: b'.output.toList)
      (fun _ b' => b' = b) (poll.run b) := by
  obtain ⟨input, output, flushes, closed⟩ := b
  cases closed with
  | true => exact rfl
  | false => cases input <;> exact ⟨rfl, List.prefix_refl _⟩

/-- A read takes the oldest key, or fails and takes none. -/
theorem meets_read (b : Buffered) :
    Meets
      (fun key b' => b.input = key :: b'.input
        ∧ b.output.toList <+: b'.output.toList)
      (fun _ b' => b' = b) (read.run b) := by
  obtain ⟨input, output, flushes, closed⟩ := b
  cases closed with
  | true => exact rfl
  | false =>
      cases input with
      | nil => exact rfl
      | cons key rest => exact ⟨rfl, List.prefix_refl _⟩

/-- Nothing but what was put out differs, and it has grown. -/
structure Grown (b b' : Buffered) : Prop where
  input : b'.input = b.input
  output : b.output.toList <+: b'.output.toList

/-- What was not written to has grown by nothing. -/
theorem Grown.refl (b : Buffered) : Grown b b :=
  ⟨rfl, List.prefix_refl _⟩

/-- A write adds to the output, and on a closed console it adds nothing. -/
theorem grown_write (byte : Byte) (b : Buffered) :
    Grown b (Console.after ((write byte).run b)) := by
  obtain ⟨input, output, flushes, closed⟩ := b
  cases closed with
  | true => exact .refl _
  | false => exact ⟨rfl, [byte], Array.toList_push.symm⟩

/-- A flush adds nothing to the output. -/
theorem grown_flush (b : Buffered) :
    Grown b (Console.after (flush.run b)) := by
  obtain ⟨input, output, flushes, closed⟩ := b
  cases closed <;> exact ⟨rfl, List.prefix_refl _⟩

end Buffered

-- ========================================================== what polls take

/-- The keys that polls came back with. -/
def keysOf (es : List Access) : List Byte :=
  es.filterMap fun
    | .polled answer => answer
    | _ => none

/-- The polls account for what is gone from the queue, and what was put
out is still there. -/
structure Fed (b : Board Buffered) (es : List Access)
    (b' : Board Buffered) : Prop where
  input : b.console.input = keysOf es ++ b'.console.input
  output : b.console.output.toList <+: b'.console.output.toList

/-- The instruction calls one of the routines that wait for a key. -/
def Instr.takesKey (i : Instr) : Bool :=
  i = .trap TrapRoutine.getc.vector ∨ i = .trap TrapRoutine.input.vector

/-- Two instructions wait for a key, and they are the traps with the two
routines that do. -/
theorem Instr.takesKey_iff {i : Instr} :
    i.takesKey = true ↔ i.action.TakesKey := by
  unfold takesKey Action.TakesKey TrapRoutine.TakesKey
  rw [decide_eq_true_iff]
  constructor
  · intro h
    rcases h with h | h
    · exact ⟨.getc, .inl rfl, by rw [h]; rfl⟩
    · exact ⟨.input, .inr rfl, by rw [h]; rfl⟩
  · intro h
    obtain ⟨t, ht, hact⟩ := h
    rw [Instr.eq_trap_of_action hact]
    rcases ht with rfl | rfl
    · exact .inl rfl
    · exact .inr rfl

namespace Machine

variable {δ : Type}

/-- Every access to the bus accounts for the keys that it has taken. Only a
poll takes any. -/
theorem telling_fed : Telling Fed where
  still {b b'} _ hconsole := by
    have hgrown : Buffered.Grown b.console b'.console := by
      rw [hconsole]
      exact .refl b.console
    exact ⟨hgrown.input.symm, hgrown.output⟩
  append {b b₁ b₂ es es'} h h' := by
    refine ⟨?_, h.output.trans h'.output⟩
    unfold keysOf
    rw [List.filterMap_append, List.append_assoc, h.input, h'.input]
    rfl
  key {b key console} h := by
    obtain ⟨hinput, houtput⟩ := (Buffered.meets_poll b.console).of_ok h
    exact ⟨hinput, houtput⟩
  noKey {b console} h := by
    obtain ⟨hinput, houtput⟩ := (Buffered.meets_poll b.console).of_ok h
    exact ⟨hinput, houtput⟩
  unanswered {b e console} h := by
    have hsame : console = b.console :=
      (Buffered.meets_poll b.console).of_error h
    rw [hsame]
    exact ⟨rfl, List.prefix_refl _⟩
  loaded _ _ := ⟨rfl, List.prefix_refl _⟩
  stored _ _ _ := ⟨rfl, List.prefix_refl _⟩
  put byte b :=
    have h := Buffered.grown_write byte b.console
    ⟨h.input.symm, h.output⟩
  flush b :=
    have h := Buffered.grown_flush b.console
    ⟨h.input.symm, h.output⟩

-- ======================================================= what routines take

/-- Some output may have been added, and nothing else is different about
console and devices. -/
structure Grown (n n' : Machine Buffered δ) : Prop where
  console : Buffered.Grown n.console n'.console
  devices : n'.devices = n.devices

/-- The key was the oldest in the queue, and has been taken. -/
structure Takes (key : Byte) (n n' : Machine Buffered δ) : Prop where
  input : n.console.input = key :: n'.console.input
  output : n.console.output.toList <+: n'.console.output.toList
  devices : n'.devices = n.devices

namespace Grown

/-- What does nothing adds nothing. -/
theorem refl (n : Machine Buffered δ) : Grown n n :=
  ⟨.refl n.console, rfl⟩

/-- What is put out is put out behind what was before. -/
theorem trans {n n₁ n₂ : Machine Buffered δ} (h : Grown n n₁)
    (h' : Grown n₁ n₂) : Grown n n₂ where
  console :=
    ⟨h'.console.input.trans h.console.input,
      h.console.output.trans h'.console.output⟩
  devices := h'.devices.trans h.devices

/-- A key that is taken between two outputs. -/
theorem takes {key : Byte} {n n₁ n₂ n₃ : Machine Buffered δ}
    (h : Grown n n₁) (hkey : Takes key n₁ n₂) (h' : Grown n₂ n₃) :
    Takes key n n₃ where
  input := by rw [← h.console.input, hkey.input, h'.console.input]
  output :=
    h.console.output.trans (hkey.output.trans h'.console.output)
  devices := h'.devices.trans (hkey.devices.trans h.devices)

end Grown

/-- A call that only adds to the output does no more when the machine makes
it. -/
theorem grown_call {c : Console.Call}
    (h : ∀ b : Buffered,
      Buffered.Grown b (Console.after ((Console.call c).run b))) :
    Conserves Grown (call c : Exec Buffered δ c.Answer) := by
  intro n
  have hcall := h n.console
  rw [run_call]
  cases hrun : (Console.call c).run n.console with
  | ok x console =>
      rw [hrun] at hcall
      exact ⟨hcall, rfl⟩
  | error e console =>
      rw [hrun] at hcall
      exact ⟨hcall, rfl⟩

/-- A byte that is put out is added. -/
theorem grown_put (byte : Byte) :
    Conserves Grown (call (.write byte) : Exec Buffered δ Unit) :=
  grown_call (Buffered.grown_write byte)

/-- A flush leaves queue and devices alone. -/
theorem grown_flush :
    Conserves Grown (call .flush : Exec Buffered δ Unit) :=
  grown_call Buffered.grown_flush

/-- A prompt is bytes that are put out. -/
theorem grown_prompt :
    Conserves Grown (say prompt : Exec Buffered δ Unit) :=
  (sequential_conserves Grown.refl fun _ _ _ => Grown.trans).say
    grown_put prompt

/-- A call that waits for a key takes the oldest. -/
theorem meets_takes (n : Machine Buffered δ) :
    Meets (fun key n' => Takes key n n') (fun _ _ => True)
      ((call .read).run n) := by
  rw [run_call]
  cases h : (Console.call .read).run n.console with
  | error e console => exact trivial
  | ok key console =>
      obtain ⟨hinput, houtput⟩ := (Buffered.meets_read n.console).of_ok h
      exact ⟨hinput, houtput, rfl⟩

/-- A key has been taken, and is in R0. -/
def Feeds (n n' : Machine Buffered δ) : Prop :=
  ∃ key, Takes key n n' ∧ n'.core.reg 0 = Word.ofByte key

/-- A routine that waits for a key leaves it in R0. -/
theorem meets_feeds [Peripheral δ] {t : TrapRoutine} (ht : t.TakesKey)
    (n : Machine Buffered δ) :
    Meets (fun _ => Feeds n) (fun _ _ => True) ((routine t).run n) := by
  have hleave {key : Byte} {n₁ : Machine Buffered δ}
      (h : Takes key n n₁) :
      Meets (fun _ => Feeds n) (fun _ _ => True)
        ((setReg 0 (Word.ofByte key) : Exec Buffered δ Unit).run n₁) := by
    refine ⟨key, ⟨h.input, h.output, h.devices⟩, ?_⟩
    exact Bank.get_set_self n₁.core.regs 0 (Word.ofByte key)
  rcases ht with rfl | rfl
  · refine meets_proceed_state ?_
    exact (meets_takes n).bind fun key n₁ h => hleave h
  · refine meets_proceed_state ?_
    refine (grown_prompt.meets_ok n).bind fun _ n₁ h₁ => ?_
    refine (grown_flush.meets_ok n₁).bind fun _ n₂ h₂ => ?_
    refine (meets_takes n₂).bind fun key n₃ h₃ => ?_
    refine ((grown_put key).meets_ok n₃).bind fun _ n₄ h₄ => ?_
    refine (grown_flush.meets_ok n₄).bind fun _ n₅ h₅ => ?_
    exact hleave ((h₁.trans h₂).takes h₃ (h₄.trans h₅))

-- ================================================================ one step

variable [Peripheral δ]

/-- What the next step delivers: the keys that it polls, which are left
in the data register, and the key that it waits for, which is left in
R0. -/
def delivered (m : Machine Buffered δ) : List Word :=
  (keysOf (traffic step m)).map Word.ofByte
    ++ if m.upcoming.any Instr.takesKey then
      [(Console.after (step.run m)).core.reg 0]
    else []

/-- What was delivered is what is gone from the queue. -/
structure Delivers (ws : List Word) (m m' : Machine Buffered δ) :
    Prop where
  input : m.console.input.map Word.ofByte
    = ws ++ m'.console.input.map Word.ofByte
  output : m.console.output.toList <+: m'.console.output.toList
  devices : m'.devices = .standard

/-- A machine that has stopped delivers nothing. -/
theorem delivered_stopped {m : Machine Buffered δ}
    (hrun : m.running = false) : delivered m = [] := by
  have hrun' : (m.monitored []).running = false := hrun
  have htraffic : traffic step m = [] := by
    unfold traffic
    rw [run_step_stopped hrun']
    rfl
  unfold delivered
  rw [htraffic, upcoming_stopped hrun]
  rfl

/-- The two parts of a step that succeeds, and what they are under the
monitor. -/
theorem watched_parts {m m' : Machine Buffered δ} {status : Status}
    (hdev : m.devices = .standard) (hrun : m.running = true)
    (h : step.run m = .ok status m') :
    ∃ w n₁ n', m.upcoming = some (Instr.decode w)
      ∧ fetch.run (m.monitored []) = .ok w n₁
      ∧ (execute w).run n₁ = .ok status n'
      ∧ Watched m' n' ∧ traffic step m = logged n' := by
  have hrun' : (m.monitored []).running = true := hrun
  obtain ⟨w, m₁, hfetch, hexec⟩ := step_ok hrun h
  obtain ⟨n₁, hfetch', hwatched₁⟩ :=
    (twin_fetch.watched hdev).of_ok hfetch
  obtain ⟨n', hexec', hwatched⟩ :=
    ((twin_execute w).agree lockstep_watched strings_watched
      hwatched₁).of_ok hexec
  refine ⟨w, n₁, n', upcoming_of_fetch hrun hfetch, hfetch', hexec',
    hwatched, ?_⟩
  unfold traffic
  rw [run_step, if_pos hrun', hfetch']
  exact congrArg (fun r => logged (Console.after r)) hexec'

section Executed

variable {n₁ n' : Machine Buffered Monitor} {w : Word} {status : Status}
  {b : Board Buffered} {es : List Access}

/-- Where nobody waits, all that is taken is polled. -/
theorem fed_execute (hwaits : ¬ (Instr.decode w).action.TakesKey)
    (hes : n₁.devices = Monitor.table es) (hfed : Fed b es n₁.toBoard)
    (hexec : (execute w).run n₁ = .ok status n') :
    Fed b (logged n') n'.toBoard := by
  obtain ⟨es', hes', hfed'⟩ : ∃ es',
      n'.devices = Monitor.table (es ++ es')
        ∧ Fed n₁.toBoard es' n'.toBoard := by
    have htold := telling_fed.conserved.execute w
      (fun _ => telling_fed.told_setCond)
      (fun hact => absurd hact hwaits) n₁ es hes
    rw [hexec] at htold
    exact htold
  rw [logged_eq hes']
  exact telling_fed.append hfed hfed'

/-- Who waits takes the next key, and does not touch the bus. -/
theorem takes_execute (hwaits : (Instr.decode w).action.TakesKey)
    (hes : n₁.devices = Monitor.table es) (hfed : Fed b es n₁.toBoard)
    (hexec : (execute w).run n₁ = .ok status n') :
    ∃ key, n'.core.reg 0 = Word.ofByte key
      ∧ b.console.input = keysOf (logged n') ++ key :: n'.console.input
      ∧ b.console.output.toList <+: n'.console.output.toList := by
  obtain ⟨t, ht, hact⟩ := hwaits
  rw [run_execute_trap (Instr.eq_trap_of_action hact)] at hexec
  obtain ⟨key, htakes, hreg⟩ := (meets_feeds ht _).of_ok hexec
  have hinput : n₁.console.input = key :: n'.console.input := htakes.input
  rw [logged_eq (htakes.devices.trans hes), hfed.input, hinput]
  exact ⟨key, hreg, rfl, hfed.output.trans htakes.output⟩

end Executed

/-- A step delivers what is gone from the queue. Its instruction waits for a
key or it does not: if it does, the polls of the fetch come before, and the
key it takes is the last; if it does not, polls are all there is. -/
theorem delivers_step {m m' : Machine Buffered δ} {status : Status}
    (hdev : m.devices = .standard) (h : step.run m = .ok status m') :
    Delivers (delivered m) m m' := by
  cases hrun : m.running with
  | false =>
      rw [run_step_stopped hrun] at h
      cases h
      rw [delivered_stopped hrun]
      exact ⟨rfl, List.prefix_refl _, hdev⟩
  | true =>
      have hafter : Console.after (step.run m) = m' := by rw [h]; rfl
      obtain ⟨w, n₁, n', hupcoming, hfetch, hexec, hwatched, htraffic⟩ :=
        watched_parts hdev hrun h
      obtain ⟨hdev', log, rfl⟩ := hwatched
      -- the fetch waits for no key, so it is fed by its polls
      obtain ⟨es, hes, hfed⟩ : ∃ es, n₁.devices = Monitor.table es
          ∧ Fed m.toBoard es n₁.toBoard := by
        have htold := telling_fed.conserved.fetch (m.monitored []) [] rfl
        rw [hfetch] at htold
        exact htold
      unfold delivered
      rw [hupcoming, hafter, Option.any_some, htraffic]
      -- `takesKey` decides whether R0 is counted among the deliveries
      cases hkey : (Instr.decode w).takesKey with
      | false =>
          have hwaits : ¬ (Instr.decode w).action.TakesKey := by
            rw [← Instr.takesKey_iff, hkey]
            exact Bool.false_ne_true
          have hall := fed_execute hwaits hes hfed hexec
          have hinput : m.console.input
              = keysOf (logged (m'.monitored log)) ++ m'.console.input :=
            hall.input
          refine ⟨?_, hall.output, hdev'⟩
          rw [hinput, List.map_append]
          simp
      | true =>
          obtain ⟨key, hreg, hall, houtput⟩ :=
            takes_execute (Instr.takesKey_iff.1 hkey) hes hfed hexec
          have hr0 : m'.core.reg 0 = Word.ofByte key := hreg
          have hinput : m.console.input
              = keysOf (logged (m'.monitored log))
                ++ key :: m'.console.input := hall
          refine ⟨?_, houtput, hdev'⟩
          rw [hinput, hr0, List.map_append]
          simp

-- ================================================================== a run

/-- Deliveries of steps in a row come one after the other, as the keys did
in the queue. -/
theorem delivers_stepped {m : Machine Buffered δ}
    (hdev : m.devices = .standard) {n : Nat}
    (hok : ∀ i < n, ∃ status m', step.run (m.stepped i) = .ok status m') :
    Delivers ((List.range n).flatMap fun i => delivered (m.stepped i)) m
      (m.stepped n) := by
  induction n with
  | zero => exact ⟨rfl, List.prefix_refl _, hdev⟩
  | succ n ih =>
      have hbefore := ih fun i hi => hok i (Nat.lt_succ_of_lt hi)
      obtain ⟨status, m', hstep⟩ := hok n n.lt_succ_self
      have hlast := delivers_step hbefore.devices hstep
      have hstepped : m.stepped (n + 1) = m' := by
        show Console.after (step.run (m.stepped n)) = m'
        rw [hstep]
        rfl
      rw [hstepped, List.range_succ, List.flatMap_append]
      refine ⟨?_, hbefore.output.trans hlast.output, hlast.devices⟩
      rw [hbefore.input, hlast.input, List.append_assoc]
      simp

/-- A step that keeps to itself makes no call. -/
theorem calls_secluded {κ : Type} [Console κ] {m : Machine κ δ}
    (hdev : m.devices = .standard)
    (h : m.running = true → m.Secluded) :
    (Console.after (step.run m.tapped)).console.calls = #[] := by
  have htapped : m.tapped = m.onto ({ inner := m.console } : Tap κ) := rfl
  rw [htapped, step_onto hdev h, after_mapState]
  rfl

/-- What becomes of the queue in so many steps that all go well, and what
the console has to do with them. -/
structure Feeding (m : Machine Buffered δ) (n : Nat) : Prop where
  /-- Nothing is lost, doubled or out of order. -/
  input : m.console.input.map Word.ofByte
    = ((List.range n).flatMap fun i => delivered (m.stepped i))
      ++ (m.stepped n).console.input.map Word.ofByte
  /-- What was put out stays put out. -/
  output : m.console.output.toList <+: (m.stepped n).console.output.toList
  /-- A poll is a read of the status, and what it takes is what it
  announces and leaves in the data register. -/
  status : ∀ o : Machine Buffered δ, o.devices = .standard → PollsQueue o
  /-- A step that calls no routine and does not read the status makes no
  call, and on any other console it does the same. -/
  secluded : ∀ {κ κ' : Type} [Console κ] [Console κ'] (o : Machine κ δ)
    (c : κ'), o.devices = .standard → (o.running = true → o.Secluded) →
    (Console.after (step.run o.tapped)).console.calls = #[]
      ∧ step.run (o.onto c) = mapState (onto c) (step.run o)

/-- With the keyboard as the only device, the keys that were queued are
those that were delivered, and those that still are queued. -/
theorem queue_is_delivered {m : Machine Buffered δ}
    (hdev : m.devices = .standard) {n : Nat}
    (hok : ∀ i < n, ∃ status m', step.run (m.stepped i) = .ok status m') :
    Feeding m n := by
  have hrun := delivers_stepped hdev hok
  constructor
  case input => exact hrun.input
  case output => exact hrun.output
  case status => exact fun o ho => pollsQueue ho
  case secluded =>
    intro κ κ' _ _ o c ho hsecluded
    exact ⟨calls_secluded ho hsecluded, step_onto ho hsecluded c⟩

/-- A program that asks for a key, polls for one through a pointer, and
prompts for a third, with three keys in the queue. -/
def greedy : Machine Buffered Empty :=
  (new { input := [0x41, 0x42, 0x43] }).load
    ⟨Core.entry, [0xf020, 0xa202, 0xf023, 0, Keyboard.status]⟩

/-- It gets them in turn. -/
theorem queue_is_delivered_greedy :
    Feeding greedy 3
      ∧ ((List.range 3).flatMap fun i => delivered (greedy.stepped i))
        = [0x41, 0x42, 0x43]
      ∧ (greedy.stepped 3).core.peek Keyboard.data = 0x42
      ∧ (greedy.stepped 3).core.reg 0 = 0x43 := by
  have hmeets : ∀ i < 3, Meets (fun _ _ => True) (fun _ _ => False)
      (step.run (greedy.stepped i)) := by decide +kernel
  have hok (i : Nat) (hi : i < 3) :
      ∃ status m', step.run (greedy.stepped i) = .ok status m' := by
    obtain ⟨status, m', h, -⟩ := (hmeets i hi).ok_of_never
    exact ⟨status, m', h⟩
  have hfeeding := queue_is_delivered (m := greedy) rfl hok
  have hleft : (greedy.stepped 3).console.input = [] := by decide +kernel
  have hinput := hfeeding.input
  rw [hleft, List.map_nil, List.append_nil] at hinput
  refine ⟨hfeeding, hinput.symm, ?_, ?_⟩
  · decide +kernel
  · decide +kernel

end Machine

end Lc3
