/-
Typing ahead. What is typed behind the keys that a program gets to is
nothing to it: with more keys in the queue it does what it did, and leaves
them behind those that it left (`typing_ahead_unseen`). Only a program
that has looked for a key and found none could tell, and so could one that
gave up waiting.

So the two machines, with and without the further keys, keep company until
a poll finds the queue empty. The monitor notes that poll, and its log is
the mark. A failure parts them too, as it may be that of a key that was
not there. Strings need no care of their own: the limit of their loop is
taken from the number of keys, but it is a limit only, and more keys raise
it.
-/
import Lc3.Proofs.Machine.Parting
import Lc3.Proofs.Machine.Traffic
import Lc3.Proofs.Machine.Condition

namespace Lc3

-- =============================================================== the console

namespace Buffered

/-- With more keys behind them, a poll that delivers one delivers the
same. -/
theorem poll_enqueue {b b' : Buffered} {millis : Nat} {key : Byte}
    (h : (Console.call (.poll millis)).run b = .ok (some key) b')
    (e : List Byte) :
    (Console.call (.poll millis)).run (b.enqueue e)
      = .ok (some key) (b'.enqueue e) := by
  obtain ⟨input, output, flushes, closed⟩ := b
  cases closed with
  | true => cases h
  | false =>
      cases input with
      | nil => cases h
      | cons k rest =>
          cases h
          rfl

/-- And so does every other call that succeeds. -/
theorem call_enqueue {b b' : Buffered} {c : Console.Call}
    (hc : Machine.Direct c) {x : c.Answer}
    (h : (Console.call c).run b = .ok x b') (e : List Byte) :
    (Console.call c).run (b.enqueue e) = .ok x (b'.enqueue e) := by
  obtain ⟨input, output, flushes, closed⟩ := b
  cases closed with
  | true => cases c <;> cases h
  | false =>
      cases c with
      | poll millis => exact absurd hc id
      | read =>
          cases input with
          | nil => cases h
          | cons k rest =>
              cases h
              rfl
      | write byte | flush =>
          cases h
          rfl

/-- No call puts a key into an empty queue. -/
theorem input_call_of_nil {b : Buffered} (h : b.input = [])
    (c : Console.Call) :
    (Console.after ((Console.call c).run b)).input = [] := by
  obtain ⟨input, output, flushes, closed⟩ := b
  cases h
  cases closed <;> cases c <;> rfl

/-- A poll delivers no key from an empty queue. -/
theorem input_of_polled {b b' : Buffered} {millis : Nat} {key : Byte}
    (h : (Console.call (.poll millis)).run b = .ok (some key) b') :
    b.input ≠ [] := by
  obtain ⟨input, output, flushes, closed⟩ := b
  rintro rfl
  cases closed <;> cases h

/-- A poll that comes back without one has found the queue empty. -/
theorem input_of_unanswered {b b' : Buffered} {millis : Nat}
    (h : (Console.call (.poll millis)).run b = .ok none b') :
    b'.input = [] := by
  obtain ⟨input, output, flushes, closed⟩ := b
  cases closed with
  | true => cases h
  | false =>
      cases input with
      | nil =>
          cases h
          rfl
      | cons k rest => cases h

end Buffered

namespace Machine

variable {κ δ α : Type}

/-- The machine with more keys typed on its console. -/
def typedAhead (e : List Byte) (m : Machine Buffered δ) :
    Machine Buffered δ :=
  { m with console := m.console.enqueue e }

-- ================================================================== the mark

/-- The monitor has noted a poll that came back without a key. -/
def Unanswered (n : Machine κ Monitor) : Prop :=
  ∃ log, n.devices = Monitor.table log ∧ .polled none ∈ log

/-- A poll that found no key is in the log. -/
theorem Unanswered.logged {n : Machine κ Monitor} (h : Unanswered n) :
    .polled none ∈ logged n := by
  obtain ⟨log, hdev, hmem⟩ := h
  rw [logged_eq hdev]
  exact hmem

theorem unanswered_append {log : List Access} (h : .polled none ∈ log)
    (es : List Access) (m : Machine κ δ) :
    Unanswered (m.monitored (log ++ es)) :=
  ⟨log ++ es, rfl, List.mem_append_left es h⟩

section Mark

variable [Console κ]

/-- No read takes anything out of the log. -/
theorem keeps_unanswered_read (a : Word) :
    Conserves (fun n n' => Unanswered n → Unanswered n')
      (read a : Exec κ Monitor Word) := by
  rintro n ⟨log, hdev, hmem⟩
  rw [← monitored_self hdev, run_read_monitored]
  cases (Monitor.behind a).run n.toBoard with
  | ok w b => exact unanswered_append hmem _ { n with toBoard := b }
  | error f b => exact ⟨log, rfl, hmem⟩

/-- Nor does a write. -/
theorem keeps_unanswered_write (a w : Word) :
    Conserves (fun n n' => Unanswered n → Unanswered n')
      (write a w : Exec κ Monitor Unit) := by
  rintro n ⟨log, hdev, hmem⟩
  rw [← monitored_self hdev, run_write_monitored]
  exact unanswered_append hmem _ _

/-- A call of the machine's own is not in the log. -/
theorem keeps_unanswered_call (c : Console.Call) :
    Conserves (fun n n' => Unanswered n → Unanswered n')
      (call c : Exec κ Monitor c.Answer) := by
  intro n h
  rw [run_call]
  cases (Console.call c).run n.console <;> exact h

end Mark

-- =============================================================== the company

/-- The second machine is the first without the monitor, and with more
keys. -/
def Ahead (e : List Byte) (n : Machine Buffered Monitor)
    (o : Machine Buffered δ) : Prop :=
  ∃ (m : Machine Buffered δ) (log : List Access), m.devices = .standard
    ∧ n = m.monitored log ∧ o = m.typedAhead e

variable [Peripheral δ]

/-- The keyboard's status reads alike with more keys, if there was a key
to be had. -/
theorem parts_read_status {m : Machine Buffered δ}
    (hdev : m.devices = .standard) (log : List Access) (e : List Byte) :
    AgreeUnless Unanswered (fun _ _ => True) (Ahead e)
      ((read Keyboard.status).run (m.monitored log))
      ((read Keyboard.status).run (m.typedAhead e)) := by
  have hdev' : (m.typedAhead e).devices = .standard := hdev
  rw [run_read_monitored_status, run_read_status hdev']
  cases hpoll : (Console.call (.poll Keyboard.patience)).run m.console with
  | error f console => exact .inl trivial
  | ok answer console =>
      cases answer with
      | none =>
          -- a poll that came back without a key is the mark
          have hmem : .polled none ∈ log ++ [.polled none] :=
            List.mem_append_right log (List.mem_singleton.2 rfl)
          exact .inl ⟨_, rfl, hmem⟩
      | some key =>
          have hmore : (Console.call (.poll Keyboard.patience)).run
              (m.typedAhead e).console
                = .ok (some key) (console.enqueue e) :=
            Buffered.poll_enqueue hpoll e
          rw [hmore]
          exact .inr (.ok Keyboard.ready
            ⟨m.deliver key console, _, hdev, rfl, rfl⟩)

/-- With more keys behind them, all keys that were there are taken as they
were. A poll of an empty queue leaves the mark, and a read of one fails;
those are the acts at which the two may part. -/
theorem company_ahead (e : List Byte) :
    Company Unanswered (fun _ _ => True)
      (Ahead e : Machine Buffered Monitor → Machine Buffered δ → Prop)
    where
  sight h := by
    obtain ⟨m, log, -, rfl, rfl⟩ := h
    rfl
  apply a h := by
    obtain ⟨m, log, hdev, rfl, rfl⟩ := h
    have hdev' : (a.apply m).devices = .standard :=
      (devices_apply a m).trans hdev
    refine ⟨a.apply m, log, hdev', ?_, ?_⟩ <;> cases a <;> rfl
  read {n o} a h := by
    obtain ⟨m, log, hdev, rfl, rfl⟩ := h
    by_cases ha : a = Keyboard.status
    · -- at the status the two may part
      subst ha
      exact parts_read_status hdev log e
    · have hdev' : (m.typedAhead e).devices = .standard := hdev
      rw [run_read_monitored_of_ne ha, run_read_of_ne hdev' ha]
      exact .inr (.ok (m.core.peek a) ⟨m, _, hdev, rfl, rfl⟩)
  write {n o} a w h := by
    obtain ⟨m, log, hdev, rfl, rfl⟩ := h
    have hdev' : (m.typedAhead e).devices = .standard := hdev
    rw [run_write_monitored, run_write_standard a w _ hdev']
    exact .inr (.ok ()
      ⟨{ m with toBoard := m.toBoard.poke a w }, _, hdev, rfl, rfl⟩)
  call {n o} c hc h := by
    obtain ⟨m, log, hdev, rfl, rfl⟩ := h
    have hconsole : (m.monitored log).console = m.console := rfl
    rw [run_call, run_call, hconsole]
    cases hcall : (Console.call c).run m.console with
    | error f console => exact .inl trivial
    | ok x console =>
        have hmore : (Console.call c).run (m.typedAhead e).console
            = .ok x (console.enqueue e) := Buffered.call_enqueue hc hcall e
        rw [hmore]
        exact .inr (.ok x ⟨{ m with console }, log, hdev, rfl, rfl⟩)
  limit {n o} h := by
    obtain ⟨m, log, -, rfl, rfl⟩ := h
    -- more keys only make the limit of the string loops higher
    refine .inr ⟨?_, fun _ => trivial⟩
    show 65536 * (m.console.input.length + 1)
      ≤ 65536 * ((m.console.input ++ e).length + 1)
    rw [List.length_append]
    omega
  failed _ _ := trivial
  appliedMark a h := by cases a <;> exact h
  readMark := keeps_unanswered_read
  writeMark := keeps_unanswered_write
  calledMark c _ := keeps_unanswered_call c

-- ================================================================== one step

/-- A step that succeeds, and in which no poll comes back without a key,
does the same with more keys in the queue. -/
theorem step_typedAhead {m m' : Machine Buffered δ}
    (hdev : m.devices = .standard) {status : Status}
    (hok : step.run m = .ok status m')
    (hheard : .polled none ∉ traffic step m) (e : List Byte) :
    step.run (m.typedAhead e) = .ok status (m'.typedAhead e) := by
  have hwatched : Agree Watched (step.run m) (step.run (m.monitored [])) :=
    twin_step.watched hdev
  obtain ⟨n, hn, hdev', log, rfl⟩ := hwatched.of_ok hok
  have hahead : Ahead e (m.monitored []) (m.typedAhead e) :=
    ⟨m, [], hdev, rfl, rfl⟩
  unfold traffic at hheard
  rcases twin_step.unless (company_ahead e) hahead with hparted | hagree
  · rw [hn] at hparted hheard
    exact absurd hparted.logged hheard
  · obtain ⟨o, ho, m₁, log₁, hdev₁, hsame, rfl⟩ := hagree.of_ok hn
    have hboard : m'.toBoard = m₁.toBoard :=
      congrArg (fun n : Machine Buffered Monitor => n.toBoard) hsame
    have hrunning : m'.running = m₁.running :=
      congrArg (fun n : Machine Buffered Monitor => n.running) hsame
    -- a monitored machine shows all but its devices, which are standard
    have heq : m₁ = m' := by
      obtain ⟨board, devices, running⟩ := m'
      obtain ⟨board₁, devices₁, running₁⟩ := m₁
      cases hboard
      cases hrunning
      cases hdev'
      cases hdev₁
      rfl
    rw [ho, heq]

-- ============================================================== running out

/-- A queue that is empty, or that a poll has found empty, is empty
afterwards. -/
def Dry (b : Board Buffered) (es : List Access) (b' : Board Buffered) :
    Prop :=
  b.console.input = [] ∨ .polled none ∈ es → b'.console.input = []

/-- No call brings keys. -/
theorem dry_call (c : Console.Call) (b : Board Buffered) :
    Dry b [] { b with
      console := Console.after ((Console.call c).run b.console) } := by
  rintro (hempty | hmem)
  · exact Buffered.input_call_of_nil hempty c
  · cases hmem

/-- Nor does any access, and a poll that came back without a key has found
none. -/
theorem telling_dry : Telling Dry where
  still _ hconsole h := by
    rw [hconsole]
    exact h.resolve_right List.not_mem_nil
  append {b b₁ b₂ es es'} h h' := by
    rintro (hempty | hmem)
    · exact h' (.inl (h (.inl hempty)))
    · rcases List.mem_append.1 hmem with hes | hes'
      · exact h' (.inl (h (.inr hes)))
      · exact h' (.inr hes')
  key {b key console} hpoll := by
    rintro (hempty | hmem)
    · exact absurd hempty (Buffered.input_of_polled hpoll)
    · cases List.mem_singleton.1 hmem
  noKey hpoll _ := Buffered.input_of_unanswered hpoll
  unanswered {b f console} hpoll := by
    have hcall := dry_call (.poll Keyboard.patience) b
    rw [hpoll] at hcall
    exact hcall
  loaded _ b h := h.resolve_right fun hmem => by
    cases List.mem_singleton.1 hmem
  stored a w b h := h.resolve_right fun hmem => by
    cases List.mem_singleton.1 hmem
  put x b := dry_call (.write x) b
  flush b := dry_call .flush b

/-- So once the queue has run dry it stays dry, step after step. -/
theorem dry_step {m : Machine Buffered δ} (hdev : m.devices = .standard) :
    Dry m.toBoard (traffic step m)
      (Console.after (step.run m)).toBoard := by
  have hstep := telling_dry.conserved.step telling_dry.told_setCond
    (Telling.told_call (dry_call .read))
  exact (tells hstep (twin_step.watched hdev)).2

-- ================================================================ many steps

/-- So many steps all succeed, and no poll among them finds the queue
empty. -/
structure Supplied (m : Machine Buffered δ) (n : Nat) : Prop where
  succeeds : ∀ i < n, ∃ status m', step.run (m.stepped i) = .ok status m'
  heard : ∀ i < n, .polled none ∉ traffic step (m.stepped i)

/-- One step of them. -/
theorem Supplied.step {m : Machine Buffered δ} {n : Nat}
    (h : Supplied m n) (hdev : m.devices = .standard) (e : List Byte)
    {i : Nat} (hi : i < n) :
    Machine.step.run ((m.stepped i).typedAhead e)
      = mapState (typedAhead e) (Machine.step.run (m.stepped i)) := by
  obtain ⟨status, m', hok⟩ := h.succeeds i hi
  rw [step_typedAhead (devices_stepped hdev i) hok (h.heard i hi) e, hok]
  rfl

/-- As long as there was always a key when one was looked for, step after
step comes to the same with more of them. -/
theorem Supplied.stepped {m : Machine Buffered δ} {n : Nat}
    (h : Supplied m n) (hdev : m.devices = .standard) (e : List Byte)
    {i : Nat} (hi : i ≤ n) :
    (m.typedAhead e).stepped i = (m.stepped i).typedAhead e := by
  induction i with
  | zero => rfl
  | succ i ih =>
      show Console.after (Machine.step.run ((m.typedAhead e).stepped i)) = _
      rw [ih (Nat.le_of_lt hi), h.step hdev e hi, after_mapState]
      rfl

/-- While there is a key left, nobody has run out of keys. -/
theorem supplied_of_left {m : Machine Buffered δ}
    (hdev : m.devices = .standard) {n : Nat}
    (hok : ∀ i < n, ∃ status m', step.run (m.stepped i) = .ok status m')
    (hleft : (m.stepped n).console.input ≠ []) : Supplied m n where
  succeeds := hok
  heard i hi hmem := by
    -- the queue is empty from there on
    refine hleft (?_ : (m.stepped n).console.input = [])
    induction hi with
    | refl => exact dry_step (devices_stepped hdev i) (.inr hmem)
    | @step n _ ih =>
        have hlater (i : Nat) (hi : i < n) := hok i (Nat.lt_succ_of_lt hi)
        refine dry_step (devices_stepped hdev n) (.inl ?_)
        exact Decidable.not_not.1 fun hne => hne (ih hlater hne)

-- =================================================================== a run

/-- Steps may be counted from the second one on. -/
theorem stepped_succ (m : Machine Buffered δ) (i : Nat) :
    m.stepped (i + 1) = (Console.after (step.run m)).stepped i := by
  induction i with
  | zero => rfl
  | succ i ih => exact congrArg (Console.after <| step.run ·) ih

/-- A run that halts does so after any number of further keys as well, if
it has not waited in vain for one. -/
theorem advance_typedAhead (limit : Nat) {m m' : Machine Buffered δ}
    (hdev : m.devices = .standard)
    (hhalt : advance limit m = (.halted, m'))
    (hheard : ∀ i, .polled none ∉ traffic step (m.stepped i))
    (e : List Byte) :
    advance limit (m.typedAhead e) = (.halted, m'.typedAhead e) := by
  induction limit generalizing m with
  | zero => cases hhalt
  | succ limit ih =>
      rw [advance] at hhalt ⊢
      cases hstep : step.run m with
      | error f m₁ =>
          rw [hstep] at hhalt
          cases hhalt
      | ok status m₁ =>
          have hdev₁ := devices_step hdev
          have hheard₁ (i : Nat) := hheard (i + 1)
          simp only [stepped_succ] at hheard₁
          rw [step_typedAhead hdev hstep (hheard 0) e]
          rw [hstep] at hhalt hdev₁ hheard₁
          cases status with
          | running => exact ih hdev₁ hhalt hheard₁
          | halted =>
              cases hhalt
              rfl

-- ============================================================== typing ahead

/-- The machine with further keys `e` in its queue, beside the machine
without. -/
structure TypeAhead (e : List Byte) (m : Machine Buffered δ) : Prop where
  /-- Steps that succeed without finding the queue empty have the same
  outcomes; all that differs is that the further keys are still there,
  behind those that are left. -/
  steps {n : Nat} (h : Supplied m n) {i : Nat} (hi : i < n) :
    step.run ((m.typedAhead e).stepped i)
      = mapState (typedAhead e) (step.run (m.stepped i))
  left {n : Nat} (h : Supplied m n) :
    (m.typedAhead e).stepped n = (m.stepped n).typedAhead e
  /-- That there is a key left after these steps is enough. -/
  spare {n : Nat}
    (hok : ∀ i < n, ∃ status m', step.run (m.stepped i) = .ok status m')
    (hleft : (m.stepped n).console.input ≠ []) : Supplied m n
  /-- A run that halts does so with the further keys, if no poll finds the
  queue empty, -/
  halts {m' : Machine Buffered δ} (hends : Ends m .halted m')
    (h : ∀ i, .polled none ∉ traffic step (m.start.stepped i)) :
    Ends (m.typedAhead e) .halted (m'.typedAhead e)
  /-- and above all if there is no poll. -/
  unpolled {m' : Machine Buffered δ} (hends : Ends m .halted m')
    (h : ∀ i answer, .polled answer ∉ traffic step (m.start.stepped i)) :
    Ends (m.typedAhead e) .halted (m'.typedAhead e)

/-- More keys behind those in the queue change nothing, for as long as
nobody has run out of keys. -/
theorem typing_ahead_unseen {m : Machine Buffered δ}
    (hdev : m.devices = .standard) (e : List Byte) : TypeAhead e m := by
  have hends {m' : Machine Buffered δ} (hends : Ends m .halted m')
      (h : ∀ i, .polled none ∉ traffic step (m.start.stepped i)) :
      Ends (m.typedAhead e) .halted (m'.typedAhead e) := by
    obtain ⟨hp, limit, hhalt⟩ := hends
    have hstart : m.start.devices = .standard := hdev
    exact ⟨hp, limit, advance_typedAhead limit hstart hhalt h e⟩
  constructor
  case steps =>
    intro n h i hi
    rw [h.stepped hdev e (Nat.le_of_lt hi)]
    exact h.step hdev e hi
  case left => exact fun h => h.stepped hdev e (Nat.le_refl _)
  case spare => exact fun hok hleft => supplied_of_left hdev hok hleft
  case halts => exact fun hhalt h => hends hhalt h
  case unpolled => exact fun hhalt h => hends hhalt fun i => h i none

/-- A program that polls for a key through a pointer, asks for another one
and halts, with one key to spare. -/
def supplied : Machine Buffered Empty :=
  (new { input := [0x41, 0x42, 0x43] }).load
    ⟨Core.entry, [0xa202, 0xf020, 0xf025, Keyboard.status]⟩

/-- Another key changes nothing and is left behind the spare one. -/
theorem typing_ahead_unseen_supplied :
    TypeAhead [0x44] supplied ∧ Supplied supplied 3
      ∧ ((supplied.typedAhead [0x44]).stepped 3).console.input
        = [0x43, 0x44]
      ∧ ((supplied.typedAhead [0x44]).stepped 3).core.reg 0 = 0x42
      ∧ ((supplied.typedAhead [0x44]).stepped 3).running = false := by
  have hmeets : ∀ i < 3, Meets (fun _ _ => True) (fun _ _ => False)
      (step.run (supplied.stepped i)) := by decide +kernel
  have hok (i : Nat) (hi : i < 3) :
      ∃ status m', step.run (supplied.stepped i) = .ok status m' := by
    obtain ⟨status, m', h, -⟩ := (hmeets i hi).ok_of_never
    exact ⟨status, m', h⟩
  have hleft : (supplied.stepped 3).console.input = [0x43] := by
    decide +kernel
  have h := typing_ahead_unseen (m := supplied) rfl [0x44]
  have hsupplied := h.spare hok (by rw [hleft]; exact List.cons_ne_nil _ _)
  refine ⟨h, hsupplied, ?_, ?_, ?_⟩
  · rw [h.left hsupplied]
    show (supplied.stepped 3).console.input ++ [0x44] = _
    rw [hleft]
    rfl
  · rw [h.left hsupplied]
    decide +kernel
  · rw [h.left hsupplied]
    decide +kernel

end Machine

end Lc3
