/-
What a trap changes of the machine that executes it. The count goes up by
one, and apart from that there are three things only: R0 gets the key that
a routine waited for, HALT stops the machine, and a string routine that
comes upon the keyboard's status disturbs the two cells of the keyboard.

Of each it is said as well what must have happened for it. R0 changes
after a dialogue with the console in which every call was answered, echo
and flush included. The machine stops after a flush that was answered.
And the cells change only if the loop of a string routine reads the
keyboard's status, which is a matter of the words and of the console on
the way there (`Reaches`), and of no limit: the way is at most once round
memory.

It makes no difference whether the trap succeeds or fails, and where, and
no console is assumed to behave. A vector that names no routine has
nothing to say to the console at all.
-/
import Lc3.Proofs.Console.Dialogue
import Lc3.Proofs.Machine.Secluded
import Lc3.Proofs.Machine.Strings

namespace Lc3.Machine

open Console (Dialogue Exchange writes)

variable {κ δ : Type}

-- ================================================== what every trap keeps

/-- Nothing differs but the console, the journal, the count, R0, the
keyboard's cells, and whether the machine runs. -/
structure FrameKept (m m' : Machine κ δ) : Prop where
  pc : m'.core.pc = m.core.pc
  cond : m'.core.cond = m.core.cond
  regs : ∀ r, r ≠ 0 → m'.core.reg r = m.core.reg r
  mem : ∀ a, a ≠ Keyboard.status → a ≠ Keyboard.data →
    m'.core.peek a = m.core.peek a
  executed : m'.core.executed = m.core.executed
  devices : m'.devices = m.devices

/-- A poll disturbs nothing but what a trap may disturb. -/
theorem Polled.frameKept {m m' : Machine κ δ} (h : Polled m m') :
    FrameKept m m' where
  pc := h.pc
  cond := h.cond
  regs r _ := congrArg (·.get r) h.regs
  mem := h.mem
  executed := h.executed
  devices := h.devices

theorem reg_withKey {r : Reg} (hr : r ≠ 0) (key : Byte)
    (m : Machine κ δ) : (m.withKey key).core.reg r = m.core.reg r :=
  Bank.get_set_of_ne m.core.regs (Word.ofByte key) (Ne.symm hr)

theorem reg_zero_withKey (key : Byte) (m : Machine κ δ) :
    (m.withKey key).core.reg 0 = Word.ofByte key :=
  Bank.get_set_self m.core.regs 0 (Word.ofByte key)

-- ==================================================== waiting for a key

/-- A routine that waits for a key, with what it says to the console to
get it and to acknowledge it. -/
inductive Asks : TrapRoutine → (Byte → List Exchange) → Prop where
  | getc : Asks .getc fun key => [⟨.read, key⟩]
  | input : Asks .input fun key =>
      writes prompt
        ++ [⟨.flush, ()⟩, ⟨.read, key⟩, ⟨.write key, ()⟩, ⟨.flush, ()⟩]

section Calls

variable [Console κ]

/-- A call goes on where it was answered, with the console that it
left. -/
theorem run_call_bind_ok_iff {α : Type} {c : Console.Call}
    {f : c.Answer → Exec κ δ α} {y : α} {m m' : Machine κ δ} :
    (call c >>= f).run m = .ok y m' ↔
      ∃ x s, (Console.call c).run m.console = .ok x s
        ∧ (f x).run { m with console := s } = .ok y m' := by
  rw [EStateM.run_bind, run_call]
  cases (Console.call c).run m.console with
  | error e s => simp
  | ok x s => simp [and_assoc]

/-- A text that was written is a dialogue of writes, and what follows it
starts from there. -/
theorem run_say_bind_ok_iff {α : Type} {bytes : List Byte}
    {f : Unit → Exec κ δ α} {y : α} {m m' : Machine κ δ} :
    (say bytes >>= f).run m = .ok y m' ↔
      ∃ s, Dialogue m.console (writes bytes) s
        ∧ (f ()).run { m with console := s } = .ok y m' := by
  rw [EStateM.run_bind, run_say]
  simp only [← Console.writeAll_ok_iff]
  cases (Console.writeAll bytes).run m.console with
  | error e s => simp
  | ok x s => simp

/-- GETC succeeds where its one call is answered. -/
theorem run_getc_ok_iff {m m' : Machine κ δ} :
    getc.run m = .ok () m' ↔
      ∃ key s, Dialogue m.console [⟨.read, key⟩] s
        ∧ m' = { m.withKey key with console := s } := by
  constructor
  · intro h
    obtain ⟨key, s, hread, hset⟩ := run_call_bind_ok_iff.1 h
    cases hset
    exact ⟨key, s, .answered hread (.over s), rfl⟩
  · rintro ⟨key, s, htalk, rfl⟩
    cases htalk with
    | answered hread rest =>
        cases rest
        exact run_call_bind_ok_iff.2 ⟨key, s, hread, rfl⟩

/-- IN succeeds where all its calls are answered, those behind the key no
less than those before. -/
theorem run_input_ok_iff {m m' : Machine κ δ} :
    input.run m = .ok () m' ↔
      ∃ key s, Dialogue m.console
          (writes prompt
            ++ [⟨.flush, ()⟩, ⟨.read, key⟩, ⟨.write key, ()⟩, ⟨.flush, ()⟩])
          s
        ∧ m' = { m.withKey key with console := s } := by
  constructor
  · -- call by call, and back the same way
    intro h
    obtain ⟨s₁, hprompt, h⟩ := run_say_bind_ok_iff.1 h
    obtain ⟨_, s₂, hshown, h⟩ := run_call_bind_ok_iff.1 h
    obtain ⟨key, s₃, hread, h⟩ := run_call_bind_ok_iff.1 h
    obtain ⟨_, s₄, hecho, h⟩ := run_call_bind_ok_iff.1 h
    obtain ⟨_, s₅, hflush, h⟩ := run_call_bind_ok_iff.1 h
    cases h
    refine ⟨key, s₅, Console.dialogue_append.2 ⟨s₁, hprompt, ?_⟩, rfl⟩
    exact .answered hshown <| .answered hread <| .answered hecho <|
      .answered hflush <| .over s₅
  · rintro ⟨key, s, htalk, rfl⟩
    simp only [Console.dialogue_append, Console.dialogue_cons,
      Console.dialogue_nil] at htalk
    obtain ⟨s₁, hprompt, s₂, hshown, s₃, hread, s₄, hecho, s₅, hflush, rfl⟩
      := htalk
    refine run_say_bind_ok_iff.2 ⟨s₁, hprompt, ?_⟩
    refine run_call_bind_ok_iff.2 ⟨(), s₂, hshown, ?_⟩
    refine run_call_bind_ok_iff.2 ⟨key, s₃, hread, ?_⟩
    refine run_call_bind_ok_iff.2 ⟨(), s₄, hecho, ?_⟩
    exact run_call_bind_ok_iff.2 ⟨(), s, hflush, rfl⟩

omit [Console κ] in
/-- An act that succeeds is an instruction that succeeds. -/
theorem run_proceed_ok_iff {p : Exec κ δ Unit} {status : Status}
    {m m' : Machine κ δ} :
    (proceed p).run m = .ok status m' ↔
      status = .running ∧ p.run m = .ok () m' := by
  rw [run_proceed]
  cases p.run m with
  | ok x m₁ => simp [eq_comm]
  | error f m₁ => simp

variable [Peripheral δ]

/-- A routine that waits for a key has it in R0 where every call that it
makes is answered, and nowhere else has it come to its end. -/
theorem run_asks_ok_iff {t : TrapRoutine} {talk : Byte → List Exchange}
    (ht : Asks t talk) {status : Status} {m m' : Machine κ δ} :
    (routine t).run m = .ok status m' ↔
      status = .running ∧ ∃ key s, Dialogue m.console (talk key) s
        ∧ m' = { m.withKey key with console := s } := by
  cases ht with
  | getc => exact run_proceed_ok_iff.trans (and_congr_right' run_getc_ok_iff)
  | input => exact run_proceed_ok_iff.trans (and_congr_right' run_input_ok_iff)

end Calls

-- ===================================================== coming to an address

variable [Console κ] [Peripheral δ]

/-- The loop of a string routine, from the address `a` on, comes to read
the address `b`: no word before is zero, and the bytes of all of them are
written. -/
inductive Reaches (bytes : Word → List Byte) (b : Word) :
    (a : Word) → (m : Machine κ δ) → Prop where
  | here {m} : Reaches bytes b b m
  | further {a m w m' m''} (hread : (read a).run m = .ok w m')
      (hw : w ≠ 0) (hsay : (say (bytes w)).run m' = .ok () m'')
      (rest : Reaches bytes b (a + 1) m'') : Reaches bytes b a m

/-- A loop that does not come to the keyboard's status changes nothing in
memory. -/
theorem meets_walk_unreached (bytes : Word → List Byte) (limit : Nat)
    {a : Word} {m : Machine κ δ} (hdev : m.devices = .standard)
    (h : ¬ Reaches bytes Keyboard.status a m) :
    Meets (fun _ m' => m'.core.mem = m.core.mem)
      (fun _ m' => m'.core.mem = m.core.mem)
      ((walk bytes limit a).run m) := by
  induction limit generalizing a m with
  | zero => exact rfl
  | succ limit ih =>
      -- the walk is here, so here is not the status
      have ha : a ≠ Keyboard.status := by
        rintro rfl
        exact h .here
      have hread := run_read_of_ne hdev ha
      rw [run_walk_succ, hread]
      dsimp only
      by_cases hw : m.core.peek a = 0
      · rw [if_pos hw]
        exact rfl
      rw [if_neg hw]
      have hquiet := quiet_say (bytes (m.core.peek a)) m
      cases hsay : (say (bytes (m.core.peek a))).run m with
      | error f m₁ =>
          exact congrArg Core.mem (hquiet.of_error hsay).core
      | ok x m₁ =>
          have hsaid := hquiet.of_ok hsay
          have hdev₁ : m₁.devices = .standard := hsaid.devices.trans hdev
          have hmem : m₁.core.mem = m.core.mem :=
            congrArg Core.mem hsaid.core
          -- what the rest would come to, this walk would
          have hrest : ¬ Reaches bytes Keyboard.status (a + 1) m₁ :=
            fun hrest => h (.further hread hw hsay hrest)
          exact (ih hdev₁ hrest).imp (fun _ _ h => h.trans hmem)
            fun _ _ h => h.trans hmem

/-- So a routine that changes memory has come there. -/
theorem meets_putString_reaches (bytes : Word → List Byte)
    {m : Machine κ δ} (hdev : m.devices = .standard) :
    Meets
      (fun _ m' => m'.core.mem ≠ m.core.mem →
        Reaches bytes Keyboard.status (m.core.reg 0) m)
      (fun _ m' => m'.core.mem ≠ m.core.mem →
        Reaches bytes Keyboard.status (m.core.reg 0) m)
      ((putString bytes).run m) := by
  by_cases h : Reaches bytes Keyboard.status (m.core.reg 0) m
  · exact .of_after fun _ => h
  · have hloop := meets_walk_unreached bytes (walkLimit m) hdev h
    rw [run_putString]
    refine (hloop.imp (fun _ _ => id) fun _ _ => absurd).bind ?_
    intro _ m₁ h₁
    have hmem {m' : Machine κ δ} (hflush : Untouched m₁ m') :
        m'.core.mem = m.core.mem :=
      (congrArg Core.mem hflush.core).trans h₁
    exact (quiet_call .flush m₁).imp (fun _ _ hflush => absurd (hmem hflush))
      fun _ _ hflush => absurd (hmem hflush)

-- ============================================================ each routine

/-- What a routine changes, and what has happened if it does. -/
structure RoutineFrame (t : TrapRoutine) (m m' : Machine κ δ) : Prop
    extends FrameKept m m' where
  key : m'.core.reg 0 ≠ m.core.reg 0 →
    ∃ talk key, Asks t talk ∧ Dialogue m.console (talk key) m'.console
      ∧ m'.core.reg 0 = Word.ofByte key
  running : m'.running ≠ m.running →
    t = .halt ∧ Dialogue m.console [⟨.flush, ()⟩] m'.console
  cells : m'.core.mem ≠ m.core.mem →
    ∃ bytes, PutsOut t bytes
      ∧ Reaches bytes Keyboard.status (m.core.reg 0) m

/-- Who changes nothing has nothing to answer for. -/
theorem Untouched.routineFrame {m m' : Machine κ δ} (h : Untouched m m')
    (t : TrapRoutine) : RoutineFrame t m m' where
  toFrameKept := h.polled.frameKept
  key hne := absurd (congrArg (·.reg 0) h.core) hne
  running hne := absurd h.running hne
  cells hne := absurd (congrArg Core.mem h.core) hne

/-- A routine that waits for a key and has got it. -/
theorem routineFrame_withKey {t : TrapRoutine}
    {talk : Byte → List Exchange} (ht : Asks t talk) {key : Byte} {s : κ}
    {m : Machine κ δ} (h : Dialogue m.console (talk key) s) :
    RoutineFrame t m { m.withKey key with console := s } where
  pc := rfl
  cond := rfl
  regs _ hr := reg_withKey hr key m
  mem _ _ _ := rfl
  executed := rfl
  devices := rfl
  key _ := ⟨talk, key, ht, h, reg_zero_withKey key m⟩
  running hne := absurd rfl hne
  cells hne := absurd rfl hne

/-- A routine that waits for a key has put it into R0 if all of its calls
were answered; otherwise R0 is as it was. -/
theorem meets_asks {t : TrapRoutine} {talk : Byte → List Exchange}
    (ht : Asks t talk) (m : Machine κ δ) (hdev : m.devices = .standard) :
    Meets (fun _ => RoutineFrame t m) (fun _ => RoutineFrame t m)
      ((routine t).run m) := by
  cases hrun : (routine t).run m with
  | error f m' =>
      have hgave := (meets_routine t m hdev).of_error hrun
      cases ht <;> exact Untouched.routineFrame hgave _
  | ok status m' =>
      obtain ⟨-, key, s, htalk, rfl⟩ := (run_asks_ok_iff ht).1 hrun
      exact routineFrame_withKey ht htalk

/-- A routine that puts out a string has disturbed the keyboard's cells only
if its loop has come upon the status. -/
theorem meets_putsOut {t : TrapRoutine} {bytes : Word → List Byte}
    (ht : PutsOut t bytes) (m : Machine κ δ)
    (hdev : m.devices = .standard) :
    Meets (fun _ => RoutineFrame t m) (fun _ => RoutineFrame t m)
      ((routine t).run m) := by
  have hroutine : (routine t : Exec κ δ Status)
      = proceed (putString bytes) := by
    cases ht <;> rfl
  have hframe {m' : Machine κ δ} (hpolled : Polled m m')
      (hmem : m'.core.mem ≠ m.core.mem →
        Reaches bytes Keyboard.status (m.core.reg 0) m) :
      RoutineFrame t m m' :=
    { hpolled.frameKept with
      key := fun hne => absurd (congrArg (·.get 0) hpolled.regs) hne
      running := fun hne => absurd hpolled.running hne
      cells := fun hne => ⟨bytes, ht, hmem hne⟩ }
  have hboth := (meets_putString bytes m hdev).and
    (meets_putString_reaches bytes hdev)
  rw [hroutine]
  exact meets_proceed_state <|
    hboth.imp (fun _ _ h => hframe h.1 h.2) fun _ _ h => hframe h.1 h.2

/-- HALT has stopped the machine only if its flush was answered. -/
theorem meets_halting (m : Machine κ δ) :
    Meets (fun _ => RoutineFrame .halt m) (fun _ => RoutineFrame .halt m)
      (halt.run m) := by
  have huntouched (s : κ) : Untouched m { m with console := s } :=
    ⟨rfl, rfl, rfl⟩
  rw [halt, EStateM.run_bind, run_call]
  cases hflush : (Console.call .flush).run m.console with
  | error e s => exact (huntouched s).routineFrame .halt
  | ok x s =>
      exact { (huntouched s).polled.frameKept with
        key := absurd rfl
        running := fun _ => ⟨rfl, .answered hflush (.over s)⟩
        cells := absurd rfl }

/-- Each of the six changes only what it may, and has done for it what must
be done. -/
theorem meets_routineFrame (t : TrapRoutine) (m : Machine κ δ)
    (hdev : m.devices = .standard) :
    Meets (fun _ => RoutineFrame t m) (fun _ => RoutineFrame t m)
      ((routine t).run m) := by
  cases t with
  | getc => exact meets_asks .getc m hdev
  | input => exact meets_asks .input m hdev
  | puts => exact meets_putsOut .puts m hdev
  | putsp => exact meets_putsOut .putsp m hdev
  | halt => exact (meets_halting m).bind fun _ _ => id
  | out =>
      exact meets_proceed_state <|
        (meets_out m).imp (fun _ _ h => h.routineFrame .out)
          fun _ _ h => h.routineFrame .out

-- =============================================================== every trap

/-- What executing the word `w`, a TRAP with the vector `v`, leaves of the
machine `m` as it was when it has come to `m'`. -/
structure TrapFrame (w : Word) (v : Byte) (m m' : Machine κ δ) :
    Prop where
  pc : m'.core.pc = m.core.pc
  cond : m'.core.cond = m.core.cond
  executed : m'.core.executed = m.core.executed + 1
  devices : m'.devices = m.devices
  regs : ∀ r, r ≠ 0 → m'.core.reg r = m.core.reg r
  /-- R0 only after all has been said, and then it is the key. -/
  key : m'.core.reg 0 ≠ m.core.reg 0 →
    ∃ t talk key, v = t.vector ∧ Asks t talk
      ∧ Dialogue m.console (talk key) m'.console
      ∧ m'.core.reg 0 = Word.ofByte key
  /-- HALT alone stops the machine, and not before its flush. -/
  running : m'.running ≠ m.running →
    v = TrapRoutine.halt.vector
      ∧ Dialogue m.console [⟨.flush, ()⟩] m'.console
  /-- Of memory only the keyboard's cells, and only if they are reached. -/
  cells : ∀ a, m'.core.peek a ≠ m.core.peek a →
    (a = Keyboard.status ∨ a = Keyboard.data)
      ∧ ∃ t bytes, v = t.vector ∧ PutsOut t bytes
        ∧ Reaches bytes Keyboard.status (m.core.reg 0) (m.called w t)

/-- The trap routine finds the machine as it was, but for the count. -/
theorem RoutineFrame.trapFrame {w : Word} {t : TrapRoutine}
    {m m' : Machine κ δ} (h : RoutineFrame t (m.called w t) m') :
    TrapFrame w t.vector m m' where
  pc := h.pc
  cond := h.cond
  executed := h.executed
  devices := h.devices
  regs := h.regs
  key hne := by
    obtain ⟨talk, key, ht, htalk, hreg⟩ := h.key hne
    exact ⟨t, talk, key, rfl, ht, htalk, hreg⟩
  running hne := by
    obtain ⟨rfl, hflush⟩ := h.running hne
    exact ⟨rfl, hflush⟩
  cells a hne := by
    -- a cell that differs is a memory that does
    have hmem : m'.core.mem ≠ m.core.mem :=
      fun hmem => hne (congrArg (·.get a) hmem)
    obtain ⟨bytes, ht, hreaches⟩ := h.cells hmem
    refine ⟨?_, t, bytes, rfl, ht, hreaches⟩
    by_cases hstatus : a = Keyboard.status
    · exact .inl hstatus
    · by_cases hdata : a = Keyboard.data
      · exact .inr hdata
      · exact absurd (h.mem a hstatus hdata) hne

/-- The machine with a vector on record that names no routine. -/
def unrouted (w : Word) (v : Byte) (m : Machine κ δ) : Machine κ δ :=
  { m with toBoard := (m.counted w).toBoard.note (.trapUnknown v) }

/-- A vector without a routine is noted, and nothing is asked of the
console. -/
theorem run_execute_unrouted {w : Word} {v : Byte}
    (hw : Instr.decode w = .trap v) (hv : TrapRoutine.ofVector? v = none)
    (m : Machine κ δ) :
    (execute w).run m = .ok .running (m.unrouted w v) := by
  rw [run_execute, hw]
  show (trap v).run _ = _
  unfold trap
  rw [hv]
  rfl

/-- So nothing else is different after it. -/
theorem trapFrame_unrouted (w : Word) (v : Byte) (m : Machine κ δ) :
    TrapFrame w v m (m.unrouted w v) where
  pc := rfl
  cond := rfl
  executed := rfl
  devices := rfl
  regs _ _ := rfl
  key := absurd rfl
  running := absurd rfl
  cells _ := absurd rfl

/-- A trap does what its routine does, or nothing at all. -/
theorem trapFrame_execute {w : Word} {v : Byte}
    (hw : Instr.decode w = .trap v) {m : Machine κ δ}
    (hdev : m.devices = .standard) :
    TrapFrame w v m (Console.after ((execute w).run m)) := by
  cases hv : TrapRoutine.ofVector? v with
  | none =>
      rw [run_execute_unrouted hw hv]
      exact trapFrame_unrouted w v m
  | some t =>
      obtain rfl := vector_of_ofVector? hv
      rw [run_execute_trap hw]
      exact (meets_routineFrame t (m.called w t) hdev).after.trapFrame

/-- A trap, whatever its vector and whatever the console does, changes
nothing of a machine with the keyboard alone but what its frame leaves
open. A routine that waits for a key, and is answered whenever it calls,
has the key in R0. A vector that names no routine does nothing at all, and
calls nobody. -/
theorem trap_keeps_frame {w : Word} {v : Byte}
    (hw : Instr.decode w = .trap v) {m : Machine κ δ}
    (hdev : m.devices = .standard) :
    TrapFrame w v m (Console.after ((execute w).run m))
      ∧ (∀ t talk key s, v = t.vector → Asks t talk →
          Dialogue m.console (talk key) s →
            (execute w).run m = .ok .running
              { (m.called w t).withKey key with console := s })
      ∧ (v < 0x20 ∨ 0x25 < v →
          (execute w).run m = .ok .running (m.unrouted w v)
            ∧ (Console.after ((execute w).run m.tapped)).console.calls
              = #[]) := by
  refine ⟨trapFrame_execute hw hdev, ?_, ?_⟩
  · rintro t talk key s rfl ht htalk
    rw [run_execute_trap hw]
    exact (run_asks_ok_iff ht).2 ⟨rfl, key, s, htalk, rfl⟩
  · intro hv
    have hnone := TrapRoutine.ofVector?_eq_none hv
    refine ⟨run_execute_unrouted hw hnone m, ?_⟩
    rw [run_execute_unrouted hw hnone m.tapped]
    rfl

/-- A string that goes on up to the keyboard's status, where a key is
waiting. -/
def overrunning : Machine Buffered Empty :=
  let m := Machine.new { input := [0x6b] }
  { m with
    toBoard := (m.toBoard.poke 0xfdff 0x41).setReg 0 0xfdff }

/-- The key is in the data register though no instruction asked for it, and
the loop has got to the status by then. -/
theorem trap_keeps_frame_overrunning :
    Instr.decode 0xf022 = .trap TrapRoutine.puts.vector
      ∧ overrunning.devices = .standard
      ∧ TrapFrame 0xf022 TrapRoutine.puts.vector overrunning
          (Console.after ((execute 0xf022).run overrunning))
      ∧ (Console.after
          ((execute 0xf022).run overrunning)).core.peek Keyboard.data = 0x6b
      ∧ Reaches single Keyboard.status 0xfdff
          (overrunning.called 0xf022 .puts) := by
  have hputs : Instr.decode 0xf022 = .trap TrapRoutine.puts.vector := rfl
  have hframe := (trap_keeps_frame hputs (m := overrunning) rfl).1
  have hkey : (Console.after
      ((execute 0xf022).run overrunning)).core.peek Keyboard.data
        = 0x6b := by
    decide +kernel
  have hbefore : overrunning.core.peek Keyboard.data = 0 := by
    decide +kernel
  have hchanged : (Console.after
      ((execute 0xf022).run overrunning)).core.peek Keyboard.data
        ≠ overrunning.core.peek Keyboard.data := by
    rw [hkey, hbefore]
    decide
  obtain ⟨-, t, bytes, ht, hputsOut, hreaches⟩ :=
    hframe.cells Keyboard.data hchanged
  refine ⟨hputs, rfl, hframe, hkey, ?_⟩
  cases hputsOut with
  | puts => exact hreaches
  | putsp => exact absurd ht (by decide)

end Lc3.Machine
