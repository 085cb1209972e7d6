/-
How a machine comes to a halt, and that it stays there. Its life begins
when it is switched on and goes on with the calls that a host makes:
single operations, loading, runs. Between calls the console is anybody's.

Of all that a host can do, only executing an instruction ever touches the
running of the machine, and of all instructions only a HALT whose flush
succeeds. So the machine stops once, in a place that can be told, and
what follows it is idle: a step says so and does nothing, a run ends at
once. Executing a word by itself works on a halted machine as well, and
does not start it again.
-/
import Lc3.Proofs.Machine.Runs
import Lc3.Machine.Operation
import Lc3.Console.Buffered

namespace Lc3.Machine

variable {κ δ : Type} [Console κ] [Peripheral δ]

-- =============================================================== the life

/-- What a host can ask of a machine. -/
inductive Call (δ : Type) where
  | operate (op : Operation δ)
  | loadEncoded (bytes : List Byte)
  | loadFrom (v : Volume) (path : String)
  | run
  | runAt (a : Word)

/-- A call returns, and the machine is left in this state, whether the
call succeeded or not. New devices are not among the calls. -/
inductive Returns (m : Machine κ δ) : Call δ → Machine κ δ → Prop where
  | operate {op : Operation δ} (hop : ∀ d addrs, op ≠ .attach d addrs) :
      Returns m (.operate op) (Console.after ((operate op).run m))
  | loadEncoded (bytes : List Byte) :
      Returns m (.loadEncoded bytes)
        ((m.loadEncoded bytes).toOption.getD m)
  | loadFrom (v : Volume) (path : String) :
      Returns m (.loadFrom v path)
        (Console.after ((loadFrom v path).run m))
  | run {p : Progress} {m' : Machine κ δ} (h : Ends m p m') :
      Returns m .run m'
  | runAt {a : Word} {p : Progress} {m' : Machine κ δ}
      (h : Ends { m with toBoard := m.toBoard.setPc a } p m') :
      Returns m (.runAt a) m'

/-- From one state to another by calls. The console is shared with the
host, who may do with it as he likes between them. -/
inductive Leads (m : Machine κ δ) : Machine κ δ → Prop where
  | refl : Leads m m
  | call {m₁ m₂ : Machine κ δ} {c : Call δ} (h : Leads m m₁)
      (hreturns : Returns m₁ c m₂) : Leads m m₂
  | shared {m₁ : Machine κ δ} (console : κ) (h : Leads m m₁) :
      Leads m { m₁ with console }

/-- The states in the life of a machine. -/
def Reachable (m : Machine κ δ) : Prop :=
  ∃ console journal, Leads (new console journal) m

/-- In the course of a call, the word is executed in this state. -/
inductive Executes (m : Machine κ δ) : Call δ → Word → Machine κ δ → Prop
  where
  | execute (w : Word) : Executes m (.operate (.execute w)) w m
  | step {w : Word} {m₁ : Machine κ δ} (hfetch : fetch.run m = .ok w m₁) :
      Executes m (.operate .step) w m₁
  | run {n : Nat} {m₁ m₂ : Machine κ δ} {w : Word}
      (hgoing : Going n m.start m₁) (hfetch : fetch.run m₁ = .ok w m₂) :
      Executes m .run w m₂
  | runAt {a : Word} {n : Nat} {m₁ m₂ : Machine κ δ} {w : Word}
      (hgoing : Going n (startAt a m) m₁)
      (hfetch : fetch.run m₁ = .ok w m₂) : Executes m (.runAt a) w m₂

/-- Executed in this state, the word is a HALT whose flush succeeds. -/
def HaltsAt (w : Word) (m : Machine κ δ) : Prop :=
  Instr.opcodeOf w = .trap ∧ w.low = 0x25
    ∧ ∃ console, (Console.call .flush).run m.console = .ok () console

-- ======================================================== where a halt is

omit [Console κ] [Peripheral δ] in
/-- A HALT has one opcode and one vector, and the four bits between them do
not matter. -/
theorem halts_decode {w : Word} (h : Halts (Instr.decode w)) :
    Instr.opcodeOf w = .trap ∧ w.low = 0x25 := by
  have hop : Instr.opcodeOf w = .trap := by
    rw [← Instr.opcode_decode, h]
    rfl
  have hdecode : Instr.decode w = .trap w.low := by
    unfold Instr.decode
    rw [hop]
  rw [hdecode] at h
  injection h with hlow
  exact ⟨hop, hlow⟩

/-- HALT flushes, and stops the machine if that went well. -/
theorem run_halt (m : Machine κ δ) :
    (routine .halt).run m =
      match (Console.call .flush).run m.console with
      | .ok () console => .ok .halted { m with console, running := false }
      | .error e console => .error (.console e) { m with console } := by
  unfold routine halt
  rw [EStateM.run_bind, EStateM.run_bind, run_call]
  cases (Console.call .flush).run m.console <;> rfl

/-- An instruction that says the machine has halted is a HALT, and its
flush has succeeded. -/
theorem haltsAt_of_execute {w : Word} {m m' : Machine κ δ}
    (hdev : m.devices = .standard)
    (h : (execute w).run m = .ok .halted m') :
    HaltsAt w m ∧ m'.running = false := by
  rcases (meets_execute w m hdev).of_ok h with
    ⟨-, hs, -⟩ | ⟨hhalts, -, hm'⟩
  · cases hs
  · obtain ⟨hop, hlow⟩ := halts_decode hhalts
    have hconsole : (m.called w .halt).console = m.console := rfl
    rw [run_execute_trap hhalts, run_halt, hconsole] at h
    refine ⟨⟨hop, hlow, ?_⟩, hm'.running⟩
    cases hflush : (Console.call .flush).run m.console with
    | ok x console => exact ⟨console, rfl⟩
    | error e console =>
        rw [hflush] at h
        cases h

/-- A step that halts a running machine has executed such a HALT. -/
theorem haltsAt_of_step {m m' : Machine κ δ} (hdev : m.devices = .standard)
    (hrun : m.running = true) (h : step.run m = .ok .halted m') :
    ∃ w m₁, fetch.run m = .ok w m₁ ∧ m₁.running = true ∧ HaltsAt w m₁ := by
  rw [run_step, if_pos hrun] at h
  cases hfetch : fetch.run m with
  | error f m₁ =>
      rw [hfetch] at h
      cases h
  | ok w m₁ =>
      have hm₁ := (meets_fetch m hdev).of_ok hfetch
      rw [hfetch] at h
      exact ⟨w, m₁, rfl, hm₁.running.trans hrun,
        (haltsAt_of_execute (hm₁.devices.trans hdev) h).1⟩

-- ======================================================= what a call does

/-- What a call does to the running of the machine: nothing, or it stops
it by a HALT that it executes. -/
structure MayHalt (m : Machine κ δ) (c : Call δ) (m' : Machine κ δ) :
    Prop where
  devices : m'.devices = .standard
  running : m'.running = m.running
    ∨ m'.running = false ∧ (m.running = true → ∃ w m₁,
        Executes m c w m₁ ∧ m₁.running = true ∧ HaltsAt w m₁)

/-- A call that does not touch the running of the machine does not halt
it. -/
theorem mayHalt_of_steady {m m' : Machine κ δ} {c : Call δ}
    (hdev : m.devices = .standard) (hdevices : m'.devices = m.devices)
    (hrunning : m'.running = m.running) : MayHalt m c m' :=
  ⟨hdevices.trans hdev, .inl hrunning⟩

/-- Executing a word stops the machine if it is a HALT whose flush succeeds,
and in no other case. -/
theorem mayHalt_execute (w : Word) {m : Machine κ δ}
    (hdev : m.devices = .standard) :
    MayHalt m (.operate (.execute w))
      (Console.after ((execute w).run m)) := by
  have hmeets := meets_execute w m hdev
  cases h : (execute w).run m with
  | error f m' =>
      rcases hmeets.of_error h with h' | ⟨-, h'⟩
      · exact mayHalt_of_steady hdev h'.devices h'.running
      · exact mayHalt_of_steady hdev h'.devices h'.running
  | ok status m' =>
      rcases hmeets.of_ok h with ⟨-, -, h'⟩ | ⟨-, rfl, h'⟩
      · exact mayHalt_of_steady hdev h'.devices h'.running
      · obtain ⟨hhalts, hstopped⟩ := haltsAt_of_execute hdev h
        exact ⟨h'.devices.trans hdev, .inr ⟨hstopped, fun hrun =>
          ⟨w, m, .execute w, hrun, hhalts⟩⟩⟩

/-- A step may stop the machine by the instruction it executes, and by
nothing before that. -/
theorem mayHalt_step {m : Machine κ δ} (hdev : m.devices = .standard) :
    MayHalt m (.operate .step) (Console.after (step.run m)) := by
  cases hrun : m.running with
  | false =>
      rw [run_step_stopped hrun]
      exact mayHalt_of_steady hdev rfl rfl
  | true =>
      have hmeets := meets_step hdev hrun
      cases h : step.run m with
      | error f m' =>
          obtain ⟨hdev', hrun'⟩ := hmeets.of_error h
          exact ⟨hdev', .inl (hrun'.trans hrun.symm)⟩
      | ok status m' =>
          obtain ⟨hdev', -, ⟨-, hrun'⟩ | ⟨rfl, hrun'⟩⟩ := hmeets.of_ok h
          · exact ⟨hdev', .inl (hrun'.trans hrun.symm)⟩
          · obtain ⟨w, m₁, hfetch, hrun₁, hhalts⟩ :=
              haltsAt_of_step hdev hrun h
            exact ⟨hdev', .inr ⟨hrun', fun _ =>
              ⟨w, m₁, .step hfetch, hrun₁, hhalts⟩⟩⟩

/-- What a host is told makes no difference. -/
theorem mayHalt_answer {α : Type} {p : Exec κ δ α} {f : α → Answer}
    {m : Machine κ δ} {c : Call δ}
    (h : MayHalt m c (Console.after (p.run m))) :
    MayHalt m c
      (Console.after ((do return f (← p) : Exec κ δ Answer).run m)) := by
  rw [after_map]
  exact h

/-- Only two operations have any part in the running of the machine. -/
theorem mayHalt_operate {op : Operation δ} {m : Machine κ δ}
    (hop : ∀ d addrs, op ≠ .attach d addrs) (hdev : m.devices = .standard) :
    MayHalt m (.operate op) (Console.after ((operate op).run m)) := by
  cases op with
  | attach d addrs => exact absurd rfl (hop d addrs)
  | execute w => exact mayHalt_answer (mayHalt_execute w hdev)
  | step => exact mayHalt_answer (mayHalt_step hdev)
  | read a =>
      have hpolled := (polled_read a hdev).after
      exact mayHalt_answer
        (mayHalt_of_steady hdev hpolled.devices hpolled.running)
  | write a w =>
      have hsteady := ((meets_write a w hdev).imp (fun _ _ => id)
        (fun _ _ => False.elim)).after
      exact mayHalt_answer
        (mayHalt_of_steady hdev hsteady.devices hsteady.running)
  | fetch =>
      have hsteady := (meets_fetch m hdev).after
      exact mayHalt_answer
        (mayHalt_of_steady hdev hsteady.devices hsteady.running)
  | load | getReg | setReg | setPc | setCond | countInstr | peek | poke =>
      exact mayHalt_of_steady hdev rfl rfl

/-- A run that is opened at `m₀` in the course of the call. -/
theorem mayHalt_run {m m₀ m' : Machine κ δ} {c : Call δ} {p : Progress}
    (hdev : m₀.devices = .standard) (hrunning : m₀.running = m.running)
    (hexec : ∀ {n m₁ w m₂}, Going n m₀.start m₁ →
      fetch.run m₁ = .ok w m₂ → Executes m c w m₂)
    (h : Ends m₀ p m') : MayHalt m c m' := by
  obtain ⟨hp, hlimit⟩ := h
  obtain ⟨n, m₁, hgoing, hstops⟩ := (advance_iff hp).1 hlimit
  cases hrun : m₀.running with
  | false =>
      -- the run is over with the step it begins with
      obtain ⟨-, rfl⟩ := hgoing.stopped hrun
      have hidle : step.run m₀.start = .ok .halted m₀.start :=
        run_step_stopped hrun
      cases hstops with
      | halted h =>
          rw [hidle] at h
          cases h
          exact ⟨hdev, .inl hrunning⟩
      | failed h =>
          rw [hidle] at h
          cases h
  | true =>
      obtain ⟨hdev₁, hrun₁, -⟩ := hgoing.counts hdev hrun
      have hmeets := meets_step hdev₁ hrun₁
      cases hstops with
      | failed h =>
          obtain ⟨hdev', hrun'⟩ := hmeets.of_error h
          exact ⟨hdev', .inl (hrun'.trans (hrun.symm.trans hrunning))⟩
      | halted h =>
          obtain ⟨hdev', -, ⟨hs, -⟩ | ⟨-, hrun'⟩⟩ := hmeets.of_ok h
          · cases hs
          · obtain ⟨w, m₃, hfetch, hrun₃, hhalts⟩ :=
              haltsAt_of_step hdev₁ hrun₁ h
            exact ⟨hdev', .inr ⟨hrun', fun _ =>
              ⟨w, m₃, hexec hgoing hfetch, hrun₃, hhalts⟩⟩⟩

/-- None of a host's calls stops the machine but by a HALT. -/
theorem Returns.mayHalt {m m' : Machine κ δ} {c : Call δ}
    (h : Returns m c m') (hdev : m.devices = .standard) :
    MayHalt m c m' := by
  cases h with
  | operate hop => exact mayHalt_operate hop hdev
  | loadEncoded bytes =>
      unfold Machine.loadEncoded
      cases Image.ofBytes bytes <;> exact mayHalt_of_steady hdev rfl rfl
  | loadFrom v path =>
      unfold Machine.loadFrom readImage
      cases Image.ofContents (v.read path) <;>
        exact mayHalt_of_steady hdev rfl rfl
  | run h => exact mayHalt_run hdev rfl .run h
  | @runAt a _ _ h =>
      have hdev' : { m with toBoard := m.toBoard.setPc a }.devices
          = .standard := hdev
      exact mayHalt_run hdev' rfl .runAt h

-- ============================================================== the cycle

/-- Nothing starts a machine again, and nothing is put on its bus. -/
theorem Leads.keeps {m m' : Machine κ δ} (h : Leads m m')
    (hdev : m.devices = .standard) :
    m'.devices = .standard ∧ (m.running = false → m'.running = false) := by
  induction h with
  | refl => exact ⟨hdev, id⟩
  | call _ hreturns ih =>
      obtain ⟨hdev₁, hstays⟩ := ih
      have hcall := hreturns.mayHalt hdev₁
      refine ⟨hcall.devices, fun hrun => ?_⟩
      rcases hcall.running with heq | ⟨hfalse, -⟩
      · exact heq.trans (hstays hrun)
      · exact hfalse
  | shared console _ ih => exact ih

/-- All its life a machine has the keyboard alone. -/
theorem Reachable.devices {m : Machine κ δ} (h : Reachable m) :
    m.devices = .standard := by
  obtain ⟨console, journal, h⟩ := h
  exact (h.keeps rfl).1

/-- A step tells that the machine has halted just in case it leaves it
stopped, whether it has stopped it or found it so. -/
theorem step_tells {m : Machine κ δ} (hdev : m.devices = .standard) :
    (∃ m', step.run m = .ok .halted m')
      ↔ (Console.after (step.run m)).running = false := by
  cases hrun : m.running with
  | false =>
      rw [run_step_stopped hrun]
      exact ⟨fun _ => hrun, fun _ => ⟨m, rfl⟩⟩
  | true =>
      have hmeets := meets_step hdev hrun
      cases h : step.run m with
      | error f m' =>
          have hrun' : m'.running = true := (hmeets.of_error h).2
          simp [Console.after, hrun']
      | ok status m' =>
          obtain ⟨-, -, ⟨rfl, hrun'⟩ | ⟨rfl, hrun'⟩⟩ := hmeets.of_ok h
          · simp [Console.after, hrun']
          · simp [Console.after, hrun']

/-- How a machine runs and halts. -/
structure LifeCycle (m : Machine κ δ) : Prop where
  /-- Once halted, it stays so, whatever is done to it. -/
  stays : ∀ m', Leads m m' → m.running = false → m'.running = false
  /-- A call that halts it executes a HALT whose flush succeeds. -/
  halts : ∀ c m', Returns m c m' → m.running = true →
    m'.running = false →
    ∃ w m₁, Executes m c w m₁ ∧ m₁.running = true ∧ HaltsAt w m₁
  /-- A step says that the machine has halted just in case it is not
  running after the step. -/
  tells : (∃ m', step.run m = .ok .halted m')
    ↔ (Console.after (step.run m)).running = false
  /-- A step of a halted machine is no step at all. -/
  idle : m.running = false → step.run m = .ok .halted m
  /-- A run halts if some number of steps go on and the next one
  halts. -/
  halted_iff : (∃ m', Ends m .halted m') ↔ ∃ n m₂, HaltsIn n m m₂
  /-- It leaves what these steps leave. -/
  leaves : ∀ n m₂ m', HaltsIn n m m₂ → Ends m .halted m' → Alike m₂ m'
  /-- And it counts them, if there was anything to run. -/
  counts : ∀ n m₂ m', HaltsIn n m m₂ → Ends m .halted m' →
    m'.core.executed = m.core.executed + if m.running then n + 1 else 0
  /-- A run fails if some number of steps go on and the next one fails,
  and it fails as that one does. -/
  failed_iff : ∀ f,
    (∃ m', Ends m (.failed f) m') ↔ ∃ n m₂, FailsIn n f m m₂

/-- A machine that was switched on runs until a HALT of its own stops it,
and then stays where it is. Each part follows from what a single call may do
to the running of the machine. -/
theorem life_cycle {m : Machine κ δ} (h : Reachable m) : LifeCycle m where
  stays _ hleads := (hleads.keeps h.devices).2
  halts c m' hreturns hrun hstopped := by
    rcases (hreturns.mayHalt h.devices).running with heq | ⟨-, hhalt⟩
    · rw [hrun, hstopped] at heq
      cases heq
    · exact hhalt hrun
  tells := step_tells h.devices
  idle := run_step_stopped
  halted_iff := ends_halted_iff h.devices
  leaves _ _ _ hhalts hends := hhalts.alike h.devices hends
  counts n m₂ m' hhalts hends := by
    rw [← hhalts.counts h.devices, (hhalts.alike h.devices hends).core]
  failed_iff := ends_failed_iff h.devices

/-- A machine switched on, with a HALT where it begins. -/
def shortLived : Machine Buffered Empty :=
  Console.after ((operate (.poke Core.entry 0xf025)).run (new {}))

/-- A machine with nothing but a HALT in it. -/
theorem life_cycle_shortLived :
    Reachable shortLived ∧ LifeCycle shortLived := by
  have hpoke : Returns (new {}) (.operate (.poke Core.entry 0xf025))
      shortLived := .operate nofun
  have h : Reachable shortLived := ⟨{}, {}, .call .refl hpoke⟩
  exact ⟨h, life_cycle h⟩

end Lc3.Machine
