/-
The string routines end. Their loop has no bound of its own: it reads
word after word, wrapping at the top of memory, until it reads zero, and
memory need not hold a zero. What ends it is the keyboard. Every round of
memory passes its status, and a read there takes one key that was
waiting, or answers zero.

# The loop without a limit

`walk` carries a limit, so that it is a function whatever the console
does. `Walks` is the loop as the routines mean it, with no limit: one
rule for each way in which a turn of it goes, and a count of the words
read and of the polls among them. A derivation is a run of the loop that
came to its end.

# The measure

A turn that goes on lowers what is `ahead`: the keys that polls can still
bring, each worth a round of memory, and the cells from the current
address up to the status. Away from the status there is one cell less to
go; at the status the way starts over, and one key is gone. So the limit
that `walk` is given is never reached, and the counts are at most what
was ahead (`walk_ends`).
-/
import Lc3.Proofs.Machine.Routines
import Lc3.Console.Buffered

namespace Lc3.Machine

open EStateM (Result)

variable {κ δ : Type} [Console κ]

-- ============================================================ the measure

/-- How many cells further up the keyboard's status is. -/
def distance (a : Word) : Nat := (Keyboard.status - a).toNat

/-- Away from the status, the next cell is nearer to it by one; wrapping at
the top of memory is no exception. -/
theorem distance_succ {a : Word} (ha : a ≠ Keyboard.status) :
    distance (a + 1) + 1 = distance a := by
  unfold distance Keyboard.status at *
  bv_omega

/-- What the loop has left to go through at `a`: the keys to come, each
worth a round of memory, and the way up to the status. -/
def ahead (a : Word) (m : Machine κ δ) : Nat :=
  65536 * Console.pending m.console + distance a

/-- No loop has more ahead of it than the routines allow for. -/
theorem ahead_lt_walkLimit (a : Word) (m : Machine κ δ) :
    ahead a m < walkLimit m := by
  have hdistance : distance a < 65536 := BitVec.isLt _
  unfold ahead walkLimit
  omega

-- =========================================================== keys to come

/-- Writing brings no keys, and by the law of the console it lets none
come. -/
theorem pending_writeAll [LawfulConsole κ] (bytes : List Byte) (s : κ) :
    Console.pending (Console.after ((Console.writeAll bytes).run s))
      ≤ Console.pending s := by
  induction bytes generalizing s with
  | nil => exact Nat.le_refl _
  | cons b bs ih =>
      have hcall := LawfulConsole.pending_call (.write b) s
      rw [Console.writeAll, EStateM.run_bind]
      revert hcall
      cases (Console.call (.write b)).run s with
      | error e s' => exact id
      | ok x s' => exact Nat.le_trans (ih s')

/-- The same on a machine. -/
theorem pending_say [LawfulConsole κ] {bytes : List Byte}
    {m m' : Machine κ δ} (h : (say bytes).run m = .ok () m') :
    Console.pending m'.console ≤ Console.pending m.console := by
  have hwritten := pending_writeAll bytes m.console
  rw [run_say] at h
  revert h hwritten
  cases (Console.writeAll bytes).run m.console with
  | error e console => exact fun h => nomatch h
  | ok x console =>
      intro h hwritten
      cases h
      exact hwritten

-- ============================================================= the flush

/-- How a routine goes on when its loop has come to an outcome. -/
def flushed : Result Failure (Machine κ δ) Unit →
    Result Failure (Machine κ δ) Status
  | .ok () m => (proceed (call .flush)).run m
  | .error f m => .error f m

/-- A loop that has come to its end is flushed behind, and one that failed
is not. -/
theorem run_proceed_flush (p : Exec κ δ Unit) (m : Machine κ δ) :
    (proceed (do p; call .flush)).run m = flushed (p.run m) := by
  rw [run_proceed, EStateM.run_bind]
  cases p.run m with
  | ok x m' => exact (run_proceed _ m').symm
  | error f m' => rfl

variable [Peripheral δ]

-- =============================================================== the loop

/-- One if the address is polled when read. -/
def pollsAt (a : Word) : Nat := if a = Keyboard.status then 1 else 0

/-- The loop of a string routine, from the address `a` on: it reads that
many words, that many of them at the keyboard's status, and comes to the
outcome `r`. -/
inductive Walks (bytes : Word → List Byte) :
    (a : Word) → (m : Machine κ δ) → (reads polls : Nat) →
      (r : Result Failure (Machine κ δ) Unit) → Prop where
  | unread {a m f m'} (hread : (read a).run m = .error f m') :
      Walks bytes a m 1 (pollsAt a) (.error f m')
  | ended {a m m'} (hread : (read a).run m = .ok 0 m') :
      Walks bytes a m 1 (pollsAt a) (.ok () m')
  | unsaid {a m w m' f m''} (hread : (read a).run m = .ok w m')
      (hw : w ≠ 0) (hsay : (say (bytes w)).run m' = .error f m'') :
      Walks bytes a m 1 (pollsAt a) (.error f m'')
  | further {a m w m' m'' reads polls r}
      (hread : (read a).run m = .ok w m') (hw : w ≠ 0)
      (hsay : (say (bytes w)).run m' = .ok () m'')
      (rest : Walks bytes (a + 1) m'' reads polls r) :
      Walks bytes a m (reads + 1) (polls + pollsAt a) r

/-- One turn: a word is read, and unless it is zero, it is put out and the
loop goes on one address further up. -/
theorem run_walk_succ (bytes : Word → List Byte) (limit : Nat) (a : Word)
    (m : Machine κ δ) :
    (walk bytes (limit + 1) a).run m =
      match (read a).run m with
      | .ok w m' =>
          if w = 0 then .ok () m'
          else
            match (say (bytes w)).run m' with
            | .ok () m'' => (walk bytes limit (a + 1)).run m''
            | .error f m'' => .error f m''
      | .error f m' => .error f m' := by
  rw [walk, EStateM.run_bind]
  cases (read a).run m with
  | error f m' => rfl
  | ok w m' =>
      show EStateM.run (if w = 0 then _ else _) m' = if w = 0 then _ else _
      by_cases hw : w = 0
      · rw [if_pos hw, if_pos hw]
        rfl
      · rw [if_neg hw, if_neg hw, EStateM.run_bind]
        cases (say (bytes w)).run m' <;> rfl

/-- The loop fails only with the console. -/
theorem Walks.fromConsole {bytes : Word → List Byte} {a : Word}
    {m : Machine κ δ} {reads polls : Nat}
    {r : Result Failure (Machine κ δ) Unit}
    (h : Walks bytes a m reads polls r) (hdev : m.devices = .standard) :
    Meets (fun _ _ => True) (fun f _ => FromConsole f) r := by
  induction h with
  | @unread a m f m' hread =>
      obtain ⟨-, e, console, -, hf, -⟩ := (meets_read hdev a).of_error hread
      exact ⟨e, hf⟩
  | ended => trivial
  | @unsaid a m w m' f m'' _ _ hsay =>
      exact ((meets_say (bytes w) m').of_error hsay).1
  | @further a m w m' m'' _ _ _ hread _ hsay _ ih =>
      have hpolled := (polled_read a hdev).of_ok hread
      have hsaid := (quiet_say (bytes w) m').of_ok hsay
      exact ih (hsaid.devices.trans (hpolled.devices.trans hdev))

-- =========================================================== the routines

/-- A routine that puts out a string, with how it takes a word of it. -/
inductive PutsOut : TrapRoutine → (Word → List Byte) → Prop where
  | puts : PutsOut .puts single
  | putsp : PutsOut .putsp packed

/-- A routine that puts out a string is the loop from R0 on, and a flush
behind it. -/
theorem run_execute_putsOut {t : TrapRoutine} {bytes : Word → List Byte}
    (ht : PutsOut t bytes) {w : Word}
    (hw : Instr.decode w = .trap t.vector) (m : Machine κ δ) :
    (execute w).run m =
      flushed ((walk bytes (walkLimit (m.called w t)) (m.core.reg 0)).run
        (m.called w t)) := by
  have hroutine : (routine t : Exec κ δ Status)
      = proceed (putString bytes) := by
    cases ht <;> rfl
  have hreg : (m.called w t).core.reg 0 = m.core.reg 0 := rfl
  rw [run_execute_trap hw, hroutine, run_proceed, run_putString,
    ← run_proceed, run_proceed_flush, hreg]

-- ========================================================= the loop's end

variable [LawfulConsole κ]

/-- A read that polls and answers more than zero has used up a key. -/
theorem pending_read_status {m m' : Machine κ δ} {w : Word}
    (hdev : m.devices = .standard)
    (h : (read Keyboard.status).run m = .ok w m') (hw : w ≠ 0) :
    Console.pending m'.console < Console.pending m.console := by
  rw [run_read_status hdev] at h
  cases hpoll : (Console.call (.poll Keyboard.patience)).run m.console with
  | error e console => rw [hpoll] at h; cases h
  | ok answer console =>
      rw [hpoll] at h
      cases answer with
      | none => cases h; exact absurd rfl hw
      | some key => cases h; exact LawfulConsole.pending_poll hpoll

/-- A turn that goes on has less ahead of it, and fewer keys if it
polled. -/
theorem turn_lowers {bytes : Word → List Byte} {a w : Word}
    {m m' m'' : Machine κ δ} (hdev : m.devices = .standard)
    (hread : (read a).run m = .ok w m') (hw : w ≠ 0)
    (hsay : (say (bytes w)).run m' = .ok () m'') :
    ahead (a + 1) m'' < ahead a m
      ∧ Console.pending m''.console + pollsAt a
          ≤ Console.pending m.console := by
  have hsaid := pending_say hsay
  unfold ahead pollsAt
  by_cases ha : a = Keyboard.status
  · -- a key is worth more than the way round that follows it
    rw [ha] at hread
    have hkey := pending_read_status hdev hread hw
    have hbelow : distance Keyboard.status = 0 := rfl
    have habove : distance (Keyboard.status + 1) = 65535 := rfl
    rw [if_pos ha, ha, hbelow, habove]
    omega
  · rw [run_read_of_ne hdev ha] at hread
    cases hread
    have hdistance := distance_succ ha
    rw [if_neg ha]
    omega

/-- With a limit above what is ahead, `walk` is the loop without one. -/
theorem walk_ends (bytes : Word → List Byte) (limit : Nat) (a : Word)
    (m : Machine κ δ) (hdev : m.devices = .standard)
    (hlimit : ahead a m < limit) :
    ∃ reads polls, Walks bytes a m reads polls ((walk bytes limit a).run m)
      ∧ reads ≤ ahead a m + 1 ∧ polls ≤ Console.pending m.console + 1 := by
  -- the limit and what is ahead go down together
  -- the induction is on the limit; what is ahead stays below it, since a
  -- turn that goes on lowers both
  induction limit generalizing a m with
  | zero => exact absurd hlimit (Nat.not_lt_zero _)
  | succ limit ih =>
      have hpolls : pollsAt a ≤ 1 := by unfold pollsAt; split <;> omega
      rw [run_walk_succ]
      cases hread : (read a).run m with
      | error f m' => exact ⟨1, _, .unread hread, by omega, by omega⟩
      | ok w m' =>
          by_cases hw : w = 0
          · subst hw
            exact ⟨1, _, .ended hread, by omega, by omega⟩
          · simp only [if_neg hw]
            cases hsay : (say (bytes w)).run m' with
            | error f m'' =>
                exact ⟨1, _, .unsaid hread hw hsay, by omega, by omega⟩
            | ok x m'' =>
                have hturn := turn_lowers hdev hread hw hsay
                have hpolled := (polled_read a hdev).of_ok hread
                have hsaid := (quiet_say (bytes w) m').of_ok hsay
                have hdev'' : m''.devices = .standard :=
                  hsaid.devices.trans (hpolled.devices.trans hdev)
                obtain ⟨reads, polls, hrest, hreads, hkeys⟩ :=
                  ih (a + 1) m'' hdev'' (by omega)
                exact ⟨_, _, .further hread hw hsay hrest, by omega,
                  by omega⟩

/-- PUTS and PUTSP end, with any memory and any address in R0, and fail
only with the console. In no more than a round of memory for each key
that is queued and one more they have read all that they read, and the
keyboard's status no more often than that many times. -/
theorem putting_string_ends {t : TrapRoutine} {bytes : Word → List Byte}
    (ht : PutsOut t bytes) {w : Word}
    (hw : Instr.decode w = .trap t.vector) (m : Machine Buffered δ)
    (hdev : m.devices = .standard) :
    ∃ reads polls r,
      Walks bytes (m.core.reg 0) (m.called w t) reads polls r
      ∧ reads ≤ 65536 * (m.console.input.length + 1)
      ∧ polls ≤ m.console.input.length + 1
      ∧ (execute w).run m = flushed r
      ∧ Meets (fun status _ => status = .running)
          (fun f _ => FromConsole f) ((execute w).run m) := by
  obtain ⟨reads, polls, hwalks, hreads, hpolls⟩ :=
    walk_ends bytes _ (m.core.reg 0) (m.called w t) hdev
      (ahead_lt_walkLimit _ _)
  have hahead := ahead_lt_walkLimit (m.core.reg 0) (m.called w t)
  have hexecute := run_execute_putsOut ht hw m
  refine ⟨reads, polls, _, hwalks, Nat.le_trans hreads hahead, hpolls,
    hexecute, ?_⟩
  rw [hexecute]
  cases hrun : (walk bytes (walkLimit (m.called w t)) (m.core.reg 0)).run
      (m.called w t) with
  | error f m' => exact (hwalks.fromConsole hdev).of_error hrun
  | ok x m' =>
      exact (meets_proceed (meets_call .flush m')).imp
        (fun _ _ h => h.1) (fun _ _ h => h.1)

/-- A memory with no zero word in it, and two keys waiting. -/
def brimful : Machine Buffered Empty where
  core := { Core.initial with mem := Bank.fill 16 0x4142 }
  journal := {}
  console := { input := [0x61, 0x62] }

/-- Three rounds of memory at the most, and three polls, though no word in
it is zero. -/
theorem putting_string_ends_brimful :
    PutsOut .putsp packed
      ∧ Instr.decode 0xf024 = .trap TrapRoutine.putsp.vector
      ∧ brimful.devices = .standard
      ∧ ∃ reads polls r,
          Walks packed 0 (brimful.called 0xf024 .putsp) reads polls r
          ∧ reads ≤ 65536 * 3 ∧ polls ≤ 3
          ∧ (execute 0xf024).run brimful = flushed r
          ∧ Meets (fun status _ => status = .running)
              (fun f _ => FromConsole f) ((execute 0xf024).run brimful) :=
  ⟨.putsp, rfl, rfl, putting_string_ends .putsp rfl brimful rfl⟩

end Lc3.Machine
