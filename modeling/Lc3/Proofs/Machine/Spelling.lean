/-
Three ways to put out the same bytes: OUT with one byte after another,
PUTS from memory with one byte in a word, PUTSP with two.

What a routine makes of a string in memory is the walk over its words
(`run_walk_words`): as long as no device is on the way, it is writing the
bytes of all the words in one go, whatever the console answers. It is by
`Spells` that the two encodings differ, and nowhere else: the words that
hold the given bytes, none of which is the zero that ends the string.

So on a console that works the calls are the same for both, the bytes in
their order and one flush behind them, and OUT differs from them only in
that it flushes behind every byte.
-/
import Lc3.Proofs.Console.Working
import Lc3.Proofs.Machine.Strings
import Lc3.Proofs.Machine.Twin

namespace Lc3

-- ==================================================== strings in memory

/-- The words stand in memory from `a` on, wrapping at the top. -/
def Core.Holds (c : Core) (a : Word) (ws : List Word) : Prop :=
  ∀ i (h : i < ws.length), c.peek (a + BitVec.ofNat 16 i) = ws[i]

/-- The address behind one that wraps is counted from there on. -/
theorem Word.add_one_add (a : Word) (i : Nat) :
    a + 1 + BitVec.ofNat 16 i = a + BitVec.ofNat 16 (i + 1) := by
  rw [BitVec.add_assoc, BitVec.add_comm 1, ← BitVec.ofNat_add_ofNat]
  rfl

/-- The first word stands at the address, and the others behind it. -/
theorem Core.holds_cons {c : Core} {a w : Word} {ws : List Word}
    (h : c.Holds a (w :: ws)) : c.peek a = w ∧ c.Holds (a + 1) ws := by
  constructor
  · have hfirst := h 0 (by simp)
    rw [BitVec.add_zero] at hfirst
    exact hfirst
  · intro i hi
    rw [Word.add_one_add]
    exact h (i + 1) (Nat.succ_lt_succ hi)

/-- A string is shorter than memory, or its end would stand where one of
its words does. -/
theorem Core.Holds.length_lt {c : Core} {a : Word} {ws : List Word}
    (h : c.Holds a (ws ++ [0])) (hne : ∀ w ∈ ws, w ≠ 0) :
    ws.length < 65536 := by
  refine Nat.lt_of_not_le ?_
  intro hlong
  have hend := h ws.length (by simp)
  have hword := h (ws.length - 65536) (by
    simp only [List.length_append, List.length_singleton]
    omega)
  have hround : BitVec.ofNat 16 ws.length
      = BitVec.ofNat 16 (ws.length - 65536) := by
    apply BitVec.eq_of_toNat_eq
    simp only [BitVec.toNat_ofNat]
    omega
  rw [hround, hword, List.getElem_append_left (by omega)] at hend
  simp only [List.getElem_concat_length] at hend
  exact hne _ (List.getElem_mem _) hend

/-- Bytes by twos in words, low half first; behind an odd last byte the
high half is zero. -/
def packedWords : List Byte → List Word
  | [] => []
  | [l] => [Word.ofBytes 0 l]
  | l :: h :: rest => Word.ofBytes h l :: packedWords rest

/-- The words in which a routine finds the given bytes. For PUTS they have
any high half. -/
inductive Spells : TrapRoutine → List Word → List Byte → Prop where
  | single (ws : List Word) : Spells .puts ws (ws.map Word.low)
  | packed (bs : List Byte) : Spells .putsp (packedWords bs) bs

theorem Word.ne_zero_of_low {w : Word} (h : w.low ≠ 0) : w ≠ 0 := by
  rintro rfl
  exact h rfl

namespace Machine

/-- Byte by byte, the bytes are the low halves. -/
theorem flatMap_single (ws : List Word) :
    ws.flatMap single = ws.map Word.low := by
  induction ws with
  | nil => rfl
  | cons w ws ih => simp [single, ih]

/-- Bytes that are not zero are taken out as they were packed. -/
theorem flatMap_packed {bs : List Byte} (hbs : ∀ b ∈ bs, b ≠ 0) :
    (packedWords bs).flatMap packed = bs := by
  induction bs using packedWords.induct with
  | case1 => rfl
  | case2 l => simp [packedWords, packed, Word.high_ofBytes, Word.low_ofBytes]
  | case3 l h rest ih =>
      have hh : h ≠ 0 := hbs h (by simp)
      have hboth : packed (Word.ofBytes h l) = [l, h] := by
        rw [packed, Word.high_ofBytes, Word.low_ofBytes, if_neg hh]
      have hrest := ih fun b hb => hbs b (by simp [hb])
      simp [packedWords, hboth, hrest]

/-- In packed words the low half is always a byte of the string, so none of
them ends it. -/
theorem packedWords_ne_zero {bs : List Byte} (hbs : ∀ b ∈ bs, b ≠ 0) :
    ∀ w ∈ packedWords bs, w ≠ 0 := by
  induction bs using packedWords.induct with
  | case1 => simp [packedWords]
  | case2 l =>
      have hl : l ≠ 0 := hbs l (by simp)
      simp only [packedWords, List.mem_singleton, forall_eq]
      exact Word.ne_zero_of_low (by rwa [Word.low_ofBytes])
  | case3 l h rest ih =>
      have hl : l ≠ 0 := hbs l (by simp)
      have hrest := ih fun b hb => hbs b (by simp [hb])
      simp only [packedWords, List.mem_cons, forall_eq_or_imp]
      exact ⟨Word.ne_zero_of_low (by rwa [Word.low_ofBytes]), hrest⟩

/-- The words that spell bytes other than zero go on to the end, and come
out as the bytes. -/
theorem putsOut_of_spells {t : TrapRoutine} {ws : List Word}
    {bs : List Byte} (h : Spells t ws bs) (hbs : ∀ b ∈ bs, b ≠ 0) :
    ∃ bytes, PutsOut t bytes ∧ ws.flatMap bytes = bs ∧ ∀ w ∈ ws, w ≠ 0 := by
  cases h with
  | single =>
      refine ⟨single, .puts, flatMap_single ws, ?_⟩
      intro w hw
      exact Word.ne_zero_of_low (hbs w.low (List.mem_map_of_mem hw))
  | packed =>
      exact ⟨packed, .putsp, flatMap_packed hbs, packedWords_ne_zero hbs⟩

-- =============================================================== the walk

variable {κ δ : Type}

/-- No device stands at `a` or at any of the `n` addresses behind it. -/
def Clear (m : Machine κ δ) (a : Word) (n : Nat) : Prop :=
  ∀ i, i ≤ n → m.devices.route (a + BitVec.ofNat 16 i) = none

/-- Where no device is on the way, none is at its beginning. -/
theorem Clear.first {m : Machine κ δ} {a : Word} {n : Nat}
    (h : m.Clear a n) : m.devices.route a = none := by
  have hfirst := h 0 (Nat.zero_le n)
  rw [BitVec.add_zero] at hfirst
  exact hfirst

/-- Nor is one on the rest of the way. -/
theorem Clear.next {m : Machine κ δ} {a : Word} {n : Nat}
    (h : m.Clear a (n + 1)) : m.Clear (a + 1) n := by
  intro i hi
  rw [Word.add_one_add]
  exact h (i + 1) (Nat.succ_le_succ hi)

/-- With the keyboard as the only device, the way is clear if it does not
lead past the keyboard's status. -/
theorem clear_of_standard {m : Machine κ δ} (hdev : m.devices = .standard)
    {a : Word} {n : Nat}
    (h : ∀ i, i ≤ n → a + BitVec.ofNat 16 i ≠ Keyboard.status) :
    m.Clear a n := by
  intro i hi
  rw [hdev, DeviceTable.route_standard, if_neg (h i hi)]

variable [Console κ]

/-- Two texts in a row are one. -/
theorem run_say_append (xs ys : List Byte) (m : Machine κ δ) :
    (say (xs ++ ys)).run m =
      match (say xs).run m with
      | .ok () m' => (say ys).run m'
      | .error f m' => .error f m' := by
  induction xs generalizing m with
  | nil => rfl
  | cons b xs ih =>
      rw [List.cons_append, say_cons, say_cons, EStateM.run_bind,
        EStateM.run_bind]
      cases (call (.write b)).run m with
      | ok x m' => exact ih m'
      | error f m' => rfl

-- =============================================================== the calls

/-- What a string routine asks of the console to put out the bytes. -/
def stringCalls (bs : List Byte) : List Console.Call :=
  bs.map .write ++ [.flush]

/-- What OUT asks of the console to put out the bytes one by one. -/
def characterCalls (bs : List Byte) : List Console.Call :=
  bs.flatMap fun b => [.write b, .flush]

/-- A string is put out by writes and a flush. -/
theorem isOutput_stringCalls (bs : List Byte) :
    ∀ c ∈ stringCalls bs, c.isOutput := by
  intro c hc
  rcases List.mem_append.1 hc with hwrite | hflush
  · exact Console.isOutput_writes bs c hwrite
  · rw [List.mem_singleton.1 hflush]
    rfl

/-- So are characters one by one, with more flushes. -/
theorem isOutput_characterCalls (bs : List Byte) :
    ∀ c ∈ characterCalls bs, c.isOutput := by
  intro c hc
  obtain ⟨b, -, hb⟩ := List.mem_flatMap.1 hc
  exact isOutput_stringCalls [b] c hb

/-- What is written is the bytes, in their order. -/
theorem written_stringCalls (bs : List Byte) :
    Console.written (stringCalls bs) = bs := by
  induction bs with
  | nil => rfl
  | cons b bs ih => exact congrArg (b :: ·) ih

/-- The flushes between them add nothing. -/
theorem written_characterCalls (bs : List Byte) :
    Console.written (characterCalls bs) = bs := by
  induction bs with
  | nil => rfl
  | cons b bs ih => exact congrArg (b :: ·) ih

theorem count_stringCalls (bs : List Byte) :
    (stringCalls bs).count .flush = 1 := by
  simp [stringCalls, List.count_eq_zero]

/-- Single characters are flushed one by one. -/
theorem count_characterCalls (bs : List Byte) :
    (characterCalls bs).count .flush = bs.length := by
  induction bs with
  | nil => rfl
  | cons b bs ih =>
      have hcalls : characterCalls (b :: bs)
          = .write b :: .flush :: characterCalls bs := rfl
      simp [hcalls, ih]

/-- On a console that works a text is written to its end. -/
theorem run_say_works {m : Machine κ δ} (h : Console.Works m.console)
    (bs : List Byte) :
    (say bs).run m = .ok ()
      { m with console := Console.afterCalls (bs.map .write) m.console } := by
  rw [run_say, h.run_writeAll]

/-- And it can be flushed. -/
theorem run_flush_works {m : Machine κ δ} (h : Console.Works m.console) :
    (call .flush).run m = .ok ()
      { m with console := Console.afterCalls [.flush] m.console } := by
  obtain ⟨x, hflush⟩ := h.run_call (c := .flush) rfl
  rw [run_call, hflush]

/-- On a console that works, a string routine makes its calls and changes
nothing else. -/
theorem run_flushed_works {m : Machine κ δ} (h : Console.Works m.console)
    (bs : List Byte) :
    flushed ((say bs).run m) = .ok .running
      { m with
        console := Console.afterCalls (stringCalls bs) m.console } := by
  have hwritten := h.afterCalls (Console.isOutput_writes bs)
  rw [run_say_works h, flushed, run_proceed, run_flush_works hwritten,
    stringCalls, Console.afterCalls_append]

/-- OUT puts out the low half of R0 as a string of one byte. -/
theorem run_proceed_out (m : Machine κ δ) :
    (proceed out).run m = flushed ((say [(m.core.reg 0).low]).run m) := by
  have hout : out.run m
      = (do say [(m.core.reg 0).low]; call .flush : Exec κ δ Unit).run m := by
    rw [say_cons]
    show (call (.write (m.core.reg 0).low) >>= fun _ => call .flush).run m = _
    rw [EStateM.run_bind, EStateM.run_bind, EStateM.run_bind]
    cases (call (.write (m.core.reg 0).low)).run m <;> rfl
  rw [← run_proceed_flush, run_proceed, run_proceed, hout]

-- =========================================================== over a string

variable [Peripheral δ]

/-- Where no device is on the way, walking over a string is writing the
bytes of its words, one after another, for better or worse. -/
theorem run_walk_words (bytes : Word → List Byte) {ws : List Word}
    (hne : ∀ w ∈ ws, w ≠ 0) {a : Word} {m : Machine κ δ}
    (hmem : m.core.Holds a (ws ++ [0])) (hclear : m.Clear a ws.length)
    {limit : Nat} (hlimit : ws.length < limit) :
    (walk bytes limit a).run m = (say (ws.flatMap bytes)).run m := by
  -- over machines that differ in their consoles: what is written between
  -- two words touches neither memory nor devices
  induction ws generalizing a m limit with
  | nil =>
      obtain ⟨limit, rfl⟩ := Nat.exists_eq_succ_of_ne_zero
        (Nat.ne_of_gt hlimit)
      have hend : m.core.peek a = 0 := (Core.holds_cons hmem).1
      have hread : (read a).run m = .ok 0 m := by
        rw [run_read, hclear.first, hend]
      rw [run_walk_succ, hread]
      rfl
  | cons w ws ih =>
      obtain ⟨limit, rfl⟩ := Nat.exists_eq_succ_of_ne_zero
        (Nat.ne_of_gt (Nat.lt_of_le_of_lt (Nat.zero_le _) hlimit))
      obtain ⟨hword, hwords⟩ := Core.holds_cons hmem
      have hread : (read a).run m = .ok w m := by
        rw [run_read, hclear.first, hword]
      have hw : w ≠ 0 := hne w (by simp)
      rw [run_walk_succ, hread, List.flatMap_cons, run_say_append]
      simp only [if_neg hw]
      cases hsay : (say (bytes w)).run m with
      | error f m' => rfl
      | ok x m' =>
          have hsaid := (quiet_say (bytes w) m).of_ok hsay
          have hmem' : m'.core.Holds (a + 1) (ws ++ [0]) := by
            rw [hsaid.core]
            exact hwords
          have hclear' : m'.Clear (a + 1) ws.length := by
            unfold Clear
            rw [hsaid.devices]
            exact hclear.next
          exact ih (fun v hv => hne v (by simp [hv])) hmem' hclear'
            (Nat.lt_of_succ_lt_succ hlimit)

-- =========================================================== the routines

/-- OUT executed as the word `v`, for one content of R0 after another. -/
def outEach (v : Word) : List Word → Exec κ δ Unit
  | [] => return
  | r :: rs => do
      setReg 0 r
      let _ ← execute v
      outEach v rs

/-- The routines write the bytes that are spelled and flush behind them,
for better or worse. -/
theorem run_execute_spelled {t : TrapRoutine} {ws : List Word}
    {bs : List Byte} (hspells : Spells t ws bs) (hbs : ∀ b ∈ bs, b ≠ 0)
    {m : Machine κ δ} (hmem : m.core.Holds (m.core.reg 0) (ws ++ [0]))
    (hclear : m.Clear (m.core.reg 0) ws.length) {w : Word}
    (hw : Instr.decode w = .trap t.vector) :
    (execute w).run m = flushed ((say bs).run (m.called w t)) := by
  obtain ⟨bytes, hputs, hbytes, hne⟩ := putsOut_of_spells hspells hbs
  have hlimit : ws.length < walkLimit (m.called w t) := by
    have hlength := hmem.length_lt hne
    unfold walkLimit
    omega
  have hwalk := run_walk_words bytes hne (m := m.called w t) hmem hclear
    hlimit
  rw [run_execute_putsOut hputs hw, hwalk, hbytes]

/-- On a console that works, OUT is a string of one byte. -/
theorem run_execute_out {v : Word}
    (hv : Instr.decode v = .trap TrapRoutine.out.vector) {m : Machine κ δ}
    (h : Console.Works m.console) :
    ∃ m', (execute v).run m = .ok .running m'
      ∧ m'.console = Console.afterCalls (stringCalls [(m.core.reg 0).low])
        m.console := by
  have hflushed := run_flushed_works (m := m.called v .out) h
    [(m.core.reg 0).low]
  rw [run_execute_trap hv]
  exact ⟨_, (run_proceed_out (m.called v .out)).trans hflushed, rfl⟩

/-- And OUT for one byte after another makes these calls. -/
theorem run_outEach {v : Word}
    (hv : Instr.decode v = .trap TrapRoutine.out.vector) {m : Machine κ δ}
    (h : Console.Works m.console) (rs : List Word) :
    ∃ m', (outEach v rs).run m = .ok () m'
      ∧ m'.console = Console.afterCalls (characterCalls (rs.map Word.low))
        m.console := by
  induction rs generalizing m with
  | nil => exact ⟨m, rfl, rfl⟩
  | cons r rs ih =>
      have hreg : (m.toBoard.setReg 0 r).core.reg 0 = r :=
        Bank.get_set_self m.core.regs 0 r
      have hcalls := isOutput_stringCalls [r.low]
      obtain ⟨m₁, hout, hfirst⟩ := run_execute_out hv
        (m := { m with toBoard := m.toBoard.setReg 0 r }) h
      rw [hreg] at hfirst
      have hworks : Console.Works m₁.console := by
        rw [hfirst]
        exact h.afterCalls hcalls
      -- output closes no console, so it works for the rest
      obtain ⟨m', hrest, hconsole⟩ := ih hworks
      refine ⟨m', ?_, ?_⟩
      · show (execute v >>= fun _ => outEach v rs).run
          { m with toBoard := m.toBoard.setReg 0 r } = _
        rw [EStateM.run_bind, hout]
        exact hrest
      · rw [hconsole, hfirst, ← Console.afterCalls_append]
        rfl

/-- A string of bytes other than zero comes out the same whether PUTS
finds it with one byte in a word, whatever the high halves are, or PUTSP
with two: the routine writes the bytes in their order and flushes once
behind the last, and nothing of the machine but the count of executed
instructions is another than before. OUT for one byte after another
writes the same bytes, with a flush behind each. On a buffered console
that is open, this is what the output and the flushes grow by, and the
keys that are waiting stay. -/
theorem spelled_is_put_out {t : TrapRoutine} {ws : List Word}
    {bs : List Byte} (hspells : Spells t ws bs) (hbs : ∀ b ∈ bs, b ≠ 0)
    {m : Machine κ δ} (hworks : Console.Works m.console)
    (hmem : m.core.Holds (m.core.reg 0) (ws ++ [0]))
    (hclear : m.Clear (m.core.reg 0) ws.length) {w v : Word}
    (hw : Instr.decode w = .trap t.vector)
    (hv : Instr.decode v = .trap TrapRoutine.out.vector) {rs : List Word}
    (hrs : rs.map Word.low = bs) :
    (∃ m', (execute w).run m = .ok .running m'
        ∧ m'.console = Console.afterCalls (stringCalls bs) m.console
        ∧ m'.core = { m.core with executed := m.core.executed + 1 }
        ∧ m'.devices = m.devices ∧ m'.running = m.running)
      ∧ (∃ m', (outEach v rs).run m = .ok () m'
        ∧ m'.console = Console.afterCalls (characterCalls bs) m.console)
      ∧ Console.written (stringCalls bs) = bs
      ∧ Console.written (characterCalls bs) = bs
      ∧ ∀ b : Buffered, b.closed = false → Console.Works b
        ∧ Console.afterCalls (stringCalls bs) b
          = { b with output := b.output ++ bs, flushes := b.flushes + 1 }
        ∧ Console.afterCalls (characterCalls bs) b
          = { b with
              output := b.output ++ bs
              flushes := b.flushes + bs.length } := by
  subst hrs
  have hexecute : (execute w).run m = _ :=
    (run_execute_spelled hspells hbs hmem hclear hw).trans
      (run_flushed_works (m := m.called w t) hworks _)
  -- the first routine, then OUT, then the books of either on a `Buffered`
  refine ⟨⟨_, hexecute, rfl, rfl, rfl, rfl⟩, run_outEach hv hworks rs,
    written_stringCalls _, written_characterCalls _, ?_⟩
  intro b hopen
  refine ⟨Buffered.works hopen, ?_, ?_⟩
  · rw [Buffered.afterCalls_outputs hopen (isOutput_stringCalls _),
      written_stringCalls, count_stringCalls]
  · rw [Buffered.afterCalls_outputs hopen (isOutput_characterCalls _),
      written_characterCalls, count_characterCalls]

/-- Three bytes in two words, from the last address on, and rubbish in
memory everywhere else. -/
def roundTheCorner : Machine Buffered Empty where
  core := { Core.initial with
    mem := (((Bank.fill 16 0x4142).set 0xffff 0x6948).set 0 0x21).set 1 0
    regs := Core.initial.regs.set 0 0xffff }
  journal := {}
  console := { input := [0x61] }

/-- The string goes on at the bottom of memory, and the word behind it is
zero. -/
theorem spelled_is_put_out_roundTheCorner :
    (∃ m', (execute 0xf024).run roundTheCorner = .ok .running m'
        ∧ m'.console
          = { input := [0x61], output := #[0x48, 0x69, 0x21], flushes := 1 }
        ∧ m'.core = { roundTheCorner.core with executed := 1 })
      ∧ ∃ m', (outEach 0xf021 [0x1248, 0x0069, 0xff21]).run roundTheCorner
          = .ok () m'
        ∧ m'.console
          = { input := [0x61], output := #[0x48, 0x69, 0x21],
              flushes := 3 } := by
  have hmem : roundTheCorner.core.Holds 0xffff [0x6948, 0x0021, 0] := by
    unfold Core.Holds
    decide
  have hclear : roundTheCorner.Clear 0xffff 2 :=
    clear_of_standard rfl (by decide)
  have hputsp : Instr.decode 0xf024 = .trap TrapRoutine.putsp.vector := rfl
  have hout : Instr.decode 0xf021 = .trap TrapRoutine.out.vector := rfl
  have hlow : [0x1248, 0x0069, 0xff21].map Word.low = [0x48, 0x69, 0x21] :=
    rfl
  obtain ⟨⟨m', hrun, hconsole, hcore, -⟩, ⟨m'', hruns, hconsoles⟩, -, -,
      hbuffered⟩ :=
    spelled_is_put_out (.packed [0x48, 0x69, 0x21]) (by decide)
      (m := roundTheCorner) (Buffered.works rfl) hmem hclear hputsp hout hlow
  obtain ⟨-, hstring, hcharacters⟩ := hbuffered roundTheCorner.console rfl
  exact ⟨⟨m', hrun, hconsole.trans hstring, hcore⟩,
    ⟨m'', hruns, hconsoles.trans hcharacters⟩⟩

end Machine

end Lc3
