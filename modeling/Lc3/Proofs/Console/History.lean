/-
The books of a buffered console. Keys come in from the outside and go out
through polls and reads; bytes come in through writes and go out when they
are taken; and a closing may come in between at any point. Whatever was
done to a console, in whatever order, nothing got lost on the way and
nothing came twice or too early: what went in is what came out, in the
order in which it came, followed by what is still there
(`Buffered.books_balance`).

What an operation does to the books is a matter of its answer. A call that
fails is entered as nothing at all, and that this is right is the claim
that it left the console as it was.
-/
import Lc3.Proofs.Console.Working

namespace Lc3.Buffered

-- ============================================================ operations

/-- Everything that can be done with a buffered console, from the outside
and through its calls. A single key is queued as a list of one. -/
inductive Operation where
  | enqueue (bytes : List Byte)
  | countInput
  | drain
  | outputText
  | countFlushes
  | close
  | call (c : Console.Call)
  | writeAll (bytes : List Byte)
deriving DecidableEq, Repr

abbrev Operation.Answer : Operation → Type
  | .enqueue _ | .close => Unit
  | .countInput | .countFlushes => Nat
  | .drain => List Byte
  | .outputText => String
  | .call c => Except IoError c.Answer
  | .writeAll _ => Except IoError Unit

def answered {α : Type} :
    EStateM.Result IoError Buffered α → Except IoError α × Buffered
  | .ok x b => (.ok x, b)
  | .error e b => (.error e, b)

def operate (b : Buffered) : (o : Operation) → o.Answer × Buffered
  | .enqueue bytes => ((), b.enqueue bytes)
  | .countInput => (b.input.length, b)
  | .drain => b.drain
  | .outputText => (b.outputText, b)
  | .countFlushes => (b.flushes, b)
  | .close => ((), b.close)
  | .call c => answered ((Console.call c).run b)
  | .writeAll bytes => answered ((Console.writeAll bytes).run b)

/-- An operation that was done, with its answer. -/
structure Entry where
  operation : Operation
  answer : operation.Answer

/-- The operations are done one after the other. -/
def history : List Operation → Buffered → List Entry × Buffered
  | [], b => ([], b)
  | o :: os, b =>
      let (x, b₁) := b.operate o
      let (log, b') := history os b₁
      (⟨o, x⟩ :: log, b')

-- ============================================================== the books

namespace Entry

/-- The keys that were queued. -/
def queued : Entry → List Byte
  | ⟨.enqueue bytes, _⟩ => bytes
  | _ => []

/-- The keys that a poll or a read came back with. -/
def handedOut : Entry → List Byte
  | ⟨.call (.poll _), .ok (some key)⟩ => [key]
  | ⟨.call .read, .ok key⟩ => [key]
  | _ => []

/-- The bytes of writes that succeeded. -/
def accepted : Entry → List Byte
  | ⟨.call (.write b), .ok _⟩ => [b]
  | ⟨.writeAll bytes, .ok _⟩ => bytes
  | _ => []

/-- The output that was taken away. -/
def taken : Entry → List Byte
  | ⟨.drain, bytes⟩ => bytes
  | _ => []

/-- A flush that succeeded. -/
def flushed : Entry → Bool
  | ⟨.call .flush, .ok _⟩ => true
  | _ => false

end Entry

/-- What the log says went in, on top of what was there before, is what it
says came out and what is there now. -/
structure Balanced (b : Buffered) (log : List Entry) (b' : Buffered) :
    Prop where
  input : b.input ++ log.flatMap Entry.queued
    = log.flatMap Entry.handedOut ++ b'.input
  output : b.output.toList ++ log.flatMap Entry.accepted
    = log.flatMap Entry.taken ++ b'.output.toList
  flushes : b'.flushes = b.flushes + log.countP Entry.flushed
  closed : b'.closed = (b.closed || log.any (·.operation = .close))

theorem Balanced.refl (b : Buffered) : Balanced b [] b := by
  constructor <;> simp

/-- Books that balance can be put together: what was still there after the
first is what the second began with. -/
theorem Balanced.trans {b b₁ b' : Buffered} {log log' : List Entry}
    (h : Balanced b log b₁) (h' : Balanced b₁ log' b') :
    Balanced b (log ++ log') b' where
  input := by
    rw [List.flatMap_append, List.flatMap_append, ← List.append_assoc,
      h.input, List.append_assoc, h'.input, List.append_assoc]
  output := by
    rw [List.flatMap_append, List.flatMap_append, ← List.append_assoc,
      h.output, List.append_assoc, h'.output, List.append_assoc]
  flushes := by
    rw [List.countP_append, h'.flushes, h.flushes, Nat.add_assoc]
  closed := by
    rw [List.any_append, h'.closed, h.closed, Bool.or_assoc]

-- ========================================================= one operation

/-- An entry balances if it says what its operation took from the queue and
the output, and what it put there. -/
theorem Balanced.single {b b' : Buffered} {e : Entry}
    (input : b.input ++ e.queued = e.handedOut ++ b'.input)
    (output : b.output.toList ++ e.accepted = e.taken ++ b'.output.toList)
    (flushes : b'.flushes = b.flushes + e.flushed.toNat)
    (closed : b'.closed = (b.closed || decide (e.operation = .close))) :
    Balanced b [e] b' where
  input := by simpa using input
  output := by simpa using output
  flushes := by
    rw [flushes, List.countP_singleton]
    cases e.flushed <;> rfl
  closed := by simpa using closed

/-- A call that failed is no entry, and must have left the console as it
was. -/
theorem balanced_failed (c : Console.Call) (e : IoError) (b : Buffered) :
    Balanced b [⟨.call c, .error e⟩] b := by
  cases c <;>
    exact .single (List.append_nil _) (List.append_nil _) rfl
      (Bool.or_false _).symm

/-- Each of the four calls does what its answer says. On a closed console
all of them fail, and then there is nothing to enter. -/
theorem balanced_call (c : Console.Call) (b : Buffered) :
    Balanced b [⟨.call c, (b.operate (.call c)).1⟩]
      (b.operate (.call c)).2 := by
  obtain ⟨input, output, flushes, closed⟩ := b
  cases closed with
  -- a closed console enters nothing
  | true => cases c <;> exact balanced_failed _ closedError _
  | false =>
      cases c with
      | poll millis =>
          cases input with
          | nil => exact .single rfl (List.append_nil _) rfl rfl
          | cons key rest =>
              exact .single (List.append_nil _) (List.append_nil _) rfl rfl
      | read =>
          cases input with
          | nil => exact balanced_failed .read emptyError _
          | cons key rest =>
              exact .single (List.append_nil _) (List.append_nil _) rfl rfl
      | write byte =>
          exact .single (List.append_nil _) Array.toList_push.symm rfl rfl
      | flush =>
          exact .single (List.append_nil _) (List.append_nil _) rfl rfl

/-- On an open console every byte goes out, so the text is accepted as a
whole. -/
theorem operate_writeAll_open {b : Buffered} (h : b.closed = false)
    (bytes : List Byte) :
    b.operate (.writeAll bytes)
      = (.ok (), { b with output := b.output ++ bytes }) := by
  have hcalls := Console.isOutput_writes bytes
  have hwritten : Console.written (bytes.map .write) = bytes := by
    rw [Console.written, List.filterMap_map]
    exact List.filterMap_some
  have hflushes : (bytes.map Console.Call.write).count .flush = 0 := by
    simp [List.count_eq_zero]
  have hafter : Console.afterCalls (bytes.map .write) b
      = { b with output := b.output ++ bytes } := by
    rw [afterCalls_outputs h hcalls, hwritten, hflushes, Nat.add_zero]
  show answered ((Console.writeAll bytes).run b) = _
  rw [(works h).run_writeAll, hafter]
  rfl

/-- On a closed one the first byte is refused, and none has gone out by
then. A text of no bytes has no first one and is written well. -/
theorem operate_writeAll_closed {b : Buffered} (h : b.closed = true)
    {bytes : List Byte} (hbytes : bytes ≠ []) :
    b.operate (.writeAll bytes) = (.error closedError, b) := by
  obtain ⟨byte, bytes, rfl⟩ := List.exists_cons_of_ne_nil hbytes
  obtain ⟨input, output, flushes, closed⟩ := b
  cases h
  rfl

/-- A text is accepted as a whole or not at all. -/
theorem balanced_writeAll (bytes : List Byte) (b : Buffered) :
    Balanced b [⟨.writeAll bytes, (b.operate (.writeAll bytes)).1⟩]
      (b.operate (.writeAll bytes)).2 := by
  cases hclosed : b.closed with
  | false =>
      rw [operate_writeAll_open hclosed]
      exact .single (List.append_nil _) Array.toList_appendList.symm rfl
        (Bool.or_false _).symm
  | true =>
      by_cases hbytes : bytes = []
      · rw [hbytes]
        exact .single (List.append_nil _) (List.append_nil _) rfl
          (Bool.or_false _).symm
      · rw [operate_writeAll_closed hclosed hbytes]
        exact .single (List.append_nil _) (List.append_nil _) rfl
          (Bool.or_false _).symm

/-- What an operation does is what its entry says. -/
theorem balanced_operate (o : Operation) (b : Buffered) :
    Balanced b [⟨o, (b.operate o).1⟩] (b.operate o).2 := by
  cases o with
  | enqueue bytes =>
      exact .single rfl (List.append_nil _) rfl (Bool.or_false _).symm
  | drain =>
      exact .single (List.append_nil _) rfl rfl (Bool.or_false _).symm
  | countInput | outputText | countFlushes =>
      exact .single (List.append_nil _) (List.append_nil _) rfl
        (Bool.or_false _).symm
  | close =>
      exact .single (List.append_nil _) (List.append_nil _) rfl
        (Bool.or_true _).symm
  | call c => exact balanced_call c b
  | writeAll bytes => exact balanced_writeAll bytes b

-- ======================================================= whole histories

/-- The books of a history are those of its operations put together. -/
theorem balanced_history (os : List Operation) (b : Buffered) :
    Balanced b (history os b).1 (history os b).2 := by
  induction os generalizing b with
  | nil => exact .refl b
  | cons o os ih => exact (balanced_operate o b).trans (ih (b.operate o).2)

/-- The log has an entry for each operation, in order. -/
theorem operations_history (os : List Operation) (b : Buffered) :
    (history os b).1.map Entry.operation = os := by
  induction os generalizing b with
  | nil => rfl
  | cons o os ih => exact congrArg (o :: ·) (ih (b.operate o).2)

/-- A console is closed from the first closing on. -/
theorem closed_history {os : List Operation} (h : .close ∈ os)
    (b : Buffered) : (history os b).2.closed = true := by
  have hlog : (history os b).1.any (·.operation = .close) = true := by
    rw [← operations_history os b] at h
    obtain ⟨e, he, hclose⟩ := List.mem_map.1 h
    exact List.any_eq_true.2 ⟨e, he, decide_eq_true hclose⟩
  rw [(balanced_history os b).closed, hlog, Bool.or_true]

/-- What is left to be done with a console that has been closed. -/
structure Shut (b : Buffered) : Prop where
  call (c : Console.Call) :
    b.operate (.call c) = (.error ⟨.brokenPipe, "console closed"⟩, b)
  writeAll {bytes : List Byte} (h : bytes ≠ []) :
    b.operate (.writeAll bytes)
      = (.error ⟨.brokenPipe, "console closed"⟩, b)
  enqueue (bytes : List Byte) :
    b.operate (.enqueue bytes) = ((), { b with input := b.input ++ bytes })
  drain :
    b.operate .drain = (b.output.toList, { b with output := #[] })

/-- A closed console refuses the calls as it is, and can still be given keys
and relieved of its output. -/
theorem shut_of_closed {b : Buffered} (h : b.closed = true) : Shut b where
  call c := by
    obtain ⟨input, output, flushes, closed⟩ := b
    cases h
    cases c <;> rfl
  writeAll hbytes := operate_writeAll_closed h hbytes
  enqueue _ := rfl
  drain := rfl

/-- Over every history of a new console, keys and bytes come out as they
went in, up to those that are still there; flushes are counted; and behind
a closing nothing goes through any more. -/
theorem books_balance (os : List Operation) :
    ∃ log b, history os {} = (log, b)
      ∧ log.flatMap Entry.queued
          = log.flatMap Entry.handedOut ++ b.input
      ∧ log.flatMap Entry.accepted
          = log.flatMap Entry.taken ++ b.output.toList
      ∧ b.flushes = log.countP Entry.flushed
      ∧ (.close ∈ os → Shut b) := by
  have h := balanced_history os {}
  refine ⟨_, _, rfl, h.input, h.output, ?_, ?_⟩
  · rw [h.flushes, Nat.zero_add]
  · exact fun hclose => shut_of_closed (closed_history hclose {})

/-- Somebody types three keys and reads one, takes what was written in
between, and closes the console on a read and a text. -/
def interruption : List Operation :=
  [.enqueue [0x61, 0x62], .writeAll [0x68, 0x69], .call (.poll 1000),
    .drain, .call .flush, .call (.write 0x2e), .enqueue [0x63], .close,
    .call .read, .writeAll [0x21]]

/-- The books of the session, with one key read of three and both writes
before the closing taken down. -/
theorem books_balance_interrupted :
    .close ∈ interruption
      ∧ ∃ log b, history interruption {} = (log, b)
        ∧ log.flatMap Entry.handedOut = [0x61]
        ∧ b.input = [0x62, 0x63]
        ∧ log.flatMap Entry.taken = [0x68, 0x69]
        ∧ b.output.toList = [0x2e]
        ∧ b.flushes = 1
        ∧ Shut b := by
  have hclose : .close ∈ interruption := by decide
  obtain ⟨log, b, h, hinput, houtput, hflushes, hshut⟩ :=
    books_balance interruption
  have hlog : log = (history interruption {}).1 := by rw [h]
  have hhanded : log.flatMap Entry.handedOut = [0x61] := by
    rw [hlog]
    rfl
  have htaken : log.flatMap Entry.taken = [0x68, 0x69] := by
    rw [hlog]
    rfl
  have hqueued : log.flatMap Entry.queued = [0x61] ++ [0x62, 0x63] := by
    rw [hlog]
    rfl
  have haccepted : log.flatMap Entry.accepted
      = [0x68, 0x69] ++ [0x2e] := by
    rw [hlog]
    rfl
  rw [hqueued, hhanded] at hinput
  rw [haccepted, htaken] at houtput
  refine ⟨hclose, log, b, h, hhanded, (List.append_cancel_left hinput).symm,
    htaken, (List.append_cancel_left houtput).symm, ?_, hshut hclose⟩
  rw [hflushes, hlog]
  rfl

end Lc3.Buffered
