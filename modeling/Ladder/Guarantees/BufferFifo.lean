import Ladder.Library.Fifo
import Ladder.Library.Runs
import Ladder.Source.Buffer

/-!
# Buffer refines a FIFO octet queue

Every public operation of `Buffer` is run next to an independent queue that
remembers all octets ever written and how many were taken out. The queue has no
indices, no reset and no stale storage. `buffer_refines_fifo` covers whole runs
from a fresh buffer: representation bounds, contents, every returned value, and
the order of the 32-bit words.
-/
namespace Ladder.Guarantees.BufferFifo
open Ladder.Library Ladder.Source

/-- The calls of Buffer.h, both overloads of `Write` and `Peek` included. -/
inductive Op where
  | write (content : Bytes)
  | writeChars (src : Bytes) (len : Nat)
  | writeUInt32 (number : UInt32)
  | read (n : Nat)
  | readAll
  | peek (n : Nat)
  | peekInto (dst : Bytes) (n : Nat)
  | peekUInt32
  | readUInt32
  | haveRead (n : Nat)
  deriving DecidableEq, Repr

inductive Output where
  | done
  | bytes (result : Bytes)
  | counted (readable : Nat) (result : Bytes)
  | word (number : UInt32)
  deriving DecidableEq, Repr

/-- A store together with the calls made on it and what they returned. -/
structure Session (store : Type) where
  state : store
  log : List (Op × Output)

section
variable (host : Endian)

/-! ## The two executions -/

def exec (b : Buffer) : Op → Buffer × Output
  | .write content => (b.write content, .done)
  | .writeChars src len => (b.writeChars src len, .done)
  | .writeUInt32 number => (b.writeUInt32 host number, .done)
  | .read n => ((b.read n).2, .bytes (b.read n).1)
  | .readAll => (b.readAll.2, .bytes b.readAll.1)
  | .peek n => (b, .counted (b.peek n).1 (b.peek n).2)
  | .peekInto dst n => (b, .counted (b.peekInto dst n).1 (b.peekInto dst n).2)
  | .peekUInt32 => (b, .word (b.peekUInt32 host))
  | .readUInt32 => ((b.readUInt32 host).2, .word (b.readUInt32 host).1)
  | .haveRead n => (b.haveRead n, .done)

def step (s : Session Buffer) (op : Op) : Option (Session Buffer) :=
  let (state, output) := exec host s.state op
  some ⟨state, s.log ++ [(op, output)]⟩

def start : Session Buffer := ⟨.fresh, []⟩

def Op.enqueued : Op → Bytes
  | .write content => content
  | .writeChars src len => src.take len
  | .writeUInt32 number => encode32 host number
  | _ => []

def Op.dequeued (q : Fifo UInt8) : Op → Nat
  | .read n => n
  | .haveRead n => n
  | .readAll => q.unread.length
  | .readUInt32 => 4
  | _ => 0

/-- What a queue answers: always the first unread octets. -/
def Op.answer (q : Fifo UInt8) : Op → Output
  | .read n => .bytes (q.unread.take n)
  | .readAll => .bytes q.unread
  | .peek n => .counted (min n q.unread.length) (q.unread.take n)
  | .peekInto dst n =>
    .counted (min n q.unread.length) (q.unread.take n ++ dst.drop (min n q.unread.length))
  | .peekUInt32 => .word (decode32 host (q.unread.take 4))
  | .readUInt32 => .word (decode32 host (q.unread.take 4))
  | _ => .done

def fifoStep (s : Session (Fifo UInt8)) (op : Op) : Option (Session (Fifo UInt8)) :=
  some ⟨(s.state.enqueue (op.enqueued host)).dequeue (op.dequeued s.state),
    s.log ++ [(op, op.answer host s.state)]⟩

def fifoStart : Session (Fifo UInt8) := ⟨.empty, []⟩

/-- The callers' obligations: counts are 32-bit, a word is only read when four
octets are readable, and `write_index_` does not reach 2^32. -/
def Admissible (s : Session Buffer) : Op → Prop
  | .write content => s.state.writeIndex + content.length < 2 ^ 32
  | .writeChars src len => len ≤ src.length ∧ s.state.writeIndex + len < 2 ^ 32
  | .writeUInt32 _ => s.state.writeIndex + 4 < 2 ^ 32
  | .read n | .peek n | .haveRead n | .peekInto _ n => n < 2 ^ 32
  | .peekUInt32 | .readUInt32 => 4 ≤ s.state.readableBytes
  | .readAll => True

instance (s : Session Buffer) (op : Op) : Decidable (Admissible s op) := by
  cases op <;> unfold Admissible <;> infer_instance

/-! ## Refinement -/

/-- The buffer represents the unread part of the queue. -/
structure Represents (b : Buffer) (q : Fifo UInt8) : Prop where
  valid : b.Valid
  contents : b.unread = q.unread

theorem represents_write {b : Buffer} {q : Fifo UInt8} (rep : Represents b q) {content : Bytes}
    (room : b.writeIndex + content.length < 2 ^ 32) :
    Represents (b.write content) ((q.enqueue content).dequeue 0) := by
  refine ⟨rep.valid.write_valid room, ?_⟩
  rw [rep.valid.unread_write room, rep.contents, Fifo.unread_dequeue, Fifo.unread_enqueue,
    List.drop_zero]

theorem represents_haveRead {b : Buffer} {q : Fifo UInt8} (rep : Represents b q) {n : Nat}
    (narrow : n < 2 ^ 32) : Represents (b.haveRead n) ((q.enqueue []).dequeue n) := by
  refine ⟨rep.valid.haveRead_valid narrow, ?_⟩
  rw [rep.valid.unread_haveRead narrow, rep.contents, Fifo.unread_dequeue, Fifo.unread_enqueue,
    List.append_nil]

theorem represents_read {b : Buffer} {q : Fifo UInt8} (rep : Represents b q) {n : Nat}
    (narrow : n < 2 ^ 32) :
    (b.read n).1 = q.unread.take n ∧ Represents (b.read n).2 ((q.enqueue []).dequeue n) := by
  refine ⟨?_, rep.valid.read_valid narrow, ?_⟩
  · rw [rep.valid.read_eq narrow, rep.contents]
  · rw [rep.valid.unread_read narrow, rep.contents, Fifo.unread_dequeue, Fifo.unread_enqueue,
      List.append_nil]

theorem represents_same {b : Buffer} {q : Fifo UInt8} (rep : Represents b q) :
    Represents b ((q.enqueue []).dequeue 0) := by
  refine ⟨rep.valid, ?_⟩
  rw [rep.contents, Fifo.unread_dequeue, Fifo.unread_enqueue, List.append_nil, List.drop_zero]

/-- One call: same answer, and the representation is kept. -/
theorem exec_refines {s : Session Buffer} {q : Fifo UInt8} (rep : Represents s.state q) (op : Op)
    (admissible : Admissible s op) :
    (exec host s.state op).2 = op.answer host q ∧
      Represents (exec host s.state op).1
        ((q.enqueue (op.enqueued host)).dequeue (op.dequeued q)) := by
  have valid := rep.valid
  have contents := rep.contents
  cases op with
  | write content => exact ⟨rfl, represents_write rep admissible⟩
  | writeChars src len =>
    obtain ⟨addressed, room⟩ := admissible
    refine ⟨rfl, ?_⟩
    simp only [exec, Buffer.writeChars_eq_write addressed]
    exact represents_write rep (by rw [List.length_take]; omega)
  | writeUInt32 number =>
    refine ⟨rfl, ?_⟩
    simp only [exec, Buffer.writeUInt32_eq_write]
    exact represents_write rep (by rw [encode32_length]; exact admissible)
  | read n =>
    obtain ⟨same, rep'⟩ := represents_read rep admissible
    exact ⟨congrArg Output.bytes same, rep'⟩
  | readAll =>
    obtain ⟨same, rep'⟩ := represents_read rep valid.unread_length_lt
    simp only [exec, valid.readAll_eq, same, Op.answer, Op.enqueued, Op.dequeued]
    rw [← contents, List.take_length]
    exact ⟨rfl, contents ▸ rep'⟩
  | peek n =>
    refine ⟨?_, represents_same rep⟩
    simp only [exec, valid.peek_eq admissible, contents, Op.answer]
  | peekInto dst n =>
    refine ⟨?_, represents_same rep⟩
    simp only [exec, valid.peekInto_eq admissible, contents, Op.answer]
  | peekUInt32 =>
    refine ⟨?_, represents_same rep⟩
    simp only [exec, Buffer.peekUInt32, valid.peek_eq (show 4 < 2 ^ 32 by decide),
      contents, Op.answer]
  | readUInt32 =>
    obtain ⟨same, rep'⟩ := represents_read rep (show 4 < 2 ^ 32 by decide)
    exact ⟨congrArg (fun octets => Output.word (decode32 host octets)) same, rep'⟩
  | haveRead n => exact ⟨rfl, represents_haveRead rep admissible⟩

/-! ## Words come back in the order they were given -/

def wordsGiven (log : List (Op × Output)) : List UInt32 :=
  log.filterMap fun
    | (.writeUInt32 number, _) => some number
    | _ => none

def wordsReturned (log : List (Op × Output)) : List UInt32 :=
  log.filterMap fun
    | (.readUInt32, .word number) => some number
    | _ => none

/-- Octets enter and leave as words only; looking at them is always allowed. -/
def Op.WordsOnly : Op → Bool
  | .writeUInt32 _ | .readUInt32 | .peek _ | .peekInto _ _ | .peekUInt32 => true
  | _ => false

/-- After `k` words were read, the history is the words given and the reader
stands behind the first `k` of them. -/
def WordOrder (t : Session (Fifo UInt8)) : Prop :=
  (∀ entry ∈ t.log, entry.1.WordsOnly = true) →
    ∃ k, k ≤ (wordsGiven t.log).length ∧
      t.state.written = (wordsGiven t.log).flatMap (encode32 host) ∧
      t.state.consumed = 4 * k ∧ wordsReturned t.log = (wordsGiven t.log).take k

theorem words_length (words : List UInt32) :
    (words.flatMap (encode32 host)).length = 4 * words.length := by
  induction words with
  | nil => rfl
  | cons word rest ih =>
    simp only [List.flatMap_cons, List.length_append, encode32_length, List.length_cons, ih]
    omega

/-- The octets behind the first `k` words start with the next word. -/
theorem words_drop (words : List UInt32) (k : Nat) (more : k < words.length) :
    ((words.flatMap (encode32 host)).drop (4 * k)).take 4 = encode32 host words[k] := by
  induction words generalizing k with
  | nil => simp at more
  | cons word rest ih =>
    have four := encode32_length host word
    cases k with
    | zero =>
      simp only [List.flatMap_cons, Nat.mul_zero, List.drop_zero, List.getElem_cons_zero]
      rw [List.take_left' four]
    | succ k =>
      have shift : 4 * (k + 1) = (encode32 host word).length + 4 * k := by omega
      simp only [List.flatMap_cons, shift, List.drop_append, List.getElem_cons_succ,
        Nat.add_sub_cancel_left]
      rw [List.drop_eq_nil_of_le (by omega), List.nil_append]
      exact ih k (by simpa using more)

theorem wordOrder_readUInt32 {t : Session (Fifo UInt8)} (order : WordOrder host t)
    (readable : 4 ≤ t.state.unread.length) {t' : Session (Fifo UInt8)}
    (stepped : fifoStep host t .readUInt32 = some t') : WordOrder host t' := by
  cases stepped
  intro only
  obtain ⟨k, bound, history, position, returned⟩ := order (fun entry member => only entry (by
    simp only [List.mem_append, member, true_or]))
  have behind : t.state.unread = t.state.written.drop t.state.consumed := rfl
  have more : k < (wordsGiven t.log).length := by
    have := words_length host (wordsGiven t.log)
    rw [behind, List.length_drop, history, position] at readable
    omega
  have front : t.state.unread.take 4 = encode32 host (wordsGiven t.log)[k] := by
    rw [behind, history, position]
    exact words_drop host _ k more
  refine ⟨k + 1, ?_, ?_, ?_, ?_⟩
  · simpa [wordsGiven] using more
  · simpa [wordsGiven, Op.enqueued] using history
  · have count : min 4 t.state.unread.length = 4 := by omega
    simp only [Op.enqueued, Op.dequeued, Fifo.dequeue, Fifo.unread_enqueue, List.append_nil, count]
    change t.state.consumed + 4 = 4 * (k + 1)
    omega
  · have given : wordsGiven (t.log ++ [(Op.readUInt32, Op.answer host t.state .readUInt32)]) =
        wordsGiven t.log := by simp [wordsGiven]
    have last : wordsReturned (t.log ++ [(Op.readUInt32, Op.answer host t.state .readUInt32)]) =
        wordsReturned t.log ++ [(wordsGiven t.log)[k]] := by
      simp [wordsReturned, Op.answer, front]
    rw [given, last, returned, List.take_append_getElem]

theorem wordOrder_writeUInt32 {t : Session (Fifo UInt8)} (order : WordOrder host t)
    {number : UInt32} {t' : Session (Fifo UInt8)}
    (stepped : fifoStep host t (.writeUInt32 number) = some t') : WordOrder host t' := by
  cases stepped
  intro only
  obtain ⟨k, bound, history, position, returned⟩ := order (fun entry member => only entry (by
    simp only [List.mem_append, member, true_or]))
  have given : wordsGiven
    (t.log ++ [(Op.writeUInt32 number, Op.answer host t.state (.writeUInt32 number))]) =
      wordsGiven t.log ++ [number] := by simp [wordsGiven]
  refine ⟨k, ?_, ?_, ?_, ?_⟩
  · simp only [given, List.length_append]
    omega
  · simp only [given, List.flatMap_append, Fifo.written_dequeue, Fifo.written_enqueue, history,
      Op.enqueued, List.flatMap_singleton]
  · simpa [Fifo.dequeue, Fifo.enqueue, Op.dequeued] using position
  · rw [given, List.take_append_of_le_length bound, ← returned]
    simp [wordsReturned]

/-- Peeks leave the history alone; any other call is outside the premise. -/
theorem wordOrder_other {t : Session (Fifo UInt8)} (order : WordOrder host t) {op : Op}
    (notWrite : ∀ number, op ≠ .writeUInt32 number) (notRead : op ≠ .readUInt32)
    {t' : Session (Fifo UInt8)} (stepped : fifoStep host t op = some t') : WordOrder host t' := by
  cases stepped
  intro only
  obtain ⟨k, bound, history, position, returned⟩ := order (fun entry member => only entry (by
    simp only [List.mem_append, member, true_or]))
  have here : op.WordsOnly = true := only (op, op.answer host t.state) (by simp)
  refine ⟨k, ?_⟩
  cases op with
  | peek n => simpa [wordsGiven, wordsReturned, Op.enqueued, Op.dequeued,
    Fifo.dequeue, Fifo.enqueue]
      using ⟨bound, history, position, returned⟩
  | peekInto dst n =>
    simpa [wordsGiven, wordsReturned, Op.enqueued, Op.dequeued, Fifo.dequeue, Fifo.enqueue]
      using ⟨bound, history, position, returned⟩
  | peekUInt32 =>
    simpa [wordsGiven, wordsReturned, Op.enqueued, Op.dequeued, Fifo.dequeue, Fifo.enqueue]
      using ⟨bound, history, position, returned⟩
  | writeUInt32 number => exact absurd rfl (notWrite number)
  | readUInt32 => exact absurd rfl notRead
  | write content => cases here
  | writeChars src len => cases here
  | read n => cases here
  | readAll => cases here
  | haveRead n => cases here

/-! ## Whole runs -/

/-- Related sessions represent the same queue, returned the same values so far,
and the queue's history is what the calls of the log wrote. -/
structure SameSession (s : Session Buffer) (t : Session (Fifo UInt8)) : Prop where
  rep : Represents s.state t.state
  log : s.log = t.log
  history : t.state.written = t.log.flatMap fun entry => entry.1.enqueued host
  words : WordOrder host t

theorem step_simulates (s : Session Buffer) (t : Session (Fifo UInt8)) (op : Op)
    (same : SameSession host s t) (admissible : Admissible s op) :
    ∃ s' t', step host s op = some s' ∧ fifoStep host t op = some t' ∧ SameSession host s' t' := by
  obtain ⟨answer, rep⟩ := exec_refines host same.rep op admissible
  refine ⟨⟨(exec host s.state op).1, s.log ++ [(op, (exec host s.state op).2)]⟩, _, rfl, rfl,
    rep, ?_, ?_, ?_⟩
  · rw [answer, same.log]
  · simp only [Fifo.written_dequeue, Fifo.written_enqueue, same.history, List.flatMap_append,
      List.flatMap_singleton]
  · by_cases isRead : op = .readUInt32
    · subst isRead
      refine wordOrder_readUInt32 host same.words ?_ rfl
      have readable : 4 ≤ s.state.readableBytes := admissible
      rwa [same.rep.valid.readableBytes_eq, same.rep.contents] at readable
    · by_cases isWrite : ∃ number, op = .writeUInt32 number
      · obtain ⟨number, rfl⟩ := isWrite
        exact wordOrder_writeUInt32 host same.words rfl
      · exact wordOrder_other host same.words (fun number eq => isWrite ⟨number, eq⟩) isRead rfl

theorem same_start : SameSession host start fifoStart := by
  refine ⟨⟨Buffer.valid_fresh, rfl⟩, rfl, rfl, fun _ => ⟨0, Nat.le_refl 0, rfl, rfl, rfl⟩⟩

theorem fifoRun_log {t t' : Session (Fifo UInt8)} {ops : List Op}
    (reached : run (fifoStep host) t ops = some t') :
    t'.log.map Prod.fst = t.log.map Prod.fst ++ ops := by
  induction ops generalizing t with
  | nil =>
    cases reached
    simp
  | cons op rest ih =>
    obtain ⟨next, stepped, remaining⟩ := run_cons_some reached
    cases stepped
    rw [ih remaining]
    simp

/-- A word is read back whole whenever the reader stands where it was written. -/
theorem readUInt32_of_offset {b : Buffer} {q : Fifo UInt8} (rep : Represents b q)
    {before after : Bytes} {number : UInt32}
    (history : q.written = before ++ encode32 host number ++ after)
    (position : q.consumed = before.length) : (b.readUInt32 host).1 = number := by
  have holds : q.HoldsAt q.consumed (encode32 host number) := by
    rw [Fifo.HoldsAt, history, position, List.append_assoc, List.drop_left]
    exact List.prefix_append _ _
  have front : q.unread.take 4 = encode32 host number := by
    simpa only [encode32_length] using holds.take_unread
  have read := (represents_read rep (show 4 < 2 ^ 32 by decide)).1
  simp only [Buffer.readUInt32, read, front, decode32_encode32]

/-- From a fresh buffer, every run of calls within the callers' obligations
behaves as the queue: the indices stay ordered inside the vector, the slice
between them is what was written minus what was consumed, every call returned
what the queue answers, a word read where a word was written is that word, and
when octets enter and leave as words only, the words come back in order. -/
theorem buffer_refines_fifo (ops : List Op)
    (admissible : RunMeets (step host) Admissible start ops) :
    ∃ s t, run (step host) start ops = some s ∧ run (fifoStep host) fifoStart ops = some t ∧
      (s.state.readIndex ≤ s.state.writeIndex ∧ s.state.writeIndex ≤ s.state.buffer.length) ∧
      t.state.written = ops.flatMap (Op.enqueued host) ∧
      s.state.unread = t.state.written.drop t.state.consumed ∧
      s.log = t.log ∧ s.log.map Prod.fst = ops ∧
      (∀ before number after, ops = before ++ .writeUInt32 number :: after →
        t.state.consumed = (before.flatMap (Op.enqueued host)).length →
        (s.state.readUInt32 host).1 = number) ∧
      ((∀ op ∈ ops, op.WordsOnly = true) → wordsReturned s.log <+: wordsGiven s.log) := by
  obtain ⟨s, t, concrete, abstract, same⟩ :=
    run_simulates (step_simulates host) (same_start host) admissible
  have calls : t.log.map Prod.fst = ops := fifoRun_log host abstract
  have history : t.state.written = ops.flatMap (Op.enqueued host) := by
    rw [same.history, ← calls, List.flatMap_map]
  refine ⟨s, t, concrete, abstract, ⟨same.rep.valid.ordered, same.rep.valid.stored⟩, history,
    same.rep.contents, same.log, by rw [same.log, calls], ?_, ?_⟩
  · intro before number after split position
    have there : t.state.written = before.flatMap (Op.enqueued host) ++ encode32 host number ++
        after.flatMap (Op.enqueued host) := by
      rw [history, split, List.flatMap_append, List.flatMap_cons, List.append_assoc]
      rfl
    exact readUInt32_of_offset host same.rep there position
  · intro only
    have onlyLog : ∀ entry ∈ t.log, entry.1.WordsOnly = true := by
      intro entry member
      exact only entry.1 (calls ▸ List.mem_map_of_mem member)
    obtain ⟨k, -, -, -, returned⟩ := same.words onlyLog
    rw [same.log, returned]
    exact List.take_prefix _ _

end

/-- A run with a partial read, a reset, a write in front of stale octets, and a
misaligned word in between. -/
theorem buffer_refines_fifo_mixed_run :
    ∃ s t, run (step .little) start
        [.writeUInt32 7, .write [1, 2], .read 4, .haveRead 9, .writeChars [3, 4, 5] 2,
          .writeUInt32 9, .peek 1, .haveRead 2, .readUInt32] = some s ∧
      run (fifoStep .little) fifoStart
        [.writeUInt32 7, .write [1, 2], .read 4, .haveRead 9, .writeChars [3, 4, 5] 2,
          .writeUInt32 9, .peek 1, .haveRead 2, .readUInt32] = some t ∧ s.log = t.log := by
  obtain ⟨s, t, concrete, abstract, -, -, -, log, -⟩ := buffer_refines_fifo .little
    [.writeUInt32 7, .write [1, 2], .read 4, .haveRead 9, .writeChars [3, 4, 5] 2,
      .writeUInt32 9, .peek 1, .haveRead 2, .readUInt32] (by decide)
  exact ⟨s, t, concrete, abstract, log⟩

end Ladder.Guarantees.BufferFifo
