import Ladder.Library.Runs
import Ladder.Source.BufferTransfer
import Ladder.Source.Channel

/-!
# Two threads flushing one write buffer

A worker thread runs `Connection::Send`, the loop thread runs
`Connection::OnWriteCallback`, on a plain connection that is not shut down and has
no write callback. Each Buffer method and each system call is one step. Between
`Peek` and `HaveRead` a thread holds a copy of octets that are still in the buffer,
so the other thread can offer them to the socket a second time; the guarantee holds
for the runs that keep these windows apart.
-/
namespace Ladder.Guarantees.ConcurrentFlush
open Ladder.Library Ladder.Source Ladder.Source.Buffer

inductive Thread where
  | worker
  | loop
  deriving DecidableEq, Repr

/-- Where a thread stands in `Send` or `OnWriteCallback`. -/
inductive Position where
  | idle
  | sending (content : Bytes)
  | flushing (flush : Flush)
  deriving DecidableEq, Repr

inductive Act where
  | send (content : Bytes)
  | writeEvent
  | proceed (thread : Thread) (answer : Answer)
  deriving DecidableEq, Repr

structure State where
  buffer : Buffer
  channel : Channel
  position : Thread → Position
  /-- Strings passed to `Send`, in the order of their `Buffer::Write` steps. -/
  sent : List Bytes
  accepted : Bytes

def start : State := ⟨.fresh, .initialised, fun _ => .idle, [], []⟩

def State.moveTo (s : State) (thread : Thread) (position : Position) : State :=
  { s with position := fun other => if other = thread then position else s.position other }

/-- The next atomic operation of a thread inside `Send` or `OnWriteCallback`;
both end with `EnableWrite(ret)`. -/
def proceed (s : State) (thread : Thread) (answer : Answer) : Option State :=
  match s.position thread with
  | .idle => none
  | .sending content =>
    some ({ s with buffer := s.buffer.write content, sent := s.sent ++ [content] }.moveTo thread
      (.flushing .test))
  | .flushing (.returned ret) =>
    (s.channel.enableWrite (ret < 0)).map fun channel =>
      { s with channel := channel }.moveTo thread .idle
  | .flushing flush =>
    match flushStep answer s.buffer flush with
    | none => none
    | some (flush, buffer, octets) =>
      some ({ s with buffer := buffer, accepted := s.accepted ++ octets }.moveTo thread
        (.flushing flush))

def step (s : State) : Act → Option State
  | .send content =>
    match s.position .worker with
    | .idle => some (s.moveTo .worker (.sending content))
    | _ => none
  | .writeEvent =>
    match s.position .loop with
    | .idle => some (s.moveTo .loop (.flushing .test))
    | _ => none
  | .proceed thread answer => proceed s thread answer

def Thread.other : Thread → Thread
  | .worker => .loop
  | .loop => .worker

/-- Octets are out on the socket and still unread in the buffer. -/
def Position.unacknowledged : Position → Bool
  | .flushing (.haveRead _) => true
  | _ => false

/-- The thread holds a copy of unread octets. -/
def Position.holding : Position → Bool
  | .flushing (.write _) => true
  | position => position.unacknowledged

/-- No thread peeks while the other one has yet to acknowledge, none hands octets
to the socket while the other one holds a copy, and the write index never wraps. -/
def Exclusive (s : State) : Act → Bool
  | .send _ => true
  | .writeEvent => true
  | .proceed thread answer =>
    match s.position thread with
    | .sending content => s.buffer.writeIndex + content.length < 2 ^ 32
    | .flushing .peek => !(s.position thread.other).unacknowledged
    | .flushing (.write _) =>
      match answer with
      | .accept _ => !(s.position thread.other).holding
      | .fail _ => true
    | _ => true

/-! ## The invariant, seen from one thread -/

/-- Octets a thread has put on the socket and not yet consumed. -/
def Position.unacked : Position → Nat
  | .flushing (.haveRead ret) => ret
  | _ => 0

@[simp] theorem unacked_sending (content : Bytes) : (Position.sending content).unacked = 0 := rfl
@[simp] theorem unacked_test : (Position.flushing .test).unacked = 0 := rfl
@[simp] theorem unacked_write (buf : Bytes) : (Position.flushing (.write buf)).unacked = 0 := rfl
@[simp] theorem unacked_haveRead (ret : Nat) :
    (Position.flushing (.haveRead ret)).unacked = ret := rfl

theorem Position.unacked_eq_zero {p : Position} (acknowledged : p.unacknowledged = false) :
    p.unacked = 0 := by
  unfold Position.unacknowledged at acknowledged
  split at acknowledged
  · cases acknowledged
  · rename_i other
    unfold Position.unacked
    split
    · exact absurd rfl (other _)
    · rfl

/-- A copy held for the system call is a front part of the unread octets, and the
other thread has nothing to acknowledge. -/
def Held (b : Buffer) (mine theirs : Position) : Prop :=
  ∀ buf, mine = .flushing (.write buf) → buf <+: b.unread ∧ theirs.unacknowledged = false

structure Consistent (b : Buffer) (accepted all : Bytes) (mine theirs : Position) : Prop where
  valid : b.Valid
  octets : accepted ++ b.unread.drop (mine.unacked + theirs.unacked) = all
  bound : mine.unacked + theirs.unacked ≤ b.unread.length
  mineHeld : Held b mine theirs
  theirsHeld : Held b theirs mine
  single : mine.unacknowledged = true → theirs.unacknowledged = false

section
variable {b : Buffer} {accepted all : Bytes} {mine theirs : Position}

theorem Consistent.symm (ok : Consistent b accepted all mine theirs) :
    Consistent b accepted all theirs mine := by
  refine ⟨ok.valid, ?_, ?_, ok.theirsHeld, ok.mineHeld, ?_⟩
  · rw [Nat.add_comm]
    exact ok.octets
  · rw [Nat.add_comm]
    exact ok.bound
  · intro pending
    cases mineState : mine.unacknowledged with
    | false => rfl
    | true => rw [ok.single mineState] at pending; cases pending

/-- Moves between positions that neither hold a copy nor owe an acknowledgement. -/
theorem Consistent.quiet {after : Position} (ok : Consistent b accepted all mine theirs)
    (before : mine.unacknowledged = false) (quiet : after.holding = false) :
    Consistent b accepted all after theirs := by
  have settled : after.unacknowledged = false := by
    unfold Position.holding at quiet
    split at quiet
    · cases quiet
    · exact quiet
  have zero := Position.unacked_eq_zero settled
  have none := Position.unacked_eq_zero before
  refine ⟨ok.valid, ?_, ?_, ?_, ?_, ?_⟩
  · rw [zero, ← none]
    exact ok.octets
  · rw [zero, ← none]
    exact ok.bound
  · intro buf here
    subst here
    cases quiet
  · intro buf here
    exact ⟨(ok.theirsHeld buf here).1, settled⟩
  · intro pending
    rw [settled] at pending
    cases pending

/-- `Buffer::Write` appends behind everything the other thread may hold. -/
theorem Consistent.write {content : Bytes}
    (ok : Consistent b accepted all (.sending content) theirs)
    (room : b.writeIndex + content.length < 2 ^ 32) :
    Consistent (b.write content) accepted (all ++ content) (.flushing .test) theirs := by
  have unread := ok.valid.unread_write room
  have octets := ok.octets
  have bound := ok.bound
  rw [unacked_sending, ← unacked_test] at octets bound
  refine ⟨ok.valid.write_valid room, ?_, ?_, ?_, ?_, ?_⟩
  · rw [unread, List.drop_append_of_le_length bound, ← List.append_assoc, octets]
  · rw [unread, List.length_append]
    exact Nat.le_trans bound (Nat.le_add_right _ _)
  · intro buf here
    cases here
  · intro buf here
    rw [unread]
    exact ⟨(ok.theirsHeld buf here).1.trans (List.prefix_append _ _), rfl⟩
  · intro pending
    cases pending

theorem Consistent.peek (ok : Consistent b accepted all (.flushing .peek) theirs)
    (alone : theirs.unacknowledged = false) :
    Consistent b accepted all (.flushing (.write (b.peek kWriteBufferSize).2)) theirs := by
  refine ⟨ok.valid, ok.octets, ok.bound, ?_, ?_, ?_⟩
  · intro buf here
    cases here
    rw [ok.valid.peek_eq (show kWriteBufferSize < 2 ^ 32 by decide)]
    exact ⟨List.take_prefix _ _, alone⟩
  · intro buf here
    exact ⟨(ok.theirsHeld buf here).1, rfl⟩
  · intro pending
    cases pending

/-- The system call takes the first unread octets when nobody else holds a copy. -/
theorem Consistent.accept {buf : Bytes} {room : Nat}
    (ok : Consistent b accepted all (.flushing (.write buf)) theirs)
    (alone : theirs.holding = false) :
    Consistent b (accepted ++ buf.take (taken room buf.length)) all
      (.flushing (.haveRead (taken room buf.length))) theirs := by
  obtain ⟨front, acknowledged⟩ := ok.mineHeld buf rfl
  have zero := Position.unacked_eq_zero acknowledged
  have small := taken_le room buf.length
  have inside := front.length_le
  have octets := ok.octets
  have same : buf.take (taken room buf.length) = b.unread.take (taken room buf.length) := by
    obtain ⟨rest, whole⟩ := front
    rw [← whole, List.take_append_of_le_length small]
  refine ⟨ok.valid, ?_, ?_, ?_, ?_, fun _ => acknowledged⟩
  · simp only [zero, unacked_write, unacked_haveRead, Nat.add_zero, List.drop_zero] at octets ⊢
    rw [same, List.append_assoc, List.take_append_drop, octets]
  · rw [zero, unacked_haveRead]
    omega
  · intro other here
    cases here
  · intro other here
    subst here
    cases alone

/-- `HaveRead` settles the account; the other thread holds nothing meanwhile. -/
theorem Consistent.haveRead {ret : Nat}
    (ok : Consistent b accepted all (.flushing (.haveRead ret)) theirs) :
    Consistent (b.haveRead ret) accepted all (.flushing .test) theirs := by
  have acknowledged := ok.single rfl
  have zero := Position.unacked_eq_zero acknowledged
  have octets := ok.octets
  have bound := ok.bound
  have limit := ok.valid.unread_length_lt
  rw [zero, unacked_haveRead, Nat.add_zero] at octets bound
  have narrow : ret < 2 ^ 32 := by omega
  refine ⟨ok.valid.haveRead_valid narrow, ?_, ?_, ?_, ?_, ?_⟩
  · rw [zero, unacked_test, List.drop_zero, ok.valid.unread_haveRead narrow, octets]
  · rw [zero, unacked_test]
    exact Nat.zero_le _
  · intro buf here
    cases here
  · intro buf here
    cases (ok.theirsHeld buf here).2
  · intro pending
    cases pending

end

/-! ## Steps and runs -/

def Inv (s : State) : Prop :=
  Consistent s.buffer s.accepted s.sent.flatten (s.position .worker) (s.position .loop)

theorem Inv.seenFrom {s : State} (inv : Inv s) (thread : Thread) :
    Consistent s.buffer s.accepted s.sent.flatten (s.position thread)
      (s.position thread.other) := by
  cases thread with
  | worker => exact inv
  | loop => exact Consistent.symm inv

/-- A thread's move is judged from that thread's side. -/
theorem inv_moveTo {s : State} {thread : Thread} {position : Position}
    (ok : Consistent s.buffer s.accepted s.sent.flatten position (s.position thread.other)) :
    Inv (s.moveTo thread position) := by
  cases thread with
  | worker => exact ok
  | loop => exact ok.symm

theorem proceed_inv {s next : State} {thread : Thread} {answer : Answer} (inv : Inv s)
    (exclusive : Exclusive s (.proceed thread answer) = true)
    (stepped : proceed s thread answer = some next) : Inv next := by
  have ok := inv.seenFrom thread
  unfold proceed at stepped
  simp only [Exclusive] at exclusive
  cases here : s.position thread with
  | idle => simp [here] at stepped
  | sending content =>
    simp only [here, Option.some.injEq, decide_eq_true_eq] at stepped exclusive ok
    subst next
    apply inv_moveTo
    have wrote := ok.write exclusive
    simpa only [List.flatten_append, List.flatten_singleton] using wrote
  | flushing flush =>
    rw [here] at ok
    cases flush with
    | returned ret =>
      simp only [here, Option.map_eq_some_iff] at stepped
      obtain ⟨channel, -, rfl⟩ := stepped
      exact inv_moveTo (ok.quiet rfl rfl)
    | test =>
      simp only [here, flushStep, Option.some.injEq, List.append_nil] at stepped
      subst next
      refine inv_moveTo (ok.quiet rfl ?_)
      split <;> rfl
    | peek =>
      simp only [here, flushStep, Option.some.injEq, List.append_nil,
        Bool.not_eq_true'] at stepped exclusive
      subst next
      exact inv_moveTo (ok.peek exclusive)
    | write buf =>
      cases answer with
      | accept room =>
        simp only [here, flushStep, Option.some.injEq, Bool.not_eq_true'] at stepped exclusive
        subst next
        exact inv_moveTo (ok.accept exclusive)
      | fail errno =>
        have returns : next = s.moveTo thread (.flushing (.returned (-1))) := by
          cases errno <;> simp_all [flushStep]
        subst next
        exact inv_moveTo (ok.quiet rfl rfl)
    | haveRead ret =>
      simp only [here, flushStep, Option.some.injEq, List.append_nil] at stepped
      subst next
      exact inv_moveTo ok.haveRead

theorem step_inv (s : State) (act : Act) (next : State) (inv : Inv s)
    (exclusive : Exclusive s act = true) (stepped : step s act = some next) : Inv next := by
  cases act with
  | send content =>
    have ok := inv.seenFrom .worker
    simp only [step] at stepped
    split at stepped
    · rename_i here
      rw [here] at ok
      cases stepped
      exact inv_moveTo (ok.quiet rfl rfl)
    · cases stepped
  | writeEvent =>
    have ok := inv.seenFrom .loop
    simp only [step] at stepped
    split at stepped
    · rename_i here
      rw [here] at ok
      cases stepped
      exact inv_moveTo (ok.quiet rfl rfl)
    · cases stepped
  | proceed thread answer => exact proceed_inv inv exclusive stepped

theorem inv_start : Inv start := by
  refine ⟨valid_fresh, rfl, Nat.le_refl 0, ?_, ?_, fun _ => rfl⟩
  · intro buf here
    cases here
  · intro buf here
    cases here

/-- In every run that keeps the two threads' windows apart, the socket has received
a front part of what was sent, in the order of the `Buffer::Write` steps; and what
is missing is unread in the buffer, but for octets about to be acknowledged. -/
theorem concurrent_flush_in_order (acts : List Act) (final : State)
    (exclusive : RunMeets step (fun s act => Exclusive s act = true) start acts)
    (reached : run step start acts = some final) :
    final.accepted <+: final.sent.flatten ∧
      ((∀ thread, (final.position thread).unacknowledged = false) →
        final.accepted ++ final.buffer.unread = final.sent.flatten) := by
  have inv : Inv final := run_guarded step_inv inv_start exclusive reached
  refine ⟨⟨_, inv.octets⟩, ?_⟩
  intro acknowledged
  have octets := inv.octets
  rwa [Position.unacked_eq_zero (acknowledged .worker),
    Position.unacked_eq_zero (acknowledged .loop)] at octets

/-- A send that fills the socket, continued by a write event. -/
def relay : List Act :=
  [.send [65, 66], .proceed .worker (.accept 0), .proceed .worker (.accept 0),
    .proceed .worker (.accept 0), .proceed .worker (.accept 0), .proceed .worker (.accept 0),
    .proceed .worker (.accept 0), .proceed .worker (.accept 0), .proceed .worker (.fail .eagain),
    .proceed .worker (.accept 0), .writeEvent, .proceed .loop (.accept 0),
    .proceed .loop (.accept 0),
    .proceed .loop (.accept 0), .proceed .loop (.accept 0)]

theorem concurrent_flush_in_order_relay :
    ∃ final, run step start relay = some final ∧ final.accepted = [65, 66] ∧
      final.accepted <+: final.sent.flatten := by
  exact ⟨_, rfl, rfl, (concurrent_flush_in_order relay _ (by decide) rfl).1⟩

/-- Both threads peek before either writes: the octet goes out twice. -/
theorem concurrent_flush_duplicates :
    ∃ acts final, run step start acts = some final ∧ final.sent = [[65]] ∧
      final.accepted = [65, 65] ∧ ¬ final.accepted <+: final.sent.flatten := by
  refine ⟨[.send [65], .proceed .worker (.accept 0), .proceed .worker (.accept 0),
    .proceed .worker (.accept 0), .writeEvent, .proceed .loop (.accept 0),
    .proceed .loop (.accept 0), .proceed .worker (.accept 0), .proceed .loop (.accept 0)],
    _, rfl, rfl, rfl, ?_⟩
  change ¬ [65, 65] <+: [65]
  decide

end Ladder.Guarantees.ConcurrentFlush
