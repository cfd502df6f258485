import Ladder.Library.Runs
import Ladder.Source.Connection

/-!
# Replies on a half-closed connection

Read and write events of a plain connection whose read callback runs inside the
read handler. The peer's FIN sets `shut_down_` before the callback runs, and `Send`
does nothing once it is set: replies to data that arrives together with the FIN are
dropped. The guarantee is about the runs in which that does not happen.
-/
namespace Ladder.Guarantees.HalfClose
open Ladder.Library Ladder.Source

inductive Act where
  | readEvent (incoming : List Incoming) (replies : List Reply)
  | writeEvent (answers : List Answer)
  deriving DecidableEq, Repr

def start : Connection := .create false true

/-- Events are delivered while the channel is registered. -/
def step (c : Connection) (act : Act) : Option Connection :=
  if c.channel.registered.isSome then
    match act with
    | .readEvent incoming replies => c.onReadCallback .noFiles incoming (some replies)
    | .writeEvent answers => c.onWriteCallback .noFiles answers []
  else none

/-- Strings the read callback has passed to `Send`. -/
def passed (trace : List Effect) : List Bytes :=
  trace.filterMap fun
    | .passed content => some content
    | _ => none

/-- `Close` or `OnCloseCallback` has been reached. -/
def closing (trace : List Effect) : Bool :=
  trace.any fun
    | .close | .onCloseCallback => true
    | _ => false

/-- The reads of an event reach the end of the peer's stream. -/
def reachesFin : List Incoming → Bool
  | .data octets :: rest => octets.isEmpty || reachesFin rest
  | _ => false

/-- The reads of an event end with a reset. -/
def reachesReset : List Incoming → Bool
  | .data octets :: rest => !octets.isEmpty && reachesReset rest
  | .fail errno :: _ => errno == .econnreset
  | [] => false

def sends : List Reply → Bytes
  | [] => []
  | .consume _ :: rest => sends rest
  | .send content _ :: rest => content ++ sends rest

def isSend : Reply → Bool
  | .send _ _ => true
  | .consume _ => false

def writeIndex (c : Connection) : Nat :=
  match c.writeBuffer with
  | .plain buffer => buffer.writeIndex
  | .file _ => 0

/-- No callback sends in the event that reads the FIN, a reset finds nothing unsent,
and the write index never wraps. -/
def Gentle (c : Connection) : Act → Bool
  | .readEvent incoming replies =>
    c.shutDown ||
      (!reachesFin incoming || !replies.any isSend) &&
      (!reachesReset incoming || c.writeBuffer.empty) &&
      writeIndex c + (sends replies).length < 2 ^ 32
  | .writeEvent _ => true

/-! ## The invariant -/

/-- Every string passed to `Send` is out or still in the write buffer. -/
structure Holds (c : Connection) (b : Buffer) : Prop where
  buffered : c.writeBuffer = .plain b
  valid : b.Valid
  octets : c.accepted ++ b.unread = (passed c.trace).flatten

structure Inv (c : Connection) : Prop where
  holds : ∃ b, Holds c b
  closed : closing c.trace = true → c.shutDown = true ∧ c.accepted = (passed c.trace).flatten

@[simp] theorem passed_append (front back : List Effect) :
    passed (front ++ back) = passed front ++ passed back := List.filterMap_append

section
variable {c flushed after : Connection} {b : Buffer} {ret : Int} {answers : List Answer}

theorem Holds.drained (holds : Holds c b) (empty : b.unread = []) :
    c.accepted = (passed c.trace).flatten := by
  have octets := holds.octets
  rwa [empty, List.append_nil] at octets

theorem Holds.empty (holds : Holds c b) (empty : c.writeBuffer.empty = true) :
    c.accepted = (passed c.trace).flatten := by
  rw [holds.buffered] at empty
  exact holds.drained (holds.valid.empty_iff.mp empty)

/-- A flush moves octets from the buffer to the socket. -/
theorem Holds.flush (holds : Holds c b) (flushes : c.flush .noFiles answers = some (ret, flushed)) :
    ∃ b', Holds flushed b' ∧ b'.writeIndex ≤ b.writeIndex ∧ flushed.trace = c.trace ∧
      flushed.shutDown = c.shutDown ∧ (b.unread = [] → b'.unread = []) := by
  simp only [Connection.flush, holds.buffered, Option.map_eq_some_iff, Prod.mk.injEq] at flushes
  obtain ⟨result, returns, -, rfl⟩ := flushes
  have effects := Buffer.writeBufferToFd_effects holds.valid returns
  refine ⟨result.buffer, ⟨rfl, effects.valid, ?_⟩, effects.index, rfl, rfl, ?_⟩
  · rw [List.append_assoc, effects.octets, holds.octets]
  · intro nothing
    exact (List.append_eq_nil_iff.mp (effects.octets.trans nothing)).2

theorem Holds.enableWrite (holds : Holds c b) (enabled : c.enableWrite ret = some after) :
    Holds after b ∧ after.trace = c.trace ∧ after.shutDown = c.shutDown := by
  simp only [Connection.enableWrite, Option.map_eq_some_iff] at enabled
  obtain ⟨channel, -, rfl⟩ := enabled
  exact ⟨⟨holds.buffered, holds.valid, holds.octets⟩, rfl, rfl⟩

/-- A reply sent on a connection that is not shut down. -/
theorem Holds.send {content : Bytes} (holds : Holds c b) (running : c.shutDown = false)
    (room : b.writeIndex + content.length < 2 ^ 32)
    (sent : Connection.send .noFiles content answers
      { c with trace := c.trace ++ [.passed content] } = some after) :
    ∃ b', Holds after b' ∧ b'.writeIndex ≤ b.writeIndex + content.length ∧
      after.trace = c.trace ++ [.passed content] ∧ after.shutDown = false := by
  unfold Connection.send at sent
  rw [if_neg (by simp [running])] at sent
  obtain ⟨⟨ret, flushed⟩, flushes, enabled⟩ := Option.bind_eq_some_iff.mp sent
  have written : Holds
      { c with
        trace := c.trace ++ [.passed content], writeBuffer := c.writeBuffer.write content }
      (b.write content) := by
    refine ⟨?_, holds.valid.write_valid room, ?_⟩
    · simp only [holds.buffered, IBuffer.write]
    · simp only [holds.valid.unread_write room, passed_append, List.flatten_append]
      rw [← List.append_assoc, holds.octets]
      simp [passed]
  obtain ⟨b', kept, index, trace, flag, -⟩ := written.flush flushes
  obtain ⟨final, trace', flag'⟩ := kept.enableWrite enabled
  rw [Buffer.writeIndex_write room] at index
  exact ⟨b', final, index, trace'.trans trace, flag'.trans (flag.trans running)⟩

/-- A whole read callback that may send. -/
theorem Holds.reply {replies : List Reply} (holds : Holds c b) (running : c.shutDown = false)
    (room : b.writeIndex + (sends replies).length < 2 ^ 32)
    (replied : Connection.reply .noFiles replies c = some after) :
    ∃ b', Holds after b' ∧ closing after.trace = closing c.trace ∧ after.shutDown = false := by
  induction replies generalizing c b with
  | nil =>
    cases replied
    exact ⟨b, holds, rfl, running⟩
  | cons first rest ih =>
    cases first with
    | consume n =>
      exact ih (c := { c with readBuffer := c.readBuffer.haveRead n })
        ⟨holds.buffered, holds.valid, holds.octets⟩ running room replied
    | send content answers =>
      simp only [sends, List.length_append] at room
      obtain ⟨next, sent, later⟩ := Option.bind_eq_some_iff.mp replied
      obtain ⟨b', kept, index, trace, flag⟩ := holds.send running (by omega) sent
      obtain ⟨b'', final, same, flag'⟩ := ih kept flag (by omega) later
      refine ⟨b'', final, ?_, flag'⟩
      rw [same, trace]
      simp [closing]

/-- A read callback that sends nothing. -/
theorem Holds.reply_quiet {replies : List Reply} (holds : Holds c b)
    (quiet : replies.any isSend = false)
    (replied : Connection.reply .noFiles replies c = some after) :
    Holds after b ∧ after.trace = c.trace ∧ after.shutDown = c.shutDown := by
  induction replies generalizing c with
  | nil =>
    cases replied
    exact ⟨holds, rfl, rfl⟩
  | cons first rest ih =>
    cases first with
    | consume n =>
      exact ih (c := { c with readBuffer := c.readBuffer.haveRead n })
        ⟨holds.buffered, holds.valid, holds.octets⟩ quiet replied
    | send content answers => cases quiet

end

/-! ## Steps and runs -/

/-- The value returned by the reads of an event. -/
theorem readBufferFromFd_ret {incoming : List Incoming} {b b' : Buffer} {ret : Int} {errno : Errno}
    (reads : b.readBufferFromFd incoming = some (ret, errno, b')) :
    (ret = 0 ∧ reachesFin incoming = true ∧ reachesReset incoming = false) ∨
      (ret = -1 ∧ reachesFin incoming = false ∧
        (reachesReset incoming = true ↔ errno = .econnreset)) := by
  induction incoming generalizing b with
  | nil =>
    cases reads
    exact .inr ⟨rfl, rfl, by simp [reachesReset]⟩
  | cons first rest ih =>
    cases first with
    | fail failure =>
      cases failure with
      | eagain =>
        cases reads
        exact .inr ⟨rfl, rfl, by simp [reachesReset]⟩
      | econnreset =>
        cases reads
        exact .inr ⟨rfl, rfl, by simp [reachesReset]⟩
      | epipe => cases reads
      | other => cases reads
    | data octets =>
      simp only [Buffer.readBufferFromFd] at reads
      split at reads
      · rename_i nothing
        have none : octets = [] := by
          simpa [kReadBufferSize] using nothing
        cases reads
        exact .inl ⟨rfl, by simp [reachesFin, none], by simp [reachesReset, none]⟩
      · rename_i something
        have some : octets ≠ [] := by
          rintro rfl
          exact something rfl
        simpa [reachesFin, reachesReset, some] using ih reads

variable {c after : Connection}

theorem onCloseCallback_inv {b : Buffer} (holds : Holds c b) (flag : c.shutDown = true)
    (all : c.accepted = (passed c.trace).flatten) : Inv c.onCloseCallback := by
  have nothing :
      passed (.onCloseCallback :: if c.notifies then [Effect.closeCallback] else []) = [] := by
    cases c.notifies <;> rfl
  refine ⟨⟨b, holds.buffered, holds.valid, ?_⟩, fun _ => ⟨flag, ?_⟩⟩
  · simpa only [Connection.onCloseCallback, passed_append, nothing, List.append_nil]
      using holds.octets
  · simpa only [Connection.onCloseCallback, passed_append, nothing, List.append_nil] using all

theorem close_inv {b : Buffer} (holds : Holds c b) (flag : c.shutDown = true)
    (all : c.accepted = (passed c.trace).flatten) : Inv c.close := by
  refine ⟨⟨b, holds.buffered, holds.valid, ?_⟩, fun _ => ⟨flag, ?_⟩⟩
  · simpa [Connection.close, passed] using holds.octets
  · simpa [Connection.close, passed] using all

/-- The last lines of the read handler. -/
theorem closeIfDrained_inv {b : Buffer} (holds : Holds c b) (notClosing : closing c.trace = false) :
    Inv (if c.shutDown && c.writeBuffer.empty then c.close else c) := by
  split
  · rename_i drained
    rw [Bool.and_eq_true] at drained
    exact close_inv holds drained.1 (holds.empty drained.2)
  · refine ⟨⟨b, holds⟩, ?_⟩
    rw [notClosing]
    exact nofun

/-- A read event on a connection that is not shut down yet. -/
theorem onReadCallback_inv {incoming : List Incoming} {replies : List Reply} (inv : Inv c)
    (running : c.shutDown = false) (gentle : Gentle c (.readEvent incoming replies) = true)
    (stepped : c.onReadCallback .noFiles incoming (some replies) = some after) : Inv after := by
  obtain ⟨b, holds⟩ := inv.holds
  have notClosing : closing c.trace = false := by
    by_contra reached
    rw [(inv.closed (by simpa using reached)).1] at running
    cases running
  simp only [Gentle, running, Bool.false_or, Bool.and_eq_true, decide_eq_true_eq, writeIndex,
    holds.buffered] at gentle
  obtain ⟨⟨quietFin, drainedReset⟩, room⟩ := gentle
  obtain ⟨ret, errno, readBuffer, reads, outcome⟩ := Connection.onReadCallback_cases running stepped
  have result := readBufferFromFd_ret reads
  rcases outcome with ⟨rfl, rfl, rfl⟩ | ⟨notReset, called, ran, rfl⟩
  · -- a reset finds nothing left to send
    have reset : reachesReset incoming = true := by
      rcases result with ⟨impossible, -⟩ | ⟨-, -, reset⟩
      · cases impossible
      · exact reset.mpr rfl
    have empty : c.writeBuffer.empty = true := by simpa [reset, holds.buffered] using drainedReset
    exact onCloseCallback_inv (b := b) ⟨holds.buffered, holds.valid, holds.octets⟩ rfl
      (holds.empty empty)
  · have entered : Holds
        { c with readBuffer := readBuffer, shutDown := decide (ret = 0 ∨ ret < -1) } b :=
      ⟨holds.buffered, holds.valid, holds.octets⟩
    rcases Connection.runReadCallback_cases ran with rfl | ⟨_, eq, replied⟩
    · exact closeIfDrained_inv entered notClosing
    · cases eq
      rcases result with ⟨rfl, fin, -⟩ | ⟨rfl, -, -⟩
      · -- with the FIN the callback runs with `shut_down_` set, and does not send
        have quiet : replies.any isSend = false := by simpa [fin] using quietFin
        obtain ⟨kept, trace, -⟩ := entered.reply_quiet quiet replied
        apply closeIfDrained_inv kept
        rw [trace]
        exact notClosing
      · obtain ⟨b', kept, same, -⟩ := entered.reply rfl room replied
        apply closeIfDrained_inv kept
        rw [same]
        exact notClosing

theorem onWriteCallback_inv {answers : List Answer} (inv : Inv c)
    (stepped : c.onWriteCallback .noFiles answers [] = some after) : Inv after := by
  obtain ⟨b, holds⟩ := inv.holds
  obtain ⟨ret, flushed, flushes, outcome⟩ := Connection.onWriteCallback_cases stepped
  obtain ⟨b', kept, -, trace, flag, drains⟩ := holds.flush flushes
  rcases outcome with ⟨drained, rfl⟩ | ⟨-, enabled⟩
  · rw [Bool.and_eq_true] at drained
    exact onCloseCallback_inv kept drained.1 (kept.empty drained.2)
  · obtain ⟨final, trace', flag'⟩ := kept.enableWrite enabled
    refine ⟨⟨b', final⟩, ?_⟩
    intro reached
    rw [trace', trace] at reached
    obtain ⟨down, all⟩ := inv.closed reached
    have nothing : b.unread = [] := by
      have octets := holds.octets
      rwa [all, List.append_right_eq_self] at octets
    exact ⟨(flag'.trans flag).trans down, final.drained (drains nothing)⟩

theorem step_inv (c : Connection) (act : Act) (next : Connection) (inv : Inv c)
    (gentle : Gentle c act = true) (stepped : step c act = some next) : Inv next := by
  unfold step at stepped
  split at stepped
  · cases act with
    | readEvent incoming replies =>
      cases running : c.shutDown with
      | false => exact onReadCallback_inv inv running gentle stepped
      | true =>
        simp only [Connection.onReadCallback, running, if_true, Option.some.injEq] at stepped
        subst next
        exact inv
    | writeEvent answers => exact onWriteCallback_inv inv stepped
  · cases stepped

theorem inv_start : Inv start := ⟨⟨.fresh, rfl, Buffer.valid_fresh, rfl⟩, nofun⟩

/-- In every run of gentle events, each string the read callback passed to `Send` is
in the write buffer or accepted by the socket, and once `Close` or
`OnCloseCallback` is reached all of them are accepted. -/
theorem half_close_keeps_replies (acts : List Act) (final : Connection)
    (gentle : RunMeets step (fun c act => Gentle c act = true) start acts)
    (reached : run step start acts = some final) :
    ∃ b, final.writeBuffer = .plain b ∧
      final.accepted ++ b.unread = (passed final.trace).flatten ∧
      (closing final.trace = true → final.accepted = (passed final.trace).flatten) := by
  have inv : Inv final := run_guarded step_inv inv_start gentle reached
  obtain ⟨b, holds⟩ := inv.holds
  exact ⟨b, holds.buffered, holds.octets, fun closed => (inv.closed closed).2⟩

/-- A request answered while the socket is full, then the FIN, then the rest. -/
def farewell : List Act :=
  [.readEvent [.data [1], .fail .eagain] [.consume 1, .send [65, 66] [.accept 0]],
    .readEvent [.data []] [], .writeEvent [.accept 9]]

theorem half_close_keeps_replies_farewell :
    ∃ final, run step start farewell = some final ∧ closing final.trace = true ∧
      final.accepted = [65, 66] ∧ final.accepted = (passed final.trace).flatten := by
  obtain ⟨b, -, -, all⟩ := half_close_keeps_replies farewell _ (by decide +kernel) rfl
  exact ⟨_, rfl, rfl, rfl, all rfl⟩

/-- Request and FIN in one read event: the reply is dropped and the connection is
closed. -/
theorem half_close_drops_reply :
    ∃ acts final, run step start acts = some final ∧ passed final.trace = [[65]] ∧
      final.accepted = [] ∧ final.writeBuffer = .plain .fresh ∧ closing final.trace = true :=
  ⟨[.readEvent [.data [1], .data []] [.consume 1, .send [65] [.accept 9]]], _, rfl,
    rfl, rfl, rfl, rfl⟩

end Ladder.Guarantees.HalfClose
