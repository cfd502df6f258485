import Ladder.Library.Runs
import Ladder.Source.Connection

/-!
# The output stream of a send-file connection

Runs of `Send`, `SendFile` and write events on a connection built with `send_file`.
Every call appends one entry; the stream they stand for is the concatenation of the
entries, each with its file when the `open` call made for it succeeds.
-/
namespace Ladder.Guarantees.SendFileStream
open Ladder.Library Ladder.Source Ladder.Source.FileBuffer

inductive Act where
  | send (content : Bytes) (answers : List Answer)
  | sendFile (header filename : Bytes) (answers : List Answer)
  | writeEvent (answers : List Answer)
  deriving DecidableEq, Repr

structure State where
  connection : Connection
  /-- The entries added so far, in call order. -/
  entries : List FileInfo

def start : State := ⟨.create true false, []⟩

section
variable (kernel : Kernel)

def step (s : State) : Act → Option State
  | .send content answers =>
    (s.connection.send kernel content answers).map fun connection =>
      ⟨connection, s.entries ++ [⟨content, []⟩]⟩
  | .sendFile header filename answers =>
    (s.connection.sendFile kernel header filename answers).map fun connection =>
      ⟨connection, s.entries ++ [⟨header, filename⟩]⟩
  | .writeEvent answers =>
    (s.connection.onWriteCallback kernel answers []).map fun connection => ⟨connection, s.entries⟩

/-- The octets all calls so far stand for. -/
def expected (s : State) : Bytes := resolve kernel 0 s.entries

/-- The kernel takes octets or blocks, strings and headers are shorter than 2^32
octets, and no file is empty unless the kernel never blocks on sending nothing. -/
def Admissible : Act → Bool
  | .send content answers => answers.all Answer.mild && fits kernel ⟨content, []⟩
  | .sendFile header filename answers => answers.all Answer.mild && fits kernel ⟨header, filename⟩
  | .writeEvent answers => answers.all Answer.mild

/-! ## The invariant -/

/-- Between two calls, and between an `AddFile` and its flush. -/
structure Queued (entries : List FileInfo) (c : Connection) (files : FileBuffer) : Prop where
  buffered : c.writeBuffer = .file files
  sound : Sound kernel files c.disk
  running : c.shutDown = false
  held : c.channel.registered.isSome = true
  octets : c.accepted ++ outstanding kernel files c.disk = resolve kernel 0 entries
  calls : c.disk.openCalls + openings (waiting files) = openings entries

structure Inv (s : State) : Prop where
  queued : ∃ files, Queued kernel s.entries s.connection files
  returned : s.connection.returned = 0 ↔ s.connection.accepted = expected kernel s
  interest : polled s.connection.channel.events kPollOut = false →
    s.connection.accepted = expected kernel s

variable {kernel} {entries : List FileInfo} {c : Connection} {files : FileBuffer}

theorem Queued.addFile {header filename : Bytes} (queued : Queued kernel entries c files)
    (fit : fits kernel ⟨header, filename⟩ = true) :
    Queued kernel (entries ++ [⟨header, filename⟩])
      { c with writeBuffer := .file (files.addFile header filename) }
      (files.addFile header filename) := by
  obtain ⟨sound, queue, octets⟩ := addFile_effects queued.sound fit
  refine ⟨rfl, sound, queued.running, queued.held, ?_, ?_⟩
  · rw [octets, ← List.append_assoc, queued.octets, queued.calls, resolve_append, Nat.zero_add]
  · have calls := queued.calls
    simp only [queue, openings, List.map_append, List.sum_append] at calls ⊢
    omega

theorem Queued.accepted_iff (queued : Queued kernel entries c files) :
    outstanding kernel files c.disk = [] ↔ c.accepted = resolve kernel 0 entries := by
  rw [← queued.octets]
  constructor
  · intro nothing
    rw [nothing, List.append_nil]
  · intro all
    exact List.self_eq_append_right.mp all

/-- What a flush and the `EnableWrite` after it do to a send-file connection. -/
structure Flushes (kernel : Kernel) (entries : List FileInfo) (c : Connection)
    (answers : List Answer) (ret : Int) (flushed after : Connection) : Prop where
  flush : c.flush kernel answers = some (ret, flushed)
  running : flushed.shutDown = false
  enabled : flushed.enableWrite ret = some after
  queued : ∃ files, Queued kernel entries after files
  returned : after.returned = ret
  drained : ret = 0 ↔ after.accepted = resolve kernel 0 entries
  blocked : ret ≠ 0 → ret = -1
  interest : polled after.channel.events kPollOut = decide (ret < 0)
  refused : Refusing answers → after.accepted = c.accepted

theorem Queued.flushes {answers : List Answer} (queued : Queued kernel entries c files)
    (tolerated : ∀ answer ∈ answers, answer.tolerated = true) :
    ∃ ret flushed after, Flushes kernel entries c answers ret flushed after := by
  have sound : Sound kernel (Outgoing.mk files c.disk answers c.accepted).files
      (Outgoing.mk files c.disk answers c.accepted).disk := queued.sound
  obtain ⟨ret, s', returns⟩ := writeBufferToFd_returns sound tolerated
  obtain ⟨keeps, drained, blocked⟩ := writeBufferToFd_effects sound returns
  obtain ⟨channel, enabled⟩ := Channel.enableWrite_isSome queued.held (ret < 0)
  obtain ⟨-, held, -, interest⟩ := Channel.enableWrite_effects enabled
  let flushed : Connection :=
    { c with
      writeBuffer := .file s'.files
      disk := s'.disk
      accepted := s'.accepted
      returned := ret }
  have after : Queued kernel entries { flushed with channel := channel } s'.files :=
    ⟨rfl, keeps.sound, queued.running, held, keeps.octets.trans queued.octets,
      keeps.calls.trans queued.calls⟩
  exact ⟨ret, flushed, { flushed with channel := channel },
    { flush := Connection.flush_file queued.buffered returns
      running := queued.running
      enabled := Connection.enableWrite_channel enabled
      queued := ⟨s'.files, after⟩
      returned := rfl
      drained := drained.trans after.accepted_iff
      blocked := blocked
      interest := interest
      refused := fun refusing => FileBuffer.writeBufferToFd_refused refusing returns }⟩

/-- Every call ends by flushing and by `EnableWrite` with the result. -/
theorem Queued.transmit {answers : List Answer} (queued : Queued kernel entries c files)
    (mild : answers.all Answer.mild = true) :
    ∃ ret flushed after, c.flush kernel answers = some (ret, flushed) ∧ flushed.shutDown = false ∧
      flushed.enableWrite ret = some after ∧ Inv kernel ⟨after, entries⟩ := by
  rw [List.all_eq_true] at mild
  obtain ⟨ret, flushed, after, effects⟩ :=
    queued.flushes fun answer member => Answer.tolerated_of_mild (mild answer member)
  refine ⟨ret, flushed, after, effects.flush, effects.running, effects.enabled,
    effects.queued, ?_, ?_⟩
  · rw [effects.returned]
    exact effects.drained
  · intro cleared
    apply effects.drained.mp
    by_contra stuck
    have negative : decide (ret < 0) = true := by simp [effects.blocked stuck]
    have interest := effects.interest
    rw [negative] at interest
    exact Bool.false_ne_true (cleared.symm.trans interest)

/-! ## Steps and runs -/

theorem step_send {s : State} {content : Bytes} {answers : List Answer} {after : Connection}
    (sent : s.connection.send kernel content answers = some after) :
    step kernel s (.send content answers) = some ⟨after, s.entries ++ [⟨content, []⟩]⟩ := by
  simp only [step, sent, Option.map_some]

theorem step_inv (s : State) (act : Act) (inv : Inv kernel s)
    (admissible : Admissible kernel act = true) :
    ∃ next, step kernel s act = some next ∧ Inv kernel next := by
  obtain ⟨files, queued⟩ := inv.queued
  cases act with
  | send content answers =>
    simp only [Admissible, Bool.and_eq_true] at admissible
    obtain ⟨ret, flushed, after, flushes, -, enabled, inv'⟩ :=
      (queued.addFile admissible.2).transmit admissible.1
    have written : s.connection.writeBuffer.write content = .file (files.addFile content []) := by
      rw [queued.buffered]
      rfl
    rw [← written] at flushes
    exact ⟨_, step_send (Connection.send_running queued.running flushes enabled), inv'⟩
  | sendFile header filename answers =>
    simp only [Admissible, Bool.and_eq_true] at admissible
    obtain ⟨ret, flushed, after, flushes, -, enabled, inv'⟩ :=
      (queued.addFile admissible.2).transmit admissible.1
    exact ⟨_, congrArg (Option.map _)
      (Connection.sendFile_running queued.running queued.buffered flushes enabled), inv'⟩
  | writeEvent answers =>
    obtain ⟨ret, flushed, after, flushes, running, enabled, inv'⟩ := queued.transmit admissible
    exact ⟨_, congrArg (Option.map _) (Connection.onWriteCallback_running flushes running enabled),
      inv'⟩

variable (kernel) in
theorem inv_start : Inv kernel start := by
  refine ⟨⟨.fresh, ⟨rfl, ?_, rfl, rfl, rfl, rfl⟩⟩, ⟨fun _ => rfl, fun _ => rfl⟩, fun _ => rfl⟩
  exact FileBuffer.sound_of_closed rfl Buffer.valid_fresh Buffer.tight_fresh nofun

variable (kernel) in
/-- Every run of admissible calls goes through, and after each call: the socket has
taken a front part of the stream, `WriteBufferToFd` returned 0 exactly when it has
taken all of it, and without EPOLLOUT in `events_` nothing is left unsent. -/
theorem send_file_stream (acts : List Act)
    (admissible : ∀ act ∈ acts, Admissible kernel act = true) :
    ∃ final, run (step kernel) start acts = some final ∧
      final.connection.accepted <+: expected kernel final ∧
      (final.connection.returned = 0 ↔ final.connection.accepted = expected kernel final) ∧
      (polled final.connection.channel.events kPollOut = false →
        final.connection.accepted = expected kernel final) := by
  have meets : RunMeets (step kernel) (fun _ act => Admissible kernel act = true) start acts :=
    .of_forall (fun act member _ => admissible act member) start
  obtain ⟨final, reached, inv⟩ := run_enabled step_inv (inv_start kernel) meets
  obtain ⟨files, queued⟩ := inv.queued
  exact ⟨final, reached, ⟨_, queued.octets⟩, inv.returned, inv.interest⟩

end

/-- A disk with the one file `f`, whose first `open` fails. -/
def oneFile : Kernel where
  content filename := if filename = [102] then [1, 2, 3] else []
  openAt call := if call = 0 then none else some 7
  positive call fd opened := by
    split at opened
    · cases opened
    · cases opened
      decide
  zeroNeverBlocks := false

/-- A string, the file refused by `open`, then the file, with the socket blocking
inside of each. -/
def mixed : List Act :=
  [.send [65, 66] [.accept 0], .sendFile [67] [102] [.accept 9, .accept 9],
    .sendFile [68] [102] [.accept 0, .accept 1], .writeEvent [.accept 0]]

theorem send_file_stream_mixed :
    ∃ final, run (step oneFile) start mixed = some final ∧
      final.connection.accepted = [65, 66, 67, 68, 1, 2, 3] ∧
      final.connection.accepted <+: expected oneFile final := by
  obtain ⟨final, reached, front, -⟩ := send_file_stream oneFile mixed (by decide)
  have taken : (run (step oneFile) start mixed).map (fun final => final.connection.accepted) =
      some [65, 66, 67, 68, 1, 2, 3] := by decide +kernel
  rw [reached, Option.map_some, Option.some.injEq] at taken
  exact ⟨final, reached, taken, front⟩

/-! ## A string of 2^32 octets -/

/-- Writing 2^32 octets brings the write index back to where it was. -/
theorem wrapped_write {content : Bytes} (long : content.length = 2 ^ 32) :
    Buffer.fresh.write content = ⟨0, 0, content⟩ := by
  simp [Buffer.write, Buffer.fresh, u32, long]

theorem flushInner_reset (s : Outgoing) (atStart : s.files.buffer.readIndex = 0)
    (nothing : s.files.buffer.writeIndex = 0) : flushInner s = some (0, s) := by
  have drained : ¬ 0 < s.files.buffer.readableBytes := by
    simp [Buffer.readableBytes, u32, atStart, nothing]
  simp only [flushInner, Buffer.writeBufferToFd_drained drained, Option.map_some, List.append_nil]

/-- A call whose only entry has no file and is flushed at once. Stated for any
state: the write index of a concrete one is not to be computed. -/
theorem flush_single {kernel : Kernel} {s after : Outgoing} {entry : FileInfo}
    (queue : s.files.pendingFiles = [entry]) (closed : s.files.fd = 0)
    (before : flushInner s = some (0, s))
    (opened : openFront kernel entry [] s.files s.disk = (after.files, s.disk))
    (flushes : flushInner { s with files := after.files } = some (0, after))
    (popped : after.files.pendingFiles = []) (still : after.files.fd = 0) :
    FileBuffer.writeBufferToFd kernel s = some (0, after) := by
  have once : sendRound kernel entry [] s = some (none, after) := by
    simp only [sendRound, closed, if_true, opened, flushes, still, Int.lt_irrefl, if_false]
  simp only [FileBuffer.writeBufferToFd, before, Int.lt_irrefl, if_false, queue,
    List.length_singleton]
  have twice : 1 + s.answers.length + 1 = s.answers.length + 2 := by omega
  rw [twice]
  simp only [sendRounds, queue, once, popped]

/-- The inner flush sees nothing to send, and the entry is gone. -/
theorem wrapped_flush {content : Bytes} (long : content.length = 2 ^ 32) (disk : Disk) :
    FileBuffer.writeBufferToFd oneFile ⟨⟨[⟨content, []⟩], .fresh, 0, 0, 0⟩, disk, [], []⟩ =
      some (0, ⟨⟨[], ⟨0, 0, content⟩, 0, 0, 0⟩, disk, [], []⟩) := by
  have opened : openFront oneFile ⟨content, []⟩ [] ⟨[⟨content, []⟩], .fresh, 0, 0, 0⟩ disk =
      (⟨[], ⟨0, 0, content⟩, 0, 0, 0⟩, disk) := by
    simp only [openFront, wrapped_write long, List.isEmpty_nil, if_true]
  exact flush_single rfl rfl (flushInner_reset _ rfl rfl) opened
    (flushInner_reset _ rfl rfl) rfl rfl

theorem wrapped_send {content : Bytes} (long : content.length = 2 ^ 32) :
    ∃ final, run (step oneFile) start [.send content []] = some final ∧
      expected oneFile final = content ∧ final.connection.accepted = [] ∧
      final.connection.returned = 0 ∧ polled final.connection.channel.events kPollOut = false := by
  have held : Channel.initialised.registered.isSome = true := rfl
  obtain ⟨channel, enabled⟩ := Channel.enableWrite_isSome held false
  obtain ⟨-, -, -, cleared⟩ := Channel.enableWrite_effects enabled
  have buffered : (Connection.create true false).writeBuffer.write content =
      .file ⟨[⟨content, []⟩], .fresh, 0, 0, 0⟩ := rfl
  obtain ⟨after, sent, quiet, returned, interest⟩ : ∃ after,
      (Connection.create true false).send oneFile content [] = some after ∧ after.accepted = [] ∧
        after.returned = 0 ∧ after.channel = channel :=
    ⟨_, Connection.send_running rfl (Connection.flush_file buffered (wrapped_flush long _))
      (Connection.enableWrite_channel enabled), rfl, rfl, rfl⟩
  have stepped : step oneFile start (.send content []) = some ⟨after, [⟨content, []⟩]⟩ :=
    step_send (s := start) sent
  refine ⟨⟨after, [⟨content, []⟩]⟩, run_single stepped, ?_, quiet, returned, ?_⟩
  · simp only [expected, resolve, resolved, List.isEmpty_nil, if_true, List.append_nil]
  · rw [interest]
    exact cleared

/-- `Send` of 2^32 octets: nothing goes out, `WriteBufferToFd` reports that all is
sent, and the write interest is cleared. -/
theorem send_file_stream_wraps :
    ∃ content : Bytes, content.length = 2 ^ 32 ∧
      ∃ final, run (step oneFile) start [.send content []] = some final ∧
        expected oneFile final = content ∧ final.connection.accepted = [] ∧
        final.connection.returned = 0 ∧ polled final.connection.channel.events kPollOut = false :=
  ⟨List.replicate (2 ^ 32) 0, List.length_replicate, wrapped_send List.length_replicate⟩

end Ladder.Guarantees.SendFileStream
