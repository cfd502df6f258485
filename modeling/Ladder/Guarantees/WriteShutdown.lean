import Ladder.Guarantees.SendFileStream

/-!
# Shutting down the write side

`Connection::ShutDownWrite` goes to `::shutdown(fd, SHUT_WR)` at once, whatever is still
in the write buffer. From then on the socket answers every write with EPIPE, which
both buffers take for a reason to try again later: nothing more goes out, on a plain
connection or on one that sends files.
-/
namespace Ladder.Guarantees.WriteShutdown
open Ladder.Library Ladder.Source Ladder.Source.FileBuffer
open Ladder.Guarantees.SendFileStream (Queued)

/-- A connection with the entries passed to it, and whether `SHUT_WR` has taken effect
on its socket. -/
structure State where
  stream : SendFileStream.State
  writeShut : Bool

inductive Act where
  | call (act : SendFileStream.Act)
  | shutDownWrite
  deriving DecidableEq, Repr

def start (sendFile : Bool) : State := ⟨⟨.create sendFile false, []⟩, false⟩

def answersTo : SendFileStream.Act → List Answer
  | .send _ answers | .sendFile _ _ answers | .writeEvent answers => answers

section
variable (kernel : Kernel)

/-- A socket whose write side is shut down answers every write with EPIPE. -/
def step (s : State) : Act → Option State
  | .call act =>
    if s.writeShut && (answersTo act).any (· != .fail .epipe) then none
    else (SendFileStream.step kernel s.stream act).map fun stream => { s with stream := stream }
  | .shutDownWrite => some { s with writeShut := true }

/-- What is in the write buffer: of the inner buffer, the open file and the entries. -/
def unsent (c : Connection) : Bytes :=
  match c.writeBuffer with
  | .plain buffer => buffer.unread
  | .file buffer => outstanding kernel buffer c.disk

/-- Calls before the shutdown: the kernel takes octets or blocks, `SendFile` is called on
connections built for it, and the sizes are in range. -/
def Admissible (s : State) : Act → Bool
  | .call (.send content answers) =>
    answers.all Answer.mild &&
      match s.stream.connection.writeBuffer with
      | .plain buffer => buffer.writeIndex + content.length < 2 ^ 32
      | .file _ => content.length < 2 ^ 32
  | .call (.sendFile header filename answers) =>
    answers.all Answer.mild &&
      match s.stream.connection.writeBuffer with
      | .plain _ => false
      | .file _ => fits kernel ⟨header, filename⟩
  | .call (.writeEvent answers) => answers.all Answer.mild
  | .shutDownWrite => false

/-! ## Both kinds of write buffer -/

/-- The counterpart of `Queued` for a plain connection. -/
structure Buffered (entries : List FileInfo) (c : Connection) (b : Buffer) : Prop where
  buffered : c.writeBuffer = .plain b
  valid : b.Valid
  running : c.shutDown = false
  held : c.channel.registered.isSome = true
  octets : c.accepted ++ b.unread = resolve kernel 0 entries

inductive Carries (entries : List FileInfo) (c : Connection) : Prop where
  | plain (b : Buffer) (buffered : Buffered kernel entries c b)
  | file (files : FileBuffer) (queued : Queued kernel entries c files)

variable {kernel} {entries : List FileInfo} {c : Connection} {answers : List Answer}

theorem Carries.octets (carries : Carries kernel entries c) :
    c.accepted ++ unsent kernel c = resolve kernel 0 entries := by
  cases carries with
  | plain b buffered =>
    simp only [unsent, buffered.buffered]
    exact buffered.octets
  | file files queued =>
    simp only [unsent, queued.buffered]
    exact queued.octets

theorem Carries.accepted_iff (carries : Carries kernel entries c) :
    c.accepted = resolve kernel 0 entries ↔ unsent kernel c = [] := by
  rw [← carries.octets]
  constructor
  · exact List.self_eq_append_right.mp
  · intro nothing
    rw [nothing, List.append_nil]

theorem Carries.running (carries : Carries kernel entries c) : c.shutDown = false := by
  cases carries with
  | plain b buffered => exact buffered.running
  | file files queued => exact queued.running

theorem resolve_text (entries : List FileInfo) (content : Bytes) :
    resolve kernel 0 (entries ++ [⟨content, []⟩]) = resolve kernel 0 entries ++ content := by
  rw [resolve_append]
  simp [resolve, resolved]

/-- `Send` up to its flush. -/
theorem Carries.write {content : Bytes} (carries : Carries kernel entries c)
    (room : match c.writeBuffer with
      | .plain buffer => buffer.writeIndex + content.length < 2 ^ 32
      | .file _ => content.length < 2 ^ 32) :
    Carries kernel (entries ++ [⟨content, []⟩])
      { c with writeBuffer := c.writeBuffer.write content } := by
  cases carries with
  | plain b buffered =>
    simp only [buffered.buffered] at room ⊢
    refine .plain (b.write content) ⟨rfl, buffered.valid.write_valid room, buffered.running,
      buffered.held, ?_⟩
    rw [buffered.valid.unread_write room, ← List.append_assoc, buffered.octets, resolve_text]
  | file files queued =>
    simp only [queued.buffered] at room ⊢
    exact .file _ (queued.addFile (by simpa [fits] using room))

/-- A flush and the `EnableWrite` after it. -/
theorem Carries.flushes (carries : Carries kernel entries c)
    (tolerated : ∀ answer ∈ answers, answer.tolerated = true) :
    ∃ ret flushed after, c.flush kernel answers = some (ret, flushed) ∧ flushed.shutDown = false ∧
      flushed.enableWrite ret = some after ∧ Carries kernel entries after ∧
      (Refusing answers → after.accepted = c.accepted) := by
  cases carries with
  | plain b buffered =>
    obtain ⟨result, returns⟩ := Buffer.writeBufferToFd_returns b tolerated
    have effects := Buffer.writeBufferToFd_effects buffered.valid returns
    obtain ⟨channel, enabled⟩ := Channel.enableWrite_isSome buffered.held (result.ret < 0)
    obtain ⟨-, held, -, -⟩ := Channel.enableWrite_effects enabled
    let flushed : Connection :=
      { c with
        writeBuffer := .plain result.buffer
        accepted := c.accepted ++ result.accepted
        returned := result.ret }
    refine ⟨result.ret, flushed, { flushed with channel := channel }, ?_, buffered.running,
      Connection.enableWrite_channel enabled, .plain result.buffer ⟨rfl, effects.valid,
        buffered.running, held, ?_⟩, ?_⟩
    · simp only [Connection.flush, buffered.buffered, returns, Option.map_some, flushed]
    · rw [List.append_assoc, effects.octets, buffered.octets]
    · intro refusing
      have nothing := (Buffer.writeBufferToFd_refused refusing returns).1
      simp only [flushed, nothing, List.append_nil]
  | file files queued =>
    obtain ⟨ret, flushed, after, effects⟩ := queued.flushes tolerated
    obtain ⟨files', queued'⟩ := effects.queued
    exact ⟨ret, flushed, after, effects.flush, effects.running, effects.enabled,
      .file files' queued', effects.refused⟩

/-- A write event. -/
theorem Carries.writeEvent (carries : Carries kernel entries c)
    (tolerated : ∀ answer ∈ answers, answer.tolerated = true) :
    ∃ after, SendFileStream.step kernel ⟨c, entries⟩ (.writeEvent answers) = some ⟨after, entries⟩ ∧
      Carries kernel entries after ∧ (Refusing answers → after.accepted = c.accepted) := by
  obtain ⟨ret, flushed, after, flushes, running, enabled, carries', refused⟩ :=
    carries.flushes tolerated
  exact ⟨after,
    congrArg (Option.map _) (Connection.onWriteCallback_running flushes running enabled),
    carries', refused⟩

/-! ## The calls before the shutdown -/

variable (kernel) in
def Inv (s : State) : Prop :=
  s.writeShut = false ∧ Carries kernel s.stream.entries s.stream.connection

theorem tolerated_of_all (mild : answers.all Answer.mild = true) :
    ∀ answer ∈ answers, answer.tolerated = true :=
  fun answer member => Answer.tolerated_of_mild (List.all_eq_true.mp mild answer member)

theorem step_inv (s : State) (act : Act) (inv : Inv kernel s)
    (admissible : Admissible kernel s act = true) :
    ∃ next, step kernel s act = some next ∧ Inv kernel next := by
  obtain ⟨⟨c, entries⟩, shut⟩ := s
  obtain ⟨rfl, carries⟩ := inv
  change Carries kernel entries c at carries
  cases act with
  | shutDownWrite => cases admissible
  | call act =>
    suffices stepped : ∃ stream, SendFileStream.step kernel ⟨c, entries⟩ act = some stream ∧
        Carries kernel stream.entries stream.connection by
      obtain ⟨stream, stepped, carries'⟩ := stepped
      exact ⟨⟨stream, false⟩, congrArg (Option.map _) stepped, rfl, carries'⟩
    cases act with
    | send content answers =>
      simp only [Admissible, Bool.and_eq_true] at admissible
      have room : match c.writeBuffer with
          | .plain buffer => buffer.writeIndex + content.length < 2 ^ 32
          | .file _ => content.length < 2 ^ 32 := by
        have fits := admissible.2
        split at fits <;> simpa using fits
      obtain ⟨ret, flushed, after, flushes, -, enabled, carries', -⟩ :=
        (carries.write room).flushes (tolerated_of_all admissible.1)
      exact ⟨_, congrArg (Option.map _) (Connection.send_running carries.running flushes enabled),
        carries'⟩
    | sendFile header filename answers =>
      simp only [Admissible, Bool.and_eq_true] at admissible
      cases carries with
      | plain b buffered => simp [buffered.buffered] at admissible
      | file files queued =>
        simp only [queued.buffered] at admissible
        have added : Carries kernel (entries ++ [⟨header, filename⟩])
            { c with writeBuffer := .file (files.addFile header filename) } :=
          .file _ (queued.addFile admissible.2)
        obtain ⟨ret, flushed, after, flushes, -, enabled, carries', -⟩ :=
          added.flushes (tolerated_of_all admissible.1)
        exact ⟨_, congrArg (Option.map _)
          (Connection.sendFile_running queued.running queued.buffered flushes enabled), carries'⟩
    | writeEvent answers =>
      obtain ⟨after, stepped, carries', -⟩ := carries.writeEvent (tolerated_of_all admissible)
      exact ⟨_, stepped, carries'⟩

variable (kernel) in
theorem inv_start (sendFile : Bool) : Inv kernel (start sendFile) := by
  refine ⟨rfl, ?_⟩
  cases sendFile with
  | false => exact .plain .fresh ⟨rfl, Buffer.valid_fresh, rfl, rfl, rfl⟩
  | true =>
    exact .file .fresh
      ⟨rfl, FileBuffer.sound_of_closed rfl Buffer.valid_fresh Buffer.tight_fresh nofun,
        rfl, rfl, rfl, rfl⟩

/-! ## The write events after it -/

/-- Write events on a socket whose write side is shut down deliver nothing. -/
theorem events_refused (carries : Carries kernel entries c) (events : List (List Answer))
    (refusing : ∀ answers ∈ events, Refusing answers) :
    ∃ after, run (step kernel) ⟨⟨c, entries⟩, true⟩
        (events.map fun answers => .call (.writeEvent answers)) = some ⟨⟨after, entries⟩, true⟩ ∧
      after.accepted = c.accepted := by
  induction events generalizing c with
  | nil => exact ⟨c, rfl, rfl⟩
  | cons answers rest ih =>
    have refused := refusing answers (.head _)
    obtain ⟨next, stepped, carries', same⟩ := carries.writeEvent refused.tolerated
    obtain ⟨after, reached, still⟩ :=
      ih carries' fun answers member => refusing answers (.tail _ member)
    have allowed : (answersTo (.writeEvent answers)).any (· != .fail .epipe) = false := by
      rw [List.any_eq_false]
      intro answer member
      simp [refused answer member]
    refine ⟨after, ?_, still.trans (same refused)⟩
    simp only [List.map_cons, run, step, allowed, Bool.and_false, Bool.false_eq_true,
      if_false, stepped, Option.map_some]
    exact reached

end

/-- Any admissible calls on a plain or send-file connection, then `ShutDownWrite`, then
any write events: the octets the socket ends up with are those of the calls exactly
when nothing was left in the write buffer at the time of `ShutDownWrite`. -/
theorem shutdown_keeps_output_iff (kernel : Kernel) (sendFile : Bool) (calls : List Act)
    (admissible : RunMeets (step kernel) (fun s act => Admissible kernel s act = true)
      (start sendFile) calls) :
    ∃ queued, run (step kernel) (start sendFile) calls = some queued ∧
      ∀ events : List (List Answer), (∀ answers ∈ events, Refusing answers) →
        ∃ final, run (step kernel) queued
            (.shutDownWrite :: events.map fun answers => .call (.writeEvent answers)) = some final ∧
          (final.stream.connection.accepted = SendFileStream.expected kernel queued.stream ↔
            unsent kernel queued.stream.connection = []) := by
  obtain ⟨⟨⟨c, entries⟩, shut⟩, reached, -, carries⟩ :=
    run_enabled step_inv (inv_start kernel sendFile) admissible
  refine ⟨_, reached, ?_⟩
  intro events refusing
  obtain ⟨after, delivered, same⟩ := events_refused carries events refusing
  refine ⟨_, delivered, ?_⟩
  rw [same]
  exact carries.accepted_iff

/-- What has been passed to the connection, and what its socket has taken. -/
def record (kernel : Kernel) (s : State) : Bytes × Bytes :=
  (SendFileStream.expected kernel s.stream, s.stream.connection.accepted)

/-- A string that goes out in two parts before the shutdown. -/
def inTwoParts : List Act := [.call (.send [72, 105] [.accept 0]), .call (.writeEvent [.accept 5])]

theorem shutdown_keeps_output_iff_inTwoParts :
    ∃ queued final, run (step .noFiles) (start false) inTwoParts = some queued ∧
      run (step .noFiles) queued [.shutDownWrite, .call (.writeEvent [])] = some final ∧
      SendFileStream.expected .noFiles queued.stream = [72, 105] ∧
      final.stream.connection.accepted = [72, 105] ∧
      unsent .noFiles queued.stream.connection = [] := by
  obtain ⟨queued, reached, later⟩ := shutdown_keeps_output_iff .noFiles false inTwoParts (by decide)
  obtain ⟨final, ended, exactly⟩ := later [[]] (by simp [Refusing])
  have before : (run (step .noFiles) (start false) inTwoParts).map (record .noFiles) =
      some ([72, 105], [72, 105]) := by decide +kernel
  have after : (run (step .noFiles) (start false)
      (inTwoParts ++ [.shutDownWrite, .call (.writeEvent [])])).map (record .noFiles) =
      some ([72, 105], [72, 105]) := by decide +kernel
  have whole : run (step .noFiles) (start false)
      (inTwoParts ++ [.shutDownWrite, .call (.writeEvent [])]) = some final := by
    rw [run_append, reached]
    exact ended
  rw [reached, Option.map_some, Option.some.injEq] at before
  rw [whole, Option.map_some, Option.some.injEq] at after
  have passed := congrArg Prod.fst before
  have accepted := congrArg Prod.snd after
  exact ⟨queued, final, reached, ended, passed, accepted,
    exactly.mp (accepted.trans passed.symm)⟩

/-- A byte is in the write buffer when `ShutDownWrite` is called: the write event that
follows gets EPIPE, and the byte never goes out. -/
theorem shutdown_truncates_output :
    ∃ final, run (step .noFiles) (start false)
        [.call (.send [72] []), .shutDownWrite, .call (.writeEvent [.fail .epipe])] = some final ∧
      SendFileStream.expected .noFiles final.stream = [72] ∧
      final.stream.connection.accepted = [] := by
  have ends : (run (step .noFiles) (start false)
      [.call (.send [72] []), .shutDownWrite, .call (.writeEvent [.fail .epipe])]).map
        (record .noFiles) = some ([72], []) := by decide +kernel
  obtain ⟨final, reached, recorded⟩ := Option.map_eq_some_iff.mp ends
  exact ⟨final, reached, congrArg Prod.fst recorded, congrArg Prod.snd recorded⟩

end Ladder.Guarantees.WriteShutdown
