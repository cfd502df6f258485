import Ladder.Library.Runs
import Ladder.Source.Connection

/-!
# Dispatch to a connection that closes

Histories of a server connection: dispatches of any set of ready events with any
behaviour of the socket and of the callbacks, and calls of `Send` and `SendFile` in
between. The trace records which callbacks of the channel `HandleEvents` entered and
when `close_callback_` ran, after which the connection may be gone.
-/
namespace Ladder.Guarantees.CloseDispatch
open Ladder.Library Ladder.Source

inductive Act where
  | dispatch (event : Event)
  | send (content : Bytes) (answers : List Answer)
  | sendFile (header filename : Bytes) (answers : List Answer)
  deriving DecidableEq, Repr

section
variable (kernel : Kernel)

/-- `SetRevents` by the poller, then `HandleEvents`. -/
def dispatch (event : Event) (c : Connection) : Option Connection :=
  let evts := (c.channel.setRevents event.evts).revents
  (Channel.handleEvents (Connection.channelCallbacks kernel event) evts
    { c with channel := { c.channel with revents := 0 } }).map Prod.fst

/-- Events are delivered while the channel is registered. -/
def step (c : Connection) : Act → Option Connection
  | .dispatch event => if c.channel.registered.isSome then dispatch kernel event c else none
  | .send content answers => c.send kernel content answers
  | .sendFile header filename answers => c.sendFile kernel header filename answers

end

/-- Output waits and is not all taken: the socket has less room, before it first refuses,
than the buffer needs, or a write callback adds octets. The entries of a connection that
sends files are popped behind the open file, and with them goes all that keeps it open. -/
def Outlasts (event : Event) : IBuffer → Bool
  | .plain buffer =>
    let added := event.written.flatten.length
    buffer.readableBytes + added < 2 ^ 32 &&
      (0 < added || capacity kWriteBufferSize event.answers < buffer.readableBytes)
  | .file files =>
    !event.written.isEmpty || !files.pendingFiles.isEmpty &&
      capacity (2 ^ 31 - 1) event.answers <
        files.buffer.readableBytes + if files.fd = 0 then 0 else sizeT files.bytesPending

/-- Not dispatched: writability together with input, without hang-up or error, to a
connection that is shut down, unless its output outlasts the event. -/
def Spared (c : Connection) : Act → Bool
  | .dispatch event =>
    let evts := (c.channel.setRevents event.evts).revents
    polled evts kPollHup || polled evts kPollErr || !polled evts kPollOut ||
      !polled evts (kPollIn ||| kPollRdHup) || !c.shutDown || Outlasts event c.writeBuffer
  | _ => true

def isEntered : Effect → Bool
  | .entered _ => true
  | _ => false

/-- No callback of the channel is entered after `close_callback_`. -/
def undisturbed : List Effect → Bool
  | [] => true
  | .closeCallback :: rest => !rest.any isEntered
  | _ :: rest => undisturbed rest

/-! ## Where a connection can stand -/

structure Alive (c : Connection) : Prop where
  held : c.channel.registered.isSome = true
  notifies : c.notifies = true
  silent : Effect.closeCallback ∉ c.trace

/-- Closed, and possibly disturbed by what was entered since. -/
structure Closed (since : List Effect) (c : Connection) : Prop where
  removed : c.channel.registered = none
  history : ∃ before, Effect.closeCallback ∉ before ∧ c.trace = before ++ .closeCallback :: since

theorem undisturbed_append {before : List Effect} (silent : Effect.closeCallback ∉ before)
    (rest : List Effect) : undisturbed (before ++ rest) = undisturbed rest := by
  induction before with
  | nil => rfl
  | cons effect before ih =>
    rw [List.mem_cons, not_or] at silent
    cases effect with
    | closeCallback => exact absurd rfl silent.1
    | _ => exact ih silent.2

variable {kernel : Kernel} {c after flushed : Connection} {answers : List Answer} {ret : Int}

theorem Alive.undisturbed (alive : Alive c) : undisturbed c.trace = true := by
  rw [← List.append_nil c.trace, undisturbed_append alive.silent]
  rfl

theorem Alive.count (alive : Alive c) : c.trace.count .closeCallback = 0 :=
  List.count_eq_zero.mpr alive.silent

theorem Closed.undisturbed {since : List Effect} (closed : Closed since c) :
    undisturbed c.trace = !since.any isEntered := by
  obtain ⟨before, silent, trace⟩ := closed.history
  rw [trace, undisturbed_append silent]
  rfl

theorem Closed.count {since : List Effect} (closed : Closed since c)
    (once : Effect.closeCallback ∉ since) : c.trace.count .closeCallback = 1 := by
  obtain ⟨before, silent, trace⟩ := closed.history
  rw [trace, List.count_append, List.count_cons_self, List.count_eq_zero.mpr silent,
    List.count_eq_zero.mpr once]

/-! ## Calls of the application -/

/-- Flushing and enabling need a registered channel and keep a connection alive. -/
theorem flush_enable {unwritten : Connection}
    (flushes : unwritten.flush kernel answers = some (ret, flushed))
    (enabled : flushed.enableWrite ret = some after) (channel : unwritten.channel = c.channel)
    (trace : unwritten.trace = c.trace) (notifies : unwritten.notifies = c.notifies) :
    c.channel.registered.isSome = true ∧ (Alive c → Alive after) := by
  obtain ⟨_, _, _, rfl⟩ := Connection.flush_frame flushes
  obtain ⟨before, _, held, rfl⟩ := Connection.enableWrite_frame enabled
  refine ⟨channel ▸ before, fun alive => ⟨held, ?_, ?_⟩⟩
  · exact notifies.trans alive.notifies
  · exact trace ▸ alive.silent

/-- `Send` changes nothing, or needs a registered channel. -/
theorem send_cases {content : Bytes} (sent : c.send kernel content answers = some after) :
    after = c ∨ c.channel.registered.isSome = true ∧ (Alive c → Alive after) := by
  unfold Connection.send at sent
  split at sent
  · cases sent
    exact .inl rfl
  · obtain ⟨⟨ret, flushed⟩, flushes, enabled⟩ := Option.bind_eq_some_iff.mp sent
    exact .inr (flush_enable flushes enabled rfl rfl rfl)

theorem sendFile_cases {header filename : Bytes}
    (sent : c.sendFile kernel header filename answers = some after) :
    after = c ∨ c.channel.registered.isSome = true ∧ (Alive c → Alive after) := by
  unfold Connection.sendFile at sent
  split at sent
  · cases sent
    exact .inl rfl
  · split at sent
    · cases sent
      exact .inl rfl
    · obtain ⟨⟨ret, flushed⟩, flushes, enabled⟩ := Option.bind_eq_some_iff.mp sent
      exact .inr (flush_enable flushes enabled rfl rfl rfl)

theorem alive_reply {replies : List Reply} (alive : Alive c)
    (replied : Connection.reply kernel replies c = some after) : Alive after := by
  induction replies generalizing c with
  | nil =>
    cases replied
    exact alive
  | cons first rest ih =>
    cases first with
    | consume n =>
      have consumed : Alive { c with readBuffer := c.readBuffer.haveRead n } :=
        ⟨alive.held, alive.notifies, alive.silent⟩
      exact ih consumed replied
    | send content answers =>
      obtain ⟨next, sent, later⟩ := Option.bind_eq_some_iff.mp replied
      have recorded : Alive { c with trace := c.trace ++ [.passed content] } := by
        refine ⟨alive.held, alive.notifies, ?_⟩
        simpa using alive.silent
      rcases send_cases sent with rfl | ⟨-, kept⟩
      · exact ih recorded later
      · exact ih (kept recorded) later

/-! ## Handlers -/

theorem Alive.enter (alive : Alive c) (callback : Channel.Callback) : Alive (c.enter callback) := by
  refine ⟨alive.held, alive.notifies, ?_⟩
  simpa [Connection.enter] using alive.silent

theorem Alive.onCloseCallback (alive : Alive c) : Closed [] c.onCloseCallback := by
  refine ⟨rfl, c.trace ++ [.onCloseCallback], ?_, ?_⟩
  · simpa using alive.silent
  · simp [Connection.onCloseCallback, alive.notifies]

/-- The read handler leaves the connection alive or closed. -/
theorem Alive.onReadCallback {incoming : List Incoming} {callback : Option (List Reply)}
    (alive : Alive c)
    (handled : c.onReadCallback kernel incoming callback = some after) :
    Alive after ∨ Closed [] after := by
  cases running : c.shutDown with
  | true =>
    simp only [Connection.onReadCallback, running, if_true, Option.some.injEq] at handled
    subst after
    exact .inl alive
  | false =>
    obtain ⟨ret, errno, readBuffer, -, outcome⟩ := Connection.onReadCallback_cases running handled
    have entered (flag : Bool) : Alive { c with readBuffer := readBuffer, shutDown := flag } :=
      ⟨alive.held, alive.notifies, alive.silent⟩
    rcases outcome with ⟨-, -, rfl⟩ | ⟨-, called, ran, rfl⟩
    · exact .inr (entered true).onCloseCallback
    · have kept : Alive called := by
        rcases Connection.runReadCallback_cases ran with rfl | ⟨replies, -, replied⟩
        · exact entered _
        · exact alive_reply (entered _) replied
      left
      split
      · refine ⟨kept.held, kept.notifies, ?_⟩
        simpa [Connection.close] using kept.silent
      · exact kept

theorem file_written_not_empty {files : FileBuffer} {written : List Bytes}
    (waiting : written ≠ [] ∨ files.pendingFiles ≠ []) :
    (written.foldl (fun buffer content => buffer.write content) (IBuffer.file files)).empty =
      false := by
  induction written generalizing files with
  | nil =>
    rcases waiting with none | queue
    · exact absurd rfl none
    · exact List.isEmpty_eq_false_iff.mpr queue
  | cons content rest ih => exact ih (.inr (by simp [FileBuffer.write, FileBuffer.addFile]))

theorem plain_written (buffer : Buffer) (written : List Bytes) :
    written.foldl (fun buffer content => buffer.write content) (IBuffer.plain buffer) =
      .plain (written.foldl (fun buffer content => buffer.write content) buffer) := by
  induction written generalizing buffer with
  | nil => rfl
  | cons content rest ih => exact ih _

/-- Output that outlasts the event is not all gone after the flush and the write callback. -/
theorem outlasts_not_empty {event : Event} (outlasts : Outlasts event c.writeBuffer = true)
    (flushes : c.flush kernel event.answers = some (ret, flushed)) :
    (event.written.foldl (fun buffer content => buffer.write content)
      flushed.writeBuffer).empty = false := by
  unfold Connection.flush at flushes
  split at flushes
  · rename_i buffer plain
    obtain ⟨result, returns, eq⟩ := Option.map_eq_some_iff.mp flushes
    cases eq
    obtain ⟨less, covered, -⟩ := Buffer.writeBufferToFd_capacity (Nat.le_refl _) returns
    simp only [Outlasts, plain, Bool.and_eq_true, Bool.or_eq_true, decide_eq_true_eq] at outlasts
    rw [plain_written]
    exact Buffer.written_not_empty (by omega) (by omega)
  · rename_i files file
    obtain ⟨result, returns, eq⟩ := Option.map_eq_some_iff.mp flushes
    cases eq
    simp only [Outlasts, file, Bool.and_eq_true, Bool.or_eq_true, Bool.not_eq_true',
      List.isEmpty_eq_false_iff, decide_eq_true_eq] at outlasts
    apply file_written_not_empty
    rcases outlasts with adds | ⟨queue, room⟩
    · exact .inl adds
    · exact .inr (FileBuffer.writeBufferToFd_outlasts queue room returns)

/-- The write handler closes only a connection that is shut down and whose output does
not outlast the event. -/
theorem Alive.onWriteCallback {event : Event} (alive : Alive c)
    (handled : c.onWriteCallback kernel event.answers event.written = some after) :
    Alive after ∨ (c.shutDown = true ∧ Outlasts event c.writeBuffer = false ∧ Closed [] after ∧
      after.shutDown = true) := by
  obtain ⟨ret, flushed, flushes, outcome⟩ := Connection.onWriteCallback_cases handled
  have gone (drained : (event.written.foldl (fun buffer content => buffer.write content)
      flushed.writeBuffer).empty = true) : Outlasts event c.writeBuffer = false := by
    rw [← Bool.not_eq_true]
    intro outlasts
    rw [outlasts_not_empty outlasts flushes] at drained
    cases drained
  obtain ⟨_, disk, octets, rfl⟩ := Connection.flush_frame flushes
  have kept (buffer : IBuffer) : Alive { c with
      writeBuffer := buffer, disk := disk, accepted := c.accepted ++ octets, returned := ret } :=
    ⟨alive.held, alive.notifies, alive.silent⟩
  rcases outcome with ⟨closes, rfl⟩ | ⟨-, enabled⟩
  · rw [Bool.and_eq_true] at closes
    exact .inr ⟨closes.1, gone closes.2, (kept _).onCloseCallback, closes.1⟩
  · obtain ⟨-, _, held, rfl⟩ := Connection.enableWrite_frame enabled
    exact .inl ⟨held, alive.notifies, alive.silent⟩

/-- The read handler of a connection that the write handler has just closed. -/
theorem Closed.onReadCallback {incoming : List Incoming} {callback : Option (List Reply)}
    (closed : Closed [] c) (flag : c.shutDown = true)
    (handled : (Connection.enter .read c).onReadCallback kernel incoming callback = some after) :
    Closed [.entered .read] after := by
  obtain ⟨before, silent, trace⟩ := closed.history
  have down : (Connection.enter .read c).shutDown = true := flag
  simp only [Connection.onReadCallback, down, if_true, Option.some.injEq] at handled
  subst after
  refine ⟨closed.removed, before, silent, ?_⟩
  simp [Connection.enter, trace]

/-! ## Dispatches and runs -/

/-- A dispatch leaves the connection alive, closed, or, in a case that is not spared,
closed and entered once more. -/
theorem dispatch_outcome {event : Event} (alive : Alive c)
    (dispatched : dispatch kernel event c = some after) :
    (Alive after ∨ Closed [] after) ∨
      (Spared c (.dispatch event) = false ∧ Closed [.entered .read] after) := by
  unfold dispatch at dispatched
  simp only [Spared]
  generalize (c.channel.setRevents event.evts).revents = evts at dispatched ⊢
  have cleared : Alive { c with channel := { c.channel with revents := 0 } } :=
    ⟨alive.held, alive.notifies, alive.silent⟩
  obtain ⟨⟨result, invoked⟩, handled, rfl⟩ := Option.map_eq_some_iff.mp dispatched
  rcases Channel.handleEvents_cases handled with ⟨hup, ran⟩ | ⟨-, err, ran⟩ |
    ⟨noHup, noErr, middle, written, read, writes, reads, -⟩
  · cases Channel.invoke_some ran
    exact .inl (.inr (cleared.enter .close).onCloseCallback)
  · cases Channel.invoke_some ran
    exact .inl (.inr (cleared.enter .error).onCloseCallback)
  · cases out : polled evts kPollOut with
    | false =>
      simp only [Channel.invokeIf, out, Bool.false_eq_true, if_false, Option.some.injEq,
        Prod.mk.injEq] at writes
      obtain ⟨rfl, -⟩ := writes
      left
      unfold Channel.invokeIf at reads
      split at reads
      · exact (cleared.enter .read).onReadCallback (Channel.invoke_some reads)
      · cases reads
        exact .inl cleared
    | true =>
      rw [out] at writes
      have wrote := (cleared.enter .write).onWriteCallback (Channel.invoke_some writes)
      unfold Channel.invokeIf at reads
      split at reads
      · rename_i input
        rcases wrote with kept | ⟨flag, gone, closed, down⟩
        · exact .inl ((kept.enter .read).onReadCallback (Channel.invoke_some reads))
        · -- the write handler has closed, and the read handler is entered all the same
          have shut : c.shutDown = true := flag
          have drained : Outlasts event c.writeBuffer = false := gone
          exact .inr ⟨by simp [noHup, noErr, input, shut, drained],
            closed.onReadCallback down (Channel.invoke_some reads)⟩
      · cases reads
        rcases wrote with kept | ⟨-, -, closed, -⟩
        · exact .inl (.inl kept)
        · exact .inl (.inr closed)

/-- Nothing happens to a connection that is out of the loop. -/
theorem Closed.step {since : List Effect} {act : Act} (closed : Closed since c)
    (stepped : step kernel c act = some after) : after = c := by
  have removed : ¬ c.channel.registered.isSome = true := by
    rw [closed.removed]
    exact Bool.false_ne_true
  cases act with
  | dispatch event =>
    simp only [CloseDispatch.step, if_neg removed] at stepped
    cases stepped
  | send content answers =>
    rcases send_cases stepped with same | ⟨held, -⟩
    · exact same
    · exact absurd held removed
  | sendFile header filename answers =>
    rcases sendFile_cases stepped with same | ⟨held, -⟩
    · exact same
    · exact absurd held removed

theorem Alive.step {act : Act} (alive : Alive c) (stepped : step kernel c act = some after) :
    (Alive after ∨ Closed [] after) ∨
      (Spared c act = false ∧ Closed [.entered .read] after) := by
  cases act with
  | dispatch event =>
    simp only [CloseDispatch.step, alive.held, if_true] at stepped
    exact dispatch_outcome alive stepped
  | send content answers =>
    rcases send_cases stepped with rfl | ⟨-, kept⟩
    · exact .inl (.inl alive)
    · exact .inl (.inl (kept alive))
  | sendFile header filename answers =>
    rcases sendFile_cases stepped with rfl | ⟨-, kept⟩
    · exact .inl (.inl alive)
    · exact .inl (.inl (kept alive))

/-- A step that is spared keeps a connection alive, or closed and undisturbed. -/
theorem spared_step {act : Act} (good : Alive c ∨ Closed [] c) (spared : Spared c act = true)
    (stepped : step kernel c act = some after) : Alive after ∨ Closed [] after := by
  rcases good with alive | closed
  · rcases alive.step stepped with still | ⟨exposed, -⟩
    · exact still
    · rw [spared] at exposed
      cases exposed
  · rw [closed.step stepped]
    exact .inr closed

/-- `close_callback_` runs at most once, whatever is dispatched. -/
theorem any_step {act : Act}
    (before : (Alive c ∨ Closed [] c) ∨ Closed [.entered .read] c)
    (stepped : step kernel c act = some after) :
    (Alive after ∨ Closed [] after) ∨ Closed [.entered .read] after := by
  rcases before with (alive | closed) | disturbed
  · exact (alive.step stepped).imp id And.right
  · rw [closed.step stepped]
    exact .inl (.inr closed)
  · rw [disturbed.step stepped]
    exact .inr disturbed

variable (kernel) in
/-- Over the whole run of a server connection `close_callback_` runs at most once,
and no callback of the channel is entered after it when every dispatch of the run is
spared. -/
theorem close_dispatch (sendFile : Bool) (acts : List Act) (final : Connection)
    (reached : run (step kernel) (.create sendFile true) acts = some final) :
    final.trace.count .closeCallback ≤ 1 ∧
      (RunMeets (step kernel) (fun c act => Spared c act = true) (.create sendFile true) acts →
        undisturbed final.trace = true) := by
  have alive : Alive (.create sendFile true) := ⟨rfl, rfl, List.not_mem_nil⟩
  constructor
  · have outcome := run_invariant (fun _ _ _ => any_step) (.inl (.inl alive)) reached
    rcases outcome with (good | closed) | disturbed
    · rw [good.count]
      exact Nat.zero_le 1
    · rw [closed.count List.not_mem_nil]
    · rw [disturbed.count (by simp)]
  · intro meets
    rcases run_guarded (fun _ _ _ => spared_step) (.inl alive) meets reached with good | closed
    · exact good.undisturbed
    · exact closed.undisturbed

/-- A half-closed connection whose last octet is refused together with input, and taken by
an event of its own. -/
def refusedFirst : List Act :=
  [.send [65] [], .dispatch ⟨kPollIn ||| kPollRdHup, [.data []], none, [], []⟩,
    .dispatch ⟨kPollOut ||| kPollIn ||| kPollRdHup, [], none, [.fail .eagain], []⟩,
    .dispatch ⟨kPollOut, [], none, [.accept 0], []⟩]

theorem close_dispatch_refusedFirst :
    ∃ final, run (step .noFiles) (.create false true) refusedFirst = some final ∧
      final.trace.count .closeCallback = 1 ∧ undisturbed final.trace = true :=
  ⟨_, rfl, by decide, (close_dispatch .noFiles false refusedFirst _ rfl).2 (by decide +kernel)⟩

/-- The socket takes the last octet of a half-closed connection in an event that
also reports input: the read callback of the channel is entered after the
connection was given up. -/
theorem close_dispatch_after_close :
    ∃ acts final, run (step .noFiles) (.create false true) acts = some final ∧
      final.trace =
        [.entered .read, .entered .write, .onCloseCallback, .closeCallback, .entered .read] ∧
      undisturbed final.trace = false :=
  ⟨[.send [65] [], .dispatch ⟨kPollIn ||| kPollRdHup, [.data []], none, [], []⟩,
    .dispatch ⟨kPollOut ||| kPollIn ||| kPollRdHup, [], none, [.accept 0], []⟩], _,
    rfl, by decide, by decide⟩

end Ladder.Guarantees.CloseDispatch
