import Ladder.Source.Channel
import Ladder.Source.FileBuffer

/-!
# Connection

Source: ladder/src/Connection.cpp, the epoll build, calls executed one at a time.
The last four fields of a connection record what happens outside of it: the open
files, the octets the socket has taken, the value of the latest `WriteBuffer` call,
and the calls that end a connection or hand it to its owner. What the callbacks of
the application do is an argument of the handler that invokes them.
-/
namespace Ladder.Source
open Ladder.Library

/-- `IBuffer`: `write_plain_buffer_` or, with `send_file_`, `write_file_buffer_`. -/
inductive IBuffer where
  | plain (buffer : Buffer)
  | file (buffer : FileBuffer)
  deriving DecidableEq, Repr

namespace IBuffer

def write (content : Bytes) : IBuffer → IBuffer
  | plain buffer => plain (buffer.write content)
  | file buffer => file (buffer.write content)

def empty : IBuffer → Bool
  | plain buffer => buffer.empty
  | file buffer => buffer.empty

end IBuffer

inductive Effect where
  | entered (callback : Channel.Callback)
  | passed (content : Bytes)
  | close
  | onCloseCallback
  | closeCallback
  deriving DecidableEq, Repr

structure Connection where
  channel : Channel
  readBuffer : Buffer
  writeBuffer : IBuffer
  shutDown : Bool
  /-- `close_callback_` is set. -/
  notifies : Bool
  disk : Disk
  accepted : Bytes
  returned : Int
  trace : List Effect

/-- What a read callback does with the connection. -/
inductive Reply where
  | consume (n : Nat)
  | send (content : Bytes) (answers : List Answer)
  deriving DecidableEq, Repr

/-- One report of epoll, and how the socket and the application behave meanwhile. -/
structure Event where
  evts : BitVec 32
  incoming : List Incoming
  callback : Option (List Reply)
  answers : List Answer
  written : List Bytes
  deriving DecidableEq, Repr

namespace Connection

/-- A connection after its constructor and `Init`. -/
def create (sendFile notifies : Bool) : Connection :=
  { channel := .initialised
    readBuffer := .fresh
    writeBuffer := if sendFile then .file .fresh else .plain .fresh
    shutDown := false
    notifies := notifies
    disk := ⟨fun _ => [], 0⟩
    accepted := []
    returned := 0
    trace := [] }

variable (kernel : Kernel)

/-- `WriteBuffer`. -/
def flush (answers : List Answer) (c : Connection) : Option (Int × Connection) :=
  match c.writeBuffer with
  | .plain buffer =>
    (buffer.writeBufferToFd answers).map fun flushed =>
      (flushed.ret, { c with
        writeBuffer := .plain flushed.buffer
        accepted := c.accepted ++ flushed.accepted
        returned := flushed.ret })
  | .file buffer =>
    (FileBuffer.writeBufferToFd kernel ⟨buffer, c.disk, answers, c.accepted⟩).map fun result =>
      (result.1, { c with
        writeBuffer := .file result.2.files
        disk := result.2.disk
        accepted := result.2.accepted
        returned := result.1 })

def enableWrite (ret : Int) (c : Connection) : Option Connection :=
  (c.channel.enableWrite (ret < 0)).map fun channel => { c with channel := channel }

def send (content : Bytes) (answers : List Answer) (c : Connection) : Option Connection :=
  if c.shutDown then some c
  else do
    let (ret, c) ← flush kernel answers { c with writeBuffer := c.writeBuffer.write content }
    c.enableWrite ret

def sendFile (header filename : Bytes) (answers : List Answer) (c : Connection) :
    Option Connection :=
  if c.shutDown then some c
  else
    match c.writeBuffer with
    | .plain _ => some c
    | .file buffer => do
      let (ret, c) ← flush kernel answers
          { c with writeBuffer := .file (buffer.addFile header filename) }
      c.enableWrite ret

/-- `Close`: both directions of the socket are shut down. -/
def close (c : Connection) : Connection := { c with trace := c.trace ++ [.close] }

/-- `OnCloseCallback`. -/
def onCloseCallback (c : Connection) : Connection :=
  { c with
    channel := c.channel.removeFromLoop
    trace := c.trace ++ (.onCloseCallback :: if c.notifies then [.closeCallback] else []) }

/-- The read callback of the application, called synchronously. The strings it
passes to `Send` are recorded whether or not `Send` takes them. -/
def reply : List Reply → Connection → Option Connection
  | [], c => some c
  | .consume n :: rest, c => reply rest { c with readBuffer := c.readBuffer.haveRead n }
  | .send content answers :: rest, c => do
    let c ← send kernel content answers { c with trace := c.trace ++ [.passed content] }
    reply rest c

/-- `if (read_callback_ && !read_buffer_->Empty()) read_callback_(..)`. -/
def runReadCallback (callback : Option (List Reply)) (c : Connection) : Option Connection :=
  match callback with
  | some replies => if c.readBuffer.empty then some c else reply kernel replies c
  | none => some c

def onReadCallback (incoming : List Incoming) (callback : Option (List Reply)) (c : Connection) :
    Option Connection :=
  if c.shutDown then some c
  else
    match c.readBuffer.readBufferFromFd incoming with
    | none => none
    | some (ret, errno, readBuffer) =>
      let c := { c with readBuffer := readBuffer }
      if ret = -1 ∧ errno = .econnreset then some { c with shutDown := true }.onCloseCallback
      else do
        -- 0 is the peer's FIN; values below -1 come from the TLS layer
        let c := if ret = 0 ∨ ret < -1 then { c with shutDown := true } else c
        let c ← runReadCallback kernel callback c
        if c.shutDown && c.writeBuffer.empty then some c.close else some c

/-- `OnWriteCallback`; `written` is what a write callback puts into the buffer. -/
def onWriteCallback (answers : List Answer) (written : List Bytes) (c : Connection) :
    Option Connection := do
  let (ret, c) ← flush kernel answers c
  let c := { c with
    writeBuffer := written.foldl (fun buffer content => buffer.write content) c.writeBuffer }
  if c.shutDown && c.writeBuffer.empty then some c.onCloseCallback else c.enableWrite ret

def enter (callback : Channel.Callback) (c : Connection) : Connection :=
  { c with trace := c.trace ++ [.entered callback] }

/-- The callbacks `SetChannelCallbacks` installs; closing and errors share one. -/
def channelCallbacks (event : Event) : Channel.Callbacks Connection where
  read := some fun c => (enter .read c).onReadCallback kernel event.incoming event.callback
  write := some fun c => (enter .write c).onWriteCallback kernel event.answers event.written
  close := some fun c => some (enter .close c).onCloseCallback
  error := some fun c => some (enter .error c).onCloseCallback

/-! ## Calls on a connection that is not shut down -/

section
variable {kernel} {answers : List Answer} {c flushed after : Connection} {ret : Int}

theorem flush_file {files : FileBuffer} {sent : Outgoing} (buffered : c.writeBuffer = .file files)
    (returns : FileBuffer.writeBufferToFd kernel ⟨files, c.disk, answers, c.accepted⟩ =
      some (ret, sent)) :
    c.flush kernel answers = some (ret, { c with
      writeBuffer := .file sent.files
      disk := sent.disk
      accepted := sent.accepted
      returned := ret }) := by
  simp only [flush, buffered, returns, Option.map_some]

theorem enableWrite_channel {channel : Channel}
    (enabled : c.channel.enableWrite (ret < 0) = some channel) :
    c.enableWrite ret = some { c with channel := channel } := by
  simp only [enableWrite, enabled, Option.map_some]

theorem send_running {content : Bytes} (running : c.shutDown = false)
    (flushes : flush kernel answers { c with writeBuffer := c.writeBuffer.write content } =
      some (ret, flushed))
    (enabled : flushed.enableWrite ret = some after) :
    c.send kernel content answers = some after := by
  unfold send
  rw [if_neg (by simp [running]), flushes]
  exact enabled

theorem sendFile_running {header filename : Bytes} {buffer : FileBuffer}
    (running : c.shutDown = false) (buffered : c.writeBuffer = .file buffer)
    (flushes : flush kernel answers
      { c with writeBuffer := .file (buffer.addFile header filename) } =
      some (ret, flushed))
    (enabled : flushed.enableWrite ret = some after) :
    c.sendFile kernel header filename answers = some after := by
  unfold sendFile
  rw [if_neg (by simp [running]), buffered]
  dsimp only
  rw [flushes]
  exact enabled

theorem onWriteCallback_running (flushes : flush kernel answers c = some (ret, flushed))
    (running : flushed.shutDown = false) (enabled : flushed.enableWrite ret = some after) :
    c.onWriteCallback kernel answers [] = some after := by
  unfold onWriteCallback
  rw [flushes]
  change (if flushed.shutDown && flushed.writeBuffer.empty then _ else flushed.enableWrite ret) = _
  rw [if_neg (by simp [running])]
  exact enabled

/-- `EnableWrite` needs a registered channel, and changes only the channel. -/
theorem enableWrite_frame (enabled : c.enableWrite ret = some after) :
    c.channel.registered.isSome = true ∧
      ∃ channel, channel.registered.isSome = true ∧ after = { c with channel := channel } := by
  obtain ⟨channel, enables, eq⟩ := Option.map_eq_some_iff.mp enabled
  obtain ⟨before, held, -, -⟩ := Channel.enableWrite_effects enables
  exact ⟨before, channel, held, eq.symm⟩

/-- A flush changes the write buffer and what lies behind it, and never takes octets back. -/
theorem flush_frame (flushes : c.flush kernel answers = some (ret, flushed)) :
    ∃ writeBuffer disk octets, flushed = { c with
      writeBuffer := writeBuffer
      disk := disk
      accepted := c.accepted ++ octets
      returned := ret } := by
  unfold flush at flushes
  split at flushes
  · obtain ⟨result, -, eq⟩ := Option.map_eq_some_iff.mp flushes
    cases eq
    exact ⟨_, _, _, rfl⟩
  · obtain ⟨result, returns, eq⟩ := Option.map_eq_some_iff.mp flushes
    obtain ⟨octets, accepted⟩ := FileBuffer.writeBufferToFd_extends returns
    cases eq
    exact ⟨_, _, octets, by rw [accepted]⟩

/-- A read event that brings octets, or none, and leaves the stream open. -/
theorem onReadCallback_running {incoming : List Incoming} {replies : List Reply} {filled : Buffer}
    (running : c.shutDown = false)
    (reads : c.readBuffer.readBufferFromFd incoming = some (-1, .eagain, filled))
    (quiet : filled.empty = true → replies = [])
    (replied : reply kernel replies { c with readBuffer := filled } = some after)
    (open_ : after.shutDown = false) :
    c.onReadCallback kernel incoming (some replies) = some after := by
  have called :
      runReadCallback kernel (some replies) { c with readBuffer := filled } = some after := by
    simp only [runReadCallback]
    split
    · rename_i nothing
      rw [quiet nothing] at replied
      exact replied
    · exact replied
  have result : c.onReadCallback kernel incoming (some replies) =
      (runReadCallback kernel (some replies) { c with readBuffer := filled }).bind fun c =>
        if c.shutDown && c.writeBuffer.empty then some c.close else some c := by
    rw [onReadCallback, if_neg (by simp [running]), reads]
    rfl
  rw [result, called, Option.bind_some, open_]
  rfl

/-! ## What the handlers can do -/

theorem reply_append (front back : List Reply) (c : Connection) :
    reply kernel (front ++ back) c = (reply kernel front c).bind (reply kernel back) := by
  induction front generalizing c with
  | nil => rfl
  | cons first front ih =>
    cases first with
    | consume n => exact ih _
    | send content answers =>
      simp only [List.cons_append, reply]
      cases send kernel content answers { c with trace := c.trace ++ [.passed content] } with
      | none => rfl
      | some sent => exact ih sent

theorem runReadCallback_cases {callback : Option (List Reply)}
    (called : runReadCallback kernel callback c = some after) :
    after = c ∨ ∃ replies, callback = some replies ∧ reply kernel replies c = some after := by
  unfold runReadCallback at called
  split at called
  · rename_i replies
    split at called
    · cases called
      exact .inl rfl
    · exact .inr ⟨replies, rfl, called⟩
  · cases called
    exact .inl rfl

/-- The read handler of a connection that is not shut down: a reset closes at once;
otherwise the callback runs, with `shut_down_` set if the reads ended the stream. -/
theorem onReadCallback_cases {incoming : List Incoming} {callback : Option (List Reply)}
    (running : c.shutDown = false)
    (handled : c.onReadCallback kernel incoming callback = some after) :
    ∃ ret errno readBuffer, c.readBuffer.readBufferFromFd incoming = some (ret, errno, readBuffer) ∧
      ((ret = -1 ∧ errno = .econnreset ∧
          after = { c with readBuffer := readBuffer, shutDown := true }.onCloseCallback) ∨
        (¬ (ret = -1 ∧ errno = .econnreset) ∧ ∃ called,
          runReadCallback kernel callback
            { c with readBuffer := readBuffer, shutDown := decide (ret = 0 ∨ ret < -1) } =
              some called ∧
          after = if called.shutDown &&
            called.writeBuffer.empty then called.close else called)) := by
  unfold onReadCallback at handled
  rw [if_neg (by simp [running])] at handled
  cases reads : c.readBuffer.readBufferFromFd incoming with
  | none => simp [reads] at handled
  | some result =>
    obtain ⟨ret, errno, readBuffer⟩ := result
    refine ⟨ret, errno, readBuffer, rfl, ?_⟩
    simp only [reads] at handled
    by_cases reset : ret = -1 ∧ errno = .econnreset
    · rw [if_pos reset] at handled
      exact .inl ⟨reset.1, reset.2, (Option.some.inj handled).symm⟩
    · rw [if_neg reset] at handled
      obtain ⟨called, ran, ends⟩ := Option.bind_eq_some_iff.mp handled
      refine .inr ⟨reset, called, ?_, ?_⟩
      · by_cases ended : ret = 0 ∨ ret < -1
        · simpa only [ended, if_true, decide_true] using ran
        · simpa only [ended, if_false, decide_false, running] using ran
      · split at ends
        · rename_i drained
          rw [if_pos drained]
          exact (Option.some.inj ends).symm
        · rename_i goesOn
          rw [if_neg goesOn]
          exact (Option.some.inj ends).symm

/-- The write handler: `OnCloseCallback` once a connection that is shut down has
nothing left to send, `EnableWrite` otherwise. -/
theorem onWriteCallback_cases {written : List Bytes}
    (handled : c.onWriteCallback kernel answers written = some after) :
    ∃ ret flushed, flush kernel answers c = some (ret, flushed) ∧
      let filled := { flushed with
        writeBuffer :=
          written.foldl (fun buffer content => buffer.write content) flushed.writeBuffer }
      (filled.shutDown && filled.writeBuffer.empty) = true ∧ after = filled.onCloseCallback ∨
        (filled.shutDown && filled.writeBuffer.empty) = false ∧
        filled.enableWrite ret = some after := by
  obtain ⟨⟨ret, flushed⟩, flushes, ends⟩ := Option.bind_eq_some_iff.mp handled
  refine ⟨ret, flushed, flushes, ?_⟩
  dsimp only at ends ⊢
  split at ends
  · rename_i drained
    exact .inl ⟨drained, (Option.some.inj ends).symm⟩
  · rename_i goesOn
    exact .inr ⟨by simpa using goesOn, ends⟩

end
end Connection
end Ladder.Source
