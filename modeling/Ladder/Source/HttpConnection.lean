import Ladder.Source.Connection
import Ladder.Source.HttpServer

/-!
# HttpCodec on a connection

Source: `HttpCodec::OnClientMessage` of examples/http/HttpCodec.cpp as the read callback
that `Connection::OnReadCallback` of ladder/src/Connection.cpp calls. The calls it makes
on its connection are the real ones here, and what it answered is reported.
-/
namespace Ladder.Source
open Ladder.Library

namespace Connection

/-- `if (read_callback_ && !read_buffer_->Empty()) read_callback_(..)`, with what the
callback reports. -/
def runWith {β : Type} (callback : Connection → Option (Connection × List β)) (c : Connection) :
    Option (Connection × List β) :=
  if c.readBuffer.empty then some (c, []) else callback c

/-- `OnReadCallback` with a read callback that reports what it did. -/
def onReadWith {β : Type} (incoming : List Incoming)
    (callback : Connection → Option (Connection × List β))
    (c : Connection) : Option (Connection × List β) :=
  if c.shutDown then some (c, [])
  else
    match c.readBuffer.readBufferFromFd incoming with
    | none => none
    | some (ret, errno, readBuffer) =>
      let c := { c with readBuffer := readBuffer }
      if ret = -1 ∧ errno = .econnreset then some ({ c with shutDown := true }.onCloseCallback, [])
      else do
        let c := if ret = 0 ∨ ret < -1 then { c with shutDown := true } else c
        let (c, reports) ← runWith callback c
        if c.shutDown && c.writeBuffer.empty then some (c.close, reports) else some (c, reports)

/-- The handler of Source/Connection.lean is the one for callbacks that report nothing. -/
theorem onReadCallback_eq_onReadWith (kernel : Kernel) (incoming : List Incoming)
    (replies : List Reply) (c : Connection) :
    c.onReadCallback kernel incoming (some replies) =
      (c.onReadWith incoming fun c => (reply kernel replies c).map (·, ([] : List Unit))).map
        Prod.fst := by
  unfold onReadCallback onReadWith
  by_cases down : c.shutDown
  · simp [down]
  · cases reads : c.readBuffer.readBufferFromFd incoming with
    | none => simp [down]
    | some result =>
      obtain ⟨ret, errno, readBuffer⟩ := result
      by_cases reset : ret = -1 ∧ errno = .econnreset
      · simp [down, reset]
      · simp only [down, reset, if_false, Bool.false_eq_true, runReadCallback, runWith]
        generalize (if ret = 0 ∨ ret < -1 then _ else _ : Connection) = before
        by_cases nothing : before.readBuffer.empty = true
        · simp only [nothing, if_true, Option.bind_eq_bind, Option.bind_some]
          split <;> rfl
        · simp only [nothing, if_false, Option.bind_eq_bind, Bool.false_eq_true]
          cases reply kernel replies before with
          | none => rfl
          | some after =>
            simp only [Option.bind_some, Option.map_some]
            split <;> rfl

/-- A read event that brings octets, or none, and leaves the stream open. -/
theorem onReadWith_running {β : Type} {incoming : List Incoming}
    {callback : Connection → Option (Connection × List β)} {reports : List β} {c after : Connection}
    {filled : Buffer} (running : c.shutDown = false)
    (reads : c.readBuffer.readBufferFromFd incoming = some (-1, .eagain, filled))
    (called : runWith callback { c with readBuffer := filled } = some (after, reports))
    (stays : after.shutDown = false) : c.onReadWith incoming callback = some (after, reports) := by
  have result : c.onReadWith incoming callback =
      (runWith callback { c with readBuffer := filled }).bind fun (c, reports) =>
        if c.shutDown &&
          c.writeBuffer.empty then some (c.close, reports) else some (c, reports) := by
    rw [onReadWith, if_neg (by simp [running]), reads]
    rfl
  rw [result, called, Option.bind_some]
  simp only [stays, Bool.false_and, Bool.false_eq_true, if_false]

end Connection

namespace Http
variable (kernel : Kernel) (world : World)

/-- The call of `Send` or `SendFile`. -/
def Sent.pass (answers : List Answer) (c : Connection) : Sent → Option Connection
  | .send message => c.send kernel message answers
  | .sendFile header filename => c.sendFile kernel header filename answers

/-- What a call of `OnClientMessage` leaves behind, with its response passed on. -/
def passServed (answers : List Answer) (c : Connection) :
    Except Failure (Buffer × Option Served) → Option (Connection × List Served)
  | .error _ => none
  | .ok (buffer, none) => some ({ c with readBuffer := buffer }, [])
  | .ok (buffer, some served) =>
    (served.sent.pass kernel answers { c with readBuffer := buffer }).map (·, [served])

/-- `OnClientMessage` on its connection. -/
def HttpCodec.onConnection (codec : HttpCodec) (request response : Unset) (answers : List Answer)
    (c : Connection) : Option (Connection × List Served) :=
  passServed kernel answers c (codec.onClientMessage world request response c.readBuffer)

end Http
end Ladder.Source
