import Ladder.Source.Buffer

/-!
# Connection on Windows

Source: ladder/src/Connection.cpp, the IOCP build; ladder/src/EventLoop.cpp and
ladder/include/Socket.h for the reference counts. Reads and writes are posted to the
system and end in completions, which the loop hands to the two handlers one at a
time. No call reports a socket error. `sent`, `written` and `delivered` record the
octets passed to `Send`, those of them that reached the write buffer, and those the
system has taken.
-/
namespace Ladder.Source.IocpConnection
open Ladder.Library

def kMaxWsaBufSize : Nat := 1024
def kMaxIocpRecvSize : Nat := 1024

structure WsaBuf where
  buf : Bytes
  len : Nat
  deriving DecidableEq, Repr

/-- `readRefs` and `writeRefs` are the `ref_count_` of `read_status_` and
`write_status_`: the operations that have been posted and have not completed. -/
structure State where
  initialised : Bool
  shutDown : Bool
  writePending : Bool
  readBuffer : Buffer
  writeBuffer : Buffer
  writeWsaBuf : WsaBuf
  readRefs : Nat
  writeRefs : Nat
  onCloseCallbacks : Nat
  closeCallbacks : Nat
  sent : Bytes
  written : Bytes
  delivered : Bytes
  deriving DecidableEq, Repr

def start : State :=
  { initialised := false
    shutDown := false
    writePending := false
    readBuffer := .fresh
    writeBuffer := .fresh
    writeWsaBuf := ⟨[], 0⟩
    readRefs := 0
    writeRefs := 0
    onCloseCallbacks := 0
    closeCallbacks := 0
    sent := []
    written := []
    delivered := [] }

/-- What a read callback does with the connection. -/
inductive Reply where
  | consume (n : Nat)
  | send (content : Bytes)
  deriving DecidableEq, Repr

/-- `OnCloseCallback`: the owner is told when no read is outstanding. -/
def onCloseCallback (s : State) : State :=
  { s with
    onCloseCallbacks := s.onCloseCallbacks + 1
    closeCallbacks := if s.readRefs = 0 then s.closeCallbacks + 1 else s.closeCallbacks }

def postRead (s : State) : State :=
  if s.shutDown then s else { s with readRefs := s.readRefs + 1 }

def postWrite (s : State) : State :=
  if s.shutDown || s.writePending then s
  else
    let (sendLen, buf) := s.writeBuffer.peekInto s.writeWsaBuf.buf kMaxWsaBufSize
    let s := { s with writeWsaBuf := ⟨buf, sendLen⟩ }
    if sendLen = 0 then s
    else { s with writePending := true, writeRefs := s.writeRefs + 1 }

def send (content : Bytes) (s : State) : State :=
  let s := { s with sent := s.sent ++ content }
  if s.shutDown then s
  else
    postWrite { s with
      writeBuffer := s.writeBuffer.write content
      written := s.written ++ content }

def reply : List Reply → State → State
  | [], s => s
  | .consume n :: rest, s => reply rest { s with readBuffer := s.readBuffer.haveRead n }
  | .send content :: rest, s => reply rest (send content s)

/-- `if (read_callback_ && !read_buffer_->Empty()) read_callback_(..)`. -/
def runReadCallback (replies : List Reply) (s : State) : State :=
  if s.readBuffer.empty then s else reply replies s

/-- `Init`, with the octets that came along with the accepted connection. -/
def init (accepted : Bytes) (replies : List Reply) (s : State) : State :=
  let s := { s with initialised := true }
  let s := if 0 < accepted.length then
      { s with readBuffer := s.readBuffer.writeChars accepted accepted.length }
    else s
  postRead (runReadCallback replies s)

/-- `if (shut_down_ && write_buffer_->Empty()) OnCloseCallback()`. -/
def closeIfDrained (s : State) : State :=
  if s.shutDown && s.writeBuffer.empty then onCloseCallback s else s

/-- `OnReadCallback`; `received` are the first `io_size` octets of `read_wsa_buf_`. -/
def onReadCallback (received : Bytes) (replies : List Reply) (s : State) : State :=
  if s.shutDown then onCloseCallback s
  else
    let s := if 0 < received.length then
        { s with readBuffer := s.readBuffer.writeChars received received.length }
      else { s with shutDown := true }
    let s := runReadCallback replies s
    if s.shutDown && s.writeBuffer.empty then onCloseCallback s
    else closeIfDrained (postRead s)

/-- `OnWriteCallback`, without a write callback. -/
def onWriteCallback (ioSize : Nat) (s : State) : State :=
  let s := { s with
    writePending := false
    writeBuffer := s.writeBuffer.haveRead ioSize }
  if s.shutDown && s.writeBuffer.empty then onCloseCallback s
  else closeIfDrained (postWrite s)

/-- The octets the system works on. -/
def posted (s : State) : Bytes := s.writeWsaBuf.buf.take s.writeWsaBuf.len

inductive Act where
  | init (accepted : Bytes) (replies : List Reply)
  | send (content : Bytes)
  | readCompletion (received : Bytes) (replies : List Reply)
  | writeCompletion (ioSize : Nat)
  deriving DecidableEq, Repr

/-- An operation completes once, with at most the posted number of octets; the loop
takes back the reference before it calls the handler. -/
def step (s : State) : Act → Option State
  | .init accepted replies => if s.initialised then none else some (init accepted replies s)
  | .send content => some (send content s)
  | .readCompletion received replies =>
    if 0 < s.readRefs ∧ received.length ≤ kMaxIocpRecvSize then
      some (onReadCallback received replies { s with readRefs := s.readRefs - 1 })
    else none
  | .writeCompletion ioSize =>
    if 0 < s.writeRefs ∧ ioSize ≤ s.writeWsaBuf.len then
      some (onWriteCallback ioSize { s with
        writeRefs := s.writeRefs - 1
        delivered := s.delivered ++ (posted s).take ioSize })
    else none

/-! ## What posting and sending change -/

section
variable {s : State}

/-- `PostWrite` changes the posting, never the buffers. -/
theorem postWrite_cases (s : State) :
    postWrite s = s ∨ ∃ wsaBuf, postWrite s = { s with writeWsaBuf := wsaBuf } ∨
      postWrite s = { s with
        writeWsaBuf := wsaBuf, writePending := true, writeRefs := s.writeRefs + 1 } := by
  unfold postWrite
  split
  · exact .inl rfl
  · dsimp only
    split
    · exact .inr ⟨_, .inl rfl⟩
    · exact .inr ⟨_, .inr rfl⟩

@[simp] theorem postWrite_shutDown (s : State) : (postWrite s).shutDown = s.shutDown := by
  obtain same | ⟨_, same | same⟩ := postWrite_cases s <;> rw [same]

@[simp] theorem postWrite_readRefs (s : State) : (postWrite s).readRefs = s.readRefs := by
  obtain same | ⟨_, same | same⟩ := postWrite_cases s <;> rw [same]

@[simp] theorem postWrite_writeBuffer (s : State) : (postWrite s).writeBuffer = s.writeBuffer := by
  obtain same | ⟨_, same | same⟩ := postWrite_cases s <;> rw [same]

@[simp] theorem postWrite_initialised (s : State) : (postWrite s).initialised = s.initialised := by
  obtain same | ⟨_, same | same⟩ := postWrite_cases s <;> rw [same]

theorem postWrite_pending (pending : s.writePending = true) : postWrite s = s := by
  simp [postWrite, pending]

theorem send_shut (content : Bytes) (shut : s.shutDown = true) :
    send content s = { s with sent := s.sent ++ content } := by
  simp [send, shut]

theorem send_running (content : Bytes) (running : s.shutDown = false) :
    send content s = postWrite { s with
      sent := s.sent ++ content
      writeBuffer := s.writeBuffer.write content
      written := s.written ++ content } := by
  simp [send, running]

@[simp] theorem send_shutDown (content : Bytes) (s : State) :
    (send content s).shutDown = s.shutDown := by
  cases flag : s.shutDown with
  | true => rw [send_shut content flag, flag]
  | false => rw [send_running content flag, postWrite_shutDown, flag]

@[simp] theorem send_readRefs (content : Bytes) (s : State) :
    (send content s).readRefs = s.readRefs := by
  cases flag : s.shutDown with
  | true => rw [send_shut content flag]
  | false => rw [send_running content flag, postWrite_readRefs]

@[simp] theorem send_initialised (content : Bytes) (s : State) :
    (send content s).initialised = s.initialised := by
  cases flag : s.shutDown with
  | true => rw [send_shut content flag]
  | false => rw [send_running content flag, postWrite_initialised]

end
end Ladder.Source.IocpConnection
