import Ladder.Source.BufferTransfer

/-!
# Read events of a TcpServer connection

Source: `Connection::OnReadCallback` and `LockCallback` of ladder/src/Connection.cpp,
`Buffer::ReadBufferFromFd` and `Buffer::ReadAll` of ladder/src/Buffer.cpp,
`TcpServer::OnReadCallback` of ladder/src/TcpServer.cpp. The loop thread fills the
read buffer and queues a task whenever it finds the buffer non-empty; worker threads
run the tasks, one at a time because of `mutex_callback_`. The application's callback
takes everything with `ReadAll`. Both sides are cut at their accesses to the buffer.
-/
namespace Ladder.Source.ReadDispatch
open Ladder.Library

/-- The step `OnReadCallback` makes next on the loop thread; `outside` of a call. -/
inductive Loop where
  | outside
  | read
  | test
  | emplace
  deriving DecidableEq, Repr

/-- The callback of the task that holds `mutex_callback_`: entered, with the argument
of `Read` computed, with what `Peek` gave, and after `HaveRead`. -/
inductive Callback where
  | entered
  | sized (n : Nat)
  | peeked (readable : Nat) (result : Bytes)
  | served
  deriving DecidableEq, Repr

/-- `tasks` counts the tasks that are queued or wait for the mutex. `found` lists the
`ReadableBytes()` at the entry of each invocation, `handed` what each invocation got
from `ReadAll`, `received` what the reads have delivered. -/
structure State where
  readBuffer : Buffer
  shutDown : Bool
  loop : Loop
  tasks : Nat
  callback : Option Callback
  received : Bytes
  found : List Nat
  handed : List Bytes
  deriving DecidableEq, Repr

def start : State := ⟨.fresh, false, .outside, 0, none, [], [], []⟩

/-- One round of `ReadBufferFromFd`, and what `OnReadCallback` does when it returns. -/
def readRound (s : State) : Incoming → Option State
  | .data octets =>
    let buf := octets.take kReadBufferSize
    let s := { s with
      readBuffer := s.readBuffer.writeChars buf buf.length
      received := s.received ++ buf }
    some (if buf.length = 0 then { s with shutDown := true, loop := .test } else s)
  | .fail .eagain => some { s with loop := .test }
  | .fail .econnreset => some { s with shutDown := true, loop := .outside }
  | .fail .epipe | .fail .other => none

inductive Act where
  | onReadCallback
  | read (incoming : Incoming)
  | test
  | emplace
  | lockCallback
  | size
  | peek
  | haveRead
  | unlockCallback
  deriving DecidableEq, Repr

def step (s : State) : Act → Option State
  | .onReadCallback =>
    if s.loop = .outside then some (if s.shutDown then s else { s with loop := .read }) else none
  | .read incoming => if s.loop = .read then readRound s incoming else none
  | .test =>
    if s.loop = .test then
      some { s with loop := if s.readBuffer.empty then .outside else .emplace }
    else none
  | .emplace =>
    if s.loop = .emplace then some { s with loop := .outside, tasks := s.tasks + 1 } else none
  | .lockCallback =>
    if 0 < s.tasks ∧ s.callback = none then
      some { s with
        tasks := s.tasks - 1
        callback := some .entered
        found := s.found ++ [s.readBuffer.readableBytes] }
    else none
  | .size =>
    if s.callback = some .entered then
      some { s with
        callback := some (.sized (u32 (s.readBuffer.writeIndex + 2 ^ 32 - s.readBuffer.readIndex)))
          }
    else none
  | .peek =>
    match s.callback with
    | some (.sized n) =>
      let (readable, result) := s.readBuffer.peek n
      some { s with callback := some (.peeked readable result) }
    | _ => none
  | .haveRead =>
    match s.callback with
    | some (.peeked readable result) =>
      some { s with
        readBuffer := s.readBuffer.haveRead readable
        callback := some .served
        handed := s.handed ++ [result] }
    | _ => none
  | .unlockCallback => if s.callback = some .served then some { s with callback := none } else none

end Ladder.Source.ReadDispatch
