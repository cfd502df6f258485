import Ladder.Source.Codec
import Ladder.Source.ReadDispatch

/-!
# Codec behind the read events of a TcpServer

Source: `Codec::OnMessage` of ladder/src/codec/Codec.cpp as the read callback of a
TcpServer. The tasks that the loop thread queues, as in Source/ReadDispatch.lean, call
it under `mutex_callback_` in place of `ReadAll`. It is cut at its Buffer calls, and
the loop thread may write to the buffer between any two of them.
-/
namespace Ladder.Source.CodecDispatch
open Ladder.Library Ladder.Source

structure State (pb : Protobuf) (κ : Type) where
  dispatch : ReadDispatch.State
  reading : Codec.Reading pb κ

def start (pb : Protobuf) (κ : Type) : State pb κ := ⟨ReadDispatch.start, ⟨.idle, [], []⟩⟩

inductive Act where
  | onReadCallback
  | read (incoming : Incoming)
  | test
  | emplace
  | lockCallback
  | onMessage
  | unlockCallback
  deriving DecidableEq, Repr

/-- The steps of the worker threads; the others are steps of the loop thread. -/
def Act.byWorker : Act → Bool
  | .lockCallback | .onMessage | .unlockCallback => true
  | .onReadCallback | .read _ | .test | .emplace => false

section
variable (host : Endian) (zlib : Zlib) {pb : Protobuf} {κ : Type} (codec : ProtobufCodec pb κ)

/-- A step that the codec has no part in. -/
def dispatched (s : State pb κ) (act : ReadDispatch.Act) : Option (State pb κ) :=
  (ReadDispatch.step s.dispatch act).map fun dispatch => { s with dispatch := dispatch }

/-- `OnMessage` has made its next Buffer call; where it has returned, the task is left with
the mutex to release. -/
def called (s : State pb κ) (reading : Codec.Reading pb κ) (readBuffer : Buffer) : State pb κ :=
  let callback := if reading.reader = .idle then .served else .entered
  ⟨{ s.dispatch with readBuffer := readBuffer, callback := some callback }, reading⟩

def step (s : State pb κ) : Act → Option (State pb κ)
  | .onReadCallback => dispatched s .onReadCallback
  | .read incoming => dispatched s (.read incoming)
  | .test => dispatched s .test
  | .emplace => dispatched s .emplace
  | .lockCallback => dispatched s .lockCallback
  | .onMessage =>
    if s.dispatch.callback = some .entered then
      (Codec.onMessage host zlib codec s.reading s.dispatch.readBuffer).map fun result =>
        called s result.1 result.2
    else none
  | .unlockCallback => dispatched s .unlockCallback

end
end Ladder.Source.CodecDispatch
