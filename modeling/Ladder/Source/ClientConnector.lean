import Ladder.Source.Connector
import Ladder.Source.TcpClient

/-!
# TcpClient with its connector

Source: ladder_client/src/TcpClient.cpp and ladder_client/src/Connector.cpp together, in the
epoll build: `Connect` makes a connection and a connector and starts the connector, whose
callbacks are those of the client. All of it runs on the thread of the loop. A failed
`connect` reports on its attempt at once, and the channel may report on it again: for a
refused connection it has EPOLLHUP as well. `attempts` counts the calls of `connect` by the
connector of the last `Connect`, `pending` says that the last of them has not been reported
on, and `repeated` counts the reports that came when none was due.
-/
namespace Ladder.Source.ClientConnector
open Connector (ConnectResult)

structure State where
  client : TcpClient.State
  connector : Option Connector.State
  attempts : Nat
  pending : Bool
  repeated : Nat
  deriving DecidableEq, Repr

def initial : State := ⟨TcpClient.start, none, 0, false, 0⟩

/-- A report on an attempt has come in. -/
def reported (s : State) : State :=
  { s with
    pending := false
    repeated := if s.pending then s.repeated else s.repeated + 1 }

/-- `Connector::Retry`. The failure callback of the client looks at `conn_` first, which
ends the process where there is none. -/
def retry (k : Connector.State) (s : State) : Option State := do
  let k ← Connector.retry k
  let s := { reported s with connector := some k }
  if k.outcomes.getLast? = some .connectionFailureCallback then
    if s.client.conn.isSome then
      return { s with client := TcpClient.onConnectionFailureCallback s.client }
    else none
  else return s

/-- `Connector::Start`, in an attempt. Without a connection `EnableWrite` ends the process;
an established one would lose its callbacks, which this model does not follow. -/
def start (result : ConnectResult) (k : Connector.State) (s : State) : Option State :=
  if s.client.conn = some .attempting then
    let s := { s with connector := some k, attempts := s.attempts + 1, pending := true }
    if result.failed then retry k s else some s
  else none

inductive Act where
  | connect (result : ConnectResult)
  | disconnect
  | onTimer (result : ConnectResult)
  | handleConnect (sockErr : Bool)
  | errorCallback
  | closeCallback
  | onCloseConnectionCallback
  deriving DecidableEq, Repr

section
variable (maxRetry : Int32) (retryInitialTimeout : UInt16)

/-- The callbacks of the channel are those of the connector during an attempt. -/
def attempting (s : State) : Option Connector.State :=
  if s.client.conn = some .attempting then s.connector else none

def step (s : State) : Act → Option State
  | .connect result =>
    match TcpClient.connect s.client with
    | .ok client =>
      let k := Connector.fresh maxRetry retryInitialTimeout
      start result k ⟨client, some k, 0, false, 0⟩
    | .error _ => some s
  | .disconnect => some { s with client := TcpClient.disconnect s.client }
  | .onTimer result =>
    match s.connector with
    | some k => if k.timer.armed then start result { k with timer := .disarmed } s else none
    | none => none
  | .handleConnect sockErr =>
    match attempting s with
    | some k =>
      if sockErr then retry k s
      else some { reported s with client := TcpClient.onConnectionCallback s.client }
    | none => none
  | .errorCallback | .closeCallback =>
    match attempting s with
    | some k => retry k s
    | none => none
  | .onCloseConnectionCallback =>
    if s.client.conn = some .established ∨ s.client.conn = some .shutDown then
      some { s with client := TcpClient.onCloseConnectionCallback s.client }
    else none

end
end Ladder.Source.ClientConnector
