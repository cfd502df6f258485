/-!
# TcpClient

Source: ladder_client/src/TcpClient.cpp, ladder_client/include/TcpClient.h. Calls and
callbacks are single steps; a callback is enabled when the connector or the channel
of `conn_` can make it. Next to `status_` the state keeps what has become of the
connection `conn_` points to.
-/
namespace Ladder.Source.TcpClient

/-- Nothing ever assigns `kDisConnecting`. -/
inductive TcpConnectionStatus where
  | kDisconnected
  | kConnecting
  | kConnected
  | kDisConnecting
  deriving DecidableEq, Repr

/-- `attempting`: the connector has been started and has reported no outcome.
`shutDown`: `Disconnect` has shut down the write side, the peer has not yet closed. -/
inductive Phase where
  | attempting
  | established
  | shutDown
  | closed
  deriving DecidableEq, Repr

structure State where
  status : TcpConnectionStatus
  conn : Option Phase
  deriving DecidableEq, Repr

def start : State := ⟨.kDisconnected, none⟩

/-- A refused call is an error with the warning it logs. -/
def connect (s : State) : Except String State :=
  if s.status ≠ .kDisconnected then .error "Already connected"
  else .ok ⟨.kConnecting, some .attempting⟩

/-- `ShutDownWrite` on the channel of the connection; no effect on a closed one. -/
def shutDownWrite : Option Phase → Option Phase
  | some .established => some .shutDown
  | other => other

def disconnect (s : State) : State :=
  if s.status ≠ .kConnected then s else ⟨.kConnecting, shutDownWrite s.conn⟩

def onConnectionFailureCallback (_ : State) : State := ⟨.kDisconnected, none⟩

def onConnectionCallback (_ : State) : State := ⟨.kConnected, some .established⟩

/-- Writes a log line and leaves `status_` as it is. -/
def onCloseConnectionCallback (s : State) : State := { s with conn := some .closed }

inductive Act where
  | connect
  | disconnect
  | onConnectionFailureCallback
  | onConnectionCallback
  | onCloseConnectionCallback
  deriving DecidableEq, Repr

def step (s : State) : Act → Option State
  | .connect =>
    match connect s with
    | .ok next => some next
    | .error _ => some s
  | .disconnect => some (disconnect s)
  | .onConnectionFailureCallback =>
    if s.conn = some .attempting then some (onConnectionFailureCallback s) else none
  | .onConnectionCallback =>
    if s.conn = some .attempting then some (onConnectionCallback s) else none
  | .onCloseConnectionCallback =>
    if s.conn = some .established ∨ s.conn = some .shutDown then
      some (onCloseConnectionCallback s)
    else none

end Ladder.Source.TcpClient
