import Ladder.Library.Runs
import Ladder.Source.Connection
import Ladder.Source.TlsConnection

/-!
# TlsConnection and its engine

Source: ladder/src/TlsConnection.cpp, the epoll build, calls executed one at a time.
Here the ciphertext is part of the model: the two memory BIOs, `Encrypt`, `Decrypt`,
`HandleSslError` and the flushes they make. OpenSSL's `SSL` object is a parameter: each
of its calls consumes some octets of `rbio_`, appends some to `wbio_` and says what
`SSL_get_error` would. A memory BIO takes what it is offered, in pieces if it likes.

The last fields of a connection record what went through it: the octets read from the
socket and those the `SSL` object took out of `rbio_`, the octets that were put into
`wbio_`, the plaintext that `SSL_read` gave, the part of it the application took out of the
read buffer, the strings passed to `Send` and the octets `SSL_write` took.
-/
namespace Ladder.Source
open Ladder.Library

/-- `SSL_get_error` after a call that did not return a positive value; a wish to read
and a wish to write are handled alike. -/
inductive SslError where
  | none
  | want
  | failure
  deriving DecidableEq, Repr

/-- The effect of a call on an `SSL` object. -/
structure SslCall (σ : Type) where
  state : σ
  consumed : Nat
  produced : Bytes
  error : SslError

/-- `SSL_do_handshake` with whether its value is positive, `SSL_read` with the octets it
gives, `SSL_write` with the number of octets it takes. `ready` bounds the calls of
`SSL_read` that give something before more input arrives. -/
structure SslEngine where
  State : Type
  isInitFinished : State → Bool
  doHandshake : State → Bytes → Bool × SslCall State
  sslRead : Nat → State → Bytes → Bytes × SslCall State
  sslWrite : Bytes → State → Bytes → Nat × SslCall State
  ready : State → Bytes → Nat

/-- What the application does in its read callback. -/
inductive AppCall where
  | consume (n : Nat)
  | send (content : Bytes)
  deriving DecidableEq, Repr

structure Tls (engine : SslEngine) where
  base : Connection
  ssl : engine.State
  rbio : Bytes
  wbio : Bytes
  preWriteBuffer : Buffer
  isServer : Bool
  /-- The answers of the socket to the coming flushes, one list each. -/
  answers : List (List Answer)
  arrived : Bytes
  digested : Bytes
  produced : Bytes
  plaintext : Bytes
  used : Bytes
  sent : Bytes
  handed : Bytes

namespace Tls
variable {engine : SslEngine} (kernel : Kernel)

def kMaxBufferSize : Nat := 1024

/-- The `SSL` object and its BIOs after a call. -/
def called (call : SslCall engine.State) (t : Tls engine) : Tls engine :=
  { t with
    ssl := call.state
    rbio := t.rbio.drop call.consumed
    digested := t.digested ++ t.rbio.take call.consumed
    wbio := t.wbio ++ call.produced
    produced := t.produced ++ call.produced }

/-- `EnableWrite(Connection::WriteBuffer())`. -/
def flushOut (t : Tls engine) : Option (Tls engine) := do
  let (ret, base) ← t.base.flush kernel (t.answers.headD [])
  let base ← base.enableWrite ret
  return { t with base := base, answers := t.answers.tail }

/-- One `BIO_read` of `Encrypt` with the write behind it. -/
def encryptRound (t : Tls engine) : Tls engine :=
  { t with
    base := { t.base with writeBuffer := t.base.writeBuffer.write (t.wbio.take kMaxBufferSize) }
    wbio := t.wbio.drop kMaxBufferSize }

/-- `Encrypt`. -/
def encrypt (t : Tls engine) : Option (Tls engine) :=
  whileLoop (fun t => some !t.wbio.isEmpty) (fun t => some t.encryptRound) (t.wbio.length + 1) t

/-- `HandleSslError` for a value that is not positive: whether the caller goes on. -/
def handleSslError (t : Tls engine) : SslError → Option (Bool × Tls engine)
  | .none => some (true, t)
  | .want => do
    let t ← t.encrypt
    let t ← t.flushOut kernel
    return (true, t)
  | .failure => some (false, t)

/-- The octets of a string that `Send` offers to `SSL_write`. -/
def offered (buf : Bytes) (nWritten : Nat) : Bytes :=
  (buf.drop nWritten).take (int buf.length - nWritten).toNat

/-- The loop of `Send` over `SSL_write`. -/
def sendLoop : Nat → Bytes → Nat → Tls engine → Option (Tls engine)
  | 0, _, _, _ => none
  | fuel + 1, buf, nWritten, t =>
    if nWritten < int buf.length then
      let (n, call) := engine.sslWrite (offered buf nWritten) t.ssl t.rbio
      let t := t.called call
      if 0 < n then
        match { t with handed := t.handed ++ (buf.drop nWritten).take n }.encrypt with
        | some t => sendLoop fuel buf (nWritten + n) t
        | none => none
      else some t
    else some t

/-- `Send`. -/
def send (buf : Bytes) (t : Tls engine) : Option (Tls engine) :=
  if t.base.shutDown then some t
  else if !engine.isInitFinished t.ssl then
    some { t with preWriteBuffer := t.preWriteBuffer.write buf }
  else do
    let t ← sendLoop (buf.length + 1) buf 0 t
    t.flushOut kernel

def onSslHandshakeFinished (t : Tls engine) : Option (Tls engine) :=
  { t with preWriteBuffer := t.preWriteBuffer.readAll.2 }.send kernel t.preWriteBuffer.readAll.1

/-- `Decrypt`, with what `SSL_get_error` says after its last `SSL_read`. -/
def decrypt : Nat → Tls engine → Option (SslError × Tls engine)
  | 0, _ => none
  | fuel + 1, t =>
    let (data, call) := engine.sslRead kMaxBufferSize t.ssl t.rbio
    let t := t.called call
    if data.isEmpty then some (call.error, t)
    else decrypt fuel
      { t with
        base := { t.base with readBuffer := t.base.readBuffer.write data }
        plaintext := t.plaintext ++ data }

/-- `SSL_do_handshake` in `ReadFromBuffer`, up to the test of `HandleSslError`. -/
def handshake (t : Tls engine) : Option (Bool × Tls engine) :=
  let (finished, call) := engine.doHandshake t.ssl t.rbio
  let t := t.called call
  if finished then (t.onSslHandshakeFinished kernel).map (true, ·)
  else t.handleSslError kernel call.error

/-- `Decrypt` in `ReadFromBuffer`, up to the test of `HandleSslError`. -/
def receive (t : Tls engine) : Option (Bool × Tls engine) :=
  match decrypt (engine.ready t.ssl t.rbio + 1) t with
  | some (error, t) => t.handleSslError kernel error
  | none => none

/-- A round of `ReadFromBuffer` behind `BIO_write`. -/
def feedRound (t : Tls engine) : Option (Bool × Tls engine) :=
  if engine.isInitFinished t.ssl then t.receive kernel
  else
    match t.handshake kernel with
    | none => none
    | some (false, t) => some (false, t)
    | some (true, t) => if engine.isInitFinished t.ssl then t.receive kernel else some (true, t)

/-- `BIO_write` of octets that it takes. -/
def bioWrite (octets : Bytes) (t : Tls engine) : Tls engine := { t with rbio := t.rbio ++ octets }

/-- The loop of `ReadFromBuffer`; `rooms` decides how many octets each `BIO_write` takes. -/
def feedLoop : Nat → List Nat → Bytes → Tls engine → Option (Bool × Tls engine)
  | 0, _, _, _ => none
  | fuel + 1, rooms, src, t =>
    if src.isEmpty then some (true, t)
    else
      let n := taken (rooms.headD src.length) src.length
      match (t.bioWrite (src.take n)).feedRound kernel with
      | none => none
      | some (false, t) => some (false, t)
      | some (true, t) => feedLoop fuel rooms.tail (src.drop n) t

/-- `ReadFromBuffer`. -/
def readFromBuffer (rooms : List Nat) (src : Bytes) (len : Int) (t : Tls engine) :
    Option (Bool × Tls engine) :=
  if len ≤ 0 then some (true, t)
  else feedLoop kernel (len.toNat + 1) rooms (src.take len.toNat) t

/-- What a call of the application does. -/
def appCall (t : Tls engine) : AppCall → Option (Tls engine)
  | .consume n =>
    some { t with
      base := { t.base with readBuffer := t.base.readBuffer.haveRead n }
      used := t.used ++ t.base.readBuffer.unread.take n }
  | .send content => { t with sent := t.sent ++ content }.send kernel content

def appCalls : List AppCall → Tls engine → Option (Tls engine)
  | [], t => some t
  | call :: rest, t =>
    match t.appCall kernel call with
    | some t => appCalls rest t
    | none => none

/-- `OnReadCallback` behind `ReadBuffer`, whose value and `errno` are given. -/
def afterRead (ret : Int) (errno : Errno) (calls : List AppCall) (t : Tls engine) :
    Option (Tls engine) :=
  if ret = -1 ∧ errno = .econnreset then
    some { t with base := { t.base with shutDown := true }.onCloseCallback }
  else
    let t := if ret = 0 ∨ ret < -1 then { t with base := { t.base with shutDown := true } } else t
    match if t.base.readBuffer.empty then some t else t.appCalls kernel calls with
    | none => none
    | some t =>
      if t.base.shutDown &&
        t.base.writeBuffer.empty then some { t with base := t.base.close } else some t

/-- `ReadBuffer` of this class: the value, `errno` and the connection. -/
def readBuffer (incoming : List Incoming) (rooms : List Nat) (t : Tls engine) :
    Option (Int × Errno × Tls engine) :=
  (Buffer.fresh.readBufferFromFd incoming).bind fun read =>
    let str := read.2.2.readAll.1
    let t := { t with arrived := t.arrived ++ str }
    (t.readFromBuffer kernel rooms str (int str.length)).map fun fed =>
      (if fed.1 then read.1 else -2, read.2.1, fed.2)

/-- `OnReadCallback` with this `ReadBuffer`. -/
def onReadCallback (incoming : List Incoming) (rooms : List Nat) (calls : List AppCall)
    (t : Tls engine) : Option (Tls engine) :=
  if t.base.shutDown then some t
  else (t.readBuffer kernel incoming rooms).bind fun read =>
    read.2.2.afterRead kernel read.1 read.2.1 calls

/-- The `WriteBuffer` of this class before it goes to the one of the base class. -/
def clientHello (t : Tls engine) : Option (Tls engine) :=
  if !t.isServer && !engine.isInitFinished t.ssl then (t.handshake kernel).map Prod.snd else some t

/-- `OnWriteCallback` with the `WriteBuffer` of this class and no write callback. -/
def onWriteCallback (t : Tls engine) : Option (Tls engine) :=
  match t.clientHello kernel with
  | none => none
  | some t =>
    match t.base.flush kernel (t.answers.headD []) with
    | none => none
    | some (ret, base) =>
      let t := { t with base := base, answers := t.answers.tail }
      if base.shutDown && base.writeBuffer.empty then some { t with base := base.onCloseCallback }
      else (base.enableWrite ret).map fun base => { t with base := base }

end Tls
end Ladder.Source
