import Ladder.Source.BufferTransfer

/-!
# TlsConnection

Source: ladder/src/TlsConnection.cpp. `Send` and `ReadFromBuffer` are cut at their
atomic operations, for threads that share the connection: the test of
`SSL_is_init_finished`, the Buffer methods, and each call of OpenSSL. Of OpenSSL the
model keeps whether the handshake is finished and the octets handed to `SSL_write`;
once the handshake is finished it stays finished, and `SSL_write` takes at least one
octet. The ciphertext (`Encrypt`, and flushing it) is left out: nothing here depends
on it. `shut_down_` is not set.
-/
namespace Ladder.Source
open Ladder.Library

/-- Outcome of an OpenSSL call as `HandleSslError` sees it: a positive value, a
wish to read or write (or no error), or a failure. -/
inductive SslResult where
  | positive
  | wants
  | fails
  deriving DecidableEq, Repr

namespace TlsConnection

/-- Where `Send` stands: before the test of the handshake, before the write to
`pre_write_buffer_`, or in the loop over `SSL_write`. -/
inductive Sending where
  | test (buf : Bytes)
  | preWrite (buf : Bytes)
  | sslWrite (buf : Bytes) (nWritten : Nat)
  deriving DecidableEq, Repr

/-- What one operation of `Send` does: where it stands after it (`none` when it has
returned), the buffer, and the octets handed to `SSL_write`. -/
structure Sent where
  next : Option Sending
  preWriteBuffer : Buffer
  handed : Bytes
  deriving DecidableEq, Repr

/-- One operation of `Send`. `room` decides how many octets `SSL_write` takes. -/
def sendStep (initFinished : Bool) (room : Nat) (preWriteBuffer : Buffer) : Sending → Sent
  | .test buf =>
    ⟨some (if initFinished then .sslWrite buf 0 else .preWrite buf), preWriteBuffer, []⟩
  | .preWrite buf => ⟨none, preWriteBuffer.write buf, []⟩
  | .sslWrite buf nWritten =>
    let len := int buf.length
    if nWritten < len then
      let n := taken room (len - nWritten).toNat
      ⟨some (.sslWrite buf (nWritten + n)), preWriteBuffer, (buf.drop nWritten).take n⟩
    else ⟨none, preWriteBuffer, []⟩

/-- A call of `Send` that no other thread disturbs: the buffer behind it and the octets
handed to `SSL_write`, which takes as many as `rooms` allow. -/
def sendRun (initFinished : Bool) : List Nat → Buffer → Sending → Option (Buffer × Bytes)
  | [], _, _ => none
  | room :: rooms, preWriteBuffer, sending =>
    let sent := sendStep initFinished room preWriteBuffer sending
    match sent.next with
    | some next =>
      (sendRun initFinished rooms sent.preWriteBuffer next).map fun rest =>
        (rest.1, sent.handed ++ rest.2)
    | none => some (sent.preWriteBuffer, sent.handed)

/-- Where `ReadFromBuffer` stands, with the octets it still has to feed to OpenSSL. -/
inductive Receiving where
  | idle
  | bioWrite (left : Nat)
  | test (left : Nat)
  | handshake (left : Nat)
  | readAll (left : Nat)
  | resend (left : Nat) (sending : Sending)
  | handleSslError (left : Nat) (result : SslResult)
  | retest (left : Nat)
  | decrypt (left : Nat)
  deriving DecidableEq, Repr

/-- What one operation of `ReadFromBuffer` does. -/
structure Received where
  next : Receiving
  initFinished : Bool
  preWriteBuffer : Buffer
  handed : Bytes
  deriving DecidableEq, Repr

/-- `HandleSslError`: whether the caller goes on. -/
def handleSslError : SslResult → Bool
  | .positive | .wants => true
  | .fails => false

/-- One operation of `ReadFromBuffer`, with `OnSslHandshakeFinished` and the `Send`
it makes. `result` is the outcome of `SSL_do_handshake` or of the last `SSL_read`;
`room` decides how many octets `BIO_write` and `SSL_write` take. -/
def receiveStep (result : SslResult) (room : Nat) (initFinished : Bool) (preWriteBuffer : Buffer) :
    Receiving → Option Received
  | .idle => none
  | .bioWrite left =>
    some ⟨if left = 0 then .idle else .test (left - taken room left), initFinished,
      preWriteBuffer, []⟩
  | .test left =>
    some ⟨if initFinished then .decrypt left else .handshake left, initFinished, preWriteBuffer, []⟩
  | .handshake left =>
    match result with
    | .positive => some ⟨.readAll left, true, preWriteBuffer, []⟩
    | _ => some ⟨.handleSslError left result, initFinished, preWriteBuffer, []⟩
  | .readAll left =>
    some ⟨.resend left (.test preWriteBuffer.readAll.1), initFinished, preWriteBuffer.readAll.2, []⟩
  | .resend left sending =>
    let sent := sendStep initFinished room preWriteBuffer sending
    match sent.next with
    | some next => some ⟨.resend left next, initFinished, sent.preWriteBuffer, sent.handed⟩
    | none => some ⟨.handleSslError left .positive, initFinished, sent.preWriteBuffer, sent.handed⟩
  | .handleSslError left result =>
    some ⟨if handleSslError result then .retest left else .idle, initFinished, preWriteBuffer, []⟩
  | .retest left =>
    some ⟨if initFinished then .decrypt left else .bioWrite left, initFinished, preWriteBuffer, []⟩
  | .decrypt left =>
    some ⟨if handleSslError result then .bioWrite left else .idle, initFinished, preWriteBuffer, []⟩

section
variable {initFinished : Bool} {room : Nat} {rooms : List Nat} {b : Buffer} {sending : Sending}
  {handed : Bytes}

theorem sendRun_returns {after : Buffer}
    (returns : sendStep initFinished room b sending = ⟨none, after, handed⟩) :
    sendRun initFinished (room :: rooms) b sending = some (after, handed) := by
  rw [sendRun, returns]

theorem sendRun_continues {after final : Buffer} {next : Sending} {rest : Bytes}
    (goes : sendStep initFinished room b sending = ⟨some next, after, handed⟩)
    (runs : sendRun initFinished rooms after next = some (final, rest)) :
    sendRun initFinished (room :: rooms) b sending = some (final, handed ++ rest) := by
  rw [sendRun, goes]
  exact congrArg (Option.map _) runs

end

/-! ## What `Send` still has to hand over -/

/-- Octets of the string that have not been handed to `SSL_write` or buffered. -/
def Sending.left : Sending → Bytes
  | .test buf => buf
  | .preWrite buf => buf
  | .sslWrite buf nWritten => buf.drop nWritten

/-- The length of the string is an `int`, and the loop stays inside of it. -/
def Sending.Fits : Sending → Prop
  | .test buf => buf.length < 2 ^ 31
  | .preWrite buf => buf.length < 2 ^ 31
  | .sslWrite buf nWritten => buf.length < 2 ^ 31 ∧ nWritten ≤ buf.length

/-- The loop over `SSL_write` hands over the string from where it stands. -/
theorem sendStep_sslWrite {buf : Bytes} {nWritten : Nat}
    (fits : (Sending.sslWrite buf nWritten).Fits) (initFinished : Bool) (room : Nat) (b : Buffer) :
    (∃ n, sendStep initFinished room b (.sslWrite buf nWritten) =
        ⟨some (.sslWrite buf (nWritten + n)), b, (buf.drop nWritten).take n⟩ ∧
        nWritten + n ≤ buf.length) ∨
      (sendStep initFinished room b (.sslWrite buf nWritten) = ⟨none, b, []⟩ ∧
        buf.drop nWritten = []) := by
  obtain ⟨small, inside⟩ := fits
  simp only [sendStep, int_eq_of_small small]
  by_cases more : (nWritten : Int) < buf.length
  · have bound := Buffer.taken_le room ((buf.length : Int) - nWritten).toNat
    rw [if_pos more]
    exact .inl ⟨_, rfl, by omega⟩
  · rw [if_neg more]
    exact .inr ⟨rfl, List.drop_eq_nil_of_le (by omega)⟩

end TlsConnection
end Ladder.Source
