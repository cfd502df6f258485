import Ladder.Library.Framing
import Ladder.Source.HttpConnection
import Ladder.Guarantees.ConnectionOutput
import Ladder.Guarantees.HttpPipelining

/-!
# An HTTP client and its connection

A client writes well-formed requests one behind the other; the server's socket gets
their octets cut anywhere, and takes the octets of the responses as it likes. Each read
event runs `OnReadCallback` with `OnClientMessage` as its callback, whose responses go
through `Send` and `SendFile` on the connection. Up to the point where a request of
version 1.0 makes the server shut its write side, and beyond it, the connection follows
a desk that answers one complete request per read event.
-/
namespace Ladder.Guarantees.HttpExchange
open Ladder.Library Ladder.Source Ladder.Source.Http
open Ladder.Guarantees.HttpPipelining (Request Answers Answerable completed)
open Ladder.Guarantees.WriteShutdown (Carries unsent)
open Ladder.Guarantees.ConnectionOutput

structure Exchange where
  connection : Connection
  /-- The octets of the client that have not been read yet. -/
  wire : Bytes
  served : List Served
  /-- `SHUT_WR` has taken effect on the socket. -/
  writeShut : Bool

inductive Act where
  /-- The octets in the pieces `read` delivers, the indeterminate members of the two
  contexts, and the answers to the write of the response. -/
  | readEvent (chunks : List Bytes) (request response : Unset) (answers : List Answer)
  | writeEvent (answers : List Answer)

def start (sendFile : Bool) (requests : List Request) : Exchange :=
  ⟨.create sendFile false, requests.flatMap Request.octets, [], false⟩

/-- A socket whose write side is shut down answers with EPIPE. -/
def refuses (s : Exchange) (answers : List Answer) : Bool :=
  s.writeShut && answers.any (· != .fail .epipe)

/-- The entry of the write buffer that stands for a response. -/
def entry : Sent → FileInfo
  | .send message => ⟨message, []⟩
  | .sendFile header filename => ⟨header, filename⟩

section
variable (kernel : Kernel) (world : World) (codec : HttpCodec)

def step (s : Exchange) : Act → Option Exchange
  | .readEvent chunks request response answers =>
    if refuses s answers || !chunks.flatten.isPrefixOf s.wire then none
    else
      (s.connection.onReadWith (chunks.map .data)
          (codec.onConnection kernel world request response answers)).map fun result =>
        { connection := result.1
          wire := s.wire.drop chunks.flatten.length
          served := s.served ++ result.2
          writeShut := s.writeShut || result.2.any Served.shutDownWrite }
  | .writeEvent answers =>
    if refuses s answers then none
    else (s.connection.onWriteCallback kernel answers []).map fun connection =>
      { s with connection := connection }

/-- The response can be queued. -/
def roomFor (c : Connection) : Sent → Bool
  | .send message => decide (outputIndex c + message.length < 2 ^ 32)
  | .sendFile header filename =>
    match c.writeBuffer with
    | .plain _ => false
    | .file _ => FileBuffer.fits kernel ⟨header, filename⟩

/-- The response of a call of `OnClientMessage`, if there is one, can be queued. -/
def answerFits (c : Connection) : Except Failure (Buffer × Option Served) → Bool
  | .ok (_, some served) => roomFor kernel c served.sent
  | .ok (_, none) => true
  | .error _ => true

/-- The socket takes octets, blocks, or refuses once its write side is shut down; what is
read is the next octets of the client, and the sizes are in range. -/
def Admissible (s : Exchange) : Act → Bool
  | .readEvent chunks request response answers =>
    answers.all Answer.tolerated && !refuses s answers && chunks.flatten.isPrefixOf s.wire &&
      chunks.all (fun chunk => decide (0 < chunk.length ∧ chunk.length ≤ kReadBufferSize)) &&
      decide (s.connection.readBuffer.writeIndex + chunks.flatten.length < 2 ^ 32 ∧
        (s.connection.readBuffer.unread ++ chunks.flatten).length < 2 ^ 31 - 3) &&
      match s.connection.readBuffer.readBufferFromFd (chunks.map .data) with
      | some (_, _, filled) =>
        answerFits kernel s.connection (codec.onClientMessage world request response filled)
      | none => true
  | .writeEvent answers => answers.all Answer.tolerated && !refuses s answers

end

/-! ## One answer per read event -/

/-- Octets received and requests answered. -/
structure Desk where
  received : Nat
  answered : Nat
  deriving DecidableEq, Repr

/-- With every read event one request is answered, if there is a complete one. -/
def Desk.step (requests : List Request) (d : Desk) : Act → Option Desk
  | .readEvent chunks _ _ _ =>
    let received := d.received + chunks.flatten.length
    some ⟨received, min (d.answered + 1) (completed requests received)⟩
  | .writeEvent _ => some d

theorem completed_append (whole due : List Request) (n : Nat) :
    completed (whole ++ due) ((whole.flatMap Request.octets).length + n) =
      whole.length + completed due n := by
  induction whole with
  | nil => simp
  | cons r whole ih =>
    rw [List.cons_append, List.flatMap_cons, List.length_append, Nat.add_assoc,
      HttpPipelining.completed_add, ih, List.length_cons]
    omega

/-- The whole requests in front are the completed ones. -/
theorem completed_cut {front back rest : Bytes} {whole left : List Request}
    (cut : CutAt Request.octets front back whole left rest) :
    completed (whole ++ left) front.length = whole.length := by
  have none : completed left rest.length = 0 := by
    cases left with
    | nil => rfl
    | cons r left => exact HttpPipelining.completed_of_lt (cut.unfinished r rfl)
  rw [cut.front, List.length_append, completed_append, none, Nat.add_zero]

/-! ## A call of `OnClientMessage` -/

section
variable {kernel : Kernel} {world : World} {codec : HttpCodec}
  {request response : Unset} {b : Buffer}

theorem call_waits (valid : b.Valid)
    (waits : ∃ parsed, parseMessage handleRequest b.unread request.context = .ok parsed ∧
      parsed.status = -1) :
    codec.onClientMessage world request response b = .ok (b, none) := by
  obtain ⟨parsed, result, partly⟩ := waits
  rw [← valid.peek_all] at result
  exact onClientMessage_incomplete world codec response result partly

theorem pass_appends {entries : List FileInfo} {c : Connection}
    {answers : List Answer} {sent : Sent}
    (carries : Carries kernel entries c) (tolerated : ∀ answer ∈ answers, answer.tolerated = true)
    (room : roomFor kernel c sent = true) :
    ∃ after, sent.pass kernel answers c = some after ∧
      Appends kernel entries [entry sent] answers c after := by
  cases sent with
  | send message => exact send_appends carries tolerated (by simpa [roomFor] using room)
  | sendFile header filename =>
    rw [roomFor] at room
    split at room
    · cases room
    · rename_i files kind
      exact sendFile_appends carries kind tolerated room

end

section
variable {kernel : Kernel} {world : World} {codec : HttpCodec} {queued : List FileInfo}
  {c : Connection} {chunks : List Bytes} {request response : Unset} {answers : List Answer}
  {filled : Buffer}

/-- A read event behind which there is nothing to answer. -/
theorem onReadWith_waits (answers : List Answer) (carries : Carries kernel queued c)
    (reads : c.readBuffer.readBufferFromFd (chunks.map .data) = some (-1, .eagain, filled))
    (called : codec.onClientMessage world request response filled = .ok (filled, none)) :
    c.onReadWith (chunks.map .data) (codec.onConnection kernel world request response answers) =
        some ({ c with readBuffer := filled }, []) ∧
      Carries kernel queued { c with readBuffer := filled } := by
  have carries' := carries_elsewhere carries filled c.trace
  refine ⟨Connection.onReadWith_running carries.running reads ?_ carries'.running, carries'⟩
  rw [Connection.runWith]
  split
  · rfl
  · rw [HttpCodec.onConnection, called, passServed]

/-- A read event with a response. -/
theorem onReadWith_answers {taken : Buffer} {served : Served} (carries : Carries kernel queued c)
    (tolerated : ∀ answer ∈ answers, answer.tolerated = true)
    (reads : c.readBuffer.readBufferFromFd (chunks.map .data) = some (-1, .eagain, filled))
    (nonempty : filled.empty = false)
    (called : codec.onClientMessage world request response filled = .ok (taken, some served))
    (room : answerFits kernel c (codec.onClientMessage world request response filled) = true) :
    ∃ after, c.onReadWith (chunks.map .data)
      (codec.onConnection kernel world request response answers) =
        some (after, [served]) ∧
      Appends kernel queued [entry served.sent] answers { c with readBuffer := taken } after := by
  rw [called, answerFits] at room
  obtain ⟨after, passed, appends⟩ :=
    pass_appends (carries_elsewhere carries taken c.trace) tolerated room
  refine ⟨after,
    Connection.onReadWith_running carries.running reads ?_ appends.carries.running, appends⟩
  rw [Connection.runWith, if_neg (by simp [nonempty]), HttpCodec.onConnection, called,
    passServed, passed]
  rfl

/-- What an admissible read event brings. -/
theorem readEvent_admissible {s : Exchange} (valid : s.connection.readBuffer.Valid)
    (admissible :
      Admissible kernel world codec s (.readEvent chunks request response answers) = true) :
    ∃ filled remaining, (∀ answer ∈ answers, answer.tolerated = true) ∧
      s.connection.readBuffer.readBufferFromFd (chunks.map .data) =
        some (-1, .eagain, filled) ∧ filled.Valid ∧
      filled.unread = s.connection.readBuffer.unread ++ chunks.flatten ∧
      chunks.flatten ++ remaining = s.wire ∧
      filled.unread.length < 2 ^ 31 - 3 ∧
      answerFits kernel s.connection (codec.onClientMessage world request response filled) = true ∧
      step kernel world codec s (.readEvent chunks request response answers) =
        (s.connection.onReadWith (chunks.map .data)
          (codec.onConnection kernel world request response answers)).map fun result =>
            ⟨result.1, remaining, s.served ++ result.2,
              s.writeShut || result.2.any Served.shutDownWrite⟩ := by
  simp only [Admissible, Bool.and_eq_true, Bool.not_eq_true', List.all_eq_true, decide_eq_true_eq,
    List.isPrefixOf_iff_prefix] at admissible
  obtain ⟨⟨⟨⟨⟨tolerated, allowed⟩, remaining, arrives⟩, sizes⟩, space, small⟩, room⟩ := admissible
  obtain ⟨filled, reads, valid', unread⟩ := valid.readBufferFromFd_data sizes space
  rw [reads] at room
  refine ⟨filled, remaining, tolerated, reads, valid', unread, arrives, unread ▸ small, room, ?_⟩
  have goes : (refuses s answers || !chunks.flatten.isPrefixOf s.wire) = false := by
    have prefixed : chunks.flatten.isPrefixOf s.wire = true :=
      List.isPrefixOf_iff_prefix.mpr ⟨remaining, arrives⟩
    rw [allowed, prefixed]
    rfl
  have left_over : s.wire.drop chunks.flatten.length = remaining := by
    rw [← arrives, List.drop_left]
  rw [step, if_neg (by simp [goes]), left_over]

end

/-! ## The connection follows the desk -/

def entries (served : List Served) : List FileInfo := served.map fun answer => entry answer.sent

section
variable {kernel : Kernel} {world : World} {codec : HttpCodec} {requests : List Request}
  {s : Exchange} {d : Desk}

variable (kernel world codec requests) in
structure Follows (s : Exchange) (d : Desk) : Prop where
  carries : Carries kernel (entries s.served) s.connection
  valid : s.connection.readBuffer.Valid
  bounded : d.answered ≤ requests.length
  answered : List.Forall₂ (Answers world codec) (requests.take d.answered) s.served
  octets : s.connection.readBuffer.unread ++ s.wire =
    (requests.drop d.answered).flatMap Request.octets
  received : ((requests.take d.answered).flatMap Request.octets).length +
    s.connection.readBuffer.unread.length = d.received

/-- What the desk counts, in terms of the octets that have just been read. -/
theorem Follows.completed {chunk remaining rest : Bytes} {whole left : List Request}
    (follows : Follows kernel world codec requests s d)
    (split : requests.drop d.answered = whole ++ left)
    (cut : CutAt Request.octets (s.connection.readBuffer.unread ++ chunk) remaining
      whole left rest) :
    HttpPipelining.completed requests (d.received + chunk.length) = d.answered + whole.length := by
  have counted := completed_cut cut
  conv_lhs => rw [← List.take_append_drop d.answered requests]
  rw [← follows.received, Nat.add_assoc, ← List.length_append, completed_append, split, counted,
    List.length_take, Nat.min_eq_left follows.bounded]

/-- The rest of the client's octets does not start with a complete request. -/
theorem Follows.waits {chunks : List Bytes} {request response : Unset} {answers : List Answer}
    {filled : Buffer} {remaining rest : Bytes} {left : List Request}
    (follows : Follows kernel world codec requests s d)
    (plain : ∀ r ∈ requests, r.Plain) (wellFormed : ∀ r ∈ requests, r.WellFormed)
    (reads : s.connection.readBuffer.readBufferFromFd (chunks.map .data) =
      some (-1, .eagain, filled))
    (valid : filled.Valid)
    (unread : filled.unread = s.connection.readBuffer.unread ++ chunks.flatten)
    (small : filled.unread.length < 2 ^ 31 - 3) (split : requests.drop d.answered = left)
    (cut : CutAt Request.octets filled.unread remaining [] left rest) :
    s.connection.onReadWith (chunks.map .data)
      (codec.onConnection kernel world request response answers) =
        some ({ s.connection with readBuffer := filled }, []) ∧
      Follows kernel world codec requests
        { s with connection := { s.connection with readBuffer := filled }, wire := remaining }
        ⟨d.received + chunks.flatten.length, d.answered⟩ := by
  have due : ∀ r ∈ left, r ∈ requests := fun r member => List.mem_of_mem_drop (split ▸ member)
  have starts : filled.unread ++ remaining = left.flatMap Request.octets := by
    rw [cut.front, List.flatMap_nil, List.nil_append]
    exact cut.back
  have called : codec.onClientMessage world request response filled = .ok (filled, none) :=
    call_waits valid (HttpPipelining.waits_of_incomplete (fun r member => plain r (due r member))
      (fun r member => wellFormed r (due r member)) ⟨remaining, starts⟩ small (completed_cut cut))
  obtain ⟨returns, carries⟩ := onReadWith_waits answers follows.carries reads called
  refine ⟨returns, carries, valid, follows.bounded, follows.answered, ?_, ?_⟩
  · rw [split]
    exact starts
  · rw [unread, List.length_append, ← Nat.add_assoc, follows.received]

/-- The first request that is due is complete. -/
theorem Follows.answers {chunks : List Bytes} {request response : Unset} {answers : List Answer}
    {filled : Buffer} {remaining rest : Bytes} {r : Request} {whole left : List Request}
    (follows : Follows kernel world codec requests s d)
    (plain : ∀ r ∈ requests, r.Plain) (wellFormed : ∀ r ∈ requests, r.WellFormed)
    (answerable : ∀ r ∈ requests, Answerable world codec r)
    (tolerated : ∀ answer ∈ answers, answer.tolerated = true)
    (reads : s.connection.readBuffer.readBufferFromFd (chunks.map .data) =
      some (-1, .eagain, filled))
    (valid : filled.Valid)
    (unread : filled.unread = s.connection.readBuffer.unread ++ chunks.flatten)
    (small : filled.unread.length < 2 ^ 31 - 3)
    (split : requests.drop d.answered = r :: (whole ++ left))
    (cut : CutAt Request.octets filled.unread remaining (r :: whole) left rest)
    (room : answerFits kernel s.connection
      (codec.onClientMessage world request response filled) = true) :
    ∃ after served, s.connection.onReadWith (chunks.map .data)
        (codec.onConnection kernel world request response answers) = some (after, [served]) ∧
      ∀ shut, Follows kernel world codec requests ⟨after, remaining, s.served ++ [served], shut⟩
        ⟨d.received + chunks.flatten.length, d.answered + 1⟩ := by
  have member : r ∈ requests := by
    apply List.mem_of_mem_drop (i := d.answered)
    rw [split]
    exact .head _
  have long := r.octets_length
  have begins : filled.unread = r.octets ++ (whole.flatMap Request.octets ++ rest) := by
    rw [cut.front, List.flatMap_cons, List.append_assoc]
  obtain ⟨served, called, fulfils⟩ := HttpPipelining.onClientMessage_answers request response
    (answerable r member) (plain r member) (wellFormed r member) valid small begins
  have narrow : r.octets.length < 2 ^ 32 := by
    have total := congrArg List.length begins
    rw [List.length_append] at total
    omega
  have nonempty : filled.empty = false := by
    rw [← Bool.not_eq_true, valid.empty_iff, begins]
    intro nothing
    have zero := congrArg List.length nothing
    rw [List.length_append, List.length_nil] at zero
    omega
  obtain ⟨after, returns, appends⟩ :=
    onReadWith_answers follows.carries tolerated reads nonempty called room
  have position : d.answered < requests.length := by
    have := congrArg List.length split
    rw [List.length_drop, List.length_cons] at this
    omega
  have taken : requests.take (d.answered + 1) = requests.take d.answered ++ [r] := by
    have first : requests[d.answered]? = some r := by
      rw [← List.head?_drop, split, List.head?_cons]
    rw [List.take_add_one, first, Option.toList_some]
  have unread' : after.readBuffer.unread = whole.flatMap Request.octets ++ rest := by
    rw [appends.readBuffer, valid.unread_haveRead narrow, begins, List.drop_left]
  refine ⟨after, served, returns, fun shut => ⟨?_, ?_, position, ?_, ?_, ?_⟩⟩
  · simpa only [entries, List.map_append, List.map_cons, List.map_nil] using appends.carries
  · rw [appends.readBuffer]
    exact valid.haveRead_valid narrow
  · rw [taken]
    exact List.rel_append follows.answered (.cons fulfils .nil)
  · rw [← List.tail_drop, split, List.tail_cons, unread', List.flatMap_append, ← cut.back,
      List.append_assoc]
  · have total := congrArg List.length begins
    rw [unread, List.length_append, List.length_append] at total
    have before := follows.received
    rw [taken, unread', List.flatMap_append, List.length_append, List.flatMap_singleton]
    dsimp only
    omega

/-- One event on the connection is one event at the desk. -/
theorem step_follows (plain : ∀ r ∈ requests, r.Plain) (wellFormed : ∀ r ∈ requests, r.WellFormed)
    (answerable : ∀ r ∈ requests, Answerable world codec r)
    (s : Exchange) (d : Desk) (act : Act) (follows : Follows kernel world codec requests s d)
    (admissible : Admissible kernel world codec s act = true) :
    ∃ s' d', step kernel world codec s act = some s' ∧ d.step requests act = some d' ∧
      Follows kernel world codec requests s' d' := by
  cases act with
  | writeEvent answers =>
    simp only [Admissible, Bool.and_eq_true, Bool.not_eq_true', List.all_eq_true] at admissible
    obtain ⟨after, handled, appends⟩ := writeEvent_appends follows.carries admissible.1
    have same := appends.readBuffer
    refine ⟨{ s with connection := after }, d, ?_, rfl, ?_, ?_, follows.bounded,
      follows.answered, ?_, ?_⟩
    · rw [step, if_neg (by simp [admissible.2]), handled]
      rfl
    · simpa only [List.append_nil] using appends.carries
    · rw [same]
      exact follows.valid
    · rw [same]
      exact follows.octets
    · rw [same]
      exact follows.received
  | readEvent chunks request response answers =>
    obtain ⟨filled, remaining, tolerated, reads, valid, unread, arrives, small, room, steps⟩ :=
      readEvent_admissible follows.valid admissible
    have stream :
        filled.unread ++ remaining = (requests.drop d.answered).flatMap Request.octets := by
      rw [unread, List.append_assoc, arrives, follows.octets]
    obtain ⟨whole, left, rest, split, cut⟩ := exists_cutAt stream
    have counted := follows.completed split (unread ▸ cut)
    have desk : d.step requests (.readEvent chunks request response answers) =
        some ⟨d.received + chunks.flatten.length,
          min (d.answered + 1) (d.answered + whole.length)⟩ := by
      rw [Desk.step, counted]
    rw [steps, desk]
    cases whole with
    | nil =>
      obtain ⟨returns, follows'⟩ :=
        follows.waits plain wellFormed reads valid unread small split cut
      rw [returns]
      refine ⟨_, _, rfl, rfl, ?_⟩
      simpa using follows'
    | cons r whole =>
      obtain ⟨after, served, returns, follows'⟩ :=
        follows.answers plain wellFormed answerable tolerated reads valid unread
          small split cut room
      rw [returns]
      refine ⟨_, _, rfl, rfl, ?_⟩
      have one : min (d.answered + 1) (d.answered + (r :: whole).length) = d.answered + 1 := by
        rw [List.length_cons]
        omega
      rw [one]
      exact follows' _

variable (kernel world codec requests) in
theorem follows_start (sendFile : Bool) :
    Follows kernel world codec requests (start sendFile requests) ⟨0, 0⟩ :=
  ⟨(WriteShutdown.inv_start kernel sendFile).2, Buffer.valid_fresh, Nat.zero_le _, .nil, rfl, rfl⟩

end

open HttpPipelining (getRequest postRequest noFiles notFound getRequest_plain postRequest_plain
  getRequest_wellFormed postRequest_wellFormed notFound_answerable)

def zeros : Unset := ⟨0, 0, 0, 0⟩

/-- Two requests arrive at once; the second one is answered with the next event. -/
def twoRequests : List Act :=
  [.readEvent [getRequest.octets ++ postRequest.octets] zeros zeros [.accept 3],
    .writeEvent [.accept 999], .readEvent [] zeros zeros [.accept 999]]

end Ladder.Guarantees.HttpExchange
