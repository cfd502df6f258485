import Ladder.Guarantees.HttpExchange

/-!
# A malformed head on a connection

A client whose octets start with a head one of whose lines has no colon. `ParseMessage`
reports a bad request of length 0, so `OnClientMessage` passes it to the callback, sends what
the callback makes of it and takes nothing out of the buffer: the head stays in front of
everything behind it, and is answered again at each read event. A request behind it is never
looked at.
-/
namespace Ladder.Guarantees.MalformedHead
open Ladder.Library Ladder.Source Ladder.Source.Http
open Ladder.Guarantees.WriteShutdown (Carries unsent)
open Ladder.Guarantees.ConnectionOutput Ladder.Guarantees.HttpExchange
open Ladder.Guarantees.HttpPipelining (Answered Sendable)

/-- A head with a line without a colon, in front of which no line makes `ParseMessage` throw. -/
structure Malformed (octets first : Bytes) (others : List Bytes) (rest : Bytes) : Prop where
  heads : Heads octets first others rest
  colonless : others.all hasColon = false
  returns : ¬ Bare (goodLines others)

/-- The request as the callback gets it, with what stands in front of the line. -/
def badRequest (first : Bytes) (others : List Bytes) (unset : Unset) : HttpContext :=
  { unset.context.withHead first (storedHeaders (goodLines others) fun _ => none) with
    statusCode := HttpStatusCode.kBadRequest.toInt }

/-- There is a callback, and what it leaves for such a request can be sent. -/
def Answerable (world : World) (codec : HttpCodec) (first : Bytes) (others : List Bytes) : Prop :=
  ∃ callback, codec.serverCallback = some callback ∧
    ∀ unset response : Unset,
      Sendable world (callback (badRequest first others unset) response.context).2

/-- The callback has got the bad request, and what it made of it was sent. -/
def Rejects (world : World) (codec : HttpCodec) (first : Bytes) (others : List Bytes) :
    Served → Prop :=
  Answered world codec fun request => ∃ unset, request = badRequest first others unset

def start (sendFile : Bool) (octets : Bytes) : Exchange :=
  ⟨.create sendFile false, octets, [], false⟩

/-- Octets of the head with its blank line. -/
def headSize (first : Bytes) (others : List Bytes) : Nat := (joined first others).length + 4

/-- With every read event the head is answered once it is complete. -/
def stuckStep (head : Nat) (d : Desk) : Act → Option Desk
  | .readEvent chunks _ _ _ =>
    let received := d.received + chunks.flatten.length
    some ⟨received, if received < head then d.answered else d.answered + 1⟩
  | .writeEvent _ => some d

section
variable {octets first rest : Bytes} {others : List Bytes} {b : Buffer} {remaining : Bytes}

/-- A part of the head is waited for. -/
theorem Malformed.waits (malformed : Malformed octets first others rest) (world : World)
    (codec : HttpCodec) (request response : Unset) (valid : b.Valid)
    (front : b.unread ++ remaining = octets) (small : b.unread.length < 2 ^ 31 - 3)
    (short : b.unread.length < headSize first others) :
    codec.onClientMessage world request response b = .ok (b, none) := by
  have headless : FreeOf blankLine (visible b.unread) := by
    rw [visible_of_small (by omega)]
    intro i occurs
    have bound := occurs.1
    rw [show blankLine.length = 4 from rfl] at bound
    rw [headSize] at short
    exact malformed.heads.earliest i (by omega) (front ▸ occurs.append remaining)
  exact call_waits valid ⟨_, parse_incomplete (not_overruns_of_small small) headless, rfl⟩

/-- The whole head is answered as a bad request, and stays in the buffer. -/
theorem Malformed.answers (malformed : Malformed octets first others rest) {world : World}
    {codec : HttpCodec}
    (answerable : Answerable world codec first others) (request response : Unset) (valid : b.Valid)
    (front : b.unread ++ remaining = octets) (small : b.unread.length < 2 ^ 31 - 3)
    (whole : headSize first others ≤ b.unread.length) :
    ∃ served, codec.onClientMessage world request response b = .ok (b.haveRead 0, some served) ∧
      Rejects world codec first others served := by
  obtain ⟨callback, called, sendable⟩ := answerable
  obtain ⟨part, split⟩ : joined first others ++ blankLine <+: b.unread := by
    have heading : joined first others ++ blankLine <+: octets := by
      rw [malformed.heads.whole, ← List.append_assoc]
      exact List.prefix_append _ _
    apply List.prefix_of_prefix_length_le heading ⟨remaining, front⟩
    rw [List.length_append, show blankLine.length = 4 from rfl]
    exact whole
  have heads : Heads (visible b.unread) first others part := by
    rw [visible_of_small (by omega), ← split, List.append_assoc]
    exact malformed.heads.continued part
  have result : parseMessage handleRequest b.unread request.context =
      .ok ⟨HttpStatusCode.kBadRequest.toInt, 0,
        request.context.withHead first (storedHeaders (goodLines others) fun _ => none)⟩ := by
    rw [parse_by_lines (not_overruns_of_small small) heads, if_neg malformed.returns,
      malformed.colonless]
    rfl
  have decided : HttpStatusCode.kBadRequest.toInt ≠ -1 := by decide
  rw [← valid.peek_all] at result
  exact HttpPipelining.onClientMessage_answered called result decided ⟨request, rfl⟩
    (sendable request response)

end

/-! ## Whole runs -/

section
variable {kernel : Kernel} {world : World} {codec : HttpCodec} {octets first rest : Bytes}
  {others : List Bytes} {s : Exchange} {d : Desk}

variable (kernel world codec octets first others) in
structure Stuck (s : Exchange) (d : Desk) : Prop where
  carries : Carries kernel (entries s.served) s.connection
  valid : s.connection.readBuffer.Valid
  kept : s.connection.readBuffer.unread ++ s.wire = octets
  received : s.connection.readBuffer.unread.length = d.received
  answered : s.served.length = d.answered
  bad : ∀ served ∈ s.served, Rejects world codec first others served

theorem readEvent_stuck {chunks : List Bytes} {request response : Unset} {answers : List Answer}
    {filled : Buffer} {remaining : Bytes} (malformed : Malformed octets first others rest)
    (answerable : Answerable world codec first others)
    (stuck : Stuck kernel world codec octets first others s d)
    (tolerated : ∀ answer ∈ answers, answer.tolerated = true)
    (reads : s.connection.readBuffer.readBufferFromFd (chunks.map .data) =
      some (-1, .eagain, filled))
    (valid : filled.Valid)
    (unread : filled.unread = s.connection.readBuffer.unread ++ chunks.flatten)
    (front : filled.unread ++ remaining = octets) (small : filled.unread.length < 2 ^ 31 - 3)
    (room :
      answerFits kernel s.connection (codec.onClientMessage world request response filled) = true) :
    ∃ after served, s.connection.onReadWith (chunks.map .data)
        (codec.onConnection kernel world request response answers) = some (after, served) ∧
      ∀ shut, ∃ d',
        stuckStep (headSize first others) d (.readEvent chunks request response answers) = some d' ∧
        Stuck kernel world codec octets first others
          ⟨after, remaining, s.served ++ served, shut⟩ d' := by
  have received : filled.unread.length = d.received + chunks.flatten.length := by
    rw [unread, List.length_append, stuck.received]
  by_cases short : filled.unread.length < headSize first others
  · have called : codec.onClientMessage world request response filled = .ok (filled, none) :=
      malformed.waits world codec request response valid front small short
    obtain ⟨returns, carries⟩ := onReadWith_waits answers stuck.carries reads called
    refine ⟨_, [], returns, fun shut => ⟨_, rfl, ?_⟩⟩
    rw [List.append_nil, if_pos (received ▸ short)]
    exact ⟨carries, valid, front, received, stuck.answered, stuck.bad⟩
  · obtain ⟨served, called, bad⟩ := malformed.answers answerable request response valid front small
      (Nat.le_of_not_lt short)
    have nonempty : filled.empty = false := by
      rw [← Bool.not_eq_true, valid.empty_iff]
      intro nothing
      rw [nothing, headSize, List.length_nil] at short
      omega
    obtain ⟨after, returns, appends⟩ :=
      onReadWith_answers stuck.carries tolerated reads nonempty called room
    have same : after.readBuffer.unread = filled.unread := by
      rw [appends.readBuffer, valid.unread_haveRead (by decide), List.drop_zero]
    refine ⟨after, [served], returns, fun shut => ⟨_, rfl, ?_⟩⟩
    rw [if_neg (received ▸ short)]
    constructor
    · simpa only [entries, List.map_append, List.map_cons, List.map_nil] using appends.carries
    · rw [appends.readBuffer]
      exact valid.haveRead_valid (by decide)
    · rw [same]
      exact front
    · rw [same]
      exact received
    · rw [List.length_append, stuck.answered]
      rfl
    · intro response member
      rcases List.mem_append.mp member with before | now
      · exact stuck.bad response before
      · rw [List.mem_singleton.mp now]
        exact bad

/-- One event on the connection. -/
theorem step_stuck (malformed : Malformed octets first others rest)
    (answerable : Answerable world codec first others) (s : Exchange) (d : Desk) (act : Act)
    (stuck : Stuck kernel world codec octets first others s d)
    (admissible : Admissible kernel world codec s act = true) :
    ∃ s' d', step kernel world codec s act = some s' ∧
      stuckStep (headSize first others) d act = some d' ∧
      Stuck kernel world codec octets first others s' d' := by
  cases act with
  | writeEvent answers =>
    simp only [Admissible, Bool.and_eq_true, Bool.not_eq_true', List.all_eq_true] at admissible
    obtain ⟨after, handled, appends⟩ := writeEvent_appends stuck.carries admissible.1
    have same := appends.readBuffer
    refine ⟨{ s with connection := after }, d, ?_, rfl, ?_, ?_, ?_, ?_, stuck.answered, stuck.bad⟩
    · rw [step, if_neg (by simp [admissible.2]), handled]
      rfl
    · simpa only [List.append_nil] using appends.carries
    · rw [same]
      exact stuck.valid
    · rw [same]
      exact stuck.kept
    · rw [same]
      exact stuck.received
  | readEvent chunks request response answers =>
    obtain ⟨filled, remaining, tolerated, reads, valid, unread, arrives, small, room, steps⟩ :=
      readEvent_admissible stuck.valid admissible
    have front : filled.unread ++ remaining = octets := by
      rw [unread, List.append_assoc, arrives, stuck.kept]
    obtain ⟨after, served, returns, stays⟩ :=
      readEvent_stuck malformed answerable stuck tolerated reads valid unread front small room
    obtain ⟨d', counted, stuck'⟩ := stays (s.writeShut || served.any Served.shutDownWrite)
    refine ⟨_, d', ?_, counted, stuck'⟩
    rw [steps, returns]
    rfl

end

open HttpPipelining (getRequest noFiles)

/-- A server that passes on the status of the request. -/
def echo : HttpCodec :=
  ⟨true, some fun request response => (request, { response with statusCode := request.statusCode })⟩

theorem echo_answerable (first : Bytes) (others : List Bytes) :
    Answerable noFiles echo first others :=
  ⟨_, rfl, fun _ _ => ⟨(by decide : (kHttpStatus.lookup 400).isSome = true), nofun⟩⟩

/-- A line without a colon, and a well-formed request behind it. -/
def colonlessThenGet : Bytes :=
  joined (ascii "GET / HTTP/1.1") [ascii "Host"] ++ (blankLine ++ getRequest.octets)

theorem colonlessThenGet_malformed :
    Malformed colonlessThenGet (ascii "GET / HTTP/1.1") [ascii "Host"] getRequest.octets :=
  ⟨heads_of_lines rfl (by decide +kernel) (by decide +kernel), by decide +kernel, by decide +kernel⟩

/-- The octets arrive in two parts, the first one inside the head; a third event brings none. -/
def threeEvents : List Act :=
  [.readEvent [colonlessThenGet.take 20] zeros zeros [],
    .readEvent [colonlessThenGet.drop 20] zeros zeros [.accept 9],
    .readEvent [] zeros zeros [.accept 999]]

end Ladder.Guarantees.MalformedHead
