import Ladder.Library.Runs
import Ladder.Source.HttpParsing
import Ladder.Guarantees.HttpFraming

/-!
# Pipelined requests

Requests of a client arrive in read events, each followed by one call of `OnClientMessage`.
A call answers at most one request and does not look at what is left, so a second request
completed by the same event stays unanswered until some later event. A request is answered
when the callback has been called with it and a response has been sent that a client reads
as what the callback left.
-/
namespace Ladder.Guarantees.HttpPipelining
open Ladder.Library Ladder.Source Ladder.Source.Http
open Ladder.Guarantees.HttpFraming (Reading wire bodiesAt sentBody)

/-! ## Requests -/

/-- The start line, the header lines and the body of a request. -/
structure Request where
  first : Bytes
  others : List Bytes
  body : Bytes

namespace Request

def octets (r : Request) : Bytes := joined r.first r.others ++ (blankLine ++ r.body)

/-- Lines without line breaks, header lines with a colon, and a body of the length they
announce. The start line may be any, a bad one is answered as well. -/
structure WellFormed (r : Request) : Prop where
  clean : ∀ line ∈ r.first :: r.others, FreeOf kHeaderBreak line
  named : ∀ line ∈ r.others, hasColon line = true
  sized : announced r.others = some r.body.length

/-- A space stands behind the colon of every recognised header line, the length of a body
fits an `int`, and a line gives it in the spelling that the parser knows. -/
structure Plain (r : Request) : Prop where
  spaced : ∀ line ∈ r.others, ∀ field text, headerField line = some (field, text) →
    text.head? = some 32
  short : r.body.length < 2 ^ 31
  spelled : r.body ≠ [] → (lastText .kContentLength r.others).isSome = true

/-- The request as `HandleMessage` gets it. -/
def context (r : Request) (unset : Unset) : HttpContext :=
  (unset.context.withHead r.first (storedHeaders r.others fun _ => none)).withPayload r.body

/-- The request as the callback gets it. -/
def Arrives (r : Request) (unset : Unset) (request : HttpContext) : Prop :=
  ∃ status ctx, handleRequest (r.context unset) = .ok (status, ctx) ∧
    request = { ctx with statusCode := status }

variable {r : Request} {message missing more : Bytes} {unset : Unset}

theorem octets_length (r : Request) :
    r.octets.length = (joined r.first r.others).length + 4 + r.body.length := by
  rw [octets, List.length_append, List.length_append, show blankLine.length = 4 from rfl]
  omega

theorem WellFormed.heads (wellFormed : r.WellFormed) : Heads r.octets r.first r.others r.body := by
  refine heads_of_lines rfl wellFormed.clean ?_
  rintro line member rfl
  cases wellFormed.named [] member

theorem WellFormed.colons (wellFormed : r.WellFormed) : r.others.all hasColon = true :=
  List.all_eq_true.mpr wellFormed.named

theorem Plain.not_bare (plain : r.Plain) (wellFormed : r.WellFormed) :
    ¬ Bare (goodLines r.others) := by
  rw [goodLines_eq_self wellFormed.colons]
  rintro ⟨line, member, bare⟩
  cases named : headerField line with
  | none =>
    rw [named] at bare
    cases bare
  | some entry =>
    obtain ⟨field, text⟩ := entry
    have space := plain.spaced line member field text named
    rw [named] at bare
    obtain rfl : text = [] := List.isEmpty_iff.mp bare
    cases space

/-- The length read is the length of the body. -/
theorem Plain.bodyLength_eq (plain : r.Plain) (wellFormed : r.WellFormed) :
    bodyLength r.others = r.body.length := by
  have counts : countable r.others = true := by
    unfold countable
    rw [wellFormed.sized]
    cases last : lastText .kContentLength r.others with
    | none =>
      have bodiless : r.body = [] := by
        by_contra filled
        have given := plain.spelled filled
        rw [last] at given
        cases given
      rw [bodiless]
      rfl
    | some text =>
      obtain ⟨line, member, named⟩ := lastText_mem last
      dsimp only
      rw [plain.spaced line member _ text named, Bool.and_eq_true, decide_eq_true_eq]
      exact ⟨plain.short, by decide⟩
  exact (countable_iff.mpr counts).2 _ wellFormed.sized

/-- A part of a request is waited for. -/
theorem Plain.waits (plain : r.Plain) (wellFormed : r.WellFormed)
    (whole : message ++ missing = r.octets)
    (some_missing : missing ≠ []) (small : message.length < 2 ^ 31 - 3) :
    ∃ parsed, parseMessage handleRequest message unset.context = .ok parsed ∧
      parsed.status = -1 := by
  have fits := not_overruns_of_small small
  have seen : visible message = message := visible_of_small (by omega)
  have lack := List.length_pos_iff.mpr some_missing
  have total := congrArg List.length whole
  rw [List.length_append, r.octets_length] at total
  rcases Nat.lt_or_ge message.length ((joined r.first r.others).length + 4) with headless | headed
  · refine ⟨_, parse_incomplete fits ?_, rfl⟩
    rw [seen]
    intro i occurs
    have bound := occurs.1
    rw [show blankLine.length = 4 from rfl] at bound
    exact wellFormed.heads.earliest i (by omega) (whole ▸ occurs.append missing)
  · obtain ⟨part, rfl⟩ : joined r.first r.others ++ blankLine <+: message := by
      have front : joined r.first r.others ++ blankLine <+: r.octets := by
        rw [octets, ← List.append_assoc]
        exact List.prefix_append _ _
      refine List.prefix_of_prefix_length_le front ⟨missing, whole⟩ ?_
      · rw [List.length_append, show blankLine.length = 4 from rfl]
        exact headed
    rw [List.append_assoc] at fits seen ⊢
    have heads := wellFormed.heads.continued part
    rw [← seen] at heads
    have outcome := request_outcome unset.context fits heads
    generalize parseMessage handleRequest (joined r.first r.others ++ (blankLine ++ part))
      unset.context = result at outcome
    have length := plain.bodyLength_eq wellFormed
    cases outcome with
    | throws bare => exact absurd bare (plain.not_bare wellFormed)
    | malformed _ colonless _ => exact absurd wellFormed.colons (by rw [colonless]; decide)
    | incomplete => exact ⟨_, rfl, rfl⟩
    | complete _ _ enough =>
      rw [List.length_append, List.length_append, show blankLine.length = 4 from rfl] at total
      omega

/-- A whole request is taken, whatever follows it. -/
theorem Plain.parsed (plain : r.Plain) (wellFormed : r.WellFormed) (unset : Unset) (more : Bytes)
    (small : (r.octets ++ more).length < 2 ^ 31 - 3) :
    ∃ parsed, parseMessage handleRequest (r.octets ++ more) unset.context = .ok parsed ∧
      parsed.status ≠ -1 ∧
      parsed.length = r.octets.length ∧ r.Arrives unset (arrived parsed) ∧
      parsed.context.startLine = r.first ∧
      parsed.context.headers = storedHeaders r.others (fun _ => none) ∧
      parsed.context.payload = r.body := by
  have heads := wellFormed.heads.append more
  have seen : visible (r.octets ++ more) = r.octets ++ more := visible_of_small (by omega)
  rw [← seen] at heads
  have outcome := request_outcome unset.context (not_overruns_of_small small) heads
  generalize parseMessage handleRequest (r.octets ++ more) unset.context = result at outcome
  have length := plain.bodyLength_eq wellFormed
  have short := plain.short
  cases outcome with
  | throws bare => exact absurd bare (plain.not_bare wellFormed)
  | malformed _ colonless _ => exact absurd wellFormed.colons (by rw [colonless]; decide)
  | incomplete _ _ missing =>
    rw [List.length_append] at missing
    omega
  | @complete status context _ colons enough decided startLine headers payload handled =>
    have body : context.payload = r.body := by
      have front : (r.octets ++ more).drop ((joined r.first r.others).length + 4) =
          r.body ++ more := by
        rw [octets, ← List.append_assoc, List.append_assoc]
        exact List.drop_left' (by rw [List.length_append]; rfl)
      rw [payload, length, sizeT_natCast short, front, List.take_left]
    rw [goodLines_eq_self colons] at headers handled
    rw [body] at handled
    refine ⟨_, rfl, decided, ?_, ⟨status, context, handled, rfl⟩, startLine, headers, body⟩
    have := r.octets_length
    dsimp only
    omega

end Request

/-! ## Responses -/

/-- What a client reads of a response context: its status, its version and its header
values, and behind 200 what its path leads to. The codec adds Content-Length, and
Content-Encoding if it compresses. -/
structure Shows (world : World) (left : HttpContext) (r : Reading) : Prop where
  status : kHttpStatus.lookup left.statusCode = some r.text
  version : r.version = left.version
  values : ∀ field value, field ≠ .kContentLength → field ≠ .kContentEncoding →
    ((field, value) ∈ r.fields ↔ left.headers field = some value)
  body : r.body ∈
    if left.statusCode = HttpStatusCode.kOk.toInt then bodiesAt world left.uri else [[]]

def Responds (world : World) (left : HttpContext) (sent : Sent) : Prop :=
  ∃ r : Reading, wire world sent = r.octets ∧ Shows world left r

/-- A response context with a known status and, with 200, a path that can be read. -/
def Sendable (world : World) (left : HttpContext) : Prop :=
  (kHttpStatus.lookup left.statusCode).isSome = true ∧
    (left.statusCode = HttpStatusCode.kOk.toInt → world.readable left.uri = true)

theorem Sendable.responds {world : World} {left : HttpContext} (sendable : Sendable world left)
    (codec : HttpCodec) (after : HttpContext) :
    ∃ sent, codec.respond world after left = .ok sent ∧ Responds world left sent := by
  obtain ⟨known, readable⟩ := sendable
  obtain ⟨text, known⟩ := Option.isSome_iff_exists.mp known
  obtain ⟨sent, responds⟩ := HttpFraming.respond_returns world codec after readable
  have octets := HttpFraming.respond_wire responds
  rw [HttpFraming.composeHeaders_known
    (show kHttpStatus.lookup (HttpFraming.completed world codec after left).statusCode = some text
      from known)] at octets
  refine ⟨sent, responds, _, octets, known, rfl, ?_, HttpFraming.sentBody_mem_iff.mpr readable⟩
  intro field value noLength noEncoding
  simp only [HttpFraming.composed, HttpFraming.completed, mem_fieldsOf,
    Headers.set, if_neg noLength]
  split
  · rw [Headers.set, if_neg noEncoding]
  · rfl

/-- The callback has been called once, with a request of the given kind, and what it left
has been sent. -/
def Answered (world : World) (codec : HttpCodec) (kind : HttpContext → Prop) (served : Served) :
    Prop :=
  ∃ callback request response, codec.serverCallback = some callback ∧
    served.calls = [(request, response)] ∧ kind request ∧
    Responds world (callback request response).2 served.sent

/-- A call of `OnClientMessage` behind which the callback leaves what can be sent. -/
theorem onClientMessage_answered {world : World} {codec : HttpCodec} {callback : Callback}
    {unset response : Unset} {buffer : Buffer} {parsed : Parsed} {kind : HttpContext → Prop}
    (called : codec.serverCallback = some callback)
    (complete : parseMessage handleRequest (buffer.peek buffer.readableBytes).2 unset.context =
      .ok parsed)
    (decided : parsed.status ≠ -1) (arrives : kind (arrived parsed))
    (sendable : Sendable world (callback (arrived parsed) response.context).2) :
    ∃ served, codec.onClientMessage world unset response buffer =
        .ok (buffer.haveRead (sizeT parsed.length), some served) ∧
      Answered world codec kind served := by
  have left : codec.answer (arrived parsed) response.context =
      callback (arrived parsed) response.context := by
    rw [HttpCodec.answer, called]
  obtain ⟨sent, responded, responds⟩ :=
    sendable.responds codec (callback (arrived parsed) response.context).1
  rw [← left] at responded
  refine ⟨_, onClientMessage_complete complete decided responded, callback, _, _,
    called, ?_, arrives, responds⟩
  rw [HttpCodec.calls, called]
  rfl

/-! ## Read events -/

/-- The octets of a read event, and the indeterminate members of the contexts made by the call. -/
structure ReadEvent where
  chunk : Bytes
  request : Unset
  response : Unset

def octetsOf (events : List ReadEvent) : Bytes := events.flatMap ReadEvent.chunk

/-- The buffer of a connection, and what its calls have answered. -/
structure Session where
  buffer : Buffer
  served : List Served

def Session.start : Session := ⟨.fresh, []⟩

/-- How many of the requests are complete in the first octets of their concatenation. -/
def completed : List Request → Nat → Nat
  | [], _ => 0
  | r :: rest, n => if r.octets.length ≤ n then completed rest (n - r.octets.length) + 1 else 0

/-- No event completes more than one request. -/
def OnePerEvent (requests : List Request) (events : List ReadEvent) : Prop :=
  ∀ k < events.length, completed requests (octetsOf (events.take (k + 1))).length ≤
    completed requests (octetsOf (events.take k)).length + 1

/-- The indices and the sizes as an `int` stay inside their types. -/
def Fits (s : Session) (event : ReadEvent) : Prop :=
  s.buffer.writeIndex + event.chunk.length < 2 ^ 32 ∧
    (s.buffer.unread ++ event.chunk).length < 2 ^ 31 - 3

/-- What a call leaves behind; none when it throws. -/
def Session.record (s : Session) : Except Failure (Buffer × Option Served) → Option Session
  | .ok (buffer, served) => some ⟨buffer, s.served ++ served.toList⟩
  | .error _ => none

section
variable (world : World) (codec : HttpCodec)

/-- A read event and its call of `OnClientMessage`. -/
def readEvent (s : Session) (event : ReadEvent) : Option Session :=
  s.record (codec.onClientMessage world event.request event.response (s.buffer.write event.chunk))

/-- The callback got this request, and what it made of it was sent. -/
def Answers (r : Request) : Served → Prop :=
  Answered world codec fun request =>
    request.startLine = r.first ∧ request.headers = storedHeaders r.others (fun _ => none) ∧
      request.payload = r.body

/-- There is a callback, and what it leaves for this request can be sent. -/
def Answerable (r : Request) : Prop :=
  ∃ callback, codec.serverCallback = some callback ∧
    ∀ (unset response : Unset) (request : HttpContext), r.Arrives unset request →
      Sendable world (callback request response.context).2

/-- The requests received are answered in their order, and the incomplete rest is unread. -/
structure UpToDate (requests : List Request) (received : Bytes) (s : Session) : Prop where
  answered : List.Forall₂ (Answers world codec)
    (requests.take (completed requests received.length)) s.served
  unread : s.buffer.unread =
    received.drop
      ((requests.take (completed requests received.length)).flatMap Request.octets).length

/-- After each call. -/
def AllAnswered (requests : List Request) (events : List ReadEvent) : Prop :=
  ∀ k ≤ events.length, ∃ s, run (readEvent world codec) .start (events.take k) = some s ∧
    UpToDate world codec requests (octetsOf (events.take k)) s

end

section
variable {r : Request} {requests rest : List Request} {n : Nat}

theorem completed_of_lt (part : n < r.octets.length) : completed (r :: rest) n = 0 := by
  rw [completed, if_neg (by omega)]

theorem completed_add (n : Nat) :
    completed (r :: rest) (r.octets.length + n) = completed rest n + 1 := by
  rw [completed, if_pos (by omega), Nat.add_sub_cancel_left]

theorem completed_le (requests : List Request) (n : Nat) :
    completed requests n ≤ requests.length := by
  induction requests generalizing n with
  | nil => exact Nat.le_refl 0
  | cons r rest ih =>
    rw [completed]
    split
    · exact Nat.succ_le_succ (ih _)
    · exact Nat.zero_le _

end

section
variable {world : World} {codec : HttpCodec} {s next : Session} {event : ReadEvent}
  {events : List ReadEvent}
  {requests due : List Request} {r : Request}

theorem record_none (buffer : Buffer) :
    s.record (.ok (buffer, none)) = some ⟨buffer, s.served⟩ := by
  rw [Session.record, Option.toList_none, List.append_nil]

theorem record_some (buffer : Buffer) (answer : Served) :
    s.record (.ok (buffer, some answer)) = some ⟨buffer, s.served ++ [answer]⟩ := rfl

/-- A call answers one request at most. -/
theorem record_served_le {result : Except Failure (Buffer × Option Served)}
    (recorded : s.record result = some next) :
    next.served.length ≤ s.served.length + 1 := by
  match result with
  | .error _ => cases recorded
  | .ok (buffer, none) =>
    rw [record_none] at recorded
    obtain rfl := Option.some.inj recorded
    exact Nat.le_succ _
  | .ok (buffer, some answer) =>
    rw [record_some] at recorded
    obtain rfl := Option.some.inj recorded
    rw [List.length_append, List.length_singleton]

theorem readEvent_waits (world : World) (codec : HttpCodec) (valid : s.buffer.Valid)
    (room : s.buffer.writeIndex + event.chunk.length < 2 ^ 32)
    (waits : ∃ parsed,
      parseMessage handleRequest (s.buffer.unread ++ event.chunk) event.request.context =
        .ok parsed ∧
      parsed.status = -1) :
    ∃ next, readEvent world codec s event = some next ∧ next.buffer.Valid ∧
      next.buffer.unread = s.buffer.unread ++ event.chunk ∧ next.served = s.served := by
  obtain ⟨parsed, result, partly⟩ := waits
  rw [← valid.unread_write room, ← (valid.write_valid room).peek_all] at result
  have called := onClientMessage_incomplete world codec event.response result partly
  have stepped := congrArg s.record called
  rw [record_none, ← readEvent] at stepped
  exact ⟨_, stepped, valid.write_valid room, valid.unread_write room, rfl⟩

/-- A whole request at the front of the buffer is taken out and answered. -/
theorem onClientMessage_answers (unset response : Unset) {buffer : Buffer} {more : Bytes}
    (answerable : Answerable world codec r) (plain : r.Plain) (wellFormed : r.WellFormed)
    (valid : buffer.Valid) (small : buffer.unread.length < 2 ^ 31 - 3)
    (whole : buffer.unread = r.octets ++ more) :
    ∃ served, codec.onClientMessage world unset response buffer =
        .ok (buffer.haveRead r.octets.length, some served) ∧ Answers world codec r served := by
  obtain ⟨callback, called, sendable⟩ := answerable
  rw [whole] at small
  obtain ⟨parsed, result, decided, length, arrives, same⟩ :=
    plain.parsed wellFormed unset more small
  have taken : sizeT parsed.length = r.octets.length := by
    rw [List.length_append] at small
    rw [length, sizeT_natCast (by omega)]
  rw [← whole, ← valid.peek_all] at result
  rw [← taken]
  exact onClientMessage_answered called result decided same (sendable unset response _ arrives)

theorem readEvent_answers {more : Bytes} (answerable : Answerable world codec r)
    (valid : s.buffer.Valid) (fits : Fits s event) (plain : r.Plain)
    (wellFormed : r.WellFormed) (whole : s.buffer.unread ++ event.chunk = r.octets ++ more) :
    ∃ next answer, readEvent world codec s event = some next ∧ next.buffer.Valid ∧
      next.buffer.unread = more ∧
      next.served = s.served ++ [answer] ∧ Answers world codec r answer := by
  obtain ⟨room, small⟩ := fits
  have valid' := valid.write_valid room
  have unread := valid.unread_write room
  rw [← unread] at small
  rw [whole] at unread
  obtain ⟨served, called, answers⟩ :=
    onClientMessage_answers event.request event.response answerable plain wellFormed
      valid' small unread
  have narrow : r.octets.length < 2 ^ 32 := by
    rw [unread, List.length_append] at small
    omega
  have stepped := congrArg s.record called
  rw [record_some, ← readEvent] at stepped
  refine ⟨_, _, stepped, valid'.haveRead_valid narrow, ?_, rfl, answers⟩
  rw [valid'.unread_haveRead narrow, unread, List.drop_left]

/-! ## Runs -/

variable (world codec) in
/-- From one session to another the requests that are due were answered as far as received. -/
structure Serves (due : List Request) (received : Bytes) (s after : Session) : Prop where
  answered : ∃ answers, after.served = s.served ++ answers ∧
    List.Forall₂ (Answers world codec) (due.take (completed due received.length)) answers
  unread : after.buffer.unread =
    received.drop ((due.take (completed due received.length)).flatMap Request.octets).length

variable {after : Session} {received : Bytes}

theorem Serves.refl (caught : completed due s.buffer.unread.length = 0) :
    Serves world codec due s.buffer.unread s s := by
  refine ⟨⟨[], (List.append_nil _).symm, ?_⟩, ?_⟩
  · rw [caught]
    exact .nil
  · rw [caught]
    rfl

theorem Serves.wait (serves : Serves world codec due received next after)
    (same : next.served = s.served) :
    Serves world codec due received s after := by
  obtain ⟨answers, later, all⟩ := serves.answered
  exact ⟨⟨answers, same ▸ later, all⟩, serves.unread⟩

theorem Serves.answer {answer : Served} (serves : Serves world codec due received next after)
    (served : next.served = s.served ++ [answer]) (answers : Answers world codec r answer) :
    Serves world codec (r :: due) (r.octets ++ received) s after := by
  have count : completed (r :: due) (r.octets ++ received).length =
      completed due received.length + 1 := by
    rw [List.length_append, completed_add]
  obtain ⟨⟨later, later_eq, all⟩, unread⟩ := serves
  refine ⟨⟨answer :: later, ?_, ?_⟩, ?_⟩
  · rw [later_eq, served, List.append_assoc]
    rfl
  · rw [count, List.take_succ_cons]
    exact .cons answers all
  · rw [count, List.take_succ_cons, List.flatMap_cons, List.length_append, List.drop_append, unread]
    simp

/-- What is received but not complete is waited for. -/
theorem waits_of_incomplete {message : Bytes} {unset : Unset} (plain : ∀ r ∈ due, r.Plain)
    (wellFormed : ∀ r ∈ due, r.WellFormed) (cut : message <+: due.flatMap Request.octets)
    (small : message.length < 2 ^ 31 - 3) (incomplete : completed due message.length = 0) :
    ∃ parsed, parseMessage handleRequest message unset.context = .ok parsed ∧
      parsed.status = -1 := by
  cases due with
  | nil =>
    obtain rfl : message = [] := List.prefix_nil.mp cut
    refine ⟨_, parse_incomplete (not_overruns_of_small small) ?_, rfl⟩
    rw [visible_of_small (by omega)]
    decide
  | cons r rest =>
    rw [List.flatMap_cons] at cut
    have part : message.length < r.octets.length := by
      by_contra long
      rw [completed, if_pos (by omega)] at incomplete
      cases incomplete
    obtain ⟨missing, whole⟩ :=
      List.prefix_of_prefix_length_le cut (List.prefix_append _ _) (Nat.le_of_lt part)
    refine (plain r List.mem_cons_self).waits (wellFormed r List.mem_cons_self) whole ?_ small
    rintro rfl
    rw [List.append_nil] at whole
    rw [whole] at part
    exact Nat.lt_irrefl _ part

/-- Events that complete one request at most keep a session up to date. -/
theorem run_serves (valid : s.buffer.Valid) (caught : completed due s.buffer.unread.length = 0)
    (plain : ∀ r ∈ due, r.Plain) (wellFormed : ∀ r ∈ due, r.WellFormed)
    (answerable : ∀ r ∈ due, Answerable world codec r)
    (cut : s.buffer.unread ++ octetsOf events <+: due.flatMap Request.octets)
    (fits : RunMeets (readEvent world codec) Fits s events)
    (one : ∀ k < events.length,
      completed due (s.buffer.unread ++ octetsOf (events.take (k + 1))).length ≤
      completed due (s.buffer.unread ++ octetsOf (events.take k)).length + 1) :
    ∀ k ≤ events.length, ∃ after, run (readEvent world codec) s (events.take k) = some after ∧
      Serves world codec due (s.buffer.unread ++ octetsOf (events.take k)) s after := by
  induction events generalizing s due with
  | nil =>
    intro k none
    obtain rfl := Nat.le_zero.mp none
    refine ⟨s, rfl, ?_⟩
    rw [List.take_zero, octetsOf, List.flatMap_nil, List.append_nil]
    exact .refl caught
  | cons event events ih =>
    intro k upto
    cases k with
    | zero =>
      refine ⟨s, rfl, ?_⟩
      rw [List.take_zero, octetsOf, List.flatMap_nil, List.append_nil]
      exact .refl caught
    | succ k =>
      have shift (j : Nat) : s.buffer.unread ++ octetsOf ((event :: events).take (j + 1)) =
          s.buffer.unread ++ event.chunk ++ octetsOf (events.take j) := by
        rw [List.take_succ_cons, octetsOf, List.flatMap_cons, List.append_assoc, octetsOf]
      have here := fits.head
      have room := here.1
      have small := here.2
      have stream :
          s.buffer.unread ++ event.chunk ++ octetsOf events <+: due.flatMap Request.octets := by
        rw [List.append_assoc]
        exact cut
      have begins :=
        (List.prefix_append (s.buffer.unread ++ event.chunk) (octetsOf events)).trans stream
      have inside := Nat.le_of_succ_le_succ upto
      rcases Nat.eq_zero_or_pos
        (completed due (s.buffer.unread ++ event.chunk).length) with none | some
      · obtain ⟨next, stepped, valid', unread, served⟩ := readEvent_waits world codec valid room
          (waits_of_incomplete plain wellFormed begins small none)
        rw [← unread] at none stream
        obtain ⟨after, reached, serves⟩ := ih valid' none plain wellFormed answerable stream
          (fits.cons stepped).2 (by
          intro j below
          have later := one (j + 1) (Nat.succ_lt_succ below)
          rw [shift, shift, ← unread] at later
          exact later) k inside
        refine ⟨after, ?_, ?_⟩
        · rw [List.take_succ_cons, run_cons stepped]
          exact reached
        · rw [shift, ← unread]
          exact serves.wait served
      · cases due with
        | nil => cases some
        | cons r rest =>
          have long : r.octets.length ≤ (s.buffer.unread ++ event.chunk).length := by
            by_contra part
            rw [completed_of_lt (by omega)] at some
            cases some
          rw [List.flatMap_cons] at begins stream
          obtain ⟨more, whole⟩ :=
            List.prefix_of_prefix_length_le (List.prefix_append _ _) begins long
          obtain ⟨next, answer, stepped, valid', unread, served, answers⟩ :=
            readEvent_answers (answerable r List.mem_cons_self) valid here
            (plain r List.mem_cons_self) (wellFormed r List.mem_cons_self) whole.symm
          have count (tail : Bytes) :
            completed (r :: rest) (s.buffer.unread ++ event.chunk ++ tail).length =
              completed rest (more ++ tail).length + 1 := by
            rw [← whole, List.append_assoc, List.length_append, completed_add]
          have caught' : completed rest next.buffer.unread.length = 0 := by
            have first := one 0 (Nat.zero_lt_succ _)
            have nothing : octetsOf ((event :: events).take 0) = [] := rfl
            rw [shift, count, nothing, List.append_nil, caught, List.take_zero, octetsOf,
              List.flatMap_nil, List.append_nil] at first
            rw [unread]
            omega
          obtain ⟨after, reached, serves⟩ := ih valid' caught'
            (fun other member => plain other (List.mem_cons_of_mem _ member))
            (fun other member => wellFormed other (List.mem_cons_of_mem _ member))
            (fun other member => answerable other (List.mem_cons_of_mem _ member))
            (by
              rw [← whole, List.append_assoc, List.prefix_append_right_inj, ← unread] at stream
              exact stream)
            (fits.cons stepped).2 (by
              intro j below
              have later := one (j + 1) (Nat.succ_lt_succ below)
              rw [shift, shift, count, count, ← unread] at later
              exact Nat.le_of_succ_le_succ later) k inside
          refine ⟨after, ?_, ?_⟩
          · rw [List.take_succ_cons, run_cons stepped]
            exact reached
          · rw [shift, ← whole, List.append_assoc, ← unread]
            exact serves.answer served answers

/-- Each answer takes a call of its own. -/
theorem onePerEvent_of_allAnswered (all : AllAnswered world codec requests events) :
    OnePerEvent requests events := by
  intro k inside
  obtain ⟨s, reached, now⟩ := all k (Nat.le_of_lt inside)
  obtain ⟨next, reached', later⟩ := all (k + 1) inside
  have stepped : readEvent world codec s events[k] = some next := by
    rw [List.take_add_one, List.getElem?_eq_getElem inside, Option.toList_some, run_append, reached,
      Option.bind_some] at reached'
    obtain ⟨only, stepped, rest⟩ := run_cons_some reached'
    rw [stepped]
    exact rest
  have count {n : Nat} {served : List Served}
      (answered : List.Forall₂ (Answers world codec)
        (requests.take (completed requests n)) served) :
      served.length = completed requests n := by
    rw [← answered.length_eq, List.length_take, Nat.min_eq_left (completed_le requests n)]
  rw [← count now.answered, ← count later.answered]
  exact record_served_le stepped

end

/-- When every request is answered as soon as it is complete, no event completes two; and
then, with plain requests, a callback that leaves what can be sent and sizes that fit, every
request is. -/
theorem pipelined_answered (world : World) (codec : HttpCodec) (requests : List Request)
    (events : List ReadEvent)
    (wellFormed : ∀ r ∈ requests, r.WellFormed)
    (cut : octetsOf events <+: requests.flatMap Request.octets) :
    (AllAnswered world codec requests events → OnePerEvent requests events) ∧
      (OnePerEvent requests events → (∀ r ∈ requests, r.Plain) →
        (∀ r ∈ requests, Answerable world codec r) →
        RunMeets (readEvent world codec) Fits .start events →
        AllAnswered world codec requests events) := by
  refine ⟨onePerEvent_of_allAnswered, ?_⟩
  intro one plain answerable fits k upto
  have caught : completed requests 0 = 0 := by
    cases requests with
    | nil => rfl
    | cons r rest =>
      have := r.octets_length
      exact completed_of_lt (by omega)
  obtain ⟨after, reached, ⟨answers, served, answered⟩, unread⟩ :=
    run_serves (s := .start) Buffer.valid_fresh caught plain wellFormed answerable
      cut fits one k upto
  refine ⟨after, reached, ?_, unread⟩
  rw [served]
  exact answered

/-! ## Two requests -/

theorem Request.plain_of_check {r : Request}
    (spaced : r.others.all
      (fun line => (headerField line).all fun entry => entry.2.head? == some 32) = true)
    (short : r.body.length < 2 ^ 31)
    (spelled : r.body ≠ [] → (lastText .kContentLength r.others).isSome = true) : r.Plain := by
  refine ⟨?_, short, spelled⟩
  intro line member field text named
  have checked := List.all_eq_true.mp spaced line member
  rw [named, Option.all_some] at checked
  exact beq_iff_eq.mp checked

def getRequest : Request := ⟨ascii "GET / HTTP/1.1", [ascii "Host: a"], []⟩
def postRequest : Request := ⟨ascii "POST / HTTP/1.1", [ascii "Content-Length: 2"], ascii "hi"⟩

theorem getRequest_wellFormed : getRequest.WellFormed :=
  ⟨by decide +kernel, by decide +kernel, by decide +kernel⟩

theorem postRequest_wellFormed : postRequest.WellFormed :=
  ⟨by decide +kernel, by decide +kernel, by decide +kernel⟩

theorem getRequest_plain : getRequest.Plain :=
  Request.plain_of_check (by decide +kernel) (by decide +kernel) (by decide +kernel)

theorem postRequest_plain : postRequest.Plain :=
  Request.plain_of_check (by decide +kernel) (by decide +kernel) (by decide +kernel)

/-- A read event whose contexts hold zeros. -/
def arrival (chunk : Bytes) : ReadEvent := ⟨chunk, ⟨0, 0, 0, 0⟩, ⟨0, 0, 0, 0⟩⟩

def noFiles : World := ⟨fun _ => none, id⟩

/-- A server that knows no file. -/
def notFound : HttpCodec :=
  ⟨true, some fun request response => (request, { response with statusCode := 404 })⟩

/-- It has an answer to everything. -/
theorem notFound_answerable (r : Request) : Answerable noFiles notFound r :=
  ⟨_, rfl, fun _ _ _ _ => ⟨(by decide : (kHttpStatus.lookup 404).isSome = true), nofun⟩⟩

instance (s : Session) (event : ReadEvent) : Decidable (Fits s event) :=
  inferInstanceAs (Decidable (_ ∧ _))

/-- The second request is completed by the second event. -/
theorem pipelined_answered_post :
    AllAnswered noFiles notFound [getRequest, postRequest]
      [arrival (getRequest.octets ++ postRequest.octets.take 9),
        arrival (postRequest.octets.drop 9)] := by
  refine (pipelined_answered noFiles notFound [getRequest, postRequest] _ ?_ ?_).2 ?_ ?_
    (fun r _ => notFound_answerable r) ?_
  · simp only [List.forall_mem_cons, List.not_mem_nil, false_imp_iff, implies_true, and_true]
    exact ⟨getRequest_wellFormed, postRequest_wellFormed⟩
  · decide +kernel
  · unfold OnePerEvent
    decide +kernel
  · simp only [List.forall_mem_cons, List.not_mem_nil, false_imp_iff, implies_true, and_true]
    exact ⟨getRequest_plain, postRequest_plain⟩
  · decide +kernel

/-- Both requests in one event: one of them is answered, the other one is left unread. -/
theorem second_request_unanswered :
    (∀ r ∈ [getRequest, postRequest], r.WellFormed ∧ r.Plain) ∧
      (∃ s, run (readEvent noFiles notFound) .start
        [arrival (getRequest.octets ++ postRequest.octets)] = some s ∧
        s.served.length = 1 ∧ s.buffer.unread = postRequest.octets) ∧
      ¬ AllAnswered noFiles notFound [getRequest, postRequest]
        [arrival (getRequest.octets ++ postRequest.octets)] := by
  refine ⟨?_, ?_, ?_⟩
  · simp only [List.forall_mem_cons, List.not_mem_nil, false_imp_iff, implies_true, and_true]
    exact ⟨⟨getRequest_wellFormed, getRequest_plain⟩, postRequest_wellFormed, postRequest_plain⟩
  · have left : (run (readEvent noFiles notFound) .start
      [arrival (getRequest.octets ++ postRequest.octets)]).any
        (fun s => s.served.length == 1 && s.buffer.unread == postRequest.octets) = true := by
      decide +kernel
    obtain ⟨s, reached, test⟩ := (Option.any_eq_true _ _).mp left
    rw [Bool.and_eq_true, beq_iff_eq, beq_iff_eq] at test
    exact ⟨s, reached, test⟩
  · intro all
    have one := onePerEvent_of_allAnswered all 0 (by decide)
    revert one
    decide +kernel

end Ladder.Guarantees.HttpPipelining
