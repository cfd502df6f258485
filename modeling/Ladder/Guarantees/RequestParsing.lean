import Ladder.Source.HttpParsing
import Ladder.Source.HttpServer

/-!
# Parsing requests of untrusted clients

What `ParseMessage` of an `HttpRequest` does with any octets: which of them count as one
request, which make it throw, and what more octets change. A recognised header line that ends
with its colon throws, one without a space behind the colon loses an octet, a line without a
colon ends the parse with a length of zero, and a Content-Length is read as an `int`.
-/
namespace Ladder.Guarantees.RequestParsing
open Ladder.Library Ladder.Source Ladder.Source.Http

/-! ## The length of a request -/

/-- One request: the length reported covers the head up to and with the blank line and lies
inside the message, the payload is what stands in between, the body is as long as the head
announces, and consuming the length leaves what follows. -/
structure OneRequest (message : Bytes) (parsed : Parsed) : Prop where
  bounds : ∃ first others rest, Heads message first others rest ∧
    (joined first others).length + 4 ≤ parsed.length ∧ parsed.length ≤ message.length ∧
    parsed.context.payload = (message.drop ((joined first others).length + 4)).take
      (parsed.length - ((joined first others).length + 4)).toNat ∧
    ∀ n, announced others = some n → parsed.length = (joined first others).length + 4 + n
  consumed : ∀ buffer : Buffer, buffer.Valid → buffer.unread = message →
    (buffer.haveRead (sizeT parsed.length)).unread = message.drop parsed.length.toNat

/-- A decided message has a visible head. -/
theorem heads_of_decided {message : Bytes} {ctx : HttpContext} {parsed : Parsed}
    (complete : parseMessage handleRequest message ctx = .ok parsed) (whole : parsed.status ≠ -1) :
    ¬ Overruns message ∧ ∃ first others rest, Heads (visible message) first others rest := by
  have fits : ¬ Overruns message := by
    intro overruns
    rw [parse_undefined overruns] at complete
    cases complete
  refine ⟨fits, ?_⟩
  rcases heads_or_free message with headless | heads
  · rw [parse_incomplete fits headless] at complete
    obtain rfl := Except.ok.inj complete
    exact absurd rfl whole
  · exact heads

/-- Exactly one request is consumed exactly when all header lines have a colon and can be
counted by. -/
theorem request_length_sound_iff (message : Bytes) (unset : Unset) (parsed : Parsed)
    (complete : parseMessage handleRequest message unset.context = .ok parsed)
    (whole : parsed.status ≠ -1) :
    OneRequest message parsed ↔
      ∃ first others rest, Heads message first others rest ∧
        (∀ line ∈ others, hasColon line = true) ∧ countable others = true := by
  obtain ⟨fits, first, others, rest, heads⟩ := heads_of_decided complete whole
  obtain ⟨more, heads_whole⟩ := heads_of_visible heads
  have size := heads.length_eq
  have narrow := visible_length_lt message
  have inside : (visible message).length ≤ message.length := (visible_shows message).length_le
  have only {first' : Bytes} {others' : List Bytes} {rest' : Bytes}
      (heads' : Heads message first' others' rest') : first' = first ∧ others' = others := by
    obtain ⟨rfl, rfl, -⟩ := heads'.unique heads_whole
    exact ⟨rfl, rfl⟩
  have outcome := request_outcome unset.context fits heads
  rw [complete] at outcome
  constructor
  · rintro ⟨⟨first', others', rest', heads', low, high, -, body⟩, -⟩
    obtain ⟨rfl, rfl⟩ := only heads'
    refine ⟨first', others', rest', heads', ?_⟩
    cases outcome with
    | malformed =>
      dsimp only at low
      omega
    | incomplete => exact absurd rfl whole
    | complete named colons =>
      dsimp only at low body
      refine ⟨List.all_eq_true.mp colons, countable_iff.mp ⟨by omega, ?_⟩⟩
      intro n number
      have := body n number
      omega
  · rintro ⟨first', others', rest', heads', colons, counted⟩
    obtain ⟨rfl, rfl⟩ := only heads'
    cases outcome with
    | malformed named colonless =>
      rw [List.all_eq_true.mpr colons] at colonless
      cases colonless
    | incomplete => exact absurd rfl whole
    | complete named _ enough decided _ headers payload =>
      obtain ⟨nonneg, body⟩ := countable_iff.mpr counted
      obtain ⟨count, count_eq⟩ := Int.eq_ofNat_of_zero_le nonneg
      rw [count_eq] at enough payload body ⊢
      rw [sizeT_natCast (by omega)] at payload
      refine ⟨⟨first', others', rest', heads', by dsimp only; omega, by dsimp only; omega, ?_, ?_⟩,
        ?_⟩
      · have apart : (((joined first' others').length : Int) + 4 + count -
            ((joined first' others').length + 4)).toNat = count := by omega
        dsimp only
        rw [payload, apart]
      · intro n number
        have := body n number
        dsimp only
        omega
      · intro buffer valid unread
        have total : ((joined first' others').length : Int) + 4 + count =
            (((joined first' others').length + 4 + count : Nat) : Int) := rfl
        dsimp only
        rw [total, sizeT_natCast (by omega), valid.unread_haveRead (by omega), unread,
          Int.toNat_natCast]

/-- A request with a body and a part of the next one behind it. -/
def postRequest : Bytes := ascii "POST / HTTP/1.1\r\nContent-Length: 2\r\n\r\nhiGET"

def unsetZero : Unset := ⟨0, 0, 0, 0⟩

theorem postRequest_heads :
    Heads postRequest (ascii "POST / HTTP/1.1") [ascii "Content-Length: 2"] (ascii "hiGET") := by
  refine heads_of_lines ?_ ?_ ?_
  · decide +kernel
  · decide +kernel
  · decide +kernel

theorem postRequest_parsed : (parseMessage handleRequest postRequest unsetZero.context).toOption.any
    (fun p => p.status == 200) = true := by
  decide +kernel

theorem request_length_sound_iff_post :
    ∃ parsed, parseMessage handleRequest postRequest unsetZero.context = .ok parsed ∧
      parsed.status ≠ -1 ∧
      OneRequest postRequest parsed := by
  obtain ⟨parsed, result, good⟩ := exists_ok_of_any postRequest_parsed
  have whole : parsed.status ≠ -1 := by
    have := beq_iff_eq.mp good
    omega
  refine ⟨parsed, result, whole,
    (request_length_sound_iff postRequest unsetZero parsed result whole).mpr ?_⟩
  exact ⟨_, _, _, postRequest_heads, by decide +kernel, by decide +kernel⟩

/-- A line without a colon: the request is answered and none of it is consumed. A negative
Content-Length: less than the head is consumed. No space behind the colon: the body is left
for the next request. -/
theorem malformed_length_unsound :
    (∃ parsed, parseMessage handleRequest (ascii "GET / HTTP/1.1\r\nHost\r\n\r\n")
        unsetZero.context = .ok parsed ∧ parsed.status = 400 ∧ parsed.length = 0 ∧
      ¬ OneRequest (ascii "GET / HTTP/1.1\r\nHost\r\n\r\n") parsed) ∧
    (∃ parsed, parseMessage handleRequest (ascii "GET / HTTP/1.1\r\nContent-Length: -9\r\n\r\n")
        unsetZero.context = .ok parsed ∧ parsed.status = 200 ∧ parsed.length = 29 ∧
      ¬ OneRequest (ascii "GET / HTTP/1.1\r\nContent-Length: -9\r\n\r\n") parsed) ∧
    ∃ parsed, parseMessage handleRequest (ascii "POST / HTTP/1.1\r\nContent-Length:2\r\n\r\nhi")
        unsetZero.context = .ok parsed ∧ parsed.status = 200 ∧ parsed.length = 37 ∧
      ¬ OneRequest (ascii "POST / HTTP/1.1\r\nContent-Length:2\r\n\r\nhi") parsed := by
  -- a length, and lines that ask for another one
  have unsound (message first rest : Bytes) (others : List Bytes) {status length : Int}
      (heads : Heads message first others rest)
      (result : (parseMessage handleRequest message unsetZero.context).toOption.any
        (fun p => p.status == status && p.length == length) = true)
      (wrong : length < (joined first others).length + 4 ∨
        ∃ n, announced others = some n ∧ length ≠ (joined first others).length + 4 + n) :
      ∃ parsed, parseMessage handleRequest message unsetZero.context = .ok parsed ∧
        parsed.status = status ∧ parsed.length = length ∧ ¬ OneRequest message parsed := by
    obtain ⟨parsed, result, test⟩ := exists_ok_of_any result
    simp only [Bool.and_eq_true, beq_iff_eq] at test
    refine ⟨parsed, result, test.1, test.2, ?_⟩
    rintro ⟨⟨first, others, rest, heads', low, -, -, body⟩, -⟩
    obtain ⟨rfl, rfl, -⟩ := heads'.unique heads
    rcases wrong with short | ⟨n, number, other⟩
    · omega
    · exact other (test.2 ▸ body n number)
  refine ⟨unsound _ (ascii "GET / HTTP/1.1") [] [ascii "Host"]
      (heads_of_lines ?_ ?_ ?_) ?_ (.inl ?_),
    unsound _ (ascii "GET / HTTP/1.1") [] [ascii "Content-Length: -9"]
      (heads_of_lines ?_ ?_ ?_) ?_ (.inl ?_),
    unsound _ (ascii "POST / HTTP/1.1") (ascii "hi") [ascii "Content-Length:2"]
      (heads_of_lines ?_ ?_ ?_) ?_ (.inr ⟨2, ?_, ?_⟩)⟩
  all_goals decide +kernel

/-! ## Any octets -/

/-- There is a status, and the last text of each field was kept, without one space at its front. -/
def Total (message : Bytes) (result : Except Failure Parsed) : Prop :=
  ∃ parsed, result = .ok parsed ∧ ∀ first others rest, Heads (visible message) first others rest →
    ∀ field text, lastText field (goodLines others) = some text →
      parsed.context.headers field = some (fieldValue text)

theorem drop_one_iff {text : Bytes} (filled : text ≠ []) :
    text.drop 1 = fieldValue text ↔ text.head? = some 32 := by
  cases text with
  | nil => exact absurd rfl filled
  | cons c text =>
    unfold fieldValue
    by_cases space : (c :: text).head? = some 32
    · rw [if_pos space]
      exact iff_of_true rfl space
    · rw [if_neg space]
      exact iff_of_false (List.cons_ne_self c text).symm space

/-- Parsing returns and keeps the values exactly when the search for the blank line does not
overflow, no recognised line ends with its colon, and a space stands behind the last colon of
each field. -/
theorem request_total_iff (message : Bytes) (unset : Unset) :
    Total message (parseMessage handleRequest message unset.context) ↔
      ¬ Overruns message ∧ ∀ first others rest, Heads (visible message) first others rest →
        ¬ Bare (goodLines others) ∧
          ∀ field text, lastText field (goodLines others) = some text → text.head? = some 32 := by
  by_cases overruns : Overruns message
  · refine iff_of_false ?_ fun sound => sound.1 overruns
    rintro ⟨parsed, returned, -⟩
    rw [parse_undefined overruns] at returned
    cases returned
  rcases heads_or_free message with headless | ⟨first, others, rest, heads⟩
  · rw [parse_incomplete overruns headless]
    exact iff_of_true ⟨_, rfl, fun _ _ _ heads => absurd heads.occurs (headless _)⟩
      ⟨overruns, fun _ _ _ heads => absurd heads.occurs (headless _)⟩
  constructor
  · rintro ⟨parsed, returned, values⟩
    refine ⟨overruns, ?_⟩
    intro first' others' rest' heads'
    obtain ⟨rfl, rfl, rfl⟩ := heads.unique heads'
    rcases (request_outcome unset.context overruns heads).returns with
      ⟨-, threw⟩ | ⟨named, parsed', returned', headers⟩
    · rw [returned] at threw
      cases threw
    · obtain rfl : parsed' = parsed := Except.ok.inj (returned'.symm.trans returned)
      refine ⟨named, ?_⟩
      intro field text last
      have value := values _ _ _ heads field text last
      rw [headers, storedHeaders_of_last last] at value
      exact (drop_one_iff (text_filled named last)).mp (Option.some.inj value)
  · rintro ⟨-, sound⟩
    obtain ⟨named, spaced⟩ := sound _ _ _ heads
    rcases (request_outcome unset.context overruns heads).returns with
      ⟨bare, -⟩ | ⟨-, parsed, returned, headers⟩
    · exact absurd bare named
    · refine ⟨parsed, returned, ?_⟩
      intro first' others' rest' heads' field text last
      obtain ⟨rfl, rfl, rfl⟩ := heads.unique heads'
      rw [headers, storedHeaders_of_last last,
        (drop_one_iff (text_filled named last)).mpr (spaced field text last)]

/-- A header line that ends with its colon throws, one without a space loses an octet. -/
theorem untrusted_lines_break :
    ¬ Total (ascii "GET / HTTP/1.1\r\nHost:\r\n\r\n")
        (parseMessage handleRequest (ascii "GET / HTTP/1.1\r\nHost:\r\n\r\n") unsetZero.context) ∧
      ¬ Total (ascii "GET / HTTP/1.1\r\nHost:a.b\r\n\r\n")
        (parseMessage handleRequest (ascii "GET / HTTP/1.1\r\nHost:a.b\r\n\r\n")
          unsetZero.context) := by
  constructor
  · have throws : (parseMessage handleRequest (ascii "GET / HTTP/1.1\r\nHost:\r\n\r\n")
        unsetZero.context).toOption.isNone = true := by
      decide +kernel
    rintro ⟨parsed, returned, -⟩
    rw [returned] at throws
    cases throws
  · have loses : (parseMessage handleRequest (ascii "GET / HTTP/1.1\r\nHost:a.b\r\n\r\n")
        unsetZero.context).toOption.any (fun p => p.context.headers .kHost == some (ascii ".b")) =
          true := by
      decide +kernel
    obtain ⟨parsed', returned', test⟩ := exists_ok_of_any loses
    rintro ⟨parsed, returned, values⟩
    obtain rfl : parsed' = parsed := Except.ok.inj (returned'.symm.trans returned)
    have heads : Heads (visible (ascii "GET / HTTP/1.1\r\nHost:a.b\r\n\r\n"))
      (ascii "GET / HTTP/1.1")
        [ascii "Host:a.b"] [] := by
      refine heads_of_lines ?_ ?_ ?_
      · decide +kernel
      · decide +kernel
      · decide +kernel
    have value := values _ _ _ heads .kHost (ascii "a.b") (by decide +kernel)
    rw [beq_iff_eq.mp test] at value
    revert value
    decide

/-! ## More octets -/

/-- The parse of the octets waits for more. -/
def Waits (message : Bytes) (unset : Unset) : Prop :=
  ∃ parsed, parseMessage handleRequest message unset.context = .ok parsed ∧ parsed.status = -1

/-- Read events, each with one call of the message callback, up to the first decision. -/
def firstDecision (onMessage : Buffer → Except Failure (Buffer × Option Served)) :
    Buffer → List Bytes → Except Failure (Option Served)
  | _, [] => .ok none
  | buffer, chunk :: later =>
    match onMessage (buffer.write chunk) with
    | .error fault => .error fault
    | .ok (_, some served) => .ok (some served)
    | .ok (buffer, none) => firstDecision onMessage buffer later

section
variable {onMessage : Buffer → Except Failure (Buffer × Option Served)}
  {buffer next : Buffer} {chunk : Bytes}
  {later : List Bytes}

theorem firstDecision_of_none (waited : onMessage (buffer.write chunk) = .ok (next, none)) :
    firstDecision onMessage buffer (chunk :: later) = firstDecision onMessage next later := by
  rw [firstDecision, waited]

theorem firstDecision_of_some {served : Served}
    (answered : onMessage (buffer.write chunk) = .ok (next, some served)) :
    firstDecision onMessage buffer (chunk :: later) = .ok (some served) := by
  rw [firstDecision, answered]

theorem firstDecision_of_error {fault : Failure}
    (failed : onMessage (buffer.write chunk) = .error fault) :
    firstDecision onMessage buffer (chunk :: later) = .error fault := by
  rw [firstDecision, failed]

end

section
variable {world : World} {codec : HttpCodec} {unset response : Unset}
  {buffer : Buffer} {chunk : Bytes}
  {later : List Bytes}

theorem onClientMessage_waits (valid : buffer.Valid) (waits : Waits buffer.unread unset) :
    codec.onClientMessage world unset response buffer = .ok (buffer, none) := by
  obtain ⟨parsed, result, partly⟩ := waits
  exact onClientMessage_incomplete world codec response (valid.peek_all ▸ result) partly

/-- A decision is what the parse of all octets leads to. -/
theorem firstDecision_decides (valid : buffer.Valid)
    (room : buffer.writeIndex + chunk.length < 2 ^ 32)
    (decided : ¬ Waits (buffer.unread ++ chunk) unset) :
    firstDecision (codec.onClientMessage world unset response) buffer (chunk :: later) =
      parseMessage handleRequest (buffer.unread ++ chunk) unset.context >>= fun parsed =>
        codec.serve world response.context parsed >>= fun served => .ok (some served) := by
  have called := onClientMessage_eq world codec unset response (valid.write_valid room)
  rw [valid.unread_write room] at called
  cases result : parseMessage handleRequest (buffer.unread ++ chunk) unset.context with
  | error fault =>
    rw [result, HttpCodec.afterParse] at called
    exact firstDecision_of_error called
  | ok parsed =>
    have whole : parsed.status ≠ -1 := fun partly => decided ⟨parsed, result, partly⟩
    rw [result, HttpCodec.afterParse, if_neg whole] at called
    rw [ok_bind]
    cases served : codec.serve world response.context parsed with
    | error fault =>
      rw [served] at called
      exact firstDecision_of_error called
    | ok answer =>
      rw [served] at called
      exact firstDecision_of_some called

/-- Until then the buffer collects the octets. -/
theorem firstDecision_waits (world : World) (codec : HttpCodec) (response : Unset)
    (front later : List Bytes) (valid : buffer.Valid)
    (room : buffer.writeIndex + front.flatten.length < 2 ^ 32)
    (waits : ∀ k < front.length, Waits (buffer.unread ++ (front.take (k + 1)).flatten) unset) :
    ∃ next : Buffer, next.Valid ∧ next.unread = buffer.unread ++ front.flatten ∧
      next.writeIndex = buffer.writeIndex + front.flatten.length ∧
      firstDecision (codec.onClientMessage world unset response) buffer (front ++ later) =
        firstDecision (codec.onClientMessage world unset response) next later := by
  induction front generalizing buffer with
  | nil => exact ⟨buffer, valid, by simp, by simp, rfl⟩
  | cons chunk front ih =>
    rw [List.flatten_cons, List.length_append] at room
    have here : buffer.writeIndex + chunk.length < 2 ^ 32 := by omega
    have unread := valid.unread_write here
    have index := Buffer.writeIndex_write here
    have now := waits 0 (Nat.zero_lt_succ _)
    rw [List.take_succ_cons, List.take_zero, List.flatten_singleton, ← unread] at now
    obtain ⟨next, valid', unread', index', same⟩ := ih (valid.write_valid here) (by omega) (by
      intro k inside
      have later := waits (k + 1) (Nat.succ_lt_succ inside)
      rwa [List.take_succ_cons, List.flatten_cons, ← List.append_assoc, ← unread] at later)
    refine ⟨next, valid', ?_, ?_, ?_⟩
    · rw [unread', unread, List.append_assoc, List.flatten_cons]
    · rw [index', index, List.flatten_cons, List.length_append]
      omega
    · rw [List.cons_append,
        firstDecision_of_none (onClientMessage_waits (valid.write_valid here) now)]
      exact same

end

/-- More octets change neither the parse nor, however they arrive, the first decision; as long
as there is none the buffer stays as it is. -/
structure Stable (message more : Bytes) (unset : Unset) : Prop where
  determined : parseMessage handleRequest message unset.context ≠ .error .undefined
  same : parseMessage handleRequest (message ++ more) unset.context =
    parseMessage handleRequest message unset.context
  decision : ∀ (world : World) (codec : HttpCodec) (response : Unset)
    (front : List Bytes) (chunk : Bytes)
    (later : List Bytes), front.flatten ++ chunk = message → later.flatten = more →
    (message ++ more).length < 2 ^ 32 → (∀ k ≤ front.length, Waits (front.take k).flatten unset) →
    firstDecision (codec.onClientMessage world unset response) .fresh (front ++ chunk :: later) =
      firstDecision (codec.onClientMessage world unset response) .fresh [message ++ more]
  unchanged : ∀ (world : World) (codec : HttpCodec) (response : Unset) (buffer : Buffer),
    buffer.Valid →
    Waits buffer.unread unset →
    codec.onClientMessage world unset response buffer = .ok (buffer, none)

theorem bodyLength_nonneg_iff {others : List Bytes} : 0 ≤ bodyLength others ↔
    ∀ text, lastText .kContentLength others = some text → 0 ≤ atoi (text.drop 1) := by
  unfold bodyLength
  cases lastText .kContentLength others with
  | none => simp
  | some text => simp

/-- The octets that the decision is taken on: the head, and the body when the header lines
are good. -/
def decisive (first : Bytes) (others : List Bytes) : Int :=
  (joined first others).length + 4 + if others.all hasColon = true ∧
    ¬ Bare others then bodyLength others else 0

section
variable {message more : Bytes} {unset : Unset}

/-- What does not wait has its body. -/
theorem body_of_decided {first rest : Bytes} {others : List Bytes} (fits : ¬ Overruns message)
    (heads : Heads (visible message) first others rest) (decided : ¬ Waits message unset)
    (good : others.all hasColon = true ∧ ¬ Bare others) : bodyLength others ≤ rest.length := by
  have outcome := request_outcome unset.context fits heads
  generalize result : parseMessage handleRequest message unset.context = parse at outcome
  cases outcome with
  | throws bare => exact absurd (goodLines_eq_self good.1 ▸ bare) good.2
  | malformed _ colonless _ => exact absurd good.1 (by rw [colonless]; decide)
  | incomplete => exact absurd ⟨_, result, rfl⟩ decided
  | complete _ _ enough => exact enough

/-- What does not wait has a visible head. -/
theorem heads_of_not_waits (fits : ¬ Overruns message) (decided : ¬ Waits message unset) :
    ∃ first others rest, Heads (visible message) first others rest := by
  rcases heads_or_free message with headless | heads
  · exact absurd ⟨_, parse_incomplete fits headless, rfl⟩ decided
  · exact heads

/-- Once the parse is the same, so is the decision. -/
theorem Stable.of_same
    (determined : parseMessage handleRequest message unset.context ≠ .error .undefined)
    (decided : ¬ Waits message unset)
    (same : parseMessage handleRequest (message ++ more) unset.context =
      parseMessage handleRequest message unset.context) : Stable message more unset := by
  refine ⟨determined, same, ?_, fun world codec response buffer valid =>
    onClientMessage_waits valid⟩
  rintro world codec response front chunk later rfl rfl room waits
  rw [List.length_append, List.length_append] at room
  have decided' :
      ¬ Waits (Buffer.fresh.unread ++ (front.flatten ++ chunk ++ later.flatten)) unset := by
    rintro ⟨parsed, result, partly⟩
    exact decided ⟨parsed, same ▸ result, partly⟩
  have start : Buffer.fresh.writeIndex = 0 := rfl
  obtain ⟨next, valid, unread, index, collected⟩ :=
    firstDecision_waits world codec response front (chunk :: later)
    Buffer.valid_fresh (by omega) (fun k inside => waits (k + 1) inside)
  rw [Buffer.unread_fresh, List.nil_append] at unread
  rw [collected, firstDecision_decides valid (by omega) (unread ▸ decided), unread,
    firstDecision_decides Buffer.valid_fresh
      (by rw [start, List.length_append, List.length_append]; omega) decided',
    Buffer.unread_fresh, List.nil_append, same]

end

/-- The parse is stable exactly when the sizes, as `int`s, cover what the decision is taken on
and the searches for the blank line do not overflow. -/
theorem request_stable_iff (message more : Bytes) (unset : Unset)
    (numbers : ∀ first others rest, Heads message first others rest →
      ∀ text, lastText .kContentLength (goodLines others) = some text → 0 ≤ atoi (text.drop 1))
    (decided : ¬ Waits message unset) :
    Stable message more unset ↔
      ¬ Overruns message ∧ ¬ Overruns (message ++ more) ∧
        ∃ first others rest, Heads message first others rest ∧
          decisive first others ≤ int (message ++ more).length := by
  constructor
  · rintro ⟨determined, same, -, -⟩
    have fits : ¬ Overruns message := fun overruns => determined (parse_undefined overruns)
    have fits' : ¬ Overruns (message ++ more) := fun overruns =>
      determined (same.symm.trans (parse_undefined overruns))
    have decided' : ¬ Waits (message ++ more) unset := by
      rintro ⟨parsed, result, partly⟩
      exact decided ⟨parsed, same ▸ result, partly⟩
    obtain ⟨first, others, rest, heads⟩ := heads_of_not_waits fits decided
    obtain ⟨first', others', seen, heads'⟩ := heads_of_not_waits fits' decided'
    obtain ⟨rest', whole⟩ := heads_of_visible heads
    obtain ⟨seen', whole'⟩ := heads_of_visible heads'
    obtain ⟨rfl, rfl, -⟩ := whole'.unique (whole.append more)
    refine ⟨fits, fits', first', others', rest', whole, ?_⟩
    have size := heads'.length_eq
    rw [visible_length] at size
    unfold decisive
    split
    · next good =>
      have := body_of_decided fits' heads' decided' good
      omega
    · omega
  · rintro ⟨fits, fits', first, others, rest, whole, covers⟩
    have number (colons : others.all hasColon = true) : 0 ≤ bodyLength others := by
      rw [bodyLength_nonneg_iff]
      intro text last
      exact numbers first others rest whole text (by rwa [goodLines_eq_self colons])
    obtain ⟨first', others', rest', heads⟩ := heads_of_not_waits fits decided
    obtain ⟨hidden, whole'⟩ := heads_of_visible heads
    obtain ⟨rfl, rfl, -⟩ := whole.unique whole'
    unfold decisive at covers
    obtain ⟨seen, heads'⟩ := (whole.append more).shown (by
      split at covers
      · next good =>
        have := number good.1
        omega
      · omega)
    have size := heads'.length_eq
    rw [visible_length] at size
    have determined : parseMessage handleRequest message unset.context ≠ .error .undefined := by
      rcases (request_outcome unset.context fits heads).returns with
        ⟨-, threw⟩ | ⟨-, parsed, returned, -⟩
      · rw [threw]
        nofun
      · rw [returned]
        nofun
    refine .of_same determined decided (parse_append fits fits' heads heads' ?_)
    intro colons named
    rw [if_pos ⟨colons, named⟩] at covers
    exact ⟨number colons, body_of_decided fits heads decided ⟨colons, named⟩, by omega⟩

/-- The request and its part of the next one, and more of the next one. -/
theorem request_stable_iff_post : Stable postRequest (ascii " / HTTP/1.1\r\n\r\n") unsetZero := by
  refine (request_stable_iff postRequest (ascii " / HTTP/1.1\r\n\r\n") unsetZero ?_ ?_).mpr
    ⟨?_, ?_, _, _, _, postRequest_heads, ?_⟩
  · intro first others rest heads text last
    obtain ⟨rfl, rfl, rfl⟩ := postRequest_heads.unique heads
    obtain rfl : ascii " 2" = text := Option.some.inj last
    decide +kernel
  · rintro ⟨parsed, result, partly⟩
    obtain ⟨parsed', result', good⟩ := exists_ok_of_any postRequest_parsed
    obtain rfl : parsed' = parsed := Except.ok.inj (result'.symm.trans result)
    rw [partly] at good
    cases good
  · exact not_overruns_of_small (by decide +kernel)
  · exact not_overruns_of_small (by decide +kernel)
  · decide +kernel

/-- With 2 GiB in the buffer its size is a negative `int`: a request at the front that would be
answered alone is waited for. -/
theorem stream_of_two_gib_waits :
    ∃ more, ¬ Waits (ascii "GET / HTTP/1.1\r\n\r\n") unsetZero ∧
      (∀ first others rest, Heads (ascii "GET / HTTP/1.1\r\n\r\n") first others rest →
        lastText .kContentLength (goodLines others) = none) ∧
      Waits (ascii "GET / HTTP/1.1\r\n\r\n" ++ more) unsetZero ∧
      ¬ Stable (ascii "GET / HTTP/1.1\r\n\r\n") more unsetZero := by
  obtain ⟨n, large⟩ : ∃ n, n + 18 = 2 ^ 31 := ⟨2 ^ 31 - 18, rfl⟩
  have decided : ¬ Waits (ascii "GET / HTTP/1.1\r\n\r\n") unsetZero := by
    have good : (parseMessage handleRequest (ascii "GET / HTTP/1.1\r\n\r\n")
      unsetZero.context).toOption.any
        (fun p => p.status == 200) = true := by
      decide +kernel
    rintro ⟨parsed, result, partly⟩
    obtain ⟨parsed', result', test⟩ := exists_ok_of_any good
    obtain rfl : parsed' = parsed := Except.ok.inj (result'.symm.trans result)
    rw [partly] at test
    cases test
  have heads : Heads (ascii "GET / HTTP/1.1\r\n\r\n") (ascii "GET / HTTP/1.1") [] [] := by
    refine heads_of_lines ?_ ?_ ?_
    · decide +kernel
    · decide +kernel
    · decide +kernel
  have size : (ascii "GET / HTTP/1.1\r\n\r\n" ++ List.replicate n 0).length = 2 ^ 31 := by
    rw [List.length_append, List.length_replicate,
      show (ascii "GET / HTTP/1.1\r\n\r\n").length = 18 from rfl]
    omega
  have nothing : visible (ascii "GET / HTTP/1.1\r\n\r\n" ++ List.replicate n 0) = [] := by
    rw [visible, size]
    exact List.take_zero
  have waits : Waits (ascii "GET / HTTP/1.1\r\n\r\n" ++ List.replicate n 0) unsetZero := by
    refine ⟨_, parse_incomplete ?_ ?_, rfl⟩
    · rw [Overruns, nothing]
      decide
    · rw [nothing]
      decide
  refine ⟨List.replicate n 0, decided, ?_, waits, ?_⟩
  · intro first others rest heads'
    obtain ⟨-, rfl, -⟩ := heads.unique heads'
    rfl
  · intro stable
    obtain ⟨parsed, result, partly⟩ := waits
    exact decided ⟨parsed, stable.same ▸ result, partly⟩

end Ladder.Guarantees.RequestParsing
