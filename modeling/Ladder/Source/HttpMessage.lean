import Ladder.Source.FindSubstr

/-!
# HTTP messages

Source: examples/http/http_defs.h and examples/http/HttpCodec.cpp, `SplitString` up to
`HttpResponse::PrepareMessage`. A context is what `HttpContext` holds; its `int` members
have no initialiser, so a new context is made from their indeterminate values. A `substr`
behind the end throws; everything undefined below it and a loop that never ends are kept
apart as failures of their own.
-/
namespace Ladder.Source.Http
open Ladder.Library

inductive Failure where
  | outOfRange
  | undefined
  | endless
  deriving DecidableEq, Repr

def defined {α : Type} : Option α → Except Failure α
  | some a => .ok a
  | none => .error .undefined

theorem bind_eq_ok {α β : Type} {result : Except Failure α} {next : α → Except Failure β} {b : β}
    (whole : result >>= next = .ok b) : ∃ a, result = .ok a ∧ next a = .ok b := by
  cases result with
  | error fault => cases whole
  | ok a => exact ⟨a, rfl, whole⟩

theorem ok_bind {α β : Type} (a : α) (next : α → Except Failure β) :
    (Except.ok a >>= next) = next a := rfl

theorem defined_eq_ok {α : Type} {value : Option α} {a : α} (whole : defined value = .ok a) :
    value = some a := by
  cases value with
  | none => cases whole
  | some b => exact congrArg some (Except.ok.inj whole)

/-- A result that is there and passes a test. -/
theorem exists_ok_of_any {α : Type} {result : Except Failure α} {test : α → Bool}
    (passed : result.toOption.any test = true) : ∃ a, result = .ok a ∧ test a = true := by
  cases result with
  | error fault => cases passed
  | ok a => exact ⟨a, rfl, passed⟩

theorem mem_of_lookup {α β : Type} [BEq α] [LawfulBEq α] {table : List (α × β)}
    {key : α} {value : β} (found : table.lookup key = some value) : (key, value) ∈ table := by
  obtain ⟨front, back, whole, -⟩ := List.lookup_eq_some_iff.mp found
  simp [whole]

/-! ## http_defs.h -/

inductive HttpRequestMethod where
  | kHttpGet | kHttpHead | kHttpPost | kHttpPut | kHttpDelete | kHttpConnect | kHttpOptions
  | kHttpTrace | kHttpPatch
  deriving DecidableEq, Repr

def HttpRequestMethod.toInt : HttpRequestMethod → Int
  | .kHttpGet => 0
  | .kHttpHead => 1
  | .kHttpPost => 2
  | .kHttpPut => 3
  | .kHttpDelete => 4
  | .kHttpConnect => 5
  | .kHttpOptions => 6
  | .kHttpTrace => 7
  | .kHttpPatch => 8

/-- The fields a message may have, in the order of the keys of `headers_`. -/
inductive HttpHeaderField where
  | kAccept | kContentType | kUserAgent | kContentLength | kContentEncoding | kAcceptEncoding
  | kHost | kConnection
  deriving DecidableEq, Repr

def HttpHeaderField.all : List HttpHeaderField :=
  [.kAccept, .kContentType, .kUserAgent, .kContentLength, .kContentEncoding, .kAcceptEncoding,
    .kHost, .kConnection]

inductive HttpStatusCode where
  | kOk | kBadRequest | kUnauthorized | kForbidden | kNotFound | kMethodNotAllowed | kNotAcceptable
  | kPayloadTooLarge | kUriTooLong | kInternalServerError | kNotImplemented
  | kHttpVersionNotSupported
  deriving DecidableEq, Repr

def HttpStatusCode.toInt : HttpStatusCode → Int
  | .kOk => 200
  | .kBadRequest => 400
  | .kUnauthorized => 401
  | .kForbidden => 403
  | .kNotFound => 404
  | .kMethodNotAllowed => 405
  | .kNotAcceptable => 406
  | .kPayloadTooLarge => 413
  | .kUriTooLong => 414
  | .kInternalServerError => 500
  | .kNotImplemented => 501
  | .kHttpVersionNotSupported => 505

inductive AcceptContentEncoding where
  | kGzip | kCompress | kDeflate | kBr | kIdentity | kAll
  deriving DecidableEq, Repr

def AcceptContentEncoding.toInt : AcceptContentEncoding → Int
  | .kGzip => 0
  | .kCompress => 1
  | .kDeflate => 2
  | .kBr => 3
  | .kIdentity => 4
  | .kAll => 5

def kHeaderBreak : Bytes := [13, 10]

def kHttpStatus : List (Int × Bytes) :=
  [(HttpStatusCode.kOk.toInt, ascii "200 OK"),
    (HttpStatusCode.kBadRequest.toInt, ascii "400 Bad Request"),
    (HttpStatusCode.kUnauthorized.toInt, ascii "401 Unauthorized"),
    (HttpStatusCode.kForbidden.toInt, ascii "403 Forbidden"),
    (HttpStatusCode.kNotFound.toInt, ascii "404 Not Found"),
    (HttpStatusCode.kMethodNotAllowed.toInt, ascii "405 Method Not Allowed"),
    (HttpStatusCode.kNotAcceptable.toInt, ascii "406 Not Acceptable"),
    (HttpStatusCode.kPayloadTooLarge.toInt, ascii "413 Payload Too Large"),
    (HttpStatusCode.kUriTooLong.toInt, ascii "414 URI Too Long"),
    (HttpStatusCode.kInternalServerError.toInt, ascii "500 Internal Server Error"),
    (HttpStatusCode.kNotImplemented.toInt, ascii "501 Not Implemented"),
    (HttpStatusCode.kHttpVersionNotSupported.toInt, ascii "505 HTTP Version Not Supported")]

def kHttpRequestMethods : List (Bytes × HttpRequestMethod) :=
  [(ascii "GET", .kHttpGet), (ascii "HEAD", .kHttpHead), (ascii "POST", .kHttpPost),
    (ascii "PUT", .kHttpPut), (ascii "DELETE", .kHttpDelete), (ascii "CONNECT", .kHttpConnect),
    (ascii "OPTIONS", .kHttpOptions), (ascii "TRACE", .kHttpTrace), (ascii "PATCH", .kHttpPatch)]

def kHttpRequestMethodStrs : List (Int × Bytes) :=
  [(HttpRequestMethod.kHttpGet.toInt, ascii "GET"),
    (HttpRequestMethod.kHttpHead.toInt, ascii "HEAD"),
    (HttpRequestMethod.kHttpPost.toInt, ascii "POST"),
    (HttpRequestMethod.kHttpPut.toInt, ascii "PUT"),
    (HttpRequestMethod.kHttpDelete.toInt, ascii "DELETE"),
    (HttpRequestMethod.kHttpConnect.toInt, ascii "CONNECT"),
    (HttpRequestMethod.kHttpOptions.toInt, ascii "OPTIONS"),
    (HttpRequestMethod.kHttpTrace.toInt, ascii "TRACE"),
    (HttpRequestMethod.kHttpPatch.toInt, ascii "PATCH")]

/-- The names of `kHeaderFieldStrs`. -/
def kHeaderFieldStrs : HttpHeaderField → Bytes
  | .kAccept => ascii "Accept"
  | .kContentType => ascii "Content-Type"
  | .kUserAgent => ascii "User-Agent"
  | .kContentLength => ascii "Content-Length"
  | .kContentEncoding => ascii "Content-Encoding"
  | .kAcceptEncoding => ascii "Accept-Encoding"
  | .kHost => ascii "Host"
  | .kConnection => ascii "Connection"

/-- `kHeaderFields`, the same names the other way round. -/
def kHeaderFields : List (Bytes × HttpHeaderField) :=
  HttpHeaderField.all.map fun field => (kHeaderFieldStrs field, field)

def kContentEncodings : List (Bytes × AcceptContentEncoding) :=
  [(ascii "gzip", .kGzip), (ascii "compress", .kCompress), (ascii "deflate", .kDeflate),
    (ascii "br", .kBr), (ascii "identity", .kIdentity), (ascii "*", .kAll)]

/-! ## Strings -/

/-- `std::string::substr`. -/
def substr (str : Bytes) (pos count : Nat) : Except Failure Bytes :=
  if pos ≤ str.length then .ok ((str.drop pos).take count) else .error .outOfRange

/-- The loop over the breakpoints, and the last piece. -/
def splitLoop (str : Bytes) (size : Nat) : Int → List Int → Except Failure (List Bytes)
  | curStart, [] => do return [← substr str (sizeT curStart) (sizeT (str.length - curStart))]
  | curStart, breakpoint :: rest => do
    let count ← defined (inInt (breakpoint - curStart))
    let piece ← substr str (sizeT curStart) (sizeT count)
    return piece :: (← splitLoop str size (int (breakpoint + size)) rest)

def splitString (str breaking : Bytes) : Except Failure (List Bytes) := do
  splitLoop str breaking.length 0 (← defined (findSubstr str breaking))

def isSpace (octet : UInt8) : Bool := octet == 32 || (9 ≤ octet && octet ≤ 13)

/-- `std::atoi`: an optional sign and digits behind white space, as a `long` that stops at
its bounds and then as an `int`. -/
def atoi (str : Bytes) : Int :=
  let text := str.dropWhile isSpace
  let (sign, digits) : Int × Bytes :=
    match text with
    | 43 :: digits => (1, digits)
    | 45 :: digits => (-1, digits)
    | digits => (1, digits)
  int (max (-2 ^ 63) (min (2 ^ 63 - 1) (sign * numeralValue (digits.takeWhile isDigit))))

/-- `std::to_string(int)`. -/
def intToString (n : Int) : Bytes := if n < 0 then 45 :: numeral n.natAbs else numeral n.natAbs

/-! ## Contexts -/

/-- `std::map<int, std::string>` with the fields as keys. -/
abbrev Headers := HttpHeaderField → Option Bytes

def Headers.set (field : HttpHeaderField) (value : Bytes) (headers : Headers) : Headers :=
  fun other => if other = field then some value else headers other

structure HttpContext where
  method : Int
  uri : Bytes
  version : Bytes
  startLine : Bytes
  headers : Headers
  payload : Bytes
  statusCode : Int
  contentEncoding : Int
  contentLength : Int

/-- The members without an initialiser, as `new` leaves them. -/
structure Unset where
  method : Int
  statusCode : Int
  contentEncoding : Int
  contentLength : Int
  deriving DecidableEq, Repr

/-- The context of a new `HttpRequest` or `HttpResponse`. -/
def Unset.context (unset : Unset) : HttpContext where
  method := unset.method
  uri := []
  version := ascii "HTTP/1.1"
  startLine := []
  headers := Headers.set .kConnection (ascii "close") fun _ => none
  payload := []
  statusCode := unset.statusCode
  contentEncoding := unset.contentEncoding
  contentLength := unset.contentLength

def HttpContext.clear (ctx : HttpContext) : HttpContext :=
  { ctx with uri := [], headers := fun _ => none, startLine := [], payload := [] }

/-! ## ParseMessage -/

/-- The first colon of a header line, -1 if there is none. -/
def positionColon (line : Bytes) : Int :=
  match line.findIdx? (· == 58) with
  | some j => int j
  | none => -1

/-- One header line; none for a line without a colon. -/
def parseLine (headers : Headers) (line : Bytes) : Except Failure (Option Headers) :=
  let colon := positionColon line
  if colon = -1 then .ok none
  else do
    let key ← substr line 0 (sizeT colon)
    match kHeaderFields.lookup key with
    | none => return some headers
    | some field =>
      let start ← defined (inInt (colon + 2))
      let value ← substr line (sizeT start) (sizeT (line.length - colon - 2))
      return some (headers.set field value)

/-- The lines behind the start line: the headers stored, and whether all lines were good. -/
def parseLines : Headers → List Bytes → Except Failure (Headers × Bool)
  | headers, [] => .ok (headers, true)
  | headers, line :: rest => do
    match ← parseLine headers line with
    | some headers => parseLines headers rest
    | none => return (headers, false)

/-- `payload_length`, or none when octets are missing. -/
def payloadLength (headers : Headers) (available : Int) : Option Int :=
  match headers .kContentLength with
  | some value => if atoi value > available then none else some (atoi value)
  | none => some 0

structure Parsed where
  status : Int
  length : Int
  context : HttpContext

section
variable (handleMessage : HttpContext → Except Failure (Int × HttpContext))

/-- `ParseMessage` behind the header lines. -/
def parsePayload (message : Bytes) (breakpoint : Int) (ctx : HttpContext) : Except Failure Parsed :=
  let start := breakpoint + 2 * kHeaderBreak.length
  match payloadLength ctx.headers (int (message.length - start)) with
  | none => .ok ⟨-1, 0, ctx⟩
  | some size => do
    let payload ← substr message (sizeT start) (sizeT size)
    let (status, ctx) ← handleMessage { ctx with payload := payload }
    return ⟨status, int (start + size), ctx⟩

/-- `ParseMessage` behind the search for the blank line. -/
def parseFrom (message : Bytes) (breakpoint : Int) (ctx : HttpContext) : Except Failure Parsed := do
  let lines ← splitString (← substr message 0 (sizeT breakpoint)) kHeaderBreak
  let ctx := ctx.clear
  let (headers, valid) ← parseLines ctx.headers lines.tail
  let ctx := { ctx with startLine := lines.headD [], headers := headers }
  if valid then parsePayload handleMessage message breakpoint ctx
  else return ⟨HttpStatusCode.kBadRequest.toInt, 0, ctx⟩

def parseMessage (message : Bytes) (ctx : HttpContext) : Except Failure Parsed := do
  match ← defined (findSubstr message (kHeaderBreak ++ kHeaderBreak)) with
  | [] => return ⟨-1, 0, ctx⟩
  | breakpoint :: _ => parseFrom handleMessage message breakpoint ctx

end

/-! ## HttpRequest -/

def encodingSupported (encoding : AcceptContentEncoding) : Bool :=
  encoding == .kIdentity || encoding == .kGzip

/-- The first encoding that is known and supported, if any. -/
def chooseEncoding (acceptEncodings : List Bytes) : AcceptContentEncoding :=
  ((acceptEncodings.filterMap fun enc => kContentEncodings.lookup enc).find? encodingSupported).getD
    .kIdentity

/-- `HttpRequest::HandleMessage` behind the start line. -/
def acceptEncoding (ctx : HttpContext) : Except Failure HttpContext :=
  match ctx.headers .kAcceptEncoding with
  | none => .ok { ctx with contentEncoding := AcceptContentEncoding.kIdentity.toInt }
  | some value => do
    let acceptEncodings ← splitString value (ascii ", ")
    return { ctx with contentEncoding := (chooseEncoding acceptEncodings).toInt }

/-- `HttpRequest::HandleMessage`. -/
def handleRequest (ctx : HttpContext) : Except Failure (Int × HttpContext) := do
  match ← splitString ctx.startLine (ascii " ") with
  | [method, uri, version] =>
    match kHttpRequestMethods.lookup method with
    | none => return (HttpStatusCode.kMethodNotAllowed.toInt, ctx)
    | some known =>
      let ctx := { ctx with method := known.toInt }
      if uri.head? = some 47 then
        let ctx ← acceptEncoding { ctx with uri := uri.tail, version := version }
        return (HttpStatusCode.kOk.toInt, ctx)
      else return (HttpStatusCode.kBadRequest.toInt, ctx)
  | _ => return (HttpStatusCode.kBadRequest.toInt, ctx)

/-- `HttpRequest::PrepareMessage`. -/
def prepareRequest (ctx : HttpContext) : Option HttpContext :=
  (kHttpRequestMethodStrs.lookup ctx.method).map fun method =>
    { ctx with startLine := method ++ ascii " " ++ ctx.uri ++ ascii " " ++ ctx.version }

/-! ## HttpResponse -/

/-- `HttpResponse::HandleMessage` behind the start line. -/
def checkEncoding (ctx : HttpContext) : Except Failure (Int × HttpContext) :=
  match ctx.headers .kAcceptEncoding with
  | none => .ok (0, ctx)
  | some value => do
    match ← splitString value (ascii ", ") with
    | [] => .error .undefined
    | enc :: _ =>
      match (kContentEncodings.lookup enc).filter encodingSupported with
      | some encoding => return (0, { ctx with contentEncoding := encoding.toInt })
      | none => return (HttpStatusCode.kNotAcceptable.toInt, ctx)

/-- `HttpResponse::HandleMessage`, which looks the version up among the methods and keeps the
status as a method. -/
def handleResponse (ctx : HttpContext) : Except Failure (Int × HttpContext) := do
  match ← splitString ctx.startLine (ascii " ") with
  | [version, status, _] =>
    match kHttpRequestMethods.lookup version with
    | none => return (-1, ctx)
    | some _ =>
      checkEncoding { ctx with
        version := version
        method := atoi status
        contentEncoding := AcceptContentEncoding.kIdentity.toInt }
  | _ => return (-1, ctx)

/-- `HttpResponse::PrepareMessage`. -/
def prepareResponse (ctx : HttpContext) : Option HttpContext :=
  (kHttpStatus.lookup ctx.statusCode).map fun status =>
    { ctx with startLine := ctx.version ++ ascii " " ++ status }

/-- A header line of a composed message. -/
def headerLine (field : HttpHeaderField) (value : Bytes) : Bytes :=
  kHeaderFieldStrs field ++ ascii ": " ++ value ++ kHeaderBreak

/-- The line of a stored field. -/
def storedLine (headers : Headers) (field : HttpHeaderField) : Bytes :=
  match headers field with
  | some value => headerLine field value
  | none => []

/-- `ComposeHeaders`; when the message cannot be prepared nothing is appended. -/
def composeHeaders (prepareMessage : HttpContext → Option HttpContext) (message : Bytes)
    (ctx : HttpContext) : Bytes :=
  match prepareMessage ctx with
  | none => message
  | some ctx =>
    let headers := ctx.headers.set .kContentLength (intToString ctx.contentLength)
    message ++ (ctx.startLine ++ kHeaderBreak) ++
      HttpHeaderField.all.flatMap (storedLine headers) ++
      kHeaderBreak

/-! ## Splitting -/

theorem substr_ok {str : Bytes} {pos count : Nat} (inside : pos ≤ str.length) :
    substr str pos count = .ok ((str.drop pos).take count) := if_pos inside

theorem sizeT_natCast {n : Nat} (small : n < 2 ^ 31) : sizeT (n : Int) = n := by
  have value := sizeT_of_nonneg (n := n) (by omega) (by omega)
  omega

section
variable {sep : Bytes}

theorem splitLoop_cons {str piece : Bytes} {size : Nat} {curStart breakpoint count : Int}
    {rest : List Int} {pieces : List Bytes} (distance : inInt (breakpoint - curStart) = some count)
    (cut : substr str (sizeT curStart) (sizeT count) = .ok piece)
    (later : splitLoop str size (int (breakpoint + size)) rest = .ok pieces) :
    splitLoop str size curStart (breakpoint :: rest) = .ok (piece :: pieces) := by
  rw [splitLoop, distance]
  simp only [defined, bind, Except.bind, cut, later]
  rfl

/-- The loop cuts at the breakpoints, from any piece on. -/
theorem splitLoop_pieces (unbordered : Unbordered sep) (nonempty : sep ≠ [])
    (front : Bytes) {first : Bytes}
    {others : List Bytes} (clean : ∀ piece ∈ first :: others, FreeOf sep piece)
    (small : (front ++ sep.intercalate (first :: others)).length < 2 ^ 31) :
    splitLoop (front ++ sep.intercalate (first :: others)) sep.length front.length
        ((occurrences sep (sep.intercalate (first :: others))).map fun i =>
          ((front.length + i : Nat) : Int)) =
      .ok (first :: others) := by
  induction others generalizing front first with
  | nil =>
    rw [List.intercalate_singleton] at small ⊢
    rw [List.length_append] at small
    have count : sizeT (((front ++ first).length : Nat) - (front.length : Int)) = first.length := by
      rw [← sizeT_natCast (n := first.length) (by omega), List.length_append]
      congr 1
      omega
    rw [occurrences_eq_nil_iff.mpr (clean first (by simp)), List.map_nil, splitLoop,
      sizeT_natCast (by omega), substr_ok (by simp), count, List.drop_left, List.take_length]
    rfl
  | cons second others ih =>
    rw [List.intercalate_cons_cons, List.append_assoc] at small ⊢
    have lengths := small
    simp only [List.length_append] at lengths
    have later := ih (front ++ (first ++ sep))
      (fun piece member => clean piece (List.mem_cons_of_mem _ member)) (by simpa using small)
    have distance : inInt (((front.length + first.length : Nat) : Int) - front.length) =
        some (first.length : Int) := by
      rw [show ((front.length + first.length : Nat) : Int) - front.length = first.length by omega]
      exact FindSubstr.inInt_of_range (by omega) (by omega)
    have cut : substr (front ++ (first ++ (sep ++ sep.intercalate (second :: others))))
        (sizeT front.length) (sizeT first.length) = .ok first := by
      rw [sizeT_natCast (by omega), sizeT_natCast (by omega), substr_ok (by simp), List.drop_left,
        List.take_left]
    have onward : int (((front.length + first.length : Nat) : Int) + sep.length) =
        ((front ++ (first ++ sep)).length : Nat) := by
      rw [← int_eq_of_small (n := (front ++ (first ++ sep)).length) (by simp; omega)]
      congr 1
      simp
      omega
    have rest : ((occurrences sep (sep.intercalate (second :: others))).map
          (first.length + sep.length + ·)).map (fun i => ((front.length + i : Nat) : Int)) =
        (occurrences sep (sep.intercalate (second :: others))).map
          fun i => (((front ++ (first ++ sep)).length + i : Nat) : Int) := by
      rw [List.map_map]
      apply List.map_congr_left
      intro i _
      simp only [Function.comp_apply, List.length_append]
      omega
    rw [occurrences_piece unbordered nonempty (clean first (by simp)), List.map_cons, rest]
    simp only [List.append_assoc] at later
    exact splitLoop_cons distance cut (onward ▸ later)

/-- Pieces without the separator are what a string made of them is split into. -/
theorem splitString_intercalate (unbordered : Unbordered sep) (nonempty : sep ≠ [])
    (plain : (0 : UInt8) ∉ sep)
    {first : Bytes} {others : List Bytes} (clean : ∀ piece ∈ first :: others, FreeOf sep piece)
    (small : (sep.intercalate (first :: others)).length + sep.length < 2 ^ 31 - 1) :
    splitString (sep.intercalate (first :: others)) sep = .ok (first :: others) := by
  have pieces :=
    splitLoop_pieces unbordered nonempty [] clean (by simp only [List.nil_append]; omega)
  simp only [List.nil_append, List.length_nil, Nat.zero_add] at pieces
  rw [splitString, findSubstr_eq plain small]
  exact pieces

/-- A string of ordinary size can be split, into pieces without the separator. -/
theorem splitString_total (unbordered : Unbordered sep) (nonempty : sep ≠ [])
    (plain : (0 : UInt8) ∉ sep) {str : Bytes} (small : str.length + sep.length < 2 ^ 31 - 1) :
    ∃ first others, splitString str sep = .ok (first :: others) ∧
      str = sep.intercalate (first :: others) ∧ ∀ piece ∈ first :: others, FreeOf sep piece := by
  obtain ⟨first, others, rfl, clean⟩ := exists_pieces nonempty str
  exact ⟨first, others, splitString_intercalate unbordered nonempty plain clean small, rfl, clean⟩

end

/-! ## What a parsed message can be -/

theorem kHeaderBreak_unbordered : Unbordered kHeaderBreak := by decide

/-- A word of a start line. -/
structure Word (text : Bytes) : Prop where
  blank : FreeOf (ascii " ") text
  line : FreeOf kHeaderBreak text

theorem acceptEncoding_version {ctx next : HttpContext} (accepted : acceptEncoding ctx = .ok next) :
    next.version = ctx.version := by
  unfold acceptEncoding at accepted
  split at accepted
  · cases accepted
    rfl
  · obtain ⟨pieces, -, rest⟩ := bind_eq_ok accepted
    cases rest
    rfl

/-- The status of a request, and its version: a word of the start line or the one before. -/
theorem handleRequest_spec {ctx next : HttpContext} {status : Int}
    (handled : handleRequest ctx = .ok (status, next)) (small : ctx.startLine.length < 2 ^ 31 - 2)
    (line : FreeOf kHeaderBreak ctx.startLine) (word : Word ctx.version) :
    status ∈ ([200, 400, 405] : List Int) ∧ Word next.version := by
  obtain ⟨first, others, split_eq, joined, clean⟩ :=
    splitString_total (show Unbordered (ascii " ") by decide) (by decide) (by decide)
      (show ctx.startLine.length + 1 < 2 ^ 31 - 1 by omega)
  unfold handleRequest at handled
  rw [split_eq] at handled
  simp only [bind, Except.bind] at handled
  split at handled
  · next method uri version pieces =>
    rw [pieces] at clean joined
    split at handled
    · cases handled
      exact ⟨by decide, word⟩
    · split at handled
      · obtain ⟨after, accepted, result⟩ := bind_eq_ok handled
        cases result
        refine ⟨by decide, ?_⟩
        rw [acceptEncoding_version accepted]
        refine ⟨clean version (by simp), ?_⟩
        intro i occurs
        rw [List.intercalate_cons_cons, List.intercalate_cons_cons, List.intercalate_singleton,
          ← List.append_assoc] at joined
        rw [joined] at line
        exact line _ ((occurs_append_right _ _ version i).mpr occurs)
      · cases handled
        exact ⟨by decide, word⟩
  · cases handled
    exact ⟨by decide, word⟩

theorem parsePayload_spec {message : Bytes} {ctx : HttpContext} {breakpoint : Int} {parsed : Parsed}
    (result : parsePayload handleRequest message breakpoint ctx = .ok parsed)
    (small : ctx.startLine.length < 2 ^ 31 - 2) (line : FreeOf kHeaderBreak ctx.startLine)
    (word : Word ctx.version) :
    parsed.status ∈ ([-1, 200, 400, 405] : List Int) ∧ Word parsed.context.version := by
  unfold parsePayload at result
  dsimp only at result
  split at result
  · cases result
    exact ⟨List.mem_cons_self, word⟩
  · obtain ⟨payload, -, rest⟩ := bind_eq_ok result
    obtain ⟨⟨status, next⟩, handled, rest⟩ := bind_eq_ok rest
    cases rest
    obtain ⟨known, version⟩ := handleRequest_spec handled small line word
    exact ⟨List.mem_cons_of_mem _ known, version⟩

/-- The blank line found is the first one in the visible part of the message. -/
theorem blankLine_spec {message : Bytes} {breakpoint : Int} {others : List Int}
    (found : findSubstr message (kHeaderBreak ++ kHeaderBreak) = some (breakpoint :: others)) :
    ∃ head rest, breakpoint = head.length ∧
      visible message = head ++ (kHeaderBreak ++ kHeaderBreak ++ rest) ∧
      ∀ k < head.length, ¬ Occurs (kHeaderBreak ++ kHeaderBreak) (visible message) k := by
  have all := findSubstr_visible (by decide) (by decide) (by decide) found
  obtain ⟨i, later, positions, rfl, -⟩ := List.map_eq_cons_iff.mp all.symm
  obtain ⟨occurs, first⟩ := occurrences_head positions
  have bound := occurs.1
  have length : ((visible message).take i).length = i := by
    rw [List.length_take]
    omega
  refine ⟨(visible message).take i, (visible message).drop (i + 4), by rw [length],
    occurs.split, ?_⟩
  rw [length]
  exact first

section
variable (handleMessage : HttpContext → Except Failure (Int × HttpContext)) {message : Bytes}
  (ctx : HttpContext)
  {first : Bytes} {others : List Bytes}

/-- The context behind the header lines. -/
def HttpContext.withHead (startLine : Bytes) (headers : Headers) (ctx : HttpContext) :
    HttpContext :=
  { ctx.clear with startLine := startLine, headers := headers }

theorem parseFrom_of {breakpoint : Int} {head : Bytes}
    (cut : substr message 0 (sizeT breakpoint) = .ok head)
    (lines : splitString head kHeaderBreak = .ok (first :: others)) :
    parseFrom handleMessage message breakpoint ctx =
      parseLines (fun _ => none) others >>= fun result =>
        if result.2 then parsePayload handleMessage message breakpoint (ctx.withHead first result.1)
        else .ok ⟨HttpStatusCode.kBadRequest.toInt, 0, ctx.withHead first result.1⟩ := by
  unfold parseFrom
  rw [cut, ok_bind, lines, ok_bind]
  rfl

/-- `ParseMessage` on a message whose head consists of the given lines. -/
theorem parseFrom_lines (rest : Bytes)
    (clean : ∀ piece ∈ first :: others, FreeOf kHeaderBreak piece)
    (small : (kHeaderBreak.intercalate (first :: others)).length < 2 ^ 31 - 3) :
    parseFrom handleMessage (kHeaderBreak.intercalate (first :: others) ++ rest)
        (kHeaderBreak.intercalate (first :: others)).length ctx =
      parseLines (fun _ => none) others >>= fun result =>
        if result.2 then
          parsePayload handleMessage (kHeaderBreak.intercalate (first :: others) ++ rest)
            (kHeaderBreak.intercalate (first :: others)).length (ctx.withHead first result.1)
        else .ok ⟨HttpStatusCode.kBadRequest.toInt, 0, ctx.withHead first result.1⟩ := by
  apply parseFrom_of
  · rw [substr_ok (Nat.zero_le _), sizeT_natCast (by omega), List.drop_zero, List.take_left]
  · exact splitString_intercalate kHeaderBreak_unbordered (by decide) (by decide) clean
      (by rw [show kHeaderBreak.length = 2 from rfl]; omega)

end

theorem parseFrom_spec {message : Bytes} {ctx : HttpContext} {parsed : Parsed} {head rest : Bytes}
    (parts : message = head ++ rest) (small : head.length < 2 ^ 31 - 3) (word : Word ctx.version)
    (result : parseFrom handleRequest message head.length ctx = .ok parsed) :
    parsed.status ∈ ([-1, 200, 400, 405] : List Int) ∧ Word parsed.context.version := by
  obtain ⟨first, others, rfl, clean⟩ := exists_pieces (show kHeaderBreak ≠ [] by decide) head
  have start : first.length ≤ (kHeaderBreak.intercalate (first :: others)).length := by
    cases others with
    | nil => rw [List.intercalate_singleton]
    | cons second others => simp [List.intercalate_cons_cons]
  rw [parts, parseFrom_lines handleRequest ctx rest clean small] at result
  obtain ⟨⟨headers, valid⟩, -, result⟩ := bind_eq_ok result
  cases valid with
  | true =>
    refine parsePayload_spec result ?_ (clean first (by simp)) word
    show first.length < 2 ^ 31 - 2
    omega
  | false =>
    cases result
    exact ⟨by simp [HttpStatusCode.toInt], word⟩

/-- Whatever the octets are, the status is one of four and the version is a word. -/
theorem parseMessage_spec {message : Bytes} {ctx : HttpContext} {parsed : Parsed}
    (word : Word ctx.version) (result : parseMessage handleRequest message ctx = .ok parsed) :
    parsed.status ∈ ([-1, 200, 400, 405] : List Int) ∧ Word parsed.context.version := by
  unfold parseMessage at result
  obtain ⟨breakpoints, found, result⟩ := bind_eq_ok result
  cases breakpoints with
  | nil =>
    cases result
    exact ⟨List.mem_cons_self, word⟩
  | cons breakpoint others =>
    obtain ⟨head, rest, rfl, seen, -⟩ := blankLine_spec (defined_eq_ok found)
    obtain ⟨hidden, parts⟩ := visible_shows message
    have narrow := visible_length_lt message
    rw [seen, List.append_assoc] at parts
    simp only [seen, List.length_append, kHeaderBreak, List.length_cons, List.length_nil] at narrow
    exact parseFrom_spec parts.symm (by omega) word result

/-! ## Composed messages -/

def headerLines (fields : List (HttpHeaderField × Bytes)) : Bytes :=
  fields.flatMap fun entry => headerLine entry.1 entry.2

theorem fieldName_injective :
    ∀ {f g : HttpHeaderField}, kHeaderFieldStrs f = kHeaderFieldStrs g → f = g := by
  intro f g
  cases f <;> cases g <;> decide

theorem fieldName_clean (f : HttpHeaderField) : FreeOf (ascii ": ") (kHeaderFieldStrs f) := by
  cases f <;> decide

theorem fieldName_letter (f : HttpHeaderField) :
    ∃ c rest, kHeaderFieldStrs f = c :: rest ∧ c ≠ 13 := by
  cases f <;> exact ⟨_, _, rfl, by decide⟩

theorem statusText_clean : ∀ text ∈ kHttpStatus.map Prod.snd, FreeOf kHeaderBreak text := by
  decide +kernel

/-- The entries of `headers_` in the order of their keys. -/
def fieldsOf (headers : Headers) : List (HttpHeaderField × Bytes) :=
  HttpHeaderField.all.filterMap fun field => (headers field).map fun value => (field, value)

theorem mem_fieldsOf {headers : Headers} {field : HttpHeaderField} {value : Bytes} :
    (field, value) ∈ fieldsOf headers ↔ headers field = some value := by
  have listed : field ∈ HttpHeaderField.all := by cases field <;> decide
  simp [fieldsOf, listed]

theorem storedLines_eq (headers : Headers) (fields : List HttpHeaderField) :
    fields.flatMap (storedLine headers) =
      headerLines (fields.filterMap fun field => (headers field).map fun value =>
        (field, value)) := by
  induction fields with
  | nil => rfl
  | cons field others ih =>
    rw [List.flatMap_cons, ih, List.filterMap_cons, storedLine]
    cases headers field <;> rfl

theorem intToString_clean (n : Int) : FreeOf kHeaderBreak (intToString n) := by
  intro i occurs
  have member : (13 : UInt8) ∈ intToString n :=
    List.mem_of_getElem? (occurs.2 0 (by decide))
  unfold intToString at member
  have digit : isDigit 13 = true := by
    split at member
    · exact isDigit_of_mem_numeral (List.mem_of_ne_of_mem (by decide) member)
    · exact isDigit_of_mem_numeral member
  cases digit

end Ladder.Source.Http
