import Ladder.Source.HttpParsing

/-!
# Composing and parsing messages

`ComposeHeaders` writes what `ParseMessage` of the same class should read back. The header
lines agree. The start lines do not: a request is written without the slash that its reader
removes, and a response is read as if it began with a method, its status code is stored as a
method, and most reason phrases have more words than the reader takes.
-/
namespace Ladder.Guarantees.ComposeParse
open Ladder.Library Ladder.Source Ladder.Source.Http

/-- The classes derived from `HttpMessage`. -/
inductive MessageClass where
  | httpRequest
  | httpResponse
  deriving DecidableEq, Repr

namespace MessageClass

def handleMessage : MessageClass → HttpContext → Except Failure (Int × HttpContext)
  | httpRequest => handleRequest
  | httpResponse => handleResponse

def prepareMessage : MessageClass → HttpContext → Option HttpContext
  | httpRequest => prepareRequest
  | httpResponse => prepareResponse

def compose (kind : MessageClass) (ctx : HttpContext) : Bytes :=
  composeHeaders kind.prepareMessage [] ctx

/-- What `HandleMessage` returns for a message it accepts. -/
def accepted : MessageClass → Int
  | httpRequest => HttpStatusCode.kOk.toInt
  | httpResponse => 0

/-- The method of a request, the status code of a response. -/
def code : MessageClass → HttpContext → Int
  | httpRequest, ctx => ctx.method
  | httpResponse, ctx => ctx.statusCode

end MessageClass

/-- The message was accepted as a whole and gives the context back. `ComposeHeaders` has
stored the content length in it. -/
structure ReadBack (kind : MessageClass) (ctx : HttpContext) (parsed : Parsed) : Prop where
  accepted : parsed.status = kind.accepted
  whole : parsed.length = (kind.compose ctx).length
  code : kind.code parsed.context = kind.code ctx
  uri : parsed.context.uri = ctx.uri
  version : parsed.context.version = ctx.version
  headers : parsed.context.headers = ctx.headers.set .kContentLength (intToString ctx.contentLength)

/-- Parsing, into any context, inverts composing. -/
def Inverse (kind : MessageClass) (ctx prior : HttpContext) : Prop :=
  ∃ parsed, parseMessage kind.handleMessage (kind.compose ctx) prior = .ok parsed ∧
    ReadBack kind ctx parsed

/-- Header values of one line each. -/
def Values (headers : Headers) : Prop :=
  ∀ field value, headers field = some value → FreeOf kHeaderBreak value

/-- A known method, words in the start line and values of one line; a known status code. -/
def Composable : MessageClass → HttpContext → Prop
  | .httpRequest, ctx => (kHttpRequestMethodStrs.lookup ctx.method).isSome = true ∧ Word ctx.uri ∧
      Word ctx.version ∧ Values ctx.headers
  | .httpResponse, ctx => (kHttpStatus.lookup ctx.statusCode).isSome = true

/-! ## Header lines -/

/-- A header line without its break. -/
def fieldLine (field : HttpHeaderField) (value : Bytes) : Bytes :=
  kHeaderFieldStrs field ++ ascii ": " ++ value

def fieldLines (headers : Headers) : List Bytes :=
  (fieldsOf headers).map fun entry => fieldLine entry.1 entry.2

theorem joined_break (first : Bytes) (others : List Bytes) :
    joined first others ++ kHeaderBreak =
      first ++ kHeaderBreak ++ others.flatMap (· ++ kHeaderBreak) := by
  unfold joined
  induction others generalizing first with
  | nil => simp
  | cons second others ih =>
    rw [List.intercalate_cons_cons, List.append_assoc, List.append_assoc, ih, List.flatMap_cons]
    simp

theorem composeHeaders_eq {prepareMessage : HttpContext → Option HttpContext}
    {ctx next : HttpContext} (prepared : prepareMessage ctx = some next) :
    composeHeaders prepareMessage [] ctx =
      joined next.startLine
        (fieldLines (next.headers.set .kContentLength (intToString next.contentLength))) ++
          blankLine := by
  have lines (fields : List (HttpHeaderField × Bytes)) :
      headerLines fields =
        (fields.map fun entry => fieldLine entry.1 entry.2).flatMap (· ++ kHeaderBreak) := by
    rw [headerLines, List.flatMap_map]
    rfl
  unfold composeHeaders
  rw [prepared]
  dsimp only
  rw [storedLines_eq, ← fieldsOf, lines, List.nil_append, ← fieldLines, ← joined_break,
    List.append_assoc, blankLine]

section
variable {headers : Headers} {field : HttpHeaderField} {value : Bytes}

theorem headerField_fieldLine :
    headerField (fieldLine field value) = some (field, 32 :: value) := by
  rw [headerField_iff, fieldLine, List.append_assoc]
  rfl

theorem lastText_fieldLines (headers : Headers) (field : HttpHeaderField) :
    lastText field (fieldLines headers) = (headers field).map (32 :: ·) := by
  have part (fields : List HttpHeaderField) :
      lastText field
        ((fields.filterMap fun other => (headers other).map fun value => (other, value)).map
        fun entry => fieldLine entry.1 entry.2) =
      if field ∈ fields then (headers field).map (32 :: ·) else none := by
    induction fields with
    | nil => rfl
    | cons other fields ih =>
      rw [List.filterMap_cons]
      cases stored : headers other with
      | none =>
        dsimp only [Option.map_none]
        rw [ih]
        by_cases same : field = other
        · subst same
          simp [stored]
        · simp [same]
      | some value =>
        dsimp only [Option.map_some]
        rw [List.map_cons, lastText, ih, headerField_fieldLine, Option.bind_some]
        by_cases same : other = field
        · subst same
          by_cases again : other ∈ fields <;> simp [stored, again]
        · simp [same, Ne.symm same]
  have listed : field ∈ HttpHeaderField.all := by cases field <;> decide
  rw [fieldLines, fieldsOf, part, if_pos listed]

theorem storedHeaders_fieldLines (headers : Headers) :
    storedHeaders (fieldLines headers) (fun _ => none) = headers := by
  funext field
  rw [storedHeaders, lastText_fieldLines, Option.or_none, Option.map_map]
  cases headers field <;> rfl

theorem mem_fieldLines {line : Bytes} (member : line ∈ fieldLines headers) :
    ∃ field value, headers field = some value ∧ line = fieldLine field value := by
  obtain ⟨⟨field, value⟩, inside, rfl⟩ := List.mem_map.mp member
  exact ⟨field, value, mem_fieldsOf.mp inside, rfl⟩

/-- No line break begins in front of the text. -/
theorem freeOf_append {front text : Bytes} (letters : (13 : UInt8) ∉ front)
    (clean : FreeOf kHeaderBreak text) :
    FreeOf kHeaderBreak (front ++ text) := by
  intro i occurs
  rcases Nat.lt_or_ge i front.length with inside | behind
  · have letter := occurs.2 0 (by decide)
    rw [Nat.add_zero, List.getElem?_append_left inside] at letter
    exact letters (List.mem_of_getElem? letter)
  · obtain ⟨j, rfl⟩ := Nat.exists_eq_add_of_le behind
    exact clean j ((occurs_append_right kHeaderBreak _ text j).mp occurs)

theorem fieldLine_clean (clean : FreeOf kHeaderBreak value) :
    FreeOf kHeaderBreak (fieldLine field value) := by
  have letters : (13 : UInt8) ∉ kHeaderFieldStrs field ++ ascii ": " := by cases field <;> decide
  exact freeOf_append letters clean

theorem goodLines_fieldLines : (fieldLines headers).all hasColon = true := by
  rw [List.all_eq_true]
  intro line member
  obtain ⟨field, value, -, rfl⟩ := mem_fieldLines member
  rw [hasColon, List.any_eq_true]
  exact ⟨58, by simp [fieldLine, ascii], rfl⟩

theorem not_bare_fieldLines : ¬ Bare (fieldLines headers) := by
  rintro ⟨line, member, bare⟩
  obtain ⟨field, value, -, rfl⟩ := mem_fieldLines member
  rw [headerField_fieldLine] at bare
  cases bare

end

/-! ## A composed message is handled as it was written -/

section
variable {headers : Headers} {startLine : Bytes} {prior : HttpContext}
  {handleMessage : HttpContext → Except Failure (Int × HttpContext)}

theorem heads_composed (line : FreeOf kHeaderBreak startLine) (values : Values headers) :
    Heads (joined startLine (fieldLines headers) ++ blankLine) startLine
      (fieldLines headers) [] := by
  refine heads_of_lines (by rw [List.append_nil]) ?_ ?_
  · intro piece member
    rcases List.mem_cons.mp member with rfl | other
    · exact line
    · obtain ⟨field, value, stored, rfl⟩ := mem_fieldLines other
      exact fieldLine_clean (values field value stored)
  · intro piece member empty
    obtain ⟨field, value, -, rfl⟩ := mem_fieldLines member
    simp [fieldLine, ascii] at empty

theorem overruns_composed_iff
    (visible_all : (joined startLine (fieldLines headers) ++ blankLine).length < 2 ^ 31) :
    Overruns (joined startLine (fieldLines headers) ++ blankLine) ↔
      2 ^ 31 - 2 ≤ (joined startLine (fieldLines headers) ++ blankLine).length := by
  rw [Overruns, visible_of_small visible_all, stop_of_blankLine, List.length_append,
    show blankLine.length = 4 from rfl]
  omega

/-- Header lines of one line each come back as they were, and nothing is left over. -/
theorem parse_composed (line : FreeOf kHeaderBreak startLine) (values : Values headers)
    (empty : headers .kContentLength = some (intToString 0))
    (small : (joined startLine (fieldLines headers) ++ blankLine).length < 2 ^ 31 - 2) :
    parseMessage handleMessage (joined startLine (fieldLines headers) ++ blankLine) prior =
      handleMessage ((prior.withHead startLine headers).withPayload []) >>= fun result =>
        .ok ⟨result.1, (joined startLine (fieldLines headers) ++ blankLine).length, result.2⟩ := by
  have narrow : (joined startLine (fieldLines headers) ++ blankLine).length < 2 ^ 31 := by omega
  have fits : ¬ Overruns (joined startLine (fieldLines headers) ++ blankLine) := by
    rw [overruns_composed_iff narrow]
    omega
  have heads := heads_composed line values
  rw [← visible_of_small narrow] at heads
  have body : bodyLength (fieldLines headers) = 0 := by
    rw [bodyLength, lastText_fieldLines, empty]
    decide
  have stored : storedHeaders (goodLines (fieldLines headers)) (fun _ => none) = headers := by
    rw [goodLines_eq_self goodLines_fieldLines, storedHeaders_fieldLines]
  have length : payloadLength headers ([] : Bytes).length = some 0 := by
    have asked := payloadLength_stored (fieldLines headers) goodLines_fieldLines ([] : Bytes).length
      (Int.natCast_nonneg _)
    rwa [stored, body, if_neg (by simp)] at asked
  rw [parse_by_lines fits heads,
    if_neg (by rw [goodLines_eq_self goodLines_fieldLines]; exact not_bare_fieldLines),
    if_pos goodLines_fieldLines, parsePayload_of_heads heads, stored,
    show (prior.withHead startLine headers).headers = headers from rfl, length]
  have size : ((joined startLine (fieldLines headers)).length : Int) + 4 + 0 =
      (joined startLine (fieldLines headers) ++ blankLine).length := by
    rw [List.length_append]
    rfl
  dsimp only
  rw [size]
  rfl

end

/-! ## Start lines -/

theorem acceptEncoding_uri {ctx after : HttpContext} (accepted : acceptEncoding ctx = .ok after) :
    after.uri = ctx.uri := by
  unfold acceptEncoding at accepted
  split at accepted
  · obtain rfl := Except.ok.inj accepted
    rfl
  · obtain ⟨pieces, -, rest⟩ := bind_eq_ok accepted
    obtain rfl := Except.ok.inj rest
    rfl

/-- A request is accepted without the first octet of what stands for its uri. -/
theorem handleRequest_uri {ctx after : HttpContext} {method uri version : Bytes}
    (handled : handleRequest ctx = .ok (HttpStatusCode.kOk.toInt, after))
    (words : splitString ctx.startLine (ascii " ") = .ok [method, uri, version]) :
    uri ≠ [] ∧ after.uri = uri.tail := by
  unfold handleRequest at handled
  rw [words, ok_bind] at handled
  dsimp only at handled
  split at handled
  · cases handled
  · split at handled
    · next slash =>
      obtain ⟨next, accepted, result⟩ := bind_eq_ok handled
      obtain ⟨-, rfl⟩ := Prod.mk.inj (Except.ok.inj result)
      refine ⟨?_, acceptEncoding_uri accepted⟩
      rintro rfl
      cases slash
    · cases handled

theorem methodName_word :
    ∀ entry ∈ kHttpRequestMethods, FreeOf (ascii " ") entry.1 ∧ (13 : UInt8) ∉ entry.1 := by
  decide +kernel

/-- Three status codes have a reason phrase of one word. -/
theorem statusText_words : ∀ status ∈ kHttpStatus, status.2.length ≤ 40 ∧
    (splitString status.2 (ascii " ")).toOption.any (·.length == 2) =
      decide (status.1 ∈ ([200, 401, 403] : List Int)) := by
  decide +kernel

/-- The words of a status line that begins with a method name. -/
theorem statusLine_words {version text : Bytes} {code : Int}
    (known : (kHttpRequestMethods.lookup version).isSome = true)
    (status : kHttpStatus.lookup code = some text) :
    ∃ words, splitString (version ++ ascii " " ++ text) (ascii " ") = .ok (version :: words) ∧
      (words.length = 2 ↔ code ∈ ([200, 401, 403] : List Int)) := by
  obtain ⟨method, lookup⟩ := Option.isSome_iff_exists.mp known
  have blank := (methodName_word _ (mem_of_lookup lookup)).1
  have brief : version.length ≤ 7 := by
    have names : ∀ entry ∈ kHttpRequestMethods, entry.1.length ≤ 7 := by decide
    exact names _ (mem_of_lookup lookup)
  obtain ⟨short, counted⟩ := statusText_words _ (mem_of_lookup status)
  dsimp only at short counted blank
  obtain ⟨first, others, words, whole, clean⟩ :=
    splitString_total (show Unbordered (ascii " ") by decide) (by decide)
    (by decide) (show text.length + 1 < 2 ^ 31 - 1 by omega)
  rw [words] at counted
  have line : version ++ ascii " " ++ text =
      (ascii " ").intercalate (version :: first :: others) := by
    rw [List.intercalate_cons_cons, ← whole]
  refine ⟨first :: others, ?_, ?_⟩
  · rw [line]
    refine splitString_intercalate (by decide) (by decide) (by decide) ?_ ?_
    · intro piece member
      rcases List.mem_cons.mp member with rfl | other
      · exact blank
      · exact clean piece other
    · rw [← line, List.length_append, List.length_append, show (ascii " ").length = 1 from rfl]
      omega
  · rw [← decide_eq_true_iff (p := code ∈ _), ← counted]
    exact beq_iff_eq.symm

/-! ## Encodings of a response -/

/-- The encoding preferred is one that is supported. -/
def Preferred (value : Bytes) : Prop :=
  ∃ name ∈ [ascii "gzip", ascii "identity"], value = name ∨ name ++ ascii ", " <+: value

/-- The first piece of a value, seen from the value. -/
theorem first_piece_iff {first name : Bytes} {others : List Bytes}
    (clean : ∀ piece ∈ first :: others, FreeOf (ascii ", ") piece)
    (name_clean : FreeOf (ascii ", ") name) :
    first = name ↔
      (ascii ", ").intercalate (first :: others) = name ∨
        name ++ ascii ", " <+: (ascii ", ").intercalate (first :: others) := by
  have unbordered : Unbordered (ascii ", ") := by decide
  constructor
  · rintro rfl
    cases others with
    | nil => exact .inl List.intercalate_singleton
    | cons second others =>
      rw [List.intercalate_cons_cons]
      exact .inr (List.prefix_append _ _)
  · rintro (same | ⟨rest, same⟩)
    · have alone : (ascii ", ").intercalate (first :: others) =
          (ascii ", ").intercalate [name] := by
        rw [same, List.intercalate_singleton]
      exact (pieces_unique unbordered (by decide) clean (by simpa using name_clean) alone).1
    · obtain ⟨second, pieces, rfl, clean'⟩ := exists_pieces (show ascii ", " ≠ [] by decide) rest
      rw [← List.intercalate_cons_cons] at same
      refine (pieces_unique unbordered (by decide) clean ?_ same.symm).1
      intro piece member
      rcases List.mem_cons.mp member with rfl | other
      · exact name_clean
      · exact clean' piece other

theorem supported_iff (name : Bytes) :
    ((kContentEncodings.lookup name).filter encodingSupported).isSome = true ↔
      name ∈ [ascii "gzip", ascii "identity"] := by
  have listed : ∀ entry ∈ kContentEncodings, encodingSupported entry.2 = true →
      entry.1 ∈ [ascii "gzip", ascii "identity"] := by
    decide +kernel
  have found : ∀ name ∈ [ascii "gzip", ascii "identity"],
      ((kContentEncodings.lookup name).filter encodingSupported).isSome = true := by
    decide +kernel
  refine ⟨?_, found name⟩
  intro supported
  obtain ⟨encoding, filtered⟩ := Option.isSome_iff_exists.mp supported
  obtain ⟨known, able⟩ := Option.filter_eq_some_iff.mp filtered
  exact listed _ (mem_of_lookup known) able

section
variable {ctx after : HttpContext} {status : Int}

theorem checkEncoding_keeps (checked : checkEncoding ctx = .ok (status, after)) :
    after.headers = ctx.headers ∧ after.uri = ctx.uri ∧ after.version = ctx.version ∧
      after.statusCode = ctx.statusCode := by
  unfold checkEncoding at checked
  split at checked
  · obtain ⟨-, rfl⟩ := Prod.mk.inj (Except.ok.inj checked)
    exact ⟨rfl, rfl, rfl, rfl⟩
  · obtain ⟨pieces, -, rest⟩ := bind_eq_ok checked
    split at rest
    · cases rest
    · split at rest
      · obtain ⟨-, rfl⟩ := Prod.mk.inj (Except.ok.inj rest)
        exact ⟨rfl, rfl, rfl, rfl⟩
      · obtain ⟨-, rfl⟩ := Prod.mk.inj (Except.ok.inj rest)
        exact ⟨rfl, rfl, rfl, rfl⟩

theorem checkEncoding_iff (ctx : HttpContext)
    (small : ∀ value, ctx.headers .kAcceptEncoding = some value → value.length < 2 ^ 31 - 3) :
    (∃ after, checkEncoding ctx = .ok (0, after)) ↔
      ∀ value, ctx.headers .kAcceptEncoding = some value → Preferred value := by
  unfold checkEncoding
  cases stored : ctx.headers .kAcceptEncoding with
  | none => exact iff_of_true ⟨ctx, rfl⟩ nofun
  | some value =>
    have short := small value stored
    obtain ⟨first, others, pieces, whole, clean⟩ :=
      splitString_total (show Unbordered (ascii ", ") by decide) (by decide)
      (by decide) (show value.length + 2 < 2 ^ 31 - 1 by omega)
    have preferred : Preferred value ↔ first ∈ [ascii "gzip", ascii "identity"] := by
      have names : ∀ name ∈ [ascii "gzip", ascii "identity"],
          FreeOf (ascii ", ") name := by decide +kernel
      constructor
      · rintro ⟨name, known, begins⟩
        rw [whole, ← first_piece_iff clean (names name known)] at begins
        exact begins ▸ known
      · intro known
        exact ⟨first, known, whole ▸ (first_piece_iff clean (names first known)).mp rfl⟩
    have only : (∀ other, some value = some other → Preferred other) ↔ Preferred value := by simp
    rw [only, preferred, ← supported_iff]
    dsimp only
    rw [pieces, ok_bind]
    dsimp only
    cases (kContentEncodings.lookup first).filter encodingSupported with
    | none =>
      refine iff_of_false ?_ Bool.false_ne_true
      rintro ⟨after, checked⟩
      cases (Prod.mk.inj (Except.ok.inj checked)).1
    | some encoding => exact iff_of_true ⟨_, rfl⟩ rfl

end

/-! ## Both classes -/

section
variable {ctx prior after : HttpContext}

theorem handleResponse_iff :
    handleResponse ctx = .ok (0, after) ↔
      ∃ version status text, splitString ctx.startLine (ascii " ") = .ok [version, status, text] ∧
        (kHttpRequestMethods.lookup version).isSome = true ∧
        checkEncoding { ctx with
          version := version
          method := atoi status
          contentEncoding := AcceptContentEncoding.kIdentity.toInt } = .ok (0, after) := by
  constructor
  · intro handled
    unfold handleResponse at handled
    obtain ⟨words, words_eq, handled⟩ := bind_eq_ok handled
    split at handled
    · next version status text =>
      refine ⟨version, status, text, words_eq, ?_⟩
      split at handled
      · cases (Prod.mk.inj (Except.ok.inj handled)).1
      · next known => exact ⟨by rw [known]; rfl, handled⟩
    · cases (Prod.mk.inj (Except.ok.inj handled)).1
  · rintro ⟨version, status, text, words_eq, known, checked⟩
    obtain ⟨method, lookup⟩ := Option.isSome_iff_exists.mp known
    unfold handleResponse
    rw [words_eq, ok_bind]
    dsimp only
    rw [lookup]
    exact checked

/-- A response that comes back: the version is read as a method, the status code stays what it
was before, and neither the uri nor a line break survives. -/
structure Agrees (ctx prior : HttpContext) : Prop where
  version : (kHttpRequestMethods.lookup ctx.version).isSome = true
  status : ctx.statusCode ∈ ([200, 401, 403] : List Int)
  kept : prior.statusCode = ctx.statusCode
  uri : ctx.uri = []
  values : ∀ field value, field ≠ .kContentLength → ctx.headers field = some value →
    FreeOf kHeaderBreak value
  encoding : ∀ value, ctx.headers .kAcceptEncoding = some value → Preferred value
  small : (MessageClass.httpResponse.compose ctx).length < 2 ^ 31 - 2

theorem handleResponse_keeps (handled : handleResponse ctx = .ok (0, after)) :
    (kHttpRequestMethods.lookup after.version).isSome = true ∧ after.headers = ctx.headers ∧
      after.uri = ctx.uri ∧ after.statusCode = ctx.statusCode ∧
      ∃ words, splitString ctx.startLine (ascii " ") = .ok (after.version :: words) := by
  obtain ⟨version, status, text, words, known, checked⟩ := handleResponse_iff.mp handled
  obtain ⟨headers, uri, version_eq, code⟩ := checkEncoding_keeps checked
  rw [version_eq]
  exact ⟨known, headers, uri, code, _, words⟩

/-- A status line that begins with a method name is accepted if the reason phrase is one word
and the encoding preferred is supported. -/
theorem handleResponse_composed_iff (ctx : HttpContext) {version text : Bytes} {code : Int}
    (known : (kHttpRequestMethods.lookup version).isSome = true)
    (status : kHttpStatus.lookup code = some text)
    (line : ctx.startLine = version ++ ascii " " ++ text)
    (small : ∀ value, ctx.headers .kAcceptEncoding = some value → value.length < 2 ^ 31 - 3) :
    (∃ after, handleResponse ctx = .ok (0, after)) ↔
      code ∈ ([200, 401, 403] : List Int) ∧
        ∀ value, ctx.headers .kAcceptEncoding = some value → Preferred value := by
  obtain ⟨words, split_eq, two⟩ := statusLine_words known status
  rw [← line] at split_eq
  constructor
  · rintro ⟨after, handled⟩
    obtain ⟨version', second, third, split_eq', -, checked⟩ := handleResponse_iff.mp handled
    obtain ⟨-, rfl⟩ := List.cons.inj (Except.ok.inj (split_eq.symm.trans split_eq'))
    exact ⟨two.mp rfl, (checkEncoding_iff { ctx with
      version := version'
      method := atoi second
      contentEncoding := AcceptContentEncoding.kIdentity.toInt } small).mp ⟨after, checked⟩⟩
  · rintro ⟨listed, preferred⟩
    obtain ⟨second, third, rfl⟩ := List.length_eq_two.mp (two.mpr listed)
    obtain ⟨after, checked⟩ := (checkEncoding_iff { ctx with
      version := version
      method := atoi second
      contentEncoding := AcceptContentEncoding.kIdentity.toInt } small).mpr preferred
    exact ⟨after, handleResponse_iff.mpr ⟨version, second, third, split_eq, known, checked⟩⟩

/-- What is consumed as a whole fits. -/
theorem small_of_parsed {kind : MessageClass} {headers : Headers} {startLine : Bytes}
    {parsed : Parsed}
    (returned : parseMessage kind.handleMessage
      (joined startLine (fieldLines headers) ++ blankLine) prior =
      .ok parsed)
    (whole : parsed.length = (joined startLine (fieldLines headers) ++ blankLine).length) :
    (joined startLine (fieldLines headers) ++ blankLine).length < 2 ^ 31 - 2 := by
  have narrow : (joined startLine (fieldLines headers) ++ blankLine).length < 2 ^ 31 := by
    have some : 4 ≤ (joined startLine (fieldLines headers) ++ blankLine).length := by
      rw [List.length_append, show blankLine.length = 4 from rfl]
      omega
    have bound := visible_length_lt (joined startLine (fieldLines headers) ++ blankLine)
    rcases parse_cases returned with ⟨-, none⟩ | ⟨-, none⟩ | ⟨-, -, -, -, -, inside, -⟩
    · omega
    · omega
    · omega
  by_contra large
  rw [parse_undefined ((overruns_composed_iff narrow).mpr (by omega))] at returned
  cases returned

/-- The header values as `ComposeHeaders` leaves them. -/
def sentHeaders (ctx : HttpContext) : Headers := ctx.headers.set .kContentLength (intToString 0)

theorem sentHeaders_length : sentHeaders ctx .kContentLength = some (intToString 0) := by
  rw [sentHeaders, Headers.set, if_pos rfl]

theorem sentHeaders_other {field : HttpHeaderField} (other : field ≠ .kContentLength) :
    sentHeaders ctx field = ctx.headers field := by
  rw [sentHeaders, Headers.set, if_neg other]

theorem values_sent
    (values : ∀ field value, field ≠ .kContentLength → ctx.headers field = some value →
      FreeOf kHeaderBreak value) :
    Values (sentHeaders ctx) := by
  intro field value stored
  by_cases length : field = .kContentLength
  · rw [length, sentHeaders_length] at stored
    obtain rfl := Option.some.inj stored
    exact intToString_clean _
  · exact values field value length (sentHeaders_other length ▸ stored)

/-! ## Requests -/

/-- Words stay on one line. -/
theorem freeOf_words {front back : Bytes} (clean : FreeOf kHeaderBreak front)
    (clean' : FreeOf kHeaderBreak back) :
    FreeOf kHeaderBreak (front ++ ascii " " ++ back) := by
  intro i occurs
  have first := occurs.2 0 (by decide)
  have second := occurs.2 1 (by decide)
  rcases Nat.lt_or_ge (i + 1) front.length with inside | outside
  · rw [List.append_assoc] at occurs
    exact clean i (occurs.within (show i + 2 ≤ front.length from inside))
  rcases Nat.lt_or_ge front.length i with behind | before
  · obtain ⟨j, rfl⟩ := Nat.exists_eq_add_of_le (show (front ++ ascii " ").length ≤ i by
      rw [List.length_append]
      exact behind)
    exact clean' j ((occurs_append_right kHeaderBreak _ back j).mp occurs)
  · -- The blank would have to be one of the two octets.
    rw [List.append_assoc] at first second
    rcases Nat.lt_or_ge i front.length with last | blank
    · rw [List.getElem?_append_right outside, show i + 1 - front.length = 0 by omega] at second
      cases second
    · rw [Nat.add_zero, List.getElem?_append_right blank,
        show i - front.length = 0 by omega] at first
      cases first

/-- The start line of a request. -/
def requestLine (method : Bytes) (ctx : HttpContext) : Bytes :=
  method ++ ascii " " ++ ctx.uri ++ ascii " " ++ ctx.version

theorem request_octets {method : Bytes}
    (lookup : kHttpRequestMethodStrs.lookup ctx.method = some method)
    (empty : ctx.contentLength = 0) :
    MessageClass.httpRequest.compose ctx =
      joined (requestLine method ctx) (fieldLines (sentHeaders ctx)) ++ blankLine := by
  have prepared : prepareRequest ctx = some { ctx with startLine := requestLine method ctx } := by
    rw [prepareRequest, lookup]
    rfl
  have message := composeHeaders_eq prepared
  dsimp only at message
  rwa [empty] at message

theorem requestLine_words {method : Bytes} (word : Word method) (uri : Word ctx.uri)
    (version : Word ctx.version) (small : (requestLine method ctx).length < 2 ^ 31 - 2) :
    splitString (requestLine method ctx) (ascii " ") = .ok [method, ctx.uri, ctx.version] := by
  have shape : requestLine method ctx = (ascii " ").intercalate [method, ctx.uri, ctx.version] := by
    rw [List.intercalate_cons_cons, List.intercalate_cons_cons, List.intercalate_singleton]
    simp only [requestLine, List.append_assoc]
  rw [shape] at small ⊢
  refine splitString_intercalate (by decide) (by decide) (by decide) ?_ ?_
  · intro piece member
    simp only [List.mem_cons, List.not_mem_nil, or_false] at member
    rcases member with rfl | rfl | rfl
    · exact word.blank
    · exact uri.blank
    · exact version.blank
  · rw [show (ascii " ").length = 1 from rfl]
    omega

theorem methodStr_word : ∀ entry ∈ kHttpRequestMethodStrs, Word entry.2 := by
  have clean : ∀ entry ∈ kHttpRequestMethodStrs, FreeOf (ascii " ") entry.2 ∧
      FreeOf kHeaderBreak entry.2 := by
    decide +kernel
  intro entry member
  exact ⟨(clean entry member).1, (clean entry member).2⟩

/-- No request comes back: its uri has lost an octet, or it is a bad request. -/
theorem request_not_inverse (composable : Composable .httpRequest ctx)
    (empty : ctx.contentLength = 0) :
    ¬ Inverse .httpRequest ctx prior := by
  obtain ⟨known, uri, version, values⟩ := composable
  obtain ⟨method, lookup⟩ := Option.isSome_iff_exists.mp known
  have word : Word method := methodStr_word _ (mem_of_lookup lookup)
  rintro ⟨parsed, returned, back⟩
  have whole := back.whole
  rw [request_octets lookup empty] at returned whole
  have small := small_of_parsed returned whole
  have line : FreeOf kHeaderBreak (requestLine method ctx) :=
    freeOf_words (freeOf_words word.line uri.line) version.line
  rw [parse_composed line (values_sent fun field value _ => values field value) sentHeaders_length
    small] at returned
  obtain ⟨⟨status, after⟩, handled, result⟩ := bind_eq_ok returned
  obtain rfl := Except.ok.inj result
  obtain rfl : status = HttpStatusCode.kOk.toInt := back.accepted
  have words := requestLine_words word uri version (by
    have : (requestLine method ctx).length ≤
        (joined (requestLine method ctx) (fieldLines (sentHeaders ctx))).length :=
      length_le_joined List.mem_cons_self
    rw [List.length_append, show blankLine.length = 4 from rfl] at small
    omega)
  change handleRequest _ = _ at handled
  obtain ⟨filled, tail⟩ := handleRequest_uri handled words
  have same := congrArg List.length (tail.symm.trans back.uri)
  rw [List.length_tail] at same
  have := List.length_pos_iff.mpr filled
  omega

/-! ## Responses -/

theorem response_octets {text : Bytes} (status : kHttpStatus.lookup ctx.statusCode = some text)
    (empty : ctx.contentLength = 0) :
    MessageClass.httpResponse.compose ctx =
      joined (ctx.version ++ ascii " " ++ text) (fieldLines (sentHeaders ctx)) ++ blankLine := by
  have prepared :
      prepareResponse ctx = some { ctx with startLine := ctx.version ++ ascii " " ++ text } := by
    rw [prepareResponse, status]
    rfl
  have message := composeHeaders_eq prepared
  dsimp only at message
  rwa [empty] at message

theorem statusLine_clean {text : Bytes}
    (known : (kHttpRequestMethods.lookup ctx.version).isSome = true)
    (status : kHttpStatus.lookup ctx.statusCode = some text) :
    FreeOf kHeaderBreak (ctx.version ++ ascii " " ++ text) := by
  obtain ⟨method, lookup⟩ := Option.isSome_iff_exists.mp known
  refine freeOf_append ?_ (statusText_clean text (List.mem_map_of_mem (mem_of_lookup status)))
  rw [List.mem_append]
  rintro (inside | blank)
  · exact (methodName_word _ (mem_of_lookup lookup)).2 inside
  · exact absurd blank (by decide)

/-- The head of a composed response, handled. -/
theorem response_handled_iff (prior : HttpContext) {text : Bytes}
    (known : (kHttpRequestMethods.lookup ctx.version).isSome = true)
    (status : kHttpStatus.lookup ctx.statusCode = some text)
    (small : (joined (ctx.version ++ ascii " " ++ text) (fieldLines (sentHeaders ctx)) ++
      blankLine).length < 2 ^ 31 - 2) :
    (∃ after, handleResponse
      ((prior.withHead (ctx.version ++ ascii " " ++ text) (sentHeaders ctx)).withPayload []) =
        .ok (0, after)) ↔
      ctx.statusCode ∈ ([200, 401, 403] : List Int) ∧
        ∀ value, ctx.headers .kAcceptEncoding = some value → Preferred value := by
  have others : sentHeaders ctx .kAcceptEncoding = ctx.headers .kAcceptEncoding :=
    sentHeaders_other (by decide)
  have brief : ∀ value, sentHeaders ctx .kAcceptEncoding = some value →
      value.length < 2 ^ 31 - 3 := by
    intro value stored
    have member : fieldLine .kAcceptEncoding value ∈ fieldLines (sentHeaders ctx) :=
      List.mem_map_of_mem (mem_fieldsOf.mpr stored)
    have size := length_le_joined (List.mem_cons_of_mem (ctx.version ++ ascii " " ++ text) member)
    rw [fieldLine, List.length_append] at size
    rw [List.length_append, show blankLine.length = 4 from rfl] at small
    omega
  rw [handleResponse_composed_iff ((prior.withHead (ctx.version ++ ascii " " ++ text)
    (sentHeaders ctx)).withPayload []) known status rfl brief, ← others]
  rfl

/-- A response that came back was read as a method and two words, without line breaks. -/
theorem agrees_of_handled {parsed : Parsed} {first payload rest : Bytes} {lines : List Bytes}
    (back : ReadBack .httpResponse ctx parsed)
    (heads : Heads (visible (MessageClass.httpResponse.compose ctx)) first lines rest)
    (handled : handleResponse
      ((prior.withHead first (storedHeaders (goodLines lines) fun _ => none)).withPayload
      payload) = .ok (0, parsed.context)) :
    (kHttpRequestMethods.lookup ctx.version).isSome = true ∧
    prior.statusCode = ctx.statusCode ∧ ctx.uri = [] ∧
      ∀ field value, field ≠ .kContentLength → ctx.headers field = some value →
        FreeOf kHeaderBreak value := by
  obtain ⟨known, headers, uri, code, -⟩ := handleResponse_keeps handled
  refine ⟨back.version ▸ known, code.symm.trans back.code, back.uri.symm.trans uri, ?_⟩
  intro field value other stored
  have kept : parsed.context.headers field = some value := by
    rw [back.headers, Headers.set, if_neg other, stored]
  rw [headers] at kept
  refine storedHeaders_clean (fun line member => heads.clean line ?_) kept
  exact List.mem_cons_of_mem _ (List.takeWhile_subset _ member)

theorem response_inverse_iff (composable : Composable .httpResponse ctx)
    (empty : ctx.contentLength = 0) :
    Inverse .httpResponse ctx prior ↔ Agrees ctx prior := by
  obtain ⟨text, status⟩ := Option.isSome_iff_exists.mp composable
  have octets := response_octets status empty
  constructor
  · rintro ⟨parsed, returned, back⟩
    have accepted : parsed.status = 0 := back.accepted
    have small : (joined (ctx.version ++ ascii " " ++ text) (fieldLines (sentHeaders ctx)) ++
        blankLine).length < 2 ^ 31 - 2 := by
      have whole := back.whole
      rw [octets] at returned whole
      exact small_of_parsed returned whole
    obtain ⟨known, kept, uri, values⟩ : (kHttpRequestMethods.lookup ctx.version).isSome = true ∧
        prior.statusCode = ctx.statusCode ∧ ctx.uri = [] ∧
        ∀ field value, field ≠ .kContentLength → ctx.headers field = some value →
          FreeOf kHeaderBreak value := by
      rcases parse_cases returned with
        ⟨waits, -⟩ | ⟨bad, -⟩ | ⟨first, lines, rest, payload, heads, -, handled⟩
      · omega
      · rw [accepted] at bad
        cases bad
      · rw [accepted] at handled
        exact agrees_of_handled back heads handled
    rw [octets, parse_composed (statusLine_clean known status) (values_sent values)
      sentHeaders_length small] at returned
    obtain ⟨⟨result, after⟩, handled, taken⟩ := bind_eq_ok returned
    obtain rfl := Except.ok.inj taken
    obtain rfl : result = 0 := accepted
    obtain ⟨listed, preferred⟩ :=
      (response_handled_iff prior known status small).mp ⟨after, handled⟩
    exact ⟨known, listed, kept, uri, values, preferred, octets ▸ small⟩
  · intro agrees
    have small := agrees.small
    rw [octets] at small
    obtain ⟨after, handled⟩ :=
      (response_handled_iff prior agrees.version status small).mpr ⟨agrees.status, agrees.encoding⟩
    obtain ⟨-, headers, uri, code, words, split_eq⟩ := handleResponse_keeps handled
    obtain ⟨words', split_eq', -⟩ := statusLine_words agrees.version status
    obtain ⟨version, -⟩ := List.cons.inj (Except.ok.inj (split_eq.symm.trans split_eq'))
    refine ⟨⟨0, (MessageClass.httpResponse.compose ctx).length, after⟩, ?_, ?_⟩
    · rw [octets, parse_composed (statusLine_clean agrees.version status)
        (values_sent agrees.values)
        sentHeaders_length small]
      exact congrArg (fun result => result >>= _) handled
    · refine ⟨rfl, rfl, code.trans agrees.kept, uri.trans agrees.uri.symm, version, ?_⟩
      rw [empty]
      exact headers

end

/-- Exactly the responses that agree come back, and no request. -/
theorem compose_parse_iff (kind : MessageClass) (ctx prior : HttpContext)
    (composable : Composable kind ctx)
    (empty : ctx.contentLength = 0) :
    Inverse kind ctx prior ↔ kind = .httpResponse ∧ Agrees ctx prior := by
  cases kind with
  | httpRequest => exact iff_of_false (request_not_inverse composable empty) nofun
  | httpResponse =>
    rw [response_inverse_iff composable empty]
    exact (and_iff_right rfl).symm

/-- A context with nothing in it but what is given. -/
def plain (method statusCode : Int) (uri version : Bytes) : HttpContext where
  method := method
  uri := uri
  version := version
  startLine := []
  headers := fun _ => none
  payload := []
  statusCode := statusCode
  contentEncoding := 0
  contentLength := 0

/-- A response that says GET instead of its version comes back. -/
theorem compose_parse_iff_get :
    Inverse .httpResponse (plain 0 200 [] (ascii "GET")) (plain 0 200 [] (ascii "HTTP/1.1")) := by
  refine (compose_parse_iff .httpResponse (plain 0 200 [] (ascii "GET"))
    (plain 0 200 [] (ascii "HTTP/1.1"))
    (show (kHttpStatus.lookup 200).isSome = true by decide) rfl).mpr ⟨rfl, ?_⟩
  exact ⟨by decide +kernel, by decide, rfl, rfl, nofun, nofun, by decide +kernel⟩

/-- Neither a request for a file nor its response comes back. -/
theorem file_request_not_inverse :
    Composable .httpRequest (plain 0 0 (ascii "/a") (ascii "HTTP/1.1")) ∧
      ¬ Inverse .httpRequest (plain 0 0 (ascii "/a") (ascii "HTTP/1.1")) (plain 0 0 [] []) ∧
      Composable .httpResponse (plain 0 200 [] (ascii "HTTP/1.1")) ∧
      ¬ Inverse .httpResponse (plain 0 200 [] (ascii "HTTP/1.1")) (plain 0 200 [] []) := by
  refine ⟨⟨by decide +kernel, ⟨by decide, by decide⟩, ⟨by decide, by decide⟩, nofun⟩, ?_,
    by show (kHttpStatus.lookup 200).isSome = true; decide, ?_⟩
  · have lost : (parseMessage handleRequest (MessageClass.httpRequest.compose
        (plain 0 0 (ascii "/a") (ascii "HTTP/1.1"))) (plain 0 0 [] [])).toOption.any
        (fun p => p.context.uri == ascii "a") = true := by
      decide +kernel
    obtain ⟨parsed', returned', test⟩ := exists_ok_of_any lost
    rintro ⟨parsed, returned, back⟩
    obtain rfl : parsed' = parsed := Except.ok.inj (returned'.symm.trans returned)
    have uri := (beq_iff_eq.mp test).symm.trans back.uri
    revert uri
    decide
  · have refused : (parseMessage handleResponse (MessageClass.httpResponse.compose
        (plain 0 200 [] (ascii "HTTP/1.1"))) (plain 0 200 [] [])).toOption.any
          (fun p => p.status == -1) = true := by
      decide +kernel
    obtain ⟨parsed', returned', test⟩ := exists_ok_of_any refused
    rintro ⟨parsed, returned, back⟩
    obtain rfl : parsed' = parsed := Except.ok.inj (returned'.symm.trans returned)
    have status := (beq_iff_eq.mp test).symm.trans back.accepted
    cases status

end Ladder.Guarantees.ComposeParse
