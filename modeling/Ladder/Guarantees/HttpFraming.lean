import Ladder.Source.HttpServer

/-!
# The framing of a response

What a client reads off the octets of a response: a status line, header lines, a blank
line and the body. The lines determine themselves, so a response is framed or it is not,
whatever the code meant. Status and length come from four places: the parser, the server's
dispatch, the handler and the codec. The dispatch looks at the method and not at the
status, and sets a status but no length.
-/
namespace Ladder.Guarantees.HttpFraming
open Ladder.Library Ladder.Source Ladder.Source.Http

/-- The octets that a call on the connection puts on the wire. -/
def wire (world : World) : Sent → Bytes
  | .send message => message
  | .sendFile header filename => header ++ world.octetsAt filename

/-- The bodies that stand for what a path leads to: a file as it is or compressed, and
nothing at all for what cannot be read. -/
def bodiesAt (world : World) (path : Bytes) : List Bytes :=
  match world.content path with
  | none => [[]]
  | some (.file octets) => [octets, world.deflate octets]
  | some (.unreadable _ _) => []

/-- A response as a client reads it. -/
structure Reading where
  version : Bytes
  text : Bytes
  fields : List (HttpHeaderField × Bytes)
  body : Bytes

/-- Words in the status line, a known status, and values of one line each. -/
structure Reading.Valid (r : Reading) : Prop where
  version : Word r.version
  text : r.text ∈ kHttpStatus.map Prod.snd
  values : ∀ entry ∈ r.fields, FreeOf kHeaderBreak entry.2

def Reading.octets (r : Reading) : Bytes :=
  r.version ++ (ascii " " ++
    (r.text ++ (kHeaderBreak ++ (headerLines r.fields ++ (kHeaderBreak ++ r.body)))))

/-- The status, one of the given bodies, no Content-Length but that of the body, and the
version and the other header values of a context. -/
structure Reading.Reports (status : Int) (head : HttpContext) (bodies : List Bytes) (r : Reading) :
    Prop where
  status : kHttpStatus.lookup status = some r.text
  version : r.version = head.version
  values : ∀ field value, field ≠ .kContentLength →
    ((field, value) ∈ r.fields ↔ head.headers field = some value)
  body : r.body ∈ bodies
  length : ∀ value, (HttpHeaderField.kContentLength, value) ∈ r.fields ↔
    value = numeral r.body.length

/-- The octets are a response with the given status and head and one of the given bodies. -/
def Framed (status : Int) (head : HttpContext) (bodies : List Bytes) (octets : Bytes) : Prop :=
  ∃ r : Reading, r.Valid ∧ octets = r.octets ∧ r.Reports status head bodies

/-! ## A response can be read in one way only -/

theorem headerLines_cons (field : HttpHeaderField) (value : Bytes)
    (fields : List (HttpHeaderField × Bytes)) (rest : Bytes) :
    headerLines ((field, value) :: fields) ++ rest =
      kHeaderFieldStrs field ++
        (ascii ": " ++ (value ++ (kHeaderBreak ++ (headerLines fields ++ rest)))) := by
  simp [headerLines, headerLine]

/-- The blank line is not a header line. -/
theorem blank_ne_line {field : HttpHeaderField} {body rest : Bytes} :
    kHeaderBreak ++ body ≠ kHeaderFieldStrs field ++ rest := by
  obtain ⟨c, letters, name, other⟩ := fieldName_letter field
  rw [name]
  intro same
  exact other (List.cons.inj same).1.symm

theorem headerLines_unique {fields fields' : List (HttpHeaderField × Bytes)} {body body' : Bytes}
    (values : ∀ entry ∈ fields, FreeOf kHeaderBreak entry.2)
    (values' : ∀ entry ∈ fields', FreeOf kHeaderBreak entry.2)
    (same : headerLines fields ++ (kHeaderBreak ++ body) =
      headerLines fields' ++ (kHeaderBreak ++ body')) :
    fields = fields' ∧ body = body' := by
  induction fields generalizing fields' with
  | nil =>
    cases fields' with
    | nil => exact ⟨rfl, List.append_cancel_left same⟩
    | cons entry others =>
      obtain ⟨field, value⟩ := entry
      rw [headerLines_cons] at same
      exact absurd same blank_ne_line
  | cons entry others ih =>
    obtain ⟨field, value⟩ := entry
    rw [headerLines_cons] at same
    cases fields' with
    | nil => exact absurd same.symm blank_ne_line
    | cons entry' others' =>
      obtain ⟨field', value'⟩ := entry'
      rw [headerLines_cons] at same
      have clean : FreeOf kHeaderBreak value := values (field, value) List.mem_cons_self
      have clean' : FreeOf kHeaderBreak value' := values' (field', value') List.mem_cons_self
      obtain ⟨names, line⟩ :=
        piece_unique (by decide) (by decide) (fieldName_clean field) (fieldName_clean field') same
      obtain ⟨rfl, lines⟩ := piece_unique kHeaderBreak_unbordered (by decide) clean clean' line
      obtain ⟨rfl, rfl⟩ := ih (fun entry member => values entry (List.mem_cons_of_mem _ member))
        (fun entry member => values' entry (List.mem_cons_of_mem _ member)) lines
      rw [fieldName_injective names]
      exact ⟨rfl, rfl⟩

theorem reading_unique {r r' : Reading} (valid : r.Valid) (valid' : r'.Valid)
    (same : r.octets = r'.octets) : r = r' := by
  obtain ⟨version, text, fields, body⟩ := r
  obtain ⟨version', text', fields', body'⟩ := r'
  obtain ⟨word, known, values⟩ := valid
  obtain ⟨word', known', values'⟩ := valid'
  unfold Reading.octets at same
  dsimp only at same word known values word' known' values'
  obtain ⟨rfl, line⟩ := piece_unique (by decide) (by decide) word.blank word'.blank same
  obtain ⟨rfl, lines⟩ :=
    piece_unique kHeaderBreak_unbordered (by decide) (statusText_clean _ known)
      (statusText_clean _ known') line
  obtain ⟨rfl, rfl⟩ := headerLines_unique values values' lines
  rfl

theorem framed_iff {r : Reading} (valid : r.Valid) (status : Int) (head : HttpContext)
    (bodies : List Bytes) :
    Framed status head bodies r.octets ↔ r.Reports status head bodies := by
  constructor
  · rintro ⟨r', valid', same, reports⟩
    rwa [reading_unique valid valid' same]
  · intro reports
    exact ⟨r, valid, rfl, reports⟩

theorem not_framed_nil (status : Int) (head : HttpContext) (bodies : List Bytes) :
    ¬ Framed status head bodies [] := by
  rintro ⟨r, -, same, -⟩
  have := congrArg List.length same
  simp [Reading.octets, kHeaderBreak] at this

/-! ## ComposeHeaders -/

/-- A version of one word, and header values of one line each. `ComposeHeaders` overwrites
Content-Length. -/
structure Tidy (ctx : HttpContext) : Prop where
  version : Word ctx.version
  values : ∀ field value, field ≠ .kContentLength → ctx.headers field = some value →
    FreeOf kHeaderBreak value

/-- The context of a framed response is tidy. -/
theorem Framed.tidy {status : Int} {head : HttpContext} {bodies : List Bytes} {octets : Bytes}
    (framed : Framed status head bodies octets) : Tidy head := by
  obtain ⟨r, valid, -, reports⟩ := framed
  refine ⟨reports.version ▸ valid.version, ?_⟩
  intro field value other stored
  exact valid.values (field, value) ((reports.values field value other).mpr stored)

/-- What `ComposeHeaders` and a body behind it read as. -/
def composed (response : HttpContext) (text body : Bytes) : Reading where
  version := response.version
  text := text
  fields := fieldsOf (response.headers.set .kContentLength (intToString response.contentLength))
  body := body

section
variable {response : HttpContext} {text : Bytes} {status : Int} {bodies : List Bytes}

theorem composeHeaders_known
    (known : kHttpStatus.lookup response.statusCode = some text) (body : Bytes) :
    composeHeaders prepareResponse [] response ++ body = (composed response text body).octets := by
  simp only [composeHeaders, prepareResponse, known, Option.map_some, storedLines_eq,
    Reading.octets, composed, fieldsOf, List.nil_append, List.append_assoc]

theorem composeHeaders_unknown (unknown : kHttpStatus.lookup response.statusCode = none) :
    composeHeaders prepareResponse [] response = [] := by
  simp only [composeHeaders, prepareResponse, unknown, Option.map_none]

theorem intToString_eq_numeral {n : Int} {m : Nat} : intToString n = numeral m ↔ n = m := by
  constructor
  · intro same
    unfold intToString at same
    split at same
    · have digit := isDigit_of_mem_numeral (same ▸ List.mem_cons_self)
      cases digit
    · have := numeral_injective same
      omega
  · rintro rfl
    simp [intToString]

theorem composed_valid (tidy : Tidy response)
    (known : kHttpStatus.lookup response.statusCode = some text)
    (body : Bytes) : (composed response text body).Valid := by
  refine ⟨tidy.version, ?_, ?_⟩
  · exact List.mem_map_of_mem (mem_of_lookup known)
  · rintro ⟨field, value⟩ member
    have stored := mem_fieldsOf.mp member
    unfold Headers.set at stored
    split at stored
    · cases stored
      exact intToString_clean _
    · next other => exact tidy.values field value other stored

/-- Different codes have different texts. -/
theorem statusText_injective {code : Int} (first : kHttpStatus.lookup status = some text)
    (second : kHttpStatus.lookup code = some text) : status = code := by
  have distinct : ∀ a ∈ kHttpStatus, ∀ b ∈ kHttpStatus, a.2 = b.2 → a.1 = b.1 := by decide +kernel
  exact distinct _ (mem_of_lookup first) _ (mem_of_lookup second) rfl

/-- A composed response is framed when its status and its length are right. -/
theorem composed_framed_iff (tidy : Tidy response)
    (known : (kHttpStatus.lookup response.statusCode).isSome = true) (body : Bytes) :
    Framed status response bodies (composeHeaders prepareResponse [] response ++ body) ↔
      response.statusCode = status ∧ body ∈ bodies ∧ response.contentLength = body.length := by
  obtain ⟨text, known⟩ := Option.isSome_iff_exists.mp known
  rw [composeHeaders_known known, framed_iff (composed_valid tidy known body)]
  constructor
  · rintro ⟨same, -, -, listed, length⟩
    have stored := (length (intToString response.contentLength)).mp
      (mem_fieldsOf.mpr (by simp [Headers.set]))
    exact ⟨statusText_injective known same, listed, intToString_eq_numeral.mp stored⟩
  · rintro ⟨rfl, listed, length⟩
    refine ⟨known, rfl, ?_, listed, fun value => ?_⟩
    · intro field value other
      simp [composed, mem_fieldsOf, Headers.set, other]
    · have numeral_eq := intToString_eq_numeral.mpr length
      simp [composed, mem_fieldsOf, Headers.set, numeral_eq, eq_comm]

end

/-! ## The codec -/

section
variable (world : World) (codec : HttpCodec) (request response : HttpContext)

/-- A file is sent compressed. -/
def zipped : Bool :=
  decide (response.statusCode = HttpStatusCode.kOk.toInt) &&
    decide (request.contentEncoding = AcceptContentEncoding.kGzip.toInt)

/-- The octets behind the header block. -/
def sentBody : Bytes :=
  if response.statusCode = HttpStatusCode.kOk.toInt then
    if zipped request response then world.deflateFile response.uri
    else world.octetsAt response.uri
  else []

/-- The length in the header block: of what the codec has read, or as the callback left it. -/
def sentLength : Int :=
  if response.statusCode = HttpStatusCode.kOk.toInt ∧
    (codec.sendFile = false ∨ zipped request response) then
    int (sentBody world request response).length
  else response.contentLength

/-- The response context when the header block is composed. -/
def completed : HttpContext :=
  { response with
    headers :=
      if zipped request response then response.headers.set .kContentEncoding (ascii "gzip")
      else response.headers
    contentLength := sentLength world codec request response }

variable {world codec request response}

theorem Tidy.completed (tidy : Tidy response) : Tidy (completed world codec request response) := by
  refine ⟨tidy.version, ?_⟩
  intro field value other stored
  unfold HttpFraming.completed at stored
  dsimp only at stored
  split at stored
  · unfold Headers.set at stored
    split at stored
    · cases stored
      decide
    · exact tidy.values field value other stored
  · exact tidy.values field value other stored

/-- There is a response, unless the codec is to read what cannot be read. -/
theorem respond_returns (world : World) (codec : HttpCodec) (request : HttpContext)
    (readable : response.statusCode = HttpStatusCode.kOk.toInt →
      world.readable response.uri = true) :
    ∃ sent, codec.respond world request response = .ok sent := by
  unfold HttpCodec.respond
  by_cases found : response.statusCode = HttpStatusCode.kOk.toInt
  · rw [if_pos found, world.readFileAsString_eq, readable found]
    split
    · split
      · exact ⟨_, rfl⟩
      · exact ⟨_, rfl⟩
    · exact ⟨_, rfl⟩
  · rw [if_neg found]
    exact ⟨_, rfl⟩

theorem respond_wire {sent : Sent} (responds : codec.respond world request response = .ok sent) :
    wire world sent = composeHeaders prepareResponse [] (completed world codec request response) ++
      sentBody world request response := by
  unfold HttpCodec.respond at responds
  by_cases found : response.statusCode = HttpStatusCode.kOk.toInt
  · rw [if_pos found] at responds
    by_cases gzip : request.contentEncoding = AcceptContentEncoding.kGzip.toInt
    · simp only [gzip, decide_true, Bool.or_true, if_true] at responds
      obtain rfl := Except.ok.inj responds
      simp [wire, completed, sentBody, sentLength, zipped, found, gzip]
    · cases file : codec.sendFile with
      | false =>
        simp only [file, gzip, decide_false, Bool.not_false, Bool.or_false, if_true, if_false,
          world.readFileAsString_eq] at responds
        obtain ⟨octets, reads, result⟩ := bind_eq_ok responds
        obtain rfl := Except.ok.inj result
        split at reads
        · obtain rfl := Except.ok.inj reads
          simp [wire, completed, sentBody, sentLength, zipped, found, gzip, file]
        · cases reads
      | true =>
        simp only [file, gzip, decide_false, Bool.not_true, Bool.or_false, Bool.false_eq_true,
          if_false] at responds
        obtain rfl := Except.ok.inj responds
        have body : sentBody world request response = world.octetsAt response.uri := by
          simp [sentBody, zipped, found, gzip]
        have same : completed world codec request response = response := by
          simp [completed, sentLength, zipped, gzip, file]
        rw [wire, body, same]
  · rw [if_neg found] at responds
    obtain rfl := Except.ok.inj responds
    simp [wire, completed, sentBody, sentLength, zipped, found]

/-- The response to any contexts a callback leaves is framed when status, body and length
are as they should be. -/
theorem respond_framed_iff (status : Int) (bodies : List Bytes) :
    (∃ sent, codec.respond world request response = .ok sent ∧
        Framed status (completed world codec request response) bodies (wire world sent)) ↔
      (∃ sent, codec.respond world request response = .ok sent) ∧
        Tidy (completed world codec request response) ∧
        response.statusCode = status ∧ (kHttpStatus.lookup status).isSome = true ∧
        sentBody world request response ∈ bodies ∧
        sentLength world codec request response = (sentBody world request response).length := by
  have only : (∃ sent, codec.respond world request response = .ok sent ∧
        Framed status (completed world codec request response) bodies (wire world sent)) ↔
      (∃ sent, codec.respond world request response = .ok sent) ∧
        Framed status (completed world codec request response) bodies
          (composeHeaders prepareResponse [] (completed world codec request response) ++
            sentBody world request response) := by
    constructor
    · rintro ⟨sent, responds, framed⟩
      exact ⟨⟨sent, responds⟩, respond_wire responds ▸ framed⟩
    · rintro ⟨⟨sent, responds⟩, framed⟩
      exact ⟨sent, responds, respond_wire responds ▸ framed⟩
  rw [only]
  apply and_congr_right
  intro _
  cases known : (kHttpStatus.lookup response.statusCode).isSome with
  | true =>
    constructor
    · intro framed
      obtain ⟨rfl, listed, length⟩ := (composed_framed_iff framed.tidy known _).mp framed
      exact ⟨framed.tidy, rfl, known, listed, length⟩
    · rintro ⟨tidy, rfl, -, listed, length⟩
      exact (composed_framed_iff tidy known _).mpr ⟨rfl, listed, length⟩
  | false =>
    have other : response.statusCode ≠ HttpStatusCode.kOk.toInt := by
      intro found
      rw [found] at known
      cases known
    have nothing :
        composeHeaders prepareResponse [] (completed world codec request response) = [] :=
      composeHeaders_unknown (Option.not_isSome_iff_eq_none.mp (Bool.not_eq_true _ ▸ known))
    have empty : sentBody world request response = [] := if_neg other
    rw [nothing, empty]
    constructor
    · intro framed
      exact absurd framed (not_framed_nil status _ bodies)
    · rintro ⟨-, rfl, is_known, -⟩
      rw [known] at is_known
      cases is_known

end

/-! ## The server -/

/-- The callbacks of a server: `HandleHttpGet` if GET has one, and any for the other methods. -/
structure Registered (world : World) (root : Bytes) where
  callbacks : Int → Option Callback
  get : ∀ callback, callbacks HttpRequestMethod.kHttpGet.toInt = some callback →
    callback = handleHttpGet world root

section
variable {world : World} {root : Bytes} (registered : Registered world root) (sendFile : Bool)

def Registered.codec : HttpCodec := ⟨sendFile, some (onMessage registered.callbacks)⟩

/-- The response context as a callback gets it. -/
def blank (request : HttpContext) (response : Unset) : HttpContext :=
  { response.context.clear with version := request.version }

/-- The file a GET request is about. -/
def fileName (request : HttpContext) : Bytes :=
  if request.uri.isEmpty then ascii "index.html" else request.uri

variable (root) in
def filePath (request : HttpContext) : Bytes := root ++ fileName request

/-- The status a response has to carry: the error of the request, 501 for a method without a
callback, 404 or 200 for GET, and what the callback says for another method. -/
def dueStatus (request : HttpContext) (response : Unset) : Int :=
  if request.statusCode ≠ HttpStatusCode.kOk.toInt then request.statusCode
  else
    match registered.callbacks request.method with
    | none => HttpStatusCode.kNotImplemented.toInt
    | some callback =>
      if request.method = HttpRequestMethod.kHttpGet.toInt then
        if (world.content (filePath root request)).isSome then HttpStatusCode.kOk.toInt
        else HttpStatusCode.kNotFound.toInt
      else (callback request (blank request response)).2.statusCode

/-- The bodies it may have: the whole file or its compressed form, nothing without a file. -/
def dueBodies (request : HttpContext) (response : Unset) : List Bytes :=
  if dueStatus registered request response = HttpStatusCode.kOk.toInt then
    bodiesAt world <|
      if request.method = HttpRequestMethod.kHttpGet.toInt then filePath root request
      else (onMessage registered.callbacks request response.context).2.uri
  else [[]]

/-- The version and the header values it has to carry: as the callback leaves them, and
Content-Encoding if the codec compresses the body. -/
def dueHead (request : HttpContext) (response : Unset) : HttpContext :=
  completed world (registered.codec sendFile)
    (onMessage registered.callbacks request response.context).1
    (onMessage registered.callbacks request response.context).2

/-- A file goes out compressed: the client takes gzip, the suffix names a compressible
format and the file is large enough. -/
def compressed (request : HttpContext) (octets : Bytes) : Bool :=
  decide (request.contentEncoding = AcceptContentEncoding.kGzip.toInt) &&
    !incompressible (getFileSuffix (fileName request)) &&
    decide (kCompressibleFileSizeThreshold < int octets.length)

/-- When the response is right. Behind an error of the parser the method's callback has to
leave status and length as they should be, and `HandleHttpGet` leaves them as they were; a
method without a callback needs a length that is zero by chance; what can be opened must be
readable, the size of a file must not be negative as an `int`, and the size of what goes out
for it must fit one. Any other callback has to leave a known status, with 200 a path that can
be read, the length of the body, a version of one word and header values of one line. -/
def Framable (request : HttpContext) (response : Unset) : Prop :=
  match registered.callbacks request.method with
  | none => request.statusCode = HttpStatusCode.kOk.toInt ∧ response.contentLength = 0
  | some callback =>
    if request.method = HttpRequestMethod.kHttpGet.toInt then
      if request.statusCode = HttpStatusCode.kOk.toInt then
        ∀ entry, world.content (filePath root request) = some entry →
          ∃ octets, entry = .file octets ∧ 0 ≤ int octets.length ∧
            (if compressed request octets then world.deflate octets else octets).length < 2 ^ 31
      else response.statusCode = request.statusCode ∧ response.contentLength = 0
    else
      let (after, left) := callback request (blank request response)
      Tidy (completed world (registered.codec sendFile) after left) ∧
        if request.statusCode = HttpStatusCode.kOk.toInt then
          (kHttpStatus.lookup left.statusCode).isSome = true ∧
            (left.statusCode = HttpStatusCode.kOk.toInt → world.readable left.uri = true) ∧
            sentLength world (registered.codec sendFile) after left =
              (sentBody world after left).length
        else left.statusCode = request.statusCode ∧ left.contentLength = 0

end

section
variable {world : World} {root : Bytes} {registered : Registered world root} {sendFile : Bool}
  {request : HttpContext} {response : Unset}

theorem blank_tidy (word : Word request.version) : Tidy (blank request response) :=
  ⟨word, nofun⟩

theorem mimeType_clean (fmt : Option FileFormat) :
    FreeOf kHeaderBreak ((fmt.bind kFileMimeTypes).getD kUnknownFileMimeType) := by
  cases fmt with
  | none => decide +kernel
  | some fmt => cases fmt <;> decide +kernel

/-- What `HandleHttpGet` leaves for a request without an error. -/
structure Found (world : World) (root : Bytes) (ctx1 ctx2 : HttpContext)
    (result : HttpContext × HttpContext) :
    Prop where
  version : result.2.version = ctx2.version
  values : ∀ field value, result.2.headers field = some value →
    ctx2.headers field = some value ∨ FreeOf kHeaderBreak value
  uri : result.2.uri = filePath root ctx1
  status : result.2.statusCode = if 0 ≤
    world.getFileSize (filePath root ctx1) then HttpStatusCode.kOk.toInt
    else HttpStatusCode.kNotFound.toInt
  length : result.2.contentLength = max 0 (world.getFileSize (filePath root ctx1))
  encoding : result.1.contentEncoding =
    if incompressible (getFileSuffix (fileName ctx1)) ||
        decide (world.getFileSize (filePath root ctx1) ≤ kCompressibleFileSizeThreshold) then
      AcceptContentEncoding.kIdentity.toInt
    else ctx1.contentEncoding

theorem handleFound_spec (world : World) (root : Bytes) (ctx1 ctx2 : HttpContext) :
    Found world root ctx1 ctx2 (handleFound world root ctx1 ctx2) := by
  have values : ∀ field value,
      (ctx2.headers.set .kContentType (((getFileSuffix (fileName ctx1)).bind kFileMimeTypes).getD
        kUnknownFileMimeType)) field = some value →
      ctx2.headers field = some value ∨ FreeOf kHeaderBreak value := by
    intro field value stored
    unfold Headers.set at stored
    split at stored
    · cases stored
      exact .inr (mimeType_clean _)
    · exact .inl stored
  unfold handleFound
  by_cases found : 0 ≤ world.getFileSize (filePath root ctx1)
  · rw [if_pos (show 0 ≤ world.getFileSize (root ++ ite _ _ _) from found)]
    refine ⟨rfl, values, rfl, (if_pos found).symm, ?_, rfl⟩
    exact (max_eq_right found).symm
  · rw [if_neg (show ¬ 0 ≤ world.getFileSize (root ++ ite _ _ _) from found)]
    refine ⟨rfl, values, rfl, (if_neg found).symm, ?_, rfl⟩
    exact (max_eq_left (Int.le_of_lt (Int.not_le.mp found))).symm

/-- What is sent stands for what the path leads to, unless that cannot be read. -/
theorem sentBody_mem_iff {after left : HttpContext} :
    (sentBody world after left ∈
        if left.statusCode = HttpStatusCode.kOk.toInt then bodiesAt world left.uri else [[]]) ↔
      (left.statusCode = HttpStatusCode.kOk.toInt → world.readable left.uri = true) := by
  unfold sentBody World.deflateFile World.octetsAt World.readable bodiesAt
  by_cases found : left.statusCode = HttpStatusCode.kOk.toInt
  · rw [if_pos found, if_pos found]
    match world.content left.uri with
    | none => simp
    | some (.file octets) =>
      cases zipped after left with
      | true => simp
      | false => simp
    | some (.unreadable octets size) => simp [found]
  · rw [if_neg found, if_neg found]
    simp [found]

/-- A complete request is answered from the contexts that its callback leaves. -/
theorem onClientMessage_iff {codec : HttpCodec} {unset : Unset} {buffer : Buffer} {parsed : Parsed}
    (complete : parseMessage handleRequest (buffer.peek buffer.readableBytes).2 unset.context =
      .ok parsed)
    (whole : parsed.status ≠ -1) (good : Sent → Prop) :
    (∃ after served, codec.onClientMessage world unset response buffer = .ok (after, some served) ∧
        good served.sent) ↔
      ∃ sent, codec.respond world (codec.answer (arrived parsed) response.context).1
        (codec.answer (arrived parsed) response.context).2 = .ok sent ∧ good sent := by
  cases result : codec.respond world (codec.answer (arrived parsed) response.context).1
      (codec.answer (arrived parsed) response.context).2 with
  | error fault =>
    rw [onClientMessage_fails complete whole result]
    exact iff_of_false nofun nofun
  | ok sent =>
    rw [onClientMessage_complete complete whole result]
    constructor
    · rintro ⟨after, served, same, holds⟩
      obtain rfl := Option.some.inj (Prod.mk.inj (Except.ok.inj same)).2
      exact ⟨sent, rfl, holds⟩
    · rintro ⟨other, same, holds⟩
      obtain rfl := Except.ok.inj same
      exact ⟨_, _, rfl, holds⟩

theorem known_due {status : Int} (listed : status ∈ ([200, 400, 404, 405, 501] : List Int)) :
    (kHttpStatus.lookup status).isSome = true := by
  have all : ∀ status ∈ ([200, 400, 404, 405, 501] : List Int),
      (kHttpStatus.lookup status).isSome = true := by decide
  exact all status listed

/-- A response without a body. -/
theorem bodiless_iff {codec : HttpCodec} {after left : HttpContext} {status : Int}
    (known : (kHttpStatus.lookup status).isSome = true)
    (error : status ≠ HttpStatusCode.kOk.toInt) :
    (∃ sent, codec.respond world after left = .ok sent ∧
        Framed status (completed world codec after left) [[]] (wire world sent)) ↔
      Tidy (completed world codec after left) ∧ left.statusCode = status ∧
      left.contentLength = 0 := by
  rw [respond_framed_iff]
  constructor
  · rintro ⟨-, tidy, rfl, -, -, length⟩
    have empty : sentBody world after left = [] := if_neg error
    rw [empty] at length
    have unread : sentLength world codec after left = left.contentLength := by
      simp [sentLength, error]
    exact ⟨tidy, rfl, unread.symm.trans length⟩
  · rintro ⟨tidy, rfl, length⟩
    have empty : sentBody world after left = [] := if_neg error
    have unread : sentLength world codec after left = left.contentLength := by
      simp [sentLength, error]
    exact ⟨respond_returns world codec after fun found => absurd found error, tidy, rfl, known,
      by simp [empty], by rw [unread, length, empty]; rfl⟩

theorem int_eq_iff {n : Nat} : int n = n ↔ n < 2 ^ 31 :=
  ⟨fun same => Decidable.byContradiction fun large => int_ne_of_large large same, int_eq_of_small⟩

/-- What the codec compresses of what `HandleHttpGet` leaves. -/
theorem Found.zipped_eq {result : HttpContext × HttpContext} {octets : Bytes}
    (found : Found world root request (blank request response) result)
    (file : world.content (filePath root request) = some (.file octets))
    (nonneg : 0 ≤ int octets.length) :
    result.2.statusCode = HttpStatusCode.kOk.toInt ∧
      zipped result.1 result.2 = compressed request octets := by
  have size : world.getFileSize (filePath root request) = int octets.length := by
    simp only [World.getFileSize, file, Entry.size]
  have status : result.2.statusCode = HttpStatusCode.kOk.toInt := by
    rw [found.status, size]
    exact if_pos nonneg
  refine ⟨status, ?_⟩
  rw [zipped, status, found.encoding, size, compressed]
  by_cases small : int octets.length ≤ kCompressibleFileSizeThreshold
  · simp [small, AcceptContentEncoding.toInt]
  · cases incompressible (getFileSuffix (fileName request)) with
    | true => simp [AcceptContentEncoding.toInt]
    | false => simp [small, Int.not_le.mp small]

/-- The body behind the header block. -/
theorem Found.sentBody_eq {result : HttpContext × HttpContext} {octets : Bytes}
    (found : Found world root request (blank request response) result)
    (file : world.content (filePath root request) = some (.file octets))
    (nonneg : 0 ≤ int octets.length) :
    sentBody world result.1 result.2 =
      if compressed request octets then world.deflate octets else octets := by
  obtain ⟨status, zip⟩ := found.zipped_eq file nonneg
  simp only [sentBody, status, if_true, zip, found.uri, World.deflateFile, World.octetsAt, file]

/-- The path of a GET request leads to nothing, or to a file whose size fits, and so does the
size of what goes out for it. -/
theorem found_framed_iff {codec : HttpCodec} {result : HttpContext × HttpContext}
    (found : Found world root request (blank request response) result)
    (word : Word request.version) :
    (∃ sent, codec.respond world result.1 result.2 = .ok sent ∧
        Framed
          (if (world.content (filePath root request)).isSome then HttpStatusCode.kOk.toInt
            else HttpStatusCode.kNotFound.toInt)
          (completed world codec result.1 result.2) (bodiesAt world (filePath root request))
          (wire world sent)) ↔
      ∀ entry, world.content (filePath root request) = some entry →
        ∃ octets, entry = .file octets ∧ 0 ≤ int octets.length ∧
          (if compressed request octets then world.deflate octets else octets).length < 2 ^ 31 := by
  have tidy : Tidy result.2 := by
    refine ⟨found.version ▸ word, ?_⟩
    intro field value _ stored
    rcases found.values field value stored with earlier | clean
    · cases earlier
    · exact clean
  have status := found.status
  have length := found.length
  unfold bodiesAt
  match file : world.content (filePath root request) with
  | none =>
    have size : world.getFileSize (filePath root request) = -1 := by
      simp only [World.getFileSize, file]
    rw [size] at status length
    have known : (kHttpStatus.lookup HttpStatusCode.kNotFound.toInt).isSome = true :=
      known_due (by decide)
    exact iff_of_true ((bodiless_iff known (by decide)).mpr ⟨tidy.completed, status, length⟩) nofun
  | some (.unreadable octets size) =>
    refine iff_of_false ?_ ?_
    · rw [respond_framed_iff]
      rintro ⟨-, -, -, -, listed, -⟩
      cases listed
    · intro readable
      obtain ⟨_, impossible, -⟩ := readable _ rfl
      cases impossible
  | some (.file octets) =>
    have size : world.getFileSize (filePath root request) = int octets.length := by
      simp only [World.getFileSize, file, Entry.size]
    rw [size] at status length
    simp only [Option.isSome_some, if_true, Option.some.injEq, forall_eq', Entry.file.injEq,
      exists_eq_left']
    rw [respond_framed_iff]
    by_cases nonneg : 0 ≤ int octets.length
    · obtain ⟨status, zip⟩ := found.zipped_eq file nonneg
      have body := found.sentBody_eq file nonneg
      have listed : sentBody world result.1 result.2 ∈ [octets, world.deflate octets] := by
        rw [body]
        cases compressed request octets with
        | true => simp
        | false => simp
      -- the codec measures what it sends itself, or the callback has measured the file
      have measured : sentLength world codec result.1 result.2 =
          int (sentBody world result.1 result.2).length := by
        rw [sentLength]
        split
        · rfl
        · next aside =>
          have plain : compressed request octets = false := by
            simpa [status, zip] using fun sends => (not_and.mp aside status ∘ .inr) sends
          rw [length, body, plain, max_eq_right nonneg]
          rfl
      have returns : ∃ sent, codec.respond world result.1 result.2 = .ok sent := by
        refine respond_returns world codec result.1 fun _ => ?_
        rw [found.uri, World.readable, file]
      rw [measured, int_eq_iff, body]
      exact ⟨fun ⟨_, _, _, _, _, fits⟩ => ⟨nonneg, fits⟩, fun ⟨_, fits⟩ =>
        ⟨returns, tidy.completed, status, known_due (by decide : (200 : Int) ∈ _), body ▸ listed,
          fits⟩⟩
    · rw [if_neg nonneg] at status
      refine iff_of_false ?_ (fun fits => nonneg fits.1)
      rintro ⟨-, -, same, -⟩
      rw [status] at same
      cases same

/-- The response context for a method without a callback. -/
def unimplemented (request : HttpContext) (response : Unset) : HttpContext :=
  { blank request response with statusCode := HttpStatusCode.kNotImplemented.toInt }

theorem unimplemented_tidy (word : Word request.version) : Tidy (unimplemented request response) :=
  ⟨word, nofun⟩

theorem onMessage_none (called : registered.callbacks request.method = none) :
    onMessage registered.callbacks request response.context =
      (request, unimplemented request response) := by
  simp only [onMessage, called]
  rfl

theorem onMessage_some {callback : Callback}
    (called : registered.callbacks request.method = some callback) :
    onMessage registered.callbacks request response.context =
      callback request (blank request response) := by
  simp only [onMessage, called]
  rfl

/-- Behind an error of the parser. -/
theorem error_framed_iff (listed : request.statusCode ∈ ([400, 405] : List Int))
    (word : Word request.version) :
    (∃ sent, (registered.codec sendFile).respond world
        (onMessage registered.callbacks request response.context).1
        (onMessage registered.callbacks request response.context).2 = .ok sent ∧
        Framed request.statusCode (dueHead registered sendFile request response) [[]]
          (wire world sent)) ↔
      Framable registered sendFile request response := by
  have known : (kHttpStatus.lookup request.statusCode).isSome = true := by
    apply known_due
    simp only [List.mem_cons, List.not_mem_nil, or_false] at listed ⊢
    omega
  have error : request.statusCode ≠ HttpStatusCode.kOk.toInt := by
    simp only [List.mem_cons, List.not_mem_nil, or_false] at listed
    simp only [HttpStatusCode.toInt]
    omega
  unfold dueHead Framable
  rw [bodiless_iff known error]
  cases called : registered.callbacks request.method with
  | none =>
    rw [onMessage_none called]
    refine iff_of_false ?_ (fun fits => error fits.1)
    rintro ⟨-, same, -⟩
    simp only [List.mem_cons, List.not_mem_nil, or_false] at listed
    simp only [unimplemented, HttpStatusCode.toInt] at same
    omega
  | some callback =>
    rw [onMessage_some called]
    dsimp only
    by_cases get : request.method = HttpRequestMethod.kHttpGet.toInt
    · have handler : callback = handleHttpGet world root := registered.get callback (get ▸ called)
      have left : callback request (blank request response) =
          (request, blank request response) := by
        rw [handler]
        exact if_neg error
      rw [left, if_pos get, if_neg error]
      exact ⟨fun fits => fits.2, fun fits => ⟨(blank_tidy word).completed, fits⟩⟩
    · rw [if_neg get, if_neg error]

/-- Behind a request without an error. -/
theorem handled_framed_iff (good : request.statusCode = HttpStatusCode.kOk.toInt)
    (word : Word request.version) :
    (∃ sent, (registered.codec sendFile).respond world
        (onMessage registered.callbacks request response.context).1
        (onMessage registered.callbacks request response.context).2 = .ok sent ∧
        Framed (dueStatus registered request response)
          (dueHead registered sendFile request response)
          (dueBodies registered request response) (wire world sent)) ↔
      Framable registered sendFile request response := by
  have clear : ¬ request.statusCode ≠ HttpStatusCode.kOk.toInt := not_not.mpr good
  unfold Framable
  cases called : registered.callbacks request.method with
  | none =>
    have due : dueStatus registered request response = HttpStatusCode.kNotImplemented.toInt := by
      simp only [dueStatus, if_neg clear, called]
    have bodies : dueBodies registered request response = [[]] := by
      rw [dueBodies, due]
      exact if_neg (by decide)
    have known : (kHttpStatus.lookup HttpStatusCode.kNotImplemented.toInt).isSome = true :=
      known_due (by decide)
    rw [due, bodies, dueHead, bodiless_iff known (by decide), onMessage_none called]
    exact ⟨fun fits => ⟨good, fits.2.2⟩,
      fun fits => ⟨(unimplemented_tidy word).completed, rfl, fits.2⟩⟩
  | some callback =>
    dsimp only
    by_cases get : request.method = HttpRequestMethod.kHttpGet.toInt
    · have handler : callback = handleHttpGet world root := registered.get callback (get ▸ called)
      have left : onMessage registered.callbacks request response.context =
          handleFound world root request (blank request response) := by
        rw [onMessage_some called, handler]
        exact if_pos good
      have due : dueStatus registered request response =
          if (world.content (filePath root request)).isSome then HttpStatusCode.kOk.toInt
          else HttpStatusCode.kNotFound.toInt := by
        simp only [dueStatus, if_neg clear, called, if_pos get]
      have bodies : dueBodies registered request response =
          bodiesAt world (filePath root request) := by
        simp only [dueBodies, due, if_pos get]
        unfold bodiesAt
        cases world.content (filePath root request) <;> rfl
      rw [due, bodies, dueHead, left, if_pos get, if_pos good]
      exact found_framed_iff (handleFound_spec world root request (blank request response)) word
    · have due : dueStatus registered request response =
          (callback request (blank request response)).2.statusCode := by
        simp only [dueStatus, if_neg clear, called, if_neg get]
      have bodies : dueBodies registered request response =
          if (callback request (blank request response)).2.statusCode =
            HttpStatusCode.kOk.toInt then
            bodiesAt world (callback request (blank request response)).2.uri
          else [[]] := by
        simp only [dueBodies, due, if_neg get, onMessage_some called]
      rw [dueHead, respond_framed_iff, if_neg get, if_pos good, onMessage_some called, due, bodies,
        sentBody_mem_iff]
      exact ⟨fun fits => ⟨fits.2.1, fits.2.2.2.1, fits.2.2.2.2.1, fits.2.2.2.2.2⟩, fun fits =>
        ⟨respond_returns world _ _ fits.2.2.1, fits.1, rfl, fits.2.1, fits.2.2.1, fits.2.2.2⟩⟩

end

theorem initialVersion_word (unset : Unset) : Word unset.context.version :=
  show Word (ascii "HTTP/1.1") from ⟨by decide, by decide⟩

/-- One file, and a server that has a callback for GET only. -/
def oneFile : World where
  content path := if path = ascii "/srv/a" then some (.file (ascii "hello")) else none
  deflate := id

def getOnly : Registered oneFile (ascii "/srv/") where
  callbacks method :=
    if method = HttpRequestMethod.kHttpGet.toInt then
      some (handleHttpGet oneFile (ascii "/srv/")) else none
  get _ called := (Option.some.inj called).symm

def getRequest : Buffer := Buffer.fresh.write (ascii "GET /a HTTP/1.1\r\n\r\n")

def headRequest : Buffer := Buffer.fresh.write (ascii "HEAD /a HTTP/1.1\r\n\r\n")

/-- Members that the constructors leave unset. -/
def leftOver : Unset := ⟨0, 0, 0, 7⟩

end Ladder.Guarantees.HttpFraming
