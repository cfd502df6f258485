import Ladder.Source.Buffer
import Ladder.Source.HttpMessage

/-!
# The HTTP server

Source: `HttpCodec::OnClientMessage` of examples/http/HttpCodec.cpp, `HttpServer::OnMessage`
of examples/http/HttpServer.cpp, `GetFileSuffix` and `HandleHttpGet` of
examples/http/server.cpp, `GetFileSize` and `ReadFileAsString` of ladder/src/utils.cpp.
A path leads to a file, to something that can be opened and not read, or to nothing.
`deflate` stands for what zlib makes of a file. The connection is seen through the calls
made on it.
-/
namespace Ladder.Source.Http
open Ladder.Library

/-- What `fopen` finds behind a path. -/
inductive Entry where
  | file (octets : Bytes)
  /-- A directory, or a file on which reading fails behind the given octets. -/
  | unreadable (octets : Bytes) (size : Int)
  deriving DecidableEq, Repr

/-- What `ftell` gives at the end. -/
def Entry.size : Entry → Int
  | file octets => octets.length
  | unreadable _ size => size

structure World where
  content : Bytes → Option Entry
  deflate : Bytes → Bytes

namespace World
variable (world : World)

/-- `GetFileSize`; `ftell` gives a `long`. -/
def getFileSize (path : Bytes) : Int :=
  match world.content path with
  | some entry => int entry.size
  | none => -1

def kFileBufferSize : Nat := 1024

structure Reading where
  rest : Bytes
  broken : Bool
  eof : Bool
  result : Bytes

/-- One `fread`; a short count sets the end-of-file indicator, or the error indicator. -/
def fread (s : Reading) : Reading where
  rest := s.rest.drop kFileBufferSize
  broken := s.broken
  eof := decide (s.rest.length < kFileBufferSize) && !s.broken
  result := s.result ++ s.rest.take kFileBufferSize

/-- `while (!feof(fp))`, cut off after the rounds given to it. -/
def readLoop (rounds : Nat) (s : Reading) : Option Bytes :=
  (whileLoop (fun s => some !s.eof) (fun s => some (fread s)) rounds s).map Reading.result

/-- `ReadFileAsString`; none if the loop never ends. -/
def readFileAsString (path : Bytes) : Option Bytes :=
  match world.content path with
  | none => some []
  | some (.file octets) => readLoop (octets.length + 2) ⟨octets, false, false, []⟩
  | some (.unreadable octets _) => readLoop (octets.length + 2) ⟨octets, true, false, []⟩

/-- A loop that reading errors do not end has no last round. -/
theorem readLoop_broken (rounds : Nat) {s : Reading} (broken : s.broken = true)
    (more : s.eof = false) : readLoop rounds s = none := by
  rw [readLoop, Option.map_eq_none_iff]
  induction rounds generalizing s with
  | zero => rfl
  | succ rounds ih =>
    have next : whileLoop (fun s => some !s.eof) (fun s => some (fread s)) rounds
        (fread s) = none :=
      ih broken (by simp [fread, broken])
    rw [whileLoop, more]
    exact next

/-- The loop reads a whole file. -/
theorem readLoop_file (octets : Bytes) :
    readLoop (octets.length + 2) ⟨octets, false, false, []⟩ = some octets := by
  have round : ∀ s : Reading,
      (s.broken = false ∧ s.result ++ s.rest = octets ∧ (s.eof = true → s.rest = [])) →
      some (!s.eof) = some true →
      ∃ next, some (fread s) = some next ∧
        (next.broken = false ∧ next.result ++ next.rest = octets ∧
          (next.eof = true → next.rest = [])) ∧
        (if next.eof then 0 else next.rest.length + 1) <
          if s.eof then 0 else s.rest.length + 1 := by
    rintro ⟨rest, broken, eof, result⟩ ⟨rfl, whole, -⟩ more
    obtain rfl : eof = false := by simpa using more
    refine ⟨_, rfl, ⟨rfl, ?_, ?_⟩, ?_⟩
    · simpa only [fread, List.append_assoc, List.take_append_drop] using whole
    · intro short
      simp only [fread, Bool.not_false, Bool.and_true, decide_eq_true_eq] at short
      simp only [fread]
      exact List.drop_eq_nil_of_le (by omega)
    · by_cases short : rest.length < kFileBufferSize
      · simp [fread, short]
      · simp only [kFileBufferSize] at short
        simp [fread, short, kFileBufferSize]
        omega
  have start : false = false ∧ ([] : Bytes) ++ octets = octets ∧ (false = true → octets = []) :=
    ⟨rfl, List.nil_append octets, nofun⟩
  obtain ⟨final, ends, ⟨-, whole, done⟩, halted⟩ :=
    whileLoop_total _ (fun s _ => ⟨!s.eof, rfl⟩) round (s := ⟨octets, false, false, []⟩) start
      (Nat.lt_succ_self (octets.length + 1))
  have result : final.result = octets := by
    rw [← whole, done (by simpa using halted), List.append_nil]
  exact (congrArg (Option.map Reading.result) ends).trans (congrArg some result)

/-- A path behind which nothing is that cannot be read. -/
def readable (path : Bytes) : Bool :=
  match world.content path with
  | some (.unreadable _ _) => false
  | _ => true

/-- The octets that can be read behind a path. -/
def octetsAt (path : Bytes) : Bytes :=
  match world.content path with
  | none => []
  | some (.file octets) => octets
  | some (.unreadable octets _) => octets

theorem readFileAsString_eq (path : Bytes) :
    world.readFileAsString path =
      if world.readable path then some (world.octetsAt path) else none := by
  unfold readFileAsString readable octetsAt
  match world.content path with
  | none => rfl
  | some (.file octets) => exact readLoop_file octets
  | some (.unreadable octets _) => exact readLoop_broken _ rfl rfl

/-- `GZipper::DeflateFile`, which gives up on an error. -/
def deflateFile (path : Bytes) : Bytes :=
  match world.content path with
  | some (.file octets) => world.deflate octets
  | _ => []

end World

/-! ## HttpCodec -/

/-- A call of `Connection::Send` or `Connection::SendFile`. -/
inductive Sent where
  | send (message : Bytes)
  | sendFile (header filename : Bytes)
  deriving DecidableEq, Repr

abbrev Callback := HttpContext → HttpContext → HttpContext × HttpContext

structure HttpCodec where
  sendFile : Bool
  serverCallback : Option Callback

/-- What a call of `OnClientMessage` did: the calls of `server_callback_` with the contexts
passed to it, the response and whether `ShutDownWrite` followed. -/
structure Served where
  calls : List (HttpContext × HttpContext)
  sent : Sent
  shutDownWrite : Bool

/-- The request as the callback gets it. -/
def arrived (parsed : Parsed) : HttpContext := { parsed.context with statusCode := parsed.status }

/-- The result of a loop that may never end. -/
def ended {α : Type} : Option α → Except Failure α
  | some a => .ok a
  | none => .error .endless

section
variable (world : World) (codec : HttpCodec)

/-- The contexts behind the callback. -/
def HttpCodec.answer (request response : HttpContext) : HttpContext × HttpContext :=
  match codec.serverCallback with
  | some callback => callback request response
  | none => (request, response)

/-- The calls of the callback. -/
def HttpCodec.calls (request response : HttpContext) : List (HttpContext × HttpContext) :=
  codec.serverCallback.toList.map fun _ => (request, response)

/-- The response, from the contexts behind the callback. -/
def HttpCodec.respond (request response : HttpContext) : Except Failure Sent := do
  if response.statusCode = HttpStatusCode.kOk.toInt then
    if !codec.sendFile || request.contentEncoding = AcceptContentEncoding.kGzip.toInt then
      if request.contentEncoding = AcceptContentEncoding.kGzip.toInt then
        let filebuf := world.deflateFile response.uri
        let response := { response with
          headers := response.headers.set .kContentEncoding (ascii "gzip")
          contentLength := int filebuf.length }
        return .send (composeHeaders prepareResponse [] response ++ filebuf)
      else
        let filebuf ← ended (world.readFileAsString response.uri)
        let response := { response with contentLength := int filebuf.length }
        return .send (composeHeaders prepareResponse [] response ++ filebuf)
    else return .sendFile (composeHeaders prepareResponse [] response) response.uri
  else return .send (composeHeaders prepareResponse [] response)

/-- `OnClientMessage` behind a successful `ParseMessage`. -/
def HttpCodec.serve (response : HttpContext) (parsed : Parsed) : Except Failure Served := do
  let (after, left) := codec.answer (arrived parsed) response
  return ⟨codec.calls (arrived parsed) response, ← codec.respond world after left,
    after.version == ascii "HTTP/1.0"⟩

/-- `OnClientMessage` behind `ParseMessage`. -/
def HttpCodec.afterParse (response : HttpContext) (buffer : Buffer) :
    Except Failure Parsed → Except Failure (Buffer × Option Served)
  | .error fault => .error fault
  | .ok parsed =>
    if parsed.status = -1 then .ok (buffer, none)
    else do
      return (buffer.haveRead (sizeT parsed.length), some (← codec.serve world response parsed))

/-- `OnClientMessage`, with the indeterminate members of the two contexts it makes. -/
def HttpCodec.onClientMessage (request response : Unset) (buffer : Buffer) :
    Except Failure (Buffer × Option Served) :=
  codec.afterParse world response.context buffer
    (parseMessage handleRequest (buffer.peek buffer.readableBytes).2 request.context)

end

section
variable {world : World} {codec : HttpCodec} {unset response : Unset} {buffer : Buffer}
  {parsed : Parsed}

theorem serve_eq (response : HttpContext) :
    codec.serve world response parsed =
      codec.respond world (codec.answer (arrived parsed) response).1
        (codec.answer (arrived parsed) response).2
        >>= fun sent => .ok ⟨codec.calls (arrived parsed) response, sent,
          (codec.answer (arrived parsed) response).1.version == ascii "HTTP/1.0"⟩ := rfl

/-- A complete request is taken out of the buffer and answered. -/
theorem onClientMessage_complete {sent : Sent}
    (complete : parseMessage handleRequest (buffer.peek buffer.readableBytes).2 unset.context =
      .ok parsed)
    (whole : parsed.status ≠ -1)
    (result : codec.respond world (codec.answer (arrived parsed) response.context).1
      (codec.answer (arrived parsed) response.context).2 = .ok sent) :
    codec.onClientMessage world unset response buffer =
      .ok (buffer.haveRead (sizeT parsed.length),
        some ⟨codec.calls (arrived parsed) response.context, sent,
          (codec.answer (arrived parsed) response.context).1.version == ascii "HTTP/1.0"⟩) := by
  unfold HttpCodec.onClientMessage
  rw [complete, HttpCodec.afterParse, if_neg whole, serve_eq, result, ok_bind, ok_bind]
  rfl

theorem onClientMessage_fails {fault : Failure}
    (complete : parseMessage handleRequest (buffer.peek buffer.readableBytes).2 unset.context =
      .ok parsed)
    (whole : parsed.status ≠ -1)
    (result : codec.respond world (codec.answer (arrived parsed) response.context).1
      (codec.answer (arrived parsed) response.context).2 = .error fault) :
    codec.onClientMessage world unset response buffer = .error fault := by
  unfold HttpCodec.onClientMessage
  rw [complete, HttpCodec.afterParse, if_neg whole, serve_eq, result]
  rfl

/-- An incomplete one changes nothing. -/
theorem onClientMessage_incomplete (world : World) (codec : HttpCodec) (response : Unset)
    (result : parseMessage handleRequest (buffer.peek buffer.readableBytes).2 unset.context =
      .ok parsed)
    (partly : parsed.status = -1) :
    codec.onClientMessage world unset response buffer = .ok (buffer, none) := by
  unfold HttpCodec.onClientMessage
  rw [result, HttpCodec.afterParse, if_pos partly]

end

section
variable (world : World) (codec : HttpCodec) (unset response : Unset) {buffer : Buffer}

/-- On a valid buffer the call depends on the unread octets only. -/
theorem onClientMessage_eq (valid : buffer.Valid) :
    codec.onClientMessage world unset response buffer =
      codec.afterParse world response.context buffer
        (parseMessage handleRequest buffer.unread unset.context) := by
  unfold HttpCodec.onClientMessage
  rw [valid.peek_all]

end

/-! ## HttpServer -/

/-- `HttpServer::OnMessage`; the keys of `callbacks_` are the values of the methods. -/
def onMessage (callbacks : Int → Option Callback) : Callback := fun ctx1 ctx2 =>
  let ctx2 := { ctx2.clear with version := ctx1.version }
  match callbacks ctx1.method with
  | none => (ctx1, { ctx2 with statusCode := HttpStatusCode.kNotImplemented.toInt })
  | some callback => callback ctx1 ctx2

/-! ## server.cpp -/

inductive FileFormat where
  | kFileFormatJpg | kFileFormatPng | kFileFormatIco | kFileFormatGif | kFileFormatTif
  | kFileFormatPdf | kFileFormatEpub | kFileFormatMp3 | kFileFormatMp4 | kFileFormatAvi
  | kFileFormatZip | kFileFormatCompressible | kFileFormatHtml | kFileFormatJs | kFileFormatCss
  | kFileFormatSvg | kFileFormatXml | kFileFormatText | kFileFormatJson | kFileFormatCsv
  | kFileFormatBmp
  deriving DecidableEq, Repr

def FileFormat.toInt : FileFormat → Int
  | .kFileFormatJpg => 0
  | .kFileFormatPng => 1
  | .kFileFormatIco => 2
  | .kFileFormatGif => 3
  | .kFileFormatTif => 4
  | .kFileFormatPdf => 5
  | .kFileFormatEpub => 6
  | .kFileFormatMp3 => 7
  | .kFileFormatMp4 => 8
  | .kFileFormatAvi => 9
  | .kFileFormatZip => 10
  | .kFileFormatCompressible => 11
  | .kFileFormatHtml => 12
  | .kFileFormatJs => 13
  | .kFileFormatCss => 14
  | .kFileFormatSvg => 15
  | .kFileFormatXml => 16
  | .kFileFormatText => 17
  | .kFileFormatJson => 18
  | .kFileFormatCsv => 19
  | .kFileFormatBmp => 20

def kUnknownFileMimeType : Bytes := ascii "application/octet-stream"
def kCompressibleFileSizeThreshold : Int := 2048

def kFileMimeTypeCodes : List (Bytes × FileFormat) :=
  [(ascii "htm", .kFileFormatHtml), (ascii "html", .kFileFormatHtml),
    (ascii "ico", .kFileFormatIco), (ascii "js", .kFileFormatJs), (ascii "css", .kFileFormatCss),
    (ascii "csv", .kFileFormatCsv),
    (ascii "txt", .kFileFormatText), (ascii "jpg", .kFileFormatJpg),
    (ascii "jpeg", .kFileFormatJpg),
    (ascii "json", .kFileFormatJson), (ascii "png", .kFileFormatPng),
    (ascii "tif", .kFileFormatTif),
    (ascii "tiff", .kFileFormatTif), (ascii "pdf", .kFileFormatPdf), (ascii "svg", .kFileFormatSvg),
    (ascii "bmp", .kFileFormatBmp), (ascii "avi", .kFileFormatAvi),
    (ascii "epub", .kFileFormatEpub),
    (ascii "gif", .kFileFormatGif), (ascii "mp3", .kFileFormatMp3), (ascii "mp4", .kFileFormatMp4),
    (ascii "xml", .kFileFormatXml), (ascii "zip", .kFileFormatZip)]

/-- `kFileMimeTypes`, which has no entry for two of the formats. -/
def kFileMimeTypes : FileFormat → Option Bytes
  | .kFileFormatHtml => some (ascii "text/html; charset=utf-8")
  | .kFileFormatIco => some (ascii "image/vnd.microsoft.icon")
  | .kFileFormatJs => some (ascii "text/javascript; charset=utf-8")
  | .kFileFormatCss => some (ascii "text/css")
  | .kFileFormatCsv => some (ascii "text/csv; charset=utf-8")
  | .kFileFormatText => some (ascii "text/plain; charset=utf-8")
  | .kFileFormatJpg => some (ascii "image/jpeg")
  | .kFileFormatJson => some (ascii "application/json; charset=utf-8")
  | .kFileFormatPng => some (ascii "image/png")
  | .kFileFormatTif => some (ascii "image/tiff")
  | .kFileFormatPdf => some (ascii "application/pdf")
  | .kFileFormatSvg => some (ascii "image/svg+xml; charset=utf-8")
  | .kFileFormatBmp => some (ascii "image/bmp")
  | .kFileFormatAvi => some (ascii "video/x-msvideo")
  | .kFileFormatEpub => some (ascii "application/epub+zip")
  | .kFileFormatGif => some (ascii "image/gif")
  | .kFileFormatMp3 => some (ascii "audio/mpeg")
  | .kFileFormatMp4 => some (ascii "video")
  | .kFileFormatXml => some (ascii "application/xml; charset=utf-8")
  | .kFileFormatZip | .kFileFormatCompressible => none

/-- The part behind the last dot, empty without a dot. -/
def suffix (filename : Bytes) : Bytes :=
  if 46 ∈ filename then (filename.reverse.takeWhile (· != 46)).reverse else []

/-- `GetFileSuffix`, none for -1. -/
def getFileSuffix (filename : Bytes) : Option FileFormat :=
  kFileMimeTypeCodes.lookup (suffix filename)

/-- `fmt <= kFileFormatCompressible`, which holds for an unknown format as well. -/
def incompressible (fmt : Option FileFormat) : Bool :=
  match fmt with
  | none => true
  | some fmt => decide (fmt.toInt ≤ FileFormat.kFileFormatCompressible.toInt)

section
variable (world : World) (kResourceRoot : Bytes)

/-- `HandleHttpGet` for a request that has been parsed. -/
def handleFound (ctx1 ctx2 : HttpContext) : HttpContext × HttpContext :=
  let ctx1 := { ctx1 with uri := if ctx1.uri.isEmpty then ascii "index.html" else ctx1.uri }
  let fmt := getFileSuffix ctx1.uri
  let mimeType := (fmt.bind kFileMimeTypes).getD kUnknownFileMimeType
  let ctx2 := { ctx2 with
    headers := ctx2.headers.set .kContentType mimeType
    uri := kResourceRoot ++ ctx1.uri }
  let fileSize := world.getFileSize ctx2.uri
  let identity := incompressible fmt || decide (fileSize ≤ kCompressibleFileSizeThreshold)
  let ctx1 := { ctx1 with
    contentEncoding :=
      if identity then AcceptContentEncoding.kIdentity.toInt else ctx1.contentEncoding }
  if 0 ≤ fileSize then
    (ctx1, { ctx2 with statusCode := HttpStatusCode.kOk.toInt, contentLength := fileSize })
  else
    (ctx1, { ctx2 with statusCode := HttpStatusCode.kNotFound.toInt, contentLength := 0 })

def handleHttpGet : Callback := fun ctx1 ctx2 =>
  if ctx1.statusCode = HttpStatusCode.kOk.toInt then handleFound world kResourceRoot ctx1 ctx2
  else (ctx1, ctx2)

end

end Ladder.Source.Http
