import Ladder.Source.HttpParsing
import Ladder.Guarantees.GZipDrivers
import Ladder.Guarantees.HttpFraming

/-!
# Downloading a file

A GET request for a file of the server, answered through `SendFile`, through `Send` or
compressed by the gzip driver, as the request, the name and the size of the file decide.
A client that reads the response and undoes its Content-Encoding with `Inflate` has the
octets of the file. Of what a client accepts, only encodings with a comma and a space in
between are told apart, and only those that are spelled `gzip` or `identity` count.
-/
namespace Ladder.Guarantees.FileDownload
open Ladder.Library Ladder.Source Ladder.Source.Http
open Ladder.Guarantees.HttpFraming

/-- `deflate` of the world is the driver over some zlib, whose output for something is
something. -/
structure Compresses (zlib : GZipDrivers.Codec) (world : World) : Prop where
  driver : ∀ octets,
    Returns (fun rounds => GZip.deflateFile zlib.toZLib rounds (some ⟨octets, false⟩))
    (world.deflate octets)
  nonempty : ∀ octets, octets ≠ [] → world.deflate octets ≠ []

/-- The response says that its body is compressed. -/
def announces (r : Reading) : Bool :=
  decide ((HttpHeaderField.kContentEncoding, ascii "gzip") ∈ r.fields)

/-- What the client makes of the body. -/
def received (zlib : GZip.ZLib) (r : Reading) (rounds : Nat) : Option Bytes :=
  if announces r then GZip.inflate zlib rounds r.body else some r.body

/-- The compressed form comes back as the file. -/
theorem inflate_deflated {zlib : GZipDrivers.Codec} {world : World}
    (compresses : Compresses zlib world)
    {octets : Bytes} (some_ : octets ≠ []) (small : (world.deflate octets).length < 2 ^ 31) :
    Returns (fun rounds => GZip.inflate zlib.toZLib rounds (world.deflate octets)) octets := by
  obtain ⟨d, returns, made⟩ := GZipDrivers.processFile_returns zlib.deflates octets
  have same : d = world.deflate octets := returns.unique (compresses.driver octets)
  subst same
  obtain ⟨r, inflates, is⟩ := GZipDrivers.inflate_made zlib made small
  have whole : r = octets := is.mpr fun nothing => absurd nothing (compresses.nonempty octets some_)
  exact whole ▸ inflates

/-! ## The response -/

theorem handleFound_contentEncoding (world : World) (root : Bytes) (ctx1 ctx2 : HttpContext) :
    (handleFound world root ctx1 ctx2).2.headers .kContentEncoding =
      ctx2.headers .kContentEncoding := by
  unfold handleFound
  by_cases found : 0 ≤ world.getFileSize (filePath root ctx1)
  · rw [if_pos (show 0 ≤ world.getFileSize (root ++ ite _ _ _) from found)]
    rfl
  · rw [if_neg (show ¬ 0 ≤ world.getFileSize (root ++ ite _ _ _) from found)]
    rfl

/-- What a client reads off the response to a GET request for a file. -/
theorem found_reading {world : World} {root : Bytes} {request : HttpContext} (response : Unset)
    (codec : HttpCodec) {octets : Bytes} (word : Word request.version)
    (file : world.content (filePath root request) = some (.file octets))
    (small : octets.length < 2 ^ 31) (smallZip : (world.deflate octets).length < 2 ^ 31) :
    let result := handleFound world root request (blank request response)
    ∃ sent r, codec.respond world result.1 result.2 = .ok sent ∧ Reading.Valid r ∧
      wire world sent = r.octets ∧
      kHttpStatus.lookup HttpStatusCode.kOk.toInt = some r.text ∧
      (∀ value, (HttpHeaderField.kContentLength, value) ∈ r.fields ↔
        value = numeral r.body.length) ∧
      announces r = compressed request octets ∧
      r.body = if compressed request octets then world.deflate octets else octets := by
  intro result
  have found := handleFound_spec world root request (blank request response)
  have fits :
      (if compressed request octets then world.deflate octets else octets).length < 2 ^ 31 := by
    split
    · exact smallZip
    · exact small
  have nonneg : 0 ≤ int octets.length := by
    rw [int_eq_iff.mpr small]
    exact Int.natCast_nonneg _
  have framable : ∀ entry, world.content (filePath root request) = some entry →
      ∃ octets, entry = .file octets ∧ 0 ≤ int octets.length ∧
        (if compressed request octets then world.deflate octets else octets).length < 2 ^ 31 := by
    intro entry stored
    rw [file] at stored
    exact ⟨octets, (Option.some.inj stored).symm, nonneg, fits⟩
  obtain ⟨sent, responds, framed⟩ := (found_framed_iff found word).mpr framable
  have octets' := respond_wire responds
  obtain ⟨status, zip⟩ := found.zipped_eq file nonneg
  have tidy := framed.tidy
  obtain ⟨r, valid, same, reports⟩ := framed
  rw [file, Option.isSome_some, if_pos rfl] at reports
  have known : kHttpStatus.lookup (completed world codec result.1 result.2).statusCode =
      some r.text := by
    rw [show (completed world codec result.1 result.2).statusCode =
      HttpStatusCode.kOk.toInt from status]
    exact reports.status
  rw [composeHeaders_known known] at octets'
  have only := reading_unique valid (composed_valid tidy known _) (same.symm.trans octets')
  refine ⟨sent, r, responds, valid, same, reports.status, reports.length, ?_, ?_⟩
  · have listed := reports.values .kContentEncoding (ascii "gzip") (by decide)
    rw [announces, Bool.eq_iff_iff, decide_eq_true_iff, listed, completed, zip]
    cases compressed request octets with
    | true => simp [Headers.set]
    | false =>
      have nothing := handleFound_contentEncoding world root request (blank request response)
      rw [show (blank request response).headers .kContentEncoding = none from rfl] at nothing
      simp [nothing]
  · rw [only]
    exact found.sentBody_eq file nonneg

/-! ## The encodings that a client accepts -/

/-- Accept-Encoding lists `gzip`, and not `identity` in front of it. The list is cut at each
comma with a space behind it. -/
def AcceptsGzip (headers : Headers) : Prop :=
  ∃ front rest : List Bytes,
    headers .kAcceptEncoding = some ((ascii ", ").intercalate (front ++ ascii "gzip" :: rest)) ∧
      (∀ item ∈ front ++ ascii "gzip" :: rest, FreeOf (ascii ", ") item) ∧ ascii "identity" ∉ front

/-- Only two of the encodings are looked for. -/
theorem chooseEncoding_cons (enc : Bytes) (rest : List Bytes) :
    chooseEncoding (enc :: rest) =
      if enc = ascii "gzip" then .kGzip
      else if enc = ascii "identity" then .kIdentity
      else chooseEncoding rest := by
  by_cases known : enc ∈ kContentEncodings.map Prod.fst
  · simp only [kContentEncodings, List.map_cons, List.map_nil, List.mem_cons, List.not_mem_nil,
      or_false] at known
    rcases known with rfl | rfl | rfl | rfl | rfl | rfl
    all_goals rfl
  · have unknown : kContentEncodings.lookup enc = none := by
      rw [List.lookup_eq_none_iff]
      intro entry member
      have other : enc ≠ entry.1 := fun same => known (same ▸ List.mem_map_of_mem member)
      simpa using other
    have noGzip : enc ≠ ascii "gzip" := fun same => known (same ▸ by decide)
    have noIdentity : enc ≠ ascii "identity" := fun same => known (same ▸ by decide)
    rw [if_neg noGzip, if_neg noIdentity, chooseEncoding, List.filterMap_cons, unknown]
    rfl

theorem chooseEncoding_gzip (items : List Bytes) :
    chooseEncoding items = .kGzip ↔
      ∃ front rest, items = front ++ ascii "gzip" :: rest ∧ ascii "identity" ∉ front := by
  induction items with
  | nil =>
    refine iff_of_false (by decide) ?_
    rintro ⟨front, rest, same, -⟩
    simp at same
  | cons enc items ih =>
    rw [chooseEncoding_cons]
    by_cases gzip : enc = ascii "gzip"
    · rw [if_pos gzip]
      exact iff_of_true rfl ⟨[], items, by rw [gzip]; rfl, List.not_mem_nil⟩
    · rw [if_neg gzip]
      by_cases identity : enc = ascii "identity"
      · rw [if_pos identity]
        refine iff_of_false (by decide) ?_
        rintro ⟨front, rest, same, absent⟩
        cases front with
        | nil => exact gzip (List.cons.inj same).1
        | cons first front =>
          rw [← (List.cons.inj same).1, identity] at absent
          exact absent List.mem_cons_self
      · rw [if_neg identity, ih]
        constructor
        · rintro ⟨front, rest, rfl, absent⟩
          refine ⟨enc :: front, rest, rfl, ?_⟩
          rintro (_ | ⟨_, member⟩)
          · exact identity rfl
          · exact absent member
        · rintro ⟨front, rest, same, absent⟩
          cases front with
          | nil => exact absurd (List.cons.inj same).1 gzip
          | cons first front =>
            exact ⟨front, rest, (List.cons.inj same).2, fun member => absent (.tail _ member)⟩

theorem acceptEncoding_gzip {ctx after : HttpContext}
    (short : ∀ value, ctx.headers .kAcceptEncoding = some value → value.length < 2 ^ 31 - 3)
    (accepted : acceptEncoding ctx = .ok after) :
    after.headers = ctx.headers ∧
      (after.contentEncoding = AcceptContentEncoding.kGzip.toInt ↔ AcceptsGzip ctx.headers) := by
  unfold acceptEncoding at accepted
  unfold AcceptsGzip
  cases stored : ctx.headers .kAcceptEncoding with
  | none =>
    rw [stored] at accepted
    obtain rfl := Except.ok.inj accepted
    exact ⟨rfl, iff_of_false (show ¬ AcceptContentEncoding.kIdentity.toInt = _ by decide) nofun⟩
  | some value =>
    have small := short value stored
    obtain ⟨first, others, split, whole, clean⟩ :=
      splitString_total (show Unbordered (ascii ", ") by decide) (by decide) (by decide)
        (show value.length + 2 < 2 ^ 31 - 1 by omega)
    rw [stored] at accepted
    dsimp only at accepted
    rw [split, ok_bind] at accepted
    obtain rfl := Except.ok.inj accepted
    refine ⟨rfl, ?_⟩
    have gzip : (chooseEncoding (first :: others)).toInt = AcceptContentEncoding.kGzip.toInt ↔
        chooseEncoding (first :: others) = .kGzip := by
      cases chooseEncoding (first :: others) <;> decide
    rw [gzip, chooseEncoding_gzip]
    constructor
    · rintro ⟨front, rest, same, absent⟩
      rw [same] at whole clean
      exact ⟨front, rest, congrArg some whole, clean, absent⟩
    · rintro ⟨front, rest, same, clean', absent⟩
      refine ⟨front, rest, ?_, absent⟩
      -- there is one way only to cut the value
      cases items : front ++ ascii "gzip" :: rest with
      | nil => simp at items
      | cons item items' =>
        rw [items] at same clean'
        obtain ⟨rfl, rfl⟩ := pieces_unique (show Unbordered (ascii ", ") by decide) (by decide)
          clean clean' (whole.symm.trans (Option.some.inj same))
        rfl

theorem handleRequest_gzip {ctx after : HttpContext}
    (short : ∀ value, ctx.headers .kAcceptEncoding = some value → value.length < 2 ^ 31 - 3)
    (handled : handleRequest ctx = .ok (HttpStatusCode.kOk.toInt, after)) :
    after.headers = ctx.headers ∧
      (after.contentEncoding = AcceptContentEncoding.kGzip.toInt ↔ AcceptsGzip ctx.headers) := by
  unfold handleRequest at handled
  obtain ⟨words, -, handled⟩ := bind_eq_ok handled
  split at handled
  · split at handled
    · cases handled
    · split at handled
      · obtain ⟨next, accepted, result⟩ := bind_eq_ok handled
        obtain rfl : next = after := (Prod.mk.inj (Except.ok.inj result)).2
        have gzip := fun short => acceptEncoding_gzip short accepted
        exact gzip short
      · cases handled
  · cases handled

/-- What the parser makes of Accept-Encoding. -/
theorem parsed_gzip {message : Bytes} {ctx : HttpContext} {parsed : Parsed}
    (complete : parseMessage handleRequest message ctx = .ok parsed)
    (good : parsed.status = HttpStatusCode.kOk.toInt) :
    parsed.context.contentEncoding = AcceptContentEncoding.kGzip.toInt ↔
      AcceptsGzip parsed.context.headers := by
  rcases parse_cases complete with
    ⟨partly, -⟩ | ⟨bad, -⟩ | ⟨first, others, rest, payload, heads, -, handled⟩
  · rw [good] at partly
    cases partly
  · rw [good] at bad
    cases bad
  · rw [good] at handled
    obtain ⟨same, gzip⟩ := handleRequest_gzip (fun _ => heads.stored_length) handled
    rw [gzip, same]

/-- A compressible file of 3000 octets. -/
def noticeFile : Bytes := List.replicate 3000 97

def notices : World where
  content path := if path = ascii "/srv/a.txt" then some (.file noticeFile) else none
  deflate := List.reverse

def reversing : GZipDrivers.Codec := GZipDrivers.involution List.reverse List.reverse_reverse

theorem notices_compresses : Compresses reversing notices where
  driver octets := by
    obtain ⟨d, returns, made⟩ := GZipDrivers.processFile_returns reversing.deflates octets
    rw [puttingOff_makes made] at returns
    exact returns
  nonempty octets some_ := by simpa [notices] using some_

def getNotices : Registered notices (ascii "/srv/") where
  callbacks method :=
    if method = HttpRequestMethod.kHttpGet.toInt then
      some (handleHttpGet notices (ascii "/srv/")) else none
  get _ called := (Option.some.inj called).symm

def gzipRequest : Buffer :=
  Buffer.fresh.write (ascii "GET /a.txt HTTP/1.1\r\nAccept-Encoding: gzip\r\n\r\n")

end Ladder.Guarantees.FileDownload
