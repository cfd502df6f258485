import Mathlib.Data.List.Forall2
import Ladder.Library.Runs
import Ladder.Source.Codec

/-!
# End-to-end framing of the protobuf codec

The sender's stream is the concatenation of `Encapsulate` over a list of messages,
cut into chunks anywhere. One actor writes the chunks to the buffer, the other one
runs `OnMessage`; every schedule of single Buffer calls is a run. The invariant
relates the unread octets, the chunks still to come and the messages not yet
delivered, for each place inside `Decapsulate` where the reader can stand.
-/
namespace Ladder.Guarantees.CodecFraming
open Ladder.Library Ladder.Source Ladder.Source.Codec

inductive Act where
  | write
  | read
  deriving DecidableEq, Repr

structure Session (pb : Protobuf) (κ : Type) where
  buffer : Buffer
  pending : List Bytes
  reading : Reading pb κ

def start (pb : Protobuf) (κ : Type) (chunks : List Bytes) : Session pb κ :=
  ⟨.fresh, chunks, ⟨.idle, [], []⟩⟩

section
variable (host : Endian) (zlib : Zlib) {pb : Protobuf} {κ : Type} (codec : ProtobufCodec pb κ)

/-- One atomic Buffer call: the next chunk is written, or `OnMessage` proceeds. -/
def step (s : Session pb κ) : Act → Option (Session pb κ)
  | .write =>
    match s.pending with
    | chunk :: rest => some { s with buffer := s.buffer.write chunk, pending := rest }
    | [] => none
  | .read =>
    match onMessage host zlib codec s.reading s.buffer with
    | some (reading, buffer) => some { s with buffer := buffer, reading := reading }
    | none => none

/-- The callback a message belongs to: the one registered for its descriptor, and
the default one for descriptors without registration. -/
def target (message : pb.Message) : Option κ :=
  match codec.callbacks (pb.getDescriptor message) with
  | some entry => entry.callback
  | none => codec.defaultCallback

/-- Octets of the whole packet of a message. -/
def packetSize (message : pb.Message) : Nat :=
  kHeaderLength + (4 + (pb.getTypeName message).length + (pb.serializeAsString message).length)

/-- A message of a generated type, small enough for its length field, for whose
descriptor somebody listens. -/
structure Sendable (message : pb.Message) : Prop where
  generated : Generated pb message
  small : packetSize message < 2 ^ 32
  listener : (target codec message).isSome

/-- The stream of a list of messages. -/
def stream (messages : List pb.Message) : Bytes := messages.flatMap (encapsulate host pb zlib)

/-! ## Single packets -/

theorem composeMessage_length {message : pb.Message} (sendable : Sendable codec message) :
    kHeaderLength + (composeMessage host pb message).length = packetSize message := by
  have small := sendable.small
  simp only [packetSize, kHeaderLength] at small ⊢
  rw [composeMessage_eq host pb message (by omega)]
  simp only [List.length_append, encode32_length]
  omega

theorem encapsulate_length {message : pb.Message} (sendable : Sendable codec message) :
    (encapsulate host pb zlib message).length = packetSize message := by
  rw [encapsulate, frame_length, composeMessage_length host codec sendable]

/-- The length field of a packet, in host representation after `ntohl`. -/
theorem length_field {message : pb.Message} (sendable : Sendable codec message) :
    (ntohl host (decode32 host ((encapsulate host pb zlib message).take 4))).toNat =
      (encapsulate host pb zlib message).length := by
  rw [encapsulate_length host zlib codec sendable, encapsulate, frame_take_four,
    ntohl_decode32 _ _ (encode32_length _ _), decode32_encode32,
    composeMessage_length host codec sendable, UInt32.toNat_ofNat']
  exact Nat.mod_eq_of_lt sendable.small

theorem handleMessage_target {message : pb.Message} {callback : κ}
    (listens : target codec message = some callback) :
    handleMessage codec message = .ok [(callback, message)] := by
  unfold target at listens
  unfold handleMessage
  cases registered : codec.callbacks (pb.getDescriptor message) with
  | some entry =>
    rw [registered] at listens
    simp only [CallbackT.onMessage, listens]
  | none =>
    rw [registered] at listens
    simp only [listens]

/-- A whole packet, once out of the buffer, is exactly one delivery. -/
theorem deliver_packet {message : pb.Message} (sendable : Sendable codec message)
    (r : Reading pb κ) :
    ∃ callback, target codec message = some callback ∧
      unframe host zlib (encapsulate host pb zlib message) =
        .ok (some (composeMessage host pb message)) ∧
      parseAndHandleMessage host codec r (composeMessage host pb message) =
        { reader := .header, handled := r.handled ++ [message],
          invoked := r.invoked ++ [(callback, message)] } := by
  obtain ⟨callback, listens⟩ := Option.isSome_iff_exists.mp sendable.listener
  have small := sendable.small
  simp only [packetSize, kHeaderLength] at small
  have parsed := parseMessage_composeMessage host pb message sendable.generated (by omega)
  exact ⟨callback, listens, unframe_frame host zlib _,
    parseAndHandleMessage_ok host codec r parsed (handleMessage_target codec listens)⟩

/-! ## The invariant -/

/-- What each position inside `Decapsulate` knows about the undelivered messages
and the unread octets. -/
def ReaderOk (undelivered : List pb.Message) (unread : Bytes) : Reader → Prop
  | .idle | .header => True
  | .length => kHeaderLength ≤ unread.length
  | .available length => ∃ message rest, undelivered = message :: rest ∧
      length.toNat = (encapsulate host pb zlib message).length
  | .packet length => ∃ message rest, undelivered = message :: rest ∧
      length.toNat = (encapsulate host pb zlib message).length ∧ length.toNat ≤ unread.length
  | .consume length buf => ∃ message rest, undelivered = message :: rest ∧
      length.toNat = (encapsulate host pb zlib message).length ∧ length.toNat ≤ unread.length ∧
      buf = encapsulate host pb zlib message
  | .fault _ => False

/-- A recorded invocation is the message's own callback, called with the message. -/
def Delivered (call : κ × pb.Message) (message : pb.Message) : Prop :=
  call.2 = message ∧ target codec message = some call.1

structure Inv (messages undelivered : List pb.Message) (s : Session pb κ) : Prop where
  valid : s.buffer.Valid
  room : s.buffer.writeIndex + s.pending.flatten.length < 2 ^ 32
  delivered : s.reading.handled ++ undelivered = messages
  invoked : List.Forall₂ (Delivered codec) s.reading.invoked s.reading.handled
  octets : s.buffer.unread ++ s.pending.flatten = stream host zlib undelivered
  reader : ReaderOk host zlib undelivered s.buffer.unread s.reading.reader

variable {host zlib codec} {messages undelivered : List pb.Message} {s next : Session pb κ}

theorem ReaderOk.mono {unread : Bytes} {reader : Reader}
    (h : ReaderOk host zlib undelivered unread reader) (more : Bytes) :
    ReaderOk host zlib undelivered (unread ++ more) reader := by
  cases reader with
  | idle => trivial
  | header => trivial
  | length =>
    simp only [ReaderOk, List.length_append] at h ⊢
    omega
  | available length => exact h
  | packet length =>
    obtain ⟨message, rest, eq, len, enough⟩ := h
    exact ⟨message, rest, eq, len, by rw [List.length_append]; omega⟩
  | consume length buf =>
    obtain ⟨message, rest, eq, len, enough, taken⟩ := h
    exact ⟨message, rest, eq, len, by rw [List.length_append]; omega, taken⟩
  | fault reason => exact h

theorem inv_write (inv : Inv host zlib codec messages undelivered s)
    (stepped : step host zlib codec s .write = some next) :
    Inv host zlib codec messages undelivered next := by
  cases more : s.pending with
  | nil => simp [step, more] at stepped
  | cons chunk rest =>
    simp only [step, more, Option.some.injEq] at stepped
    subst next
    have room := inv.room
    have octets := inv.octets
    rw [more, List.flatten_cons] at room octets
    rw [List.length_append] at room
    have fits : s.buffer.writeIndex + chunk.length < 2 ^ 32 := by omega
    refine ⟨inv.valid.write_valid fits, ?_, inv.delivered, inv.invoked, ?_, ?_⟩
    · simp only [Buffer.writeIndex_write fits]
      omega
    · simpa only [inv.valid.unread_write fits, List.append_assoc] using octets
    · simpa only [inv.valid.unread_write fits] using inv.reader.mono chunk

/-- With a full header readable there is a next message, and the readable octets
start as its packet does. -/
theorem next_packet (inv : Inv host zlib codec messages undelivered s)
    (sendable : ∀ message ∈ messages, Sendable codec message)
    (full : kHeaderLength ≤ s.buffer.unread.length) :
    ∃ message rest, undelivered = message :: rest ∧ Sendable codec message ∧
      s.buffer.unread.take 4 = (encapsulate host pb zlib message).take 4 := by
  have octets := inv.octets
  simp only [kHeaderLength] at full
  cases hu : undelivered with
  | nil =>
    rw [hu, stream, List.flatMap_nil] at octets
    have empty := (List.append_eq_nil_iff.mp octets).1
    rw [empty] at full
    simp at full
  | cons message rest =>
    have member : message ∈ messages := by
      rw [← inv.delivered, hu]
      simp
    have ok := sendable message member
    have long : 4 ≤ (encapsulate host pb zlib message).length := by
      rw [encapsulate_length host zlib codec ok, packetSize]
      omega
    refine ⟨message, rest, rfl, ok, ?_⟩
    have prefixes := congrArg (List.take 4) octets
    rw [hu, stream, List.flatMap_cons, List.take_append_of_le_length (by omega),
      List.take_append_of_le_length long] at prefixes
    exact prefixes

/-- The octets of a packet that is completely readable. -/
theorem whole_packet {message : pb.Message} {rest : List pb.Message}
    (inv : Inv host zlib codec messages (message :: rest) s)
    (enough : (encapsulate host pb zlib message).length ≤ s.buffer.unread.length) :
    s.buffer.unread.take (encapsulate host pb zlib message).length =
      encapsulate host pb zlib message ∧
      s.buffer.unread.drop (encapsulate host pb zlib message).length ++ s.pending.flatten =
        stream host zlib rest := by
  have octets := inv.octets
  rw [stream, List.flatMap_cons] at octets
  constructor
  · have front := congrArg (List.take (encapsulate host pb zlib message).length) octets
    rwa [List.take_append_of_le_length enough, List.take_left] at front
  · have back := congrArg (List.drop (encapsulate host pb zlib message).length) octets
    rwa [List.drop_append_of_le_length enough, List.drop_left] at back

/-- The last Buffer call of a round hands over exactly the next message. -/
theorem inv_consume {length : UInt32} {buf : Bytes}
    (inv : Inv host zlib codec messages undelivered s)
    (sendable : ∀ message ∈ messages, Sendable codec message)
    (here : s.reading.reader = .consume length buf)
    (stepped : step host zlib codec s .read = some next) :
    ∃ message rest, undelivered = message :: rest ∧ next.reading.reader = .header ∧
      Inv host zlib codec messages rest next := by
  have known := inv.reader
  rw [here] at known
  obtain ⟨message, rest, rfl, len, enough, rfl⟩ := known
  have member : message ∈ messages := by
    rw [← inv.delivered]
    simp
  obtain ⟨callback, listens, unframed, handed⟩ :=
    deliver_packet host zlib codec (sendable message member) s.reading
  obtain ⟨-, remaining⟩ := whole_packet inv (len ▸ enough)
  have narrow : length.toNat < 2 ^ 32 := length.toNat_lt
  simp only [step, onMessage, here, unframed, handed, Option.some.injEq] at stepped
  subst next
  refine ⟨message, rest, rfl, rfl, inv.valid.haveRead_valid narrow, ?_, ?_, ?_, ?_, trivial⟩
  · have := inv.room
    have := s.buffer.writeIndex_haveRead_le length.toNat
    dsimp only
    omega
  · simpa only [List.append_assoc, List.singleton_append] using inv.delivered
  · exact List.rel_append inv.invoked (.cons ⟨rfl, listens⟩ .nil)
  · rw [← len] at remaining
    simpa only [inv.valid.unread_haveRead narrow] using remaining

def Session.standing (s : Session pb κ) (reader : Reader) : Session pb κ :=
  { s with reading := { s.reading with reader := reader } }

/-- Where the calls that only look at the buffer lead. -/
def looked (host : Endian) (s : Session pb κ) : Option Reader :=
  match s.reading.reader with
  | .idle => some .header
  | .header => some (if s.buffer.readableBytes < kHeaderLength then .idle else .length)
  | .length => some (.available (ntohl host (s.buffer.peekUInt32 host)))
  | .available length =>
    some (if s.buffer.readableBytes < length.toNat then .idle else .packet length)
  | .packet length => some (.consume length (s.buffer.peek length.toNat).2)
  | .consume _ _ => none
  | .fault _ => none

theorem step_looked {reader : Reader} (looks : looked host s = some reader) :
    step host zlib codec s .read = some (s.standing reader) := by
  cases here : s.reading.reader with
  | consume length buf => simp [looked, here] at looks
  | fault reason => simp [looked, here] at looks
  | idle =>
    simp only [looked, here, Option.some.injEq] at looks
    simp only [step, onMessage, here, ← looks, Session.standing]
  | header =>
    by_cases short : s.buffer.readableBytes < kHeaderLength
    · simp only [looked, here, if_pos short, Option.some.injEq] at looks
      simp only [step, onMessage, here, if_pos short, ← looks, Session.standing]
    · simp only [looked, here, if_neg short, Option.some.injEq] at looks
      simp only [step, onMessage, here, if_neg short, ← looks, Session.standing]
  | length =>
    simp only [looked, here, Option.some.injEq] at looks
    simp only [step, onMessage, here, ← looks, Session.standing]
  | available length =>
    by_cases short : s.buffer.readableBytes < length.toNat
    · simp only [looked, here, if_pos short, Option.some.injEq] at looks
      simp only [step, onMessage, here, if_pos short, ← looks, Session.standing]
    · simp only [looked, here, if_neg short, Option.some.injEq] at looks
      simp only [step, onMessage, here, if_neg short, ← looks, Session.standing]
  | packet length =>
    simp only [looked, here, Option.some.injEq] at looks
    simp only [step, onMessage, here, ← looks, Session.standing]

/-- Every look keeps the reader's knowledge true. -/
theorem looked_ok {reader : Reader} (inv : Inv host zlib codec messages undelivered s)
    (sendable : ∀ message ∈ messages, Sendable codec message)
    (looks : looked host s = some reader) :
    ReaderOk host zlib undelivered s.buffer.unread reader := by
  have readable := inv.valid.readableBytes_eq
  have known := inv.reader
  unfold looked at looks
  split at looks
  · cases looks
    trivial
  · simp only [Option.some.injEq] at looks
    subst looks
    split
    · trivial
    · rename_i full
      simpa only [readable, ReaderOk, Nat.not_lt] using full
  · rename_i here
    rw [here] at known
    obtain ⟨message, rest, eq, ok, front⟩ := next_packet inv sendable known
    cases looks
    refine ⟨message, rest, eq, ?_⟩
    rw [Buffer.peekUInt32, inv.valid.peek_eq (show 4 < 2 ^ 32 by decide), front]
    exact length_field host zlib codec ok
  · rename_i length here
    rw [here] at known
    obtain ⟨message, rest, eq, len⟩ := known
    simp only [Option.some.injEq] at looks
    subst looks
    split
    · trivial
    · rename_i enough
      exact ⟨message, rest, eq, len, by simpa only [readable, Nat.not_lt] using enough⟩
  · rename_i length here
    rw [here] at known
    obtain ⟨message, rest, rfl, len, enough⟩ := known
    cases looks
    refine ⟨message, rest, rfl, len, enough, ?_⟩
    rw [inv.valid.peek_eq length.toNat_lt, len]
    exact (whole_packet inv (len ▸ enough)).1
  · cases looks
  · cases looks

theorem inv_looked {reader : Reader} (inv : Inv host zlib codec messages undelivered s)
    (sendable : ∀ message ∈ messages, Sendable codec message)
    (looks : looked host s = some reader) :
    Inv host zlib codec messages undelivered (s.standing reader) :=
  have ok := looked_ok inv sendable looks
  ⟨inv.valid, inv.room, inv.delivered, inv.invoked, inv.octets, ok⟩

/-- The two kinds of reader steps. -/
theorem reader_cases (inv : Inv host zlib codec messages undelivered s) :
    (∃ reader, looked host s = some reader) ∨
      ∃ length buf, s.reading.reader = .consume length buf := by
  cases here : s.reading.reader with
  | consume length buf => exact .inr ⟨length, buf, rfl⟩
  | fault reason =>
    have known := inv.reader
    rw [here] at known
    exact known.elim
  | _ => exact .inl ⟨_, by simp only [looked, here]; rfl⟩

/-! ## Whole runs -/

theorem step_keeps_inv (sendable : ∀ message ∈ messages, Sendable codec message) (s : Session pb κ)
    (act : Act) (next : Session pb κ)
    (inv : ∃ undelivered, Inv host zlib codec messages undelivered s)
    (stepped : step host zlib codec s act = some next) :
    ∃ undelivered, Inv host zlib codec messages undelivered next := by
  obtain ⟨undelivered, inv⟩ := inv
  cases act with
  | write => exact ⟨undelivered, inv_write inv stepped⟩
  | read =>
    obtain ⟨reader, looks⟩ | ⟨length, buf, here⟩ := reader_cases inv
    · rw [step_looked looks] at stepped
      cases stepped
      exact ⟨undelivered, inv_looked inv sendable looks⟩
    · obtain ⟨message, rest, -, -, inv'⟩ := inv_consume inv sendable here stepped
      exact ⟨rest, inv'⟩

theorem inv_start {chunks : List Bytes} (cut : chunks.flatten = stream host zlib messages)
    (small : (stream host zlib messages).length < 2 ^ 32) :
    Inv host zlib codec messages messages (start pb κ chunks) := by
  refine ⟨Buffer.valid_fresh, ?_, rfl, .nil, ?_, trivial⟩
  · simpa only [start, Buffer.fresh, cut, Nat.zero_add] using small
  · simpa only [start, Buffer.unread_fresh, List.nil_append] using cut

/-- A look made after the last chunk finds a packet incomplete only when nothing
is left: what is undelivered is then completely readable. -/
theorem looked_idle (inv : Inv host zlib codec messages undelivered s)
    (sendable : ∀ message ∈ messages, Sendable codec message) (written : s.pending = [])
    (looks : looked host s = some .idle) : undelivered = [] := by
  have octets := inv.octets
  have readable := inv.valid.readableBytes_eq
  rw [written, List.flatten_nil, List.append_nil] at octets
  cases hu : undelivered with
  | nil => rfl
  | cons message rest =>
    exfalso
    have ok : Sendable codec message := sendable message (by rw [← inv.delivered, hu]; simp)
    have whole : (encapsulate host pb zlib message).length ≤ s.buffer.unread.length := by
      rw [octets, hu, stream, List.flatMap_cons, List.length_append]
      exact Nat.le_add_right _ _
    have header : kHeaderLength ≤ (encapsulate host pb zlib message).length := by
      rw [encapsulate_length host zlib codec ok, packetSize]
      exact Nat.le_add_right _ _
    have known := inv.reader
    cases here : s.reading.reader with
    | header =>
      have long : ¬ s.buffer.readableBytes < kHeaderLength := by omega
      simp [looked, here, if_neg long] at looks
    | available length =>
      rw [here] at known
      obtain ⟨message', rest', eq, len⟩ := known
      rw [hu] at eq
      cases eq
      have long : ¬ s.buffer.readableBytes < length.toNat := by omega
      simp [looked, here, if_neg long] at looks
    | _ => simp [looked, here] at looks

/-- All chunks are written, and a call that has returned since left nothing over. -/
def Settled (host : Endian) (zlib : Zlib) (codec : ProtobufCodec pb κ) (messages : List pb.Message)
    (s : Session pb κ) : Prop :=
  ∃ undelivered, Inv host zlib codec messages undelivered s ∧ s.pending = [] ∧
    (s.reading.reader = .idle → undelivered = [])

theorem read_settles (sendable : ∀ message ∈ messages, Sendable codec message)
    (inv : Inv host zlib codec messages undelivered s) (written : s.pending = [])
    (stepped : step host zlib codec s .read = some next) :
    Settled host zlib codec messages next := by
  obtain ⟨reader, looks⟩ | ⟨length, buf, here⟩ := reader_cases inv
  · rw [step_looked looks] at stepped
    cases stepped
    refine ⟨undelivered, inv_looked inv sendable looks, written, ?_⟩
    intro idle
    change reader = .idle at idle
    subst reader
    exact looked_idle inv sendable written looks
  · obtain ⟨message, rest, -, atHeader, inv'⟩ := inv_consume inv sendable here stepped
    refine ⟨rest, inv', ?_, fun idle => ?_⟩
    · simp only [step] at stepped
      split at stepped
      · cases stepped
        exact written
      · cases stepped
    · rw [atHeader] at idle
      cases idle

theorem step_keeps_settled (sendable : ∀ message ∈ messages, Sendable codec message)
    (s : Session pb κ) (act : Act) (next : Session pb κ)
    (settled : Settled host zlib codec messages s)
    (stepped : step host zlib codec s act = some next) : Settled host zlib codec messages next := by
  obtain ⟨undelivered, inv, written, -⟩ := settled
  cases act with
  | write => simp [step, written] at stepped
  | read => exact read_settles sendable inv written stepped

/-- Buffer calls still ahead of the current round. -/
def rank : Reader → Nat
  | .idle => 0
  | .consume _ _ => 1
  | .packet _ => 2
  | .available _ => 3
  | .length => 4
  | .header => 5
  | .fault _ => 0

theorem looked_rank {reader : Reader} (looks : looked host s = some reader)
    (busy : s.reading.reader ≠ .idle) : rank reader < rank s.reading.reader := by
  cases here : s.reading.reader with
  | idle => exact absurd here busy
  | header =>
    simp only [looked, here, Option.some.injEq] at looks
    subst looks
    split <;> decide
  | available length =>
    simp only [looked, here, Option.some.injEq] at looks
    subst looks
    split <;> simp [rank]
  | length =>
    simp only [looked, here, Option.some.injEq] at looks
    subst looks
    simp [rank]
  | packet length =>
    simp only [looked, here, Option.some.injEq] at looks
    subst looks
    simp [rank]
  | consume length buf => simp [looked, here] at looks
  | fault reason => simp [looked, here] at looks

/-- The measure of one `OnMessage` call: rounds still possible, then calls left in
the current one. -/
def callsAhead (messages : List pb.Message) (s : Session pb κ) : Nat :=
  6 * (messages.length - s.reading.handled.length) + rank s.reading.reader

variable (host zlib codec) in
theorem consume_enabled {length : UInt32} {buf : Bytes}
    (here : s.reading.reader = .consume length buf) :
    ∃ next, step host zlib codec s .read = some next := by
  simp only [step, onMessage, here]
  split
  · exact ⟨_, rfl⟩
  · rename_i disabled
    split at disabled <;> cases disabled

theorem read_progress (sendable : ∀ message ∈ messages, Sendable codec message)
    (settled : Settled host zlib codec messages s) (busy : s.reading.reader ≠ .idle) :
    ∃ next, step host zlib codec s .read = some next ∧ Settled host zlib codec messages next ∧
      callsAhead messages next < callsAhead messages s := by
  obtain ⟨undelivered, inv, written, -⟩ := settled
  obtain ⟨reader, looks⟩ | ⟨length, buf, here⟩ := reader_cases inv
  · refine ⟨_, step_looked looks, read_settles sendable inv written (step_looked looks), ?_⟩
    have lower := looked_rank looks busy
    simp only [callsAhead, Session.standing]
    omega
  · obtain ⟨next, stepped⟩ := consume_enabled host zlib codec here
    refine ⟨next, stepped, read_settles sendable inv written stepped, ?_⟩
    obtain ⟨message, rest, left, atHeader, inv'⟩ := inv_consume inv sendable here stepped
    have count := congrArg List.length inv.delivered
    have count' := congrArg List.length inv'.delivered
    rw [left] at count
    simp only [List.length_append, List.length_cons] at count count'
    simp only [callsAhead, atHeader, here, rank]
    omega

/-- Once everything is written, `OnMessage` returns after finitely many calls:
every round either ends it or delivers one of finitely many messages. -/
theorem onMessage_returns (sendable : ∀ message ∈ messages, Sendable codec message)
    (settled : Settled host zlib codec messages s) :
    ∃ n final, run (step host zlib codec) s (List.replicate n .read) = some final ∧
      final.reading.reader = .idle := by
  obtain ⟨n, final, reached, idle, -⟩ := run_until (Settled host zlib codec messages)
    (fun s => s.reading.reader = .idle) Act.read (callsAhead messages)
    (fun _ settled busy => read_progress sendable settled busy) s settled
  exact ⟨n, final, reached, idle⟩

variable (host zlib codec) in
/-- For every list of messages, every cut of their stream into chunks and every
schedule of the single Buffer calls: an `OnMessage` call entered after the last
chunk returns, and by then exactly the messages sent were handled, in order, each
by its own callback, and the buffer is empty. -/
theorem codec_end_to_end (messages : List pb.Message) (chunks : List Bytes)
    (sendable : ∀ message ∈ messages, Sendable codec message)
    (small : (stream host zlib messages).length < 2 ^ 32)
    (cut : chunks.flatten = stream host zlib messages)
    (before after : List Act) (called final : Session pb κ)
    (reached : run (step host zlib codec) (start pb κ chunks) before = some called)
    (written : called.pending = [])
    (ends : run (step host zlib codec) called (.read :: after) = some final) :
    (final.reading.reader = .idle →
      final.reading.handled = messages ∧
      List.Forall₂ (Delivered codec) final.reading.invoked messages ∧ final.buffer.empty = true) ∧
    ∃ n returned, run (step host zlib codec) final (List.replicate n .read) = some returned ∧
      returned.reading.reader = .idle := by
  obtain ⟨undelivered, inv⟩ := run_invariant (step_keeps_inv sendable)
    ⟨messages, inv_start cut small⟩ reached
  obtain ⟨first, stepped, rest⟩ := run_cons_some ends
  have settled := run_invariant (step_keeps_settled sendable)
    (read_settles sendable inv written stepped) rest
  refine ⟨fun idle => ?_, onMessage_returns sendable settled⟩
  obtain ⟨remaining, inv', empty, ended⟩ := settled
  have none := ended idle
  subst none
  have delivered := inv'.delivered
  have octets := inv'.octets
  rw [List.append_nil] at delivered
  rw [empty, List.flatten_nil, List.append_nil, stream, List.flatMap_nil] at octets
  refine ⟨delivered, ?_, inv'.valid.empty_iff.mpr octets⟩
  rw [← delivered]
  exact inv'.invoked

end

/-- zlib's CRC-32: reflected polynomial 0xEDB88320, complemented on both ends. -/
def crc32Reference : Zlib where
  crc32
    | _, none => 0
    | crc, some octets =>
      let shift := fun (c : UInt32) (_ : Nat) =>
        if c &&& 1 = 1 then (c >>> 1) ^^^ 0xEDB88320 else c >>> 1
      let update := fun (c : UInt32) (octet : UInt8) =>
        (List.range 8).foldl shift (c ^^^ octet.toUInt32)
      (octets.foldl update (UInt32.ofNat crc ^^^ 0xFFFFFFFF) ^^^ 0xFFFFFFFF).toNat

/-- The name `ladder.TestMessage1` of tests.proto. -/
def testMessage1 : Bytes :=
  [108, 97, 100, 100, 101, 114, 46, 84, 101, 115, 116, 77, 101, 115, 115, 97, 103, 101, 49]

/-- `ladder.TestMessage1` with only its field `id` set, in the proto3 wire format:
a zero field is absent, the tag of field 4 is 0x20. -/
def testMessages : Protobuf where
  Message := Fin 128
  Descriptor := Unit
  getTypeName _ := testMessage1
  getDescriptor _ := ()
  serializeAsString id := if id = 0 then [] else [0x20, UInt8.ofNat id.val]
  findMessageTypeByName name := if name = testMessage1 then some () else none
  newMessage _ := some (0 : Fin 128)
  parseFromString
    | message, [] => some message
    | _, [0x20, id] => if h : id.toNat < 128 then some ⟨id.toNat, h⟩ else none
    | _, _ => none

def testCodec : ProtobufCodec testMessages String := ⟨fun _ => some ⟨some "OnMessage"⟩, none⟩

def testId (id : Fin 128) : testMessages.Message := id

def twoMessages : List testMessages.Message := [testId 9, testId 0]

theorem twoMessages_sendable : ∀ message ∈ twoMessages, Sendable testCodec message := by
  intro message member
  obtain rfl | rfl : message = testId 9 ∨ message = testId 0 := by
    simpa only [twoMessages, List.mem_cons, List.not_mem_nil, or_false] using member
  · exact ⟨⟨rfl, testId 0, rfl, rfl⟩, by decide, rfl⟩
  · exact ⟨⟨rfl, testId 0, rfl, rfl⟩, by decide, rfl⟩

theorem twoMessages_stream_length : (stream .little crc32Reference twoMessages).length = 64 := by
  have nine := encapsulate_length .little crc32Reference testCodec
    (twoMessages_sendable (testId 9) (.head _))
  have zero := encapsulate_length .little crc32Reference testCodec
    (twoMessages_sendable (testId 0) (.tail _ (.head _)))
  rw [stream, twoMessages, List.flatMap_cons, List.flatMap_cons, List.flatMap_nil, List.append_nil,
    List.length_append, nine, zero]
  decide

/-- Two packets in three chunks, the first one cut inside its header, the second
chunk empty: there is a schedule that ends, and it delivers both messages. -/
theorem codec_end_to_end_two_messages :
    ∃ acts final, run (step .little crc32Reference testCodec)
        (start testMessages String [(stream .little crc32Reference twoMessages).take 3, [],
          (stream .little crc32Reference twoMessages).drop 3]) acts = some final ∧
      final.reading.handled = twoMessages ∧ final.buffer.empty = true := by
  have ends := codec_end_to_end .little crc32Reference testCodec twoMessages
    [(stream .little crc32Reference twoMessages).take 3, [],
      (stream .little crc32Reference twoMessages).drop 3]
    twoMessages_sendable (by rw [twoMessages_stream_length]; decide)
    (by simp only [List.flatten_cons, List.flatten_nil, List.append_nil, List.nil_append,
          List.take_append_drop])
    [.write, .write, .write]
  obtain ⟨n, returned, reached, idle⟩ := (ends [] _ _ rfl rfl rfl).2
  obtain ⟨handled, -, empty⟩ :=
    (ends (List.replicate n .read) _ returned rfl rfl (by exact reached)).1 idle
  exact ⟨.write :: .write :: .write :: .read :: List.replicate n .read, returned, reached,
    handled, empty⟩

end Ladder.Guarantees.CodecFraming
