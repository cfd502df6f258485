import Ladder.Library.Runs
import Ladder.Source.Codec

/-!
# The codec on untrusted octets

The peer decides every octet of the read buffer. This file compares one call of
`Decapsulate`, one call of `ParseMessage` and the loop of `OnMessage` with the
grammar of the wire format, stated in big-endian words: a packet is its length, a
checksum and a payload; a message is the length of a type name, the name and a body.
-/
namespace Ladder.Guarantees.UntrustedPackets
open Ladder.Library Ladder.Source Ladder.Source.Codec

/-! ## Packets -/

/-- `be32(8 + |p|) ++ be32(sum) ++ p`: a packet whose length field is correct. -/
def packet (sum : UInt32) (rawData : Bytes) : Bytes :=
  encode32 .big (UInt32.ofNat (kHeaderLength + rawData.length)) ++ (encode32 .big sum ++ rawData)

/-- The big-endian length field in front of the octets. -/
def lengthField (octets : Bytes) : Nat := (decode32 .big (octets.take 4)).toNat

@[simp] theorem packet_length (sum : UInt32) (rawData : Bytes) :
    (packet sum rawData).length = kHeaderLength + rawData.length := by
  simp only [packet, List.length_append, encode32_length, kHeaderLength]
  omega

theorem lengthField_lt (octets : Bytes) : lengthField octets < 2 ^ 32 := UInt32.toNat_lt _

theorem lengthField_packet (sum : UInt32) {rawData : Bytes}
    (small : kHeaderLength + rawData.length < 2 ^ 32) (rest : Bytes) :
    lengthField (packet sum rawData ++ rest) = kHeaderLength + rawData.length := by
  rw [lengthField, packet, List.append_assoc, List.take_left' (encode32_length _ _),
    decode32_encode32, UInt32.toNat_ofNat']
  exact Nat.mod_eq_of_lt small

/-- Octets that are as long as their length field says are a packet. -/
theorem packet_of_lengthField {buf : Bytes} (long : kHeaderLength ≤ buf.length)
    (field : lengthField buf = buf.length) :
    ∃ sum rawData, buf = packet sum rawData := by
  have front : (buf.take 4).length = 4 := by
    simp only [kHeaderLength] at long
    simp only [List.length_take]
    omega
  have middle : ((buf.drop 4).take 4).length = 4 := by
    simp only [kHeaderLength] at long
    simp only [List.length_take, List.length_drop]
    omega
  refine ⟨decode32 .big ((buf.drop 4).take 4), buf.drop kHeaderLength, ?_⟩
  have total : kHeaderLength + (buf.drop kHeaderLength).length = lengthField buf := by
    rw [field, List.length_drop]
    omega
  have split : buf.drop 4 = (buf.drop 4).take 4 ++ buf.drop kHeaderLength := by
    conv_lhs => rw [← List.take_append_drop 4 (buf.drop 4), List.drop_drop]
    rfl
  rw [packet, total, lengthField, UInt32.ofNat_toNat, encode32_decode32 _ _ front,
    encode32_decode32 _ _ middle, ← split, List.take_append_drop]

section
variable (host : Endian) (zlib : Zlib)

/-- Whether the checksum of a packet is right decides what `Decapsulate` makes of it. -/
theorem unframe_packet (sum : UInt32) (rawData : Bytes) :
    unframe host zlib (packet sum rawData) =
      .ok (if sum = checksum zlib rawData then some rawData else none) := by
  have received : ((packet sum rawData).drop 4).take 4 = encode32 .big sum := by
    rw [packet, List.drop_left' (encode32_length _ _), List.take_left' (encode32_length _ _)]
  have body : (packet sum rawData).drop kHeaderLength = rawData := by
    rw [packet, ← List.append_assoc]
    apply List.drop_left'
    simp only [List.length_append, encode32_length, kHeaderLength]
  have long : ¬ (packet sum rawData).length < kHeaderLength := by
    rw [packet_length]
    omega
  have agree : ntohl host (decode32 host (encode32 .big sum)) = sum := by
    rw [ntohl_decode32 _ _ (encode32_length _ _), decode32_encode32]
  simp only [unframe, if_neg long, received, body, agree, ne_eq]
  by_cases right : sum = checksum zlib rawData
  · simp only [right, not_true_eq_false, if_false, if_true]
  · simp only [right, not_false_eq_true, if_false, if_true]

/-! ## Decapsulate -/

/-- `Decapsulate` in terms of the unread octets. -/
theorem decapsulate_eq {b : Buffer} (valid : b.Valid) :
    decapsulate host zlib b =
      if b.unread.length < kHeaderLength ∨ b.unread.length < lengthField b.unread then (.ok none, b)
      else (unframe host zlib (b.unread.take (lengthField b.unread)),
        b.haveRead (lengthField b.unread)) := by
  unfold decapsulate
  rw [valid.readableBytes_eq]
  by_cases short : b.unread.length < kHeaderLength
  · rw [if_pos short, if_pos (.inl short)]
  · have four : (b.unread.take 4).length = 4 := by
      simp only [kHeaderLength] at short
      simp only [List.length_take]
      omega
    have field : (ntohl host (b.peekUInt32 host)).toNat = lengthField b.unread := by
      rw [Buffer.peekUInt32, valid.peek_eq (show 4 < 2 ^ 32 by decide), ntohl_decode32 _ _ four,
        lengthField]
    rw [if_neg short]
    simp only [field, valid.peek_eq (lengthField_lt _)]
    by_cases partly : b.unread.length < lengthField b.unread
    · rw [if_pos partly, if_pos (.inr partly)]
    · rw [if_neg partly, if_neg (by simp only [short, partly, or_self, not_false_eq_true])]

/-- With fewer octets than a header or than the length field asks for, the call
returns false and touches nothing. -/
theorem decapsulate_incomplete {b : Buffer} (valid : b.Valid)
    (incomplete : b.unread.length < kHeaderLength ∨ b.unread.length < lengthField b.unread) :
    decapsulate host zlib b = (.ok none, b) := by
  rw [decapsulate_eq host zlib valid, if_pos incomplete]

/-- A packet at the front of the buffer is consumed whatever its checksum is. -/
theorem decapsulate_packet {b : Buffer} (valid : b.Valid) {sum : UInt32} {rawData rest : Bytes}
    (content : b.unread = packet sum rawData ++ rest) :
    ∃ b' : Buffer, b'.Valid ∧ b'.unread = rest ∧ decapsulate host zlib b =
      (.ok (if sum = checksum zlib rawData then some rawData else none), b') := by
  have total : b.unread.length = kHeaderLength + rawData.length + rest.length := by
    rw [content, List.length_append, packet_length]
  have bound := valid.unread_length_lt
  have small : kHeaderLength + rawData.length < 2 ^ 32 := by omega
  have field : lengthField b.unread = kHeaderLength + rawData.length := by
    rw [content, lengthField_packet _ small]
  have complete : ¬ (b.unread.length < kHeaderLength ∨ b.unread.length < lengthField b.unread) := by
    rw [field]
    omega
  refine ⟨b.haveRead (kHeaderLength + rawData.length), valid.haveRead_valid small, ?_, ?_⟩
  · rw [valid.unread_haveRead small, content, List.drop_left' (packet_length _ _)]
  · rw [decapsulate_eq host zlib valid, if_neg complete, field, content,
      List.take_left' (packet_length _ _), unframe_packet]

/-- A complete packet whose length field is at least `kHeaderLength` is one. -/
theorem packet_in_front {b : Buffer} (long : kHeaderLength ≤ lengthField b.unread)
    (complete : lengthField b.unread ≤ b.unread.length) :
    ∃ sum rawData rest, b.unread = packet sum rawData ++ rest := by
  have size : (b.unread.take (lengthField b.unread)).length = lengthField b.unread := by
    rw [List.length_take]
    omega
  have field : lengthField (b.unread.take (lengthField b.unread)) =
      (b.unread.take (lengthField b.unread)).length := by
    have four : min 4 (lengthField b.unread) = 4 := by
      simp only [kHeaderLength] at long
      omega
    rw [size]
    conv_lhs => rw [lengthField, List.take_take, four]
    rfl
  obtain ⟨sum, rawData, eq⟩ := packet_of_lengthField (long.trans_eq size.symm) field
  exact ⟨sum, rawData, b.unread.drop (lengthField b.unread), by rw [← eq, List.take_append_drop]⟩

/-- A short length field on enough octets leads out of the packet. -/
theorem decapsulate_faults {b : Buffer} (valid : b.Valid)
    (readable : kHeaderLength ≤ b.unread.length) (short : lengthField b.unread < kHeaderLength) :
    (decapsulate host zlib b).1 = .error .outOfRange := by
  have size : (b.unread.take (lengthField b.unread)).length < kHeaderLength := by
    rw [List.length_take]
    omega
  rw [decapsulate_eq host zlib valid, if_neg (by omega), unframe, if_pos size]

/-- `Decapsulate` accepts exactly its frame format on the octets of a buffer. -/
structure DecodesExactly (b : Buffer) : Prop where
  /-- Incomplete input: false, and the buffer as it was. -/
  waits : b.unread.length < kHeaderLength ∨ b.unread.length < lengthField b.unread →
    decapsulate host zlib b = (.ok none, b)
  accepts : ∀ rawData, (decapsulate host zlib b).1 = .ok (some rawData) ↔
    packet (checksum zlib rawData) rawData <+: b.unread
  consumes : ∀ rawData, (decapsulate host zlib b).1 = .ok (some rawData) →
    (decapsulate host zlib b).2.unread = b.unread.drop (kHeaderLength + rawData.length)
  /-- No subtraction underflows and nothing behind the packet is read. -/
  inBounds : ∃ answer, (decapsulate host zlib b).1 = .ok answer
  refuses : lengthField b.unread < kHeaderLength →
    ∀ rawData, (decapsulate host zlib b).1 ≠ .ok (some rawData)

theorem decodesExactly_incomplete {b : Buffer} (valid : b.Valid)
    (incomplete : b.unread.length < kHeaderLength ∨ b.unread.length < lengthField b.unread) :
    DecodesExactly host zlib b := by
  have same := decapsulate_incomplete host zlib valid incomplete
  refine ⟨fun _ => same, ?_, ?_, ⟨none, by rw [same]⟩, ?_⟩
  · intro rawData
    rw [same]
    refine ⟨nofun, ?_⟩
    rintro ⟨rest, content⟩
    have total := congrArg List.length content
    rw [List.length_append, packet_length] at total
    have bound := valid.unread_length_lt
    have small : kHeaderLength + rawData.length < 2 ^ 32 := by omega
    have field := lengthField_packet (checksum zlib rawData) small rest
    rw [content] at field
    omega
  · intro rawData accepted
    rw [same] at accepted
    cases accepted
  · intro _ rawData accepted
    rw [same] at accepted
    cases accepted

theorem decodesExactly_packet {b : Buffer} (valid : b.Valid) {sum : UInt32} {rawData rest : Bytes}
    (content : b.unread = packet sum rawData ++ rest) : DecodesExactly host zlib b := by
  obtain ⟨b', -, left, result⟩ := decapsulate_packet host zlib valid content
  have bound := valid.unread_length_lt
  have total := congrArg List.length content
  rw [List.length_append, packet_length] at total
  have field : lengthField b.unread = kHeaderLength + rawData.length := by
    rw [content, lengthField_packet _ (by omega)]
  have accepted : ∀ p, (decapsulate host zlib b).1 = .ok (some p) ↔
      sum = checksum zlib rawData ∧ rawData = p := by
    intro p
    rw [result]
    by_cases right : sum = checksum zlib rawData
    · simp [right]
    · simp [right]
  refine ⟨fun incomplete => absurd incomplete (by omega), ?_, ?_, ⟨_, by rw [result]⟩, ?_⟩
  · intro p
    rw [accepted]
    constructor
    · rintro ⟨right, rfl⟩
      exact ⟨rest, by rw [content, right]⟩
    · rintro ⟨rest', front⟩
      -- the two length fields agree, so the two packets are cut at the same place
      have total' := congrArg List.length front
      rw [List.length_append, packet_length] at total'
      have small : kHeaderLength + p.length < 2 ^ 32 := by omega
      have field' := lengthField_packet (checksum zlib p) small rest'
      rw [front, field] at field'
      have same := List.append_inj (front.trans content)
        (by rw [packet_length, packet_length]; omega)
      have words := List.append_inj same.1 (by rw [encode32_length, encode32_length])
      have sums := List.append_inj words.2 (by rw [encode32_length, encode32_length])
      have right := congrArg (decode32 .big) sums.1
      rw [decode32_encode32, decode32_encode32] at right
      exact ⟨by rw [← right, sums.2], sums.2.symm⟩
  · intro p answer
    obtain ⟨-, rfl⟩ := (accepted p).mp answer
    rw [result, content, List.drop_left' (packet_length _ _)]
    exact left
  · intro short
    omega

/-- `Decapsulate` accepts exactly the frames, and stays inside the packet it peeked,
unless a complete header announces a packet shorter than a header. -/
theorem decapsulate_exact_iff (b : Buffer) (valid : b.Valid) :
    DecodesExactly host zlib b ↔
      b.unread.length < kHeaderLength ∨ kHeaderLength ≤ lengthField b.unread := by
  constructor
  · intro exact
    by_contra outside
    have faults := decapsulate_faults host zlib valid (by omega) (by omega)
    obtain ⟨answer, inBounds⟩ := exact.inBounds
    rw [faults] at inBounds
    cases inBounds
  · intro condition
    by_cases incomplete : b.unread.length < kHeaderLength ∨ b.unread.length < lengthField b.unread
    · exact decodesExactly_incomplete host zlib valid incomplete
    · have long : kHeaderLength ≤ lengthField b.unread := by omega
      obtain ⟨sum, rawData, rest, content⟩ := packet_in_front long (by omega)
      exact decodesExactly_packet host zlib valid content

end

/-- A checksum that tells payloads of different length apart. -/
def lengthSum : Zlib := ⟨fun _ octets => (octets.getD []).length⟩

/-- A frame of two octets with one octet of the next packet behind it. -/
def frameAndMore : Buffer := Buffer.fresh.write [0, 0, 0, 10, 0, 0, 0, 2, 65, 66, 0]

theorem frameAndMore_valid : frameAndMore.Valid := ⟨by decide, by decide, by decide⟩

theorem decapsulate_exact_iff_frameAndMore :
    frameAndMore.Valid ∧ DecodesExactly .little lengthSum frameAndMore :=
  ⟨frameAndMore_valid,
    (decapsulate_exact_iff .little lengthSum frameAndMore frameAndMore_valid).mpr
      (.inr (by decide))⟩

/-- Eight octets with the length field 0. -/
def zeroLength : Buffer := Buffer.fresh.write [0, 0, 0, 0, 0, 0, 0, 0]

/-- The packet taken out is empty, and its checksum is sought behind its end. -/
theorem decapsulate_zero_length :
    zeroLength.Valid ∧ (decapsulate .little lengthSum zeroLength).1 = .error .outOfRange ∧
      ¬ DecodesExactly .little lengthSum zeroLength := by
  have faults : (decapsulate .little lengthSum zeroLength).1 = .error .outOfRange := by decide
  refine ⟨⟨by decide, by decide, by decide⟩, faults, fun exact => ?_⟩
  obtain ⟨answer, inBounds⟩ := exact.inBounds
  rw [faults] at inBounds
  cases inBounds

/-! ## OnMessage

`messageLoop` and the Buffer calls of `onMessage` are the same loop; then the loop is
run over a buffer of whole packets. -/

section
variable (host : Endian) (zlib : Zlib)

theorem messageLoop_succ (handle : List Bytes → Bytes → Except Fault Unit) (fuel : Nat)
    (called : List Bytes) (b : Buffer) :
    messageLoop host zlib handle (fuel + 1) called b =
      afterPacket handle (messageLoop host zlib handle fuel) called (decapsulate host zlib b) := rfl

section Steps
variable {pb : Protobuf} {κ : Type} (codec : ProtobufCodec pb κ)

/-- `OnMessage` proceeds and nobody else touches the buffer. -/
def proceed (s : Reading pb κ × Buffer) (_ : Unit) : Option (Reading pb κ × Buffer) :=
  onMessage host zlib codec s.1 s.2

/-- `ParseAndHandleMessage` of a protobuf codec, as far as it throws. -/
def handler (_ : List Bytes) (rawData : Bytes) : Except Fault Unit :=
  match parseMessage host pb rawData with
  | .error reason => .error reason
  | .ok none => .ok ()
  | .ok (some message) => (handleMessage codec message).map fun _ => ()

/-- Where the reader stands after a whole call of `Decapsulate`, and after
`ParseAndHandleMessage` if there is a packet. -/
def afterDecapsulate (r : Reading pb κ) : Except Fault (Option Bytes) → Reading pb κ
  | .error reason => { r with reader := .fault reason }
  | .ok none => { r with reader := .idle }
  | .ok (some rawData) => parseAndHandleMessage host codec r rawData

/-- The last Buffer call of a round, with the local work behind it. -/
theorem proceed_consume (r : Reading pb κ) (b : Buffer) (length : UInt32) (buf : Bytes) :
    proceed host zlib codec ({ r with reader := .consume length buf }, b) () =
      some (afterDecapsulate host codec r (unframe host zlib buf), b.haveRead length.toNat) := by
  simp only [proceed, onMessage]
  cases unframe host zlib buf with
  | error reason => rfl
  | ok answer =>
    cases answer with
    | none => rfl
    | some rawData =>
      simp only [afterDecapsulate, parseAndHandleMessage]

/-- The single Buffer calls of a round add up to `Decapsulate`. -/
theorem proceed_decapsulate (r : Reading pb κ) (b : Buffer) (atHead : r.reader = .header) :
    Reaches (proceed host zlib codec) (r, b)
      (afterDecapsulate host codec r (decapsulate host zlib b).1, (decapsulate host zlib b).2) := by
  obtain ⟨length, field⟩ : ∃ length, length = ntohl host (b.peekUInt32 host) := ⟨_, rfl⟩
  by_cases short : b.readableBytes < kHeaderLength
  · have returns : proceed host zlib codec (r, b) () = some ({ r with reader := .idle }, b) := by
      simp only [proceed, onMessage, atHead, if_pos short]
    have result : decapsulate host zlib b = (.ok none, b) := by
      simp only [decapsulate, if_pos short]
    rw [result]
    exact .head () returns (.refl _)
  have looks : proceed host zlib codec (r, b) () = some ({ r with reader := .length }, b) := by
    simp only [proceed, onMessage, atHead, if_neg short]
  have peeks : proceed host zlib codec ({ r with reader := .length }, b) () =
      some ({ r with reader := .available length }, b) := by
    simp only [proceed, onMessage, field]
  apply Reaches.head () looks
  apply Reaches.head () peeks
  by_cases partly : b.readableBytes < length.toNat
  · have returns : proceed host zlib codec ({ r with reader := .available length }, b) () =
        some ({ r with reader := .idle }, b) := by
      simp only [proceed, onMessage, if_pos partly]
    have result : decapsulate host zlib b = (.ok none, b) := by
      simp only [decapsulate, if_neg short, ← field, if_pos partly]
    rw [result]
    exact .head () returns (.refl _)
  · have goes : proceed host zlib codec ({ r with reader := .available length }, b) () =
        some ({ r with reader := .packet length }, b) := by
      simp only [proceed, onMessage, if_neg partly]
    have takes : proceed host zlib codec ({ r with reader := .packet length }, b) () =
        some ({ r with reader := .consume length (b.peek length.toNat).2 }, b) := by
      simp only [proceed, onMessage]
    have ends := proceed_consume host zlib codec r b length (b.peek length.toNat).2
    have result : decapsulate host zlib b =
        (unframe host zlib (b.peek length.toNat).2, b.haveRead length.toNat) := by
      simp only [decapsulate, if_neg short, ← field, if_neg partly]
    rw [result]
    exact .head () goes (.head () takes (.head () ends (.refl _)))

/-- A `ParseAndHandleMessage` that does not throw is back at the head of the loop. -/
theorem parseAndHandleMessage_header {called : List Bytes} {rawData : Bytes}
    (returns : handler host codec called rawData = .ok ()) (r : Reading pb κ) :
    (parseAndHandleMessage host codec r rawData).reader = .header := by
  rw [handler] at returns
  rw [parseAndHandleMessage]
  cases parsed : parseMessage host pb rawData with
  | error reason =>
    rw [parsed] at returns
    cases returns
  | ok answer =>
    cases answer with
    | none => rfl
    | some message =>
      rw [parsed] at returns
      cases handled : handleMessage codec message with
      | error reason =>
        simp only [handled] at returns
        cases returns
      | ok calls => simp only [handled]

/-- The loop of whole calls is the loop of single Buffer calls. -/
theorem messageLoop_steps {fuel : Nat} {called calls : List Bytes} {b b' : Buffer}
    (returns : messageLoop host zlib (handler host codec) fuel called b = some (.ok (calls, b')))
    (r : Reading pb κ) (atHead : r.reader = .header) :
    ∃ packets, calls = called ++ packets ∧ Reaches (proceed host zlib codec) (r, b)
      ({ packets.foldl (parseAndHandleMessage host codec) r with reader := .idle }, b') := by
  induction fuel generalizing called b r with
  | zero => cases returns
  | succ fuel ih =>
    have round := proceed_decapsulate host zlib codec r b atHead
    rw [messageLoop_succ] at returns
    obtain ⟨⟨answer, after⟩, result⟩ : ∃ result, decapsulate host zlib b = result := ⟨_, rfl⟩
    rw [result] at returns round
    match answer with
    | .error reason => cases returns
    | .ok none =>
      cases returns
      exact ⟨[], (List.append_nil _).symm, round⟩
    | .ok (some rawData) =>
      simp only [afterPacket] at returns
      cases handled : handler host codec called rawData with
      | error reason =>
        rw [handled] at returns
        cases returns
      | ok done =>
        rw [handled] at returns
        obtain ⟨packets, eq, rest⟩ :=
          ih returns _ (parseAndHandleMessage_header host codec handled r)
        exact ⟨rawData :: packets, by rw [eq, List.append_assoc, List.singleton_append],
          round.trans rest⟩

end Steps

/-- A packet whose length field is correct; its checksum need not be. -/
structure Packet where
  sum : UInt32
  rawData : Bytes
  deriving DecidableEq, Repr

def Packet.octets (p : Packet) : Bytes := packet p.sum p.rawData

/-- The checksum is right. -/
def Packet.right (p : Packet) : Bool := p.sum == checksum zlib p.rawData

/-- The start of a packet, or nothing. -/
def Incomplete (rest : Bytes) : Prop := rest.length < kHeaderLength ∨ rest.length < lengthField rest

/-- `ParseAndHandleMessage` for one packet after the other, until it throws. -/
def handleAll (handle : List Bytes → Bytes → Except Fault Unit) :
    List Bytes → List Bytes → Except Fault (List Bytes)
  | called, [] => .ok called
  | called, rawData :: rest =>
    match handle called rawData with
    | .error reason => .error reason
    | .ok () => handleAll handle (called ++ [rawData]) rest

theorem handleAll_called {handle : List Bytes → Bytes → Except Fault Unit}
    {called rest calls : List Bytes}
    (returns : handleAll handle called rest = .ok calls) : calls = called ++ rest := by
  induction rest generalizing called with
  | nil =>
    cases returns
    rw [List.append_nil]
  | cons rawData rest ih =>
    unfold handleAll at returns
    split at returns
    · cases returns
    · rw [ih returns, List.append_assoc, List.singleton_append]

theorem handleAll_returns (handle : List Bytes → Bytes → Except Fault Unit) (rest : List Bytes)
    (quiet : ∀ called, ∀ rawData ∈ rest, handle called rawData = .ok ()) (called : List Bytes) :
    ∃ calls, handleAll handle called rest = .ok calls := by
  induction rest generalizing called with
  | nil => exact ⟨called, rfl⟩
  | cons rawData rest ih =>
    unfold handleAll
    rw [quiet called rawData List.mem_cons_self]
    exact ih (fun called rawData member => quiet called rawData (List.mem_cons_of_mem _ member)) _

/-- Packets behind the first one with a wrong checksum. -/
def leftBehind (packets : List Packet) : List Packet := (packets.dropWhile (·.right zlib)).tail

/-- The loop hands over the packets in front of the first wrong checksum, swallows
that one and stops. -/
theorem messageLoop_packets (handle : List Bytes → Bytes → Except Fault Unit)
    (packets : List Packet) {rest : Bytes} (incomplete : Incomplete rest) {fuel : Nat}
    (enough : packets.length < fuel) (called : List Bytes) {b : Buffer} (valid : b.Valid)
    (content : b.unread = packets.flatMap Packet.octets ++ rest) :
    ∃ b' : Buffer, b'.unread = (leftBehind zlib packets).flatMap Packet.octets ++ rest ∧
      messageLoop host zlib handle fuel called b =
        some ((handleAll handle called ((packets.takeWhile (·.right zlib)).map Packet.rawData)).map
          (·, b')) := by
  induction packets generalizing fuel called b with
  | nil =>
    obtain ⟨fuel, rfl⟩ := Nat.exists_eq_succ_of_ne_zero (Nat.ne_of_gt (Nat.zero_lt_of_lt enough))
    rw [List.flatMap_nil, List.nil_append] at content
    rw [Incomplete, ← content] at incomplete
    refine ⟨b, content, ?_⟩
    rw [messageLoop_succ, decapsulate_incomplete host zlib valid incomplete]
    rfl
  | cons p packets ih =>
    obtain ⟨fuel, rfl⟩ := Nat.exists_eq_succ_of_ne_zero (Nat.ne_of_gt (Nat.zero_lt_of_lt enough))
    rw [List.length_cons, Nat.succ_lt_succ_iff] at enough
    rw [List.flatMap_cons, List.append_assoc] at content
    obtain ⟨b', valid', left, result⟩ := decapsulate_packet host zlib valid content
    by_cases right : p.sum = checksum zlib p.rawData
    · have accepted : p.right zlib = true := beq_iff_eq.mpr right
      rw [if_pos right] at result
      have behind : leftBehind zlib (p :: packets) = leftBehind zlib packets := by
        simp only [leftBehind, List.dropWhile_cons_of_pos accepted]
      rw [messageLoop_succ, result, behind, List.takeWhile_cons_of_pos accepted, List.map_cons]
      simp only [afterPacket, handleAll]
      cases handle called p.rawData with
      | error reason => exact ⟨_, (ih enough called valid' left).choose_spec.1, rfl⟩
      | ok done => exact ih enough (called ++ [p.rawData]) valid' left
    · have refused : ¬ p.right zlib = true := fun accepted => right (beq_iff_eq.mp accepted)
      rw [if_neg right] at result
      refine ⟨b', ?_, ?_⟩
      · rw [leftBehind, List.dropWhile_cons_of_neg refused]
        exact left
      · rw [messageLoop_succ, result, List.takeWhile_cons_of_neg refused]
        rfl

/-- Nothing is left behind exactly when a wrong checksum comes last. -/
theorem leftBehind_eq_nil_iff (packets : List Packet) :
    leftBehind zlib packets = [] ↔ ∀ p ∈ packets.dropLast, p.right zlib = true := by
  induction packets with
  | nil => simp [leftBehind]
  | cons p packets ih =>
    by_cases right : p.right zlib = true
    · have behind : leftBehind zlib (p :: packets) = leftBehind zlib packets := by
        simp only [leftBehind, List.dropWhile_cons_of_pos right]
      rw [behind, ih]
      cases packets with
      | nil => simp
      | cons next packets => simp [right]
    · rw [leftBehind, List.dropWhile_cons_of_neg right, List.tail_cons]
      cases packets with
      | nil => simp
      | cons next packets => simp [right]

theorem takeWhile_eq_filter {packets : List Packet} (nothing : leftBehind zlib packets = []) :
    packets.takeWhile (·.right zlib) = packets.filter (·.right zlib) := by
  induction packets with
  | nil => rfl
  | cons p packets ih =>
    by_cases right : p.right zlib = true
    · rw [leftBehind, List.dropWhile_cons_of_pos right] at nothing
      rw [List.takeWhile_cons_of_pos right, List.filter_cons_of_pos right, ih nothing]
    · rw [leftBehind, List.dropWhile_cons_of_neg right, List.tail_cons] at nothing
      rw [List.takeWhile_cons_of_neg right, List.filter_cons_of_neg right, nothing, List.filter_nil]

theorem length_le_octets (packets : List Packet) :
    packets.length ≤ (packets.flatMap Packet.octets).length := by
  induction packets with
  | nil => exact Nat.le_refl 0
  | cons p packets ih =>
    rw [List.flatMap_cons, List.length_append, Packet.octets, packet_length, List.length_cons,
      kHeaderLength]
    omega

/-- `OnMessage` ends, and when it returns it has handled every packet with a right
checksum and left the incomplete rest only, exactly if no packet follows one with a
wrong checksum. -/
theorem onMessage_leaves_rest_iff (handle : List Bytes → Bytes → Except Fault Unit)
    (packets : List Packet) (rest : Bytes) (incomplete : Incomplete rest) (b : Buffer)
    (valid : b.Valid) (content : b.unread = packets.flatMap Packet.octets ++ rest) :
    (∃ outcome, onMessageAlone host zlib handle b = some outcome) ∧
      ((∀ called, ∀ p ∈ packets, handle called p.rawData = .ok ()) →
        ∃ calls b', onMessageAlone host zlib handle b = some (.ok (calls, b'))) ∧
      ∀ calls b', onMessageAlone host zlib handle b = some (.ok (calls, b')) →
        ((b'.unread = rest ∧ calls = (packets.filter (·.right zlib)).map Packet.rawData) ↔
          ∀ p ∈ packets.dropLast, p.right zlib = true) := by
  have enough : packets.length < b.readableBytes + 1 := by
    have := length_le_octets packets
    rw [valid.readableBytes_eq, content, List.length_append]
    omega
  obtain ⟨after, left, result⟩ :=
    messageLoop_packets host zlib handle packets incomplete enough [] valid content
  rw [← onMessageAlone] at result
  refine ⟨⟨_, result⟩, ?_, ?_⟩
  · intro quiet
    obtain ⟨calls, handled⟩ := handleAll_returns handle
      ((packets.takeWhile (·.right zlib)).map Packet.rawData) (by
        intro called rawData member
        obtain ⟨p, inFront, rfl⟩ := List.mem_map.mp member
        exact quiet called p (List.takeWhile_prefix _ |>.subset inFront)) []
    rw [handled] at result
    exact ⟨calls, after, result⟩
  · intro calls b' returns
    rw [result] at returns
    cases handled : handleAll handle [] ((packets.takeWhile (·.right zlib)).map Packet.rawData) with
    | error reason =>
      rw [handled] at returns
      cases returns
    | ok called =>
      rw [handled] at returns
      cases returns
      rw [handleAll_called handled, List.nil_append, left, ← leftBehind_eq_nil_iff]
      constructor
      · rintro ⟨nothing, -⟩
        have sizes := congrArg List.length nothing
        rw [List.length_append] at sizes
        have none := length_le_octets (leftBehind zlib packets)
        exact List.eq_nil_of_length_eq_zero (by omega)
      · intro nothing
        rw [nothing, takeWhile_eq_filter zlib nothing]
        exact ⟨rfl, rfl⟩

end

/-- Two frames and a corrupt packet behind them, then the start of a packet. -/
def corruptLast : List Packet := [⟨1, [65]⟩, ⟨2, [66, 67]⟩, ⟨7, [68]⟩]

theorem onMessage_leaves_rest_iff_corruptLast :
    ∃ calls b', onMessageAlone .little lengthSum (fun _ _ => .ok ())
        (Buffer.fresh.write (corruptLast.flatMap Packet.octets ++ [0, 0])) =
          some (.ok (calls, b')) ∧
      b'.unread = [0, 0] ∧ calls = [[65], [66, 67]] := by
  have law := onMessage_leaves_rest_iff .little lengthSum (fun _ _ => .ok ()) corruptLast [0, 0]
    (.inl (by decide)) (Buffer.fresh.write (corruptLast.flatMap Packet.octets ++ [0, 0]))
    ⟨by decide, by decide, by decide⟩ (by decide)
  obtain ⟨calls, b', returns⟩ := law.2.1 (fun _ _ _ => rfl)
  obtain ⟨left, called⟩ := (law.2.2 calls b' returns).mpr (by decide)
  exact ⟨calls, b', returns, left, called.trans (by decide)⟩

/-- A corrupt packet in front of a frame. -/
def corruptFirst : List Packet := [⟨7, [65]⟩, ⟨1, [66]⟩]

/-- The frame behind the corrupt packet stays in the buffer, complete. -/
theorem onMessage_leaves_frame :
    (onMessageAlone .little lengthSum (fun _ _ => .ok ())
        (Buffer.fresh.write (corruptFirst.flatMap Packet.octets))).map
          (fun outcome => outcome.map fun result => (result.1, result.2.unread)) =
      some (.ok ([], packet (checksum lengthSum [66]) [66])) := by
  decide +kernel

/-! ## ParseMessage -/

section
variable (host : Endian) (pb : Protobuf)

/-- `be32(|t|) ++ t ++ b` with a type name the pool knows and a body its type accepts. -/
def Grammar (packet : Bytes) (message : pb.Message) : Prop :=
  ∃ name body prototype, name.length < 2 ^ 32 ∧
    packet = encode32 .big (UInt32.ofNat name.length) ++ (name ++ body) ∧
    createMessage pb name = some prototype ∧ pb.parseFromString prototype body = some message

/-- The name-length field leaves one way to cut a packet. -/
theorem cut_iff (packet name body : Bytes) :
    name.length < 2 ^ 32 ∧ packet = encode32 .big (UInt32.ofNat name.length) ++ (name ++ body) ↔
      4 + lengthField packet ≤ packet.length ∧ name = (packet.drop 4).take (lengthField packet) ∧
        body = packet.drop (4 + lengthField packet) := by
  constructor
  · rintro ⟨small, rfl⟩
    have four := encode32_length .big (UInt32.ofNat name.length)
    have field : lengthField (encode32 .big (UInt32.ofNat name.length) ++ (name ++ body)) =
        name.length := by
      rw [lengthField, List.take_left' four, decode32_encode32, UInt32.toNat_ofNat']
      exact Nat.mod_eq_of_lt small
    rw [field, ← List.drop_drop, List.drop_left' four, List.take_left, List.drop_left,
      List.length_append, four, List.length_append]
    exact ⟨by omega, rfl, rfl⟩
  · rintro ⟨long, rfl, rfl⟩
    have four : (packet.take 4).length = 4 := by
      rw [List.length_take]
      omega
    have size : ((packet.drop 4).take (lengthField packet)).length = lengthField packet := by
      rw [List.length_take, List.length_drop]
      omega
    refine ⟨size.trans_lt (lengthField_lt packet), ?_⟩
    rw [size, ← List.drop_drop, List.take_append_drop, lengthField, UInt32.ofNat_toNat,
      encode32_decode32 _ _ four, List.take_append_drop]

theorem grammar_iff (packet : Bytes) (message : pb.Message) :
    Grammar pb packet message ↔ 4 + lengthField packet ≤ packet.length ∧
      ∃ prototype, createMessage pb ((packet.drop 4).take (lengthField packet)) = some prototype ∧
        pb.parseFromString prototype (packet.drop (4 + lengthField packet)) = some message := by
  constructor
  · rintro ⟨name, body, prototype, small, eq, created, parsed⟩
    obtain ⟨long, rfl, rfl⟩ := (cut_iff packet name body).mp ⟨small, eq⟩
    exact ⟨long, prototype, created, parsed⟩
  · rintro ⟨long, prototype, created, parsed⟩
    obtain ⟨small, eq⟩ := (cut_iff packet _ _).mpr ⟨long, rfl, rfl⟩
    exact ⟨_, _, prototype, small, eq, created, parsed⟩

/-- `ParseMessage` in terms of the big-endian name-length field. -/
theorem parseMessage_eq {packet : Bytes} (long : 4 ≤ packet.length) :
    parseMessage host pb packet =
      if packet.length < u32 (lengthField packet + kMinMessageLength) then .ok none
      else
        match createMessage pb ((packet.drop 4).take (lengthField packet)) with
        | none => .ok none
        | some prototype =>
          if packet.length < 4 + lengthField packet then .error .outOfRange
          else .ok (pb.parseFromString prototype ((packet.drop (4 + lengthField packet)).take
            (u32 (packet.length + 2 ^ 64 - kMinMessageLength - lengthField packet)))) := by
  have four : (packet.take 4).length = 4 := by
    rw [List.length_take]
    omega
  have field : (ntohl host (decode32 host (packet.take 4))).toNat = lengthField packet := by
    rw [ntohl_decode32 _ _ four, lengthField]
  have enough : ¬ packet.length < kMinMessageLength := by
    rw [kMinMessageLength]
    omega
  rw [← field]
  exact if_neg enough

/-- `ParseMessage` accepts exactly its grammar, and returns. -/
structure ParsesExactly (packet : Bytes) : Prop where
  returns : ∃ answer, parseMessage host pb packet = .ok answer
  accepts : ∀ message, parseMessage host pb packet = .ok (some message) ↔ Grammar pb packet message
  refuses : 4 ≤ packet.length → packet.length - 4 < lengthField packet →
    parseMessage host pb packet = .ok none

/-- Adding `kMinMessageLength` to the field wraps around, although the packet is too
short for it, and the rest of the packet is a type name. -/
def WrapsOntoName (packet : Bytes) : Prop :=
  4 ≤ packet.length ∧ packet.length < 4 + lengthField packet ∧
    2 ^ 32 ≤ lengthField packet + kMinMessageLength ∧ (createMessage pb (packet.drop 4)).isSome

/-- A known type name is followed by 2^32 octets or more. -/
def LongBody (packet : Bytes) : Prop :=
  4 + lengthField packet + 2 ^ 32 ≤ packet.length ∧
    (createMessage pb ((packet.drop 4).take (lengthField packet))).isSome

/-- The same pool of types with another `ParseFromString`. -/
def reparsing (parse : pb.Message → Bytes → Option pb.Message) : Protobuf :=
  { pb with parseFromString := parse }

theorem createMessage_reparsing (parse : pb.Message → Bytes → Option pb.Message) (name : Bytes) :
    createMessage (reparsing pb parse) name = createMessage pb name := by
  simp only [createMessage, reparsing]
  cases pb.findMessageTypeByName name with
  | none => rfl
  | some descriptor => rfl

theorem wrapsOntoName_reparsing (parse : pb.Message → Bytes → Option pb.Message) (packet : Bytes) :
    WrapsOntoName (reparsing pb parse) packet ↔ WrapsOntoName pb packet := by
  unfold WrapsOntoName
  rw [createMessage_reparsing]
  exact Iff.rfl

theorem longBody_reparsing (parse : pb.Message → Bytes → Option pb.Message) (packet : Bytes) :
    LongBody (reparsing pb parse) packet ↔ LongBody pb packet := by
  unfold LongBody
  rw [createMessage_reparsing]
  exact Iff.rfl

theorem parsesExactly_of_none {packet : Bytes} (refused : parseMessage host pb packet = .ok none)
    (outside : ∀ message, ¬ Grammar pb packet message) : ParsesExactly host pb packet := by
  refine ⟨⟨none, refused⟩, fun message => ?_, fun _ _ => refused⟩
  rw [refused]
  exact ⟨nofun, fun inside => absurd inside (outside message)⟩

/-- A packet that is too short for its field is refused, unless the sum wraps. -/
theorem parseMessage_refuses {packet : Bytes} (long : 4 ≤ packet.length)
    (short : packet.length < 4 + lengthField packet) (unwrapped : ¬ WrapsOntoName pb packet) :
    parseMessage host pb packet = .ok none := by
  rw [parseMessage_eq host pb long]
  by_cases check : packet.length < u32 (lengthField packet + kMinMessageLength)
  · rw [if_pos check]
  · have wraps : 2 ^ 32 ≤ lengthField packet + kMinMessageLength := by
      by_contra fits
      rw [u32, Nat.mod_eq_of_lt (by omega), kMinMessageLength] at check
      omega
    have name : (packet.drop 4).take (lengthField packet) = packet.drop 4 := by
      apply List.take_of_length_le
      rw [List.length_drop]
      omega
    have unknown : createMessage pb (packet.drop 4) = none := by
      by_contra known
      exact unwrapped ⟨long, short, wraps, Option.isSome_iff_ne_none.mpr known⟩
    rw [if_neg check, name, unknown]

/-- On a packet long enough for its field the check passes, and what is parsed is the
body, cut to its length modulo 2^32. -/
theorem parseMessage_cut {packet : Bytes} (long : 4 + lengthField packet ≤ packet.length) :
    parseMessage host pb packet =
      match createMessage pb ((packet.drop 4).take (lengthField packet)) with
      | none => .ok none
      | some prototype => .ok (pb.parseFromString prototype
          ((packet.drop (4 + lengthField packet)).take
            ((packet.drop (4 + lengthField packet)).length % 2 ^ 32))) := by
  have check : ¬ packet.length < u32 (lengthField packet + kMinMessageLength) := by
    have := Nat.mod_le (lengthField packet + kMinMessageLength) (2 ^ 32)
    rw [u32]
    simp only [kMinMessageLength] at this ⊢
    omega
  have size : u32 (packet.length + 2 ^ 64 - kMinMessageLength - lengthField packet) =
      (packet.drop (4 + lengthField packet)).length % 2 ^ 32 := by
    rw [u32, kMinMessageLength, List.length_drop]
    omega
  rw [parseMessage_eq host pb (by omega), if_neg check, size]
  simp only [if_neg (Nat.not_lt.mpr long)]

theorem parsesExactly_of_condition {packet : Bytes} (unwrapped : ¬ WrapsOntoName pb packet)
    (bounded : ¬ LongBody pb packet) : ParsesExactly host pb packet := by
  by_cases header : 4 ≤ packet.length
  · by_cases long : 4 + lengthField packet ≤ packet.length
    · have parsed := parseMessage_cut host pb long
      cases created : createMessage pb ((packet.drop 4).take (lengthField packet)) with
      | none =>
        rw [created] at parsed
        apply parsesExactly_of_none host pb parsed
        intro message inside
        obtain ⟨-, prototype, known, -⟩ := (grammar_iff pb packet message).mp inside
        rw [created] at known
        cases known
      | some prototype =>
        have small : (packet.drop (4 + lengthField packet)).length < 2 ^ 32 := by
          by_contra large
          rw [List.length_drop] at large
          exact bounded ⟨by omega, by rw [created]; rfl⟩
        rw [created, Nat.mod_eq_of_lt small] at parsed
        simp only [List.take_length] at parsed
        refine ⟨⟨_, parsed⟩, fun message => ?_, fun _ short => absurd short (by omega)⟩
        rw [grammar_iff, parsed, Except.ok.injEq, created]
        constructor
        · exact fun accepted => ⟨long, prototype, rfl, accepted⟩
        · rintro ⟨-, _, same, accepted⟩
          cases same
          exact accepted
    · apply parsesExactly_of_none host pb (parseMessage_refuses host pb header (by omega) unwrapped)
      intro message inside
      exact long ((grammar_iff pb packet message).mp inside).1
  · have refused : parseMessage host pb packet = .ok none := by
      rw [parseMessage, if_pos (by rw [kMinMessageLength]; omega)]
    apply parsesExactly_of_none host pb refused
    intro message inside
    have := ((grammar_iff pb packet message).mp inside).1
    omega

/-- The wrapped sum lets a type name through, and the body is sought behind the end. -/
theorem parseMessage_throws {packet : Bytes} (wrapped : WrapsOntoName pb packet) :
    parseMessage host pb packet = .error .outOfRange := by
  obtain ⟨long, short, wraps, known⟩ := wrapped
  obtain ⟨prototype, created⟩ := Option.isSome_iff_exists.mp known
  have check : ¬ packet.length < u32 (lengthField packet + kMinMessageLength) := by
    have := lengthField_lt packet
    rw [u32]
    simp only [kMinMessageLength] at wraps ⊢
    omega
  have name : (packet.drop 4).take (lengthField packet) = packet.drop 4 := by
    apply List.take_of_length_le
    rw [List.length_drop]
    omega
  rw [parseMessage_eq host pb long, if_neg check, name, created]
  simp only [if_pos short]

/-- Whatever a type's `ParseFromString` accepts, `ParseMessage` accepts exactly its
grammar and never throws, unless the bound check wraps onto a type name or the body of
a known type has 2^32 octets or more. -/
theorem parseMessage_exact_iff (packet : Bytes) :
    (∀ parse, ParsesExactly host (reparsing pb parse) packet) ↔
      ¬ WrapsOntoName pb packet ∧ ¬ LongBody pb packet := by
  constructor
  · intro exact
    constructor
    · intro wrapped
      obtain ⟨answer, returns⟩ := (exact pb.parseFromString).returns
      rw [parseMessage_throws host _ ((wrapsOntoName_reparsing pb _ packet).mpr wrapped)] at returns
      cases returns
    · rintro ⟨long, known⟩
      obtain ⟨prototype, created⟩ := Option.isSome_iff_exists.mp known
      -- a type whose parser takes every short body and no long one
      let parse : pb.Message → Bytes → Option pb.Message := fun prototype body =>
        if body.length < 2 ^ 32 then some prototype else none
      have enough : 4 + lengthField packet ≤ packet.length := by omega
      have parsed := parseMessage_cut host (reparsing pb parse) enough
      have cut : ((packet.drop (4 + lengthField packet)).take
          ((packet.drop (4 + lengthField packet)).length % 2 ^ 32)).length < 2 ^ 32 := by
        rw [List.length_take]
        exact Nat.lt_of_le_of_lt (Nat.min_le_left _ _) (Nat.mod_lt _ (by decide))
      rw [createMessage_reparsing, created] at parsed
      have accepted : parseMessage host (reparsing pb parse) packet = .ok (some prototype) :=
        parsed.trans (congrArg Except.ok (if_pos cut))
      obtain ⟨-, prototype', same, whole⟩ :=
        (grammar_iff (reparsing pb parse) packet prototype).mp
          (((exact parse).accepts prototype).mp accepted)
      have large : ¬ (packet.drop (4 + lengthField packet)).length < 2 ^ 32 := by
        rw [List.length_drop]
        omega
      rw [show (reparsing pb parse).parseFromString prototype'
        (packet.drop (4 + lengthField packet)) =
        none from if_neg large] at whole
      cases whole
  · rintro ⟨unwrapped, bounded⟩ parse
    rw [← wrapsOntoName_reparsing pb parse] at unwrapped
    rw [← longBody_reparsing pb parse] at bounded
    exact parsesExactly_of_condition host _ unwrapped bounded

end

/-- A pool with the one type `T`, whose messages are their own bodies. -/
def poolOfT : Protobuf where
  Message := Bytes
  Descriptor := Unit
  getTypeName := fun _ => [84]
  getDescriptor := fun _ => ()
  serializeAsString := id
  findMessageTypeByName := fun name => if name = [84] then some () else none
  newMessage := fun _ => some []
  parseFromString := fun _ body => some body

/-- The field 0xFFFFFFFC in front of the name `T`. -/
theorem parseMessage_wraps_onto_name :
    parseMessage .little poolOfT [255, 255, 255, 252, 84] = .error .outOfRange :=
  rfl

end Ladder.Guarantees.UntrustedPackets
