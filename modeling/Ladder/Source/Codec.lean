import Ladder.Source.Buffer

/-!
# Codec and ProtobufCodec

Source: ladder/src/codec/Codec.cpp, ladder/src/codec/ProtobufCodec.cpp and their
headers. zlib's `crc32` and the protobuf runtime are parameters. `Decapsulate`
appears as the sequence of Buffer calls it makes, so that other threads may write
to the buffer between any two of them; what it does with the packet it has taken
out is local to the call.
-/
namespace Ladder.Source
open Ladder.Library

/-- zlib: `crc32(crc, buf, len)`; `none` is the `Z_NULL` buffer. -/
structure Zlib where
  crc32 : Nat → Option Bytes → Nat

/-- What the codec uses of the protobuf runtime. `newMessage` stands for
`GetPrototype(descriptor)` followed by `New()`. -/
structure Protobuf where
  Message : Type
  Descriptor : Type
  getTypeName : Message → Bytes
  getDescriptor : Message → Descriptor
  serializeAsString : Message → Bytes
  findMessageTypeByName : Bytes → Option Descriptor
  newMessage : Descriptor → Option Message
  parseFromString : Message → Bytes → Option Message

/-- Ways for a call to end other than by returning. -/
inductive Fault where
  | outOfRange
  | badFunctionCall
  deriving DecidableEq, Repr

/-- `CallbackT<MessageType>`; the wrapped `std::function` may be empty. -/
structure CallbackT (κ : Type) where
  callback : Option κ
  deriving DecidableEq, Repr

structure ProtobufCodec (pb : Protobuf) (κ : Type) where
  callbacks : pb.Descriptor → Option (CallbackT κ)
  defaultCallback : Option κ

namespace Codec

def kHeaderLength : Nat := 8
def kMinMessageLength : Nat := 4

section
variable (host : Endian) (zlib : Zlib)

/-- The checksum computed on both sides of the connection. -/
def checksum (rawData : Bytes) : UInt32 :=
  let initial := UInt32.ofNat (zlib.crc32 0 none)
  UInt32.ofNat (zlib.crc32 initial.toNat (some rawData))

/-- `Codec::Encapsulate` after `ComposeMessage`. -/
def frame (rawData : Bytes) : Bytes :=
  let length := htonl host (UInt32.ofNat (kHeaderLength + rawData.length))
  let sum := htonl host (checksum zlib rawData)
  encode32 host length ++ encode32 host sum ++ rawData

/-- `Codec::Decapsulate` from the moment the packet is out of the buffer. A packet
shorter than its header makes `buf.size() - kHeaderLength` wrap around. -/
def unframe (buf : Bytes) : Except Fault (Option Bytes) :=
  if buf.length < kHeaderLength then .error .outOfRange
  else
    let expected := checksum zlib (buf.drop kHeaderLength)
    let received := ntohl host (decode32 host ((buf.drop 4).take 4))
    if received ≠ expected then .ok none
    else .ok (some (buf.drop kHeaderLength))

end

section
variable (host : Endian) (pb : Protobuf)

/-- `ProtobufCodec::ComposeMessage`, through a local Buffer. -/
def composeMessage (message : pb.Message) : Bytes :=
  let typeName := pb.getTypeName message
  let buffer := Buffer.fresh.writeUInt32 host (htonl host (UInt32.ofNat typeName.length))
  let buffer := buffer.write typeName
  let buffer := buffer.write (pb.serializeAsString message)
  buffer.readAll.1

/-- `Codec::Encapsulate`. -/
def encapsulate (zlib : Zlib) (message : pb.Message) : Bytes :=
  frame host zlib (composeMessage host pb message)

/-- The static `CreateMessage` of ProtobufCodec.cpp. -/
def createMessage (typeName : Bytes) : Option pb.Message :=
  match pb.findMessageTypeByName typeName with
  | some descriptor => pb.newMessage descriptor
  | none => none

/-- `ProtobufCodec::ParseMessage`. The bound check adds two `uint32_t`; the body
length is narrowed to `uint32_t`; `substr` throws behind the end of the packet. -/
def parseMessage (packet : Bytes) : Except Fault (Option pb.Message) :=
  if packet.length < kMinMessageLength then .ok none
  else
    let nameLength := (ntohl host (decode32 host (packet.take 4))).toNat
    if packet.length < u32 (nameLength + kMinMessageLength) then .ok none
    else
      match createMessage pb ((packet.drop 4).take nameLength) with
      | none => .ok none
      | some message =>
        let bodyLength := u32 (packet.length + 2 ^ 64 - kMinMessageLength - nameLength)
        if packet.length < 4 + nameLength then .error .outOfRange
        else .ok (pb.parseFromString message ((packet.drop (4 + nameLength)).take bodyLength))

variable {pb} {κ : Type} (codec : ProtobufCodec pb κ)

/-- `CallbackT::OnMessage`: the callbacks it invokes. -/
def CallbackT.onMessage (entry : CallbackT κ) (message : pb.Message) : List (κ × pb.Message) :=
  match entry.callback with
  | some callback => [(callback, message)]
  | none => []

/-- `ProtobufCodec::HandleMessage`: an empty default callback throws when called. -/
def handleMessage (message : pb.Message) : Except Fault (List (κ × pb.Message)) :=
  match codec.callbacks (pb.getDescriptor message) with
  | some entry => .ok (CallbackT.onMessage entry message)
  | none =>
    match codec.defaultCallback with
    | some callback => .ok [(callback, message)]
    | none => .error .badFunctionCall

end

/-- Where `Codec::OnMessage` stands between two of its Buffer calls. -/
inductive Reader where
  | idle
  | header
  | length
  | available (length : UInt32)
  | packet (length : UInt32)
  | consume (length : UInt32) (buf : Bytes)
  | fault (reason : Fault)
  deriving DecidableEq, Repr

/-- The reading side: where it stands, which messages reached `HandleMessage` and
which callbacks were invoked for them. -/
structure Reading (pb : Protobuf) (κ : Type) where
  reader : Reader
  handled : List pb.Message
  invoked : List (κ × pb.Message)

section
variable (host : Endian) (zlib : Zlib) {pb : Protobuf} {κ : Type} (codec : ProtobufCodec pb κ)

/-- `Codec::ParseAndHandleMessage`, back at the head of the loop of `OnMessage`. -/
def parseAndHandleMessage (r : Reading pb κ) (packet : Bytes) : Reading pb κ :=
  match parseMessage host pb packet with
  | .error reason => { r with reader := .fault reason }
  | .ok none => { r with reader := .header }
  | .ok (some message) =>
    match handleMessage codec message with
    | .error reason =>
      { r with reader := .fault reason, handled := r.handled ++ [message] }
    | .ok calls =>
      { reader := .header, handled := r.handled ++ [message], invoked := r.invoked ++ calls }

/-- The next Buffer call of `OnMessage`, with the local work up to the one after
it. From `idle` a new `OnMessage` call is entered. -/
def onMessage (r : Reading pb κ) (buffer : Buffer) : Option (Reading pb κ × Buffer) :=
  match r.reader with
  | .idle => some ({ r with reader := .header }, buffer)
  | .header =>
    if buffer.readableBytes < kHeaderLength then some ({ r with reader := .idle }, buffer)
    else some ({ r with reader := .length }, buffer)
  | .length => some ({ r with reader := .available (ntohl host (buffer.peekUInt32 host)) }, buffer)
  | .available length =>
    if buffer.readableBytes < length.toNat then some ({ r with reader := .idle }, buffer)
    else some ({ r with reader := .packet length }, buffer)
  | .packet length =>
    some ({ r with reader := .consume length (buffer.peek length.toNat).2 }, buffer)
  | .consume length buf =>
    let buffer := buffer.haveRead length.toNat
    match unframe host zlib buf with
    | .error reason => some ({ r with reader := .fault reason }, buffer)
    | .ok none => some ({ r with reader := .idle }, buffer)
    | .ok (some rawData) => some (parseAndHandleMessage host codec r rawData, buffer)
  | .fault _ => none

end

section
variable (host : Endian) (zlib : Zlib)

/-- `Codec::Decapsulate` as one call that nobody interrupts: what it returns (`none`
for false) and the buffer behind it. -/
def decapsulate (buffer : Buffer) : Except Fault (Option Bytes) × Buffer :=
  if buffer.readableBytes < kHeaderLength then (.ok none, buffer)
  else
    let length := ntohl host (buffer.peekUInt32 host)
    if buffer.readableBytes < length.toNat then (.ok none, buffer)
    else
      let buf := (buffer.peek length.toNat).2
      (unframe host zlib buf, buffer.haveRead length.toNat)

/-- The loop of `Codec::OnMessage` behind a call of `Decapsulate`, for any
`ParseAndHandleMessage`: whether that one throws may depend on the packets it was
called for before. -/
def afterPacket (handle : List Bytes → Bytes → Except Fault Unit)
    (next : List Bytes → Buffer → Option (Except Fault (List Bytes × Buffer)))
    (called : List Bytes) :
    Except Fault (Option Bytes) × Buffer → Option (Except Fault (List Bytes × Buffer))
  | (.error reason, _) => some (.error reason)
  | (.ok none, buffer) => some (.ok (called, buffer))
  | (.ok (some packet), buffer) =>
    match handle called packet with
    | .error reason => some (.error reason)
    | .ok () => next (called ++ [packet]) buffer

/-- The loop; `none` is one that has not ended after `fuel` rounds. -/
def messageLoop (handle : List Bytes → Bytes → Except Fault Unit) :
    Nat → List Bytes → Buffer → Option (Except Fault (List Bytes × Buffer))
  | 0 => fun _ _ => none
  | fuel + 1 => fun called buffer =>
    afterPacket handle (messageLoop handle fuel) called (decapsulate host zlib buffer)

/-- `Codec::OnMessage` on a buffer nobody else writes to: the packets that
`ParseAndHandleMessage` was called for, and the buffer on return. Each round but the
last one takes a header out of the buffer, so the bound never ends the loop. -/
def onMessageAlone (handle : List Bytes → Bytes → Except Fault Unit) (buffer : Buffer) :
    Option (Except Fault (List Bytes × Buffer)) :=
  messageLoop host zlib handle (buffer.readableBytes + 1) [] buffer

end

theorem parseAndHandleMessage_ok (host : Endian) {pb : Protobuf} {κ : Type}
    (codec : ProtobufCodec pb κ) (r : Reading pb κ) {packet : Bytes} {message : pb.Message}
    {calls : List (κ × pb.Message)} (parsed : parseMessage host pb packet = .ok (some message))
    (handled : handleMessage codec message = .ok calls) :
    parseAndHandleMessage host codec r packet =
      { reader := .header, handled := r.handled ++ [message], invoked := r.invoked ++ calls } := by
  simp only [parseAndHandleMessage, parsed, handled]

/-! ## Frames and messages -/

section
variable (host : Endian) (zlib : Zlib)

theorem frame_eq (rawData : Bytes) :
    frame host zlib rawData =
      encode32 .big (UInt32.ofNat (kHeaderLength + rawData.length)) ++
        (encode32 .big (checksum zlib rawData) ++ rawData) := by
  simp only [frame, encode32_htonl, List.append_assoc]

@[simp] theorem frame_length (rawData : Bytes) :
    (frame host zlib rawData).length = kHeaderLength + rawData.length := by
  simp only [frame_eq, List.length_append, encode32_length, kHeaderLength]
  omega

theorem frame_take_four (rawData : Bytes) :
    (frame host zlib rawData).take 4 =
      encode32 .big (UInt32.ofNat (kHeaderLength + rawData.length)) := by
  rw [frame_eq, List.take_left' (encode32_length _ _)]

/-- The checksum holds on every frame, whatever function `crc32` is. -/
theorem unframe_frame (rawData : Bytes) :
    unframe host zlib (frame host zlib rawData) = .ok (some rawData) := by
  have sum : ((frame host zlib rawData).drop 4).take 4 = encode32 .big (checksum zlib rawData) := by
    rw [frame_eq, List.drop_left' (encode32_length _ _), List.take_left' (encode32_length _ _)]
  have body : (frame host zlib rawData).drop kHeaderLength = rawData := by
    rw [frame_eq, ← List.append_assoc]
    apply List.drop_left'
    simp only [List.length_append, encode32_length, kHeaderLength]
  have long : ¬ (frame host zlib rawData).length < kHeaderLength := by
    rw [frame_length]
    omega
  have agree : ntohl host (decode32 host (encode32 .big (checksum zlib rawData))) =
      checksum zlib rawData := by
    rw [ntohl_decode32 _ _ (encode32_length _ _), decode32_encode32]
  simp only [unframe, if_neg long, sum, body, agree, ne_eq, not_true_eq_false, if_false]

end

section
variable (host : Endian) (pb : Protobuf)

/-- The three parts of a composed message, as long as the local Buffer's indices
stay below 2^32. -/
theorem composeMessage_eq (message : pb.Message)
    (fits : 4 + (pb.getTypeName message).length + (pb.serializeAsString message).length < 2 ^ 32) :
    composeMessage host pb message =
      encode32 .big (UInt32.ofNat (pb.getTypeName message).length) ++
        (pb.getTypeName message ++ pb.serializeAsString message) := by
  let length := encode32 .big (UInt32.ofNat (pb.getTypeName message).length)
  have four : length.length = 4 := encode32_length _ _
  have room₁ : Buffer.fresh.writeIndex + length.length < 2 ^ 32 := by
    rw [four]
    decide
  have valid₁ := Buffer.valid_fresh.write_valid room₁
  have index₁ := Buffer.writeIndex_write room₁
  have room₂ : (Buffer.fresh.write length).writeIndex +
      (pb.getTypeName message).length < 2 ^ 32 := by
    rw [index₁, four]
    simp only [Buffer.fresh]
    omega
  have valid₂ := valid₁.write_valid room₂
  have index₂ := Buffer.writeIndex_write room₂
  have room₃ : ((Buffer.fresh.write length).write (pb.getTypeName message)).writeIndex +
      (pb.serializeAsString message).length < 2 ^ 32 := by
    rw [index₂, index₁, four]
    simp only [Buffer.fresh]
    omega
  have valid₃ := valid₂.write_valid room₃
  simp only [composeMessage, Buffer.writeUInt32_eq_write, encode32_htonl]
  rw [valid₃.readAll_fst, valid₂.unread_write room₃, valid₁.unread_write room₂,
    Buffer.valid_fresh.unread_write room₁, Buffer.unread_fresh, List.nil_append, List.append_assoc]

/-- The documented behaviour of the protobuf runtime on a message of a generated
type: the pool knows the type and `ParseFromString` undoes `SerializeAsString`. -/
structure Generated (message : pb.Message) : Prop where
  found : pb.findMessageTypeByName (pb.getTypeName message) = some (pb.getDescriptor message)
  parsed : ∃ prototype, pb.newMessage (pb.getDescriptor message) = some prototype ∧
    pb.parseFromString prototype (pb.serializeAsString message) = some message

theorem parseMessage_composeMessage (message : pb.Message) (generated : Generated pb message)
    (fits : 4 + (pb.getTypeName message).length + (pb.serializeAsString message).length < 2 ^ 32) :
    parseMessage host pb (composeMessage host pb message) = .ok (some message) := by
  obtain ⟨found, prototype, created, parsed⟩ := generated
  rw [composeMessage_eq host pb message fits]
  generalize hname : pb.getTypeName message = name at *
  generalize hbody : pb.serializeAsString message = body at *
  have four : (encode32 .big (UInt32.ofNat name.length)).length = 4 := encode32_length _ _
  have total : (encode32 .big (UInt32.ofNat name.length) ++ (name ++ body)).length =
      4 + name.length + body.length := by
    simp only [List.length_append, four]
    omega
  have nameLength : (ntohl host (decode32 host
      ((encode32 .big (UInt32.ofNat name.length) ++ (name ++ body)).take 4))).toNat =
        name.length := by
    rw [List.take_left' four, ntohl_decode32 _ _ four, decode32_encode32, UInt32.toNat_ofNat']
    exact Nat.mod_eq_of_lt (by omega)
  have typeName :
    ((encode32 .big (UInt32.ofNat name.length) ++ (name ++ body)).drop 4).take name.length =
      name := by
    rw [List.drop_left' four, List.take_left]
  have rest : (encode32 .big (UInt32.ofNat name.length) ++ (name ++ body)).drop (4 + name.length) =
      body := by
    rw [← List.drop_drop, List.drop_left' four, List.drop_left]
  have bodyLength : u32 (4 + name.length + body.length + 2 ^ 64 - kMinMessageLength - name.length) =
      body.length := by
    simp only [u32, kMinMessageLength]
    omega
  have sum : u32 (name.length + kMinMessageLength) = name.length + 4 :=
    Nat.mod_eq_of_lt (by simp only [kMinMessageLength]; omega)
  simp only [parseMessage, nameLength, typeName, rest, total, sum, bodyLength, createMessage,
    found, created, parsed, List.take_length]
  rw [if_neg (by simp only [kMinMessageLength]; omega), if_neg (by omega), if_neg (by omega)]

end
end Codec
end Ladder.Source
