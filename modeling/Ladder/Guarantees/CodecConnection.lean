import Mathlib.Data.List.TakeWhile
import Ladder.Library.Framing
import Ladder.Guarantees.CodecFraming
import Ladder.Guarantees.UntrustedPackets
import Ladder.Guarantees.ConnectionOutput

/-!
# The codec on a connection

`Codec::Send` writes to a connection and `Codec::OnMessage` is its read callback; the
callbacks of the codec may send messages on the connection they were called for. This
file says what each of the calls does to the octets of the connection and to the
messages handled on it.
-/
namespace Ladder.Guarantees.CodecConnection
open Ladder.Library Ladder.Source Ladder.Source.Codec
open Ladder.Guarantees.CodecFraming (Sendable Delivered packetSize stream target)
open Ladder.Guarantees.UntrustedPackets (Incomplete Packet handler)
open Ladder.Guarantees.WriteShutdown (Carries unsent)
open Ladder.Guarantees.ConnectionOutput

/-- What runs on one side. `respond` is what a callback passes to `Codec::Send`. -/
structure Setup (pb : Protobuf) (κ : Type) where
  host : Endian
  codec : ProtobufCodec pb κ
  respond : κ → pb.Message → List pb.Message

structure Endpoint (pb : Protobuf) (κ : Type) where
  connection : Connection
  reading : Reading pb κ
  /-- The messages passed to `Codec::Send`, in call order. -/
  sent : List pb.Message

section
variable (kernel : Kernel) (zlib : Zlib) {pb : Protobuf} {κ : Type}

/-- `Codec::Send`. -/
def send (host : Endian) (message : pb.Message) (answers : List Answer) (c : Connection) :
    Option Connection :=
  c.send kernel (encapsulate host pb zlib message) answers

/-- The messages the callbacks send while `ParseAndHandleMessage` handles a packet. -/
def responses (setup : Setup pb κ) (packet : Bytes) : List pb.Message :=
  match parseMessage setup.host pb packet with
  | .ok (some message) =>
    match handleMessage setup.codec message with
    | .ok calls => calls.flatMap fun call => setup.respond call.1 call.2
    | .error _ => []
  | .ok none => []
  | .error _ => []

/-- Several calls of `Codec::Send`; the socket has its answers ready for each of them. -/
def sendAll (host : Endian) : List pb.Message → List (List Answer) → List Reply
  | [], _ => []
  | message :: rest, answers =>
    .send (encapsulate host pb zlib message) (answers.headD []) :: sendAll host rest answers.tail

/-- What `OnMessage` does with its connection: a `HaveRead` for each packet, with the
messages its callback sends behind it. -/
def handleReplies (setup : Setup pb κ) : List Bytes → List (List Answer) → List Reply
  | [], _ => []
  | packet :: rest, answers =>
    .consume (kHeaderLength + packet.length) ::
      (sendAll zlib setup.host (responses setup packet) answers ++
        handleReplies setup rest (answers.drop (responses setup packet).length))

/-- The packets a call of `OnMessage` handled, and the size of a packet it dropped for
its checksum. -/
def handledPackets (buffer : Buffer) :
    Option (Except Fault (List Bytes × Buffer)) → Option (List Bytes × Nat)
  | some (.ok (packets, left)) =>
    some (packets, buffer.unread.length - left.unread.length -
      (packets.map fun packet => kHeaderLength + packet.length).sum)
  | some (.error _) => none
  | none => none

/-- `Codec::OnMessage` on the octets in the read buffer; nothing if it throws. -/
def onMessagePackets (setup : Setup pb κ) (buffer : Buffer) : Option (List Bytes × Nat) :=
  handledPackets buffer (onMessageAlone setup.host zlib (handler setup.host setup.codec) buffer)

def onMessageReplies (setup : Setup pb κ) (packets : List Bytes) (dropped : Nat)
    (answers : List (List Answer)) : List Reply :=
  handleReplies zlib setup packets answers ++ if dropped = 0 then [] else [.consume dropped]

/-- The packets a read event brings to `OnMessage`. -/
def received (setup : Setup pb κ) (chunks : List Bytes) (e : Endpoint pb κ) :
    Option (List Bytes × Nat) :=
  match e.connection.readBuffer.readBufferFromFd (chunks.map .data) with
  | some (_, _, filled) => onMessagePackets zlib setup filled
  | none => none

/-- `Connection::OnReadCallback` with `Codec::OnMessage` as the read callback. -/
def readEvent (setup : Setup pb κ) (chunks : List Bytes) (answers : List (List Answer))
    (e : Endpoint pb κ) : Option (Endpoint pb κ) :=
  if e.connection.shutDown then some e
  else
    match received zlib setup chunks e with
    | none => none
    | some (packets, dropped) =>
      (e.connection.onReadCallback kernel (chunks.map .data)
          (some (onMessageReplies zlib setup packets dropped answers))).map fun connection =>
        { connection := connection
          reading :=
            { packets.foldl (parseAndHandleMessage setup.host setup.codec)
                { e.reading with reader := .header } with
              reader := .idle }
          sent := e.sent ++ packets.flatMap (responses setup) }

/-- What a message is answered with. -/
def answer (setup : Setup pb κ) (message : pb.Message) : List pb.Message :=
  match target setup.codec message with
  | some callback => setup.respond callback message
  | none => []

/-! ## Packets of messages -/

variable {kernel zlib} {codec : ProtobufCodec pb κ} {message : pb.Message}
  {messages : List pb.Message}

theorem composeMessage_host (sendable : Sendable codec message) (host host' : Endian) :
    composeMessage host pb message = composeMessage host' pb message := by
  have small := sendable.small
  simp only [packetSize, kHeaderLength] at small
  rw [composeMessage_eq host pb message (by omega), composeMessage_eq host' pb message (by omega)]

/-- The packet of a message, as a host decomposes it. -/
def packetOf (zlib : Zlib) (host : Endian) (message : pb.Message) : Packet :=
  ⟨checksum zlib (composeMessage host pb message), composeMessage host pb message⟩

@[simp] theorem packetOf_rawData (host : Endian) (message : pb.Message) :
    (packetOf zlib host message).rawData = composeMessage host pb message := by
  rw [packetOf]

@[simp] theorem packetOf_right (host : Endian) (message : pb.Message) :
    (packetOf zlib host message).right zlib = true := by
  simp only [Packet.right, packetOf, beq_self_eq_true]

theorem encapsulate_octets (sendable : Sendable codec message) (host host' : Endian) :
    encapsulate host pb zlib message = (packetOf zlib host' message).octets := by
  rw [encapsulate, composeMessage_host sendable host host', frame_eq, Packet.octets, packetOf,
    UntrustedPackets.packet]

theorem stream_octets (sendable : ∀ message ∈ messages, Sendable codec message)
    (host host' : Endian) :
    stream host zlib messages = (messages.map (packetOf zlib host')).flatMap Packet.octets := by
  rw [stream, List.flatMap_map]
  apply List.flatMap_congr
  intro message member
  exact encapsulate_octets (sendable message member) host host'

theorem stream_eq_nil {host : Endian} (sendable : ∀ message ∈ messages, Sendable codec message)
    (nothing : stream host zlib messages = []) : messages = [] := by
  cases messages with
  | nil => rfl
  | cons message messages =>
    have size := CodecFraming.encapsulate_length host zlib codec (sendable message (.head _))
    rw [stream, List.flatMap_cons, List.append_eq_nil_iff] at nothing
    rw [nothing.1, packetSize, kHeaderLength, List.length_nil] at size
    omega

/-- A proper part of the next packet makes `Decapsulate` wait. -/
theorem incomplete_of_unfinished {host : Endian} {rest back : Bytes}
    (sendable : ∀ message ∈ messages, Sendable codec message)
    (starts : rest ++ back = stream host zlib messages)
    (unfinished : Unfinished (encapsulate host pb zlib) messages rest) : Incomplete rest := by
  cases messages with
  | nil =>
    have nothing : rest = [] := (List.append_eq_nil_iff.mp starts).1
    rw [nothing]
    exact .inl (by decide)
  | cons message messages =>
    have ok := sendable message (.head _)
    have short := unfinished message rfl
    have size := CodecFraming.composeMessage_length host codec ok
    have small := ok.small
    by_cases header : rest.length < kHeaderLength
    · exact .inl header
    · refine .inr ?_
      have front := congrArg (List.take 4) starts
      rw [List.take_append_of_le_length (by simp only [kHeaderLength] at header; omega), stream,
        List.flatMap_cons, encapsulate_octets ok host host] at front
      have field : UntrustedPackets.lengthField rest = packetSize message := by
        rw [UntrustedPackets.lengthField, front, ← UntrustedPackets.lengthField, Packet.octets,
          UntrustedPackets.lengthField_packet _ (by rw [packetOf, size]; exact small), packetOf,
          size]
      rw [CodecFraming.encapsulate_length host zlib codec ok] at short
      omega

/-! ## OnMessage on whole packets -/

section
variable {end_ : Setup pb κ}

theorem handler_ok (sendable : Sendable codec message) (host : Endian) (called : List Bytes) :
    handler host codec called (composeMessage host pb message) = .ok () := by
  obtain ⟨callback, listens⟩ := Option.isSome_iff_exists.mp sendable.listener
  have small := sendable.small
  simp only [packetSize, kHeaderLength] at small
  rw [handler, parseMessage_composeMessage host pb message sendable.generated (by omega)]
  simp only [CodecFraming.handleMessage_target codec listens]
  rfl

theorem responses_composeMessage (sendable : Sendable end_.codec message) :
    responses end_ (composeMessage end_.host pb message) = answer end_ message := by
  obtain ⟨callback, listens⟩ := Option.isSome_iff_exists.mp sendable.listener
  have small := sendable.small
  simp only [packetSize, kHeaderLength] at small
  rw [responses, parseMessage_composeMessage end_.host pb message sendable.generated (by omega)]
  simp only [CodecFraming.handleMessage_target end_.codec listens, List.flatMap_cons,
    List.flatMap_nil, List.append_nil, answer, listens]

theorem flatMap_responses (sendable : ∀ message ∈ messages, Sendable end_.codec message) :
    (messages.map (composeMessage end_.host pb)).flatMap (responses end_) =
      messages.flatMap (answer end_) := by
  rw [List.flatMap_map]
  apply List.flatMap_congr
  intro message member
  exact responses_composeMessage (sendable message member)

theorem packets_length (zlib : Zlib) (sendable : ∀ message ∈ messages, Sendable codec message)
    (host host' : Endian) :
    (stream host zlib messages).length =
      ((messages.map (composeMessage host' pb)).map fun packet => kHeaderLength +
        packet.length).sum := by
  rw [stream, List.length_flatMap, List.map_map]
  refine congrArg List.sum (List.map_congr_left ?_)
  intro message member
  have ok := sendable message member
  rw [CodecFraming.encapsulate_length host zlib codec ok, Function.comp_apply,
    CodecFraming.composeMessage_length host' codec ok]

/-- `OnMessage` on packets with the right checksums whose handling does not throw. -/
theorem onMessageAlone_right (host : Endian) (codec : ProtobufCodec pb κ) {b : Buffer}
    {packets : List Packet} {rest : Bytes} (valid : b.Valid)
    (octets : b.unread = packets.flatMap Packet.octets ++ rest)
    (incomplete : Incomplete rest) (right : ∀ p ∈ packets, p.right zlib = true)
    (quiet : ∀ called, ∀ rawData ∈ packets.map Packet.rawData,
      handler host codec called rawData = .ok ()) :
    ∃ left : Buffer, left.unread = rest ∧
      onMessageAlone host zlib (handler host codec) b =
        some (.ok (packets.map Packet.rawData, left)) := by
  have enough : packets.length < b.readableBytes + 1 := by
    have := UntrustedPackets.length_le_octets packets
    rw [valid.readableBytes_eq, octets, List.length_append]
    omega
  obtain ⟨left, unread, result⟩ := UntrustedPackets.messageLoop_packets host zlib
    (handler host codec) packets incomplete enough [] valid octets
  have all : packets.takeWhile (·.right zlib) = packets := List.takeWhile_eq_self_iff.mpr right
  have nothing : UntrustedPackets.leftBehind zlib packets = [] :=
    (UntrustedPackets.leftBehind_eq_nil_iff zlib packets).mpr
      fun p member => right p (List.dropLast_subset _ member)
  obtain ⟨calls, handled⟩ := UntrustedPackets.handleAll_returns (handler host codec)
    (packets.map Packet.rawData) quiet []
  have called := UntrustedPackets.handleAll_called handled
  rw [List.nil_append] at called
  rw [nothing, List.flatMap_nil, List.nil_append] at unread
  rw [← onMessageAlone, all, handled, called] at result
  exact ⟨left, unread, result⟩

/-- `OnMessage` handles the packets of whole messages and stops at the rest. -/
theorem onMessagePackets_whole {b : Buffer} {host : Endian} {rest : Bytes} (valid : b.Valid)
    (content : b.unread = stream host zlib messages ++ rest) (incomplete : Incomplete rest)
    (sendable : ∀ message ∈ messages, Sendable end_.codec message) :
    onMessagePackets zlib end_ b = some (messages.map (composeMessage end_.host pb), 0) := by
  have octets : b.unread =
      (messages.map (packetOf zlib end_.host)).flatMap Packet.octets ++ rest := by
    rw [content, stream_octets sendable host end_.host]
  have raw : (messages.map (packetOf zlib end_.host)).map Packet.rawData =
      messages.map (composeMessage end_.host pb) := by
    rw [List.map_map]
    apply List.map_congr_left
    intro message _
    rw [Function.comp_apply, packetOf_rawData]
  have right : ∀ p ∈ messages.map (packetOf zlib end_.host), p.right zlib = true := by
    intro p member
    obtain ⟨message, -, rfl⟩ := List.mem_map.mp member
    exact packetOf_right end_.host message
  have quiet : ∀ called, ∀ rawData ∈ (messages.map (packetOf zlib end_.host)).map Packet.rawData,
      handler end_.host end_.codec called rawData = .ok () := by
    intro called rawData member
    rw [raw] at member
    obtain ⟨message, inside, rfl⟩ := List.mem_map.mp member
    exact handler_ok (sendable message inside) end_.host called
  obtain ⟨left, unread, result⟩ :=
    onMessageAlone_right end_.host end_.codec valid octets incomplete right quiet
  rw [onMessagePackets, result, raw, handledPackets, unread, content, List.length_append,
    packets_length zlib sendable host end_.host, Nat.add_sub_cancel, Nat.sub_self]

/-- Each packet is one delivery, in order. -/
theorem foldl_delivers (zlib : Zlib) (sendable : ∀ message ∈ messages, Sendable end_.codec message)
    (r : Reading pb κ) :
    ∃ reader calls, List.Forall₂ (Delivered end_.codec) calls messages ∧
      (messages.map (composeMessage end_.host pb)).foldl
          (parseAndHandleMessage end_.host end_.codec) r =
        ⟨reader, r.handled ++ messages, r.invoked ++ calls⟩ := by
  induction messages generalizing r with
  | nil => exact ⟨r.reader, [], .nil, by simp⟩
  | cons message messages ih =>
    obtain ⟨callback, listens, -, handed⟩ :=
      CodecFraming.deliver_packet end_.host zlib end_.codec (sendable message (.head _)) r
    obtain ⟨reader, calls, delivered, folded⟩ :=
      ih (fun message member => sendable message (.tail _ member)) ⟨.header, r.handled ++ [message],
        r.invoked ++ [(callback, message)]⟩
    refine ⟨reader, (callback, message) :: calls, .cons ⟨rfl, listens⟩ delivered, ?_⟩
    rw [List.map_cons, List.foldl_cons, handed, folded]
    simp only [List.append_assoc, List.singleton_append]

end

/-! ## Sending on a connection -/

/-- The entries of a list of messages. -/
def texts (zlib : Zlib) (host : Endian) (messages : List pb.Message) : List FileInfo :=
  messages.map fun message => ⟨encapsulate host pb zlib message, []⟩

theorem resolve_texts (kernel : Kernel) (zlib : Zlib) (host : Endian) (messages : List pb.Message)
    (call : Nat) :
    FileBuffer.resolve kernel call (texts zlib host messages) = stream host zlib messages := by
  induction messages generalizing call with
  | nil => rfl
  | cons message messages ih =>
    rw [stream, List.flatMap_cons, ← stream, ← ih call, texts, List.map_cons, FileBuffer.resolve]
    rfl

/-- What happens to the output of a connection while messages are passed to it. -/
structure Passes (kernel : Kernel) (zlib : Zlib) (host : Endian) (before more : List pb.Message)
    (c after : Connection) : Prop where
  carries : Carries kernel (texts zlib host (before ++ more)) after
  accepted : c.accepted <+: after.accepted
  index : outputIndex after ≤ outputIndex c + (more.map packetSize).sum

section
variable {host : Endian} {before more later : List pb.Message} {c middle after : Connection}
  {answers : List Answer}

theorem Passes.trans (first : Passes kernel zlib host before more c middle)
    (second : Passes kernel zlib host (before ++ more) later middle after) :
    Passes kernel zlib host before (more ++ later) c after := by
  refine ⟨?_, first.accepted.trans second.accepted, ?_⟩
  · rw [← List.append_assoc]
    exact second.carries
  · have := first.index
    have := second.index
    rw [List.map_append, List.sum_append]
    omega

/-- The octets a side has taken over since, and those still in its buffer, continue the
ones that were in its buffer. -/
theorem Passes.octets (carries : Carries kernel (texts zlib host before) c)
    (passes : Passes kernel zlib host before more c after) :
    after.accepted.drop c.accepted.length ++ unsent kernel after =
      unsent kernel c ++ stream host zlib more := by
  have earlier := carries.octets
  have now := passes.carries.octets
  obtain ⟨new, taken⟩ := passes.accepted
  rw [resolve_texts] at earlier now
  rw [stream, List.flatMap_append, ← stream, ← earlier, ← taken, List.append_assoc,
    List.append_assoc, List.append_right_inj] at now
  rw [← taken, List.drop_left, now, stream]

/-- `Codec::Send`. -/
theorem send_passes (carries : Carries kernel (texts zlib host before) c)
    (mild : answers.all Answer.mild = true) (sendable : Sendable codec message)
    (room : outputIndex c + packetSize message < 2 ^ 32) :
    ∃ after, send kernel zlib host message answers c = some after ∧
      Passes kernel zlib host before [message] c after ∧ after.readBuffer = c.readBuffer := by
  have size := CodecFraming.encapsulate_length host zlib codec sendable
  rw [← size] at room
  obtain ⟨after, sends, appends⟩ := send_appends carries (WriteShutdown.tolerated_of_all mild) room
  have entries : texts zlib host before ++ [⟨encapsulate host pb zlib message, []⟩] =
      texts zlib host (before ++ [message]) := by
    simp only [texts, List.map_append, List.map_cons, List.map_nil]
  refine ⟨after, sends, ⟨entries ▸ appends.carries, appends.accepted, ?_⟩, appends.readBuffer⟩
  rw [List.map_singleton, List.sum_singleton, ← size]
  exact appends.index

theorem sendAll_passes {answers : List (List Answer)}
    (carries : Carries kernel (texts zlib host before) c)
    (mild : answers.all (·.all Answer.mild) = true)
    (sendable : ∀ message ∈ more, Sendable codec message)
    (room : outputIndex c + (more.map packetSize).sum < 2 ^ 32) :
    ∃ after, Connection.reply kernel (sendAll zlib host more answers) c = some after ∧
      Passes kernel zlib host before more c after ∧ after.readBuffer = c.readBuffer := by
  induction more generalizing before c answers with
  | nil =>
    refine ⟨c, rfl, ⟨?_, List.prefix_rfl, Nat.le_refl _⟩, rfl⟩
    rw [List.append_nil]
    exact carries
  | cons message more ih =>
    rw [List.map_cons, List.sum_cons] at room
    have now : (answers.headD []).all Answer.mild = true := by
      cases answers with
      | nil => rfl
      | cons first answers => exact (List.all_eq_true.mp mild) first (.head _)
    have later : answers.tail.all (·.all Answer.mild) = true :=
      List.all_eq_true.mpr fun list member =>
        List.all_eq_true.mp mild list (List.mem_of_mem_tail member)
    obtain ⟨middle, sends, first, same⟩ := send_passes
      (carries_elsewhere carries c.readBuffer
        (c.trace ++ [.passed (encapsulate host pb zlib message)]))
      now (sendable message (.head _)) (by
        change outputIndex c + packetSize message < 2 ^ 32
        omega)
    have first : Passes kernel zlib host before [message] c middle :=
      ⟨first.carries, first.accepted, first.index⟩
    have grown : outputIndex middle ≤ outputIndex c + packetSize message := by
      simpa using first.index
    obtain ⟨after, replies, second, same'⟩ := ih first.carries later
      (fun message member => sendable message (.tail _ member)) (by omega)
    refine ⟨after, ?_, first.trans second, same'.trans same⟩
    rw [sendAll, Connection.reply]
    unfold send at sends
    rw [sends]
    exact replies

end

/-! ## Reading on a connection -/

section
variable {end_ : Setup pb κ} {peer : ProtobufCodec pb κ} {host : Endian} {e : Endpoint pb κ}
  {chunks : List Bytes} {answers : List (List Answer)} {back : Bytes}

/-- The calls `OnMessage` makes on its connection while it handles whole packets. -/
theorem handleReplies_passes {before : List pb.Message} {c : Connection} {rest : Bytes}
    (carries : Carries kernel (texts zlib end_.host before) c) (valid : c.readBuffer.Valid)
    (content : c.readBuffer.unread = stream host zlib messages ++ rest)
    (mild : answers.all (·.all Answer.mild) = true)
    (sendable : ∀ message ∈ messages, Sendable end_.codec message)
    (answerable : ∀ message ∈ messages, ∀ response ∈ answer end_ message, Sendable peer response)
    (room : outputIndex c + ((messages.flatMap (answer end_)).map packetSize).sum < 2 ^ 32) :
    ∃ after, Connection.reply kernel
        (handleReplies zlib end_ (messages.map (composeMessage end_.host pb)) answers) c =
          some after ∧
      Passes kernel zlib end_.host before (messages.flatMap (answer end_)) c after ∧
      after.readBuffer.Valid ∧ after.readBuffer.unread = rest := by
  induction messages generalizing before c answers with
  | nil =>
    refine ⟨c, rfl, ⟨?_, List.prefix_rfl, Nat.le_refl _⟩, valid, content⟩
    rw [List.flatMap_nil, List.append_nil]
    exact carries
  | cons message messages ih =>
    have ok := sendable message (.head _)
    have size := CodecFraming.composeMessage_length end_.host end_.codec ok
    have length := CodecFraming.encapsulate_length host zlib end_.codec ok
    have answered := responses_composeMessage ok
    rw [List.flatMap_cons, List.map_append, List.sum_append] at room
    -- `HaveRead` of the packet
    let consumed : Connection := { c with readBuffer := c.readBuffer.haveRead (packetSize message) }
    have carries' : Carries kernel (texts zlib end_.host before) consumed :=
      carries_elsewhere carries _ c.trace
    have unread : consumed.readBuffer.unread = stream host zlib messages ++ rest := by
      rw [valid.unread_haveRead ok.small, content, stream, List.flatMap_cons, List.append_assoc,
        List.drop_left' length, stream]
    -- what the callback sends
    obtain ⟨middle, sends, first, same⟩ :=
      sendAll_passes carries' mild (answerable message (.head _))
      (show outputIndex c + _ < 2 ^ 32 by omega)
    have first : Passes kernel zlib end_.host before (answer end_ message) c middle :=
      ⟨first.carries, first.accepted, first.index⟩
    have grown := first.index
    have later : (answers.drop (answer end_ message).length).all (·.all Answer.mild) = true :=
      List.all_eq_true.mpr fun list member =>
        List.all_eq_true.mp mild list (List.mem_of_mem_drop member)
    obtain ⟨after, replies, second, valid', left⟩ := ih first.carries
      (by rw [same]; exact valid.haveRead_valid ok.small) (by rw [same]; exact unread) later
      (fun message member => sendable message (.tail _ member))
      (fun message member => answerable message (.tail _ member)) (by omega)
    refine ⟨after, ?_, ?_, valid', left⟩
    · rw [List.map_cons, handleReplies, answered, size, Connection.reply, Connection.reply_append,
        sends]
      exact replies
    · rw [List.flatMap_cons]
      exact first.trans second

/-- A read event with the codec on top: the messages completed by it are handled, the
rest of the octets waits. -/
structure Reads (kernel : Kernel) (zlib : Zlib) (end_ : Setup pb κ) (host : Endian) (back : Bytes)
    (undelivered whole left : List pb.Message) (e after : Endpoint pb κ) : Prop where
  split : undelivered = whole ++ left
  passes : Passes kernel zlib end_.host e.sent (whole.flatMap (answer end_))
    e.connection after.connection
  sent : after.sent = e.sent ++ whole.flatMap (answer end_)
  valid : after.connection.readBuffer.Valid
  octets : after.connection.readBuffer.unread ++ back = stream host zlib left
  unfinished : Unfinished (encapsulate host pb zlib) left after.connection.readBuffer.unread
  handled : after.reading.handled = e.reading.handled ++ whole
  invoked : ∃ calls, after.reading.invoked = e.reading.invoked ++ calls ∧
    List.Forall₂ (Delivered end_.codec) calls whole

theorem readEvent_reads {undelivered : List pb.Message}
    (carries : Carries kernel (texts zlib end_.host e.sent) e.connection)
    (valid : e.connection.readBuffer.Valid)
    (octets : e.connection.readBuffer.unread ++ (chunks.flatten ++ back) =
      stream host zlib undelivered)
    (sendable : ∀ message ∈ undelivered, Sendable end_.codec message)
    (answerable : ∀ message ∈ undelivered, ∀ response ∈ answer end_ message, Sendable peer response)
    (mild : answers.all (·.all Answer.mild) = true)
    (sizes : ∀ chunk ∈ chunks, 0 < chunk.length ∧ chunk.length ≤ kReadBufferSize)
    (space : e.connection.readBuffer.writeIndex + chunks.flatten.length < 2 ^ 32)
    (room : ∀ packets dropped, received zlib end_ chunks e = some (packets, dropped) →
      outputIndex e.connection + ((packets.flatMap (responses end_)).map packetSize).sum < 2 ^ 32) :
    ∃ whole left after, readEvent kernel zlib end_ chunks answers e = some after ∧
      Reads kernel zlib end_ host back undelivered whole left e after := by
  obtain ⟨filled, reads, valid', unread⟩ := valid.readBufferFromFd_data sizes space
  rw [← List.append_assoc, ← unread, stream] at octets
  obtain ⟨whole, left, rest, split, cut⟩ := exists_cutAt octets
  have complete : ∀ message ∈ whole, Sendable end_.codec message := by
    intro message member
    exact sendable message (by rw [split]; exact List.mem_append_left _ member)
  have later : ∀ message ∈ left, Sendable end_.codec message := by
    intro message member
    exact sendable message (by rw [split]; exact List.mem_append_right _ member)
  have incomplete : Incomplete rest := incomplete_of_unfinished later cut.back cut.unfinished
  have packets : received zlib end_ chunks e =
      some (whole.map (composeMessage end_.host pb), 0) := by
    rw [received, reads]
    exact onMessagePackets_whole valid' cut.front incomplete complete
  have fits := room _ _ packets
  rw [flatMap_responses complete] at fits
  obtain ⟨after, replies, passes, valid'', unread'⟩ :=
    handleReplies_passes (carries_elsewhere carries filled e.connection.trace) valid' cut.front mild
      complete (fun message member => answerable message
        (by rw [split]; exact List.mem_append_left _ member)) fits
  have passes :
      Passes kernel zlib end_.host e.sent (whole.flatMap (answer end_)) e.connection after :=
    ⟨passes.carries, passes.accepted, passes.index⟩
  have quiet : filled.empty = true →
      onMessageReplies zlib end_ (whole.map (composeMessage end_.host pb)) 0 answers = [] := by
    intro nothing
    rw [valid'.empty_iff, cut.front] at nothing
    rw [stream_eq_nil complete (List.append_eq_nil_iff.mp nothing).1]
    rfl
  have returns := Connection.onReadCallback_running carries.running reads quiet (by
    rw [onMessageReplies, if_pos rfl, List.append_nil]
    exact replies) passes.carries.running
  obtain ⟨reader, calls, delivered, folded⟩ :=
    foldl_delivers zlib complete { e.reading with reader := .header }
  refine ⟨whole, left, ⟨after, ⟨.idle, e.reading.handled ++ whole, e.reading.invoked ++ calls⟩,
    e.sent ++ whole.flatMap (answer end_)⟩, ?_, split, passes, rfl, valid'', ?_,
    ?_, rfl, calls, rfl,
    delivered⟩
  · rw [readEvent, if_neg (by simp [carries.running]), packets]
    simp only [returns, folded, flatMap_responses complete, Option.map_some]
  · rw [unread', cut.back, stream]
  · rw [unread']
    exact cut.unfinished

end

end
end Ladder.Guarantees.CodecConnection
