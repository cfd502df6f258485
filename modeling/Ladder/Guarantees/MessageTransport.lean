import Ladder.Guarantees.CodecConnection

/-!
# Messages between two connections

Both ends of a TCP connection are connections of this library, each with a protobuf
codec on top, whose callbacks may send messages themselves. The network delivers in
order what one socket has taken, cut anywhere. The two hosts need not have the same
byte order.

A step is a call of `Codec::Send`, a write event or a read event on either side. The
invariant of one direction follows the octets from the sender's write buffer over the
wire to the receiver's read buffer and the messages to the callbacks.
-/
namespace Ladder.Guarantees.MessageTransport
open Ladder.Library Ladder.Source Ladder.Source.Codec
open Ladder.Guarantees.CodecFraming (Sendable Delivered packetSize stream target)
open Ladder.Guarantees.WriteShutdown (Carries unsent)
open Ladder.Guarantees.ConnectionOutput Ladder.Guarantees.CodecConnection

inductive Side where
  | client
  | server
  deriving DecidableEq, Repr

def Side.other : Side → Side
  | client => server
  | server => client

structure Link (pb : Protobuf) (κ : Type) where
  ends : Side → Endpoint pb κ
  /-- Octets the socket of a side has taken and the other side has not read yet. -/
  wire : Side → Bytes

inductive Act (pb : Protobuf) where
  | send (x : Side) (message : pb.Message) (answers : List Answer)
  | writeEvent (x : Side) (answers : List Answer)
  /-- The octets in the pieces `read` delivers, and the answers to what the callbacks send. -/
  | readEvent (x : Side) (chunks : List Bytes) (answers : List (List Answer))

def start (pb : Protobuf) (κ : Type) (sendFile : Side → Bool) : Link pb κ :=
  ⟨fun x => ⟨.create (sendFile x) false, ⟨.idle, [], []⟩, []⟩, fun _ => []⟩

section
variable (kernel : Kernel) (zlib : Zlib) {pb : Protobuf} {κ : Type}

/-- A side has changed; what its socket has taken meanwhile is on the wire. -/
def Link.put (x : Side) (e : Endpoint pb κ) (s : Link pb κ) : Link pb κ :=
  { ends := Function.update s.ends x e
    wire := Function.update s.wire x
      (s.wire x ++ e.connection.accepted.drop (s.ends x).connection.accepted.length) }

/-- The next octets on the wire from a side are read on the other one. -/
def Link.take (x : Side) (n : Nat) (s : Link pb κ) : Link pb κ :=
  { s with wire := Function.update s.wire x ((s.wire x).drop n) }

variable (setup : Side → Setup pb κ)

def step (s : Link pb κ) : Act pb → Option (Link pb κ)
  | .send x message answers =>
    (send kernel zlib (setup x).host message answers (s.ends x).connection).map fun connection =>
      s.put x { s.ends x with connection := connection, sent := (s.ends x).sent ++ [message] }
  | .writeEvent x answers =>
    ((s.ends x).connection.onWriteCallback kernel answers []).map fun connection =>
      s.put x { s.ends x with connection := connection }
  | .readEvent x chunks answers =>
    if chunks.flatten.isPrefixOf (s.wire x.other) then
      (readEvent kernel zlib (setup x) chunks answers (s.ends x)).map fun e =>
        (s.take x.other chunks.flatten.length).put x e
    else none

/-- The sockets take octets or block, pieces have the sizes `read` delivers, nobody
shuts down, and no buffer index reaches 2^32. -/
def Admissible (s : Link pb κ) : Act pb → Bool
  | .send x message answers =>
    answers.all Answer.mild &&
      decide (outputIndex (s.ends x).connection + packetSize message < 2 ^ 32)
  | .writeEvent _ answers => answers.all Answer.mild
  | .readEvent x chunks answers =>
    answers.all (·.all Answer.mild) &&
      chunks.flatten.isPrefixOf (s.wire x.other) &&
      chunks.all (fun chunk => decide (0 < chunk.length ∧ chunk.length ≤ kReadBufferSize)) &&
      decide ((s.ends x).connection.readBuffer.writeIndex + chunks.flatten.length < 2 ^ 32) &&
      match received zlib (setup x) chunks (s.ends x) with
      | some (packets, _) => decide (outputIndex (s.ends x).connection +
          ((packets.flatMap (responses (setup x))).map packetSize).sum < 2 ^ 32)
      | none => true

/-- The messages an action passes to `Codec::Send` by itself. -/
def Act.sends (x : Side) : Act pb → List pb.Message
  | .send y message _ => if x = y then [message] else []
  | .writeEvent _ _ | .readEvent _ _ _ => []

/-! ## One direction -/

variable {kernel zlib setup} {codec : ProtobufCodec pb κ}

/-- The messages a side has sent, on their way: `c` and `sent` are the sender's,
`b` and `r` the receiver's. -/
structure Flow (kernel : Kernel) (zlib : Zlib) (setup : Side → Setup pb κ) (x : Side)
    (undelivered : List pb.Message) (c : Connection) (sent : List pb.Message) (b : Buffer)
    (r : Reading pb κ) (wire : Bytes) : Prop where
  carries : Carries kernel (texts zlib (setup x).host sent) c
  sendable : ∀ message ∈ sent, Sendable (setup x.other).codec message
  valid : b.Valid
  delivered : r.handled ++ undelivered = sent
  invoked : List.Forall₂ (Delivered (setup x.other).codec) r.invoked r.handled
  octets : b.unread ++ (wire ++ unsent kernel c) = stream (setup x).host zlib undelivered
  unfinished : Unfinished (encapsulate (setup x).host pb zlib) undelivered b.unread

section
variable {x : Side} {undelivered sent more : List pb.Message} {c after : Connection} {b : Buffer}
  {r : Reading pb κ} {wire : Bytes}

theorem Unfinished.append_all {host : Endian} {left more : List pb.Message} {rest back : Bytes}
    (unfinished : Unfinished (encapsulate host pb zlib) left rest)
    (starts : rest ++ back = stream host zlib left)
    (sendable : ∀ message ∈ more, Sendable codec message) :
    Unfinished (encapsulate host pb zlib) (left ++ more) rest := by
  cases more with
  | nil =>
    rw [List.append_nil]
    exact unfinished
  | cons message more =>
    have size := CodecFraming.encapsulate_length host zlib codec (sendable message (.head _))
    have nonempty : 0 < (encapsulate host pb zlib message).length := by
      rw [size, packetSize, kHeaderLength]
      omega
    intro item first
    refine unfinished.append starts nonempty item ?_
    cases left with
    | nil => exact first
    | cons head left => exact first

/-- The sender passes more messages to its connection. -/
theorem Flow.passes (flow : Flow kernel zlib setup x undelivered c sent b r wire)
    (passes : Passes kernel zlib (setup x).host sent more c after)
    (sendable : ∀ message ∈ more, Sendable (setup x.other).codec message) :
    Flow kernel zlib setup x (undelivered ++ more) after (sent ++ more) b r
      (wire ++ after.accepted.drop c.accepted.length) := by
  refine ⟨passes.carries, ?_, flow.valid, ?_, flow.invoked, ?_, ?_⟩
  · intro message member
    rcases List.mem_append.mp member with old | new
    · exact flow.sendable message old
    · exact sendable message new
  · rw [← List.append_assoc, flow.delivered]
  · have split : stream (setup x).host zlib (undelivered ++ more) =
        stream (setup x).host zlib undelivered ++ stream (setup x).host zlib more := by
      simp only [stream, List.flatMap_append]
    rw [split, ← flow.octets, List.append_assoc wire, passes.octets flow.carries]
    simp only [List.append_assoc]
  · exact Unfinished.append_all flow.unfinished flow.octets sendable

/-- The receiver reads the next octets on the wire. -/
theorem Flow.reads {e e' : Endpoint pb κ} {whole left : List pb.Message}
    (flow : Flow kernel zlib setup x undelivered c sent e.connection.readBuffer e.reading wire)
    {remaining : Bytes}
    (reads : Reads kernel zlib (setup x.other) (setup x).host (remaining ++ unsent kernel c)
      undelivered whole left e e') :
    Flow kernel zlib setup x left c sent e'.connection.readBuffer e'.reading remaining := by
  obtain ⟨calls, invoked, delivered⟩ := reads.invoked
  refine ⟨flow.carries, flow.sendable, reads.valid, ?_, ?_, reads.octets, reads.unfinished⟩
  · rw [reads.handled, List.append_assoc, ← reads.split]
    exact flow.delivered
  · rw [reads.handled, invoked]
    exact List.rel_append flow.invoked delivered

theorem Flow.undelivered_eq_nil_iff (flow : Flow kernel zlib setup x undelivered c sent b r wire) :
    undelivered = [] ↔ wire = [] ∧ unsent kernel c = [] := by
  have octets := flow.octets
  constructor
  · intro nothing
    rw [nothing, stream, List.flatMap_nil, List.append_eq_nil_iff, List.append_eq_nil_iff] at octets
    exact octets.2
  · rintro ⟨wire, unsent⟩
    rw [wire, unsent, List.append_nil, List.append_nil] at octets
    exact flow.unfinished.left_eq_nil octets

end

/-! ## Both directions -/

variable (kernel zlib setup) in
def Inv (s : Link pb κ) : Prop :=
  ∀ x, ∃ undelivered, Flow kernel zlib setup x undelivered (s.ends x).connection (s.ends x).sent
    (s.ends x.other).connection.readBuffer (s.ends x.other).reading (s.wire x)

/-- What a step adds to the messages handled and sent on a side. -/
def Ledger (setup : Setup pb κ) (own : List pb.Message) (e after : Endpoint pb κ) : Prop :=
  ∃ handled, after.reading.handled = e.reading.handled ++ handled ∧
    after.sent = e.sent ++ (own ++ handled.flatMap (answer setup))

theorem Side.other_ne (x : Side) : x.other ≠ x := by
  cases x <;> decide

@[simp] theorem Side.other_other (x : Side) : x.other.other = x := by
  cases x <;> rfl

theorem Side.eq_or_other (x y : Side) : y = x ∨ y = x.other := by
  cases x <;> cases y <;> simp [Side.other]

section
variable {s : Link pb κ} {x : Side} {e : Endpoint pb κ}

@[simp] theorem Link.put_ends_self : (s.put x e).ends x = e := Function.update_self _ _ _

@[simp] theorem Link.put_ends_other : (s.put x e).ends x.other = s.ends x.other :=
  Function.update_of_ne x.other_ne _ _

@[simp] theorem Link.put_wire_self : (s.put x e).wire x =
    s.wire x ++ e.connection.accepted.drop (s.ends x).connection.accepted.length :=
  Function.update_self _ _ _

@[simp] theorem Link.put_wire_other : (s.put x e).wire x.other = s.wire x.other :=
  Function.update_of_ne x.other_ne _ _

theorem Link.take_wire (n : Nat) : (s.take x.other n).wire x = s.wire x :=
  Function.update_of_ne x.other_ne.symm _ _

theorem Link.take_wire_other (n : Nat) :
    (s.take x.other n).wire x.other = (s.wire x.other).drop n :=
  Function.update_self _ _ _

/-- A side that has changed: one flow starts there, the other one ends there. -/
theorem inv_put {outgoing incoming : List pb.Message}
    (out : Flow kernel zlib setup x outgoing e.connection e.sent
      (s.ends x.other).connection.readBuffer (s.ends x.other).reading
      (s.wire x ++ e.connection.accepted.drop (s.ends x).connection.accepted.length))
    (into : Flow kernel zlib setup x.other incoming (s.ends x.other).connection
      (s.ends x.other).sent
      e.connection.readBuffer e.reading (s.wire x.other)) : Inv kernel zlib setup (s.put x e) := by
  intro y
  rcases Side.eq_or_other x y with rfl | rfl
  · exact ⟨outgoing, by simpa only [Link.put_ends_self, Link.put_ends_other,
      Link.put_wire_self] using out⟩
  · refine ⟨incoming, ?_⟩
    simpa only [Link.put_ends_self, Link.put_ends_other, Link.put_wire_other,
      Side.other_other] using into

theorem ledger_put (own : Side → List pb.Message) (here : Ledger (setup x) (own x) (s.ends x) e)
    (nothing : own x.other = []) (y : Side) :
    Ledger (setup y) (own y) (s.ends y) ((s.put x e).ends y) := by
  rcases Side.eq_or_other x y with rfl | rfl
  · rw [Link.put_ends_self]
    exact here
  · rw [Link.put_ends_other, nothing]
    exact ⟨[], by simp, by simp⟩

end

section
variable {s : Link pb κ} {x : Side}

/-- What a step of the invariant achieves. -/
def Goes (kernel : Kernel) (zlib : Zlib) (setup : Side → Setup pb κ)
    (s : Link pb κ) (act : Act pb) :
    Prop :=
  ∃ next, step kernel zlib setup s act = some next ∧ Inv kernel zlib setup next ∧
    ∀ x, Ledger (setup x) (act.sends x) (s.ends x) (next.ends x)

theorem send_goes {message : pb.Message} {answers : List Answer} (inv : Inv kernel zlib setup s)
    (mild : answers.all Answer.mild = true) (ok : Sendable (setup x.other).codec message)
    (room : outputIndex (s.ends x).connection + packetSize message < 2 ^ 32) :
    Goes kernel zlib setup s (.send x message answers) := by
  obtain ⟨outgoing, out⟩ := inv x
  obtain ⟨incoming, into⟩ := inv x.other
  rw [Side.other_other] at into
  obtain ⟨after, sends, passes, same⟩ := send_passes out.carries mild ok room
  rw [← same] at into
  refine ⟨_, congrArg (Option.map _) sends, ?_, ?_⟩
  · exact inv_put (out.passes passes (by simpa using ok)) into
  · apply ledger_put fun y => (Act.send x message answers).sends y
    · exact ⟨[], by simp, by simp [Act.sends]⟩
    · simp [Act.sends, x.other_ne]

theorem writeEvent_goes {answers : List Answer} (inv : Inv kernel zlib setup s)
    (mild : answers.all Answer.mild = true) : Goes kernel zlib setup s (.writeEvent x answers) := by
  obtain ⟨outgoing, out⟩ := inv x
  obtain ⟨incoming, into⟩ := inv x.other
  rw [Side.other_other] at into
  obtain ⟨after, handled, appends⟩ :=
    writeEvent_appends out.carries (WriteShutdown.tolerated_of_all mild)
  have passes :
      Passes kernel zlib (setup x).host (s.ends x).sent [] (s.ends x).connection after := by
    refine ⟨?_, appends.accepted, appends.index⟩
    have carries := appends.carries
    rwa [List.append_nil] at carries ⊢
  have out' := out.passes passes (by simp)
  rw [List.append_nil (s.ends x).sent] at out'
  rw [← appends.readBuffer] at into
  refine ⟨_, congrArg (Option.map _) handled, ?_, ?_⟩
  · exact inv_put out' into
  · apply ledger_put fun _ => []
    · exact ⟨[], by simp, by simp⟩
    · rfl

/-- What a message of the other side makes the callbacks send is sendable too. -/
def Answerable (setup : Side → Setup pb κ) : Prop :=
  ∀ x message, Sendable (setup x).codec message →
    ∀ response ∈ answer (setup x) message, Sendable (setup x.other).codec response

theorem readEvent_goes {chunks : List Bytes} {answers : List (List Answer)} {remaining : Bytes}
    (answerable : Answerable setup) (inv : Inv kernel zlib setup s)
    (arrives : chunks.flatten ++ remaining = s.wire x.other)
    (mild : answers.all (·.all Answer.mild) = true)
    (sizes : ∀ chunk ∈ chunks, 0 < chunk.length ∧ chunk.length ≤ kReadBufferSize)
    (space : (s.ends x).connection.readBuffer.writeIndex + chunks.flatten.length < 2 ^ 32)
    (room : ∀ packets dropped, received zlib (setup x) chunks (s.ends x) = some (packets, dropped) →
      outputIndex (s.ends x).connection +
        ((packets.flatMap (responses (setup x))).map packetSize).sum < 2 ^ 32) :
    Goes kernel zlib setup s (.readEvent x chunks answers) := by
  obtain ⟨outgoing, out⟩ := inv x
  obtain ⟨incoming, into⟩ := inv x.other
  rw [Side.other_other] at into
  have pending : ∀ message ∈ incoming, Sendable (setup x).codec message := by
    intro message member
    have ok := into.sendable message
      (by rw [← into.delivered]; exact List.mem_append_right _ member)
    rwa [Side.other_other] at ok
  obtain ⟨whole, left, after, returns, reads⟩ := readEvent_reads out.carries into.valid
    (by rw [← into.octets, ← arrives, List.append_assoc chunks.flatten]) pending
    (fun message member => answerable x message (pending message member)) mild sizes space room
  have prefixed : chunks.flatten.isPrefixOf (s.wire x.other) = true := by
    rw [List.isPrefixOf_iff_prefix]
    exact ⟨remaining, arrives⟩
  refine ⟨(s.take x.other chunks.flatten.length).put x after, ?_, ?_, ?_⟩
  · rw [step, if_pos prefixed, returns]
    rfl
  · -- the side reads from one flow and answers into the other one
    have out' := out.passes reads.passes (by
      intro response member
      obtain ⟨message, inside, isAnswer⟩ := List.mem_flatMap.mp member
      have received : message ∈ incoming := by
        rw [reads.split]
        exact List.mem_append_left _ inside
      exact answerable x message (pending message received) response isAnswer)
    have reads' : Reads kernel zlib (setup x.other.other) (setup x.other).host
        (remaining ++ unsent kernel (s.ends x.other).connection) incoming whole left
          (s.ends x) after := by
      rw [Side.other_other]
      exact reads
    have into' := into.reads reads'
    have gone : (s.take x.other chunks.flatten.length).wire x.other = remaining := by
      rw [Link.take_wire_other, ← arrives, List.drop_left]
    rw [← reads.sent, ← Link.take_wire chunks.flatten.length] at out'
    rw [← gone] at into'
    exact inv_put out' into'
  · intro y
    apply ledger_put (s := s.take x.other chunks.flatten.length) (fun _ => []) ?_ rfl y
    exact ⟨whole, reads.handled, by rw [reads.sent, List.nil_append]; rfl⟩

end

theorem step_goes (answerable : Answerable setup) (s : Link pb κ) (act : Act pb)
    (inv : Inv kernel zlib setup s) (admissible : Admissible zlib setup s act = true)
    (sendable : ∀ x, ∀ message ∈ act.sends x, Sendable (setup x.other).codec message) :
    Goes kernel zlib setup s act := by
  cases act with
  | send x message answers =>
    simp only [Admissible, Bool.and_eq_true, decide_eq_true_eq] at admissible
    exact send_goes inv admissible.1 (sendable x message (by simp [Act.sends])) admissible.2
  | writeEvent x answers => exact writeEvent_goes inv admissible
  | readEvent x chunks answers =>
    simp only [Admissible, Bool.and_eq_true, decide_eq_true_eq, List.isPrefixOf_iff_prefix,
      List.all_eq_true] at admissible
    obtain ⟨⟨⟨⟨mild, ⟨remaining, arrives⟩⟩, sizes⟩, space⟩, room⟩ := admissible
    refine readEvent_goes answerable inv arrives ?_ sizes space ?_
    · simpa only [List.all_eq_true] using mild
    · intro packets dropped packetsOf
      rw [packetsOf] at room
      simpa using room

theorem step_inv (answerable : Answerable setup) (s : Link pb κ) (act : Act pb)
    (inv : Inv kernel zlib setup s)
    (ok : Admissible zlib setup s act = true ∧
      ∀ x, ∀ message ∈ act.sends x, Sendable (setup x.other).codec message) :
    ∃ next, step kernel zlib setup s act = some next ∧ Inv kernel zlib setup next := by
  obtain ⟨next, stepped, inv', -⟩ := step_goes answerable s act inv ok.1 ok.2
  exact ⟨next, stepped, inv'⟩

/-- All a side has sent so far are answers to what it has handled. -/
def Answers (kernel : Kernel) (zlib : Zlib) (setup : Side → Setup pb κ) (y : Side) (s : Link pb κ) :
    Prop :=
  Inv kernel zlib setup s ∧ (s.ends y).sent = (s.ends y).reading.handled.flatMap (answer (setup y))

theorem step_answers (answerable : Answerable setup) (y : Side) (s : Link pb κ) (act : Act pb)
    (inv : Answers kernel zlib setup y s)
    (ok : (Admissible zlib setup s act = true ∧
      ∀ x, ∀ message ∈ act.sends x, Sendable (setup x.other).codec message) ∧ act.sends y = []) :
    ∃ next, step kernel zlib setup s act = some next ∧ Answers kernel zlib setup y next := by
  obtain ⟨next, stepped, inv', ledger⟩ := step_goes answerable s act inv.1 ok.1.1 ok.1.2
  refine ⟨next, stepped, inv', ?_⟩
  obtain ⟨handled, grows, sent⟩ := ledger y
  rw [sent, grows, ok.2, inv.2, List.nil_append, List.flatMap_append]

variable (kernel zlib setup) in
theorem inv_start (sendFile : Side → Bool) : Inv kernel zlib setup (start pb κ sendFile) := by
  intro x
  have carries : Carries kernel [] (.create (sendFile x) false) :=
    (WriteShutdown.inv_start kernel (sendFile x)).2
  refine ⟨[], carries, by simp [start], Buffer.valid_fresh, rfl, .nil, ?_, ?_⟩
  · have nothing := carries.octets
    rw [FileBuffer.resolve, List.append_eq_nil_iff] at nothing
    simp only [start, nothing.2]
    rfl
  · intro item first
    cases first

end

/-- Two connections with the codec on top, any interleaving of `Codec::Send` on both
sides, write events with any refusals and read events that cut the octets anywhere,
with callbacks that send. Each side has handled the messages the other one sent, in
order, each once and by its own callback, except for the last ones; and these are
exactly the octets in the receiver's read buffer, on the wire and in the sender's
write buffer. Nothing is outstanding once the wire and the write buffer are empty. -/
theorem messages_delivered_in_order (kernel : Kernel) (zlib : Zlib) {pb : Protobuf} {κ : Type}
    (setup : Side → Setup pb κ) (answerable : Answerable setup) (sendFile : Side → Bool)
    (acts : List (Act pb))
    (sendable : ∀ act ∈ acts, ∀ x, ∀ message ∈ act.sends x, Sendable (setup x.other).codec message)
    (admissible : RunMeets (step kernel zlib setup)
      (fun s act => Admissible zlib setup s act = true) (start pb κ sendFile) acts) :
    ∃ s, run (step kernel zlib setup) (start pb κ sendFile) acts = some s ∧
      ∀ x, ∃ undelivered, (s.ends x.other).reading.handled ++ undelivered = (s.ends x).sent ∧
        List.Forall₂ (Delivered (setup x.other).codec) (s.ends x.other).reading.invoked
          (s.ends x.other).reading.handled ∧
        (s.ends x.other).connection.readBuffer.unread ++
            (s.wire x ++ unsent kernel (s.ends x).connection) =
          stream (setup x).host zlib undelivered ∧
        (undelivered = [] ↔ s.wire x = [] ∧ unsent kernel (s.ends x).connection = []) := by
  obtain ⟨s, reached, inv⟩ :=
    run_enabled (step_inv answerable) (inv_start kernel zlib setup sendFile)
    (admissible.and_forall sendable)
  refine ⟨s, reached, fun x => ?_⟩
  obtain ⟨undelivered, flow⟩ := inv x
  exact ⟨undelivered, flow.delivered, flow.invoked, flow.octets, flow.undelivered_eq_nil_iff⟩

/-- A side that only answers: what it has sent is, message by message, what its
callbacks answered to the requests handled so far, so the other side gets answers in
the order of its requests; and all of them once nothing is under way. -/
theorem requests_answered_in_order (kernel : Kernel) (zlib : Zlib) {pb : Protobuf} {κ : Type}
    (setup : Side → Setup pb κ) (answerable : Answerable setup) (sendFile : Side → Bool)
    (acts : List (Act pb)) (y : Side)
    (sendable : ∀ act ∈ acts, ∀ x, ∀ message ∈ act.sends x, Sendable (setup x.other).codec message)
    (answers : ∀ act ∈ acts, act.sends y = [])
    (admissible : RunMeets (step kernel zlib setup)
      (fun s act => Admissible zlib setup s act = true) (start pb κ sendFile) acts) :
    ∃ s, run (step kernel zlib setup) (start pb κ sendFile) acts = some s ∧
      (s.ends y).reading.handled <+: (s.ends y.other).sent ∧
      (s.ends y).sent = (s.ends y).reading.handled.flatMap (answer (setup y)) ∧
      (s.ends y.other).reading.handled <+: (s.ends y.other).sent.flatMap (answer (setup y)) ∧
      ((∀ x, s.wire x = [] ∧ unsent kernel (s.ends x).connection = []) →
        (s.ends y.other).reading.handled = (s.ends y.other).sent.flatMap (answer (setup y))) := by
  obtain ⟨s, reached, inv, only⟩ := run_enabled (step_answers answerable y)
    ⟨inv_start kernel zlib setup sendFile, rfl⟩
      ((admissible.and_forall sendable).and_forall answers)
  obtain ⟨toY, requests⟩ := inv y.other
  obtain ⟨fromY, responses⟩ := inv y
  rw [Side.other_other] at requests
  have asked : (s.ends y).reading.handled <+: (s.ends y.other).sent := ⟨toY, requests.delivered⟩
  refine ⟨s, reached, asked, only, ?_, ?_⟩
  · have got : (s.ends y.other).reading.handled <+: (s.ends y).sent := ⟨fromY, responses.delivered⟩
    rw [only] at got
    obtain ⟨later, eq⟩ := asked
    rw [← eq, List.flatMap_append]
    exact got.trans (List.prefix_append _ _)
  · intro quiet
    have allAsked := requests.undelivered_eq_nil_iff.mpr (quiet y.other)
    have allAnswered := responses.undelivered_eq_nil_iff.mpr (quiet y)
    have handled := requests.delivered
    have answered := responses.delivered
    rw [allAsked, List.append_nil] at handled
    rw [allAnswered, List.append_nil, only, handled] at answered
    exact answered

/-- An `id` of the test messages. -/
def toId (n : Nat) : Fin 128 := ⟨n % 128, Nat.mod_lt n (Nat.succ_pos 127)⟩

/-- Hosts of both byte orders; the server answers as the one of test_proto_server.cpp,
with the `id` of the message one higher. -/
def pingPong : Side → Setup CodecFraming.testMessages String
  | .client => ⟨.big, CodecFraming.testCodec, fun _ _ => []⟩
  | .server => ⟨.little, CodecFraming.testCodec,
    fun _ id => [CodecFraming.testId (Fin.add id (toId 1))]⟩

theorem testMessages_sendable (message : CodecFraming.testMessages.Message) :
    Sendable CodecFraming.testCodec message := by
  refine ⟨⟨rfl, CodecFraming.testId 0, rfl, ?_⟩, ?_, rfl⟩
  · revert message
    change ∀ id : Fin 128, CodecFraming.testMessages.parseFromString (0 : Fin 128)
      (CodecFraming.testMessages.serializeAsString id) = some id
    intro id
    by_cases zero : id = 0
    · rw [zero]
      rfl
    · have octet : (UInt8.ofNat id.val).toNat = id.val := by
        rw [UInt8.toNat_ofNat']
        omega
      simp only [CodecFraming.testMessages, zero, if_false, octet, id.isLt, dif_pos]
  · revert message
    change ∀ id : Fin 128, packetSize (CodecFraming.testId id) < 2 ^ 32
    intro id
    simp only [packetSize, CodecFraming.testMessages, CodecFraming.testId]
    split <;> simp only [List.length_cons, List.length_nil] <;> decide

theorem pingPong_answerable : Answerable pingPong := by
  intro x message _ response _
  cases x with
  | client => exact testMessages_sendable response
  | server => exact testMessages_sendable response

/-- The packet of a message with the given `id`. -/
def idPacket (n : Nat) : Bytes :=
  encapsulate .big CodecFraming.testMessages UntrustedPackets.lengthSum
    (CodecFraming.testId (toId n))

/-- A request whose packet arrives in two pieces, and the answer to it. -/
def requestAndAnswer : List (Act CodecFraming.testMessages) :=
  [.send .client (CodecFraming.testId (toId 9)) [.accept 9, .accept 99],
    .readEvent .server [(idPacket 9).take 5] [],
    .readEvent .server [(idPacket 9).drop 5] [[.fail .eagain]],
    .writeEvent .server [.accept 99],
    .readEvent .client [idPacket 10] []]

theorem requestAndAnswer_admissible :
    RunMeets (step .noFiles UntrustedPackets.lengthSum pingPong)
      (fun s act => Admissible UntrustedPackets.lengthSum pingPong s act = true)
      (start CodecFraming.testMessages String fun _ => false) requestAndAnswer := by
  decide +kernel

/-- The messages handled by the server and by the client. -/
def handledIds (s : Link CodecFraming.testMessages String) : List (Fin 128) × List (Fin 128) :=
  ((s.ends .server).reading.handled, (s.ends .client).reading.handled)

theorem requestAndAnswer_handled :
    (run (step .noFiles UntrustedPackets.lengthSum pingPong)
      (start CodecFraming.testMessages String fun _ => false) requestAndAnswer).map handledIds =
      some ([toId 9], [toId 10]) := by
  decide +kernel

theorem messages_delivered_in_order_requestAndAnswer :
    ∃ s, run (step .noFiles UntrustedPackets.lengthSum pingPong)
        (start CodecFraming.testMessages String fun _ => false) requestAndAnswer = some s ∧
      handledIds s = ([toId 9], [toId 10]) ∧
      [CodecFraming.testId (toId 9)] <+: (s.ends .client).sent ∧
      [CodecFraming.testId (toId 10)] <+: (s.ends .server).sent := by
  obtain ⟨s, reached, flows⟩ := messages_delivered_in_order .noFiles UntrustedPackets.lengthSum
    pingPong pingPong_answerable (fun _ => false) requestAndAnswer
    (fun _ _ x message _ => by cases x <;> exact testMessages_sendable message)
    requestAndAnswer_admissible
  have handled := requestAndAnswer_handled
  rw [reached, Option.map_some, Option.some.injEq] at handled
  obtain ⟨later, requests, -⟩ := flows .client
  obtain ⟨later', responses, -⟩ := flows .server
  have atServer : (s.ends .server).reading.handled = [CodecFraming.testId (toId 9)] :=
    congrArg Prod.fst handled
  have atClient : (s.ends .client).reading.handled = [CodecFraming.testId (toId 10)] :=
    congrArg Prod.snd handled
  refine ⟨s, reached, handled, ⟨later, ?_⟩, ⟨later', ?_⟩⟩
  · rw [← atServer]
    exact requests
  · rw [← atClient]
    exact responses

theorem requests_answered_in_order_requestAndAnswer :
    ∃ s, run (step .noFiles UntrustedPackets.lengthSum pingPong)
        (start CodecFraming.testMessages String fun _ => false) requestAndAnswer = some s ∧
      (s.ends .server).sent = [CodecFraming.testId (toId 10)] := by
  obtain ⟨s, reached, -, only, -⟩ := requests_answered_in_order .noFiles UntrustedPackets.lengthSum
    pingPong pingPong_answerable (fun _ => false) requestAndAnswer .server
    (fun _ _ x message _ => by cases x <;> exact testMessages_sendable message)
    (by decide) requestAndAnswer_admissible
  have handled := requestAndAnswer_handled
  rw [reached, Option.map_some, Option.some.injEq] at handled
  have atServer : (s.ends .server).reading.handled = [CodecFraming.testId (toId 9)] :=
    congrArg Prod.fst handled
  refine ⟨s, reached, ?_⟩
  rw [only, atServer]
  rfl

end Ladder.Guarantees.MessageTransport
