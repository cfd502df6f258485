import Ladder.Library.Framing
import Ladder.Guarantees.CodecFraming
import Ladder.Source.CodecDispatch

/-!
# Messages handled by a pool of workers

The loop thread reads the octets of a connection and queues a task for each read event;
any worker may run any task, and while one of them is inside `OnMessage` the loop thread
goes on reading. The messages are handled in the order in which they were sent, and once
the tasks are done no complete packet is left in the buffer.
-/
namespace Ladder.Guarantees.PoolDelivery
open Ladder.Library Ladder.Source Ladder.Source.Codec Ladder.Source.CodecDispatch
open Ladder.Guarantees.CodecFraming (Sendable Delivered Session looked rank stream)

variable {host : Endian} {zlib : Zlib} {pb : Protobuf} {κ : Type} {codec : ProtobufCodec pb κ}
  {messages undelivered : List pb.Message} {wire : Bytes} {s next : State pb κ}

/-- The reads deliver the octets of the stream, one after the other. -/
def delivers (octets : Bytes) (s : State pb κ) : Act → Bool
  | .read (.data data) => (s.dispatch.received ++ data.take kReadBufferSize).isPrefixOf octets
  | _ => true

/-- The connection as a session of the codec that has the wire still to write. -/
def sessionOf (s : State pb κ) (wire : Bytes) : Session pb κ :=
  ⟨s.dispatch.readBuffer, [wire], s.reading⟩

variable (host zlib codec messages) in
structure Inv (undelivered : List pb.Message) (wire : Bytes) (s : State pb κ) : Prop where
  session : CodecFraming.Inv host zlib codec messages undelivered (sessionOf s wire)
  octets : s.dispatch.received ++ wire = stream host zlib messages
  callback : s.dispatch.callback = none ∨ s.dispatch.callback = some .entered ∨
    s.dispatch.callback = some .served
  outside : s.dispatch.callback ≠ some .entered → s.reading.reader = .idle

variable (host zlib) in
/-- Where nobody has still to look at the buffer, it holds no complete packet. -/
def Attended (undelivered : List pb.Message) (s : State pb κ) : Prop :=
  s.dispatch.loop = .outside → s.dispatch.tasks = 0 → s.dispatch.callback ≠ some .entered →
    Unfinished (encapsulate host pb zlib) undelivered s.dispatch.readBuffer.unread

/-- What is unread and what is still on the wire are the packets of the other messages. -/
theorem Inv.undelivered_octets (inv : Inv host zlib codec messages undelivered wire s) :
    s.dispatch.readBuffer.unread ++ wire = stream host zlib undelivered := by
  simpa [sessionOf] using inv.session.octets

/-- The octets received are the packets of the messages handled and what is unread. -/
theorem Inv.received (inv : Inv host zlib codec messages undelivered wire s) :
    s.dispatch.received = stream host zlib s.reading.handled ++ s.dispatch.readBuffer.unread := by
  have whole := inv.octets
  rw [← inv.session.delivered, stream, List.flatMap_append, ← stream, ← stream,
    ← inv.undelivered_octets, ← List.append_assoc, List.append_left_inj] at whole
  exact whole

theorem Inv.cut (inv : Inv host zlib codec messages undelivered wire s)
    (unfinished : Unfinished (encapsulate host pb zlib) undelivered s.dispatch.readBuffer.unread) :
    CutAt (encapsulate host pb zlib) s.dispatch.received wire s.reading.handled undelivered
      s.dispatch.readBuffer.unread :=
  ⟨inv.received, inv.undelivered_octets, unfinished⟩

/-! ## The loop thread -/

/-- A step that leaves the octets and the reader alone. -/
theorem Inv.moves {dispatch : ReadDispatch.State}
    (inv : Inv host zlib codec messages undelivered wire s)
    (buffer : dispatch.readBuffer = s.dispatch.readBuffer)
    (received : dispatch.received = s.dispatch.received)
    (callback : dispatch.callback = s.dispatch.callback) :
    Inv host zlib codec messages undelivered wire { s with dispatch := dispatch } := by
  constructor
  · rw [sessionOf, buffer]
    exact inv.session
  · rw [received]
    exact inv.octets
  · rw [callback]
    exact inv.callback
  · rw [callback]
    exact inv.outside

/-- A round of `ReadBufferFromFd` takes the next octets from the wire. -/
theorem Inv.receives {octets rest : Bytes}
    (inv : Inv host zlib codec messages undelivered (octets ++ rest) s) :
    Inv host zlib codec messages undelivered rest
      { s with dispatch := { s.dispatch with
          readBuffer := s.dispatch.readBuffer.writeChars octets octets.length
          received := s.dispatch.received ++ octets } } := by
  have written : s.dispatch.readBuffer.writeChars octets octets.length =
      s.dispatch.readBuffer.write octets := by
    rw [Buffer.writeChars_eq_write (le_refl _), List.take_length]
  have parts : CodecFraming.Inv host zlib codec messages undelivered
      ⟨s.dispatch.readBuffer, [octets, rest], s.reading⟩ := by
    obtain ⟨valid, room, delivered, invoked, unread, reader⟩ := inv.session
    exact ⟨valid, by simpa [sessionOf] using room, delivered,
      invoked, by simpa [sessionOf] using unread, reader⟩
  constructor
  · simp only [sessionOf, written]
    exact CodecFraming.inv_write parts rfl
  · rw [List.append_assoc]
    exact inv.octets
  · exact inv.callback
  · exact inv.outside

theorem read_inv {incoming : Incoming} (inv : Inv host zlib codec messages undelivered wire s)
    (allowed : delivers (stream host zlib messages) s (.read incoming) = true)
    (stepped : dispatched s (.read incoming) = some next) :
    (∃ rest, Inv host zlib codec messages undelivered rest next) ∧
      (incoming ≠ .fail .econnreset → Attended host zlib undelivered next) := by
  obtain ⟨dispatch, moved, rfl⟩ := Option.map_eq_some_iff.mp stepped
  simp only [ReadDispatch.step] at moved
  split at moved
  · rename_i reading
    cases incoming with
    | data data =>
      obtain ⟨rest, split_⟩ := List.isPrefixOf_iff_prefix.mp allowed
      rw [← inv.octets, List.append_assoc, List.append_right_inj] at split_
      have received := (split_ ▸ inv).receives
      simp only [ReadDispatch.readRound, Option.some.injEq] at moved
      subst dispatch
      constructor
      · refine ⟨rest, ?_⟩
        split
        · exact received.moves rfl rfl rfl
        · exact received
      · intro _ outside
        split at outside
        · cases outside
        · rw [show s.dispatch.loop = .outside from outside] at reading
          cases reading
    | fail errno =>
      cases errno with
      | eagain =>
        cases moved
        exact ⟨⟨wire, inv.moves rfl rfl rfl⟩, fun _ outside => by cases outside⟩
      | econnreset =>
        cases moved
        exact ⟨⟨wire, inv.moves rfl rfl rfl⟩, fun other => absurd rfl other⟩
      | epipe => cases moved
      | other => cases moved
  · cases moved

/-- The next packet has a whole header. -/
theorem header_le {session : Session pb κ} {message : pb.Message}
    (sendable : ∀ message ∈ messages, Sendable codec message)
    (inv : CodecFraming.Inv host zlib codec messages undelivered session)
    (first : message ∈ undelivered.head?) :
    kHeaderLength ≤ (encapsulate host pb zlib message).length := by
  have member : message ∈ messages := by
    rw [← inv.delivered]
    exact List.mem_append_right _ (List.mem_of_mem_head? first)
  rw [CodecFraming.encapsulate_length host zlib codec (sendable message member),
    CodecFraming.packetSize]
  exact Nat.le_add_right _ _

/-- An empty buffer holds no packet. -/
theorem Inv.unfinished_nil (sendable : ∀ message ∈ messages, Sendable codec message)
    (inv : Inv host zlib codec messages undelivered wire s) :
    Unfinished (encapsulate host pb zlib) undelivered [] := by
  intro message first
  have header := header_le sendable inv.session first
  exact Nat.lt_of_lt_of_le (by decide) header

theorem test_inv (sendable : ∀ message ∈ messages, Sendable codec message)
    (inv : Inv host zlib codec messages undelivered wire s)
    (stepped : dispatched s .test = some next) :
    Inv host zlib codec messages undelivered wire next ∧ Attended host zlib undelivered next := by
  obtain ⟨dispatch, moved, rfl⟩ := Option.map_eq_some_iff.mp stepped
  simp only [ReadDispatch.step] at moved
  split at moved
  · cases moved
    refine ⟨inv.moves rfl rfl rfl, ?_⟩
    intro outside _ _
    have empty : s.dispatch.readBuffer.empty = true := by
      by_contra some_
      rw [if_neg some_] at outside
      cases outside
    rw [show s.dispatch.readBuffer.unread = [] from inv.session.valid.empty_iff.mp empty]
    exact inv.unfinished_nil sendable
  · cases moved

theorem onReadCallback_inv (inv : Inv host zlib codec messages undelivered wire s)
    (stepped : dispatched s .onReadCallback = some next) :
    Inv host zlib codec messages undelivered wire next ∧
      (Attended host zlib undelivered s → Attended host zlib undelivered next) := by
  obtain ⟨dispatch, moved, rfl⟩ := Option.map_eq_some_iff.mp stepped
  simp only [ReadDispatch.step] at moved
  split at moved
  · cases moved
    split
    · exact ⟨inv, fun attended => attended⟩
    · exact ⟨inv.moves rfl rfl rfl, fun _ outside => by cases outside⟩
  · cases moved

theorem emplace_inv (inv : Inv host zlib codec messages undelivered wire s)
    (stepped : dispatched s .emplace = some next) :
    Inv host zlib codec messages undelivered wire next ∧ Attended host zlib undelivered next := by
  obtain ⟨dispatch, moved, rfl⟩ := Option.map_eq_some_iff.mp stepped
  simp only [ReadDispatch.step] at moved
  split at moved
  · cases moved
    exact ⟨inv.moves rfl rfl rfl, fun _ none => absurd none (Nat.succ_ne_zero _)⟩
  · cases moved

/-! ## The workers -/

/-- A look that ends the call has found no complete packet. -/
theorem looked_unfinished {session : Session pb κ}
    (sendable : ∀ message ∈ messages, Sendable codec message)
    (inv : CodecFraming.Inv host zlib codec messages undelivered session)
    (looks : looked host session = some .idle) :
    Unfinished (encapsulate host pb zlib) undelivered session.buffer.unread := by
  intro message first
  have readable := inv.valid.readableBytes_eq
  have known := inv.reader
  have header := header_le sendable inv first
  cases here : session.reading.reader with
  | header =>
    simp only [looked, here, Option.some.injEq] at looks
    split at looks
    · omega
    · cases looks
  | available length =>
    rw [here] at known
    obtain ⟨message', rest, eq, len⟩ := known
    rw [eq] at first
    cases first
    simp only [looked, here, Option.some.injEq] at looks
    split at looks
    · omega
    · cases looks
  | _ => simp [looked, here] at looks

theorem onMessage_of_step {session after : Session pb κ}
    (stepped : CodecFraming.step host zlib codec session .read = some after) :
    onMessage host zlib codec session.reading session.buffer = some (after.reading, after.buffer) ∧
      after.pending = session.pending := by
  simp only [CodecFraming.step] at stepped
  split at stepped
  · rename_i reading buffer result
    cases stepped
    exact ⟨result, rfl⟩
  · cases stepped

theorem Inv.called {after : Session pb κ} {rest : List pb.Message}
    (inv : Inv host zlib codec messages undelivered wire s)
    (framed : CodecFraming.Inv host zlib codec messages rest after)
    (pending : after.pending = [wire]) :
    Inv host zlib codec messages rest wire (called s after.reading after.buffer) := by
  obtain ⟨buffer, pending', reading⟩ := after
  cases pending
  refine ⟨framed, inv.octets, ?_, ?_⟩
  · unfold CodecDispatch.called
    split
    · exact .inr (.inr rfl)
    · exact .inr (.inl rfl)
  · intro left
    by_contra busy
    exact left (congrArg some (if_neg busy))

/-- Where a task stands: it has to enter, is inside a call of `OnMessage`, or has to release
the mutex. -/
def stage : Option ReadDispatch.Callback → Reader → Nat
  | some .entered, .idle => 7
  | some .entered, reader => rank reader + 1
  | some .served, _ => 1
  | _, _ => 0

/-- A bound on the steps the workers have still to make. -/
def work (messages : List pb.Message) (s : State pb κ) : Nat :=
  8 * s.dispatch.tasks + 6 * (messages.length - s.reading.handled.length) +
    stage s.dispatch.callback s.reading.reader

/-- The loop thread stands where it stood, and nothing new was received. -/
structure Beside (s next : State pb κ) : Prop where
  loop : next.dispatch.loop = s.dispatch.loop
  received : next.dispatch.received = s.dispatch.received

theorem stage_entered {reader : Reader} (busy : reader ≠ .idle) :
    stage (some .entered) reader = rank reader + 1 := by
  cases reader with
  | idle => exact absurd rfl busy
  | _ => rfl

/-- The look of a task leads to a lower stage. -/
theorem stage_looked {reader : Reader} (entered : s.dispatch.callback = some .entered)
    (looks : looked host (sessionOf s wire) = some reader) :
    stage (some (if reader = .idle then .served else .entered)) reader <
      stage s.dispatch.callback s.reading.reader := by
  rw [entered]
  by_cases before : s.reading.reader = .idle
  · have header : reader = .header := by
      simp only [looked, sessionOf, before, Option.some.injEq] at looks
      exact looks.symm
    rw [header, before]
    decide
  · have lower := CodecFraming.looked_rank looks before
    rw [stage_entered before]
    by_cases after : reader = .idle
    · rw [if_pos after, stage]
      exact Nat.succ_lt_succ (Nat.zero_lt_of_lt lower)
    · rw [if_neg after, stage_entered after]
      exact Nat.succ_lt_succ lower

/-- A Buffer call of `OnMessage`. -/
theorem onMessage_steps (sendable : ∀ message ∈ messages, Sendable codec message)
    (inv : Inv host zlib codec messages undelivered wire s)
    (entered : s.dispatch.callback = some .entered) :
    ∃ next rest, step host zlib codec s .onMessage = some next ∧
      Inv host zlib codec messages rest wire next ∧
      Attended host zlib rest next ∧ Beside s next ∧ work messages next < work messages s := by
  obtain ⟨reader, looks⟩ | ⟨length, buf, here⟩ := CodecFraming.reader_cases inv.session
  · have stepped : CodecFraming.step host zlib codec (sessionOf s wire) .read =
        some ((sessionOf s wire).standing reader) := CodecFraming.step_looked looks
    obtain ⟨result, pending⟩ := onMessage_of_step stepped
    have framed := CodecFraming.inv_looked inv.session sendable looks
    refine ⟨_, undelivered, ?_, inv.called framed pending, ?_, ⟨rfl, rfl⟩, ?_⟩
    · rw [step, if_pos entered]
      exact congrArg (Option.map _) result
    · intro _ _ left
      have returned : reader = .idle := by
        by_contra busy
        exact left (congrArg some (if_neg busy))
      rw [returned] at looks
      have found := looked_unfinished sendable inv.session looks
      exact found
    · have lower := stage_looked entered looks
      exact Nat.add_lt_add_left lower _
  · obtain ⟨after, stepped⟩ := CodecFraming.consume_enabled host zlib codec here
    obtain ⟨result, pending⟩ := onMessage_of_step stepped
    obtain ⟨message, rest, left, atHeader, framed⟩ :=
      CodecFraming.inv_consume inv.session sendable here stepped
    have still : ¬ after.reading.reader = .idle := by
      rw [atHeader]
      exact nofun
    refine ⟨_, rest, ?_, inv.called framed pending, ?_, ⟨rfl, rfl⟩, ?_⟩
    · rw [step, if_pos entered]
      exact congrArg (Option.map _) result
    · intro _ _ out
      exact absurd (congrArg some (if_neg still)) out
    · have count := congrArg List.length inv.session.delivered
      have count' := congrArg List.length framed.delivered
      rw [left] at count
      simp only [List.length_append, List.length_cons] at count count'
      have before : stage s.dispatch.callback s.reading.reader = 2 := by
        rw [entered, show s.reading.reader = .consume length buf from here]
        rfl
      have later : stage (some (if after.reading.reader = .idle then .served else .entered))
          after.reading.reader = 6 := by
        rw [atHeader]
        rfl
      change 8 * s.dispatch.tasks + 6 *
        (messages.length - after.reading.handled.length) + stage _ _ <
        8 * s.dispatch.tasks + 6 * (messages.length - s.reading.handled.length) + stage _ _
      rw [before]
      simp only [CodecDispatch.called, later]
      simp only [sessionOf] at count
      omega

/-- A task takes the mutex. -/
theorem lockCallback_steps (inv : Inv host zlib codec messages undelivered wire s)
    (queued : 0 < s.dispatch.tasks) (free : s.dispatch.callback = none) :
    ∃ next, step host zlib codec s .lockCallback = some next ∧
      Inv host zlib codec messages undelivered wire next ∧
      Attended host zlib undelivered next ∧ Beside s next ∧
      work messages next < work messages s := by
  have idle := inv.outside (by rw [free]; exact nofun)
  refine ⟨{ s with dispatch := { s.dispatch with
      tasks := s.dispatch.tasks - 1
      callback := some .entered
      found := s.dispatch.found ++ [s.dispatch.readBuffer.readableBytes] } }, ?_, ?_,
        ?_, ⟨rfl, rfl⟩, ?_⟩
  · rw [step, dispatched, ReadDispatch.step, if_pos ⟨queued, free⟩]
    rfl
  · exact ⟨inv.session, inv.octets, .inr (.inl rfl), fun other => absurd rfl other⟩
  · intro _ _ other
    exact absurd rfl other
  · simp only [work, free, idle, stage]
    omega

/-- A task that has been served releases the mutex. -/
theorem unlockCallback_steps (inv : Inv host zlib codec messages undelivered wire s)
    (served : s.dispatch.callback = some .served) :
    ∃ next, step host zlib codec s .unlockCallback = some next ∧
      Inv host zlib codec messages undelivered wire next ∧
      (Attended host zlib undelivered s → Attended host zlib undelivered next) ∧
      Beside s next ∧ work messages next < work messages s := by
  have idle := inv.outside (by rw [served]; exact nofun)
  refine ⟨{ s with dispatch := { s.dispatch with callback := none } }, ?_,
    ⟨inv.session, inv.octets, .inl rfl, fun _ => idle⟩, ?_, ⟨rfl, rfl⟩, ?_⟩
  · rw [step, dispatched, ReadDispatch.step, if_pos served]
    rfl
  · intro attended outside none _
    exact attended outside none (by rw [served]; exact nofun)
  · simp only [work, served, stage]
    omega

/-! ## Whole runs -/

/-- What a task that is queued or runs lets the workers do. -/
theorem worker_steps (sendable : ∀ message ∈ messages, Sendable codec message)
    (inv : Inv host zlib codec messages undelivered wire s)
    (busy : ¬ (s.dispatch.tasks = 0 ∧ s.dispatch.callback = none)) :
    ∃ act next rest, act.byWorker = true ∧ step host zlib codec s act = some next ∧
      Inv host zlib codec messages rest wire next ∧
      (Attended host zlib undelivered s → Attended host zlib rest next) ∧ Beside s next ∧
      work messages next < work messages s := by
  rcases inv.callback with free | entered | served
  · have queued : 0 < s.dispatch.tasks := Nat.pos_of_ne_zero fun none => busy ⟨none, free⟩
    obtain ⟨next, stepped, inv', attended, beside, lower⟩ := lockCallback_steps inv queued free
    exact ⟨.lockCallback, next, undelivered, rfl, stepped, inv', fun _ => attended, beside, lower⟩
  · obtain ⟨next, rest, stepped, inv', attended, beside, lower⟩ :=
      onMessage_steps sendable inv entered
    exact ⟨.onMessage, next, rest, rfl, stepped, inv', fun _ => attended, beside, lower⟩
  · obtain ⟨next, stepped, effects⟩ := unlockCallback_steps inv served
    exact ⟨.unlockCallback, next, undelivered, rfl, stepped, effects⟩

theorem step_inv (sendable : ∀ message ∈ messages, Sendable codec message) (act : Act)
    (inv : Inv host zlib codec messages undelivered wire s)
    (allowed : delivers (stream host zlib messages) s act = true)
    (stepped : step host zlib codec s act = some next) :
    ∃ undelivered' wire', Inv host zlib codec messages undelivered' wire' next ∧
      (act ≠ .read (.fail .econnreset) → Attended host zlib undelivered s →
        Attended host zlib undelivered' next) := by
  cases act with
  | onReadCallback =>
    obtain ⟨inv', attended⟩ := onReadCallback_inv inv stepped
    exact ⟨undelivered, wire, inv', fun _ => attended⟩
  | read incoming =>
    obtain ⟨⟨rest, inv'⟩, attended⟩ := read_inv inv allowed stepped
    exact ⟨undelivered, rest, inv',
      fun other _ => attended fun reset => other (congrArg Act.read reset)⟩
  | test =>
    obtain ⟨inv', attended⟩ := test_inv sendable inv stepped
    exact ⟨undelivered, wire, inv', fun _ _ => attended⟩
  | emplace =>
    obtain ⟨inv', attended⟩ := emplace_inv inv stepped
    exact ⟨undelivered, wire, inv', fun _ _ => attended⟩
  | lockCallback =>
    have enabled : 0 < s.dispatch.tasks ∧ s.dispatch.callback = none := by
      by_contra other
      rw [step, dispatched, ReadDispatch.step, if_neg other] at stepped
      cases stepped
    obtain ⟨next', moved, inv', attended, -⟩ := lockCallback_steps inv enabled.1 enabled.2
    obtain rfl : next = next' := Option.some.inj (stepped.symm.trans moved)
    exact ⟨undelivered, wire, inv', fun _ _ => attended⟩
  | onMessage =>
    have entered : s.dispatch.callback = some .entered := by
      by_contra other
      rw [step, if_neg other] at stepped
      cases stepped
    obtain ⟨next', rest, moved, inv', attended, -⟩ := onMessage_steps sendable inv entered
    obtain rfl : next = next' := Option.some.inj (stepped.symm.trans moved)
    exact ⟨rest, wire, inv', fun _ _ => attended⟩
  | unlockCallback =>
    have served : s.dispatch.callback = some .served := by
      by_contra other
      rw [step, dispatched, ReadDispatch.step, if_neg other] at stepped
      cases stepped
    obtain ⟨next', moved, inv', attended, -⟩ := unlockCallback_steps inv served
    obtain rfl : next = next' := Option.some.inj (stepped.symm.trans moved)
    exact ⟨undelivered, wire, inv', fun _ => attended⟩

theorem inv_start (small : (stream host zlib messages).length < 2 ^ 32) :
    Inv host zlib codec messages messages (stream host zlib messages) (start pb κ) := by
  have framed : CodecFraming.Inv host zlib codec messages messages
      (CodecFraming.start pb κ [stream host zlib messages]) :=
    CodecFraming.inv_start (List.flatten_singleton) small
  exact ⟨framed, rfl, .inl rfl, fun _ => rfl⟩

theorem attended_start (sendable : ∀ message ∈ messages, Sendable codec message)
    (inv : Inv host zlib codec messages messages wire (start pb κ)) :
    Attended host zlib messages (start pb κ) := by
  intro _ _ _
  exact inv.unfinished_nil sendable

/-- The workers alone bring every task to its end. -/
theorem workers_finish (sendable : ∀ message ∈ messages, Sendable codec message) (strict : Prop)
    (inv : Inv host zlib codec messages undelivered wire s)
    (attended : strict → Attended host zlib undelivered s) :
    ∃ acts final rest, (∀ act ∈ acts, act.byWorker = true) ∧
      run (step host zlib codec) s acts = some final ∧
      final.dispatch.tasks = 0 ∧ final.dispatch.callback = none ∧ Beside s final ∧
      Inv host zlib codec messages rest wire final ∧ (strict → Attended host zlib rest final) := by
  have progress (t : State pb κ) (kept : ∃ rest, Inv host zlib codec messages rest wire t ∧
      (strict → Attended host zlib rest t) ∧ Beside s t)
      (busy : ¬ (t.dispatch.tasks = 0 ∧ t.dispatch.callback = none)) :
      ∃ act next, act.byWorker = true ∧ step host zlib codec t act = some next ∧
        (∃ rest, Inv host zlib codec messages rest wire next ∧
          (strict → Attended host zlib rest next) ∧
          Beside s next) ∧ work messages next < work messages t := by
    obtain ⟨rest, inv, attended, beside⟩ := kept
    obtain ⟨act, next, rest', kind, stepped, inv', attends, beside', lower⟩ :=
      worker_steps sendable inv busy
    exact ⟨act, next, kind, stepped, ⟨rest', inv', fun holds => attends (attended holds),
      ⟨beside'.loop.trans beside.loop, beside'.received.trans beside.received⟩⟩, lower⟩
  obtain ⟨acts, final, kinds, reached, ⟨none, free⟩, rest, inv', attended', beside⟩ :=
    run_progresses _ (fun t : State pb κ => t.dispatch.tasks = 0 ∧ t.dispatch.callback = none)
      (fun act : Act => act.byWorker = true) (work messages) progress s
        ⟨undelivered, inv, attended, rfl, rfl⟩
  exact ⟨acts, final, rest, kinds, reached, none, free, beside, inv', attended'⟩

/-- Two packets in two read events, the first one cut inside the second packet, with a task
inside `OnMessage` when the rest arrives. -/
def cutInTwo : List Act :=
  let octets := stream .little CodecFraming.crc32Reference CodecFraming.twoMessages
  [.onReadCallback, .read (.data (octets.take 40)), .read (.fail .eagain), .test,
    .emplace, .lockCallback, .onMessage, .onMessage, .onReadCallback,
    .read (.data (octets.drop 40)), .onMessage,
    .read (.fail .eagain), .test, .emplace]

end Ladder.Guarantees.PoolDelivery
