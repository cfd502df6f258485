import Ladder.Library.Runs
import Ladder.Source.TlsConnection

/-!
# Application data around the TLS handshake

A worker thread calls `TlsConnection::Send` while the loop thread runs
`ReadFromBuffer`, which may complete the handshake and flush `pre_write_buffer_`. The
worker's test of the handshake and its write to the buffer are two steps, so the
flush can come in between. The invariant is an account of every octet sent: handed
over by the loop thread, waiting in the buffer, handed over by the worker, or still
in the worker's hands, in this order.
-/
namespace Ladder.Guarantees.TlsHandshake
open Ladder.Library Ladder.Source Ladder.Source.TlsConnection

inductive Act where
  | send (content : Bytes)
  | receive (len : Nat)
  | worker (room : Nat)
  | loop (result : SslResult) (room : Nat)
  deriving DecidableEq, Repr

structure State where
  initFinished : Bool
  preWriteBuffer : Buffer
  worker : Option Sending
  loop : Receiving
  sent : List Bytes
  /-- Octets each thread has handed to `SSL_write`. -/
  byLoop : Bytes
  byWorker : Bytes
  deriving DecidableEq, Repr

def start : State := ⟨false, .fresh, none, .idle, [], [], []⟩

def step (s : State) : Act → Option State
  | .send content =>
    match s.worker with
    | none => some { s with worker := some (.test content), sent := s.sent ++ [content] }
    | some _ => none
  | .receive len =>
    match s.loop with
    | .idle => some { s with loop := if len = 0 then .idle else .bioWrite len }
    | _ => none
  | .worker room =>
    match s.worker with
    | none => none
    | some sending =>
      let sent := sendStep s.initFinished room s.preWriteBuffer sending
      some { s with
        worker := sent.next
        preWriteBuffer := sent.preWriteBuffer
        byWorker := s.byWorker ++ sent.handed }
  | .loop result room =>
    match receiveStep result room s.initFinished s.preWriteBuffer s.loop with
    | none => none
    | some received =>
      some { s with
        loop := received.next
        initFinished := received.initFinished
        preWriteBuffer := received.preWriteBuffer
        byLoop := s.byLoop ++ received.handed }

/-- `OnSslHandshakeFinished` has taken the contents of `pre_write_buffer_`. -/
def flushed (s : State) : Bool :=
  s.initFinished &&
    match s.loop with
    | .readAll _ => false
    | _ => true

/-- No write to `pre_write_buffer_` after it was flushed, and all lengths are
below 2^31. -/
def Prompt (s : State) : Act → Bool
  | .send content => content.length < 2 ^ 31
  | .worker _ =>
    match s.worker with
    | some (.preWrite buf) => !flushed s && s.preWriteBuffer.writeIndex + buf.length < 2 ^ 31
    | _ => true
  | _ => true

/-! ## The account -/

def inHand : Option Sending → Bytes
  | some sending => sending.left
  | none => []

def resending : Receiving → Bytes
  | .resend _ sending => sending.left
  | _ => []

/-- What a position of `ReadFromBuffer` implies. -/
def LoopOk (initFinished : Bool) : Receiving → Prop
  | .handshake _ => initFinished = false
  | .readAll _ => initFinished = true
  | .resend _ sending => initFinished = true ∧ sending.Fits ∧ ∀ buf, sending ≠ .preWrite buf
  | _ => True

/-- What a position of the worker implies: octets are handed over directly only
after the handshake, and the detour over the buffer is taken before that. -/
def WorkerOk (initFinished : Bool) (byWorker : Bytes) : Option Sending → Prop
  | none => True
  | some (.test buf) => buf.length < 2 ^ 31
  | some (.preWrite buf) => buf.length < 2 ^ 31 ∧ byWorker = []
  | some (.sslWrite buf nWritten) => (Sending.sslWrite buf nWritten).Fits ∧ initFinished = true

structure Books (s : State) : Prop where
  valid : s.preWriteBuffer.Valid
  small : s.preWriteBuffer.writeIndex < 2 ^ 31
  octets : s.byLoop ++ (resending s.loop ++ (s.preWriteBuffer.unread ++
    (s.byWorker ++ inHand s.worker))) = s.sent.flatten
  direct : s.initFinished = false → s.byWorker = []
  unflushed : flushed s = false → s.byLoop = [] ∧ resending s.loop = []
  emptied : flushed s = true → s.preWriteBuffer.unread = []
  worker : WorkerOk s.initFinished s.byWorker s.worker
  loop : LoopOk s.initFinished s.loop

variable {s next : State}

theorem books_send {content : Bytes} (books : Books s) (prompt : Prompt s (.send content) = true)
    (stepped : step s (.send content) = some next) : Books next := by
  cases idle : s.worker with
  | some sending => simp [step, idle] at stepped
  | none =>
    simp only [step, idle, Option.some.injEq] at stepped
    simp only [Prompt, decide_eq_true_eq] at prompt
    subst next
    have octets := books.octets
    refine ⟨books.valid, books.small, ?_, books.direct, books.unflushed, books.emptied,
      prompt, books.loop⟩
    simp only [idle, inHand, List.append_nil] at octets
    simp only [inHand, Sending.left, List.flatten_append, List.flatten_singleton, ← octets,
      List.append_assoc]

/-- The worker tests whether the handshake is finished. -/
theorem books_test {buf : Bytes} (books : Books s) (inside : s.worker = some (.test buf)) :
    Books { s with
      worker := some (if s.initFinished then .sslWrite buf 0 else .preWrite buf) } := by
  have octets := books.octets
  have known := books.worker
  rw [inside] at octets known
  refine ⟨books.valid, books.small, ?_, books.direct, books.unflushed,
    books.emptied, ?_, books.loop⟩
  · cases s.initFinished <;> exact octets
  · cases finished : s.initFinished with
    | true => exact ⟨⟨known, Nat.zero_le _⟩, rfl⟩
    | false => exact ⟨known, books.direct finished⟩

/-- The worker writes to `pre_write_buffer_`, before the flush: nothing has been
handed over directly yet, so the string keeps its place in the account. -/
theorem books_preWrite {buf : Bytes} (books : Books s) (inside : s.worker = some (.preWrite buf))
    (early : flushed s = false) (short : s.preWriteBuffer.writeIndex + buf.length < 2 ^ 31) :
    Books { s with worker := none, preWriteBuffer := s.preWriteBuffer.write buf } := by
  have room : s.preWriteBuffer.writeIndex + buf.length < 2 ^ 32 := by omega
  have octets := books.octets
  have known := books.worker
  rw [inside] at octets known
  obtain ⟨-, nothing⟩ := known
  refine ⟨books.valid.write_valid room, ?_, ?_, books.direct, books.unflushed, ?_,
    trivial, books.loop⟩
  · simpa only [Buffer.writeIndex_write room] using short
  · simp only [nothing, inHand, Sending.left, List.nil_append] at octets
    simp only [books.valid.unread_write room, nothing, inHand, List.append_nil, octets]
  · intro late
    have same : flushed s = true := late
    rw [early] at same
    cases same

/-- The worker hands octets to `SSL_write`, or has handed over all. -/
theorem books_sslWrite {buf : Bytes} {nWritten : Nat} (books : Books s)
    (inside : s.worker = some (.sslWrite buf nWritten)) (room : Nat) :
    let sent := sendStep s.initFinished room s.preWriteBuffer (.sslWrite buf nWritten)
    Books { s with
      worker := sent.next
      preWriteBuffer := sent.preWriteBuffer
      byWorker := s.byWorker ++ sent.handed } := by
  have octets := books.octets
  have known := books.worker
  rw [inside] at octets known
  obtain ⟨fits, finished⟩ := known
  rcases sendStep_sslWrite fits s.initFinished room s.preWriteBuffer with
    ⟨n, sent, within⟩ | ⟨sent, done⟩
  · rw [sent]
    refine ⟨books.valid, books.small, ?_, ?_, books.unflushed, books.emptied,
      ⟨⟨fits.1, within⟩, finished⟩, books.loop⟩
    · simp only [inHand, Sending.left, List.append_assoc, ← List.drop_drop, List.take_append_drop]
      exact octets
    · intro unfinished
      rw [finished] at unfinished
      cases unfinished
  · rw [sent]
    simp only [inHand, Sending.left, done] at octets
    refine ⟨books.valid, books.small, ?_, ?_, books.unflushed, books.emptied, trivial, books.loop⟩
    · simpa only [inHand, List.append_nil] using octets
    · intro unfinished
      simpa only [List.append_nil] using books.direct unfinished

theorem books_worker {room : Nat} (books : Books s) (prompt : Prompt s (.worker room) = true)
    (stepped : step s (.worker room) = some next) : Books next := by
  cases inside : s.worker with
  | none => simp [step, inside] at stepped
  | some sending =>
    simp only [step, inside, Option.some.injEq] at stepped
    subst next
    cases sending with
    | test buf => simpa only [sendStep, List.append_nil] using books_test books inside
    | preWrite buf =>
      simp only [Prompt, inside, Bool.and_eq_true, Bool.not_eq_true', decide_eq_true_eq] at prompt
      simpa only [sendStep, List.append_nil] using books_preWrite books inside prompt.1 prompt.2
    | sslWrite buf nWritten => exact books_sslWrite books inside room

/-! ## The loop thread -/

/-- Positions outside of `OnSslHandshakeFinished`. -/
def passive : Receiving → Bool
  | .readAll _ | .resend _ _ => false
  | _ => true

theorem flushed_passive (outside : passive s.loop = true) : flushed s = s.initFinished := by
  unfold flushed
  split
  · rename_i here
    rw [here] at outside
    cases outside
  · exact Bool.and_true _

theorem resending_passive {loop : Receiving} (outside : passive loop = true) :
    resending loop = [] := by
  cases loop with
  | resend left sending => cases outside
  | _ => rfl

/-- Steps of the loop thread that neither finish the handshake nor hand over octets. -/
theorem books_quiet {loop : Receiving} (books : Books s) (before : passive s.loop = true)
    (after : passive loop = true) (known : LoopOk s.initFinished loop) :
    Books { s with loop := loop, byLoop := s.byLoop ++ [] } := by
  have octets := books.octets
  have same : flushed { s with loop := loop, byLoop := s.byLoop ++ [] } = flushed s := by
    rw [flushed_passive before]
    exact flushed_passive after
  refine ⟨books.valid, books.small, ?_, books.direct, ?_, ?_, books.worker, known⟩
  · rw [resending_passive before] at octets
    simpa only [resending_passive after, List.append_nil] using octets
  · intro unflushed
    rw [same] at unflushed
    exact ⟨by simpa only [List.append_nil] using (books.unflushed unflushed).1,
      resending_passive after⟩
  · intro late
    rw [same] at late
    exact books.emptied late

/-- `SSL_do_handshake` reports completion: nothing was handed over before. -/
theorem books_finished {left : Nat} (books : Books s) (here : s.loop = .handshake left) :
    Books { s with loop := .readAll left, initFinished := true } := by
  have unfinished : s.initFinished = false := by
    have known := books.loop
    rwa [here] at known
  have early : flushed s = false := by
    simp only [flushed, unfinished, Bool.false_and]
  obtain ⟨nothing, none⟩ := books.unflushed early
  have octets := books.octets
  rw [none] at octets
  refine ⟨books.valid, books.small, octets, nofun, fun _ => ⟨nothing, rfl⟩, nofun, ?_, rfl⟩
  have known := books.worker
  cases inside : s.worker with
  | none => trivial
  | some sending =>
    rw [inside] at known
    cases sending with
    | test buf => exact known
    | preWrite buf => exact known
    | sslWrite buf nWritten => exact ⟨known.1, rfl⟩

/-- `OnSslHandshakeFinished` takes the contents of the buffer to send them again. -/
theorem books_readAll {left : Nat} (books : Books s) (here : s.loop = .readAll left) :
    Books { s with
      loop := .resend left (.test s.preWriteBuffer.readAll.1)
      preWriteBuffer := s.preWriteBuffer.readAll.2 } := by
  have finished : s.initFinished = true := by
    have known := books.loop
    rwa [here] at known
  have early : flushed s = false := by
    simp only [flushed, here, Bool.and_false]
  obtain ⟨nothing, none⟩ := books.unflushed early
  obtain ⟨valid, emptied, index⟩ := books.valid.readAll_snd
  have small := books.small
  have octets := books.octets
  have length : s.preWriteBuffer.readAll.1.length < 2 ^ 31 := by
    rw [books.valid.readAll_fst, books.valid.unread_length]
    omega
  refine ⟨valid, by dsimp only; omega, ?_, books.direct, ?_, fun _ => emptied, books.worker,
    finished, length, nofun⟩
  · rw [none] at octets
    simpa only [resending, Sending.left, emptied, books.valid.readAll_fst,
      List.nil_append] using octets
  · intro unflushed
    simp only [flushed, finished, Bool.and_true, Bool.true_eq_false] at unflushed

/-- After the flush the loop thread moves octets from its own string to OpenSSL. -/
theorem books_handed {loop : Receiving} {handed : Bytes} (books : Books s) (late : flushed s = true)
    (still : flushed { s with loop := loop } = true)
    (moved : handed ++ resending loop = resending s.loop) (known : LoopOk s.initFinished loop) :
    Books { s with loop := loop, byLoop := s.byLoop ++ handed } := by
  have octets := books.octets
  refine ⟨books.valid, books.small, ?_, books.direct, ?_, fun _ => books.emptied late,
    books.worker, known⟩
  · rw [← moved] at octets
    simpa only [List.append_assoc] using octets
  · intro unflushed
    exact absurd (still.symm.trans unflushed) Bool.noConfusion

/-- The loop thread's own `Send`, after the handshake. -/
theorem books_resend {left : Nat} {sending : Sending} (books : Books s)
    (here : s.loop = .resend left sending) (room : Nat) {received : Received}
    (steps : receiveStep .positive room s.initFinished s.preWriteBuffer s.loop = some received) :
    Books { s with
      loop := received.next
      initFinished := received.initFinished
      preWriteBuffer := received.preWriteBuffer
      byLoop := s.byLoop ++ received.handed } := by
  have known := books.loop
  rw [here] at known
  obtain ⟨finished, fits, direct⟩ := known
  have late : flushed s = true := by
    simp only [flushed, here, finished, Bool.and_true]
  simp only [here, receiveStep] at steps
  cases sending with
  | preWrite buf => exact absurd rfl (direct buf)
  | test buf =>
    simp only [sendStep, Option.some.injEq] at steps
    subst received
    refine books_handed books late ?_ ?_ ?_
    · simp only [flushed, finished, Bool.and_true]
    · simp only [here, resending, finished, if_true, Sending.left, List.drop_zero, List.nil_append]
    · rw [finished]
      exact ⟨rfl, ⟨fits, Nat.zero_le _⟩, fun buf => Sending.noConfusion⟩
  | sslWrite buf nWritten =>
    rcases sendStep_sslWrite fits s.initFinished room s.preWriteBuffer with
      ⟨n, sent, within⟩ | ⟨sent, done⟩
    · simp only [sent, Option.some.injEq] at steps
      subst received
      refine books_handed books late ?_ ?_
        ⟨finished, ⟨fits.1, within⟩, fun buf => Sending.noConfusion⟩
      · simp only [flushed, finished, Bool.and_true]
      · simp only [here, resending, Sending.left, ← List.drop_drop, List.take_append_drop]
    · simp only [sent, Option.some.injEq] at steps
      subst received
      refine books_handed books late ?_ ?_ trivial
      · simp only [flushed, finished, Bool.and_true]
      · simp only [here, resending, Sending.left, done, List.append_nil]

theorem books_loop {result : SslResult} {room : Nat} (books : Books s)
    (stepped : step s (.loop result room) = some next) : Books next := by
  cases steps : receiveStep result room s.initFinished s.preWriteBuffer s.loop with
  | none => simp [step, steps] at stepped
  | some received =>
    simp only [step, steps, Option.some.injEq] at stepped
    subst next
    cases here : s.loop with
    | idle => simp [here, receiveStep] at steps
    | bioWrite left =>
      simp only [here, receiveStep, Option.some.injEq] at steps
      subst received
      apply books_quiet books (by rw [here]; rfl)
      · split <;> rfl
      · split <;> trivial
    | test left =>
      simp only [here, receiveStep, Option.some.injEq] at steps
      subst received
      apply books_quiet books (by rw [here]; rfl)
      · split <;> rfl
      · cases unfinished : s.initFinished with
        | true => trivial
        | false => rfl
    | handshake left =>
      cases result with
      | positive =>
        simp only [here, receiveStep, Option.some.injEq] at steps
        subst received
        simpa only [List.append_nil] using books_finished books here
      | wants =>
        simp only [here, receiveStep, Option.some.injEq] at steps
        subst received
        exact books_quiet books (by rw [here]; rfl) rfl trivial
      | fails =>
        simp only [here, receiveStep, Option.some.injEq] at steps
        subst received
        exact books_quiet books (by rw [here]; rfl) rfl trivial
    | readAll left =>
      simp only [here, receiveStep, Option.some.injEq] at steps
      subst received
      simpa only [List.append_nil] using books_readAll books here
    | resend left sending =>
      have steps' :
          receiveStep .positive room s.initFinished s.preWriteBuffer s.loop = some received := by
        rw [← steps, here]
        rfl
      exact books_resend books here room steps'
    | handleSslError left result =>
      simp only [here, receiveStep, Option.some.injEq] at steps
      subst received
      apply books_quiet books (by rw [here]; rfl)
      · split <;> rfl
      · split <;> trivial
    | retest left =>
      simp only [here, receiveStep, Option.some.injEq] at steps
      subst received
      apply books_quiet books (by rw [here]; rfl)
      · split <;> rfl
      · split <;> trivial
    | decrypt left =>
      simp only [here, receiveStep, Option.some.injEq] at steps
      subst received
      apply books_quiet books (by rw [here]; rfl)
      · split <;> rfl
      · split <;> trivial

theorem books_receive {len : Nat} (books : Books s) (stepped : step s (.receive len) = some next) :
    Books next := by
  simp only [step] at stepped
  split at stepped
  · rename_i idle
    cases stepped
    have quiet := (books_quiet books (by rw [idle]; rfl) (by split <;> rfl) (by split <;> trivial) :
      Books { s with loop := if len = 0 then .idle else .bioWrite len, byLoop := s.byLoop ++ [] })
    simpa only [List.append_nil] using quiet
  · cases stepped

theorem step_books (s : State) (act : Act) (next : State) (books : Books s)
    (prompt : Prompt s act = true) (stepped : step s act = some next) : Books next := by
  cases act with
  | send content => exact books_send books prompt stepped
  | receive len => exact books_receive books stepped
  | worker room => exact books_worker books prompt stepped
  | loop result room => exact books_loop books stepped

theorem books_start : Books start :=
  ⟨Buffer.valid_fresh, by decide, rfl, fun _ => rfl, fun _ => ⟨rfl, rfl⟩, nofun, trivial, trivial⟩

/-- In every run without a late write to `pre_write_buffer_`: when the handshake is
finished and both threads are outside, the buffer is empty and the strings sent
have been handed to `SSL_write`, each octet once. -/
theorem tls_handshake_delivers (acts : List Act) (final : State)
    (prompt : RunMeets step (fun s act => Prompt s act = true) start acts)
    (reached : run step start acts = some final) (finished : final.initFinished = true)
    (workerOutside : final.worker = none) (loopOutside : final.loop = .idle) :
    final.preWriteBuffer.empty = true ∧ final.byLoop ++ final.byWorker = final.sent.flatten := by
  have books : Books final := run_guarded step_books books_start prompt reached
  have late : flushed final = true := by
    simp only [flushed, finished, loopOutside, Bool.and_true]
  have emptied := books.emptied late
  have octets := books.octets
  rw [emptied, workerOutside, loopOutside] at octets
  refine ⟨books.valid.empty_iff.mpr emptied, ?_⟩
  simpa only [resending, inHand, List.nil_append, List.append_nil] using octets

/-- A string before the handshake, and one during it. -/
def greeting : List Act :=
  [.send [65, 66], .worker 0, .worker 0, .receive 1, .loop .wants 0, .loop .wants 0,
    .loop .positive 0, .send [67], .worker 0, .worker 0, .loop .wants 0, .loop .wants 0,
    .loop .wants 0, .loop .wants 9, .loop .wants 9, .worker 0, .loop .wants 0, .loop .wants 0,
    .loop .wants 0, .loop .wants 0]

theorem tls_handshake_delivers_greeting :
    ∃ final, run step start greeting = some final ∧ final.sent = [[65, 66], [67]] ∧
      final.preWriteBuffer.empty = true ∧ final.byLoop ++ final.byWorker = final.sent.flatten :=
  ⟨_, rfl, rfl, tls_handshake_delivers greeting _ (by decide) rfl rfl rfl rfl⟩

/-- The handshake completes between the worker's test and its write: the string
stays in `pre_write_buffer_` for good. -/
theorem tls_handshake_strands :
    ∃ acts final, run step start acts = some final ∧ final.initFinished = true ∧
      final.worker = none ∧ final.loop = .idle ∧ final.sent = [[65]] ∧
      final.preWriteBuffer.unread = [65] ∧ final.byLoop = [] ∧ final.byWorker = [] :=
  ⟨[.send [65], .worker 0, .receive 1, .loop .wants 0, .loop .wants 0, .loop .positive 0,
    .loop .wants 0, .loop .wants 0, .loop .wants 0, .loop .wants 0, .loop .wants 0,
    .loop .wants 0, .loop .wants 0, .worker 0], _, rfl, rfl, rfl, rfl, rfl, rfl, rfl, rfl⟩

end Ladder.Guarantees.TlsHandshake
