import Ladder.Guarantees.ConnectionOutput
import Ladder.Source.TlsEngine

/-!
# Octets through a TLS connection

Read events, write events and calls of `Send` on a TLS connection, in any order, with
input cut anywhere and a socket that takes output as it likes. The connection carries
ciphertext into the engine and out of it and plaintext out of it the other way without
losing or reordering any of it, every loop ends, and whenever control is back in the event
loop nothing the engine has produced is left in `wbio_`. Sizes that the code counts as an
`int` stay below 2^31, and indices of its buffers below 2^32.
-/
namespace Ladder.Guarantees.TlsPump
open Ladder.Library Ladder.Source
open Ladder.Guarantees.WriteShutdown (Buffered Carries unsent)
open Ladder.Guarantees.ConnectionOutput

/-- What the proofs use of OpenSSL over memory BIOs. -/
structure Lawful (engine : SslEngine) : Prop where
  /-- `SSL_read` runs out of octets. -/
  read_ready : ∀ n s rbio, (engine.sslRead n s rbio).1 ≠ [] →
    engine.ready (engine.sslRead n s rbio).2.state
      (rbio.drop (engine.sslRead n s rbio).2.consumed) <
      engine.ready s rbio
  read_finished : ∀ n s rbio, engine.isInitFinished s = true →
    engine.isInitFinished (engine.sslRead n s rbio).2.state = true
  /-- A value that is not positive has a reason. -/
  read_error : ∀ n s rbio, (engine.sslRead n s rbio).1 = [] →
    (engine.sslRead n s rbio).2.error ≠ .none
  handshake_error : ∀ s rbio, (engine.doHandshake s rbio).1 = false →
    (engine.doHandshake s rbio).2.error ≠ .none
  /-- `SSL_do_handshake` returns a positive value once, when the handshake is finished. -/
  handshake_finished : ∀ s rbio, engine.isInitFinished s = false →
    engine.isInitFinished (engine.doHandshake s rbio).2.state = (engine.doHandshake s rbio).1
  /-- A handshake that waits for input goes on waiting. -/
  handshake_waits : ∀ s rbio, (engine.doHandshake s rbio).1 = false →
    (engine.doHandshake s rbio).2.error = .want →
    let call := (engine.doHandshake s rbio).2
    (engine.doHandshake call.state (rbio.drop call.consumed)).1 = false ∧
      (engine.doHandshake call.state (rbio.drop call.consumed)).2.error = .want
  /-- After the handshake a memory BIO never blocks `SSL_write`. -/
  write_takes : ∀ buf s rbio, engine.isInitFinished s = true → buf ≠ [] →
    0 < (engine.sslWrite buf s rbio).1 ∧ (engine.sslWrite buf s rbio).1 ≤ buf.length
  write_finished : ∀ buf s rbio, engine.isInitFinished s = true →
    engine.isInitFinished (engine.sslWrite buf s rbio).2.state = true

variable {engine : SslEngine}

/-! ## What holds at every moment -/

/-- A plain connection in the loop, with a socket that takes octets or blocks. -/
structure Live (t : Tls engine) : Prop where
  plain : ∃ b, t.base.writeBuffer = .plain b
  held : t.base.channel.registered.isSome = true
  answers : ∀ list ∈ t.answers, ∀ answer ∈ list, answer.tolerated = true

/-- Ciphertext and plaintext: where the octets are that the engine has given. -/
structure Pump (t : Tls engine) : Prop where
  out : ∃ b, t.base.writeBuffer = .plain b ∧ b.Valid ∧
    t.base.accepted ++ (b.unread ++ t.wbio) = t.produced ∧
    b.writeIndex + t.wbio.length ≤ t.produced.length
  valid : t.base.readBuffer.Valid
  into : t.used ++ t.base.readBuffer.unread = t.plaintext
  index : t.base.readBuffer.writeIndex ≤ t.plaintext.length

/-- A stretch of a call. -/
structure Moves (t t' : Tls engine) : Prop where
  live : Live t'
  produced : t.produced <+: t'.produced
  plaintext : t.plaintext <+: t'.plaintext
  shutDown : t'.base.shutDown = t.base.shutDown
  isServer : t'.isServer = t.isServer
  arrived : t'.arrived = t.arrived
  /-- What has been put into `rbio_` is there or the engine took it. -/
  fed : t'.digested ++ t'.rbio = t.digested ++ t.rbio
  pump : t'.produced.length < 2 ^ 32 → t'.plaintext.length < 2 ^ 32 → Pump t → Pump t'

theorem Moves.refl {t : Tls engine} (live : Live t) : Moves t t :=
  ⟨live, List.prefix_rfl, List.prefix_rfl, rfl, rfl, rfl, rfl, fun _ _ pump => pump⟩

/-- The fields that `Moves` looks at are as they were. -/
theorem Moves.of_same {t t' : Tls engine} (live : Live t) (base : t'.base = t.base)
    (answers : t'.answers = t.answers) (wbio : t'.wbio = t.wbio)
    (produced : t'.produced = t.produced)
    (plaintext : t'.plaintext = t.plaintext) (used : t'.used = t.used)
    (isServer : t'.isServer = t.isServer) (arrived : t'.arrived = t.arrived)
    (fed : t'.digested ++ t'.rbio = t.digested ++ t.rbio) : Moves t t' := by
  refine ⟨⟨?_, ?_, ?_⟩, ?_, ?_, ?_, isServer, arrived, fed, ?_⟩
  · rw [base]
    exact live.plain
  · rw [base]
    exact live.held
  · rw [answers]
    exact live.answers
  · rw [produced]
  · rw [plaintext]
  · rw [base]
  · intro _ _ pump
    refine ⟨?_, ?_, ?_, ?_⟩
    · rw [base, wbio, produced]
      exact pump.out
    · rw [base]
      exact pump.valid
    · rw [base, used, plaintext]
      exact pump.into
    · rw [base, plaintext]
      exact pump.index

theorem Moves.trans {t t' t'' : Tls engine} (first : Moves t t') (second : Moves t' t'') :
    Moves t t'' := by
  refine ⟨second.live, first.produced.trans second.produced, first.plaintext.trans second.plaintext,
    second.shutDown.trans first.shutDown, second.isServer.trans first.isServer,
    second.arrived.trans first.arrived, second.fed.trans first.fed, ?_⟩
  intro produced plaintext pump
  have produced' := second.produced.length_le
  have plaintext' := second.plaintext.length_le
  exact second.pump produced plaintext (first.pump (by omega) (by omega) pump)

/-- More octets in `rbio_` make no difference to what `Moves` looks at. -/
theorem Moves.bioWrite {t t' : Tls engine} (moves : Moves t t') (octets : Bytes) :
    Moves (t.bioWrite octets) (t'.bioWrite octets) := by
  refine ⟨⟨moves.live.plain, moves.live.held, moves.live.answers⟩, moves.produced, moves.plaintext,
    moves.shutDown, moves.isServer, moves.arrived, ?_, ?_⟩
  · simp only [Tls.bioWrite, ← List.append_assoc, moves.fed]
  · intro produced plaintext pump
    have pump' := moves.pump produced plaintext ⟨pump.out, pump.valid, pump.into, pump.index⟩
    exact ⟨pump'.out, pump'.valid, pump'.into, pump'.index⟩

/-- The fields that say what the application has passed on, and the engine. -/
structure Apart (t t' : Tls engine) : Prop where
  ssl : t'.ssl = t.ssl
  rbio : t'.rbio = t.rbio
  preWriteBuffer : t'.preWriteBuffer = t.preWriteBuffer
  sent : t'.sent = t.sent
  handed : t'.handed = t.handed

theorem Apart.refl (t : Tls engine) : Apart t t := ⟨rfl, rfl, rfl, rfl, rfl⟩

theorem Apart.trans {t t' t'' : Tls engine} (first : Apart t t') (second : Apart t' t'') :
    Apart t t'' :=
  ⟨second.ssl.trans first.ssl, second.rbio.trans first.rbio,
    second.preWriteBuffer.trans first.preWriteBuffer, second.sent.trans first.sent,
    second.handed.trans first.handed⟩

/-! ## The single operations -/

theorem called_moves {t : Tls engine} (live : Live t) (call : SslCall engine.State) :
    Moves t (t.called call) := by
  refine ⟨⟨live.plain, live.held, live.answers⟩, List.prefix_append _ _, List.prefix_rfl, rfl, rfl,
    rfl, by simp only [Tls.called, List.append_assoc, List.take_append_drop], ?_⟩
  intro _ _ pump
  obtain ⟨b, plain, valid, octets, index⟩ := pump.out
  refine ⟨⟨b, plain, valid, ?_, ?_⟩, pump.valid, pump.into, pump.index⟩
  · simp only [Tls.called, ← octets, List.append_assoc]
  · simp only [Tls.called, List.length_append]
    omega

theorem encryptRound_moves {t : Tls engine} (live : Live t) : Moves t t.encryptRound := by
  obtain ⟨b, plain⟩ := live.plain
  have write : t.encryptRound.base.writeBuffer =
      .plain (b.write (t.wbio.take Tls.kMaxBufferSize)) := by
    simp only [Tls.encryptRound, plain, IBuffer.write]
  refine ⟨⟨⟨_, write⟩, live.held, live.answers⟩, List.prefix_rfl, List.prefix_rfl,
    rfl, rfl, rfl, rfl, ?_⟩
  intro small _ pump
  obtain ⟨b', plain', valid, octets, index⟩ := pump.out
  rw [plain] at plain'
  cases plain'
  have part := List.length_take_le' Tls.kMaxBufferSize t.wbio
  have room : b.writeIndex + (t.wbio.take Tls.kMaxBufferSize).length < 2 ^ 32 := by
    change t.produced.length < 2 ^ 32 at small
    omega
  refine ⟨⟨_, write, valid.write_valid room, ?_, ?_⟩, pump.valid, pump.into, pump.index⟩
  · rw [valid.unread_write room, List.append_assoc]
    simp only [Tls.encryptRound, List.take_append_drop]
    exact octets
  · rw [Buffer.writeIndex_write room]
    simp only [Tls.encryptRound, List.length_take, List.length_drop]
    omega

theorem encrypt_moves {t : Tls engine} (live : Live t) :
    ∃ t', t.encrypt = some t' ∧ Moves t t' ∧ Apart t t' ∧ t'.wbio = [] := by
  have round : ∀ s : Tls engine, (Moves t s ∧ Apart t s) → some (!s.wbio.isEmpty) = some true →
      ∃ next, some s.encryptRound = some next ∧ (Moves t next ∧ Apart t next) ∧
        next.wbio.length < s.wbio.length := by
    rintro s ⟨moves, apart⟩ more
    refine ⟨_, rfl,
      ⟨moves.trans (encryptRound_moves moves.live), apart.trans ⟨rfl, rfl, rfl, rfl, rfl⟩⟩, ?_⟩
    have nonempty : s.wbio ≠ [] := by simpa using more
    have long := List.length_pos_iff.mpr nonempty
    simp only [Tls.encryptRound, List.length_drop, Tls.kMaxBufferSize]
    omega
  obtain ⟨t', returns, ⟨moves, apart⟩, done⟩ :=
    whileLoop_total _ (fun s _ => ⟨!s.wbio.isEmpty, rfl⟩)
    round ⟨Moves.refl live, Apart.refl t⟩ (Nat.lt_succ_self _)
  exact ⟨t', returns, moves, apart, by simpa using done⟩

theorem flushOut_moves (kernel : Kernel) {t : Tls engine} (live : Live t) :
    ∃ t', t.flushOut kernel = some t' ∧ Moves t t' ∧ Apart t t' ∧ t'.wbio = t.wbio := by
  obtain ⟨b, plain⟩ := live.plain
  have tolerated : ∀ answer ∈ t.answers.headD [], answer.tolerated = true := by
    cases queue : t.answers with
    | nil => simp
    | cons list rest => exact live.answers list (by rw [queue]; exact .head _)
  obtain ⟨result, returns⟩ := Buffer.writeBufferToFd_returns b tolerated
  let flushed : Connection :=
    { t.base with
      writeBuffer := .plain result.buffer
      accepted := t.base.accepted ++ result.accepted
      returned := result.ret }
  have flushes : t.base.flush kernel (t.answers.headD []) = some (result.ret, flushed) := by
    simp only [Connection.flush, plain, returns, Option.map_some, flushed]
  obtain ⟨channel, enabled⟩ := Channel.enableWrite_isSome live.held (result.ret < 0)
  obtain ⟨-, held, -, -⟩ := Channel.enableWrite_effects enabled
  have enables : flushed.enableWrite result.ret = some { flushed with channel := channel } :=
    Connection.enableWrite_channel enabled
  refine ⟨{ t with base := { flushed with channel := channel }, answers := t.answers.tail }, ?_, ?_,
    ⟨rfl, rfl, rfl, rfl, rfl⟩, rfl⟩
  · rw [Tls.flushOut, flushes]
    exact congrArg (Option.bind · _) enables
  · refine ⟨⟨⟨_, rfl⟩, held, fun list member => live.answers list (List.mem_of_mem_tail member)⟩,
      List.prefix_rfl, List.prefix_rfl, rfl, rfl, rfl, rfl, ?_⟩
    intro _ _ pump
    obtain ⟨b', plain', valid, octets, index⟩ := pump.out
    rw [plain] at plain'
    cases plain'
    have effects := Buffer.writeBufferToFd_effects valid returns
    refine ⟨⟨_, rfl, effects.valid, ?_, ?_⟩, pump.valid, pump.into, pump.index⟩
    · rw [← octets, ← effects.octets]
      simp only [flushed, List.append_assoc]
    · have := effects.index
      dsimp only
      omega

/-- `HandleSslError`: with a reason, it fails or leaves nothing in `wbio_`. -/
theorem handleSslError_moves (kernel : Kernel) {t : Tls engine} (live : Live t) {error : SslError}
    (reason : error ≠ .none) :
    ∃ go t', t.handleSslError kernel error = some (go, t') ∧ Moves t t' ∧ Apart t t' ∧
      (go = true → error = .want ∧ t'.wbio = []) ∧ (go = false → error = .failure) := by
  cases error with
  | none => exact absurd rfl reason
  | failure => exact ⟨false, t, rfl, .refl live, .refl t, (fun go => by cases go), fun _ => rfl⟩
  | want =>
    obtain ⟨t₁, encrypts, moves₁, apart₁, drained⟩ := encrypt_moves live
    obtain ⟨t₂, flushes, moves₂, apart₂, same⟩ := flushOut_moves kernel moves₁.live
    refine ⟨true, t₂, ?_, moves₁.trans moves₂, apart₁.trans apart₂,
      fun _ => ⟨rfl, same.trans drained⟩, fun stop => by cases stop⟩
    rw [Tls.handleSslError, encrypts]
    exact congrArg (Option.bind · _) flushes

/-! ## Send -/

theorem offered_short {buf : Bytes} (short : buf.length < 2 ^ 31) (nWritten : Nat) :
    Tls.offered buf nWritten = buf.drop nWritten := by
  rw [Tls.offered, int_eq_of_small short]
  exact List.take_of_length_le (by rw [List.length_drop]; omega)

section
variable (law : Lawful engine)
include law

/-- The loop over `SSL_write` hands over the rest of the string. -/
theorem sendLoop_moves {buf : Bytes} (short : buf.length < 2 ^ 31)
    {fuel nWritten : Nat} {t : Tls engine}
    (live : Live t) (finished : engine.isInitFinished t.ssl = true) (inside : nWritten ≤ buf.length)
    (enough : buf.length - nWritten < fuel) :
    ∃ t', Tls.sendLoop fuel buf nWritten t = some t' ∧ Moves t t' ∧
      engine.isInitFinished t'.ssl = true ∧ t'.preWriteBuffer = t.preWriteBuffer ∧
      t'.sent = t.sent ∧
      t'.handed = t.handed ++ buf.drop nWritten ∧ (t.wbio = [] → t'.wbio = []) := by
  induction fuel generalizing nWritten t with
  | zero => omega
  | succ fuel ih =>
    rw [Tls.sendLoop, offered_short short, int_eq_of_small short]
    by_cases more : nWritten < buf.length
    · have rest : buf.drop nWritten ≠ [] := by
        rw [ne_eq, List.drop_eq_nil_iff]
        omega
      obtain ⟨some_, most⟩ := law.write_takes (buf.drop nWritten) t.ssl t.rbio finished rest
      have later := law.write_finished (buf.drop nWritten) t.ssl t.rbio finished
      rw [if_pos (by omega)]
      generalize engine.sslWrite (buf.drop nWritten) t.ssl t.rbio = result at some_ most later
      obtain ⟨n, call⟩ := result
      dsimp only at some_ most later ⊢
      rw [List.length_drop] at most
      rw [if_pos some_]
      let handing : Tls engine :=
        { t.called call with handed := (t.called call).handed ++ (buf.drop nWritten).take n }
      have moves₁ : Moves t handing :=
        have moves := called_moves live call
        moves.trans (.of_same moves.live rfl rfl rfl rfl rfl rfl rfl rfl rfl)
      obtain ⟨t₂, encrypts, moves₂, apart₂, drained⟩ := encrypt_moves moves₁.live
      obtain ⟨t₃, loops, moves₃, finished₃, pre₃, sent₃, handed₃, stays⟩ :=
        ih moves₂.live (by rw [apart₂.ssl]; exact later)
          (show nWritten + n ≤ buf.length by omega) (by omega)
      rw [encrypts]
      refine ⟨t₃, loops, (moves₁.trans moves₂).trans moves₃, finished₃,
        pre₃.trans apart₂.preWriteBuffer, sent₃.trans apart₂.sent, ?_, fun _ => stays drained⟩
      rw [handed₃, apart₂.handed]
      simp only [handing, Tls.called, List.append_assoc]
      rw [← List.drop_drop, List.take_append_drop]
    · rw [if_neg (by omega)]
      refine ⟨t, rfl, .refl live, finished, rfl, rfl, ?_, id⟩
      rw [List.drop_eq_nil_of_le (by omega), List.append_nil]

/-- `Send` after the handshake. -/
theorem send_finished (kernel : Kernel) {buf : Bytes} (short : buf.length < 2 ^ 31)
    {t : Tls engine} (live : Live t)
    (running : t.base.shutDown = false) (finished : engine.isInitFinished t.ssl = true) :
    ∃ t', t.send kernel buf = some t' ∧ Moves t t' ∧ engine.isInitFinished t'.ssl = true ∧
      t'.preWriteBuffer = t.preWriteBuffer ∧ t'.sent = t.sent ∧ t'.handed = t.handed ++ buf ∧
      (t.wbio = [] → t'.wbio = []) := by
  obtain ⟨t₁, loops, moves₁, finished₁, pre₁, sent₁, handed₁, stays⟩ :=
    sendLoop_moves law short live finished (Nat.zero_le _)
      (show buf.length - 0 < buf.length + 1 by omega)
  obtain ⟨t₂, flushes, moves₂, apart₂, same⟩ := flushOut_moves kernel moves₁.live
  refine ⟨t₂, ?_, moves₁.trans moves₂, by rw [apart₂.ssl]; exact finished₁,
    apart₂.preWriteBuffer.trans pre₁, apart₂.sent.trans sent₁, apart₂.handed.trans handed₁,
    fun drained => same.trans (stays drained)⟩
  rw [Tls.send, if_neg (by simp [running]), if_neg (by simp [finished]), loops]
  exact flushes

/-- The loop over `SSL_write` goes through the operations of an undisturbed `Send`. -/
theorem sendLoop_follows {buf : Bytes} {fuel nWritten : Nat} {t t' : Tls engine} (live : Live t)
    (finished : engine.isInitFinished t.ssl = true)
    (loops : Tls.sendLoop fuel buf nWritten t = some t') :
    ∃ rooms handed, TlsConnection.sendRun true rooms t.preWriteBuffer (.sslWrite buf nWritten) =
        some (t.preWriteBuffer, handed) ∧
      Live t' ∧ t'.preWriteBuffer = t.preWriteBuffer ∧ t'.handed = t.handed ++ handed := by
  induction fuel generalizing nWritten t with
  | zero => cases loops
  | succ fuel ih =>
    rw [Tls.sendLoop] at loops
    by_cases more : nWritten < int buf.length
    · have below := int_le buf.length
      have length : (Tls.offered buf nWritten).length = (int buf.length - nWritten).toNat := by
        rw [Tls.offered, List.length_take, List.length_drop]
        omega
      have rest : Tls.offered buf nWritten ≠ [] := by
        rw [← List.length_pos_iff]
        omega
      obtain ⟨some_, most⟩ := law.write_takes _ t.ssl t.rbio finished rest
      have later := law.write_finished (Tls.offered buf nWritten) t.ssl t.rbio finished
      rw [if_pos more] at loops
      generalize engine.sslWrite (Tls.offered buf nWritten) t.ssl t.rbio =
        result at some_ most later loops
      obtain ⟨n, call⟩ := result
      dsimp only at some_ most later loops
      rw [if_pos some_] at loops
      let handing : Tls engine :=
        { t.called call with handed := (t.called call).handed ++ (buf.drop nWritten).take n }
      have live₁ : Live handing := ⟨live.plain, live.held, live.answers⟩
      obtain ⟨t₂, encrypts, moves₂, apart₂, -⟩ := encrypt_moves live₁
      rw [encrypts] at loops
      obtain ⟨rooms, handed, runs, live₃, pre, hands⟩ :=
        ih moves₂.live (by rw [apart₂.ssl]; exact later) loops
      rw [show t₂.preWriteBuffer = t.preWriteBuffer from apart₂.preWriteBuffer] at runs pre
      have takes : taken (n - 1) (int buf.length - nWritten).toNat = n := by
        rw [taken]
        omega
      refine ⟨(n - 1) :: rooms, (buf.drop nWritten).take n ++ handed,
        TlsConnection.sendRun_continues ?_ runs, live₃, pre, ?_⟩
      · rw [TlsConnection.sendStep, if_pos more, takes]
      · rw [hands, apart₂.handed]
        exact List.append_assoc _ _ _
    · rw [if_neg more] at loops
      obtain rfl := Option.some.inj loops
      refine ⟨[0], [], TlsConnection.sendRun_returns ?_, live, rfl, (List.append_nil _).symm⟩
      rw [TlsConnection.sendStep, if_neg more]

/-- A whole call of `Send` goes through the operations of an undisturbed `Send`, and hands
over the same octets. -/
theorem send_follows (kernel : Kernel) {buf : Bytes} {t t' : Tls engine} (live : Live t)
    (running : t.base.shutDown = false) (sends : t.send kernel buf = some t') :
    ∃ rooms handed, TlsConnection.sendRun (engine.isInitFinished t.ssl) rooms t.preWriteBuffer
        (.test buf) = some (t'.preWriteBuffer, handed) ∧
      t'.handed = t.handed ++ handed := by
  rw [Tls.send, if_neg (by simp [running])] at sends
  cases finished : engine.isInitFinished t.ssl with
  | false =>
    rw [if_pos (by simp [finished])] at sends
    obtain rfl := Option.some.inj sends
    exact ⟨[0, 0], [], rfl, (List.append_nil _).symm⟩
  | true =>
    rw [if_neg (by simp [finished])] at sends
    obtain ⟨t₁, loops, flushes⟩ := Option.bind_eq_some_iff.mp sends
    obtain ⟨rooms, handed, runs, live₁, pre, hands⟩ := sendLoop_follows law live finished loops
    obtain ⟨t₂, flushes', -, apart, -⟩ := flushOut_moves kernel live₁
    obtain rfl : t₂ = t' := Option.some.inj (flushes'.symm.trans flushes)
    have tests : TlsConnection.sendStep true 0 t.preWriteBuffer (.test buf) =
        ⟨some (.sslWrite buf 0), t.preWriteBuffer, []⟩ := rfl
    refine ⟨0 :: rooms, [] ++ handed, ?_, ?_⟩
    · rw [apart.preWriteBuffer, pre]
      exact TlsConnection.sendRun_continues tests runs
    · rw [apart.handed, hands, List.nil_append]

end

/-! ## Between two calls -/

/-- What the application has passed to `Send`: taken by `SSL_write`, or waiting for the
handshake. -/
structure Books (t : Tls engine) : Prop where
  valid : t.preWriteBuffer.Valid
  octets : t.handed ++ t.preWriteBuffer.unread = t.sent
  index : t.preWriteBuffer.writeIndex ≤ t.sent.length
  finished : engine.isInitFinished t.ssl = true → t.preWriteBuffer.unread = []

/-- The engine has nothing to give, and an unfinished handshake waits for input. -/
structure Rests (t : Tls engine) : Prop where
  drained : t.wbio = []
  waits : engine.isInitFinished t.ssl = false →
    (engine.doHandshake t.ssl t.rbio).1 = false ∧ (engine.doHandshake t.ssl t.rbio).2.error = .want

theorem Books.apart {t t' : Tls engine} (books : Books t) (apart : Apart t t') : Books t' := by
  obtain ⟨valid, octets, index, finished⟩ := books
  refine ⟨?_, ?_, ?_, ?_⟩
  · rw [apart.preWriteBuffer]
    exact valid
  · rw [apart.handed, apart.preWriteBuffer, apart.sent]
    exact octets
  · rw [apart.preWriteBuffer, apart.sent]
    exact index
  · rw [apart.preWriteBuffer, apart.ssl]
    exact finished

/-- What a call inside of `ReadFromBuffer` or `WriteBuffer` achieves, if it goes on. -/
structure Turns (t t' : Tls engine) : Prop where
  moves : Moves t t'
  sent : t'.sent = t.sent
  books : Books t'
  rests : Rests t'

section
variable (law : Lawful engine)
include law

/-- `Decrypt` up to the test of `HandleSslError`, after the handshake. -/
theorem decrypt_moves {fuel : Nat} {t : Tls engine} (live : Live t)
    (finished : engine.isInitFinished t.ssl = true) (enough : engine.ready t.ssl t.rbio < fuel) :
    ∃ error t', Tls.decrypt fuel t = some (error, t') ∧ error ≠ .none ∧ Moves t t' ∧
      engine.isInitFinished t'.ssl = true ∧ t'.preWriteBuffer = t.preWriteBuffer ∧
      t'.sent = t.sent ∧
      t'.handed = t.handed := by
  induction fuel generalizing t with
  | zero => omega
  | succ fuel ih =>
    have later := law.read_finished Tls.kMaxBufferSize t.ssl t.rbio finished
    have less := law.read_ready Tls.kMaxBufferSize t.ssl t.rbio
    have reason := law.read_error Tls.kMaxBufferSize t.ssl t.rbio
    rw [Tls.decrypt]
    generalize engine.sslRead Tls.kMaxBufferSize t.ssl t.rbio = result at later less reason
    obtain ⟨data, call⟩ := result
    dsimp only at later less reason ⊢
    have moves₁ := called_moves live call
    by_cases nothing : data = []
    · rw [if_pos (by simp [nothing])]
      exact ⟨call.error, _, rfl, reason nothing, moves₁, later, rfl, rfl, rfl⟩
    · rw [if_neg (by simp [nothing])]
      let reading : Tls engine :=
        { t.called call with
          base := { t.base with readBuffer := t.base.readBuffer.write data }
          plaintext := t.plaintext ++ data }
      have moves₂ : Moves (t.called call) reading := by
        refine ⟨⟨moves₁.live.plain, moves₁.live.held, moves₁.live.answers⟩, List.prefix_rfl,
          List.prefix_append _ _, rfl, rfl, rfl, rfl, ?_⟩
        intro _ small pump
        have total : (t.plaintext ++ data).length < 2 ^ 32 := small
        rw [List.length_append] at total
        have index : t.base.readBuffer.writeIndex ≤ t.plaintext.length := pump.index
        have room : t.base.readBuffer.writeIndex + data.length < 2 ^ 32 := by omega
        have valid : t.base.readBuffer.Valid := pump.valid
        refine ⟨pump.out, valid.write_valid room, ?_, ?_⟩
        · simp only [reading, valid.unread_write room, ← List.append_assoc]
          exact congrArg (· ++ data) pump.into
        · simp only [reading, Buffer.writeIndex_write room, List.length_append]
          omega
      have reads := less nothing
      obtain ⟨error, t', returns, reason', moves₃, finished', pre, sent, handed⟩ :=
        ih moves₂.live later
          (show engine.ready call.state (t.rbio.drop call.consumed) < fuel by omega)
      exact ⟨error, t', returns, reason', (moves₁.trans moves₂).trans moves₃, finished',
        pre, sent, handed⟩

theorem receive_turns (kernel : Kernel) {t : Tls engine} (live : Live t)
    (finished : engine.isInitFinished t.ssl = true) (books : Books t) :
    ∃ go t', t.receive kernel = some (go, t') ∧ Moves t t' ∧ (go = true → Turns t t') := by
  obtain ⟨error, t₁, returns, reason, moves₁, finished₁, pre, sent, handed⟩ :=
    decrypt_moves law live finished (Nat.lt_succ_self _)
  obtain ⟨go, t₂, handles, moves₂, apart, ends, -⟩ := handleSslError_moves kernel moves₁.live reason
  have moves := moves₁.trans moves₂
  refine ⟨go, t₂, ?_, moves, fun going => ?_⟩
  · rw [Tls.receive, returns]
    exact handles
  · have finished₂ : engine.isInitFinished t₂.ssl = true := by
      rw [apart.ssl]
      exact finished₁
    refine ⟨moves, apart.sent.trans sent, Books.apart ?_ apart, (ends going).2, ?_⟩
    · refine ⟨?_, ?_, ?_, ?_⟩
      · rw [pre]
        exact books.valid
      · rw [handed, pre, sent]
        exact books.octets
      · rw [pre, sent]
        exact books.index
      · intro _
        rw [pre]
        exact books.finished finished
    · intro unfinished
      rw [finished₂] at unfinished
      cases unfinished

/-- `OnSslHandshakeFinished`. -/
theorem onSslHandshakeFinished_moves (kernel : Kernel) {t : Tls engine} (live : Live t)
    (running : t.base.shutDown = false) (finished : engine.isInitFinished t.ssl = true)
    (valid : t.preWriteBuffer.Valid) (octets : t.handed ++ t.preWriteBuffer.unread = t.sent)
    (index : t.preWriteBuffer.writeIndex ≤ t.sent.length) (short : t.sent.length < 2 ^ 31) :
    ∃ t', t.onSslHandshakeFinished kernel = some t' ∧ Moves t t' ∧
      engine.isInitFinished t'.ssl = true ∧ t'.sent = t.sent ∧ Books t' := by
  obtain ⟨valid', empty, lower⟩ := valid.readAll_snd
  have part : t.preWriteBuffer.readAll.1.length < 2 ^ 31 := by
    have total := congrArg List.length octets
    rw [List.length_append] at total
    rw [valid.readAll_fst]
    omega
  let emptied : Tls engine := { t with preWriteBuffer := t.preWriteBuffer.readAll.2 }
  have moves₁ : Moves t emptied := .of_same live rfl rfl rfl rfl rfl rfl rfl rfl rfl
  obtain ⟨t', sends, moves₂, finished', pre, sent, handed, -⟩ :=
    send_finished law kernel part moves₁.live running finished
  refine ⟨t', sends, moves₁.trans moves₂, finished', sent, ?_, ?_, ?_, fun _ => ?_⟩
  · rw [pre]
    exact valid'
  · rw [handed, pre, sent, valid.readAll_fst]
    simp only [emptied, empty, List.append_nil]
    exact octets
  · rw [pre, sent]
    exact lower.trans index
  · rw [pre]
    exact empty

/-- `SSL_do_handshake` and what follows it up to the test of `HandleSslError`. -/
theorem handshake_moves (kernel : Kernel) {t : Tls engine} (live : Live t)
    (running : t.base.shutDown = false) (unfinished : engine.isInitFinished t.ssl = false)
    (books : Books t) (short : t.sent.length < 2 ^ 31) :
    ∃ go t', t.handshake kernel = some (go, t') ∧ Moves t t' ∧
      (go = true → t'.sent = t.sent ∧ Books t' ∧
        (engine.isInitFinished t'.ssl = true ∧ (engine.doHandshake t.ssl t.rbio).1 = true ∨
          engine.isInitFinished t'.ssl = false ∧ Rests t')) ∧
      (go = false → (engine.doHandshake t.ssl t.rbio).2.error = .failure) := by
  have after := law.handshake_finished t.ssl t.rbio unfinished
  have reason := law.handshake_error t.ssl t.rbio
  have waits := law.handshake_waits t.ssl t.rbio
  rw [Tls.handshake]
  generalize engine.doHandshake t.ssl t.rbio = result at after reason waits
  obtain ⟨finished, call⟩ := result
  dsimp only at after reason waits ⊢
  have moves₁ := called_moves live call
  cases finished with
  | true =>
    obtain ⟨t', returns, moves₂, finished', sent, books'⟩ := onSslHandshakeFinished_moves law kernel
      moves₁.live running after books.valid books.octets books.index short
    refine ⟨true, t', ?_, moves₁.trans moves₂, fun _ => ⟨sent, books', .inl ⟨finished', rfl⟩⟩,
      fun stop => by cases stop⟩
    rw [if_pos rfl, returns]
    rfl
  | false =>
    obtain ⟨go, t', handles, moves₂, apart, ends, fails⟩ :=
      handleSslError_moves kernel moves₁.live (reason rfl)
    refine ⟨go, t', ?_, moves₁.trans moves₂, fun going => ?_, fails⟩
    · rw [if_neg (by decide)]
      exact handles
    · obtain ⟨want, drained⟩ := ends going
      have called : Books (t.called call) := by
        refine ⟨books.valid, books.octets, books.index, fun finished => ?_⟩
        rw [show (t.called call).ssl = call.state from rfl, after] at finished
        cases finished
      refine ⟨apart.sent, called.apart apart, .inr ⟨?_, drained, fun _ => ?_⟩⟩
      · rw [apart.ssl]
        exact after
      · rw [apart.ssl, apart.rbio]
        exact waits rfl want

/-- A round of `ReadFromBuffer`: it fails, or everything is in place again. -/
theorem feedRound_turns (kernel : Kernel) {t : Tls engine} (live : Live t)
    (running : t.base.shutDown = false) (books : Books t) (short : t.sent.length < 2 ^ 31) :
    ∃ go t', t.feedRound kernel = some (go, t') ∧ Moves t t' ∧ (go = true → Turns t t') := by
  cases finished : engine.isInitFinished t.ssl with
  | true =>
    rw [Tls.feedRound, if_pos finished]
    exact receive_turns law kernel live finished books
  | false =>
    obtain ⟨go, t₁, shakes, moves₁, goes, -⟩ :=
      handshake_moves law kernel live running finished books short
    rw [Tls.feedRound, if_neg (by simp [finished]), shakes]
    cases go with
    | false => exact ⟨false, t₁, rfl, moves₁, fun going => by cases going⟩
    | true =>
      obtain ⟨sent, books₁, done | waiting⟩ := goes rfl
      · obtain ⟨go, t₂, receives, moves₂, turns⟩ :=
          receive_turns law kernel moves₁.live done.1 books₁
        refine ⟨go, t₂, ?_, moves₁.trans moves₂, fun going => ?_⟩
        · dsimp only
          rw [if_pos done.1]
          exact receives
        · have turns := turns going
          exact ⟨moves₁.trans moves₂, turns.sent.trans sent, turns.books, turns.rests⟩
      · refine ⟨true, t₁, ?_, moves₁, fun _ => ⟨moves₁, sent, books₁, waiting.2⟩⟩
        dsimp only
        rw [if_neg (by simp [waiting.1])]

/-- The loop of `ReadFromBuffer`, whatever the pieces in which `BIO_write` takes the input:
it fails, or all of it has been put into `rbio_`. -/
theorem feedLoop_turns (kernel : Kernel) {fuel : Nat} (rooms : List Nat)
    (src : Bytes) {t : Tls engine}
    (live : Live t) (running : t.base.shutDown = false) (books : Books t) (rests : Rests t)
    (short : t.sent.length < 2 ^ 31) (enough : src.length < fuel) :
    ∃ go t', Tls.feedLoop kernel fuel rooms src t = some (go, t') ∧
      (go = true → Turns (t.bioWrite src) t') := by
  induction fuel generalizing rooms src t with
  | zero => omega
  | succ fuel ih =>
    rw [Tls.feedLoop]
    by_cases nothing : src = []
    · have same : t.bioWrite src = t := by
        rw [Tls.bioWrite, nothing, List.append_nil]
      rw [if_pos (by simp [nothing]), same]
      exact ⟨true, t, rfl, fun _ => ⟨.refl live, rfl, books, rests⟩⟩
    · have long := List.length_pos_iff.mpr nothing
      have takes : 0 < taken (rooms.headD src.length) src.length := by
        rw [taken]
        omega
      rw [if_neg (by simp [nothing])]
      generalize taken (rooms.headD src.length) src.length = n at takes
      have live₁ : Live (t.bioWrite (src.take n)) := ⟨live.plain, live.held, live.answers⟩
      have books₁ : Books (t.bioWrite (src.take n)) :=
        ⟨books.valid, books.octets, books.index, books.finished⟩
      obtain ⟨go, t₂, feeds, -, turns₂⟩ := feedRound_turns law kernel live₁ running books₁ short
      dsimp only
      rw [feeds]
      cases go with
      | false => exact ⟨false, t₂, rfl, fun going => by cases going⟩
      | true =>
        have turns₂ := turns₂ rfl
        obtain ⟨go, t₃, reads, turns₃⟩ := ih rooms.tail (src.drop n) turns₂.moves.live
          (turns₂.moves.shutDown.trans running) turns₂.books turns₂.rests
          (by rw [turns₂.sent]; exact short) (by rw [List.length_drop]; omega)
        refine ⟨go, t₃, reads, fun going => ?_⟩
        have turns₃ := turns₃ going
        have whole : (t.bioWrite (src.take n)).bioWrite (src.drop n) = t.bioWrite src := by
          simp only [Tls.bioWrite, List.append_assoc, List.take_append_drop]
        have moves := (turns₂.moves.bioWrite (src.drop n)).trans turns₃.moves
        rw [whole] at moves
        exact ⟨moves, turns₃.sent.trans turns₂.sent, turns₃.books, turns₃.rests⟩

/-- `ReadFromBuffer` of a string whose length fits an `int`. -/
theorem readFromBuffer_turns (kernel : Kernel) (rooms : List Nat) {src : Bytes} {t : Tls engine}
    (live : Live t) (running : t.base.shutDown = false) (books : Books t) (rests : Rests t)
    (short : t.sent.length < 2 ^ 31) (small : src.length < 2 ^ 31) :
    ∃ go t', t.readFromBuffer kernel rooms src (int src.length) = some (go, t') ∧
      (go = true → Turns (t.bioWrite src) t') := by
  rw [Tls.readFromBuffer, int_eq_of_small small]
  by_cases nothing : src = []
  · have same : t.bioWrite src = t := by
      rw [Tls.bioWrite, nothing, List.append_nil]
    rw [if_pos (by simp [nothing]), same]
    exact ⟨true, t, rfl, fun _ => ⟨.refl live, rfl, books, rests⟩⟩
  · have long := List.length_pos_iff.mpr nothing
    rw [if_neg (by omega), Int.toNat_natCast, List.take_length]
    exact feedLoop_turns law kernel rooms src live running books rests short (Nat.lt_succ_self _)

end

/-! ## Events and calls -/

inductive Act where
  | send (content : Bytes) (answers : List (List Answer))
  /-- The octets in the pieces `read` delivers, the pieces `BIO_write` takes, what the
  application does in its callback, and the answers of the socket. -/
  | readEvent (chunks : List Bytes) (rooms : List Nat) (calls : List AppCall)
      (answers : List (List Answer))
  | writeEvent (answers : List (List Answer))

def start (engine : SslEngine) (initial : engine.State) (isServer : Bool) : Tls engine :=
  { base := .create false false
    ssl := initial
    rbio := []
    wbio := []
    preWriteBuffer := .fresh
    isServer := isServer
    answers := []
    arrived := []
    digested := []
    produced := []
    plaintext := []
    used := []
    sent := []
    handed := [] }

def step (kernel : Kernel) (t : Tls engine) : Act → Option (Tls engine)
  | .send content answers => { t with answers := answers }.appCall kernel (.send content)
  | .readEvent chunks rooms calls answers =>
    { t with answers := answers }.onReadCallback kernel (chunks.map .data) rooms calls
  | .writeEvent answers => { t with answers := answers }.onWriteCallback kernel

def answersTo : Act → List (List Answer)
  | .send _ answers | .readEvent _ _ _ answers | .writeEvent answers => answers

/-- Octets that an event brings from the socket. -/
def inputOf : Act → Bytes
  | .readEvent chunks _ _ _ => chunks.flatten
  | .send _ _ | .writeEvent _ => []

/-- Octets that the application passes to `Send`. -/
def passedLength : AppCall → Nat
  | .consume _ => 0
  | .send content => content.length

/-- A count for `HaveRead` is a 32-bit number. -/
def narrow : AppCall → Bool
  | .consume n => n < 2 ^ 32
  | .send _ => true

/-- Sizes: of what is passed to `Send` so far, of the pieces read and of what is consumed. -/
def inRange (t : Tls engine) : Act → Bool
  | .send content _ => t.sent.length + content.length < 2 ^ 31
  | .readEvent chunks _ calls _ =>
    (chunks.all fun chunk => 0 < chunk.length ∧ chunk.length ≤ kReadBufferSize) &&
      (chunks.flatten.length < 2 ^ 31 && calls.all narrow &&
        t.sent.length + (calls.map passedLength).sum < 2 ^ 31)
  | .writeEvent _ => t.sent.length < 2 ^ 31

/-- The sizes are in range, the socket takes octets or blocks, and the connection stays
open: the engine does not fail. -/
def allowed (kernel : Kernel) (t : Tls engine) (act : Act) : Bool :=
  ((answersTo act).all fun list => list.all Answer.tolerated) && inRange t act &&
    (step kernel t act).all fun next =>
      !next.base.shutDown && next.produced.length < 2 ^ 32 && next.plaintext.length < 2 ^ 32

/-- The state between two calls. -/
structure Good (t : Tls engine) : Prop where
  live : Live t
  running : t.base.shutDown = false
  fed : t.digested ++ t.rbio = t.arrived
  pump : Pump t
  books : Books t
  rests : Rests t

section
variable (law : Lawful engine) (kernel : Kernel)
include law

/-- A call of the application on an open connection. -/
theorem appCall_turns {t : Tls engine} (live : Live t) (running : t.base.shutDown = false)
    (books : Books t) (rests : Rests t) (call : AppCall) (fits : narrow call = true)
    (short : t.sent.length + passedLength call < 2 ^ 31) :
    ∃ t', t.appCall kernel call = some t' ∧ Moves t t' ∧ Books t' ∧ Rests t' ∧
      t'.sent.length = t.sent.length + passedLength call := by
  cases call with
  | consume n =>
    have fits : n < 2 ^ 32 := of_decide_eq_true fits
    refine ⟨_, rfl,
      ⟨⟨live.plain, live.held, live.answers⟩, List.prefix_rfl, List.prefix_rfl, rfl,
        rfl, rfl, rfl, ?_⟩,
      ⟨books.valid, books.octets, books.index, books.finished⟩, ⟨rests.drained, rests.waits⟩, rfl⟩
    intro _ _ pump
    refine ⟨pump.out, pump.valid.haveRead_valid fits, ?_, ?_⟩
    · simp only [pump.valid.unread_haveRead fits, List.append_assoc, List.take_append_drop]
      exact pump.into
    · exact (Buffer.writeIndex_haveRead_le _ _).trans pump.index
  | send content =>
    rw [passedLength] at short
    let noted : Tls engine := { t with sent := t.sent ++ content }
    have moves₁ : Moves t noted := .of_same live rfl rfl rfl rfl rfl rfl rfl rfl rfl
    have total : noted.sent.length = t.sent.length + content.length := List.length_append
    cases finished : engine.isInitFinished t.ssl with
    | true =>
      obtain ⟨t', sends, moves₂, finished', pre, sent, handed, drained⟩ :=
        send_finished law kernel (show content.length < 2 ^ 31 by omega)
          moves₁.live running finished
      have nothing := books.finished finished
      refine ⟨t', sends, moves₁.trans moves₂, ⟨?_, ?_, ?_, ?_⟩, ⟨drained rests.drained, ?_⟩, ?_⟩
      · rw [pre]
        exact books.valid
      · rw [handed, pre, sent]
        have octets := books.octets
        rw [nothing, List.append_nil] at octets
        simp only [noted, nothing, octets, List.append_nil]
      · rw [pre, sent, total]
        exact books.index.trans (Nat.le_add_right _ _)
      · intro _
        rw [pre]
        exact nothing
      · intro unfinished
        rw [finished'] at unfinished
        cases unfinished
      · rw [sent, total]
        rfl
    | false =>
      have room : t.preWriteBuffer.writeIndex + content.length < 2 ^ 32 := by
        have := books.index
        omega
      refine ⟨{ noted with preWriteBuffer := t.preWriteBuffer.write content }, ?_, ?_, ?_,
        ⟨rests.drained, rests.waits⟩, total⟩
      · rw [Tls.appCall, Tls.send, if_neg (by simp [running]), if_pos (by simp [finished])]
      · exact .of_same live rfl rfl rfl rfl rfl rfl rfl rfl rfl
      · refine ⟨books.valid.write_valid room, ?_, ?_, ?_⟩
        · simp only [books.valid.unread_write room, ← List.append_assoc, books.octets, noted]
        · simp only [Buffer.writeIndex_write room, total]
          have := books.index
          omega
        · intro impossible
          rw [finished] at impossible
          cases impossible

theorem appCalls_turns {calls : List AppCall} {t : Tls engine} (live : Live t)
    (running : t.base.shutDown = false) (books : Books t) (rests : Rests t)
    (fit : ∀ call ∈ calls, narrow call = true)
    (short : t.sent.length + (calls.map passedLength).sum < 2 ^ 31) :
    ∃ t', t.appCalls kernel calls = some t' ∧ Moves t t' ∧ Books t' ∧ Rests t' := by
  induction calls generalizing t with
  | nil => exact ⟨t, rfl, .refl live, books, rests⟩
  | cons call calls ih =>
    rw [List.map_cons, List.sum_cons] at short
    obtain ⟨t₁, called, moves₁, books₁, rests₁, length⟩ :=
      appCall_turns law kernel live running books rests
      call (fit call (.head _)) (show t.sent.length + passedLength call < 2 ^ 31 by omega)
    obtain ⟨t₂, rest, moves₂, books₂, rests₂⟩ :=
      ih moves₁.live (moves₁.shutDown.trans running) books₁ rests₁
      (fun call member => fit call (.tail _ member)) (by omega)
    refine ⟨t₂, ?_, moves₁.trans moves₂, books₂, rests₂⟩
    rw [Tls.appCalls, called]
    exact rest

end

/-- A call of the application on a connection that is shut down changes nothing there. -/
theorem appCalls_shutDown (kernel : Kernel) (calls : List AppCall) {t : Tls engine}
    (shut : t.base.shutDown = true) :
    ∃ t', t.appCalls kernel calls = some t' ∧ t'.base.shutDown = true := by
  induction calls generalizing t with
  | nil => exact ⟨t, rfl, shut⟩
  | cons call calls ih =>
    cases call with
    | consume n =>
      rw [Tls.appCalls, Tls.appCall]
      exact ih shut
    | send content =>
      rw [Tls.appCalls, Tls.appCall, Tls.send, if_pos shut]
      exact ih shut

/-- Behind a `ReadBuffer` that failed in the engine the connection is shut down. -/
theorem afterRead_failed (kernel : Kernel) (errno : Errno) (calls : List AppCall) (t : Tls engine) :
    ∃ t', t.afterRead kernel (-2) errno calls = some t' ∧ t'.base.shutDown = true := by
  rw [Tls.afterRead, if_neg (fun reset => absurd reset.1 (by decide)), if_pos (by decide)]
  let closing : Tls engine := { t with base := { t.base with shutDown := true } }
  have called : ∃ t', (if closing.base.readBuffer.empty then some closing
      else closing.appCalls kernel calls) = some t' ∧ t'.base.shutDown = true := by
    split
    · exact ⟨closing, rfl, rfl⟩
    · exact appCalls_shutDown kernel calls rfl
  obtain ⟨t', returns, shut⟩ := called
  dsimp only
  rw [returns]
  dsimp only
  split
  · exact ⟨_, rfl, shut⟩
  · exact ⟨_, rfl, shut⟩

/-- While the connection is open, the end of `OnWriteCallback` is the flush of `Send`. -/
theorem onWriteCallback_running (kernel : Kernel) {t t' : Tls engine}
    (hello : t.clientHello kernel = some t') (running : t'.base.shutDown = false) :
    t.onWriteCallback kernel = t'.flushOut kernel := by
  rw [Tls.onWriteCallback, hello, Tls.flushOut]
  dsimp only
  cases flushes : t'.base.flush kernel (t'.answers.headD []) with
  | none => rfl
  | some result =>
    obtain ⟨ret, base⟩ := result
    have stays : base.shutDown = false := by
      obtain ⟨_, _, _, rfl⟩ := Connection.flush_frame flushes
      exact running
    simp only [stays, Bool.false_and, Bool.false_eq_true, if_false]
    cases enabled : base.enableWrite ret with
    | none => simp [enabled]
    | some base => simp [enabled]

/-- Octets have been read from the socket and put into `rbio_`. -/
def taking (octets : Bytes) (t : Tls engine) : Tls engine :=
  { t with arrived := t.arrived ++ octets, rbio := t.rbio ++ octets }

theorem taking_nil (t : Tls engine) : taking [] t = t := by
  rw [taking, List.append_nil, List.append_nil]

section
variable (law : Lawful engine) (kernel : Kernel)
include law

/-- `OnReadCallback` behind a `ReadBuffer` that has met EAGAIN. -/
theorem afterRead_turns {calls : List AppCall} {t : Tls engine} (live : Live t)
    (running : t.base.shutDown = false) (books : Books t) (rests : Rests t)
    (fit : ∀ call ∈ calls, narrow call = true)
    (short : t.sent.length + (calls.map passedLength).sum < 2 ^ 31) :
    ∃ t', t.afterRead kernel (-1) .eagain calls = some t' ∧ Moves t t' ∧ Books t' ∧ Rests t' := by
  have called :
    ∃ t', (if t.base.readBuffer.empty then some t else t.appCalls kernel calls) = some t' ∧
      Moves t t' ∧ Books t' ∧ Rests t' := by
    split
    · exact ⟨t, rfl, .refl live, books, rests⟩
    · exact appCalls_turns law kernel live running books rests fit short
  obtain ⟨t', returns, moves, books', rests'⟩ := called
  refine ⟨t', ?_, moves, books', rests'⟩
  have open_ : t'.base.shutDown = false := moves.shutDown.trans running
  rw [Tls.afterRead, if_neg (by decide), if_neg (by decide)]
  dsimp only
  rw [returns]
  simp only [open_, Bool.false_and, Bool.false_eq_true, if_false]

theorem onReadCallback_turns {chunks : List Bytes} (rooms : List Nat)
    {calls : List AppCall} {t : Tls engine}
    (good : Good t) (sizes : ∀ chunk ∈ chunks, 0 < chunk.length ∧ chunk.length ≤ kReadBufferSize)
    (total : chunks.flatten.length < 2 ^ 31) (fit : ∀ call ∈ calls, narrow call = true)
    (short : t.sent.length + (calls.map passedLength).sum < 2 ^ 31) :
    ∃ t', t.onReadCallback kernel (chunks.map .data) rooms calls = some t' ∧
      (t'.base.shutDown = false → Moves (taking chunks.flatten t) t' ∧ Books t' ∧ Rests t') := by
  have room : Buffer.fresh.writeIndex + chunks.flatten.length < 2 ^ 32 := by
    rw [show Buffer.fresh.writeIndex = 0 from rfl]
    omega
  obtain ⟨buffer, reads, valid, unread⟩ := Buffer.valid_fresh.readBufferFromFd_data sizes room
  have str : buffer.readAll.1 = chunks.flatten := by
    rw [valid.readAll_fst, unread]
    rfl
  let noted : Tls engine := { t with arrived := t.arrived ++ chunks.flatten }
  have live : Live noted := ⟨good.live.plain, good.live.held, good.live.answers⟩
  have books : Books noted :=
    ⟨good.books.valid, good.books.octets, good.books.index, good.books.finished⟩
  obtain ⟨go, t₁, feeds, turns⟩ := readFromBuffer_turns law kernel rooms live good.running books
    ⟨good.rests.drained, good.rests.waits⟩ (show t.sent.length < 2 ^ 31 by omega) total
  have returned :
      t.readBuffer kernel (chunks.map .data) rooms = some (if go then -1 else -2, .eagain, t₁) := by
    rw [Tls.readBuffer, reads, Option.bind_some, str]
    exact congrArg (Option.map _) feeds
  rw [Tls.onReadCallback, if_neg (by simp [good.running]), returned, Option.bind_some]
  cases go with
  | false =>
    obtain ⟨t', returns, shut⟩ := afterRead_failed kernel .eagain calls t₁
    refine ⟨t', returns, fun open_ => ?_⟩
    rw [shut] at open_
    cases open_
  | true =>
    have turns := turns rfl
    rw [show t.sent = t₁.sent from turns.sent.symm] at short
    obtain ⟨t', returns, moves₂, books, rests⟩ := afterRead_turns law kernel turns.moves.live
      (turns.moves.shutDown.trans good.running) turns.books turns.rests fit short
    exact ⟨t', returns, fun _ => ⟨turns.moves.trans moves₂, books, rests⟩⟩

/-- A write event before the end of the handshake tries it once more, in vain. -/
theorem clientHello_turns {t : Tls engine} (good : Good t) (short : t.sent.length < 2 ^ 31) :
    ∃ t', t.clientHello kernel = some t' ∧ Moves t t' ∧ Books t' ∧ Rests t' := by
  rw [Tls.clientHello]
  split
  · rename_i shakes
    have unfinished : engine.isInitFinished t.ssl = false := by
      simp only [Bool.and_eq_true, Bool.not_eq_true'] at shakes
      exact shakes.2
    obtain ⟨waits, want⟩ := good.rests.waits unfinished
    obtain ⟨go, t', returns, moves, goes, fails⟩ :=
      handshake_moves law kernel good.live good.running unfinished good.books short
    refine ⟨t', by rw [returns]; rfl, moves, ?_⟩
    cases go with
    | false =>
      rw [want] at fails
      exact absurd (fails rfl) (by decide)
    | true =>
      obtain ⟨-, books, ⟨-, done⟩ | ⟨-, rests⟩⟩ := goes rfl
      · rw [waits] at done
        cases done
      · exact ⟨books, rests⟩
  · exact ⟨t, rfl, .refl good.live, good.books, good.rests⟩

theorem onWriteCallback_turns {t : Tls engine} (good : Good t) (short : t.sent.length < 2 ^ 31) :
    ∃ t', t.onWriteCallback kernel = some t' ∧ Moves t t' ∧ Books t' ∧ Rests t' := by
  obtain ⟨t₁, hello, moves₁, books₁, rests₁⟩ := clientHello_turns law kernel good short
  obtain ⟨t₂, flushes, moves₂, apart, same⟩ := flushOut_moves kernel moves₁.live
  refine ⟨t₂, ?_, moves₁.trans moves₂, books₁.apart apart, same.trans rests₁.drained, ?_⟩
  · rw [onWriteCallback_running kernel hello (moves₁.shutDown.trans good.running)]
    exact flushes
  · rw [apart.ssl, apart.rbio]
    exact rests₁.waits

/-- An event or a call, from one quiet moment to the next. -/
theorem step_good {t : Tls engine} {act : Act} (good : Good t)
    (allows : allowed kernel t act = true) :
    ∃ next, step kernel t act = some next ∧ Good next := by
  simp only [allowed, Bool.and_eq_true, List.all_eq_true] at allows
  obtain ⟨⟨tolerated, range⟩, ends⟩ := allows
  have heard : Good { t with answers := answersTo act } :=
    ⟨⟨good.live.plain, good.live.held, tolerated⟩, good.running, good.fed,
      ⟨good.pump.out, good.pump.valid, good.pump.into, good.pump.index⟩,
      ⟨good.books.valid, good.books.octets, good.books.index, good.books.finished⟩,
      ⟨good.rests.drained, good.rests.waits⟩⟩
  have returns : ∃ next, step kernel t act = some next ∧
      (next.base.shutDown = false →
        Moves (taking (inputOf act) { t with answers := answersTo act }) next ∧ Books next ∧
          Rests next) := by
    cases act with
    | send content answers =>
      have short : t.sent.length + content.length < 2 ^ 31 := of_decide_eq_true range
      obtain ⟨next, sends, moves, books, rests, -⟩ := appCall_turns law kernel heard.live
        heard.running heard.books heard.rests (.send content) rfl short
      exact ⟨next, sends, fun _ => ⟨by rw [inputOf, taking_nil]; exact moves, books, rests⟩⟩
    | readEvent chunks rooms calls answers =>
      simp only [inRange, Bool.and_eq_true, List.all_eq_true, decide_eq_true_eq] at range
      obtain ⟨sizes, ⟨total, fit⟩, short⟩ := range
      exact onReadCallback_turns law kernel rooms heard sizes total fit short
    | writeEvent answers =>
      have short : t.sent.length < 2 ^ 31 := of_decide_eq_true range
      obtain ⟨next, writes, moves, books, rests⟩ := onWriteCallback_turns law kernel heard short
      exact ⟨next, writes, fun _ => ⟨by rw [inputOf, taking_nil]; exact moves, books, rests⟩⟩
  obtain ⟨next, stepped, turns⟩ := returns
  rw [stepped] at ends
  simp only [Option.all_some, Bool.and_eq_true, Bool.not_eq_true', decide_eq_true_eq] at ends
  obtain ⟨⟨open_, produced⟩, plaintext⟩ := ends
  obtain ⟨moves, books, rests⟩ := turns open_
  have pump : Pump (taking (inputOf act) { t with answers := answersTo act }) :=
    ⟨good.pump.out, good.pump.valid, good.pump.into, good.pump.index⟩
  refine ⟨next, stepped, moves.live, open_, ?_, moves.pump produced plaintext pump, books, rests⟩
  rw [moves.fed, moves.arrived]
  simp only [taking, ← List.append_assoc, good.fed]

end

theorem good_start {initial : engine.State} (isServer : Bool)
    (waits : engine.isInitFinished initial = false →
      (engine.doHandshake initial []).1 = false ∧ (engine.doHandshake initial []).2.error = .want) :
    Good (start engine initial isServer) := by
  refine ⟨⟨⟨.fresh, rfl⟩, rfl, ?_⟩, rfl, rfl,
    ⟨⟨.fresh, rfl, Buffer.valid_fresh, rfl, Nat.le_refl _⟩, Buffer.valid_fresh, rfl, Nat.le_refl _⟩,
    ⟨Buffer.valid_fresh, rfl, Nat.le_refl _, fun _ => rfl⟩, rfl, waits⟩
  intro list member
  cases member

/-- Any run of events and calls on a TLS connection whose engine does not fail: every call
returns; the octets read from the socket are those the engine took followed by those in
`rbio_`; the octets the engine has produced are those the socket took followed by those
in the write buffer, none being left behind in `wbio_`; the plaintext is what the
application consumed followed by what it can still read; and the strings passed to
`Send` are what `SSL_write` took followed by what waits for the handshake, which is
nothing once the handshake is over. -/
theorem tls_carries_every_octet (law : Lawful engine) (kernel : Kernel) (initial : engine.State)
    (isServer : Bool) (waits : engine.isInitFinished initial = false →
      (engine.doHandshake initial []).1 = false ∧ (engine.doHandshake initial []).2.error = .want)
    (acts : List Act)
    (allows : RunMeets (step kernel) (fun t act => allowed kernel t act = true)
      (start engine initial isServer) acts) :
    ∃ final, run (step kernel) (start engine initial isServer) acts = some final ∧
      final.digested ++ final.rbio = final.arrived ∧ final.wbio = [] ∧
      (∃ b, final.base.writeBuffer = .plain b ∧ final.base.accepted ++ b.unread = final.produced) ∧
      final.used ++ final.base.readBuffer.unread = final.plaintext ∧
      final.handed ++ final.preWriteBuffer.unread = final.sent ∧
      (engine.isInitFinished final.ssl = true → final.handed = final.sent) := by
  obtain ⟨final, reached, good⟩ := run_enabled
    (fun t act good allows => step_good law kernel good allows) (good_start isServer waits) allows
  refine ⟨final, reached, good.fed, good.rests.drained, ?_, good.pump.into, good.books.octets,
    fun finished => ?_⟩
  · obtain ⟨b, plain, -, octets, -⟩ := good.pump.out
    rw [good.rests.drained, List.append_nil] at octets
    exact ⟨b, plain, octets⟩
  · have octets := good.books.octets
    rw [good.books.finished finished, List.append_nil] at octets
    exact octets

/-- An engine that shakes hands over one octet and then passes everything on as it is. -/
def plainEngine : SslEngine where
  State := Bool
  isInitFinished := id
  doHandshake s rbio :=
    if rbio.isEmpty then (false, ⟨s, 0, [], .want⟩) else (true, ⟨true, 1, [22], .none⟩)
  sslRead n s rbio := (rbio.take n, ⟨s, n, [], .want⟩)
  sslWrite buf s _ := (buf.length, ⟨s, 0, buf, .none⟩)
  ready _ rbio := rbio.length

theorem plainEngine_lawful : Lawful plainEngine where
  read_ready := by
    intro n s rbio some_
    simp only [plainEngine, ne_eq, List.take_eq_nil_iff, not_or, List.length_drop] at some_ ⊢
    have := List.length_pos_iff.mpr some_.2
    omega
  read_finished := fun _ _ _ finished => finished
  read_error := by
    intro _ _ _ _
    simp [plainEngine]
  handshake_error := by
    intro s rbio
    cases rbio <;> simp [plainEngine]
  handshake_finished := by
    intro s rbio unfinished
    cases rbio with
    | nil => exact unfinished
    | cons octet rest => rfl
  handshake_waits := by
    intro s rbio fails _
    cases rbio with
    | nil => exact ⟨rfl, rfl⟩
    | cons octet rest => cases fails
  write_takes := by
    intro buf s rbio _ some_
    exact ⟨List.length_pos_iff.mpr some_, Nat.le_refl _⟩
  write_finished := fun _ _ _ finished => finished

/-- The application sends before the handshake; the peer's first octets bring the
handshake and a record, and the socket is slow. -/
def earlySend : List Act :=
  [.send [1, 2] [],
    .readEvent [[22, 7], [8, 9]] [1] [.consume 2, .send [3]] [[.accept 1], [], [.accept 1]],
    .writeEvent [[.accept 9]]]

theorem tls_carries_every_octet_earlySend :
    ∃ final, run (step .noFiles) (start plainEngine false true) earlySend = some final ∧
      final.wbio = [] ∧ final.base.accepted = [22, 1, 2, 3] ∧ final.base.readBuffer.unread = [9] ∧
      final.handed = [1, 2, 3] := by
  have met : RunMeets (step .noFiles) (fun t act => allowed .noFiles t act = true)
      (start plainEngine false true) earlySend := by decide +kernel
  obtain ⟨final, reached, -, drained, -⟩ :=
    tls_carries_every_octet plainEngine_lawful .noFiles false true
    (fun _ => ⟨rfl, rfl⟩) earlySend met
  have octets : (run (step .noFiles) (start plainEngine false true) earlySend).map (fun t =>
      (t.base.accepted, t.base.readBuffer.unread, t.handed)) =
        some ([22, 1, 2, 3], [9], [1, 2, 3]) := by
    decide +kernel
  rw [reached, Option.map_some, Option.some_inj, Prod.mk.injEq, Prod.mk.injEq] at octets
  exact ⟨final, reached, drained, octets⟩

end Ladder.Guarantees.TlsPump
