import Ladder.Library.Runs
import Ladder.Source.IocpConnection

/-!
# Output of a Windows connection

Every string that enters the write buffer is posted, at most 1024 octets at a time,
and each completion posts the next part. `PostWrite` does nothing any more once
`shut_down_` is set, so what a pending write does not cover when the peer's FIN
completes is never posted. The guarantee is about runs in which the pending write
covers the rest.
-/
namespace Ladder.Guarantees.IocpOutput
open Ladder.Library Ladder.Source Ladder.Source.IocpConnection

def sends : List IocpConnection.Reply → Bytes
  | [] => []
  | .consume _ :: rest => sends rest
  | .send content :: rest => content ++ sends rest

/-- The write index has room for what is sent. -/
def room (s : State) (content : Bytes) : Bool := s.writeBuffer.writeIndex + content.length < 2 ^ 32

/-- All that is left in the write buffer has been posted. -/
def covered (s : State) : Bool :=
  s.writeBuffer.empty || s.writeBuffer.readableBytes ≤ s.writeWsaBuf.len

/-- The FIN finds the rest of the output covered, writes that complete after it
complete in full, and the write index never wraps. -/
def Orderly (s : State) : Act → Bool
  | .init _ replies => s.shutDown || room s (sends replies)
  | .send content => s.shutDown || room s content
  | .readCompletion received replies =>
    s.shutDown || if received.isEmpty then covered s else room s (sends replies)
  | .writeCompletion ioSize => !s.shutDown || ioSize == s.writeWsaBuf.len

/-! ## The invariant inside of a handler -/

structure Inv (s : State) : Prop where
  valid : s.writeBuffer.Valid
  account : s.written = s.delivered ++ s.writeBuffer.unread
  accepted : s.written <+: s.sent
  all : s.shutDown = false → s.sent = s.written
  pending : s.writePending = true ↔ s.writeBuffer.unread ≠ []
  front : s.writePending = true →
    posted s = s.writeBuffer.unread.take s.writeWsaBuf.len ∧
      s.writeWsaBuf.len ≤ s.writeBuffer.unread.length
  refs : s.writeRefs = if s.writePending then 1 else 0
  covered : s.shutDown = true → s.writeBuffer.unread ≠ [] →
    s.writeBuffer.unread.length ≤ s.writeWsaBuf.len
  closed : 0 < s.onCloseCallbacks → s.shutDown = true ∧ s.writeBuffer.unread = []

section
variable {s : State}

theorem Inv.empty_iff (inv : Inv s) : s.writeBuffer.empty = true ↔ s.writeBuffer.unread = [] :=
  inv.valid.empty_iff

/-- An idle connection that is not shut down posts the front of what it has. -/
theorem postWrite_inv (valid : s.writeBuffer.Valid)
    (account : s.written = s.delivered ++ s.writeBuffer.unread) (all : s.sent = s.written)
    (running : s.shutDown = false) (idle : s.writePending = false) (refs : s.writeRefs = 0)
    (still : s.onCloseCallbacks = 0) : Inv (postWrite s) := by
  have peeks := valid.peekInto_eq (n := kMaxWsaBufSize) (by decide) s.writeWsaBuf.buf
  have notShut : s.shutDown ≠ true := by simp [running]
  have notClosed : ¬ 0 < s.onCloseCallbacks := by omega
  have first : 0 < kMaxWsaBufSize := by decide
  unfold postWrite
  rw [if_neg (by simp [running, idle]), peeks]
  dsimp only
  split
  · rename_i nothing
    have drained : s.writeBuffer.unread = [] := List.length_eq_zero_iff.mp (by omega)
    constructor
    · exact valid
    · exact account
    · exact all ▸ List.prefix_refl _
    · exact fun _ => all
    · simp [drained, idle]
    · exact fun pending => absurd pending (by simp [idle])
    · simp [idle, refs]
    · exact fun shut => absurd shut notShut
    · exact fun closed => absurd closed notClosed
  · rename_i something
    have front : (s.writeBuffer.unread.take kMaxWsaBufSize).length =
        min kMaxWsaBufSize s.writeBuffer.unread.length := List.length_take
    have filled : s.writeBuffer.unread ≠ [] := by
      intro drained
      simp [drained] at something
    constructor
    · exact valid
    · exact account
    · exact all ▸ List.prefix_refl _
    · exact fun _ => all
    · exact ⟨fun _ => filled, fun _ => rfl⟩
    · intro _
      refine ⟨?_, Nat.min_le_right _ _⟩
      simp only [posted]
      rw [← front, List.take_left, List.take_eq_take_iff]
      omega
    · simp [refs]
    · exact fun shut => absurd shut notShut
    · exact fun closed => absurd closed notClosed

theorem Inv.still (inv : Inv s) (running : s.shutDown = false) : s.onCloseCallbacks = 0 := by
  by_contra closed
  rw [(inv.closed (Nat.pos_of_ne_zero closed)).1] at running
  cases running

/-- Octets behind the posted ones do not disturb the pending write. -/
theorem Inv.append {content : Bytes} (inv : Inv s) (running : s.shutDown = false)
    (fits : s.writeBuffer.writeIndex + content.length < 2 ^ 32) (pending : s.writePending = true) :
    Inv { s with
      sent := s.sent ++ content
      writeBuffer := s.writeBuffer.write content
      written := s.written ++ content } := by
  have unread := inv.valid.unread_write fits
  have notShut : s.shutDown ≠ true := by simp [running]
  obtain ⟨front, short⟩ := inv.front pending
  constructor
  · exact inv.valid.write_valid fits
  · rw [unread, ← List.append_assoc, ← inv.account]
  · rw [inv.all running]
  · intro _
    rw [inv.all running]
  · refine ⟨fun _ => ?_, fun _ => pending⟩
    rw [unread]
    exact List.append_ne_nil_of_left_ne_nil (inv.pending.mp pending) _
  · intro _
    rw [unread, List.take_append_of_le_length short, List.length_append]
    exact ⟨front, by dsimp only; omega⟩
  · exact inv.refs
  · exact fun shut => absurd shut notShut
  · exact fun closed => absurd (inv.closed closed).1 notShut

theorem Inv.send {content : Bytes} (inv : Inv s)
    (fits : s.shutDown = false → s.writeBuffer.writeIndex + content.length < 2 ^ 32) :
    Inv (send content s) := by
  cases running : s.shutDown with
  | true =>
    rw [send_shut content running]
    exact { inv with
      accepted := inv.accepted.trans (List.prefix_append _ _)
      all := fun open_ => by
        rw [show s.shutDown = false from open_] at running
        cases running }
  | false =>
    rw [send_running content running]
    by_cases pending : s.writePending = true
    · rw [postWrite_pending]
      · exact inv.append running (fits running) pending
      · exact pending
    · have unread := inv.valid.unread_write (fits running)
      apply postWrite_inv
      · exact inv.valid.write_valid (fits running)
      · rw [unread, ← List.append_assoc, ← inv.account]
      · rw [inv.all running]
      · exact running
      · exact Bool.eq_false_iff.mpr pending
      · rw [inv.refs, if_neg pending]
      · exact inv.still running

theorem send_writeIndex_le {content : Bytes}
    (fits : s.shutDown = false → s.writeBuffer.writeIndex + content.length < 2 ^ 32) :
    (IocpConnection.send content s).writeBuffer.writeIndex ≤
      s.writeBuffer.writeIndex + content.length := by
  cases running : s.shutDown with
  | true =>
    rw [send_shut content running]
    exact Nat.le_add_right _ _
  | false =>
    rw [send_running content running, postWrite_writeBuffer, Buffer.writeIndex_write (fits running)]

/-- What a read callback leaves alone. -/
structure Replied (s after : State) : Prop where
  inv : Inv after
  shutDown : after.shutDown = s.shutDown
  readRefs : after.readRefs = s.readRefs
  initialised : after.initialised = s.initialised

/-- A read callback, whatever it consumes and sends. -/
theorem Inv.reply {replies : List IocpConnection.Reply} (inv : Inv s)
    (fits : s.shutDown = false → s.writeBuffer.writeIndex + (sends replies).length < 2 ^ 32) :
    Replied s (reply replies s) := by
  induction replies generalizing s with
  | nil => exact ⟨inv, rfl, rfl, rfl⟩
  | cons first rest ih =>
    cases first with
    | consume n =>
      have later := ih (s := { s with readBuffer := s.readBuffer.haveRead n }) { inv with } fits
      exact { later with }
    | send content =>
      simp only [sends, List.length_append] at fits
      have now (running : s.shutDown = false) :
          s.writeBuffer.writeIndex + content.length < 2 ^ 32 := by
        have := fits running
        omega
      have index := send_writeIndex_le now
      have later := ih (inv.send now) (by
        intro running
        rw [send_shutDown] at running
        have := fits running
        omega)
      constructor
      · exact later.inv
      · rw [← send_shutDown content s]
        exact later.shutDown
      · rw [← send_readRefs content s]
        exact later.readRefs
      · rw [← send_initialised content s]
        exact later.initialised

theorem Inv.runReadCallback (inv : Inv s) (replies : List IocpConnection.Reply)
    (fits : s.shutDown = false → s.writeBuffer.writeIndex + (sends replies).length < 2 ^ 32) :
    Replied s (runReadCallback replies s) := by
  unfold IocpConnection.runReadCallback
  split
  · exact ⟨inv, rfl, rfl, rfl⟩
  · exact inv.reply fits

theorem Inv.onCloseCallback (inv : Inv s) (shut : s.shutDown = true)
    (drained : s.writeBuffer.unread = []) : Inv (onCloseCallback s) :=
  { inv with closed := fun _ => ⟨shut, drained⟩ }

end

/-! ## Between two steps -/

/-- At most one read is outstanding, none before `Init` or after the FIN; and a
connection that is shut down and has nothing left has been closed. -/
structure Between (s : State) : Prop extends Inv s where
  oneRead : s.readRefs ≤ 1
  unposted : s.initialised = false → s.readRefs = 0 ∧ s.shutDown = false
  noRead : s.shutDown = true → s.readRefs = 0
  finished : s.shutDown = true → s.writeBuffer.unread = [] → 0 < s.onCloseCallbacks

section
variable {s : State}

theorem Between.send {content : Bytes} (between : Between s)
    (orderly : Orderly s (.send content) = true) : Between (send content s) := by
  simp only [Orderly, room, Bool.or_eq_true, decide_eq_true_eq] at orderly
  have fits : s.shutDown = false → s.writeBuffer.writeIndex + content.length < 2 ^ 32 := by
    intro running
    simpa [running] using orderly
  refine ⟨between.toInv.send fits, ?_, ?_, ?_, ?_⟩
  · simpa using between.oneRead
  · simpa using between.unposted
  · simpa using between.noRead
  · intro shut
    rw [send_shutDown] at shut
    rw [send_shut content shut]
    exact between.finished shut

/-- `PostRead` at the end of a handler that has left the connection running. -/
theorem postRead_between (inv : Inv s) (running : s.shutDown = false) (none : s.readRefs = 0)
    (initialised : s.initialised = true) : Between (postRead s) := by
  unfold postRead
  rw [if_neg (by simp [running])]
  refine ⟨{ inv with }, ?_, ?_, ?_, ?_⟩
  · simp [none]
  · intro before
    rw [show s.initialised = false from before] at initialised
    cases initialised
  · intro shut
    rw [show s.shutDown = true from shut] at running
    cases running
  · intro shut
    rw [show s.shutDown = true from shut] at running
    cases running

theorem closeIfDrained_running (running : s.shutDown = false) : closeIfDrained s = s := by
  simp [closeIfDrained, running]

/-- The end of the read handler: a drained connection that is shut down is closed, a
running one posts the next read. -/
theorem readTail_between (inv : Inv s) (none : s.readRefs = 0)
    (initialised : s.initialised = true) :
    Between (if s.shutDown && s.writeBuffer.empty then onCloseCallback s
      else closeIfDrained (postRead s)) := by
  have before (early : s.initialised = false) : s.readRefs = 0 ∧ s.shutDown = false := by
    rw [early] at initialised
    cases initialised
  by_cases shut : s.shutDown = true
  · rw [shut, Bool.true_and]
    have stays : postRead s = s := if_pos shut
    split
    · rename_i empty
      have drained := inv.empty_iff.mp empty
      exact ⟨inv.onCloseCallback shut drained, none.trans_le (Nat.zero_le _), before,
        fun _ => none, fun _ _ => Nat.succ_pos _⟩
    · rename_i filled
      rw [stays, closeIfDrained, shut, Bool.true_and, if_neg filled]
      exact ⟨inv, none.trans_le (Nat.zero_le _), before, fun _ => none,
        fun _ drained => absurd (inv.empty_iff.mpr drained) filled⟩
  · have running : s.shutDown = false := Bool.eq_false_iff.mpr shut
    have between := postRead_between inv running none initialised
    have still : (postRead s).shutDown = false := by
      rw [postRead, if_neg shut]
      exact running
    rw [running, Bool.false_and, if_neg Bool.false_ne_true, closeIfDrained_running still]
    exact between

theorem Between.init {accepted : Bytes} {replies : List IocpConnection.Reply} (between : Between s)
    (orderly : Orderly s (.init accepted replies) = true) (first : s.initialised = false) :
    Between (init accepted replies s) := by
  obtain ⟨none, running⟩ := between.unposted first
  simp only [Orderly, room, running, Bool.false_or, decide_eq_true_eq] at orderly
  have inv (readBuffer : Buffer) :
      Inv { s with initialised := true, readBuffer := readBuffer } := { between.toInv with }
  unfold IocpConnection.init
  dsimp only
  split
  · have replied := (inv (s.readBuffer.writeChars accepted accepted.length)).runReadCallback
      replies fun _ => orderly
    exact postRead_between replied.inv (replied.shutDown.trans running)
      (replied.readRefs.trans none)
      replied.initialised
  · have replied := (inv s.readBuffer).runReadCallback replies fun _ => orderly
    exact postRead_between replied.inv (replied.shutDown.trans running)
      (replied.readRefs.trans none)
      replied.initialised

theorem Between.readCompletion {received : Bytes} {replies : List IocpConnection.Reply}
    (between : Between s)
    (orderly : Orderly s (.readCompletion received replies) = true) (outstanding : 0 < s.readRefs) :
    Between (onReadCallback received replies { s with readRefs := s.readRefs - 1 }) := by
  have one := between.oneRead
  have running : s.shutDown = false := by
    by_contra shut
    have := between.noRead (by simpa using shut)
    omega
  have initialised : s.initialised = true := by
    by_contra before
    have := (between.unposted (by simpa using before)).1
    omega
  have taken : s.readRefs - 1 = 0 := by omega
  simp only [Orderly, running, Bool.false_or] at orderly
  unfold onReadCallback
  rw [if_neg (by simp [running])]
  dsimp only
  cases received with
  | nil =>
    -- the FIN: what is left has been posted
    have rest : s.writeBuffer.unread ≠ [] → s.writeBuffer.unread.length ≤ s.writeWsaBuf.len := by
      intro filled
      simp only [List.isEmpty_nil, if_true, IocpOutput.covered, Bool.or_eq_true, decide_eq_true_eq,
        between.valid.readableBytes_eq] at orderly
      rcases orderly with empty | short
      · exact absurd (between.toInv.empty_iff.mp empty) filled
      · exact short
    have inv : Inv { s with readRefs := s.readRefs - 1, shutDown := true } :=
      { between.toInv with
        all := nofun
        covered := fun _ => rest
        closed := fun closed => absurd closed (by simp [between.toInv.still running]) }
    have replied := inv.runReadCallback replies nofun
    exact readTail_between replied.inv (replied.readRefs.trans taken)
      (replied.initialised.trans initialised)
  | cons octet more =>
    simp only [List.isEmpty_cons, Bool.false_eq_true, if_false, room, decide_eq_true_eq] at orderly
    rw [if_pos (show 0 < (octet :: more).length from Nat.succ_pos _)]
    have inv : Inv { s with
        readRefs := s.readRefs - 1
        readBuffer := s.readBuffer.writeChars (octet :: more) (octet :: more).length } :=
      { between.toInv with }
    have replied := inv.runReadCallback replies fun _ => orderly
    exact readTail_between replied.inv (replied.readRefs.trans taken)
      (replied.initialised.trans initialised)

/-- A completed write takes its octets from the front of the buffer. -/
theorem Inv.completion {ioSize : Nat} (inv : Inv s) (pending : s.writePending = true)
    (fits : ioSize ≤ s.writeWsaBuf.len) :
    (s.writeBuffer.haveRead ioSize).Valid ∧
      (s.writeBuffer.haveRead ioSize).unread = s.writeBuffer.unread.drop ioSize ∧
      s.written = (s.delivered ++ (posted s).take ioSize) ++
        (s.writeBuffer.haveRead ioSize).unread := by
  obtain ⟨front, short⟩ := inv.front pending
  have narrow : ioSize < 2 ^ 32 := by
    have := inv.valid.unread_length_lt
    omega
  have unread := inv.valid.unread_haveRead narrow
  refine ⟨inv.valid.haveRead_valid narrow, unread, ?_⟩
  rw [unread, front, List.take_take, Nat.min_eq_left fits, List.append_assoc, List.take_append_drop,
    inv.account]

/-- The last write of a connection that is shut down, when it completes in full. -/
theorem Inv.lastCompletion (inv : Inv s) (shut : s.shutDown = true)
    (pending : s.writePending = true) :
    (s.writeBuffer.haveRead s.writeWsaBuf.len).unread = [] := by
  rw [(inv.completion pending (le_refl _)).2.1, List.drop_eq_nil_iff]
  exact inv.covered shut (inv.pending.mp pending)

theorem onWriteCallback_drained {ioSize : Nat} (shut : s.shutDown = true)
    (empty : (s.writeBuffer.haveRead ioSize).empty = true) :
    onWriteCallback ioSize s = onCloseCallback { s with
      writePending := false
      writeBuffer := s.writeBuffer.haveRead ioSize } :=
  if_pos (by rw [shut, empty]; rfl)

theorem Inv.pending_of_refs (inv : Inv s) (outstanding : 0 < s.writeRefs) :
    s.writePending = true := by
  by_contra idle
  rw [inv.refs, if_neg idle] at outstanding
  omega

theorem Between.writeCompletion {ioSize : Nat} (between : Between s)
    (orderly : Orderly s (.writeCompletion ioSize) = true) (outstanding : 0 < s.writeRefs)
    (fits : ioSize ≤ s.writeWsaBuf.len) :
    Between (onWriteCallback ioSize { s with
      writeRefs := s.writeRefs - 1
      delivered := s.delivered ++ (posted s).take ioSize }) := by
  have pending := between.toInv.pending_of_refs outstanding
  have refs : s.writeRefs - 1 = 0 := by rw [between.refs, if_pos pending]
  obtain ⟨valid, unread, account⟩ := between.toInv.completion pending fits
  by_cases shut : s.shutDown = true
  · have full : ioSize = s.writeWsaBuf.len := by simpa [Orderly, shut] using orderly
    have drained : (s.writeBuffer.haveRead ioSize).unread = [] := by
      rw [full]
      exact between.toInv.lastCompletion shut pending
    rw [onWriteCallback_drained]
    · refine ⟨?_, between.oneRead, between.unposted, between.noRead, fun _ _ => Nat.succ_pos _⟩
      constructor
      · exact valid
      · exact account
      · exact between.accepted
      · exact between.all
      · simp [onCloseCallback, drained]
      · exact nofun
      · exact refs
      · exact fun _ filled => absurd drained filled
      · exact fun _ => ⟨shut, drained⟩
    · exact shut
    · exact valid.empty_iff.mpr drained
  · have running : s.shutDown = false := Bool.eq_false_iff.mpr shut
    unfold onWriteCallback
    rw [if_neg (by simp [running]), closeIfDrained_running (by simpa using running)]
    refine ⟨?_, ?_, ?_, ?_, ?_⟩
    · apply postWrite_inv
      · exact valid
      · exact account
      · exact between.all running
      · exact running
      · rfl
      · exact refs
      · exact between.toInv.still running
    · simpa using between.oneRead
    · simpa using between.unposted
    · simpa using between.noRead
    · intro shut'
      rw [postWrite_shutDown] at shut'
      exact absurd shut' shut

theorem step_between (s : State) (act : Act) (next : State) (between : Between s)
    (orderly : Orderly s act = true) (stepped : step s act = some next) : Between next := by
  cases act with
  | init accepted replies =>
    simp only [step] at stepped
    split at stepped
    · cases stepped
    · rename_i first
      cases stepped
      exact between.init orderly (Bool.eq_false_iff.mpr first)
  | send content =>
    cases stepped
    exact between.send orderly
  | readCompletion received replies =>
    simp only [step] at stepped
    split at stepped
    · rename_i outstanding
      cases stepped
      exact between.readCompletion orderly outstanding.1
    · cases stepped
  | writeCompletion ioSize =>
    simp only [step] at stepped
    split at stepped
    · rename_i outstanding
      cases stepped
      exact between.writeCompletion orderly outstanding.1 outstanding.2
    · cases stepped

theorem between_start : Between start := by
  refine ⟨?_, Nat.zero_le _, fun _ => ⟨rfl, rfl⟩, nofun, nofun⟩
  constructor
  · exact Buffer.valid_fresh
  · rfl
  · exact List.prefix_refl _
  · exact fun _ => rfl
  · simp [start]
  · exact nofun
  · rfl
  · exact nofun
  · exact nofun

end

/-- In every orderly run a non-empty write buffer has a write pending, whether or not
the peer has half-closed, and what the system has taken is a prefix of what was
sent. A connection that is shut down reaches `OnCloseCallback` only when its whole
output has been delivered; if it has not got there yet, the full completion of the
pending write delivers the rest and takes it there. -/
theorem iocp_output_progress (acts : List Act) (final : State)
    (orderly : RunMeets step (fun s act => Orderly s act = true) start acts)
    (reached : run step start acts = some final) :
    (final.writeBuffer.empty = false → final.writePending = true) ∧
    final.delivered <+: final.sent ∧
    (0 < final.onCloseCallbacks → final.shutDown = true ∧ final.delivered = final.written) ∧
    (final.shutDown = true → 0 < final.onCloseCallbacks ∨
      ∃ last, step final (.writeCompletion final.writeWsaBuf.len) = some last ∧
        0 < last.onCloseCallbacks ∧ last.delivered = final.written) := by
  have between : Between final := run_guarded step_between between_start orderly reached
  have account := between.account
  refine ⟨?_, ?_, ?_, ?_⟩
  · intro filled
    apply between.pending.mpr
    intro drained
    rw [between.toInv.empty_iff.mpr drained] at filled
    cases filled
  · have front : final.delivered <+: final.written := account ▸ List.prefix_append _ _
    exact front.trans between.accepted
  · intro closed
    obtain ⟨shut, drained⟩ := between.closed closed
    rw [drained, List.append_nil] at account
    exact ⟨shut, account.symm⟩
  · intro shut
    by_cases drained : final.writeBuffer.unread = []
    · exact .inl (between.finished shut drained)
    · right
      have pending := between.pending.mpr drained
      have outstanding : 0 < final.writeRefs ∧ final.writeWsaBuf.len ≤ final.writeWsaBuf.len := by
        rw [between.refs, if_pos pending]
        exact ⟨Nat.one_pos, le_refl _⟩
      have last := between.toInv.lastCompletion shut pending
      obtain ⟨valid, -, all⟩ := between.toInv.completion pending (le_refl _)
      rw [last, List.append_nil] at all
      refine ⟨_, if_pos outstanding, ?_⟩
      rw [onWriteCallback_drained]
      · exact ⟨Nat.succ_pos _, all.symm⟩
      · exact shut
      · exact valid.empty_iff.mpr last

/-- Three octets in two parts; the FIN comes while the second part is pending. -/
def farewell : List Act :=
  [.init [] [], .send [1, 2], .send [3], .readCompletion [7] [.consume 1], .writeCompletion 1,
    .readCompletion [] []]

theorem iocp_output_progress_farewell :
    ∃ final, run step start farewell = some final ∧ final.shutDown = true ∧
      final.delivered <+: final.sent ∧ final.writePending = true :=
  have facts := iocp_output_progress farewell _ (by decide) rfl
  ⟨_, rfl, rfl, facts.2.1, facts.1 (by decide)⟩

/-- Octets that are not posted when the FIN completes stay in the buffer: the pending
write completes, and nothing is posted any more. -/
theorem iocp_output_stranded :
    ∃ (acts : List Act) (final : State), run step start acts = some final ∧
      final.shutDown = true ∧ final.sent = [1, 2] ∧ final.delivered = [1] ∧
      final.writeBuffer.unread = [2] ∧ final.writePending = false ∧ final.onCloseCallbacks = 0 :=
  ⟨[.init [] [], .send [1], .send [2], .readCompletion [] [], .writeCompletion 1], _, rfl, rfl, rfl,
    rfl, rfl, rfl, rfl⟩

end Ladder.Guarantees.IocpOutput
