import Ladder.Library.Runs
import Ladder.Guarantees.TransferCounters

/-!
# How a flush of a FileBuffer ends

First, what `Empty()` says between two calls: it only looks at the queue, and an entry
without a file leaves the queue before its octets leave the inner buffer. Then, whether
`WriteBufferToFd` returns at all: the measure of a call is what is still to be sent, and
the one step that sends nothing and changes nothing is a `sendfile` at the end of a file
that is shorter than it was.
-/
namespace Ladder.Guarantees.FileFlush
open Ladder.Library Ladder.Source Ladder.Source.FileTransfer Ladder.Guarantees.TransferCounters

/-! ## Empty -/

/-- Nothing is left: no entry in the queue, no open file, no octet in the inner buffer. -/
def Drained (s : Sender) : Prop := s.pendingFiles = [] ∧ s.file = none ∧ s.buffer.unread = []

/-- Between two calls `Empty()` tells whether anything is left. -/
def Truthful (s : Sender) : Prop := s.idle = true → (s.empty = true ↔ Drained s)

/-- The socket refuses octets of the inner buffer, and the call returns. -/
def refusesWrite (s : Sender) : Act → Bool
  | .proceed reply _ =>
    decide (s.point = .first ∨ s.point = .flush) && decide (0 < s.buffer.readableBytes) &&
      match reported (reply.outcome s.offer.length) with
      | .error errno => errno != .other
      | .ok _ => false
  | _ => false

/-- When the socket refuses octets of the inner buffer, an entry is still in the queue. -/
def KeepsEntry (s : Sender) (act : Act) : Prop := refusesWrite s act = true → s.pendingFiles ≠ []

instance (s : Sender) (act : Act) : Decidable (KeepsEntry s act) :=
  inferInstanceAs (Decidable (_ → _))

section
variable {platform : Platform} {s next : Sender} {act : Act}

/-- Steps outside the flush of the inner buffer meet no refusal there. -/
theorem keepsEntry_elsewhere (here : s.point = .loop ∨ s.point = .send) (reply : FileTransfer.Reply)
    (opened : Option Opened) : KeepsEntry s (.proceed reply opened) := by
  intro refuses
  simp only [refusesWrite, Bool.and_eq_true, decide_eq_true_eq] at refuses
  rcases here with here | here
  · simp [here] at refuses
  · simp [here] at refuses

/-- In the middle of a call nobody asks. -/
theorem truthful_busy (busy : next.idle = false) : Truthful next := by
  intro idle
  rw [busy] at idle
  cases idle

theorem afterFlush_idle (s : Sender) :
    ({ s with point := s.afterFlush } : Sender).idle = false := by
  unfold Sender.afterFlush
  split
  · rfl
  · rfl

theorem truthful_step_iff (s : Sender) (act : Act) (next : Sender) (sound : Sound s)
    (stepped : step platform s act = some next) : Truthful next ↔ KeepsEntry s act := by
  have goes {reply : FileTransfer.Reply} {opened : Option Opened} {next : Sender}
      (here : s.point = .loop ∨ s.point = .send) (truthful : Truthful next) :
      Truthful next ↔ KeepsEntry s (.proceed reply opened) :=
    ⟨fun _ => keepsEntry_elsewhere here reply opened, fun _ => truthful⟩
  cases moves_of_step stepped with
  | addFile idle =>
    refine ⟨fun _ refuses => ?_, fun _ _ => ?_⟩
    · cases refuses
    · simp [Sender.empty, Sender.addFile, Drained]
  | enter idle =>
    refine ⟨fun _ refuses => ?_, fun _ => truthful_busy rfl⟩
    cases refuses
  | wrote flushing readable result =>
    refine ⟨fun _ refuses => ?_, fun _ => truthful_busy ?_⟩
    · simp [refusesWrite, result] at refuses
    · rcases flushing with here | here <;> simp [Sender.haveWritten, Sender.idle, here]
  | @refused reply opened errno flushing readable result tolerated =>
    -- the octets refused are in the inner buffer, so only the queue is left to compare
    have unsent := sound.valid.readable_iff.mp readable
    have refuses : refusesWrite s (.proceed reply opened) = true := by
      simp only [refusesWrite, result, readable, Bool.and_eq_true, decide_eq_true_eq, bne_iff_ne]
      exact ⟨⟨flushing, trivial⟩, tolerated⟩
    constructor
    · intro truthful _ nothing
      have drained := (truthful rfl).mp (by simp [Sender.empty, nothing])
      exact unsent drained.2.2
    · intro keeps _
      have more := keeps refuses
      simp [Sender.empty, Drained, more]
  | drained flushing nothing =>
    refine ⟨fun _ refuses => ?_, fun _ => truthful_busy (afterFlush_idle s)⟩
    simp [refusesWrite, nothing] at refuses
  | dies flushing result =>
    refine ⟨fun _ refuses => ?_, fun _ => truthful_busy rfl⟩
    simp [refusesWrite, result] at refuses
  | finishes here queue =>
    refine goes (.inl here) fun _ => ?_
    have closed : s.file = none := by
      by_contra isOpen
      exact sound.front (Option.isSome_iff_ne_none.mpr isOpen) queue
    simp [Sender.empty, Drained, queue, closed, sound.flushed (.inl here)]
  | resumes here isOpen => exact goes (.inl here) (truthful_busy rfl)
  | text here closed queue missing => exact goes (.inl here) (truthful_busy rfl)
  | opens here closed queue present => exact goes (.inl here) (truthful_busy rfl)
  | sends here isOpen result narrow more => exact goes (.inr here) (truthful_busy rfl)
  | closes here isOpen result narrow last => exact goes (.inr here) (truthful_busy rfl)
  | blocks here isOpen result =>
    refine goes (.inr here) fun _ => ?_
    have more := sound.front (by rw [isOpen]; rfl)
    simp [Sender.empty, Drained, more]
  | breaks here isOpen result fatal => exact goes (.inr here) (truthful_busy rfl)
  | overflows here isOpen result wide => exact goes (.inr here) (truthful_busy rfl)
  | strays here closed => exact goes (.inr here) (truthful_busy rfl)

/-- Entries whose header is still in the queue. -/
def waiting (s : Sender) : List FileInfo :=
  if s.file.isSome then s.pendingFiles.tail else s.pendingFiles

/-- Entries leave the queue one by one and in order. -/
def Queued (s : Sender) : Prop := s.takenUp.map Prod.fst ++ waiting s = s.added

theorem waiting_addFile (sound : Sound s) (header filename : Bytes) :
    waiting (s.addFile header filename) = waiting s ++ [⟨header, filename⟩] := by
  unfold waiting Sender.addFile
  dsimp only
  split
  · rename_i isOpen
    exact List.tail_append_of_ne_nil (sound.front isOpen)
  · rfl

/-- An entry whose turn comes leaves the waiting ones, whether it has a file or not. -/
theorem queued_takeUp {front : FileInfo} {rest : List FileInfo} (queued : Queued s)
    (closed : s.file = none) (queue : s.pendingFiles = front :: rest) (present : Option Opened) :
    (s.takenUp ++ [(front, present)]).map Prod.fst ++ rest = s.added := by
  unfold Queued waiting at queued
  rw [closed, queue] at queued
  simpa using queued

theorem queued_moves (sound : Sound s) (queued : Queued s) (moves : Moves platform s act next) :
    Queued next := by
  cases moves with
  | addFile idle =>
    unfold Queued
    rw [waiting_addFile sound, ← List.append_assoc]
    exact congrArg (· ++ _) queued
  | text here closed queue missing =>
    simp only [Queued, waiting, closed]
    exact queued_takeUp queued closed queue none
  | opens here closed queue present =>
    simp only [Queued, waiting, queue]
    exact queued_takeUp queued closed queue (some _)
  | closes here isOpen result narrow last =>
    simp only [Queued, waiting, isOpen] at queued
    exact queued
  | enter idle => exact queued
  | wrote flushing readable result => exact queued
  | refused flushing readable result tolerated => exact queued
  | drained flushing nothing => exact queued
  | dies flushing result => exact queued
  | finishes here queue => exact queued
  | resumes here isOpen => exact queued
  | sends here isOpen result narrow more => exact queued
  | blocks here isOpen result => exact queued
  | breaks here isOpen result fatal => exact queued
  | overflows here isOpen result wide => exact queued
  | strays here closed => exact queued

/-- When `Empty()` says so, every entry has had its turn and the socket has all octets. -/
def Settled (s : Sender) : Prop :=
  s.idle = true → s.empty = true → s.takenUp.map Prod.fst = s.added ∧ s.accepted = due s

structure Accounted (s : Sender) : Prop where
  bounded : Bounded s
  faithful : Faithful s
  queued : Queued s
  truthful : Truthful s

theorem Accounted.settled (accounted : Accounted s) : Settled s := by
  intro idle empty
  obtain ⟨queue, closed, drained⟩ := (accounted.truthful idle).mp empty
  have queued := accounted.queued
  have stream := accounted.faithful.stream
  simp only [Queued, waiting, closed, queue] at queued
  simp only [streaming, closed, drained, List.append_nil] at stream
  exact ⟨by simpa using queued, stream⟩

/-- Entries that fit, reported truthfully, and no refusal with an empty queue. -/
def Regular (platform : Platform) (s : Sender) (act : Act) : Prop :=
  Ordinary s act ∧ Honest platform s act ∧ KeepsEntry s act

instance (platform : Platform) (s : Sender) (act : Act) : Decidable (Regular platform s act) :=
  inferInstanceAs (Decidable (_ ∧ _))

theorem accounted_step (s : Sender) (act : Act) (next : Sender) (accounted : Accounted s)
    (regular : Regular platform s act) (stepped : step platform s act = some next) :
    Accounted next := by
  obtain ⟨bounded, faithful, queued, truthful⟩ := accounted
  obtain ⟨ordinary, honest, keeps⟩ := regular
  exact ⟨bounded_step s act next bounded ordinary stepped,
    (faithful_step_iff s act next bounded faithful ordinary stepped).mpr honest,
    queued_moves bounded.sound queued (moves_of_step stepped),
    (truthful_step_iff s act next bounded.sound stepped).mpr keeps⟩

theorem truthful_fresh : Truthful .fresh := by
  intro _
  simp [Sender.empty, Sender.fresh, Drained]

theorem accounted_fresh : Accounted .fresh :=
  ⟨bounded_fresh, faithful_fresh, rfl, truthful_fresh⟩

/-- `Empty()` means that nothing is left, between any two calls of a run, precisely when no
write of the run is refused with an empty queue; and with entries that fit and truthful
reports every octet added has then been accepted. -/
theorem empty_means_sent_iff (platform : Platform) (acts : List Act) (final : Sender)
    (reached : run (step platform) .fresh acts = some final) :
    (Along (step platform) Truthful .fresh acts ↔ RunMeets (step platform) KeepsEntry .fresh acts) ∧
      (RunMeets (step platform) (Regular platform) .fresh acts →
        Along (step platform) (fun s => Truthful s ∧ Settled s) .fresh acts) := by
  constructor
  · have guarded : RunMeets (step platform) (fun _ _ => True) .fresh acts :=
      .of_forall (fun _ _ _ => trivial) _
    exact along_iff (fun s act next sound _ _ => sound_step platform s act next sound)
      (fun s act next sound _ _ => truthful_step_iff s act next sound) sound_fresh truthful_fresh
      guarded reached
  · intro regular
    have accounted := along_of_guarded accounted_step accounted_fresh regular
    exact accounted.imp fun s holds => ⟨holds.truthful, holds.settled⟩

end

/-- A text and then a file, whose header the socket refuses once. -/
def fileLast : List Act :=
  [.addFile [65] [], .addFile [72] [102], .writeBufferToFd, .proceed (.accept 0) none,
    .proceed (.accept 0) none, .proceed (.accept 0) none, .proceed (.accept 0) none,
    .proceed (.accept 0) (some ⟨2, [88, 89], by decide⟩), .proceed (.fail .eagain) none,
    .writeBufferToFd, .proceed (.accept 0) none, .proceed (.accept 0) none,
    .proceed (.accept 0) none,
    .proceed (.accept 0) none, .proceed (.accept 9) none, .proceed (.accept 0) none]

theorem empty_means_sent_iff_fileLast :
    ∃ final, run (step .linux) .fresh fileLast = some final ∧ final.empty = true ∧
      final.accepted = [65, 72, 88, 89] ∧
      Along (step .linux) (fun s => Truthful s ∧ Settled s) .fresh fileLast := by
  have whole : (run (step .linux) .fresh fileLast).map (fun s => (s.empty, s.accepted)) =
      some (true, [65, 72, 88, 89]) := by
    decide +kernel
  obtain ⟨final, reached, eq⟩ := Option.map_eq_some_iff.mp whole
  obtain ⟨empty, accepted⟩ := Prod.mk.inj eq
  exact ⟨final, reached, empty, accepted,
    (empty_means_sent_iff .linux fileLast final reached).2 (by decide +kernel)⟩

/-- A text of one octet that the socket refuses. -/
def textRefused : List Act :=
  [.addFile [65] [], .writeBufferToFd, .proceed (.accept 0) none, .proceed (.accept 0) none,
    .proceed (.fail .eagain) none]

/-- `Empty()` holds, the octet is in the inner buffer, the socket has nothing. -/
theorem empty_with_octets :
    (run (step .linux) .fresh textRefused).map
        (fun s => (s.idle, s.empty, s.buffer.unread, s.accepted)) =
      some (true, true, [65], []) := by
  decide +kernel

/-! ## The call returns

Linux, with `opens` telling what each `open` call finds and an endless sequence of
answers of the socket, each of which takes something or blocks. -/

/-- The socket takes octets or has no room at the moment. -/
def Mild : FileTransfer.Reply → Prop
  | .accept _ => True
  | .fail errno => errno = .eagain
  | .broken _ _ => False

/-- The file is, when it is sent, at least as long as the narrowed size says. -/
def Fine (file : Opened) : Prop := 0 ≤ int file.size ∧ int file.size ≤ file.octets.length

/-- The files that the waiting entries will meet, from the given `open` call on, are fine. -/
def FineFrom (opens : Nat → Option Opened) : Nat → List FileInfo → Prop
  | _, [] => True
  | call, entry :: rest =>
    (∀ file ∈ Sender.found entry (opens call), Fine file) ∧
      FineFrom opens (call + FileBuffer.opening entry) rest

/-- The open file and all files ahead are fine. -/
def AllFine (opens : Nat → Option Opened) (s : Sender) : Prop :=
  (∀ file ∈ s.file, Fine file) ∧ FineFrom opens s.openCalls (waiting s)

instance (file : Opened) : Decidable (Fine file) := inferInstanceAs (Decidable (_ ∧ _))

instance decidableFineFrom (opens : Nat → Option Opened) :
    ∀ (call : Nat) (entries : List FileInfo), Decidable (FineFrom opens call entries)
  | _, [] => inferInstanceAs (Decidable True)
  | call, entry :: rest =>
    haveI := decidableFineFrom opens (call + FileBuffer.opening entry) rest
    inferInstanceAs (Decidable (_ ∧ _))

instance (opens : Nat → Option Opened) (s : Sender) : Decidable (AllFine opens s) :=
  inferInstanceAs (Decidable (_ ∧ _))

/-- The next step of the call. -/
def goOn (opens : Nat → Option Opened) (s : Sender) (reply : FileTransfer.Reply) : Sender :=
  s.proceed .linux reply (opens s.openCalls)

/-- On Linux no call sends more than is pending. -/
structure LinuxSound (s : Sender) : Prop where
  sound : Sound s
  ahead : ∀ file, s.file = some file → 0 ≤ int file.size → 0 ≤ s.bytesPending

section
variable {opens : Nat → Option Opened} {s next : Sender} {act : Act} {file : Opened}
  {reply : FileTransfer.Reply}
  {ret : Nat}

/-- The octets asked for, while the counters are not negative. -/
theorem LinuxSound.count (sound : LinuxSound s) (isOpen : s.file = some file)
    (nonneg : 0 ≤ int file.size) : (sizeT s.bytesPending : Int) = s.bytesPending := by
  have counted := sound.sound.counted file isOpen
  have sum := counted.sum
  have sent := counted.nonneg
  have bound := int_lt file.size
  exact sizeT_of_nonneg (sound.ahead file isOpen nonneg) (by omega)

theorem linuxSound_fresh : LinuxSound .fresh := ⟨sound_fresh, nofun⟩

theorem linuxSound_step (s : Sender) (act : Act) (next : Sender) (sound : LinuxSound s)
    (stepped : step .linux s act = some next) : LinuxSound next := by
  refine ⟨sound_step .linux s act next sound.sound stepped, ?_⟩
  rcases transfer_cases (moves_of_step stepped) with ⟨-, -, aside⟩ | ⟨-, file, -, opened⟩ |
    ⟨-, file, ret, reply, opened, rfl, here, isOpen, result, sends | ⟨-, rfl⟩⟩
  · rw [aside.held, aside.pending]
    exact sound.ahead
  · intro other same nonneg
    rw [opened.held] at same
    cases same
    rw [opened.pending]
    exact nonneg
  · intro other same nonneg
    rw [sends.held] at same
    split at same
    · cases same
    · cases same
      have count := sound.count isOpen nonneg
      have asked : (s.transmission .linux reply file).1 ≤ sizeT s.bytesPending :=
        Nat.le_trans (reply.outcome_le _) (Nat.min_le_left _ _)
      have reported := sendfile_le result
      rw [sends.pending]
      omega
  · exact sound.ahead

/-- A mild answer that takes something takes at least one octet. -/
theorem mild_ok {len : Nat} (mild : Mild reply) (some : 0 < len)
    (result : reported (reply.outcome len) = .ok ret) : 0 < ret := by
  cases reply with
  | accept room =>
    have value := reported_eq result
    simp only [FileTransfer.Reply.outcome, taken] at value
    omega
  | fail errno => cases result
  | broken room errno => cases mild

theorem mild_error {len : Nat} {errno : Errno} (mild : Mild reply)
    (result : reported (reply.outcome len) = .error errno) : errno = .eagain := by
  cases reply with
  | accept room => cases result
  | fail answer =>
    cases result
    exact mild
  | broken room answer => cases mild

theorem step_goOn (running : s.running = true) (opens : Nat → Option Opened)
    (reply : FileTransfer.Reply) :
    step .linux s (.proceed reply (opens s.openCalls)) = some (goOn opens s reply) := by
  simp only [step, running, if_true]
  rfl

/-- The files ahead when the next entry is taken up. -/
theorem allFine_takeUp {front : FileInfo} {rest : List FileInfo} (closed : s.file = none)
    (queue : s.pendingFiles = front :: rest) :
    AllFine opens s ↔ (∀ file ∈ Sender.found front (opens s.openCalls), Fine file) ∧
      FineFrom opens (s.openCalls + FileBuffer.opening front) rest := by
  simp [AllFine, waiting, closed, queue, FineFrom]

theorem allFine_text {front : FileInfo} {rest : List FileInfo} (closed : s.file = none)
    (queue : s.pendingFiles = front :: rest)
    (missing : Sender.found front (opens s.openCalls) = none)
    (held : next.file = none) (left : next.pendingFiles = rest)
    (calls : next.openCalls = s.openCalls + FileBuffer.opening front) :
    AllFine opens next ↔ AllFine opens s := by
  rw [allFine_takeUp closed queue, missing, AllFine, waiting, held, left, calls]
  simp

theorem allFine_opens {front : FileInfo} {rest : List FileInfo} (closed : s.file = none)
    (queue : s.pendingFiles = front :: rest)
    (present : Sender.found front (opens s.openCalls) = some file) (held : next.file = some file)
    (left : next.pendingFiles = front :: rest)
    (calls : next.openCalls = s.openCalls + FileBuffer.opening front) :
    AllFine opens next ↔ AllFine opens s := by
  rw [allFine_takeUp closed queue, present, AllFine, waiting, held, left, calls]
  rfl

/-- Once a file is closed only the files ahead count. -/
theorem allFine_closes (isOpen : s.file = some file) (held : next.file = none)
    (left : next.pendingFiles = s.pendingFiles.tail) (calls : next.openCalls = s.openCalls) :
    Fine file ∧ AllFine opens next ↔ AllFine opens s := by
  simp [AllFine, waiting, isOpen, held, left, calls]

/-- Octets of a fine file that are still to be sent are there. -/
theorem LinuxSound.offered (sound : LinuxSound s) (isOpen : s.file = some file) (fine : Fine file) :
    Platform.offered .linux (sizeT s.bytesPending) (file.octets.length - s.bytesSent.toNat) =
      s.bytesPending.toNat := by
  have counted := sound.sound.counted file isOpen
  have sum := counted.sum
  have sent := counted.nonneg
  have count := sound.count isOpen fine.1
  have pending := sound.ahead file isOpen fine.1
  have inside := fine.2
  simp only [Platform.offered]
  omega

/-- What the entries still ahead amount to. -/
def load (opens : Nat → Option Opened) : Nat → List FileInfo → Nat
  | _, [] => 0
  | call, entry :: rest =>
    entry.header.length +
      (match Sender.found entry (opens call) with
        | some file => (int file.size).toNat
        | none => 0) +
      2 + load opens (call + FileBuffer.opening entry) rest

/-- What is left of the open file, and its `close`. -/
def openLoad (s : Sender) : Nat := if s.file.isSome then s.bytesPending.toNat + 1 else 0

/-- Steps to the next system call that gets something done. -/
def rank (s : Sender) : Nat :=
  match s.point with
  | .first => 4
  | .loop => 3
  | .flush => if s.file.isSome then 2 else 4
  | .send => 1
  | .returned _ | .exited => 0

def work (opens : Nat → Option Opened) (s : Sender) : Nat :=
  4 * (s.buffer.unread.length + openLoad s + load opens s.openCalls (waiting s)) + rank s

/-- No step leads into `EXIT`, and 0 is returned with an empty queue only. -/
def Orderly (s : Sender) : Prop :=
  match s.point with
  | .returned ret => ret < 0 ∨ s.pendingFiles = []
  | .exited => False
  | _ => True

/-- On fine files `sendfile` moves on whenever something is pending. -/
theorem mild_sendfile (sound : LinuxSound s) (isOpen : s.file = some file) (fine : Fine file)
    (mild : Mild reply) (result : sendfile .linux (s.transmission .linux reply file) = .ok ret) :
    (0 < s.bytesPending → 0 < ret) ∧ (ret : Int) ≤ s.bytesPending ∧ s.bytesSent + ret < 2 ^ 31 := by
  have pending := sound.ahead file isOpen fine.1
  have counted := sound.sound.counted file isOpen
  have sum := counted.sum
  have bound := int_lt file.size
  have offered := sound.offered isOpen fine
  have short := Nat.le_trans (sendfile_le result) (reply.outcome_le _)
  have some : 0 < s.bytesPending → 0 < ret := by
    intro positive
    exact mild_ok mild (by omega) result
  rw [offered] at short
  exact ⟨some, by omega, by omega⟩

/-- Taking up an entry trades its load for its header and its file. -/
theorem work_takeUp {front : FileInfo} {rest : List FileInfo} {opened : Option Opened}
    (sound : Sound s) (here : s.point = .loop) (closed : s.file = none)
    (queue : s.pendingFiles = front :: rest)
    (found : Sender.found front (opens s.openCalls) = opened)
    (held : next.file = opened)
    (pending : ∀ file, opened = some file → next.bytesPending = int file.size)
    (buffer : next.buffer = s.buffer.write front.header) (point : next.point = .flush)
    (calls : next.openCalls = s.openCalls + FileBuffer.opening front)
    (ahead : waiting next = rest) :
    work opens next < work opens s := by
  have header : next.buffer.unread.length ≤ front.header.length := by
    rw [buffer, (sound.write_drained here front.header).2.2]
    exact List.length_take_le' _ _
  have whole : waiting s = front :: rest := by
    rw [waiting, closed, queue]
    rfl
  unfold work openLoad rank
  rw [ahead, calls, held, point, whole, closed, here, load, found]
  cases opened with
  | none =>
    simp only [Option.isSome_none, Bool.false_eq_true, if_false]
    omega
  | some file =>
    rw [pending file rfl]
    simp only [Option.isSome_some, Option.isSome_none, Bool.false_eq_true, if_true, if_false]
    omega

theorem returned_of_stopped (stopped : s.running = false) (orderly : Orderly s) :
    ∃ ret, s.point = .returned ret ∧ (ret < 0 ∨ s.pendingFiles = []) := by
  unfold Sender.running at stopped
  unfold Orderly at orderly
  cases here : s.point with
  | returned ret =>
    rw [here] at orderly
    exact ⟨ret, rfl, orderly⟩
  | exited =>
    rw [here] at orderly
    cases orderly
  | _ =>
    rw [here] at stopped
    cases stopped

/-- Every step of a call on fine files gets something done. -/
theorem goOn_progress (sound : LinuxSound s) (fine : AllFine opens s) (running : s.running = true)
    (mild : Mild reply) :
    AllFine opens (goOn opens s reply) ∧ Orderly (goOn opens s reply) ∧
      work opens (goOn opens s reply) < work opens s := by
  have moves := moves_of_step (step_goOn running opens reply)
  generalize goOn opens s reply = next at moves
  cases moves with
  | @wrote _ _ ret flushing readable result =>
    obtain ⟨narrow, short, -⟩ := haveWritten_effects sound.sound.valid result
    have unsent := List.length_pos_iff.mpr (sound.sound.valid.readable_iff.mp readable)
    have offered : 0 < s.offer.length := by
      rw [Sender.offer, sound.sound.valid.peek_eq (show kWriteBufferSize < 2 ^ 32 by decide)]
      simp only [List.length_take, kWriteBufferSize]
      omega
    have some := mild_ok mild offered result
    refine ⟨fine, ?_, ?_⟩
    · rcases flushing with here | here <;> simp [Orderly, Sender.haveWritten, here]
    · have less : (s.haveWritten ret).buffer.unread.length < s.buffer.unread.length := by
        simp only [Sender.haveWritten, sound.sound.valid.unread_haveRead narrow, List.length_drop]
        omega
      show 4 * ((s.haveWritten ret).buffer.unread.length + openLoad s +
        load opens s.openCalls (waiting s)) + rank s < work opens s
      unfold work
      omega
  | refused flushing readable result tolerated =>
    refine ⟨fine, .inl (by decide), ?_⟩
    rcases flushing with here | here
    · simp [work, openLoad, waiting, rank, here]
    · simp only [work, openLoad, waiting, rank, here]
      split <;> omega
  | drained flushing nothing =>
    rcases flushing with here | here
    · refine ⟨fine, by simp [Orderly, Sender.afterFlush, here], ?_⟩
      simp [work, openLoad, waiting, rank, here, Sender.afterFlush]
    · cases isOpen : s.file.isSome with
      | true =>
        refine ⟨fine, by simp [Orderly, Sender.afterFlush, here, isOpen], ?_⟩
        simp [work, openLoad, waiting, rank, here, isOpen, Sender.afterFlush]
      | false =>
        refine ⟨fine, by simp [Orderly, Sender.afterFlush, here, isOpen], ?_⟩
        simp [work, openLoad, waiting, rank, here, isOpen, Sender.afterFlush]
  | dies flushing result =>
    have := mild_error mild result
    cases this
  | finishes here queue =>
    refine ⟨fine, .inr queue, ?_⟩
    simp [work, openLoad, waiting, rank, here]
  | resumes here isOpen =>
    refine ⟨fine, trivial, ?_⟩
    simp [work, openLoad, waiting, rank, here, isOpen]
  | text here closed queue missing =>
    refine ⟨Iff.mpr (allFine_text closed queue missing closed rfl rfl) fine, trivial, ?_⟩
    refine work_takeUp sound.sound here closed queue missing closed ?_ rfl rfl rfl
      (by simp [waiting, closed])
    intro file same
    cases same
  | opens here closed queue present =>
    refine ⟨Iff.mpr (allFine_opens closed queue present rfl queue rfl) fine, trivial, ?_⟩
    refine work_takeUp sound.sound here closed queue present rfl ?_ rfl rfl rfl
      (by simp [waiting, queue])
    intro file same
    rw [Option.some.inj same]
  | sends here isOpen result narrow more =>
    have moved := mild_sendfile sound isOpen (fine.1 _ isOpen) mild result
    have pending := sound.ahead _ isOpen (fine.1 _ isOpen).1
    refine ⟨fine, trivial, ?_⟩
    simp only [work, openLoad, waiting, rank, here, isOpen, Sender.transmit,
      Option.isSome_some, if_true]
    omega
  | closes here isOpen result narrow last =>
    refine ⟨And.right (Iff.mpr (allFine_closes isOpen rfl rfl rfl) fine), trivial, ?_⟩
    simp only [work, openLoad, waiting, rank, here, isOpen, Sender.transmit, Option.isSome_some,
      Option.isSome_none, if_true, Bool.false_eq_true, if_false]
    omega
  | blocks here isOpen result =>
    refine ⟨fine, .inl (by decide), ?_⟩
    simp [work, openLoad, waiting, rank, here]
  | breaks here isOpen result fatal =>
    exact absurd (mild_error mild result) fatal.1
  | overflows here isOpen result wide =>
    have moved := mild_sendfile sound isOpen (fine.1 _ isOpen) mild result
    omega
  | strays here closed =>
    have isOpen := sound.sound.sending here
    rw [closed] at isOpen
    cases isOpen

/-- The call is running with a file ahead that is not fine, or the process is gone. -/
def Astray (opens : Nat → Option Opened) (s : Sender) : Prop :=
  s.point = .exited ∨ LinuxSound s ∧ s.running = true ∧ ¬ AllFine opens s

/-- Against a socket that always takes something there is no way back from `Astray`: a file
is popped only when all of its measured size has been sent, which is not there. -/
theorem goOn_astray (room : Nat) (astray : Astray opens s) :
    Astray opens (goOn opens s (.accept room)) := by
  rcases astray with gone | ⟨sound, running, unfit⟩
  · left
    simp [goOn, Sender.proceed, gone]
  · have stepped := step_goOn running opens (.accept room)
    have sound' := linuxSound_step _ _ _ sound stepped
    have moves := moves_of_step stepped
    generalize goOn opens s (.accept room) = next at moves sound'
    cases moves with
    | wrote flushing readable result => exact .inr ⟨sound', running, unfit⟩
    | refused flushing readable result tolerated => cases result
    | drained flushing nothing =>
      refine .inr ⟨sound', ?_, unfit⟩
      by_cases sending : s.point = .flush ∧ s.file.isSome = true
      · simp only [Sender.running, Sender.afterFlush, if_pos sending]
      · simp only [Sender.running, Sender.afterFlush, if_neg sending]
    | finishes here queue =>
      have closed : s.file = none := by
        cases isOpen : s.file with
        | none => rfl
        | some file => exact absurd queue (sound.sound.front (by rw [isOpen]; rfl))
      refine absurd ⟨?_, ?_⟩ unfit
      · rw [closed]
        intro file present
        cases present
      · rw [waiting, closed, queue]
        trivial
    | resumes here isOpen => exact .inr ⟨sound', rfl, unfit⟩
    | text here closed queue missing =>
      exact .inr ⟨sound', rfl, mt (Iff.mp (allFine_text closed queue missing closed rfl rfl)) unfit⟩
    | opens here closed queue present =>
      exact .inr ⟨sound', rfl, mt (Iff.mp (allFine_opens closed queue present rfl queue rfl)) unfit⟩
    | sends here isOpen result narrow more => exact .inr ⟨sound', rfl, unfit⟩
    | closes here isOpen result narrow last =>
      have counted := (sound.sound.counted _ isOpen).haveSent result
      have sum := counted.sum
      rw [last, Int.add_zero] at sum
      have fine : Fine _ := ⟨sum ▸ counted.nonneg, sum ▸ counted.inside⟩
      refine .inr ⟨sound', rfl, fun rest => unfit ?_⟩
      refine Iff.mp (allFine_closes isOpen ?_ ?_ ?_) ⟨fine, rest⟩ <;> rfl
    | blocks here isOpen result => cases result
    | dies flushing result => cases result
    | breaks here isOpen result fatal => cases result
    | overflows here isOpen result wide => exact .inl rfl
    | strays here closed => exact .inr ⟨sound', rfl, unfit⟩

end

/-- On Linux, from every state between two calls that calls of `Write`, `AddFile` and
`WriteBufferToFd` lead to: the next call of `WriteBufferToFd` returns, with an empty queue
or a negative value and whatever a mild socket answers, exactly when the size measured of
every file it meets, as an `int`, is not negative and still there to be sent. -/
theorem call_returns_iff (opens : Nat → Option Opened) (acts : List Act) (s : Sender)
    (reached : run (step .linux) .fresh acts = some s) (idle : s.idle = true) :
    (∀ replies : Nat → FileTransfer.Reply, (∀ n, Mild (replies n)) →
        ∃ n ret, (drive (goOn opens) replies { s with point := .first } n).point = .returned ret ∧
          (ret < 0 ∨ (drive (goOn opens) replies { s with point := .first } n).pendingFiles = [])) ↔
      AllFine opens s := by
  have sound : LinuxSound s := run_invariant linuxSound_step linuxSound_fresh reached
  have entered : LinuxSound { s with point := .first } :=
    linuxSound_step s .writeBufferToFd _ sound (by simp [step, idle])
  constructor
  · intro returns
    by_contra unfit
    have keeps : ∀ s reply, Astray opens s → reply = .accept 0 →
        Astray opens (goOn opens s reply) :=
      fun s reply astray always => always ▸ goOn_astray 0 astray
    obtain ⟨n, ret, back, -⟩ := returns (fun _ => .accept 0) (fun _ => trivial)
    rcases drive_invariant keeps (fun _ => rfl) (.inr ⟨entered, rfl, unfit⟩) n with
      gone | ⟨-, running, -⟩
    · rw [back] at gone
      cases gone
    · rw [Sender.running, back] at running
      cases running
  · intro fine replies mild
    have progress : ∀ s reply, (LinuxSound s ∧ AllFine opens s ∧ Orderly s) → ¬ s.running = false →
        Mild reply →
        (LinuxSound (goOn opens s reply) ∧ AllFine opens (goOn opens s reply) ∧
          Orderly (goOn opens s reply)) ∧ work opens (goOn opens s reply) < work opens s := by
      rintro s reply ⟨sound, fine, -⟩ unfinished mild
      rw [Bool.not_eq_false] at unfinished
      obtain ⟨fine', orderly', less⟩ := goOn_progress sound fine unfinished mild
      exact
        ⟨⟨linuxSound_step _ _ _ sound (step_goOn unfinished opens reply), fine', orderly'⟩, less⟩
    obtain ⟨n, stopped, -, -, orderly⟩ :=
      drive_reaches (work opens) progress mild ⟨entered, fine, trivial⟩
    exact ⟨n, returned_of_stopped stopped orderly⟩

/-- One file of two octets in the queue. -/
def queuedFile : Sender :=
  { Sender.fresh with pendingFiles := [⟨[72], [102]⟩], added := [⟨[72], [102]⟩] }

/-- Every opened file has two octets, and both are there to be sent. -/
def twoOctets : Nat → Option Opened := fun _ => some ⟨2, [88, 89], by decide⟩

theorem call_returns_iff_queuedFile :
    run (step .linux) .fresh [.addFile [72] [102]] = some queuedFile ∧ queuedFile.idle = true ∧
      ∀ replies : Nat → FileTransfer.Reply, (∀ n, Mild (replies n)) →
        ∃ n ret, (drive (goOn twoOctets) replies { queuedFile with point := .first } n).point =
            .returned ret ∧
          (ret < 0 ∨
            (drive (goOn twoOctets) replies { queuedFile with point := .first } n).pendingFiles =
              []) :=
  ⟨rfl, rfl, (call_returns_iff twoOctets [.addFile [72] [102]] queuedFile rfl rfl).mpr
    (by decide +kernel)⟩

theorem three_representable : 3 < 2 ^ 63 := by decide

/-- A file of three octets that has been cut to one. -/
def shortened : Nat → Option Opened := fun _ => some ⟨3, [88], three_representable⟩

/-- The states of the call on it: the header, the octet, and a loop of three. -/
def shortenedStates : List Sender :=
  (List.range 8).map
    (drive (goOn shortened) (fun _ => .accept 0) { queuedFile with point := .first })

theorem shortened_never_returns :
    ¬ ∃ n, (drive (goOn shortened) (fun _ => .accept 0)
      { queuedFile with point := .first } n).running =
      false := by
  have closed : ∀ s ∈ shortenedStates,
      goOn shortened s (.accept 0) ∈ shortenedStates ∧ s.running = true := by
    decide +kernel
  have keeps : ∀ s reply, s ∈ shortenedStates → reply = .accept 0 →
      goOn shortened s reply ∈ shortenedStates :=
    fun s reply member always => always ▸ (closed s member).1
  rintro ⟨n, stopped⟩
  have member := drive_invariant keeps (fun _ => rfl) (s := { queuedFile with point := .first })
    (List.mem_map.mpr ⟨0, by decide, rfl⟩) n
  rw [(closed _ member).2] at stopped
  cases stopped

end Ladder.Guarantees.FileFlush
