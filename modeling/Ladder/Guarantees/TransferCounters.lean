import Ladder.Library.Runs
import Ladder.Source.FileTransfer

/-!
# The counters of a file transfer

Runs of `AddFile` and of single steps of `WriteBufferToFd`, for Linux and for the
kqueue builds. Two things can come between `bytes_sent_`, `bytes_pending_` and the file
that is sent: the size does not fit an `int`, or `socket::sendfile` does not report
what it transmitted. Each is a condition on single steps, and each of the results says
that it is the only one.
-/
namespace Ladder.Guarantees.TransferCounters
open Ladder.Library Ladder.Source Ladder.Source.FileTransfer

/-- The file that a step opens. -/
def opensFile (s : Sender) : Act → Option Opened
  | .proceed _ opened =>
    match s.point, s.file, s.pendingFiles with
    | .loop, none, front :: _ => Sender.found front opened
    | _, _, _ => none
  | _ => none

/-- No file of 2^31 octets or more is opened. -/
def Small (s : Sender) (act : Act) : Prop := ∀ file ∈ opensFile s act, file.size < 2 ^ 31

/-- The file does not change between its measurement and its transmission. -/
def Unchanged (s : Sender) (act : Act) : Prop :=
  ∀ file ∈ opensFile s act, file.octets.length = file.size

/-- A `sendfile` of the kqueue builds that fails has transmitted nothing. -/
def Honest (platform : Platform) (s : Sender) : Act → Prop
  | .proceed reply _ =>
    platform = .kqueue → s.point = .send → ∀ file ∈ s.file,
      (s.transmission platform reply file).2 ≠ none → (s.transmission platform reply file).1 = 0
  | _ => True

instance (s : Sender) (act : Act) : Decidable (Small s act) :=
  inferInstanceAs (Decidable (∀ file ∈ opensFile s act, file.size < 2 ^ 31))

instance (s : Sender) (act : Act) : Decidable (Unchanged s act) :=
  inferInstanceAs (Decidable (∀ file ∈ opensFile s act, file.octets.length = file.size))

instance (platform : Platform) (s : Sender) (act : Act) : Decidable (Honest platform s act) :=
  match act with
  | .proceed _ _ => inferInstanceAs (Decidable (_ → _))
  | .addFile _ _ | .writeBufferToFd => .isTrue trivial

section
variable {platform : Platform} {s next : Sender} {act : Act} {file : Opened}
  {reply : FileTransfer.Reply} {ret : Nat}

/-! ## One `sendfile` call -/

/-- An open file whose counters are exact. -/
structure Fits (file : Opened) (s : Sender) : Prop where
  isOpen : s.file = some file
  whole : file.octets.length = file.size
  small : file.size < 2 ^ 31
  sent : 0 ≤ s.bytesSent
  pending : 0 ≤ s.bytesPending
  sum : s.bytesSent + s.bytesPending = file.size

/-- No call transmits more than is pending. -/
theorem Fits.transmission_le (fits : Fits file s) (platform : Platform)
    (reply : FileTransfer.Reply) :
    ((s.transmission platform reply file).1 : Int) ≤ s.bytesPending := by
  have sum := fits.sum
  have small := fits.small
  have sent := fits.sent
  have whole := fits.whole
  have count := sizeT_of_nonneg fits.pending (by omega)
  have short := reply.outcome_le
    (platform.offered (sizeT s.bytesPending) (file.octets.length - s.bytesSent.toNat))
  have offered : platform.offered (sizeT s.bytesPending) (file.octets.length - s.bytesSent.toNat) ≤
      sizeT s.bytesPending := by
    cases platform with
    | linux => exact Nat.min_le_left _ _
    | kqueue =>
      unfold Platform.offered
      dsimp only
      split
      · omega
      · exact Nat.min_le_left _ _
  unfold Sender.transmission
  omega

theorem Fits.narrow (fits : Fits file s)
    (result : sendfile platform (s.transmission platform reply file) = .ok ret) :
    (ret : Int) ≤ s.bytesPending ∧ s.bytesSent + ret < 2 ^ 31 ∧ -2 ^ 31 ≤ s.bytesPending - ret := by
  have short := sendfile_le result
  have bound := fits.transmission_le platform reply
  have sum := fits.sum
  have small := fits.small
  have pending := fits.pending
  omega

/-- On an honest platform the report is what was transmitted. -/
theorem honest_report (result : sendfile platform (s.transmission platform reply file) = .ok ret)
    (here : s.point = .send) (isOpen : s.file = some file) {opened : Option Opened} :
    Honest platform s (.proceed reply opened) ↔ ret = (s.transmission platform reply file).1 := by
  cases platform with
  | linux =>
    refine ⟨fun _ => reported_eq result, fun _ => ?_⟩
    intro impossible
    cases impossible
  | kqueue =>
    have report := Except.ok.inj result
    constructor
    · intro honest
      rw [← report]
      split
      · rfl
      · rename_i failed
        exact (honest rfl here file isOpen failed).symm
    · intro exact _ _ other same failed
      obtain rfl := Option.some.inj (isOpen.symm.trans same)
      rw [← exact, ← report, if_neg failed]

/-! ## What a step does to the transfer -/

/-- The step is not about the open file. -/
structure Aside (s next : Sender) : Prop where
  held : next.file = s.file
  sent : next.bytesSent = s.bytesSent
  pending : next.bytesPending = s.bytesPending
  taken : next.fileAccepted = s.fileAccepted
  finished : next.finished = s.finished

/-- The step opens the file. -/
structure Opens (file : Opened) (s next : Sender) : Prop where
  held : next.file = some file
  sent : next.bytesSent = 0
  pending : next.bytesPending = int file.size
  taken : next.fileAccepted = 0
  finished : next.finished = s.finished

/-- The step is a `sendfile` call that reports `ret`; the last one pops the entry. -/
structure Sends (file : Opened) (transmitted ret : Nat) (s next : Sender) : Prop where
  held : next.file = if s.bytesPending - ret = 0 then none else some file
  sent : next.bytesSent = s.bytesSent + ret
  pending : next.bytesPending = s.bytesPending - ret
  taken : next.fileAccepted = s.fileAccepted + transmitted
  finished : next.finished =
    if s.bytesPending - ret =
      0 then s.finished ++ [(file, s.fileAccepted + transmitted)] else s.finished

/-- The counters leave the range of an `int`. -/
def Leaves (ret : Nat) (s : Sender) : Prop :=
  ¬ (s.bytesSent + ret < 2 ^ 31 ∧ -2 ^ 31 ≤ s.bytesPending - ret)

/-- While the inner buffer is flushed no file is opened and none is sent. -/
theorem flushing_aside (platform : Platform) (flushing : s.Flushing) (reply : FileTransfer.Reply)
    (opened : Option Opened) :
    opensFile s (.proceed reply opened) = none ∧ Honest platform s (.proceed reply opened) := by
  rcases flushing with here | here
  · exact ⟨by simp [opensFile, here], by simp [Honest, here]⟩
  · exact ⟨by simp [opensFile, here], by simp [Honest, here]⟩

/-- A reported failure is honest. -/
theorem error_honest {errno : Errno} (opened : Option Opened)
    (result : sendfile platform (s.transmission platform reply file) = .error errno) :
    Honest platform s (.proceed reply opened) := by
  intro kqueue
  subst kqueue
  cases result

theorem transfer_cases (moves : Moves platform s act next) :
    (opensFile s act = none ∧ Honest platform s act ∧ Aside s next) ∨
    (Honest platform s act ∧ ∃ file, opensFile s act = some file ∧ Opens file s next) ∨
    (opensFile s act = none ∧ ∃ file ret reply opened, act = .proceed reply opened ∧
      s.point = .send ∧ s.file = some file ∧
      sendfile platform (s.transmission platform reply file) = .ok ret ∧
      (Sends file (s.transmission platform reply file).1 ret s next ∨ Leaves ret s ∧
        next = { s.transmit file (s.transmission platform reply file).1 with
          point := .exited })) := by
  have aside {reply : FileTransfer.Reply} {opened : Option Opened} {point : Point}
    (flushing : s.Flushing) :
      opensFile s (.proceed reply opened) = none ∧ Honest platform s (.proceed reply opened) ∧
        Aside s { s with point := point } := by
    obtain ⟨none, honest⟩ := flushing_aside platform flushing reply opened
    exact ⟨none, honest, rfl, rfl, rfl, rfl, rfl⟩
  cases moves with
  | addFile idle => exact .inl ⟨rfl, trivial, rfl, rfl, rfl, rfl, rfl⟩
  | enter idle => exact .inl ⟨rfl, trivial, rfl, rfl, rfl, rfl, rfl⟩
  | wrote flushing readable result =>
    obtain ⟨none, honest⟩ := flushing_aside platform flushing _ _
    exact .inl ⟨none, honest, rfl, rfl, rfl, rfl, rfl⟩
  | refused flushing readable result tolerated => exact .inl (aside flushing)
  | drained flushing nothing => exact .inl (aside flushing)
  | dies flushing result => exact .inl (aside flushing)
  | finishes here queue =>
    exact .inl ⟨by simp [opensFile, here, queue], by simp [Honest, here], rfl, rfl, rfl, rfl, rfl⟩
  | resumes here isOpen =>
    exact .inl ⟨by simp [opensFile, here, isOpen], by simp [Honest, here], rfl, rfl, rfl, rfl, rfl⟩
  | text here closed queue missing =>
    exact .inl ⟨by simp [opensFile, here, closed, queue, missing], by simp [Honest, here], rfl, rfl,
      rfl, rfl, rfl⟩
  | opens here closed queue present =>
    refine .inr (.inl ⟨by simp [Honest, here], _, ?_, ⟨rfl, rfl, ?_, rfl, rfl⟩⟩)
    · simp only [opensFile, here, closed, queue, present]
    · dsimp only
  | sends here isOpen result narrow more =>
    refine .inr (.inr ⟨by simp [opensFile, here], _, _, _, _, rfl, here, isOpen, result, .inl ?_⟩)
    exact ⟨by rw [if_neg more]; exact isOpen, rfl, rfl, rfl, by rw [if_neg more]; rfl⟩
  | closes here isOpen result narrow last =>
    refine .inr (.inr ⟨by simp [opensFile, here], _, _, _, _, rfl, here, isOpen, result, .inl ?_⟩)
    exact ⟨by rw [if_pos last], rfl, rfl, rfl, by rw [if_pos last]⟩
  | blocks here isOpen result =>
    exact .inl ⟨by simp [opensFile, here], error_honest _ result, rfl, rfl, rfl, rfl, rfl⟩
  | breaks here isOpen result fatal =>
    exact .inl ⟨by simp [opensFile, here], error_honest _ result, rfl, rfl, rfl, rfl, rfl⟩
  | overflows here isOpen result wide =>
    exact .inr (.inr ⟨by simp [opensFile, here], _, _, _, _, rfl, here, isOpen, result,
      .inr ⟨wide, rfl⟩⟩)
  | strays here closed =>
    exact .inl ⟨by simp [opensFile, here], by simp [Honest, closed], rfl, rfl, rfl, rfl, rfl⟩

/-! ## Exact counters -/

/-- `bytes_sent_` and `bytes_pending_` add up to the size of the open file, neither is
negative, no more than the rest is asked for, and a popped file has been sent whole. -/
structure Exact (s : Sender) : Prop where
  sum : ∀ file, s.file = some file → s.bytesSent + s.bytesPending = file.size
  nonneg : ∀ file, s.file = some file → 0 ≤ s.bytesSent ∧ 0 ≤ s.bytesPending
  count : ∀ file, s.file = some file → (sizeT s.bytesPending : Int) ≤ file.size - s.bytesSent
  popped : ∀ entry ∈ s.finished, entry.2 = entry.1.size

/-- What the counters stand for: the file on the disk and what the socket has of it. -/
structure Meant (s : Sender) : Prop where
  sound : Sound s
  whole : ∀ file, s.file = some file → file.octets.length = file.size
  taken : ∀ file, s.file = some file → s.bytesSent = s.fileAccepted

theorem meant_fresh : Meant .fresh := ⟨sound_fresh, nofun, nofun⟩

theorem exact_fresh : Exact .fresh := ⟨nofun, nofun, nofun, nofun⟩

theorem Meant.fits (meant : Meant s) (exact : Exact s) (isOpen : s.file = some file) :
    Fits file s := by
  have sum := exact.sum file isOpen
  have narrowed := (meant.sound.counted file isOpen).sum
  refine ⟨isOpen, meant.whole file isOpen, ?_, (exact.nonneg file isOpen).1,
    (exact.nonneg file isOpen).2, sum⟩
  by_contra large
  exact int_ne_of_large large (narrowed.symm.trans sum)

/-- A transfer with exact counters never leaves the range of an `int`. -/
theorem Fits.stays (fits : Fits file s)
    (result : sendfile platform (s.transmission platform reply file) = .ok ret) : ¬ Leaves ret s :=
  fun leaves => leaves (fits.narrow result).2

theorem meant_step (s : Sender) (act : Act) (next : Sender) (meant : Meant s) (exact : Exact s)
    (guard : Unchanged s act ∧ Honest platform s act) (stepped : step platform s act = some next) :
    Meant next := by
  have sound := sound_step platform s act next meant.sound stepped
  obtain ⟨unchanged, honest⟩ := guard
  rcases transfer_cases (moves_of_step stepped) with ⟨-, -, aside⟩ | ⟨-, file, opens, opened⟩ |
    ⟨-, file, ret, reply, opened, rfl, here, isOpen, result, sends | ⟨leaves, -⟩⟩
  · refine ⟨sound, ?_, ?_⟩
    · rw [aside.held]
      exact meant.whole
    · rw [aside.held, aside.sent, aside.taken]
      exact meant.taken
  · refine ⟨sound, ?_, ?_⟩
    · intro other same
      rw [opened.held] at same
      cases same
      exact unchanged file opens
    · intro other same
      rw [opened.sent, opened.taken]
      rfl
  · have report := (honest_report result here isOpen).mp honest
    refine ⟨sound, ?_, ?_⟩
    · intro other same
      rw [sends.held] at same
      split at same
      · cases same
      · cases same
        exact meant.whole file isOpen
    · intro other same
      rw [sends.sent, sends.taken, meant.taken file isOpen, ← report]
      rfl
  · exact absurd leaves ((meant.fits exact isOpen).stays result)

/-- A step keeps the counters exact unless it opens a file of 2^31 octets or more. -/
theorem exact_step_iff (s : Sender) (act : Act) (next : Sender) (meant : Meant s) (exact : Exact s)
    (guard : Unchanged s act ∧ Honest platform s act) (stepped : step platform s act = some next) :
    Exact next ↔ Small s act := by
  have narrowed := (sound_step platform s act next meant.sound stepped).counted
  obtain ⟨-, honest⟩ := guard
  rcases transfer_cases (moves_of_step stepped) with ⟨opens, -, aside⟩ | ⟨-, file, opens, opened⟩ |
    ⟨opens, file, ret, reply, opened, rfl, here, isOpen, result, sends | ⟨leaves, -⟩⟩
  · refine ⟨fun _ file => by rw [opens]; exact nofun, fun _ => ⟨?_, ?_, ?_, ?_⟩⟩
    · rw [aside.held, aside.sent, aside.pending]
      exact exact.sum
    · rw [aside.held, aside.sent, aside.pending]
      exact exact.nonneg
    · rw [aside.held, aside.sent, aside.pending]
      exact exact.count
    · rw [aside.finished]
      exact exact.popped
  · constructor
    · intro exact' other same
      rw [opens] at same
      cases same
      by_contra large
      have sum := exact'.sum file opened.held
      rw [opened.sent, opened.pending, Int.zero_add] at sum
      exact int_ne_of_large large sum
    · intro small
      have fit := small file opens
      have value := int_eq_of_small fit
      have count := sizeT_of_nonneg (n := (file.size : Int)) (by omega) (by omega)
      refine ⟨?_, ?_, ?_, by rw [opened.finished]; exact exact.popped⟩
      · intro other same
        rw [opened.held] at same
        cases same
        rw [opened.sent, opened.pending, value, Int.zero_add]
      · intro other same
        rw [opened.sent, opened.pending, value]
        omega
      · intro other same
        rw [opened.held] at same
        cases same
        rw [opened.sent, opened.pending, value, count]
        omega
  · have fits := meant.fits exact isOpen
    have report := (honest_report result here isOpen).mp honest
    have taken := meant.taken file isOpen
    have sum := fits.sum
    have sent := fits.sent
    have small := fits.small
    obtain ⟨short, -, -⟩ := fits.narrow result
    have count := sizeT_of_nonneg (n := s.bytesPending - ret) (by omega) (by omega)
    refine ⟨fun _ file => by rw [opens]; exact nofun, fun _ => ⟨?_, ?_, ?_, ?_⟩⟩
    · intro other same
      rw [sends.held] at same
      split at same
      · cases same
      · cases same
        rw [sends.sent, sends.pending]
        omega
    · intro other same
      rw [sends.sent, sends.pending]
      omega
    · intro other same
      rw [sends.held] at same
      split at same
      · cases same
      · cases same
        rw [sends.sent, sends.pending, count]
        omega
    · intro entry member
      rw [sends.finished] at member
      split at member
      · rcases List.mem_append.mp member with old | new
        · exact exact.popped entry old
        · rw [List.mem_singleton.mp new]
          dsimp only
          omega
      · exact exact.popped entry member
  · exact absurd leaves ((meant.fits exact isOpen).stays result)

/-- The counters are exact all along a run precisely when no file of 2^31 octets or more is
opened in it, on either platform, as long as files do not change while they are sent and
`sendfile` reports what it transmits. -/
theorem transfer_counters_exact_iff (platform : Platform) (acts : List Act) (final : Sender)
    (reached : run (step platform) .fresh acts = some final)
    (guarded : RunMeets (step platform) (fun s act => Unchanged s act ∧ Honest platform s act)
      .fresh acts) :
    Along (step platform) Exact .fresh acts ↔ RunMeets (step platform) Small .fresh acts :=
  along_iff meant_step exact_step_iff meant_fresh exact_fresh guarded reached

end

/-- A file of three octets behind a header of one, in two pieces, with a socket that is
full in between. -/
def threeOctets : List Act :=
  let file : Opened := ⟨3, [88, 89, 90], by decide⟩
  [.addFile [72] [102], .writeBufferToFd, .proceed (.accept 0) none,
    .proceed (.accept 0) (some file), .proceed (.accept 9) none, .proceed (.accept 9) none,
    .proceed (.accept 1) none,
    .proceed (.accept 0) none, .proceed (.accept 0) none, .proceed (.fail .eagain) none,
    .writeBufferToFd, .proceed (.accept 0) none, .proceed (.accept 0) none,
    .proceed (.accept 0) none,
    .proceed (.accept 0) none, .proceed (.accept 0) none]

theorem transfer_counters_exact_iff_threeOctets :
    ∃ final, run (step .linux) .fresh threeOctets = some final ∧ final.accepted = [72, 88, 89, 90] ∧
      Along (step .linux) Exact .fresh threeOctets := by
  have whole : (run (step .linux) .fresh threeOctets).map Sender.accepted =
      some [72, 88, 89, 90] := by
    decide +kernel
  obtain ⟨final, reached, accepted⟩ := Option.map_eq_some_iff.mp whole
  exact ⟨final, reached, accepted, (transfer_counters_exact_iff .linux threeOctets final reached
    (by decide +kernel)).mpr (by decide +kernel)⟩

/-- A file, its `open` and its only `sendfile` call. -/
def oneFile (file : Opened) : List Act :=
  [.addFile [] [102], .writeBufferToFd, .proceed (.accept 0) none, .proceed (.accept 0) (some file),
    .proceed (.accept 0) none, .proceed (.accept 0) none]

/-- A size of 2^32 leaves nothing pending, and the file is popped unsent. -/
theorem huge_popped (octets : Bytes) :
    ∃ final, run (step .linux) .fresh (oneFile ⟨2 ^ 32, octets, by decide⟩) = some final ∧
      final.finished = [(⟨2 ^ 32, octets, by decide⟩, 0)] ∧ final.pendingFiles = [] := by
  have nothing : Buffer.fresh.readableBytes = 0 := by decide
  have still : (Buffer.fresh.write []).readableBytes = 0 := by decide
  have narrowed : int 4294967296 = 0 := by decide
  have count : sizeT 0 = 0 := by decide
  -- with the count 0 the kernel is asked for no octet, whatever the file holds
  simp [run, oneFile, step, Sender.fresh, Sender.idle, Sender.running,
    Sender.addFile, Sender.proceed, Sender.flushStep, Sender.loopStep, Sender.takeUp,
    Sender.found, Sender.sendStep,
    Sender.transmission, Sender.transmit, Sender.haveSent, Platform.offered, sendfile, reported,
    FileTransfer.Reply.outcome, taken, nothing, still, narrowed, count]

theorem transfer_counters_wrap :
    ∃ file : Opened, file.size = 2 ^ 32 ∧ file.octets.length = file.size ∧
      ∃ final, run (step .linux) .fresh (oneFile file) = some final ∧
        final.finished = [(file, 0)] ∧ final.pendingFiles = [] := by
  exact ⟨⟨2 ^ 32, List.replicate (2 ^ 32) 0, by decide⟩, rfl, List.length_replicate, huge_popped _⟩

/-! ## Every octet once -/

/-- The part of the open file behind `bytes_sent_`. -/
def streaming (s : Sender) : Bytes :=
  match s.file with
  | some file => file.octets.drop s.bytesSent.toNat
  | none => []

/-- The octets an entry stands for, with the file it met. -/
def entryOctets (entry : FileInfo × Option Opened) : Bytes :=
  entry.1.header ++
    match entry.2 with
    | some file => file.octets
    | none => []

/-- The octets of all entries whose turn has come. -/
def due (s : Sender) : Bytes := s.takenUp.flatMap entryOctets

/-- `bytes_sent_` is what the socket has of the open file, and what the socket has
is followed by what is still to be sent, header and content of each entry once. -/
structure Faithful (s : Sender) : Prop where
  counted : ∀ file ∈ s.file, s.bytesSent = s.fileAccepted
  stream : s.accepted ++ (s.buffer.unread ++ streaming s) = due s

/-- A header of 2^32 octets or more does not pass through the inner buffer. -/
def HeaderFits (s : Sender) : Act → Prop
  | .proceed _ _ => s.point = .loop → s.file = none → ∀ front ∈ s.pendingFiles.head?,
      front.header.length < 2 ^ 32
  | _ => True

instance (s : Sender) (act : Act) : Decidable (HeaderFits s act) :=
  match act with
  | .proceed _ _ => inferInstanceAs (Decidable (_ → _))
  | .addFile _ _ | .writeBufferToFd => .isTrue trivial

/-- Entries that the counters and the inner buffer can hold, of files that stay as they are. -/
def Ordinary (s : Sender) (act : Act) : Prop := Small s act ∧ Unchanged s act ∧ HeaderFits s act

instance (s : Sender) (act : Act) : Decidable (Ordinary s act) :=
  inferInstanceAs (Decidable (_ ∧ _))

/-- The open file fits the counters. -/
structure Bounded (s : Sender) : Prop where
  sound : Sound s
  fits : ∀ file, s.file = some file → Fits file s

theorem bounded_fresh : Bounded .fresh := ⟨sound_fresh, nofun⟩

theorem faithful_fresh : Faithful .fresh := ⟨nofun, rfl⟩

section
variable {platform : Platform} {s next : Sender} {act : Act} {file : Opened}
  {reply : FileTransfer.Reply} {ret : Nat}

theorem bounded_step (s : Sender) (act : Act) (next : Sender) (bounded : Bounded s)
    (ordinary : Ordinary s act) (stepped : step platform s act = some next) : Bounded next := by
  refine ⟨sound_step platform s act next bounded.sound stepped, ?_⟩
  obtain ⟨small, unchanged, -⟩ := ordinary
  rcases transfer_cases (moves_of_step stepped) with ⟨-, -, aside⟩ | ⟨-, file, opens, opened⟩ |
    ⟨-, file, ret, reply, opened, rfl, here, isOpen, result, sends | ⟨leaves, -⟩⟩
  · intro file isOpen
    rw [aside.held] at isOpen
    obtain ⟨-, whole, small, sent, pending, sum⟩ := bounded.fits file isOpen
    exact ⟨aside.held.trans isOpen, whole, small, aside.sent ▸ sent, aside.pending ▸ pending, by
      rw [aside.sent, aside.pending, sum]⟩
  · intro other same
    rw [opened.held] at same
    cases same
    have fit := small file opens
    have value := int_eq_of_small fit
    have pending := opened.pending
    have sent := opened.sent
    exact ⟨opened.held, unchanged file opens, fit, by omega, by omega, by omega⟩
  · intro other same
    rw [sends.held] at same
    split at same
    · cases same
    · rename_i more
      cases same
      have fits := bounded.fits file isOpen
      obtain ⟨short, -, -⟩ := fits.narrow result
      have sum := fits.sum
      have nonneg := fits.sent
      have sent := sends.sent
      have pending := sends.pending
      exact ⟨by rw [sends.held, if_neg more], fits.whole, fits.small, by omega, by omega, by omega⟩
  · intro other same
    exact absurd leaves ((bounded.fits file isOpen).stays result)

/-- The header, and the file if there is one, of an entry whose turn has come. -/
theorem faithful_takeUp {front : FileInfo} (sound : Sound s) (faithful : Faithful s)
    (here : s.point = .loop) (closed : s.file = none) (fits : front.header.length < 2 ^ 32)
    (present : Option Opened) :
    s.accepted ++ ((s.buffer.write front.header).unread ++
        match present with
        | some file => file.octets
        | none => []) =
      (s.takenUp ++ [(front, present)]).flatMap entryOctets := by
  have unread : (s.buffer.write front.header).unread = front.header := by
    rw [(sound.write_drained here front.header).2.2, Nat.mod_eq_of_lt fits, List.take_length]
  have stream := faithful.stream
  simp only [streaming, closed, sound.flushed (.inl here), List.append_nil] at stream
  rw [unread, List.flatMap_append, ← due, ← stream, List.flatMap_cons, List.flatMap_nil,
    List.append_nil]
  rfl

/-- After a `sendfile` call the record is in order exactly if the report was. -/
theorem faithful_sends (bounded : Bounded s) (faithful : Faithful s) (here : s.point = .send)
    (isOpen : s.file = some file) (transmitted ret : Nat) (pending : Int) :
    Faithful { s.transmit file transmitted with
      bytesSent := s.bytesSent + ret, bytesPending := pending, point := .loop } ↔
        ret = transmitted := by
  have counted := faithful.counted file isOpen
  constructor
  · intro faithful'
    have counted' : s.bytesSent + ret = (s.fileAccepted + transmitted : Nat) :=
      faithful'.counted file isOpen
    omega
  · rintro rfl
    refine ⟨fun _ _ => ?_, ?_⟩
    · simp only [Sender.transmit]
      omega
    · have stream := faithful.stream
      have nonneg := (bounded.fits file isOpen).sent
      have offset : (s.bytesSent + ret).toNat = s.bytesSent.toNat + ret := by omega
      simp only [streaming, isOpen, bounded.sound.flushed (.inr here), List.nil_append] at stream
      simp only [Sender.transmit, streaming, isOpen, due, offset,
        bounded.sound.flushed (.inr here), List.nil_append, List.append_assoc]
      rw [← List.drop_drop, List.take_append_drop]
      exact stream

theorem faithful_step_iff (s : Sender) (act : Act) (next : Sender) (bounded : Bounded s)
    (faithful : Faithful s) (ordinary : Ordinary s act)
    (stepped : step platform s act = some next) :
    Faithful next ↔ Honest platform s act := by
  have same {point : Point} (honest : Honest platform s act) :
      Faithful { s with point := point } ↔ Honest platform s act :=
    ⟨fun _ => honest, fun _ => ⟨faithful.counted, faithful.stream⟩⟩
  obtain ⟨-, -, header⟩ := ordinary
  cases moves_of_step stepped with
  | addFile idle => exact ⟨fun _ => trivial, fun _ => ⟨faithful.counted, faithful.stream⟩⟩
  | enter idle => exact same trivial
  | wrote flushing readable result =>
    refine ⟨fun _ => (flushing_aside platform flushing _ _).2, fun _ => ⟨faithful.counted, ?_⟩⟩
    obtain ⟨narrow, -, front⟩ := haveWritten_effects bounded.sound.valid result
    have stream := faithful.stream
    simp only [Sender.haveWritten, bounded.sound.valid.unread_haveRead narrow, front,
      List.append_assoc] at stream ⊢
    rw [← List.append_assoc (List.take _ _), List.take_append_drop]
    exact stream
  | refused flushing readable result tolerated =>
    exact same (flushing_aside platform flushing _ _).2
  | drained flushing nothing => exact same (flushing_aside platform flushing _ _).2
  | dies flushing result => exact same (flushing_aside platform flushing _ _).2
  | finishes here queue => exact same (by simp [Honest, here])
  | resumes here isOpen => exact same (by simp [Honest, here])
  | text here closed queue missing =>
    refine ⟨fun _ => by simp [Honest, here], fun _ => ⟨faithful.counted, ?_⟩⟩
    have fits := header here closed _ (by rw [queue]; rfl)
    simp only [streaming, closed]
    exact faithful_takeUp bounded.sound faithful here closed fits none
  | opens here closed queue present =>
    refine ⟨fun _ => by simp [Honest, here], fun _ => ⟨fun _ _ => rfl, ?_⟩⟩
    have fits := header here closed _ (by rw [queue]; rfl)
    exact faithful_takeUp bounded.sound faithful here closed fits (some _)
  | sends here isOpen result narrow more =>
    rw [honest_report result here isOpen]
    exact faithful_sends bounded faithful here isOpen _ _ _
  | @closes reply opened file ret here isOpen result narrow last =>
    -- the last call has transmitted exactly what was pending
    have fits := bounded.fits file isOpen
    have sum := fits.sum
    have whole := fits.whole
    have sent := fits.sent
    have reported := sendfile_le result
    have bound := fits.transmission_le platform reply
    have exact : ret = (s.transmission platform reply file).1 := by omega
    rw [honest_report result here isOpen]
    refine ⟨fun _ => exact, fun _ => ⟨fun file present => ?_, ?_⟩⟩
    · cases present
    · have stream := faithful.stream
      simp only [streaming, isOpen, bounded.sound.flushed (.inr here), List.nil_append] at stream
      simp only [Sender.transmit, streaming, due,
        bounded.sound.flushed (.inr here), List.append_nil]
      rw [List.take_of_length_le (by rw [List.length_drop]; omega)]
      exact stream
  | blocks here isOpen result => exact same (error_honest _ result)
  | breaks here isOpen result fatal => exact same (error_honest _ result)
  | overflows here isOpen result wide =>
    exact absurd wide ((bounded.fits _ isOpen).stays result)
  | strays here closed => exact same (by simp [Honest, closed])

/-! ## What the wrapper reports -/

/-- `socket::sendfile` reports the octets transmitted, or the error if there are none, as
the wrapper for Linux does. -/
def Reports (platform : Platform) (s : Sender) : Act → Prop
  | .proceed reply _ => s.point = .send → ∀ file ∈ s.file,
      sendfile platform (s.transmission platform reply file) =
        reported (s.transmission platform reply file)
  | _ => True

/-- The kernel takes octets, without an error. -/
def accepts : FileTransfer.Reply → Bool
  | .accept _ => true
  | .fail _ | .broken _ _ => false

/-- No `sendfile` call fails. -/
def Succeeds (s : Sender) : Act → Prop
  | .proceed reply _ => s.point = .send → s.file.isSome = true → accepts reply = true
  | _ => True

instance (s : Sender) (act : Act) : Decidable (Succeeds s act) :=
  match act with
  | .proceed _ _ => inferInstanceAs (Decidable (_ → _))
  | .addFile _ _ | .writeBufferToFd => .isTrue trivial

theorem accepts_iff (reply : FileTransfer.Reply) (len : Nat) :
    accepts reply = true ↔ (reply.outcome len).2 = none := by
  cases reply with
  | accept room => exact ⟨fun _ => rfl, fun _ => rfl⟩
  | fail errno => exact ⟨nofun, nofun⟩
  | broken room errno => exact ⟨nofun, nofun⟩

/-- A failure is reported as no octets, which is never what Linux would report. -/
theorem kqueue_reports_iff (outcome : Nat × Option Errno) :
    sendfile .kqueue outcome = reported outcome ↔ outcome.2 = none := by
  obtain ⟨transmitted, error⟩ := outcome
  cases error with
  | none => exact ⟨fun _ => rfl, fun _ => rfl⟩
  | some errno =>
    refine ⟨fun same => ?_, nofun⟩
    cases transmitted with
    | zero => cases same
    | succ transmitted => cases Except.ok.inj same

theorem reports_iff_succeeds (s : Sender) (act : Act) : Reports .kqueue s act ↔ Succeeds s act := by
  cases act with
  | addFile header filename => exact Iff.rfl
  | writeBufferToFd => exact Iff.rfl
  | proceed reply opened =>
    constructor
    · intro reports here isSome
      obtain ⟨file, isOpen⟩ := Option.isSome_iff_exists.mp isSome
      exact (accepts_iff reply _).mpr ((kqueue_reports_iff _).mp (reports here file isOpen))
    · intro succeeds here file isOpen
      have accepted := succeeds here (Option.isSome_iff_exists.mpr ⟨file, isOpen⟩)
      exact (kqueue_reports_iff _).mpr ((accepts_iff reply _).mp accepted)

theorem Succeeds.honest (succeeds : Succeeds s act) : Honest .kqueue s act := by
  cases act with
  | addFile header filename => trivial
  | writeBufferToFd => trivial
  | proceed reply opened =>
    intro _ here file isOpen failed
    have accepted := succeeds here (Option.isSome_iff_exists.mpr ⟨file, isOpen⟩)
    exact absurd ((accepts_iff reply _).mp accepted) failed

/-- On the kqueue builds `bytes_sent_` is what the socket has of the open file and every
octet goes out once, all along a run, precisely when no failing `sendfile` call of the run
has transmitted anything; and this together with reports like those on Linux is had
precisely when no `sendfile` call of the run fails. -/
theorem kqueue_sends_once_iff (acts : List Act) (final : Sender)
    (reached : run (step .kqueue) .fresh acts = some final)
    (ordinary : RunMeets (step .kqueue) Ordinary .fresh acts) :
    (Along (step .kqueue) Faithful .fresh acts ↔
      RunMeets (step .kqueue) (Honest .kqueue) .fresh acts) ∧
    (Along (step .kqueue) Faithful .fresh acts ∧
        RunMeets (step .kqueue) (Reports .kqueue) .fresh acts ↔
      RunMeets (step .kqueue) Succeeds .fresh acts) := by
  have once : Along (step .kqueue) Faithful .fresh acts ↔
      RunMeets (step .kqueue) (Honest .kqueue) .fresh acts :=
    along_iff (fun s act next bounded _ => bounded_step s act next bounded) faithful_step_iff
      bounded_fresh faithful_fresh ordinary reached
  refine ⟨once, ?_, ?_⟩
  · rintro ⟨-, reports⟩
    exact reports.imp fun s act => (reports_iff_succeeds s act).mp
  · intro succeeds
    exact ⟨once.mpr (succeeds.imp fun s act => Succeeds.honest),
      succeeds.imp fun s act => (reports_iff_succeeds s act).mpr⟩

end

/-- A header and a file of three octets, up to the first `sendfile` call. -/
def headerSent : List Act :=
  [.addFile [72] [102], .writeBufferToFd, .proceed (.accept 0) none,
    .proceed (.accept 0) (some ⟨3, [88, 89, 90], by decide⟩), .proceed (.accept 9) none,
    .proceed (.accept 9) none]

/-- A `sendfile` that takes two octets, and one that takes the last. -/
def inTwoCalls : List Act :=
  headerSent ++ [.proceed (.accept 1) none, .proceed (.accept 0) none, .proceed (.accept 0) none,
    .proceed (.accept 0) none]

theorem kqueue_sends_once_iff_inTwoCalls :
    ∃ final, run (step .kqueue) .fresh inTwoCalls = some final ∧
      final.accepted = [72, 88, 89, 90] ∧ Along (step .kqueue) Faithful .fresh inTwoCalls ∧
      RunMeets (step .kqueue) (Reports .kqueue) .fresh inTwoCalls := by
  have whole : (run (step .kqueue) .fresh inTwoCalls).map Sender.accepted =
      some [72, 88, 89, 90] := by
    decide +kernel
  obtain ⟨final, reached, accepted⟩ := Option.map_eq_some_iff.mp whole
  exact ⟨final, reached, accepted, (kqueue_sends_once_iff inTwoCalls final reached
    (by decide +kernel)).2.mpr (by decide +kernel)⟩

/-- A `sendfile` that transmits two octets and fails with EAGAIN, and the next one. -/
def brokenFailure : List Act :=
  headerSent ++ [.proceed (.broken 1 .eagain) none, .proceed (.accept 0) none,
    .proceed (.accept 0) none, .proceed (.accept 9) none]

/-- The two octets go out again. -/
theorem kqueue_sends_twice :
    (run (step .kqueue) .fresh brokenFailure).map (fun s => (s.accepted, due s)) =
      some ([72, 88, 89, 88, 89, 90], [72, 88, 89, 90]) := by
  decide +kernel

end Ladder.Guarantees.TransferCounters
