import Ladder.Library.Runs
import Ladder.Source.FileBuffer

/-!
# FileBuffer, one system call at a time

Source: ladder/src/FileBuffer.cpp and `socket::sendfile` of ladder/src/Socket.cpp, for
Linux and for the kqueue builds. Where Ladder.Source.FileBuffer runs a whole
`WriteBufferToFd`, this model stops at every system call: a file may have changed since
it was measured, a BSD `sendfile` may fail and transmit, and a call may go on forever.
Leaving the range of an `int` is undefined, which here ends the process as `EXIT` does.
The last section leads every whole call on Linux back to steps.
-/
namespace Ladder.Source.FileTransfer
open Ladder.Library

/-- A file found by `open`: the size that `ftell` reports, and the octets that
`sendfile` will find. -/
structure Opened where
  size : Nat
  octets : Bytes
  representable : size < 2 ^ 63
  deriving DecidableEq, Repr

/-- Answer of the kernel to `write` or `sendfile`: room for `room + 1` octets, a failure,
or both at once, as the `sendfile` of the BSDs has it. -/
inductive Reply where
  | accept (room : Nat)
  | fail (errno : Errno)
  | broken (room : Nat) (errno : Errno)
  deriving DecidableEq, Repr

/-- Octets transmitted of `len` that are offered, and the error. No call takes more than
an `int` can count. -/
def Reply.outcome (len : Nat) : Reply → Nat × Option Errno
  | .accept room => (min (taken room len) (2 ^ 31 - 1), none)
  | .fail errno => (0, some errno)
  | .broken room errno => (min (taken room len) (2 ^ 31 - 1), some errno)

/-- `write`, and `sendfile` on Linux: an error is reported when nothing was transmitted. -/
def reported : Nat × Option Errno → Except Errno Nat
  | (transmitted, none) => .ok transmitted
  | (0, some errno) => .error errno
  | (transmitted + 1, some _) => .ok (transmitted + 1)

inductive Platform where
  | linux
  | kqueue
  deriving DecidableEq, Repr

/-- Octets that a `sendfile` call can transmit; the BSDs take a zero count for the rest
of the file. -/
def Platform.offered (platform : Platform) (count remaining : Nat) : Nat :=
  match platform with
  | .linux => min count remaining
  | .kqueue => if count = 0 then remaining else min count remaining

/-- `socket::sendfile`. -/
def sendfile (platform : Platform) (outcome : Nat × Option Errno) : Except Errno Nat :=
  match platform with
  | .linux => reported outcome
  | .kqueue => .ok (if outcome.2 = none then outcome.1 else 0)

/-- Where `WriteBufferToFd` stands: in the flush of the inner buffer before the loop, at
the head of the loop, in the flush inside it, before `sendfile`, or at its end. -/
inductive Point where
  | first
  | loop
  | flush
  | send
  | returned (ret : Int)
  | exited
  deriving DecidableEq, Repr

structure Sender where
  pendingFiles : List FileInfo
  buffer : Buffer
  bytesSent : Int
  bytesPending : Int
  /-- The file behind `fd_`; none for `fd_ == 0`. -/
  file : Option Opened
  point : Point
  openCalls : Nat
  /-- Octets the socket has taken, and how many of them since the file was opened. -/
  accepted : Bytes
  fileAccepted : Nat
  /-- All entries, those whose header has left the queue with the file they met, and the
  files that were popped with the octets the socket took of each. -/
  added : List FileInfo
  takenUp : List (FileInfo × Option Opened)
  finished : List (Opened × Nat)
  deriving DecidableEq, Repr

namespace Sender

def fresh : Sender := ⟨[], .fresh, 0, 0, none, .returned 0, 0, [], 0, [], [], []⟩

/-- No call is running. -/
def idle (s : Sender) : Bool :=
  match s.point with
  | .returned _ => true
  | _ => false

/-- A call is running. -/
def running (s : Sender) : Bool :=
  match s.point with
  | .returned _ | .exited => false
  | _ => true

def addFile (header filename : Bytes) (s : Sender) : Sender :=
  { s with
    pendingFiles := s.pendingFiles ++ [⟨header, filename⟩]
    added := s.added ++ [⟨header, filename⟩] }

def write (content : Bytes) (s : Sender) : Sender := s.addFile content []

def empty (s : Sender) : Bool := s.pendingFiles.isEmpty

/-- The octets `buffer_->WriteBufferToFd` offers next. -/
def offer (s : Sender) : Bytes := (s.buffer.peek kWriteBufferSize).2

/-- `HaveRead` after a successful `write`. -/
def haveWritten (ret : Nat) (s : Sender) : Sender :=
  { s with buffer := s.buffer.haveRead ret, accepted := s.accepted ++ s.offer.take ret }

/-- One round of `buffer_->WriteBufferToFd`, and where to go on once it returns 0. -/
def flushStep (reply : Reply) (after : Point) (s : Sender) : Sender :=
  if 0 < s.buffer.readableBytes then
    match reported (reply.outcome s.offer.length) with
    | .ok ret => s.haveWritten ret
    | .error .other => { s with point := .exited }
    | .error _ => { s with point := .returned (-1) }
  else { s with point := after }

/-- The file an entry meets when its turn comes. -/
def found (front : FileInfo) (opened : Option Opened) : Option Opened :=
  if front.filename.isEmpty then none else opened

/-- The block `if (fd_ == 0)`. -/
def takeUp (front : FileInfo) (rest : List FileInfo) (opened : Option Opened) (s : Sender) :
    Sender :=
  let s := { s with
    buffer := s.buffer.write front.header
    point := .flush
    openCalls := s.openCalls + FileBuffer.opening front
    takenUp := s.takenUp ++ [(front, found front opened)] }
  match found front opened with
  | some file =>
    { s with file := some file, bytesPending := int file.size, bytesSent := 0, fileAccepted := 0 }
  | none => { s with pendingFiles := rest }

/-- The head of the loop. -/
def loopStep (opened : Option Opened) (s : Sender) : Sender :=
  match s.pendingFiles with
  | [] => { s with point := .returned 0 }
  | front :: rest =>
    match s.file with
    | some _ => { s with point := .flush }
    | none => s.takeUp front rest opened

/-- Bookkeeping after `sendfile` has reported `ret` octets. -/
def haveSent (file : Opened) (ret : Nat) (s : Sender) : Sender :=
  let sent := s.bytesSent + ret
  let pending := s.bytesPending - ret
  if sent < 2 ^ 31 ∧ -2 ^ 31 ≤ pending then
    let s := { s with bytesSent := sent, bytesPending := pending, point := .loop }
    if pending = 0 then
      { s with
        file := none
        pendingFiles := s.pendingFiles.tail
        finished := s.finished ++ [(file, s.fileAccepted)] }
    else s
  else { s with point := .exited }

/-- What the kernel makes of the next `sendfile` call. -/
def transmission (platform : Platform) (reply : Reply) (file : Opened) (s : Sender) :
    Nat × Option Errno :=
  reply.outcome (platform.offered (sizeT s.bytesPending) (file.octets.length - s.bytesSent.toNat))

/-- Octets of the file that have gone to the socket. -/
def transmit (file : Opened) (transmitted : Nat) (s : Sender) : Sender :=
  { s with
    accepted := s.accepted ++ (file.octets.drop s.bytesSent.toNat).take transmitted
    fileAccepted := s.fileAccepted + transmitted }

/-- The block `if (fd_ != 0)`. -/
def sendStep (platform : Platform) (reply : Reply) (s : Sender) : Sender :=
  match s.file with
  | none => { s with point := .loop }
  | some file =>
    let outcome := s.transmission platform reply file
    let s := s.transmit file outcome.1
    match sendfile platform outcome with
    | .ok ret => s.haveSent file ret
    | .error .eagain | .error .epipe => { s with point := .returned (-1) }
    | .error _ => { s with point := .exited }

/-- The next step of a running `WriteBufferToFd`; `reply` and `opened` are only looked at
by the system calls they answer. -/
def proceed (platform : Platform) (reply : Reply) (opened : Option Opened) (s : Sender) : Sender :=
  match s.point with
  | .first => s.flushStep reply .loop
  | .loop => s.loopStep opened
  | .flush => s.flushStep reply (if s.file.isSome then .send else .loop)
  | .send => s.sendStep platform reply
  | .returned _ | .exited => s

end Sender

inductive Act where
  | addFile (header filename : Bytes)
  | writeBufferToFd
  | proceed (reply : Reply) (opened : Option Opened)
  deriving DecidableEq, Repr

def step (platform : Platform) (s : Sender) : Act → Option Sender
  | .addFile header filename => if s.idle then some (s.addFile header filename) else none
  | .writeBufferToFd => if s.idle then some { s with point := .first } else none
  | .proceed reply opened => if s.running then some (s.proceed platform reply opened) else none

/-! ## What a step can do -/

/-- Where a flush goes on. -/
def Sender.afterFlush (s : Sender) : Point :=
  if s.point = .flush ∧ s.file.isSome then .send else .loop

/-- A flush of the inner buffer is under way. -/
def Sender.Flushing (s : Sender) : Prop := s.point = .first ∨ s.point = .flush

/-- The kinds of steps. -/
inductive Moves (platform : Platform) (s : Sender) : Act → Sender → Prop
  | addFile {header filename : Bytes} (idle : s.idle = true) :
      Moves platform s (.addFile header filename) (s.addFile header filename)
  | enter (idle : s.idle = true) : Moves platform s .writeBufferToFd { s with point := .first }
  | wrote {reply : Reply} {opened : Option Opened} {ret : Nat} (flushing : s.Flushing)
      (readable : 0 < s.buffer.readableBytes)
      (result : reported (reply.outcome s.offer.length) = .ok ret) :
      Moves platform s (.proceed reply opened) (s.haveWritten ret)
  | refused {reply : Reply} {opened : Option Opened} {errno : Errno} (flushing : s.Flushing)
      (readable : 0 < s.buffer.readableBytes)
      (result : reported (reply.outcome s.offer.length) = .error errno)
      (tolerated : errno ≠ .other) :
      Moves platform s (.proceed reply opened) { s with point := .returned (-1) }
  | drained {reply : Reply} {opened : Option Opened} (flushing : s.Flushing)
      (nothing : ¬ 0 < s.buffer.readableBytes) :
      Moves platform s (.proceed reply opened) { s with point := s.afterFlush }
  | finishes {reply : Reply} {opened : Option Opened} (here : s.point = .loop)
      (queue : s.pendingFiles = []) :
      Moves platform s (.proceed reply opened) { s with point := .returned 0 }
  | resumes {reply : Reply} {opened : Option Opened} {file : Opened} (here : s.point = .loop)
      (isOpen : s.file = some file) :
      Moves platform s (.proceed reply opened) { s with point := .flush }
  | text {reply : Reply} {opened : Option Opened} {front : FileInfo} {rest : List FileInfo}
      (here : s.point = .loop) (closed : s.file = none) (queue : s.pendingFiles = front :: rest)
      (missing : Sender.found front opened = none) :
      Moves platform s (.proceed reply opened) { s with
        buffer := s.buffer.write front.header
        point := .flush
        openCalls := s.openCalls + FileBuffer.opening front
        takenUp := s.takenUp ++ [(front, none)]
        pendingFiles := rest }
  | opens {reply : Reply} {opened : Option Opened} {front : FileInfo} {rest : List FileInfo}
      {file : Opened} (here : s.point = .loop) (closed : s.file = none)
      (queue : s.pendingFiles = front :: rest) (present : Sender.found front opened = some file) :
      Moves platform s (.proceed reply opened) { s with
        buffer := s.buffer.write front.header
        point := .flush
        openCalls := s.openCalls + FileBuffer.opening front
        takenUp := s.takenUp ++ [(front, some file)]
        file := some file
        bytesPending := int file.size
        bytesSent := 0
        fileAccepted := 0 }
  | sends {reply : Reply} {opened : Option Opened} {file : Opened} {ret : Nat}
      (here : s.point = .send) (isOpen : s.file = some file)
      (result : sendfile platform (s.transmission platform reply file) = .ok ret)
      (narrow : s.bytesSent + ret < 2 ^ 31 ∧ -2 ^ 31 ≤ s.bytesPending - ret)
      (more : s.bytesPending - ret ≠ 0) :
      Moves platform s (.proceed reply opened)
        { s.transmit file (s.transmission platform reply file).1 with
          bytesSent := s.bytesSent + ret
          bytesPending := s.bytesPending - ret
          point := .loop }
  | closes {reply : Reply} {opened : Option Opened} {file : Opened} {ret : Nat}
      (here : s.point = .send) (isOpen : s.file = some file)
      (result : sendfile platform (s.transmission platform reply file) = .ok ret)
      (narrow : s.bytesSent + ret < 2 ^ 31 ∧ -2 ^ 31 ≤ s.bytesPending - ret)
      (last : s.bytesPending - ret = 0) :
      Moves platform s (.proceed reply opened)
        { s.transmit file (s.transmission platform reply file).1 with
          bytesSent := s.bytesSent + ret
          bytesPending := s.bytesPending - ret
          point := .loop
          file := none
          pendingFiles := s.pendingFiles.tail
          finished := s.finished ++
            [(file, s.fileAccepted + (s.transmission platform reply file).1)] }
  | blocks {reply : Reply} {opened : Option Opened} {file : Opened} {errno : Errno}
      (here : s.point = .send) (isOpen : s.file = some file)
      (result : sendfile platform (s.transmission platform reply file) = .error errno) :
      Moves platform s (.proceed reply opened) { s with point := .returned (-1) }
  | dies {reply : Reply} {opened : Option Opened} (flushing : s.Flushing)
      (result : reported (reply.outcome s.offer.length) = .error .other) :
      Moves platform s (.proceed reply opened) { s with point := .exited }
  | breaks {reply : Reply} {opened : Option Opened} {file : Opened} {errno : Errno}
      (here : s.point = .send) (isOpen : s.file = some file)
      (result : sendfile platform (s.transmission platform reply file) = .error errno)
      (fatal : errno ≠ .eagain ∧ errno ≠ .epipe) :
      Moves platform s (.proceed reply opened) { s with point := .exited }
  | overflows {reply : Reply} {opened : Option Opened} {file : Opened} {ret : Nat}
      (here : s.point = .send) (isOpen : s.file = some file)
      (result : sendfile platform (s.transmission platform reply file) = .ok ret)
      (wide : ¬ (s.bytesSent + ret < 2 ^ 31 ∧ -2 ^ 31 ≤ s.bytesPending - ret)) :
      Moves platform s (.proceed reply opened)
        { s.transmit file (s.transmission platform reply file).1 with point := .exited }
  | strays {reply : Reply} {opened : Option Opened} (here : s.point = .send)
      (closed : s.file = none) :
      Moves platform s (.proceed reply opened) { s with point := .loop }

section
variable {platform : Platform} {s next : Sender}

/-- An error says that nothing was transmitted. -/
theorem transmitted_of_error {outcome : Nat × Option Errno} {errno : Errno}
    (failed : sendfile platform outcome = .error errno) : outcome.1 = 0 := by
  obtain ⟨transmitted, error⟩ := outcome
  cases platform with
  | kqueue => cases failed
  | linux =>
    cases transmitted with
    | zero => rfl
    | succ transmitted =>
      cases error with
      | none => cases failed
      | some errno => cases failed

theorem transmit_zero (file : Opened) (s : Sender) : s.transmit file 0 = s := by
  simp [Sender.transmit]

theorem moves_flushStep {reply : Reply} {opened : Option Opened} (flushing : s.Flushing) :
    Moves platform s (.proceed reply opened) (s.flushStep reply s.afterFlush) := by
  unfold Sender.flushStep
  split
  · rename_i readable
    split
    · rename_i ret result
      exact .wrote flushing readable result
    · rename_i result
      exact .dies flushing result
    · rename_i errno tolerated result
      exact .refused flushing readable result tolerated
  · rename_i nothing
    exact .drained flushing nothing

theorem moves_loopStep {reply : Reply} {opened : Option Opened} (here : s.point = .loop) :
    Moves platform s (.proceed reply opened) (s.loopStep opened) := by
  unfold Sender.loopStep
  split
  · rename_i queue
    exact .finishes here queue
  · rename_i front rest queue
    split
    · rename_i file isOpen
      exact .resumes here isOpen
    · rename_i closed
      unfold Sender.takeUp
      cases present : Sender.found front opened with
      | none => exact .text here closed queue present
      | some file => exact .opens here closed queue present

theorem moves_sendStep {reply : Reply} {opened : Option Opened} (here : s.point = .send) :
    Moves platform s (.proceed reply opened) (s.sendStep platform reply) := by
  unfold Sender.sendStep
  split
  · rename_i closed
    exact .strays here closed
  · rename_i file isOpen
    dsimp only
    cases result : sendfile platform (s.transmission platform reply file) with
    | ok ret =>
      simp only [Sender.haveSent]
      split
      · rename_i narrow
        split
        · rename_i last
          exact .closes here isOpen result narrow last
        · rename_i more
          exact .sends here isOpen result narrow more
      · rename_i wide
        exact .overflows here isOpen result wide
    | error errno =>
      have same : s.transmit file (s.transmission platform reply file).1 = s := by
        rw [transmitted_of_error result, transmit_zero]
      simp only [same]
      cases errno with
      | eagain => exact .blocks here isOpen result
      | epipe => exact .blocks here isOpen result
      | econnreset => exact .breaks here isOpen result ⟨nofun, nofun⟩
      | other => exact .breaks here isOpen result ⟨nofun, nofun⟩

/-- Every step is of one of the kinds. -/
theorem moves_of_step {act : Act} (stepped : step platform s act = some next) :
    Moves platform s act next := by
  cases act with
  | addFile header filename =>
    simp only [step] at stepped
    split at stepped
    · rename_i idle
      cases stepped
      exact .addFile idle
    · cases stepped
  | writeBufferToFd =>
    simp only [step] at stepped
    split at stepped
    · rename_i idle
      cases stepped
      exact .enter idle
    · cases stepped
  | proceed reply opened =>
    simp only [step] at stepped
    split at stepped
    · rename_i running
      cases stepped
      unfold Sender.proceed
      split
      · rename_i here
        have after : s.afterFlush = .loop := by simp [Sender.afterFlush, here]
        rw [← after]
        exact moves_flushStep (.inl here)
      · rename_i here
        exact moves_loopStep here
      · rename_i here
        have after : s.afterFlush = if s.file.isSome then .send else .loop := by
          simp [Sender.afterFlush, here]
        rw [← after]
        exact moves_flushStep (.inr here)
      · rename_i here
        exact moves_sendStep here
      · rename_i here
        simp [Sender.running, here] at running
      · rename_i here
        simp [Sender.running, here] at running
    · cases stepped

end

/-! ## The representation invariant -/

/-- The counters of an open file, up to the narrowing of its size. -/
structure Counted (file : Opened) (sent pending : Int) : Prop where
  nonneg : 0 ≤ sent
  sum : sent + pending = int file.size
  inside : sent ≤ file.octets.length

structure Sound (s : Sender) : Prop where
  valid : s.buffer.Valid
  tight : s.buffer.Tight
  flushed : s.point = .loop ∨ s.point = .send → s.buffer.unread = []
  sending : s.point = .send → s.file.isSome = true
  front : s.file.isSome = true → s.pendingFiles ≠ []
  counted : ∀ file, s.file = some file → Counted file s.bytesSent s.bytesPending

theorem sound_fresh : Sound .fresh :=
  ⟨Buffer.valid_fresh, Buffer.tight_fresh, fun _ => rfl, nofun, nofun, nofun⟩

theorem Reply.outcome_le (reply : Reply) (len : Nat) : (reply.outcome len).1 ≤ len := by
  cases reply with
  | accept room => exact Nat.le_trans (Nat.min_le_left _ _) (Buffer.taken_le room len)
  | fail errno => exact Nat.zero_le _
  | broken room errno => exact Nat.le_trans (Nat.min_le_left _ _) (Buffer.taken_le room len)

/-- A report without an error is what was transmitted. -/
theorem reported_eq {outcome : Nat × Option Errno} {ret : Nat}
    (result : reported outcome = .ok ret) :
    ret = outcome.1 := by
  obtain ⟨transmitted, error⟩ := outcome
  cases error with
  | none => exact (Except.ok.inj result).symm
  | some errno =>
    cases transmitted with
    | zero => cases result
    | succ transmitted => exact (Except.ok.inj result).symm

theorem sendfile_le {platform : Platform} {outcome : Nat × Option Errno} {ret : Nat}
    (result : sendfile platform outcome = .ok ret) : ret ≤ outcome.1 := by
  cases platform with
  | linux => exact Nat.le_of_eq (reported_eq result)
  | kqueue =>
    rw [← Except.ok.inj result]
    split
    · exact Nat.le_refl _
    · exact Nat.zero_le _

theorem Platform.offered_le (platform : Platform) (count remaining : Nat) :
    platform.offered count remaining ≤ remaining := by
  cases platform with
  | linux => exact Nat.min_le_right _ _
  | kqueue =>
    unfold Platform.offered
    dsimp only
    split
    · exact Nat.le_refl _
    · exact Nat.min_le_right _ _

/-- Octets transmitted exist. -/
theorem transmission_le (platform : Platform) (reply : Reply) (file : Opened) (s : Sender) :
    (s.transmission platform reply file).1 ≤ file.octets.length - s.bytesSent.toNat :=
  Nat.le_trans (reply.outcome_le _) (platform.offered_le _ _)

section
variable {platform : Platform} {s next : Sender} {file : Opened} {reply : Reply} {ret : Nat}

/-- The counters after a `sendfile` whose result stays inside the range of an `int`. -/
theorem Counted.haveSent (counted : Counted file s.bytesSent s.bytesPending)
    (result : sendfile platform (s.transmission platform reply file) = .ok ret) :
    Counted file (s.bytesSent + ret) (s.bytesPending - ret) := by
  have short := Nat.le_trans (sendfile_le result) (transmission_le platform reply file s)
  have nonneg := counted.nonneg
  have inside := counted.inside
  have sum := counted.sum
  refine ⟨by omega, by omega, by omega⟩

/-- What a `write` of the inner buffer took is a front part of what is unread. -/
theorem haveWritten_effects (valid : s.buffer.Valid)
    (result : reported (reply.outcome s.offer.length) = .ok ret) :
    ret < 2 ^ 32 ∧ ret ≤ s.buffer.unread.length ∧ s.offer.take ret = s.buffer.unread.take ret := by
  have offer : s.offer = s.buffer.unread.take kWriteBufferSize := by
    rw [Sender.offer, valid.peek_eq (show kWriteBufferSize < 2 ^ 32 by decide)]
  have short : ret ≤ s.offer.length := by
    rw [reported_eq result]
    exact reply.outcome_le _
  have bound : s.offer.length ≤ kWriteBufferSize ∧ s.offer.length ≤ s.buffer.unread.length := by
    rw [offer, List.length_take]
    omega
  simp only [kWriteBufferSize] at bound
  refine ⟨by omega, by omega, ?_⟩
  rw [offer, List.take_take]
  congr 1
  simp only [kWriteBufferSize]
  omega

theorem Sound.write_drained (sound : Sound s) (here : s.point = .loop) (header : Bytes) :
    (s.buffer.write header).Valid ∧ (s.buffer.write header).Tight ∧
      (s.buffer.write header).unread = header.take (header.length % 2 ^ 32) :=
  sound.valid.write_drained sound.tight (sound.flushed (.inl here)) header

/-- Every step keeps the invariant, whatever the kernel answers. -/
theorem Sound.moves {act : Act} (sound : Sound s) (moves : Moves platform s act next) :
    Sound next := by
  obtain ⟨valid, tight, flushed, sending, front, counted⟩ := sound
  cases moves with
  | addFile idle =>
    refine ⟨valid, tight, flushed, sending, ?_, counted⟩
    intro _
    simp [Sender.addFile]
  | enter idle => exact ⟨valid, tight, by simp, by simp, front, counted⟩
  | wrote flushing readable result =>
    obtain ⟨narrow, -, -⟩ := haveWritten_effects valid result
    refine ⟨valid.haveRead_valid narrow, valid.haveRead_tight narrow, ?_, sending, front, counted⟩
    intro here
    rcases flushing with first | flush
    · simp [Sender.haveWritten, first] at here
    · simp [Sender.haveWritten, flush] at here
  | refused flushing readable result tolerated =>
    exact ⟨valid, tight, by simp, by simp, front, counted⟩
  | drained flushing nothing =>
    rw [valid.readable_iff, not_not] at nothing
    refine ⟨valid, tight, fun _ => nothing, ?_, front, counted⟩
    intro here
    by_contra closed
    simp [Sender.afterFlush, closed] at here
  | finishes here queue => exact ⟨valid, tight, by simp, by simp, front, counted⟩
  | resumes here isOpen => exact ⟨valid, tight, by simp, by simp, front, counted⟩
  | text here closed queue missing =>
    obtain ⟨valid', tight', -⟩ := valid.write_drained tight (flushed (.inl here)) _
    refine ⟨valid', tight', by simp, by simp, ?_, counted⟩
    intro isOpen
    rw [closed] at isOpen
    cases isOpen
  | opens here closed queue present =>
    obtain ⟨valid', tight', -⟩ := valid.write_drained tight (flushed (.inl here)) _
    refine ⟨valid', tight', by simp, by simp, by simp [queue], ?_⟩
    intro file same
    cases same
    refine ⟨Int.le_refl 0, ?_, by simp⟩
    dsimp only
    rw [Int.zero_add]
  | sends here isOpen result narrow more =>
    refine ⟨valid, tight, fun _ => flushed (.inr here), by simp, front, ?_⟩
    intro file same
    obtain rfl := Option.some.inj (isOpen.symm.trans same)
    exact (counted _ isOpen).haveSent result
  | closes here isOpen result narrow last =>
    exact ⟨valid, tight, fun _ => flushed (.inr here), by simp, by simp, by simp⟩
  | blocks here isOpen result => exact ⟨valid, tight, by simp, by simp, front, counted⟩
  | dies flushing result => exact ⟨valid, tight, by simp, by simp, front, counted⟩
  | breaks here isOpen result fatal => exact ⟨valid, tight, by simp, by simp, front, counted⟩
  | overflows here isOpen result wide => exact ⟨valid, tight, by simp, by simp, front, counted⟩
  | strays here closed =>
    exact ⟨valid, tight, fun _ => flushed (.inr here), by simp, front, counted⟩

theorem sound_step (platform : Platform) (s : Sender) (act : Act) (next : Sender) (sound : Sound s)
    (stepped : step platform s act = some next) : Sound next :=
  sound.moves (moves_of_step stepped)

end

/-! ## A whole call is a run of steps -/

/-- The members and the outside of a whole call, between two of its steps. -/
structure Represents (s : Outgoing) (t : Sender) : Prop where
  pendingFiles : t.pendingFiles = s.files.pendingFiles
  buffer : t.buffer = s.files.buffer
  sent : t.bytesSent = s.files.bytesSent
  pending : t.bytesPending = s.files.bytesPending
  closed : s.files.fd = 0 → t.file = none
  isOpen : s.files.fd ≠ 0 → ∃ file, t.file = some file ∧ file.octets = s.disk.descriptors s.files.fd
  openCalls : t.openCalls = s.disk.openCalls
  accepted : t.accepted = s.accepted

section
variable {kernel : Kernel} {s s' : Outgoing} {t : Sender} {ret : Int}

theorem Represents.at_point (rep : Represents s t) (point : Point) :
    Represents s { t with point := point } :=
  ⟨rep.pendingFiles, rep.buffer, rep.sent, rep.pending, rep.closed, rep.isOpen, rep.openCalls,
    rep.accepted⟩

theorem Represents.answered (rep : Represents s t) (answers : List Answer) :
    Represents { s with answers := answers } t :=
  ⟨rep.pendingFiles, rep.buffer, rep.sent, rep.pending, rep.closed, rep.isOpen, rep.openCalls,
    rep.accepted⟩

theorem Sender.Flushing.running (flushing : t.Flushing) : t.running = true := by
  rcases flushing with here | here
  · simp only [Sender.running, here]
  · simp only [Sender.running, here]

theorem step_flush {reply : Reply} {opened : Option Opened} (flushing : t.Flushing) :
    step .linux t (.proceed reply opened) = some (t.flushStep reply t.afterFlush) := by
  simp only [step, flushing.running, if_true]
  rcases flushing with here | here
  · simp [Sender.proceed, here, Sender.afterFlush]
  · simp [Sender.proceed, here, Sender.afterFlush]

theorem offer_length_le (t : Sender) : t.offer.length ≤ kWriteBufferSize := by
  simp only [Sender.offer, Buffer.peek, List.length_take, u32, kWriteBufferSize]
  omega

theorem reported_accept (t : Sender) (room : Nat) :
    reported ((Reply.accept room).outcome t.offer.length) = .ok (taken room t.offer.length) := by
  have bound := Nat.le_trans (Buffer.taken_le room t.offer.length) (offer_length_le t)
  rw [kWriteBufferSize] at bound
  rw [Reply.outcome, Nat.min_eq_left (by omega)]
  rfl

theorem drained_reaches (flushing : t.Flushing) (drained : ¬ 0 < t.buffer.readableBytes) :
    Reaches (step .linux) t
      { t with buffer := t.buffer, accepted := t.accepted ++ [], point := t.afterFlush } := by
  refine .head (.proceed (.accept 0) none) (step_flush flushing) ?_
  rw [Sender.flushStep, if_neg drained, List.append_nil]
  exact .refl _

theorem refused_reaches {errno : Errno} (flushing : t.Flushing)
    (readable : 0 < t.buffer.readableBytes) (tolerated : errno ≠ .other) :
    Reaches (step .linux) t
      { t with buffer := t.buffer, accepted := t.accepted ++ [], point := .returned (-1) } := by
  refine .head (.proceed (.fail errno) none) (step_flush flushing) ?_
  have result : reported ((Reply.fail errno).outcome t.offer.length) = .error errno := rfl
  rw [Sender.flushStep, if_pos readable, result, List.append_nil]
  cases errno with
  | other => exact absurd rfl tolerated
  | _ => exact .refl _

/-- A flush of the inner buffer, round by round. -/
theorem flush_reaches {answers : List Answer} {flushed : Buffer.Flushed} (flushing : t.Flushing)
    (flushes : Buffer.writeBufferToFd answers t.buffer = some flushed) :
    (flushed.ret = 0 ∨ flushed.ret = -1) ∧
      Reaches (step .linux) t { t with
        buffer := flushed.buffer
        accepted := t.accepted ++ flushed.accepted
        point := if flushed.ret < 0 then .returned flushed.ret else t.afterFlush } := by
  induction answers generalizing t flushed with
  | nil =>
    rcases Buffer.writeBufferToFd_cases flushes with ⟨drained, rfl⟩ | ⟨readable, -, rfl⟩ |
      ⟨-, room, rest, later, impossible, -⟩
    · exact ⟨.inl rfl, drained_reaches flushing drained⟩
    · exact ⟨.inr rfl, refused_reaches flushing readable (show Errno.eagain ≠ .other by decide)⟩
    · cases impossible
  | cons answer rest ih =>
    rcases Buffer.writeBufferToFd_cases flushes with ⟨drained, rfl⟩ |
      ⟨readable, ⟨errno, tolerated, -⟩, rfl⟩ | ⟨readable, room, rest, later, here, returns, rfl⟩
    · exact ⟨.inl rfl, drained_reaches flushing drained⟩
    · exact ⟨.inr rfl, refused_reaches flushing readable tolerated⟩
    · cases here
      have stepped : step .linux t (.proceed (.accept room) none) =
          some (t.haveWritten (taken room t.offer.length)) := by
        rw [step_flush flushing, Sender.flushStep, if_pos readable, reported_accept]
      have still : (t.haveWritten (taken room t.offer.length)).Flushing := flushing
      obtain ⟨ret, reaches⟩ := ih still returns
      refine ⟨ret, .head _ stepped ?_⟩
      rw [← List.append_assoc]
      exact reaches

theorem flushInner_reaches (flushing : t.Flushing) (rep : Represents s t)
    (returns : FileBuffer.flushInner s = some (ret, s')) :
    (ret = 0 ∨ ret = -1) ∧ s'.files.fd = s.files.fd ∧
      ∃ t', Reaches (step .linux) t t' ∧ Represents s' t' ∧
        t'.point = if ret < 0 then .returned ret else t.afterFlush := by
  obtain ⟨flushed, flushes, eq⟩ := Option.map_eq_some_iff.mp returns
  cases eq
  rw [← rep.buffer] at flushes
  obtain ⟨values, reaches⟩ := flush_reaches flushing flushes
  refine ⟨values, rfl, _, reaches, ?_, rfl⟩
  exact ⟨rep.pendingFiles, rfl, rep.sent, rep.pending, rep.closed, rep.isOpen, rep.openCalls,
    congrArg (· ++ flushed.accepted) rep.accepted⟩

/-- The block `if (fd_ != 0)`. -/
theorem sendFront_reaches {returned : Option Int} (here : t.point = .send) (rep : Represents s t)
    (isOpen : s.files.fd ≠ 0) (sends : FileBuffer.sendFront kernel s = some (returned, s')) :
    ∃ t', Reaches (step .linux) t t' ∧ Represents s' t' ∧
      t'.point = returned.elim .loop .returned := by
  obtain ⟨file, opened, octets⟩ := rep.isOpen isOpen
  have stepped (reply : Reply) :
      step .linux t (.proceed reply none) = some (t.sendStep .linux reply) := by
    simp only [step, Sender.running, here, if_true, Sender.proceed]
  -- both errors that a socket may report end the call with -1
  have refused (errno : Errno) (mild : errno = .eagain ∨ errno = .epipe) :
      ∃ t', Reaches (step .linux) t t' ∧ Represents { s with answers := s.answers.tail } t' ∧
        t'.point = .returned (-1) := by
    have blocked : t.sendStep .linux (.fail errno) = { t with point := .returned (-1) } := by
      have result : sendfile .linux (t.transmission .linux (.fail errno) file) = .error errno := rfl
      simp only [Sender.sendStep, opened, result, transmitted_of_error result, transmit_zero]
      rcases mild with rfl | rfl
      · rfl
      · rfl
    exact ⟨_, .head _ ((stepped (.fail errno)).trans (congrArg some blocked)) (.refl _),
      (rep.answered _).at_point _, rfl⟩
  simp only [FileBuffer.sendFront] at sends
  split at sends
  · cases sends
    exact refused .eagain (.inl rfl)
  · cases sends
    exact refused .epipe (.inr rfl)
  · cases sends
  · rename_i room answered
    obtain ⟨files, counts, eq⟩ := Option.map_eq_some_iff.mp sends
    cases eq
    refine ⟨_, .head _ (stepped (.accept room)) (.refl _), ?_⟩
    have outcome :
        t.transmission .linux (.accept room) file = (s.files.sent room s.disk, none) := by
      simp only [Sender.transmission, Platform.offered, Reply.outcome, rep.pending,
        rep.sent, octets, FileBuffer.sent]
    have result :
        sendfile .linux (s.files.sent room s.disk, none) = .ok (s.files.sent room s.disk) := rfl
    simp only [FileBuffer.haveSent] at counts
    split at counts
    · rename_i narrow
      cases counts
      simp only [Sender.sendStep, opened, outcome, result, Sender.haveSent,
        Sender.transmit, rep.sent, rep.pending, narrow, and_self, if_true]
      split
      · exact ⟨⟨congrArg List.tail rep.pendingFiles, rep.buffer, rfl, rfl, fun _ => rfl,
          fun open_ => absurd rfl open_, rep.openCalls, by rw [octets, rep.accepted]⟩, rfl⟩
      · exact ⟨⟨rep.pendingFiles, rep.buffer, rfl, rfl, fun closed => absurd closed isOpen,
          fun _ => ⟨file, rfl, octets⟩, rep.openCalls, by rw [octets, rep.accepted]⟩, rfl⟩
    · cases counts

/-- The head of the loop, for a kernel whose files have sizes that `off_t` can hold. -/
theorem loopStep_reaches {front : FileInfo} {rest : List FileInfo}
    {files : FileBuffer} {disk : Disk}
    (sizes : ∀ filename, (kernel.content filename).length < 2 ^ 63) (here : t.point = .loop)
    (rep : Represents s t) (queue : s.files.pendingFiles = front :: rest)
    (up : (if s.files.fd = 0 then FileBuffer.openFront kernel front rest s.files s.disk
      else (s.files, s.disk)) = (files, disk)) :
    ∃ t', Reaches (step .linux) t t' ∧ Represents { s with files := files, disk := disk } t' ∧
      t'.point = .flush := by
  have stepped (opened : Option Opened) :
      step .linux t (.proceed (.accept 0) opened) = some (t.loopStep opened) := by
    simp only [step, Sender.running, here, if_true, Sender.proceed]
  have waiting : t.pendingFiles = front :: rest := rep.pendingFiles.trans queue
  by_cases closed : s.files.fd = 0
  · rw [if_pos closed] at up
    have shut := rep.closed closed
    let opened : Option Opened := (kernel.openAt s.disk.openCalls).map fun _ =>
      ⟨(kernel.content front.filename).length, kernel.content front.filename, sizes front.filename⟩
    refine ⟨_, .head _ (stepped opened) (.refl _), ?_⟩
    simp only [FileBuffer.openFront] at up
    rw [Sender.loopStep, waiting]
    simp only [shut, Sender.takeUp, Sender.found, FileBuffer.opening]
    cases plain : front.filename.isEmpty with
    | true =>
      rw [plain, if_pos rfl] at up
      cases up
      exact ⟨⟨rfl, congrArg (Buffer.write front.header) rep.buffer, rep.sent, rep.pending,
        fun _ => rfl, fun isOpen => absurd closed isOpen, rep.openCalls, rep.accepted⟩, rfl⟩
    | false =>
      rw [plain, if_neg Bool.false_ne_true] at up
      cases answer : kernel.openAt s.disk.openCalls with
      | none =>
        rw [answer] at up
        cases up
        have missing : opened = none := by simp only [opened, answer, Option.map_none]
        rw [missing]
        exact ⟨⟨rfl, congrArg (Buffer.write front.header) rep.buffer, rep.sent, rep.pending,
          fun _ => rfl, fun isOpen => absurd closed isOpen, congrArg (· + 1) rep.openCalls,
          rep.accepted⟩, rfl⟩
      | some fd =>
        rw [answer] at up
        cases up
        have found : opened = some ⟨(kernel.content front.filename).length,
            kernel.content front.filename, sizes front.filename⟩ := by
          simp only [opened, answer, Option.map_some]
        rw [found]
        have positive := kernel.positive _ fd answer
        exact ⟨⟨rep.pendingFiles, congrArg (Buffer.write front.header) rep.buffer, rfl, rfl,
          fun none => absurd none (Nat.ne_of_gt positive),
          fun _ => ⟨_, rfl, (if_pos rfl).symm⟩, congrArg (· + 1) rep.openCalls, rep.accepted⟩, rfl⟩
  · rw [if_neg closed] at up
    cases up
    obtain ⟨file, isOpen, octets⟩ := rep.isOpen closed
    refine ⟨_, .head _ (stepped none) (.refl _), ?_⟩
    have going : t.loopStep none = { t with point := .flush } := by
      simp only [Sender.loopStep, waiting, isOpen]
    rw [going]
    exact ⟨rep.at_point _, rfl⟩

/-- One round of the loop over `pending_files_`. -/
theorem sendRound_reaches {front : FileInfo} {rest : List FileInfo} {returned : Option Int}
    (sizes : ∀ filename, (kernel.content filename).length < 2 ^ 63) (here : t.point = .loop)
    (rep : Represents s t) (queue : s.files.pendingFiles = front :: rest)
    (steps : FileBuffer.sendRound kernel front rest s = some (returned, s')) :
    ∃ t', Reaches (step .linux) t t' ∧ Represents s' t' ∧
      t'.point = returned.elim .loop .returned := by
  unfold FileBuffer.sendRound at steps
  rcases up : (if s.files.fd = 0 then FileBuffer.openFront kernel front rest s.files s.disk
    else (s.files, s.disk)) with ⟨files, disk⟩
  obtain ⟨t₁, first, rep₁, flush⟩ := loopStep_reaches sizes here rep queue up
  simp only [up] at steps
  cases flushes : FileBuffer.flushInner { s with files := files, disk := disk } with
  | none => simp [flushes] at steps
  | some result =>
    obtain ⟨ret, flushed⟩ := result
    obtain ⟨values, same, t₂, second, rep₂, point⟩ :=
      flushInner_reaches (.inr flush) rep₁ flushes
    simp only [flushes] at steps
    split at steps
    · rename_i negative
      cases steps
      rw [if_pos negative] at point
      exact ⟨t₂, first.trans second, rep₂, point⟩
    · rename_i nonnegative
      rw [if_neg nonnegative, Sender.afterFlush, flush] at point
      split at steps
      · rename_i closed
        cases steps
        have shut : t₁.file = none := rep₁.closed (same ▸ closed)
        rw [shut] at point
        exact ⟨t₂, first.trans second, rep₂, point⟩
      · rename_i isOpen
        obtain ⟨file, opened, -⟩ := rep₁.isOpen (same ▸ isOpen)
        rw [opened] at point
        obtain ⟨t₃, third, rep₃, ends⟩ := sendFront_reaches point rep₂ isOpen steps
        exact ⟨t₃, (first.trans second).trans third, rep₃, ends⟩

theorem sendRounds_reaches {fuel : Nat}
    (sizes : ∀ filename, (kernel.content filename).length < 2 ^ 63) (here : t.point = .loop)
    (rep : Represents s t) (returns : FileBuffer.sendRounds kernel fuel s = some (ret, s')) :
    ∃ t', Reaches (step .linux) t t' ∧ Represents s' t' ∧ t'.point = .returned ret := by
  induction fuel generalizing s t with
  | zero => cases returns
  | succ fuel ih =>
    unfold FileBuffer.sendRounds at returns
    split at returns
    · rename_i queue
      cases returns
      have stepped : step .linux t (.proceed (.accept 0) none) =
          some { t with point := .returned 0 } := by
        simp only [step, Sender.running, here, if_true, Sender.proceed, Sender.loopStep,
          rep.pendingFiles, queue]
      exact ⟨_, .head _ stepped (.refl _), rep.at_point _, rfl⟩
    · rename_i front rest queue
      split at returns
      · cases returns
      · rename_i value after steps
        cases returns
        exact sendRound_reaches sizes here rep queue steps
      · rename_i after steps
        obtain ⟨t₁, first, rep₁, loop⟩ := sendRound_reaches sizes here rep queue steps
        obtain ⟨t₂, second, rep₂, ends⟩ := ih loop rep₁ returns
        exact ⟨t₂, first.trans second, rep₂, ends⟩

/-- A whole call of `WriteBufferToFd` on Linux that returns is a run of single steps that
returns the same value and leaves the same members, open file and octets behind. -/
theorem writeBufferToFd_reaches (sizes : ∀ filename, (kernel.content filename).length < 2 ^ 63)
    (idle : t.idle = true) (rep : Represents s t)
    (returns : FileBuffer.writeBufferToFd kernel s = some (ret, s')) :
    ∃ t', Reaches (step .linux) t t' ∧ Represents s' t' ∧ t'.point = .returned ret := by
  have entered : step .linux t .writeBufferToFd = some { t with point := .first } := by
    simp only [step, idle, if_true]
  unfold FileBuffer.writeBufferToFd at returns
  cases flushes : FileBuffer.flushInner s with
  | none => simp [flushes] at returns
  | some result =>
    obtain ⟨first, flushed⟩ := result
    obtain ⟨values, -, t₁, flushing, rep₁, point⟩ :=
      flushInner_reaches (.inl rfl) (rep.at_point .first) flushes
    simp only [flushes] at returns
    split at returns
    · rename_i negative
      cases returns
      rw [if_pos negative] at point
      exact ⟨t₁, .head _ entered flushing, rep₁, point⟩
    · rename_i nonnegative
      rw [if_neg nonnegative] at point
      obtain ⟨t₂, second, rep₂, ends⟩ := sendRounds_reaches sizes point rep₁ returns
      exact ⟨t₂, .head _ entered (flushing.trans second), rep₂, ends⟩

end

end Ladder.Source.FileTransfer
