import Ladder.Source.BufferTransfer

/-!
# FileBuffer

Source: ladder/src/FileBuffer.cpp, the Linux build. Files are not changed while they
are sent. They may have any size: `bytes_sent_` and `bytes_pending_` are `int`s, the
size of a file is narrowed to one, and an addition that leaves the range of an `int`
has no result, as `EXIT` has none. What the kernel answers to `open` is given call by
call; `close` has no effect that the source observes. `fd_ == 0` means that no file is
open.
-/
namespace Ladder.Source
open Ladder.Library

/-- The part of the operating system that files come from. -/
structure Kernel where
  content : Bytes → Bytes
  /-- The descriptor returned by the n-th `open`, `none` for a failure. -/
  openAt : Nat → Option Nat
  positive : ∀ call fd, openAt call = some fd → 0 < fd
  /-- A `sendfile` of no octets succeeds also when the socket has no room. -/
  zeroNeverBlocks : Bool

/-- A disk without files, for connections that send none. -/
def Kernel.noFiles : Kernel where
  content _ := []
  openAt _ := none
  positive _ _ := nofun
  zeroNeverBlocks := true

/-- Open descriptors of files, and the number of `open` calls made. -/
structure Disk where
  descriptors : Nat → Bytes
  openCalls : Nat

structure FileInfo where
  header : Bytes
  filename : Bytes
  deriving DecidableEq, Repr

structure FileBuffer where
  pendingFiles : List FileInfo
  buffer : Buffer
  bytesSent : Int
  bytesPending : Int
  fd : Nat
  deriving DecidableEq, Repr

/-- A running `WriteBufferToFd` call: the members, the kernel, and the octets the
socket has taken. -/
structure Outgoing where
  files : FileBuffer
  disk : Disk
  answers : List Answer
  accepted : Bytes

namespace FileBuffer

def fresh : FileBuffer := ⟨[], .fresh, 0, 0, 0⟩

def addFile (header filename : Bytes) (f : FileBuffer) : FileBuffer :=
  { f with pendingFiles := f.pendingFiles ++ [⟨header, filename⟩] }

def write (content : Bytes) (f : FileBuffer) : FileBuffer := f.addFile content []

def empty (f : FileBuffer) : Bool := f.pendingFiles.isEmpty

variable (kernel : Kernel)

/-- The block `if (fd_ == 0)`: the header of the front entry goes to the inner
buffer, its file is opened, and an entry without a file is popped at once. -/
def openFront (front : FileInfo) (rest : List FileInfo) (f : FileBuffer) (disk : Disk) :
    FileBuffer × Disk :=
  let buffer := f.buffer.write front.header
  if front.filename.isEmpty then ({ f with buffer := buffer, pendingFiles := rest }, disk)
  else
    match kernel.openAt disk.openCalls with
    | some fd =>
      let content := kernel.content front.filename
      ({ f with buffer := buffer, fd := fd, bytesPending := int content.length, bytesSent := 0 },
        ⟨fun other => if other = fd then content else disk.descriptors other, disk.openCalls + 1⟩)
    | none =>
      ({ f with buffer := buffer, pendingFiles := rest },
        { disk with openCalls := disk.openCalls + 1 })

/-- `buffer_->WriteBufferToFd(fd)`. -/
def flushInner (s : Outgoing) : Option (Int × Outgoing) :=
  (s.files.buffer.writeBufferToFd s.answers).map fun flushed =>
    (flushed.ret,
      { s with
        files := { s.files with buffer := flushed.buffer }
        answers := flushed.answers
        accepted := s.accepted ++ flushed.accepted })

/-- The outcome of `sendfile` for `count` octets. -/
def sendfileAnswer (count : Nat) (answer : Answer) : Answer :=
  if count = 0 && kernel.zeroNeverBlocks then .accept 0 else answer

/-- Octets that `sendfile` takes of the open file, when the socket has room for `room + 1`.
No call takes more than an `int` can count. -/
def sent (room : Nat) (disk : Disk) (f : FileBuffer) : Nat :=
  let offered := min (sizeT f.bytesPending) ((disk.descriptors f.fd).length - f.bytesSent.toNat)
  min (taken room offered) (2 ^ 31 - 1)

/-- Bookkeeping after `sendfile` took `ret` octets. -/
def haveSent (ret : Nat) (f : FileBuffer) : Option FileBuffer :=
  let bytesSent := f.bytesSent + ret
  let bytesPending := f.bytesPending - ret
  if bytesSent < 2 ^ 31 ∧ -2 ^ 31 ≤ bytesPending then
    let f := { f with bytesSent := bytesSent, bytesPending := bytesPending }
    some (if bytesPending = 0 then { f with fd := 0, pendingFiles := f.pendingFiles.tail } else f)
  else none

/-- The block `if (fd_ != 0)`: either the call returns, or the loop goes on. -/
def sendFront (s : Outgoing) : Option (Option Int × Outgoing) :=
  let rest := s.answers.tail
  match sendfileAnswer kernel (sizeT s.files.bytesPending) (s.answers.headD (.fail .eagain)) with
  | .fail .eagain | .fail .epipe => some (some (-1), { s with answers := rest })
  | .fail _ => none
  | .accept room =>
    let ret := s.files.sent room s.disk
    let octets := ((s.disk.descriptors s.files.fd).drop s.files.bytesSent.toNat).take ret
    (s.files.haveSent ret).map fun files =>
      (none, { s with files := files, answers := rest, accepted := s.accepted ++ octets })

/-- One round of the loop over `pending_files_`. -/
def sendRound (front : FileInfo) (rest : List FileInfo) (s : Outgoing) :
    Option (Option Int × Outgoing) :=
  let (files, disk) :=
    if s.files.fd = 0 then openFront kernel front rest s.files s.disk else (s.files, s.disk)
  match flushInner { s with files := files, disk := disk } with
  | none => none
  | some (ret, s) =>
    if ret < 0 then some (some ret, s)
    else if s.files.fd = 0 then some (none, s)
    else sendFront kernel s

/-- The loop, cut off after `fuel` rounds. -/
def sendRounds : Nat → Outgoing → Option (Int × Outgoing)
  | 0, _ => none
  | fuel + 1, s =>
    match s.files.pendingFiles with
    | [] => some (0, s)
    | front :: rest =>
      match sendRound kernel front rest s with
      | none => none
      | some (some ret, s) => some (ret, s)
      | some (none, s) => sendRounds fuel s

/-- `WriteBufferToFd`. Every round that goes on pops an entry or uses an answer of
the kernel, so the bound on the rounds is never what ends the loop. -/
def writeBufferToFd (s : Outgoing) : Option (Int × Outgoing) :=
  match flushInner s with
  | none => none
  | some (ret, s) =>
    if ret < 0 then some (ret, s)
    else sendRounds kernel (s.files.pendingFiles.length + s.answers.length + 1) s

/-! ## What is outstanding -/

/-- `open` calls that an entry causes. -/
def opening (entry : FileInfo) : Nat := if entry.filename.isEmpty then 0 else 1

def openings (entries : List FileInfo) : Nat := (entries.map opening).sum

/-- The octets an entry stands for when its file is opened by the given call. -/
def resolved (call : Nat) (entry : FileInfo) : Bytes :=
  if entry.filename.isEmpty then entry.header
  else entry.header ++ if (kernel.openAt call).isSome then kernel.content entry.filename else []

/-- The octets of a queue of entries whose first file is opened by the given call. -/
def resolve : Nat → List FileInfo → Bytes
  | _, [] => []
  | call, entry :: rest => resolved kernel call entry ++ resolve (call + opening entry) rest

theorem resolve_append (call : Nat) (front back : List FileInfo) :
    resolve kernel call (front ++ back) =
      resolve kernel call front ++ resolve kernel (call + openings front) back := by
  induction front generalizing call with
  | nil => rfl
  | cons entry rest ih =>
    have shifted : call + openings (entry :: rest) = call + opening entry + openings rest := by
      simp only [openings, List.map_cons, List.sum_cons, Nat.add_assoc]
    rw [List.cons_append, resolve, resolve, ih, List.append_assoc, shifted]

/-- Entries whose header has not been copied to the inner buffer. -/
def waiting (f : FileBuffer) : List FileInfo :=
  if f.fd = 0 then f.pendingFiles else f.pendingFiles.tail

/-- The unsent part of the open file. -/
def streaming (f : FileBuffer) (disk : Disk) : Bytes :=
  if f.fd = 0 then [] else (disk.descriptors f.fd).drop f.bytesSent.toNat

/-- Everything added and not yet taken by the socket. -/
def outstanding (f : FileBuffer) (disk : Disk) : Bytes :=
  f.buffer.unread ++ (streaming f disk ++ resolve kernel disk.openCalls (waiting f))

/-- An entry whose header fits an empty inner buffer and whose file fits the counters and
cannot block after its last octet. -/
def fits (entry : FileInfo) : Bool :=
  entry.header.length < 2 ^ 32 &&
    (entry.filename.isEmpty || ((kernel.content entry.filename).length < 2 ^ 31 &&
      (!(kernel.content entry.filename).isEmpty || kernel.zeroNeverBlocks)))

/-- The counters of an open file. -/
structure Counted (file : Bytes) (bytesSent bytesPending : Int) : Prop where
  sent : 0 ≤ bytesSent
  pending : 0 ≤ bytesPending
  sum : bytesSent + bytesPending = file.length
  small : file.length < 2 ^ 31

/-- The representation invariant between calls and between rounds. -/
structure Sound (f : FileBuffer) (disk : Disk) : Prop where
  valid : f.buffer.Valid
  tight : f.buffer.Tight
  entries : ∀ entry ∈ f.pendingFiles, fits kernel entry = true
  front : f.fd ≠ 0 → f.pendingFiles ≠ []
  counted : f.fd ≠ 0 → Counted (disk.descriptors f.fd) f.bytesSent f.bytesPending
  unfinished : f.fd ≠ 0 → 0 < f.bytesPending ∨ kernel.zeroNeverBlocks = true

/-- A stretch of a call: the invariant holds after it, no octet is lost or added,
and every waiting entry still meets the `open` call meant for it. -/
structure Keeps (s s' : Outgoing) : Prop where
  sound : Sound kernel s'.files s'.disk
  octets : s'.accepted ++ outstanding kernel s'.files s'.disk =
    s.accepted ++ outstanding kernel s.files s.disk
  calls : s'.disk.openCalls + openings (waiting s'.files) =
    s.disk.openCalls + openings (waiting s.files)

variable {kernel}

/-- Without an open file the invariant is about the queue and the inner buffer only. -/
theorem sound_of_closed {f : FileBuffer} {disk : Disk} (closed : f.fd = 0) (valid : f.buffer.Valid)
    (tight : f.buffer.Tight) (entries : ∀ entry ∈ f.pendingFiles, fits kernel entry = true) :
    Sound kernel f disk :=
  ⟨valid, tight, entries, fun isOpen => absurd closed isOpen, fun isOpen => absurd closed isOpen,
    fun isOpen => absurd closed isOpen⟩

theorem Keeps.trans {s s' s'' : Outgoing} (first : Keeps kernel s s')
    (second : Keeps kernel s' s'') :
    Keeps kernel s s'' :=
  ⟨second.sound, second.octets.trans first.octets, second.calls.trans first.calls⟩

theorem addFile_effects {f : FileBuffer} {disk : Disk} {header filename : Bytes}
    (sound : Sound kernel f disk) (fit : fits kernel ⟨header, filename⟩ = true) :
    Sound kernel (f.addFile header filename) disk ∧
      waiting (f.addFile header filename) = waiting f ++ [⟨header, filename⟩] ∧
      outstanding kernel (f.addFile header filename) disk = outstanding kernel f disk ++
        resolve kernel (disk.openCalls + openings (waiting f)) [⟨header, filename⟩] := by
  have queue : waiting (f.addFile header filename) = waiting f ++ [⟨header, filename⟩] := by
    by_cases closed : f.fd = 0
    · simp [waiting, addFile, closed]
    · simp [waiting, addFile, closed, List.tail_append_of_ne_nil (sound.front closed)]
  refine ⟨⟨sound.valid, sound.tight, ?_, ?_, sound.counted, sound.unfinished⟩, queue, ?_⟩
  · intro entry member
    rcases List.mem_append.mp member with old | new
    · exact sound.entries entry old
    · rw [List.mem_singleton.mp new]
      exact fit
  · intro _
    simp [addFile]
  · have same : streaming (f.addFile header filename) disk = streaming f disk := rfl
    have inner : (f.addFile header filename).buffer = f.buffer := rfl
    simp only [outstanding, queue, same, inner, resolve_append, List.append_assoc]

/-- `buffer_->WriteBufferToFd` touches the inner buffer only. -/
theorem flushInner_effects {s s' : Outgoing} {ret : Int} (sound : Sound kernel s.files s.disk)
    (returns : flushInner s = some (ret, s')) :
    Keeps kernel s s' ∧ s'.files.pendingFiles = s.files.pendingFiles ∧ s'.files.fd = s.files.fd ∧
      s'.answers <:+ s.answers ∧ (ret = 0 ↔ s'.files.buffer.unread = []) ∧
      (ret ≠ 0 → ret = -1) := by
  obtain ⟨flushed, flushes, eq⟩ := Option.map_eq_some_iff.mp returns
  cases eq
  have effects := Buffer.writeBufferToFd_effects sound.valid flushes
  refine ⟨⟨?_, ?_, rfl⟩, rfl, rfl, effects.used, effects.drained, effects.blocked⟩
  · exact ⟨effects.valid, effects.tight sound.tight, sound.entries, sound.front, sound.counted,
      sound.unfinished⟩
  · simp only [outstanding, ← effects.octets, List.append_assoc]
    rfl

/-- Taking up the front entry: its header, and its file if it opens, change places
from the queue to the inner buffer and the open descriptor. -/
theorem openFront_effects {s : Outgoing} {front : FileInfo} {rest : List FileInfo}
    (sound : Sound kernel s.files s.disk) (drained : s.files.buffer.unread = [])
    (queue : s.files.pendingFiles = front :: rest) (closed : s.files.fd = 0)
    {files : FileBuffer} {disk : Disk}
    (opened : openFront kernel front rest s.files s.disk = (files, disk)) :
    Keeps kernel s { s with files := files, disk := disk } ∧
      files.pendingFiles = if files.fd = 0 then rest else front :: rest := by
  have fit := sound.entries front (by simp [queue])
  simp only [fits, Bool.and_eq_true, decide_eq_true_eq, Bool.or_eq_true, Bool.not_eq_true'] at fit
  have room : s.files.buffer.writeIndex + front.header.length < 2 ^ 32 := by
    rw [sound.tight drained, Nat.zero_add]
    exact fit.1
  have unread : (s.files.buffer.write front.header).unread = front.header := by
    rw [sound.valid.unread_write room, drained, List.nil_append]
  have later : ∀ entry ∈ rest, fits kernel entry = true :=
    fun entry member => sound.entries entry (by simp [queue, member])
  have valid := sound.valid.write_valid room
  have tight := sound.valid.write_tight sound.tight room
  unfold openFront at opened
  by_cases plain : front.filename.isEmpty = true
  · simp only [plain, if_true, Prod.mk.injEq] at opened
    obtain ⟨rfl, rfl⟩ := opened
    refine ⟨⟨sound_of_closed closed valid tight later, ?_, ?_⟩, ?_⟩
    · simp [outstanding, streaming, waiting, closed, queue, unread, drained,
        resolve, resolved, plain, opening]
    · simp [waiting, closed, queue, openings, opening, plain]
    · simp [closed]
  · cases answer : kernel.openAt s.disk.openCalls with
    | none =>
      simp only [plain, answer] at opened
      obtain ⟨rfl, rfl⟩ := opened
      refine ⟨⟨sound_of_closed closed valid tight later, ?_, ?_⟩, ?_⟩
      · simp [outstanding, streaming, waiting, closed, queue, unread, drained,
          resolve, resolved, plain, opening, answer]
      · simp [waiting, closed, queue, openings, opening, plain]
        omega
      · simp [closed]
    | some fd =>
      have positive := kernel.positive _ fd answer
      have isOpen : fd ≠ 0 := by omega
      simp only [plain, answer] at opened
      obtain ⟨rfl, rfl⟩ := opened
      refine ⟨⟨⟨valid, tight, sound.entries, ?_, ?_, ?_⟩, ?_, ?_⟩, ?_⟩
      · intro _
        simp [queue]
      · intro _
        have small : (kernel.content front.filename).length < 2 ^ 31 :=
          (fit.2.resolve_left plain).1
        refine ⟨Int.le_refl 0, ?_, ?_, ?_⟩
        · dsimp only
          rw [int_eq_of_small small]
          omega
        · dsimp only
          rw [int_eq_of_small small, if_pos rfl, Int.zero_add]
        · dsimp only
          rw [if_pos rfl]
          exact small
      · intro _
        obtain ⟨small, nonempty | never⟩ := fit.2.resolve_left plain
        · left
          rw [List.isEmpty_eq_false_iff] at nonempty
          have more := List.length_pos_iff.mpr nonempty
          dsimp only
          rw [int_eq_of_small small]
          omega
        · exact .inr never
      · simp [outstanding, streaming, waiting, closed, queue, unread, drained,
          resolve, resolved, plain, opening, answer, isOpen]
      · simp [waiting, closed, queue, openings, opening, plain, isOpen]
        omega
      · simp [isOpen, queue]

/-- Entries and answers of the kernel still to be used up. -/
def work (s : Outgoing) : Nat := s.files.pendingFiles.length + s.answers.length

variable (kernel) in
/-- What a round that returns, or goes on, has achieved. -/
structure Advance (s : Outgoing) (returned : Option Int) (s' : Outgoing) : Prop where
  keeps : Keeps kernel s s'
  blocked : ∀ ret, returned = some ret → ret = -1 ∧ outstanding kernel s'.files s'.disk ≠ []
  drained : returned = none → s'.files.buffer.unread = []
  less : returned = none → work s' < work s
  used : s'.answers <:+ s.answers

/-- With exact counters `sendfile` is asked for the rest of the file. -/
theorem Counted.sent_eq {f : FileBuffer} {disk : Disk}
    (counted : Counted (disk.descriptors f.fd) f.bytesSent f.bytesPending) (room : Nat) :
    f.sent room disk = taken room f.bytesPending.toNat := by
  have sum := counted.sum
  have small := counted.small
  have nonneg := counted.sent
  have pending := counted.pending
  have count := sizeT_of_nonneg pending (by omega)
  have rest : min (sizeT f.bytesPending) ((disk.descriptors f.fd).length - f.bytesSent.toNat) =
      f.bytesPending.toNat := by omega
  have narrow := Buffer.taken_le room f.bytesPending.toNat
  rw [FileBuffer.sent, rest]
  omega

theorem Sound.sent_le {f : FileBuffer} {disk : Disk} (sound : Sound kernel f disk)
    (isOpen : f.fd ≠ 0) (room : Nat) : f.sent room disk ≤ f.bytesPending.toNat := by
  rw [(sound.counted isOpen).sent_eq room]
  exact Buffer.taken_le room _

/-- What the bookkeeping of a `sendfile` call achieves. -/
structure Sends (kernel : Kernel) (disk : Disk) (ret : Nat) (f f' : FileBuffer) : Prop where
  sound : Sound kernel f' disk
  buffer : f'.buffer = f.buffer
  waiting : waiting f' = waiting f
  octets : ((disk.descriptors f.fd).drop f.bytesSent.toNat).take ret ++ streaming f' disk =
    streaming f disk
  entries : f'.pendingFiles.length ≤ f.pendingFiles.length
  finishes : f.bytesPending = 0 → f'.pendingFiles = f.pendingFiles.tail

theorem haveSent_effects {f : FileBuffer} {disk : Disk} {ret : Nat} (sound : Sound kernel f disk)
    (isOpen : f.fd ≠ 0) (short : ret ≤ f.bytesPending.toNat) :
    ∃ f', f.haveSent ret = some f' ∧ Sends kernel disk ret f f' := by
  obtain ⟨nonneg, pending, sum, small⟩ := sound.counted isOpen
  have narrow : f.bytesSent + ret < 2 ^ 31 ∧ -2 ^ 31 ≤ f.bytesPending - ret := by omega
  have offset : (f.bytesSent + ret).toNat = f.bytesSent.toNat + ret := by omega
  unfold haveSent
  dsimp only
  rw [if_pos narrow]
  refine ⟨_, rfl, ?_⟩
  by_cases finished : f.bytesPending - ret = 0
  · simp only [finished, if_true]
    refine ⟨sound_of_closed rfl sound.valid sound.tight ?_, rfl, ?_, ?_, ?_, fun _ => rfl⟩
    · exact fun entry member => sound.entries entry (List.mem_of_mem_tail member)
    · simp [FileBuffer.waiting, isOpen]
    · simp only [streaming, isOpen, if_true, if_false, List.append_nil]
      apply List.take_of_length_le
      rw [List.length_drop]
      omega
    · simp
  · simp only [finished, if_false]
    refine ⟨⟨sound.valid, sound.tight, sound.entries, sound.front, ?_, ?_⟩, rfl, rfl, ?_,
      Nat.le_refl _, fun none => ?_⟩
    · intro _
      exact ⟨by dsimp only; omega, by dsimp only; omega, by dsimp only; omega, small⟩
    · intro _
      left
      dsimp only
      omega
    · simp only [streaming, isOpen, if_false, offset, ← List.drop_drop, List.take_append_drop]
    · omega

/-- A refused `sendfile` had octets to send. -/
theorem refused_unfinished {f : FileBuffer} {disk : Disk} {answer : Answer} {errno : Errno}
    (sound : Sound kernel f disk) (isOpen : f.fd ≠ 0)
    (refused : sendfileAnswer kernel (sizeT f.bytesPending) answer = .fail errno) :
    streaming f disk ≠ [] := by
  obtain ⟨nonneg, pending, sum, small⟩ := sound.counted isOpen
  have more : f.bytesPending ≠ 0 := by
    intro zero
    rcases sound.unfinished isOpen with more | never
    · omega
    · simp [sendfileAnswer, zero, never, sizeT] at refused
  simp only [streaming, isOpen, if_false, ne_eq, List.drop_eq_nil_iff]
  omega

/-- A `sendfile` that goes through uses up an answer or finishes an entry. -/
theorem accepted_less {s : Outgoing} {files : FileBuffer} {room ret : Nat}
    (sound : Sound kernel s.files s.disk) (isOpen : s.files.fd ≠ 0)
    (sends : Sends kernel s.disk ret s.files files)
    (went : sendfileAnswer kernel (sizeT s.files.bytesPending)
      (s.answers.headD (.fail .eagain)) = .accept room) :
    files.pendingFiles.length + s.answers.tail.length < work s := by
  have more := List.length_pos_iff.mpr (sound.front isOpen)
  have shorter := sends.entries
  unfold work
  cases answers : s.answers with
  | cons answer rest =>
    simp only [List.tail_cons, List.length_cons]
    omega
  | nil =>
    obtain ⟨nonneg, pending, sum, small⟩ := sound.counted isOpen
    have count := sizeT_of_nonneg pending (by omega)
    have zero : sizeT s.files.bytesPending = 0 := by
      by_contra unsent
      simp [sendfileAnswer, unsent, answers] at went
    rw [sends.finishes (by omega)]
    simp only [List.length_tail, List.tail_nil, List.length_nil]
    omega

theorem sendFront_effects {s s' : Outgoing} {returned : Option Int}
    (sound : Sound kernel s.files s.disk)
    (isOpen : s.files.fd ≠ 0) (drained : s.files.buffer.unread = [])
    (steps : sendFront kernel s = some (returned, s')) : Advance kernel s returned s' := by
  have refusal : ∀ errno, sendfileAnswer kernel (sizeT s.files.bytesPending)
      (s.answers.headD (.fail .eagain)) = .fail errno →
      Advance kernel s (some (-1)) { s with answers := s.answers.tail } := by
    intro errno refused
    refine ⟨⟨sound, rfl, rfl⟩, ?_, nofun, nofun, List.tail_suffix _⟩
    intro ret returned
    cases returned
    refine ⟨rfl, ?_⟩
    simp [outstanding, refused_unfinished sound isOpen refused]
  simp only [sendFront] at steps
  cases answered : sendfileAnswer kernel (sizeT s.files.bytesPending)
      (s.answers.headD (.fail .eagain)) with
  | fail errno =>
    cases errno with
    | eagain =>
      simp only [answered, Option.some.injEq, Prod.mk.injEq] at steps
      obtain ⟨rfl, rfl⟩ := steps
      exact refusal _ answered
    | epipe =>
      simp only [answered, Option.some.injEq, Prod.mk.injEq] at steps
      obtain ⟨rfl, rfl⟩ := steps
      exact refusal _ answered
    | econnreset => simp only [answered, reduceCtorEq] at steps
    | other => simp only [answered, reduceCtorEq] at steps
  | accept room =>
    obtain ⟨files, counts, sends⟩ := haveSent_effects sound isOpen (sound.sent_le isOpen room)
    simp only [answered, counts, Option.map_some, Option.some.injEq, Prod.mk.injEq] at steps
    obtain ⟨rfl, rfl⟩ := steps
    refine ⟨⟨sends.sound, ?_, ?_⟩, nofun, ?_, ?_, List.tail_suffix _⟩
    · simp only [outstanding, sends.buffer, sends.waiting, drained, List.nil_append, ← sends.octets,
        List.append_assoc]
    · simp only [sends.waiting]
    · intro _
      simpa only [sends.buffer] using drained
    · intro _
      exact accepted_less sound isOpen sends answered

/-- The state after the block `if (fd_ == 0)`. -/
theorem taken_up {s : Outgoing} {front : FileInfo} {rest : List FileInfo}
    (sound : Sound kernel s.files s.disk) (drained : s.files.buffer.unread = [])
    (queue : s.files.pendingFiles = front :: rest) {files : FileBuffer} {disk : Disk}
    (opened : (if s.files.fd = 0 then openFront kernel front rest s.files s.disk
      else (s.files, s.disk)) = (files, disk)) :
    Keeps kernel s { s with files := files, disk := disk } ∧
      files.pendingFiles = if files.fd = 0 then rest else front :: rest := by
  by_cases closed : s.files.fd = 0
  · rw [if_pos closed] at opened
    exact openFront_effects sound drained queue closed opened
  · rw [if_neg closed] at opened
    cases opened
    exact ⟨⟨sound, rfl, rfl⟩, by rw [if_neg closed, queue]⟩

theorem sendRound_effects {s s' : Outgoing} {front : FileInfo} {rest : List FileInfo}
    {returned : Option Int} (sound : Sound kernel s.files s.disk)
    (drained : s.files.buffer.unread = []) (queue : s.files.pendingFiles = front :: rest)
    (steps : sendRound kernel front rest s = some (returned, s')) :
    Advance kernel s returned s' := by
  unfold sendRound at steps
  generalize opened : (if s.files.fd = 0 then openFront kernel front rest s.files s.disk
    else (s.files, s.disk)) = up at steps
  obtain ⟨files, disk⟩ := up
  obtain ⟨keeps, left⟩ := taken_up sound drained queue opened
  have shorter : files.pendingFiles.length ≤ s.files.pendingFiles.length := by
    rw [left, queue]
    split <;> simp
  dsimp only at steps
  cases flushes : flushInner { s with files := files, disk := disk } with
  | none => simp [flushes] at steps
  | some result =>
    obtain ⟨ret, flushed⟩ := result
    obtain ⟨kept, pending, descriptor, used, empty, blocked⟩ :=
      flushInner_effects keeps.sound flushes
    have fewer := used.length_le
    simp only [flushes] at steps
    split at steps
    · rename_i negative
      cases steps
      refine ⟨keeps.trans kept, ?_, nofun, nofun, used⟩
      intro value returned
      cases returned
      have unsent : s'.files.buffer.unread ≠ [] := by
        rw [ne_eq, ← empty]
        omega
      exact ⟨blocked (by omega), by simp [outstanding, unsent]⟩
    · rename_i nonnegative
      have zero : ret = 0 := by
        by_contra stuck
        have := blocked stuck
        omega
      have drained' := empty.mp zero
      split at steps
      · rename_i closed
        cases steps
        refine ⟨keeps.trans kept, nofun, fun _ => drained', ?_, used⟩
        intro _
        have shut : files.fd = 0 := descriptor.symm.trans closed
        rw [if_pos shut] at left
        simp only [work, pending, left, queue, List.length_cons]
        dsimp only at fewer
        omega
      · rename_i isOpen
        have sent := sendFront_effects kept.sound isOpen drained' steps
        refine ⟨(keeps.trans kept).trans sent.keeps, sent.blocked, sent.drained, ?_,
          sent.used.trans used⟩
        intro goes
        refine Nat.lt_of_lt_of_le (sent.less goes) ?_
        simp only [work, pending]
        dsimp only at fewer ⊢
        omega

theorem Sound.nothing_outstanding {f : FileBuffer} {disk : Disk} (sound : Sound kernel f disk)
    (queue : f.pendingFiles = []) (drained : f.buffer.unread = []) :
    outstanding kernel f disk = [] := by
  have closed : f.fd = 0 := by
    by_contra isOpen
    exact sound.front isOpen queue
  simp [outstanding, streaming, waiting, closed, queue, drained, resolve]

/-- The loop started with a drained inner buffer. -/
theorem sendRounds_effects {fuel : Nat} {s s' : Outgoing} {ret : Int}
    (sound : Sound kernel s.files s.disk)
    (drained : s.files.buffer.unread = []) (returns : sendRounds kernel fuel s = some (ret, s')) :
    Keeps kernel s s' ∧ (ret = 0 ↔ outstanding kernel s'.files s'.disk = []) ∧
      (ret ≠ 0 → ret = -1) := by
  induction fuel generalizing s with
  | zero => cases returns
  | succ fuel ih =>
    unfold sendRounds at returns
    split at returns
    · rename_i queue
      cases returns
      exact ⟨⟨sound, rfl, rfl⟩, by simp [sound.nothing_outstanding queue drained],
        fun stuck => absurd rfl stuck⟩
    · rename_i front rest queue
      split at returns
      · cases returns
      · rename_i value after steps
        cases returns
        have advance := sendRound_effects sound drained queue steps
        obtain ⟨rfl, unsent⟩ := advance.blocked _ rfl
        exact ⟨advance.keeps, by simp [unsent], fun _ => rfl⟩
      · rename_i after steps
        have advance := sendRound_effects sound drained queue steps
        obtain ⟨keeps, iff, blocked⟩ := ih advance.keeps.sound (advance.drained rfl) returns
        exact ⟨advance.keeps.trans keeps, iff, blocked⟩

/-- `WriteBufferToFd`: nothing is lost, nothing is invented, and 0 is returned
exactly when nothing is outstanding. -/
theorem writeBufferToFd_effects {s s' : Outgoing} {ret : Int} (sound : Sound kernel s.files s.disk)
    (returns : writeBufferToFd kernel s = some (ret, s')) :
    Keeps kernel s s' ∧ (ret = 0 ↔ outstanding kernel s'.files s'.disk = []) ∧
      (ret ≠ 0 → ret = -1) := by
  unfold writeBufferToFd at returns
  cases flushes : flushInner s with
  | none => simp [flushes] at returns
  | some result =>
    obtain ⟨first, flushed⟩ := result
    obtain ⟨kept, -, -, -, empty, blocked⟩ := flushInner_effects sound flushes
    simp only [flushes] at returns
    split at returns
    · rename_i negative
      cases returns
      have unsent : s'.files.buffer.unread ≠ [] := by
        rw [ne_eq, ← empty]
        omega
      have stuck : ret ≠ 0 := by omega
      exact ⟨kept, by simp [outstanding, unsent, stuck], blocked⟩
    · rename_i nonnegative
      have zero : first = 0 := by
        by_contra stuck
        have := blocked stuck
        omega
      obtain ⟨keeps, iff, later⟩ := sendRounds_effects kept.sound (empty.mp zero) returns
      exact ⟨kept.trans keeps, iff, later⟩

/-! ## The call returns -/

theorem flushInner_returns {s : Outgoing}
    (tolerated : ∀ answer ∈ s.answers, answer.tolerated = true) :
    ∃ ret s', flushInner s = some (ret, s') := by
  obtain ⟨flushed, returns⟩ := Buffer.writeBufferToFd_returns s.files.buffer tolerated
  simp only [flushInner, returns]
  exact ⟨_, _, rfl⟩

theorem sendFront_returns {s : Outgoing} (sound : Sound kernel s.files s.disk)
    (isOpen : s.files.fd ≠ 0) (tolerated : ∀ answer ∈ s.answers, answer.tolerated = true) :
    ∃ returned s', sendFront kernel s = some (returned, s') := by
  have first : (s.answers.headD (.fail .eagain)).tolerated = true := by
    cases answers : s.answers with
    | nil => rfl
    | cons answer rest => exact tolerated answer (by simp [answers])
  have outcome : (sendfileAnswer kernel (sizeT s.files.bytesPending)
      (s.answers.headD (.fail .eagain))).tolerated = true := by
    unfold sendfileAnswer
    split
    · rfl
    · exact first
  unfold sendFront
  dsimp only
  split
  · exact ⟨_, _, rfl⟩
  · exact ⟨_, _, rfl⟩
  · rename_i errno notAgain notPipe answered
    rw [answered] at outcome
    cases errno with
    | eagain => exact absurd rfl notAgain
    | epipe => exact absurd rfl notPipe
    | _ => cases outcome
  · rename_i room answered
    obtain ⟨files, counts, -⟩ := haveSent_effects sound isOpen (sound.sent_le isOpen room)
    rw [counts]
    exact ⟨_, _, rfl⟩

theorem sendRound_returns {s : Outgoing} {front : FileInfo} {rest : List FileInfo}
    (sound : Sound kernel s.files s.disk) (drained : s.files.buffer.unread = [])
    (queue : s.files.pendingFiles = front :: rest)
    (tolerated : ∀ answer ∈ s.answers, answer.tolerated = true) :
    ∃ returned s', sendRound kernel front rest s = some (returned, s') := by
  unfold sendRound
  generalize opened : (if s.files.fd = 0 then openFront kernel front rest s.files s.disk
    else (s.files, s.disk)) = up
  obtain ⟨files, disk⟩ := up
  obtain ⟨keeps, -⟩ := taken_up sound drained queue opened
  obtain ⟨ret, flushed, flushes⟩ := (flushInner_returns tolerated :
    ∃ ret s', flushInner { s with files := files, disk := disk } = some (ret, s'))
  obtain ⟨kept, -, -, used, -, -⟩ := flushInner_effects keeps.sound flushes
  simp only [flushes]
  split
  · exact ⟨_, _, rfl⟩
  · split
    · exact ⟨_, _, rfl⟩
    · rename_i isOpen
      exact sendFront_returns kept.sound isOpen
        (fun answer member => tolerated answer (used.subset member))

theorem sendRounds_returns {fuel : Nat} {s : Outgoing} (sound : Sound kernel s.files s.disk)
    (drained : s.files.buffer.unread = [])
    (tolerated : ∀ answer ∈ s.answers, answer.tolerated = true)
    (enough : work s < fuel) : ∃ ret s', sendRounds kernel fuel s = some (ret, s') := by
  induction fuel generalizing s with
  | zero => omega
  | succ fuel ih =>
    unfold sendRounds
    split
    · exact ⟨_, _, rfl⟩
    · rename_i front rest queue
      obtain ⟨returned, after, steps⟩ := sendRound_returns sound drained queue tolerated
      have advance := sendRound_effects sound drained queue steps
      simp only [steps]
      cases returned with
      | some ret => exact ⟨_, _, rfl⟩
      | none =>
        have less := advance.less rfl
        exact ih advance.keeps.sound (advance.drained rfl)
          (fun answer member => tolerated answer (advance.used.subset member)) (by omega)

theorem writeBufferToFd_returns {s : Outgoing} (sound : Sound kernel s.files s.disk)
    (tolerated : ∀ answer ∈ s.answers, answer.tolerated = true) :
    ∃ ret s', writeBufferToFd kernel s = some (ret, s') := by
  obtain ⟨ret, flushed, flushes⟩ := flushInner_returns tolerated
  obtain ⟨kept, -, -, used, empty, blocked⟩ := flushInner_effects sound flushes
  unfold writeBufferToFd
  simp only [flushes]
  split
  · exact ⟨_, _, rfl⟩
  · rename_i nonnegative
    have zero : ret = 0 := by
      by_contra stuck
      have := blocked stuck
      omega
    exact sendRounds_returns kept.sound (empty.mp zero)
      (fun answer member => tolerated answer (used.subset member)) (Nat.lt_succ_self _)

/-! ## A socket whose write side is shut down -/

theorem flushInner_refused {s s' : Outgoing} {ret : Int} (refusing : Refusing s.answers)
    (returns : flushInner s = some (ret, s')) : s'.accepted = s.accepted ∧ Refusing s'.answers := by
  obtain ⟨flushed, flushes, eq⟩ := Option.map_eq_some_iff.mp returns
  cases eq
  obtain ⟨nothing, later⟩ := Buffer.writeBufferToFd_refused refusing flushes
  exact ⟨by rw [nothing, List.append_nil], later⟩

/-- Only a `sendfile` of no octets can go through. -/
theorem sendFront_refused {s s' : Outgoing} {returned : Option Int} (refusing : Refusing s.answers)
    (steps : sendFront kernel s = some (returned, s')) :
    s'.accepted = s.accepted ∧ Refusing s'.answers := by
  have later : Refusing s.answers.tail :=
    fun answer member => refusing answer (List.mem_of_mem_tail member)
  simp only [sendFront] at steps
  split at steps
  · cases steps
    exact ⟨rfl, later⟩
  · cases steps
    exact ⟨rfl, later⟩
  · cases steps
  · rename_i room answered
    obtain ⟨files, -, eq⟩ := Option.map_eq_some_iff.mp steps
    cases eq
    have nothing : sizeT s.files.bytesPending = 0 := by
      by_contra pending
      cases answers : s.answers with
      | nil => simp [sendfileAnswer, pending, answers] at answered
      | cons answer rest =>
        have refused : answer = .fail .epipe := refusing answer (by simp [answers])
        simp [sendfileAnswer, pending, answers, refused] at answered
    exact ⟨by simp [sent, taken, nothing], later⟩

theorem sendRound_refused {s s' : Outgoing} {front : FileInfo} {rest : List FileInfo}
    {returned : Option Int} (refusing : Refusing s.answers)
    (steps : sendRound kernel front rest s = some (returned, s')) :
    s'.accepted = s.accepted ∧ Refusing s'.answers := by
  unfold sendRound at steps
  generalize (if s.files.fd = 0 then openFront kernel front rest s.files s.disk
    else (s.files, s.disk)) = up at steps
  obtain ⟨files, disk⟩ := up
  dsimp only at steps
  cases flushes : flushInner { s with files := files, disk := disk } with
  | none => simp [flushes] at steps
  | some result =>
    obtain ⟨ret, flushed⟩ := result
    obtain ⟨same, later⟩ := flushInner_refused (s := { s with files := files, disk := disk })
      refusing flushes
    simp only [flushes] at steps
    split at steps
    · cases steps
      exact ⟨same, later⟩
    · split at steps
      · cases steps
        exact ⟨same, later⟩
      · obtain ⟨still, rest⟩ := sendFront_refused later steps
        exact ⟨still.trans same, rest⟩

theorem sendRounds_refused {fuel : Nat} {s s' : Outgoing} {ret : Int}
    (refusing : Refusing s.answers)
    (returns : sendRounds kernel fuel s = some (ret, s')) : s'.accepted = s.accepted := by
  induction fuel generalizing s with
  | zero => cases returns
  | succ fuel ih =>
    unfold sendRounds at returns
    split at returns
    · cases returns
      rfl
    · split at returns
      · cases returns
      · rename_i steps
        cases returns
        exact (sendRound_refused refusing steps).1
      · rename_i steps
        obtain ⟨same, later⟩ := sendRound_refused refusing steps
        exact (ih later returns).trans same

theorem writeBufferToFd_refused {s s' : Outgoing} {ret : Int} (refusing : Refusing s.answers)
    (returns : writeBufferToFd kernel s = some (ret, s')) : s'.accepted = s.accepted := by
  unfold writeBufferToFd at returns
  cases flushes : flushInner s with
  | none => simp [flushes] at returns
  | some result =>
    obtain ⟨first, flushed⟩ := result
    obtain ⟨same, later⟩ := flushInner_refused refusing flushes
    simp only [flushes] at returns
    split at returns
    · cases returns
      exact same
    · exact (sendRounds_refused later returns).trans same

/-! ## What the socket has taken stays taken -/

theorem flushInner_extends {s s' : Outgoing} {ret : Int} (returns : flushInner s = some (ret, s')) :
    s.accepted <+: s'.accepted := by
  obtain ⟨flushed, -, eq⟩ := Option.map_eq_some_iff.mp returns
  cases eq
  exact List.prefix_append _ _

theorem sendFront_extends {s s' : Outgoing} {returned : Option Int}
    (steps : sendFront kernel s = some (returned, s')) : s.accepted <+: s'.accepted := by
  simp only [sendFront] at steps
  split at steps
  · cases steps
    exact List.prefix_rfl
  · cases steps
    exact List.prefix_rfl
  · cases steps
  · obtain ⟨files, -, eq⟩ := Option.map_eq_some_iff.mp steps
    cases eq
    exact List.prefix_append _ _

theorem sendRound_extends {s s' : Outgoing} {front : FileInfo} {rest : List FileInfo}
    {returned : Option Int} (steps : sendRound kernel front rest s = some (returned, s')) :
    s.accepted <+: s'.accepted := by
  unfold sendRound at steps
  generalize (if s.files.fd = 0 then openFront kernel front rest s.files s.disk
    else (s.files, s.disk)) = up at steps
  obtain ⟨files, disk⟩ := up
  dsimp only at steps
  cases flushes : flushInner { s with files := files, disk := disk } with
  | none => simp [flushes] at steps
  | some result =>
    obtain ⟨ret, flushed⟩ := result
    have first := flushInner_extends flushes
    dsimp only at first
    simp only [flushes] at steps
    split at steps
    · cases steps
      exact first
    · split at steps
      · cases steps
        exact first
      · exact first.trans (sendFront_extends steps)

theorem sendRounds_extends {fuel : Nat} {s s' : Outgoing} {ret : Int}
    (returns : sendRounds kernel fuel s = some (ret, s')) : s.accepted <+: s'.accepted := by
  induction fuel generalizing s with
  | zero => cases returns
  | succ fuel ih =>
    unfold sendRounds at returns
    split at returns
    · cases returns
      exact List.prefix_rfl
    · split at returns
      · cases returns
      · rename_i steps
        cases returns
        exact sendRound_extends steps
      · rename_i steps
        exact (sendRound_extends steps).trans (ih returns)

theorem writeBufferToFd_extends {s s' : Outgoing} {ret : Int}
    (returns : writeBufferToFd kernel s = some (ret, s')) : s.accepted <+: s'.accepted := by
  unfold writeBufferToFd at returns
  cases flushes : flushInner s with
  | none => simp [flushes] at returns
  | some result =>
    obtain ⟨first, flushed⟩ := result
    simp only [flushes] at returns
    split at returns
    · cases returns
      exact flushInner_extends flushes
    · exact (flushInner_extends flushes).trans (sendRounds_extends returns)

/-! ## A socket with too little room -/

theorem flushInner_capacity {s s' : Outgoing} {ret : Int}
    (returns : flushInner s = some (ret, s')) :
    s'.files = { s.files with buffer := s'.files.buffer } ∧
      (¬ ret < 0 → s.files.buffer.readableBytes + capacity (2 ^ 31 - 1) s'.answers ≤
        capacity (2 ^ 31 - 1) s.answers) := by
  obtain ⟨flushed, flushes, eq⟩ := Option.map_eq_some_iff.mp returns
  cases eq
  exact ⟨rfl, (Buffer.writeBufferToFd_capacity (by decide) flushes).2.2⟩

theorem sent_le_room (room : Nat) (disk : Disk) (f : FileBuffer) :
    f.sent room disk ≤ min (room + 1) (2 ^ 31 - 1) ∧ f.sent room disk ≤ sizeT f.bytesPending := by
  simp only [sent, taken]
  omega

/-- A file of which the kernel has no room for the rest stays in front. -/
theorem sendFront_outlasts {s s' : Outgoing} {returned : Option Int}
    (waits : capacity (2 ^ 31 - 1) s.answers < sizeT s.files.bytesPending)
    (sends : sendFront kernel s = some (returned, s')) :
    s'.files.pendingFiles = s.files.pendingFiles ∧ s'.files.fd = s.files.fd ∧
      (returned = none →
        capacity (2 ^ 31 - 1) s'.answers < sizeT s'.files.bytesPending) := by
  have pending : ¬ sizeT s.files.bytesPending = 0 := by omega
  simp only [sendFront, sendfileAnswer, pending, decide_false, Bool.false_and, Bool.false_eq_true,
    if_false] at sends
  split at sends
  · cases sends
    exact ⟨rfl, rfl, nofun⟩
  · cases sends
    exact ⟨rfl, rfl, nofun⟩
  · cases sends
  · rename_i room answer
    obtain ⟨files, counts, eq⟩ := Option.map_eq_some_iff.mp sends
    cases eq
    have offered : capacity (2 ^ 31 - 1) s.answers =
        min (room + 1) (2 ^ 31 - 1) + capacity (2 ^ 31 - 1) s.answers.tail := by
      cases answers : s.answers with
      | nil => simp [answers] at answer
      | cons first rest =>
        simp only [answers, List.headD_cons] at answer
        rw [answer]
        rfl
    obtain ⟨small, within⟩ := sent_le_room room s.disk s.files
    have less := sizeT_sub within
    simp only [haveSent] at counts
    split at counts
    · cases counts
      have more : ¬ s.files.bytesPending - (s.files.sent room s.disk : Int) = 0 := by
        intro none
        rw [none] at less
        simp only [sizeT] at less waits within
        omega
      rw [if_neg more]
      exact ⟨rfl, rfl, fun _ => by dsimp only; omega⟩
    · cases counts

theorem sendRound_outlasts {s s' : Outgoing} {front : FileInfo} {rest : List FileInfo}
    {returned : Option Int} (isOpen : s.files.fd ≠ 0)
    (waits : capacity (2 ^ 31 - 1) s.answers < sizeT s.files.bytesPending)
    (steps : sendRound kernel front rest s = some (returned, s')) :
    s'.files.pendingFiles = s.files.pendingFiles ∧ s'.files.fd = s.files.fd ∧
      (returned = none →
        capacity (2 ^ 31 - 1) s'.answers < sizeT s'.files.bytesPending) := by
  simp only [sendRound, if_neg isOpen] at steps
  cases flushes : flushInner s with
  | none => simp [flushes] at steps
  | some result =>
    obtain ⟨ret, flushed⟩ := result
    obtain ⟨same, room⟩ := flushInner_capacity flushes
    have queue : flushed.files.pendingFiles = s.files.pendingFiles := by rw [same]
    have fd : flushed.files.fd = s.files.fd := by rw [same]
    have pending : flushed.files.bytesPending = s.files.bytesPending := by rw [same]
    simp only [flushes, fd, isOpen, if_false] at steps
    split at steps
    · cases steps
      exact ⟨queue, fd, nofun⟩
    · rename_i goesOn
      have less := room goesOn
      obtain ⟨queue', fd', later⟩ := sendFront_outlasts (by rw [pending]; omega) steps
      exact ⟨queue'.trans queue, fd'.trans fd, later⟩

theorem sendRounds_outlasts {fuel : Nat} {s s' : Outgoing} {ret : Int} (isOpen : s.files.fd ≠ 0)
    (queue : s.files.pendingFiles ≠ [])
    (waits : capacity (2 ^ 31 - 1) s.answers < sizeT s.files.bytesPending)
    (returns : sendRounds kernel fuel s = some (ret, s')) : s'.files.pendingFiles ≠ [] := by
  induction fuel generalizing s with
  | zero => cases returns
  | succ fuel ih =>
    unfold sendRounds at returns
    split at returns
    · rename_i none
      exact absurd none queue
    · split at returns
      · cases returns
      · rename_i steps
        cases returns
        obtain ⟨same, -⟩ := sendRound_outlasts isOpen waits steps
        exact same ▸ queue
      · rename_i steps
        obtain ⟨same, fd, later⟩ := sendRound_outlasts isOpen waits steps
        exact ih (fd ▸ isOpen) (same ▸ queue) (later rfl) returns

/-- A call leaves an entry queued when the kernel has less room than the inner buffer and
the rest of the open file need. -/
theorem writeBufferToFd_outlasts {s s' : Outgoing} {ret : Int} (queue : s.files.pendingFiles ≠ [])
    (waits : capacity (2 ^ 31 - 1) s.answers <
      s.files.buffer.readableBytes + if s.files.fd = 0 then 0 else sizeT s.files.bytesPending)
    (returns : writeBufferToFd kernel s = some (ret, s')) : s'.files.pendingFiles ≠ [] := by
  unfold writeBufferToFd at returns
  cases flushes : flushInner s with
  | none => simp [flushes] at returns
  | some result =>
    obtain ⟨value, flushed⟩ := result
    obtain ⟨same, room⟩ := flushInner_capacity flushes
    have queue' : flushed.files.pendingFiles ≠ [] := by rw [same]; exact queue
    simp only [flushes] at returns
    split at returns
    · cases returns
      exact queue'
    · rename_i goesOn
      have less := room goesOn
      by_cases closed : s.files.fd = 0
      · rw [if_pos closed] at waits
        omega
      · rw [if_neg closed] at waits
        have isOpen : flushed.files.fd ≠ 0 := by rw [same]; exact closed
        have pending : flushed.files.bytesPending = s.files.bytesPending := by rw [same]
        exact sendRounds_outlasts isOpen queue' (by rw [pending]; omega) returns

end FileBuffer
end Ladder.Source
