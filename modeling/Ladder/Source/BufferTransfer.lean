import Ladder.Source.Buffer

/-!
# Moving a Buffer's octets through a descriptor

Source: `Buffer::ReadBufferFromFd` and `Buffer::WriteBufferToFd` of
ladder/src/Buffer.cpp. The kernel's answers to the successive system calls of one
call are a list; a kernel that is asked once more than the list is long would
block. `EXIT` ends the process, so a call that runs into it has no result.

`Flush` is `WriteBufferToFd` cut at its atomic operations, for callers that share
the buffer; `writeBufferToFd` is the uninterrupted call.
-/
namespace Ladder.Source
open Ladder.Library

/-- The values of `errno` the source tells apart. EWOULDBLOCK is EAGAIN. -/
inductive Errno where
  | eagain
  | econnreset
  | epipe
  | other
  deriving DecidableEq, Repr

/-- Answer to `write` or `sendfile`: room for `room + 1` octets, or a failure. -/
inductive Answer where
  | accept (room : Nat)
  | fail (errno : Errno)
  deriving DecidableEq, Repr

/-- The socket takes octets or has no room at the moment. -/
def Answer.mild : Answer → Bool
  | .accept _ => true
  | .fail errno => errno == .eagain

/-- Answers after which every call returns: also EPIPE, of a socket whose write side is
shut down. -/
def Answer.tolerated : Answer → Bool
  | .accept _ => true
  | .fail errno => errno == .eagain || errno == .epipe

theorem Answer.tolerated_of_mild {answer : Answer} (mild : answer.mild = true) :
    answer.tolerated = true := by
  cases answer with
  | accept room => rfl
  | fail errno =>
    simp only [Answer.mild] at mild
    simp only [Answer.tolerated, mild, Bool.true_or]

/-- The answers of a socket whose write side is shut down. -/
def Refusing (answers : List Answer) : Prop := ∀ answer ∈ answers, answer = .fail .epipe

theorem Refusing.tolerated {answers : List Answer} (refusing : Refusing answers) :
    ∀ answer ∈ answers, answer.tolerated = true := by
  intro answer member
  rw [refusing answer member]
  rfl

/-- Octets taken when `len` are offered to a kernel with room for `room + 1`. -/
def taken (room len : Nat) : Nat := min (room + 1) len

/-- Octets a kernel has room for before it first refuses, at most `most` in a call. -/
def capacity (most : Nat) : List Answer → Nat
  | .accept room :: rest => min (room + 1) most + capacity most rest
  | _ => 0

/-- Answer to `read`: the octets delivered (none at the end of the stream), or a
failure. -/
inductive Incoming where
  | data (octets : Bytes)
  | fail (errno : Errno)
  deriving DecidableEq, Repr

namespace Buffer

/-- `ReadBufferFromFd`: the value returned, `errno`, and the buffer after it. A
`read` delivers at most `kReadBufferSize` octets. -/
def readBufferFromFd : List Incoming → Buffer → Option (Int × Errno × Buffer)
  | [], b => some (-1, .eagain, b)
  | .fail errno :: _, b =>
    match errno with
    | .eagain | .econnreset => some (-1, errno, b)
    | .epipe | .other => none
  | .data octets :: rest, b =>
    let buf := octets.take kReadBufferSize
    if buf.length = 0 then some (0, .eagain, b.writeChars buf buf.length)
    else readBufferFromFd rest (b.writeChars buf buf.length)

/-- What one uninterrupted `WriteBufferToFd` call leaves behind. -/
structure Flushed where
  ret : Int
  buffer : Buffer
  accepted : Bytes
  answers : List Answer
  deriving DecidableEq, Repr

def writeBufferToFd : List Answer → Buffer → Option Flushed
  | answers, b =>
    if 0 < b.readableBytes then
      match answers with
      | [] => some ⟨-1, b, [], []⟩
      | .fail .other :: _ => none
      | .fail _ :: rest => some ⟨-1, b, [], rest⟩
      | .accept room :: rest =>
        let buf := (b.peek kWriteBufferSize).2
        let ret := taken room buf.length
        (writeBufferToFd rest (b.haveRead ret)).map fun flushed =>
          { flushed with accepted := buf.take ret ++ flushed.accepted }
    else some ⟨0, b, [], answers⟩

/-- Where `WriteBufferToFd` stands between two of its atomic operations. -/
inductive Flush where
  | test
  | peek
  | write (buf : Bytes)
  | haveRead (ret : Nat)
  | returned (ret : Int)
  deriving DecidableEq, Repr

/-- One atomic operation of `WriteBufferToFd`, with the octets it handed to the
socket. `answer` is only looked at by the system call. -/
def flushStep (answer : Answer) (b : Buffer) : Flush → Option (Flush × Buffer × Bytes)
  | .test => some (if 0 < b.readableBytes then .peek else .returned 0, b, [])
  | .peek => some (.write (b.peek kWriteBufferSize).2, b, [])
  | .write buf =>
    match answer with
    | .accept room =>
      some (.haveRead (taken room buf.length), b, buf.take (taken room buf.length))
    | .fail .other => none
    | .fail _ => some (.returned (-1), b, [])
  | .haveRead ret => some (.test, b.haveRead ret, [])
  | .returned _ => none

/-! ## The uninterrupted call -/

theorem taken_le (room len : Nat) : taken room len ≤ len := Nat.min_le_right _ _

/-- Octets offered to the socket are the first unread ones. -/
theorem Valid.offered {b : Buffer} (valid : b.Valid) (room : Nat) :
    ∃ ret, taken room (b.peek kWriteBufferSize).2.length = ret ∧ ret < 2 ^ 32 ∧
      (b.peek kWriteBufferSize).2.take ret = b.unread.take ret := by
  refine ⟨_, rfl, ?_, ?_⟩
  · have bound := taken_le room (b.peek kWriteBufferSize).2.length
    rw [valid.peek_eq (show kWriteBufferSize < 2 ^ 32 by decide)] at bound ⊢
    have short := List.length_take_le kWriteBufferSize b.unread
    simp only [kWriteBufferSize] at bound short ⊢
    omega
  · rw [valid.peek_eq (show kWriteBufferSize < 2 ^ 32 by decide), List.take_take]
    congr 1
    have bound := taken_le room (b.unread.take kWriteBufferSize).length
    have short := List.length_take_le kWriteBufferSize b.unread
    dsimp only
    omega

theorem writeBufferToFd_drained {b : Buffer} (drained : ¬ 0 < b.readableBytes)
    (answers : List Answer) :
    writeBufferToFd answers b = some ⟨0, b, [], answers⟩ := by
  unfold writeBufferToFd
  rw [if_neg drained]

/-- The ways in which a call returns: nothing left to offer, a refusal, or one more
round after the socket took something. -/
theorem writeBufferToFd_cases {answers : List Answer} {b : Buffer} {flushed : Flushed}
    (returns : writeBufferToFd answers b = some flushed) :
    (¬ 0 < b.readableBytes ∧ flushed = ⟨0, b, [], answers⟩) ∨
    (0 < b.readableBytes ∧ (∃ errno, errno ≠ .other ∧ answers.headD (.fail .eagain) = .fail errno) ∧
      flushed = ⟨-1, b, [], answers.tail⟩) ∨
    (0 < b.readableBytes ∧ ∃ room rest later, answers = .accept room :: rest ∧
      writeBufferToFd rest (b.haveRead (taken room (b.peek kWriteBufferSize).2.length)) =
        some later ∧
      flushed = { later with
        accepted := (b.peek kWriteBufferSize).2.take
          (taken room (b.peek kWriteBufferSize).2.length) ++
          later.accepted }) := by
  unfold writeBufferToFd at returns
  split at returns
  · rename_i readable
    split at returns
    · cases returns
      exact .inr (.inl ⟨readable, ⟨.eagain, nofun, rfl⟩, rfl⟩)
    · cases returns
    · rename_i errno rest tolerated
      cases returns
      exact .inr (.inl ⟨readable, ⟨errno, tolerated, rfl⟩, rfl⟩)
    · rename_i room rest
      obtain ⟨later, continued, rfl⟩ := Option.map_eq_some_iff.mp returns
      exact .inr (.inr ⟨readable, room, rest, later, rfl, continued, rfl⟩)
  · rename_i drained
    cases returns
    exact .inl ⟨drained, rfl⟩

theorem Valid.readable_iff {b : Buffer} (valid : b.Valid) :
    0 < b.readableBytes ↔ b.unread ≠ [] := by
  rw [valid.readableBytes_eq, List.length_pos_iff]

/-- Effects of a completed call: what the socket took is a front part of what was
unread, the rest is still unread, and 0 is returned exactly when nothing is left. -/
structure Flushed.Effects (answers : List Answer) (b : Buffer) (flushed : Flushed) : Prop where
  valid : flushed.buffer.Valid
  octets : flushed.accepted ++ flushed.buffer.unread = b.unread
  drained : flushed.ret = 0 ↔ flushed.buffer.unread = []
  blocked : flushed.ret ≠ 0 → flushed.ret = -1
  index : flushed.buffer.writeIndex ≤ b.writeIndex
  tight : b.Tight → flushed.buffer.Tight
  used : flushed.answers <:+ answers

theorem writeBufferToFd_effects {answers : List Answer} {b : Buffer} {flushed : Flushed}
    (valid : b.Valid) (returns : writeBufferToFd answers b = some flushed) :
    flushed.Effects answers b := by
  induction answers generalizing b flushed with
  | nil =>
    rcases writeBufferToFd_cases returns with ⟨drained, rfl⟩ | ⟨readable, -, rfl⟩ |
      ⟨-, room, rest, later, impossible, -⟩
    · rw [valid.readable_iff, not_not] at drained
      exact ⟨valid, rfl, by simp [drained], fun stuck => absurd rfl stuck, Nat.le_refl _, id,
        List.suffix_refl _⟩
    · rw [valid.readable_iff] at readable
      exact ⟨valid, rfl, by simp [readable], fun _ => rfl, Nat.le_refl _, id, List.suffix_refl _⟩
    · cases impossible
  | cons answer rest ih =>
    rcases writeBufferToFd_cases returns with ⟨drained, rfl⟩ | ⟨readable, -, rfl⟩ |
      ⟨-, room, rest, later, here, returns, rfl⟩
    · rw [valid.readable_iff, not_not] at drained
      exact ⟨valid, rfl, by simp [drained], fun stuck => absurd rfl stuck, Nat.le_refl _, id,
        List.suffix_refl _⟩
    · rw [valid.readable_iff] at readable
      exact ⟨valid, rfl, by simp [readable], fun _ => rfl, Nat.le_refl _, id,
        List.suffix_cons _ _⟩
    · cases here
      obtain ⟨ret, taken, narrow, front⟩ := valid.offered room
      rw [taken] at returns
      rw [taken, front]
      have effects := ih (valid.haveRead_valid narrow) returns
      refine ⟨effects.valid, ?_, effects.drained, effects.blocked, ?_, ?_, ?_⟩
      · rw [List.append_assoc, effects.octets, valid.unread_haveRead narrow, List.take_append_drop]
      · exact Nat.le_trans effects.index (b.writeIndex_haveRead_le ret)
      · exact fun _ => effects.tight (valid.haveRead_tight narrow)
      · exact effects.used.trans (List.suffix_cons _ _)

theorem writeBufferToFd_returns {answers : List Answer} (b : Buffer)
    (tolerated : ∀ answer ∈ answers, answer.tolerated = true) :
    ∃ flushed, writeBufferToFd answers b = some flushed := by
  induction answers generalizing b with
  | nil =>
    unfold writeBufferToFd
    split <;> exact ⟨_, rfl⟩
  | cons answer rest ih =>
    have later : ∀ answer ∈ rest, answer.tolerated = true :=
      fun answer member => tolerated answer (.tail _ member)
    unfold writeBufferToFd
    split
    · cases answer with
      | accept room =>
        obtain ⟨flushed, returns⟩ :=
          ih (b.haveRead (taken room (b.peek kWriteBufferSize).2.length)) later
        simp only [returns]
        exact ⟨_, rfl⟩
      | fail errno =>
        cases errno with
        | other => cases tolerated _ (.head _)
        | _ => exact ⟨_, rfl⟩
    · exact ⟨_, rfl⟩

/-- A socket whose write side is shut down takes nothing. -/
theorem writeBufferToFd_refused {answers : List Answer} {b : Buffer} {flushed : Flushed}
    (refusing : Refusing answers) (returns : writeBufferToFd answers b = some flushed) :
    flushed.accepted = [] ∧ Refusing flushed.answers := by
  rcases writeBufferToFd_cases returns with ⟨-, rfl⟩ | ⟨-, -, rfl⟩ | ⟨-, room, rest, -, rfl, -⟩
  · exact ⟨rfl, refusing⟩
  · exact ⟨rfl, fun answer member => refusing answer (List.mem_of_mem_tail member)⟩
  · cases refusing _ (.head _)

/-- A call takes no more octets than the kernel has room for, and none of the room behind
the first refusal. -/
theorem writeBufferToFd_capacity {answers : List Answer} {b : Buffer} {flushed : Flushed}
    {most : Nat} (chunk : kWriteBufferSize ≤ most)
    (returns : writeBufferToFd answers b = some flushed) :
    flushed.buffer.readableBytes ≤ b.readableBytes ∧
      b.readableBytes ≤ flushed.buffer.readableBytes + capacity kWriteBufferSize answers ∧
      (¬ flushed.ret < 0 →
        b.readableBytes + capacity most flushed.answers ≤ capacity most answers) := by
  induction answers generalizing b flushed with
  | nil =>
    rcases writeBufferToFd_cases returns with ⟨drained, rfl⟩ | ⟨readable, -, rfl⟩ |
      ⟨-, room, rest, later, impossible, -⟩
    · exact ⟨Nat.le_refl _, Nat.le_add_right _ _, fun _ => by dsimp only; omega⟩
    · exact ⟨Nat.le_refl _, Nat.le_add_right _ _,
        fun kept => absurd (show (-1 : Int) < 0 by decide) kept⟩
    · cases impossible
  | cons answer rest ih =>
    rcases writeBufferToFd_cases returns with ⟨drained, rfl⟩ | ⟨readable, -, rfl⟩ |
      ⟨readable, room, rest, later, here, returns, rfl⟩
    · exact ⟨Nat.le_refl _, Nat.le_add_right _ _, fun _ => by dsimp only; omega⟩
    · exact ⟨Nat.le_refl _, Nat.le_add_right _ _,
        fun kept => absurd (show (-1 : Int) < 0 by decide) kept⟩
    · cases here
      obtain ⟨less, covered, remaining⟩ := ih returns
      have offered : (b.peek kWriteBufferSize).2.length ≤ kWriteBufferSize := by
        simp only [peek, List.length_take, u32, kWriteBufferSize]
        omega
      rw [readableBytes_haveRead readable] at less covered remaining
      generalize bite : taken room (b.peek kWriteBufferSize).2.length = ret
        at less covered remaining
      have small : ret ≤ min (room + 1) kWriteBufferSize := by
        rw [← bite]
        simp only [taken]
        omega
      have narrow : u32 ret = ret := by
        simp only [kWriteBufferSize] at small
        exact Nat.mod_eq_of_lt (by omega)
      rw [narrow] at less covered remaining
      dsimp only [capacity]
      refine ⟨by omega, by omega, fun kept => ?_⟩
      have := remaining kept
      omega

/-! ## Reading what has arrived -/

/-- Pieces of the sizes `read` delivers, with EAGAIN behind the last one, are
appended to what was unread. -/
theorem Valid.readBufferFromFd_data {b : Buffer} (valid : b.Valid) {chunks : List Bytes}
    (sizes : ∀ chunk ∈ chunks, 0 < chunk.length ∧ chunk.length ≤ kReadBufferSize)
    (room : b.writeIndex + chunks.flatten.length < 2 ^ 32) :
    ∃ b' : Buffer, b.readBufferFromFd (chunks.map .data) = some (-1, .eagain, b') ∧ b'.Valid ∧
      b'.unread = b.unread ++ chunks.flatten := by
  induction chunks generalizing b with
  | nil => exact ⟨b, rfl, valid, (List.append_nil _).symm⟩
  | cons chunk chunks ih =>
    obtain ⟨nonempty, short⟩ := sizes chunk (.head _)
    rw [List.flatten_cons, List.length_append] at room
    have fits : b.writeIndex + chunk.length < 2 ^ 32 := by omega
    have later : (b.write chunk).writeIndex + chunks.flatten.length < 2 ^ 32 := by
      rw [writeIndex_write fits]
      omega
    obtain ⟨b', reads, valid', unread⟩ := ih (valid.write_valid fits)
      (fun chunk member => sizes chunk (.tail _ member)) later
    refine ⟨b', ?_, valid', ?_⟩
    · rw [List.map_cons, readBufferFromFd, List.take_of_length_le short, if_neg (by omega),
        writeChars_eq_write (Nat.le_refl _), List.take_length]
      exact reads
    · rw [unread, valid.unread_write fits, List.flatten_cons, List.append_assoc]

end Buffer
end Ladder.Source
