import Ladder.Library.Runs
import Ladder.Source.Buffer

/-!
# The storage of a buffer

`HaveRead` sets both indices back when everything has been read, but `Write` inserts at
`write_index_` and overwrites nothing. What was stored stays behind the insertion point, so
the vector holds every octet ever written, however small the backlog.
-/
namespace Ladder.Guarantees.BufferStorage
open Ladder.Library Ladder.Source

inductive Use where
  | write (content : Bytes)
  | read (n : Nat)
  | haveRead (n : Nat)
  deriving DecidableEq, Repr

def use (b : Buffer) : Use → Option Buffer
  | .write content => some (b.write content)
  | .read n => some (b.read n).2
  | .haveRead n => some (b.haveRead n)

/-- The octets written in the course of the uses. -/
def written : List Use → Nat
  | [] => 0
  | .write content :: rest => content.length + written rest
  | _ :: rest => written rest

/-- `ReadableBytes()` is at most `K` in every state. -/
def Backlog (K : Nat) (uses : List Use) : Prop :=
  Along use (fun b => b.readableBytes ≤ K) .fresh uses

/-- `buffer_.size()` and `write_index_` are at most `B` in every state. -/
def Within (B : Nat) (uses : List Use) : Prop :=
  Along use (fun b => b.buffer.length ≤ B ∧ b.writeIndex ≤ B) .fresh uses

theorem write_length (b : Buffer) (content : Bytes) :
    (b.write content).buffer.length = b.buffer.length + content.length := by
  simp only [Buffer.write, List.length_append, List.length_take, List.length_drop]
  omega

theorem haveRead_length (b : Buffer) (n : Nat) :
    (b.haveRead n).buffer.length = b.buffer.length := by
  unfold Buffer.haveRead
  dsimp only
  split
  · rfl
  · rfl

/-- A use adds what it writes to the storage, and at most that to the insertion point. -/
theorem use_spec {b next : Buffer} {act : Use} (stepped : use b act = some next) :
    next.buffer.length = b.buffer.length + written [act] ∧
      next.writeIndex ≤ b.writeIndex + written [act] := by
  cases act with
  | write content =>
    obtain rfl := Option.some.inj stepped
    exact ⟨write_length b content, Nat.mod_le _ _⟩
  | read n =>
    obtain rfl := Option.some.inj stepped
    exact ⟨haveRead_length b _, Buffer.writeIndex_haveRead_le b _⟩
  | haveRead n =>
    obtain rfl := Option.some.inj stepped
    exact ⟨haveRead_length b n, Buffer.writeIndex_haveRead_le b n⟩

theorem written_cons (act : Use) (rest : List Use) :
    written (act :: rest) = written [act] + written rest := by
  cases act with
  | write content => rfl
  | read n => exact (Nat.zero_add _).symm
  | haveRead n => exact (Nat.zero_add _).symm

/-- The storage stays within a bound exactly when what there is and what is written do. -/
theorem along_within_iff (B : Nat) (b : Buffer) (uses : List Use)
    (index : b.writeIndex ≤ b.buffer.length) :
    Along use (fun b => b.buffer.length ≤ B ∧ b.writeIndex ≤ B) b uses ↔
      b.buffer.length + written uses ≤ B := by
  induction uses generalizing b with
  | nil =>
    show _ ∧ _ ↔ b.buffer.length + 0 ≤ B
    omega
  | cons act rest ih =>
    obtain ⟨next, stepped⟩ : ∃ next, use b act = some next := by
      cases act <;> exact ⟨_, rfl⟩
    obtain ⟨size, moved⟩ := use_spec stepped
    have later := ih next (by omega)
    rw [written_cons]
    simp only [Along, stepped, later]
    omega

/-- Whatever backlog is allowed: the storage is bounded over a class of runs exactly when the
number of octets written is, and then by the same number. -/
theorem storage_bounded_iff (K : Nat) (allowed : List Use → Prop) :
    (∃ B, ∀ uses, allowed uses → Backlog K uses → Within B uses) ↔
      ∃ B, ∀ uses, allowed uses → Backlog K uses → written uses ≤ B := by
  refine exists_congr fun B => forall₃_congr fun uses _ _ => ?_
  have whole := along_within_iff B .fresh uses (Nat.le_refl 0)
  rwa [show (Buffer.fresh.buffer.length + written uses) = written uses from Nat.zero_add _] at whole

/-! ## Two long runs -/

/-- Writing an octet and reading an octet, over and over. -/
def rounds : Nat → List Use
  | 0 => []
  | n + 1 => .write [0] :: .haveRead 1 :: rounds n

theorem written_rounds (n : Nat) : written (rounds n) = n := by
  induction n with
  | zero => rfl
  | succ n ih =>
    show 1 + written (rounds n) = n + 1
    omega

theorem readableBytes_gap (r d : Nat) (stored : Bytes) (narrow : d < 2 ^ 32) :
    (Buffer.mk r (r + d) stored).readableBytes = d := by
  simp only [Buffer.readableBytes, u32]
  omega

theorem use_write_octet (r w : Nat) (stored : Bytes) (room : w + 1 < 2 ^ 32) :
    ∃ stored', use ⟨r, w, stored⟩ (.write [0]) = some ⟨r, w + 1, stored'⟩ := by
  refine ⟨stored.take w ++ [0] ++ stored.drop w, ?_⟩
  have index : u32 (w + 1) = w + 1 := Nat.mod_eq_of_lt room
  simp only [use, Buffer.write, List.length_cons, List.length_nil, Nat.zero_add, index]

/-- An octet is taken; the indices go back if it was the last. -/
theorem use_haveRead_octet (r d : Nat) (stored : Bytes) (narrow : r + d + 1 < 2 ^ 32) :
    use ⟨r, r + (d + 1), stored⟩ (.haveRead 1) =
      some (if d = 0 then ⟨0, 0, stored⟩ else ⟨r + 1, r + (d + 1), stored⟩) := by
  have moved : u32 (r + min (u32 1) (d + 1)) = r + 1 := by
    simp only [u32]
    omega
  have taken : use ⟨r, r + (d + 1), stored⟩ (.haveRead 1) =
      some (Buffer.haveRead 1 ⟨r, r + (d + 1), stored⟩) := rfl
  rw [taken, Buffer.haveRead, readableBytes_gap r (d + 1) stored (by omega)]
  dsimp only
  rw [moved]
  by_cases last : d = 0
  · rw [if_pos last, if_pos (by omega)]
  · rw [if_neg last, if_neg (by omega)]

/-- From a drained buffer every octet is read before the next is written. -/
theorem rounds_backlog (n : Nat) (stored : Bytes) :
    Along use (fun b => b.readableBytes ≤ 1) ⟨0, 0, stored⟩ (rounds n) := by
  have none (stored : Bytes) : (Buffer.mk 0 0 stored).readableBytes ≤ 1 :=
    Nat.le_of_lt (Nat.lt_succ_of_le (Nat.le_of_eq (readableBytes_gap 0 0 stored (by decide))))
  induction n generalizing stored with
  | zero => exact none stored
  | succ n ih =>
    obtain ⟨stored', wrote⟩ := use_write_octet 0 0 stored (by decide)
    have took := use_haveRead_octet 0 0 stored' (by decide)
    refine ⟨none stored, ?_⟩
    rw [wrote]
    refine ⟨Nat.le_of_eq (readableBytes_gap 0 1 stored' (by decide)), ?_⟩
    rw [took]
    exact ih stored'

/-- With an octet left over the buffer is never drained and the indices only grow. -/
theorem rounds_trailing (n r : Nat) (stored : Bytes) (room : r + n + 1 < 2 ^ 32) :
    Along use (fun b => b.readableBytes ≤ 2) ⟨r, r + 1, stored⟩ (rounds n) ∧
      ∃ stored', run use ⟨r, r + 1, stored⟩ (rounds n) = some ⟨r + n, r + n + 1, stored'⟩ := by
  have one : (Buffer.mk r (r + 1) stored).readableBytes ≤ 2 := by
    rw [readableBytes_gap r 1 stored (by decide)]
    decide
  induction n generalizing r stored with
  | zero => exact ⟨one, stored, rfl⟩
  | succ n ih =>
    obtain ⟨content, wrote⟩ := use_write_octet r (r + 1) stored (by omega)
    have took := use_haveRead_octet r 1 content (by omega)
    rw [if_neg (by decide)] at took
    have two : (Buffer.mk r (r + 2) content).readableBytes = 2 :=
      readableBytes_gap r 2 content (by decide)
    have left : (Buffer.mk (r + 1) (r + 1 + 1) content).readableBytes ≤ 2 := by
      rw [readableBytes_gap (r + 1) 1 content (by decide)]
      decide
    obtain ⟨along, stored', reached⟩ := ih (r + 1) content (by omega) left
    refine ⟨⟨one, ?_⟩, stored', ?_⟩
    · rw [wrote]
      refine ⟨Nat.le_of_eq two, ?_⟩
      rw [took]
      exact along
    · rw [show r + (n + 1) = r + 1 + n by omega, ← reached]
      simp only [rounds, run, wrote, took]

/-- No bound on the storage holds for a backlog of one octet; with a backlog of two the 32-bit
insertion point passes its end and falls behind the reading point. -/
theorem drained_storage_grows :
    (¬ ∃ B, ∀ uses, Backlog 1 uses → Within B uses) ∧
      ∃ uses full, Backlog 2 uses ∧ run use .fresh uses = some full ∧
        (full.write [0]).readableBytes = 2 ∧ (full.write [0]).writeIndex < full.readIndex := by
  constructor
  · rintro ⟨B, bounded⟩
    have within := bounded (rounds (B + 1)) (rounds_backlog (B + 1) [])
    have size := (along_within_iff _ _ _ (Nat.le_refl 0)).mp within
    rw [written_rounds] at size
    have empty : Buffer.fresh.buffer.length = 0 := rfl
    omega
  · obtain ⟨n, last⟩ : ∃ n, n + 2 = 2 ^ 32 := ⟨2 ^ 32 - 2, by decide⟩
    obtain ⟨stored, wrote⟩ := use_write_octet 0 0 [] (by decide)
    obtain ⟨along, stored', reached⟩ := rounds_trailing n 0 stored (by omega)
    have wrapped : (Buffer.write [0] ⟨0 + n, 0 + n + 1, stored'⟩).writeIndex = 0 := by
      simp only [Buffer.write, u32, List.length_cons, List.length_nil]
      omega
    refine ⟨.write [0] :: rounds n, ⟨0 + n, 0 + n + 1, stored'⟩, ⟨by decide, ?_⟩, ?_, ?_, ?_⟩
    · rw [show use Buffer.fresh (.write [0]) = _ from wrote]
      exact along
    · rw [run, show use Buffer.fresh (.write [0]) = _ from wrote]
      exact reached
    · rw [Buffer.readableBytes, wrapped]
      simp only [Buffer.write, u32]
      omega
    · rw [wrapped]
      dsimp only
      omega

end Ladder.Guarantees.BufferStorage
