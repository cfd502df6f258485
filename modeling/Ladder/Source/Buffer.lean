import Ladder.Library.Words

/-!
# Buffer

Source: ladder/include/Buffer.h and ladder/src/Buffer.cpp. The two indices are
`uint32_t` members, so every arithmetic step on them is taken modulo 2^32; the
storage is the `std::vector<char>` member. Each method is one atomic operation;
the mutex is not represented. `peek` reads past-the-end iterators as truncation:
`Valid` excludes them for every state a run can reach.
-/
namespace Ladder.Source
open Ladder.Library

/-- Conversion of a `size_t` to `uint32_t`, and `uint32_t` arithmetic. -/
def u32 (n : Nat) : Nat := n % 2 ^ 32

def kReadBufferSize : Nat := 1024
def kWriteBufferSize : Nat := 1024

structure Buffer where
  readIndex : Nat
  writeIndex : Nat
  buffer : Bytes
  deriving DecidableEq, Repr

namespace Buffer

def fresh : Buffer := ⟨0, 0, []⟩

def readableBytes (b : Buffer) : Nat := u32 (b.writeIndex + 2 ^ 32 - b.readIndex)

def empty (b : Buffer) : Bool := b.readIndex == b.writeIndex

/-- `Peek(size_t n, std::string& result)`: the count returned and the result. -/
def peek (n : Nat) (b : Buffer) : Nat × Bytes :=
  let readable := min (u32 n) b.readableBytes
  (readable, (b.buffer.drop b.readIndex).take readable)

/-- `Peek(char* dst, size_t n)`: the count returned and the destination after
`memcpy`; what lies behind the copied part of `dst` is untouched. -/
def peekInto (dst : Bytes) (n : Nat) (b : Buffer) : Nat × Bytes :=
  let readable := min (u32 n) b.readableBytes
  (readable, (b.buffer.drop b.readIndex).take readable ++ dst.drop readable)

def haveRead (n : Nat) (b : Buffer) : Buffer :=
  let readIndex := u32 (b.readIndex + min (u32 n) b.readableBytes)
  if b.writeIndex = readIndex then { b with readIndex := 0, writeIndex := 0 }
  else { b with readIndex := readIndex }

def read (n : Nat) (b : Buffer) : Bytes × Buffer :=
  let (readable, result) := b.peek n
  (result, b.haveRead readable)

def readAll (b : Buffer) : Bytes × Buffer := b.read (u32 (b.writeIndex + 2 ^ 32 - b.readIndex))

/-- `Write(const std::string&)`: the octets go in front of whatever the vector
still stores behind `write_index_`. -/
def write (content : Bytes) (b : Buffer) : Buffer :=
  { b with
    buffer := b.buffer.take b.writeIndex ++ content ++ b.buffer.drop b.writeIndex
    writeIndex := u32 (b.writeIndex + content.length) }

/-- `Write(const char* src, size_t len)`: `src` addresses at least `len` octets. -/
def writeChars (src : Bytes) (len : Nat) (b : Buffer) : Buffer :=
  { b with
    buffer := b.buffer.take b.writeIndex ++ src.take len ++ b.buffer.drop b.writeIndex
    writeIndex := u32 (b.writeIndex + len) }

section Words
variable (host : Endian)

def writeUInt32 (number : UInt32) (b : Buffer) : Buffer := b.writeChars (encode32 host number) 4

def readUInt32 (b : Buffer) : UInt32 × Buffer :=
  let (buf, rest) := b.read 4
  (decode32 host buf, rest)

def peekUInt32 (b : Buffer) : UInt32 := decode32 host (b.peek 4).2

end Words

/-! ## The representation invariant -/

structure Valid (b : Buffer) : Prop where
  ordered : b.readIndex ≤ b.writeIndex
  stored : b.writeIndex ≤ b.buffer.length
  fits : b.writeIndex < 2 ^ 32

/-- The slice `buffer_[read_index_, write_index_)`. -/
def unread (b : Buffer) : Bytes := (b.buffer.drop b.readIndex).take (b.writeIndex - b.readIndex)

@[simp] theorem unread_fresh : fresh.unread = [] := rfl

theorem valid_fresh : fresh.Valid := ⟨Nat.le_refl 0, Nat.le_refl 0, by decide⟩

theorem Valid.unread_length {b : Buffer} (valid : b.Valid) :
    b.unread.length = b.writeIndex - b.readIndex := by
  have := valid.ordered
  have := valid.stored
  simp only [unread, List.length_take, List.length_drop]
  omega

theorem Valid.readableBytes_eq {b : Buffer} (valid : b.Valid) :
    b.readableBytes = b.unread.length := by
  have := valid.ordered
  have := valid.fits
  rw [valid.unread_length, readableBytes, u32]
  omega

theorem Valid.empty_iff {b : Buffer} (valid : b.Valid) : b.empty = true ↔ b.unread = [] := by
  have := valid.ordered
  rw [← List.length_eq_zero_iff, valid.unread_length, empty, beq_iff_eq]
  omega

theorem Valid.unread_length_lt {b : Buffer} (valid : b.Valid) : b.unread.length < 2 ^ 32 := by
  have := valid.fits
  rw [valid.unread_length]
  omega

/-- Every peek shows the first unread octets. -/
theorem Valid.peek_eq {b : Buffer} (valid : b.Valid) {n : Nat} (narrow : n < 2 ^ 32) :
    b.peek n = (min n b.unread.length, b.unread.take n) := by
  have length := valid.unread_length
  simp only [peek, valid.readableBytes_eq, u32, Nat.mod_eq_of_lt narrow, Prod.mk.injEq, true_and]
  rw [length, unread, List.take_take]

/-- A peek at all readable octets. -/
theorem Valid.peek_all {b : Buffer} (valid : b.Valid) : (b.peek b.readableBytes).2 = b.unread := by
  rw [valid.readableBytes_eq, valid.peek_eq valid.unread_length_lt, List.take_length]

theorem Valid.peekInto_eq {b : Buffer} (valid : b.Valid) {n : Nat} (narrow : n < 2 ^ 32)
    (dst : Bytes) :
    b.peekInto dst n =
      (min n b.unread.length, b.unread.take n ++ dst.drop (min n b.unread.length)) := by
  have same := valid.peek_eq narrow
  simp only [peek, Prod.mk.injEq] at same
  simp only [peekInto, same.1, ← same.2]

theorem Valid.haveRead_valid {b : Buffer} (valid : b.Valid) {n : Nat} (narrow : n < 2 ^ 32) :
    (b.haveRead n).Valid := by
  have ordered := valid.ordered
  have stored := valid.stored
  have fits := valid.fits
  have length := valid.unread_length
  simp only [haveRead, valid.readableBytes_eq, u32, Nat.mod_eq_of_lt narrow]
  split
  · exact ⟨Nat.le_refl 0, Nat.zero_le _, Nat.two_pow_pos 32⟩
  · exact ⟨by dsimp only; omega, stored, fits⟩

/-- Consuming drops exactly the first `min n ReadableBytes()` octets, also when
the indices are reset and stale octets stay behind in the vector. -/
theorem Valid.unread_haveRead {b : Buffer} (valid : b.Valid) {n : Nat} (narrow : n < 2 ^ 32) :
    (b.haveRead n).unread = b.unread.drop n := by
  have ordered := valid.ordered
  have fits := valid.fits
  have length := valid.unread_length
  have noWrap : u32 (b.readIndex + min (u32 n) b.readableBytes) =
      b.readIndex + min n (b.writeIndex - b.readIndex) := by
    simp only [valid.readableBytes_eq, length, u32, Nat.mod_eq_of_lt narrow]
    omega
  simp only [haveRead, noWrap]
  split
  · rename_i drained
    have gone : b.unread.drop n = [] := List.drop_eq_nil_of_le (by omega)
    rw [gone]
    simp [unread]
  · rename_i remaining
    have partly : min n (b.writeIndex - b.readIndex) = n := by omega
    simp only [unread, partly, List.drop_take, List.drop_drop]
    congr 1
    omega

theorem Valid.write_valid {b : Buffer} (valid : b.Valid) {content : Bytes}
    (room : b.writeIndex + content.length < 2 ^ 32) : (b.write content).Valid := by
  have ordered := valid.ordered
  have stored := valid.stored
  simp only [write, u32, Nat.mod_eq_of_lt room]
  refine ⟨by dsimp only; omega, ?_, room⟩
  simp only [List.length_append, List.length_take, List.length_drop]
  omega

/-- Writing appends to the unread octets, wherever the insertion point lies. -/
theorem Valid.unread_write {b : Buffer} (valid : b.Valid) {content : Bytes}
    (room : b.writeIndex + content.length < 2 ^ 32) :
    (b.write content).unread = b.unread ++ content := by
  have ordered := valid.ordered
  have stored := valid.stored
  have front : (b.buffer.take b.writeIndex).length = b.writeIndex := by
    simp only [List.length_take]
    omega
  simp only [unread, write, u32, Nat.mod_eq_of_lt room, List.append_assoc]
  rw [List.drop_append_of_le_length (by omega), List.drop_take, ← List.append_assoc]
  apply List.take_left'
  simp only [List.length_append, List.length_take, List.length_drop]
  omega

/-- A drained buffer has its indices back at the start. -/
def Tight (b : Buffer) : Prop := b.unread = [] → b.writeIndex = 0

theorem tight_fresh : fresh.Tight := fun _ => rfl

theorem Valid.haveRead_tight {b : Buffer} (valid : b.Valid) {n : Nat} (narrow : n < 2 ^ 32) :
    (b.haveRead n).Tight := by
  intro drained
  have length := (valid.haveRead_valid narrow).unread_length
  have ordered := (valid.haveRead_valid narrow).ordered
  rw [drained, List.length_nil] at length
  simp only [haveRead] at length ordered ⊢
  split at length
  · rename_i reset
    rw [if_pos reset]
  · rename_i different
    rw [if_neg different] at ordered
    dsimp only at length ordered
    omega

theorem Valid.write_tight {b : Buffer} (valid : b.Valid) (tight : b.Tight) {content : Bytes}
    (room : b.writeIndex + content.length < 2 ^ 32) : (b.write content).Tight := by
  intro drained
  rw [valid.unread_write room, List.append_eq_nil_iff] at drained
  simp [write, u32, drained.2, tight drained.1]

/-- A write to a drained buffer is sound at any length: the index wraps around, and
what is left of the content is its length modulo 2^32. -/
theorem Valid.write_drained {b : Buffer} (valid : b.Valid) (tight : b.Tight)
    (drained : b.unread = []) (content : Bytes) :
    (b.write content).Valid ∧ (b.write content).Tight ∧
      (b.write content).unread = content.take (content.length % 2 ^ 32) := by
  have start : b.writeIndex = 0 := tight drained
  have front : b.readIndex = 0 := Nat.le_zero.mp (start ▸ valid.ordered)
  have short := Nat.mod_le content.length (2 ^ 32)
  have unread : (b.write content).unread = content.take (content.length % 2 ^ 32) := by
    simp only [unread, write, start, front, u32, Nat.zero_add, List.take_zero, List.nil_append,
      List.drop_zero, Nat.sub_zero]
    exact List.take_append_of_le_length short
  refine ⟨⟨?_, ?_, ?_⟩, ?_, unread⟩
  · simp only [write, front]
    exact Nat.zero_le _
  · simp only [write, start, u32, Nat.zero_add, List.take_zero, List.nil_append, List.drop_zero,
      List.length_append]
    exact Nat.le_trans short (Nat.le_add_right _ _)
  · exact Nat.mod_lt _ (by decide)
  · intro nothing
    rw [unread] at nothing
    have none := congrArg List.length nothing
    rw [List.length_take, Nat.min_eq_left short, List.length_nil] at none
    simpa only [write, start, u32, Nat.zero_add] using none

theorem writeIndex_write {b : Buffer} {content : Bytes}
    (room : b.writeIndex + content.length < 2 ^ 32) :
    (b.write content).writeIndex = b.writeIndex + content.length := Nat.mod_eq_of_lt room

/-- Consuming never moves the insertion point forward. -/
theorem writeIndex_haveRead_le (b : Buffer) (n : Nat) :
    (b.haveRead n).writeIndex ≤ b.writeIndex := by
  simp only [haveRead]
  split
  · exact Nat.zero_le _
  · exact Nat.le_refl _

theorem readableBytes_haveRead {b : Buffer} (readable : 0 < b.readableBytes) (n : Nat) :
    (b.haveRead n).readableBytes = b.readableBytes - min (u32 n) b.readableBytes := by
  unfold haveRead
  generalize consumed : min (u32 n) b.readableBytes = k
  have bound : k ≤ b.readableBytes := consumed ▸ Nat.min_le_right _ _
  dsimp only
  split
  · simp only [readableBytes, u32] at *
    omega
  · simp only [readableBytes, u32] at *
    omega

theorem written_indices (written : List Bytes) (b : Buffer) :
    (written.foldl (fun b content => b.write content) b).readIndex = b.readIndex ∧
      (written = [] ∨ (written.foldl (fun b content => b.write content) b).writeIndex =
        u32 (b.writeIndex + written.flatten.length)) := by
  induction written generalizing b with
  | nil => exact ⟨rfl, .inl rfl⟩
  | cons content rest ih =>
    obtain ⟨readIndex, writeIndex⟩ := ih (b.write content)
    refine ⟨readIndex, .inr ?_⟩
    rcases writeIndex with rfl | index
    · simp [write]
    · rw [List.foldl_cons, index]
      simp only [write, u32, List.flatten_cons, List.length_append]
      omega

/-- Octets that are unread or written leave a buffer empty only when they make up a whole
turn of the index. -/
theorem written_not_empty {b : Buffer} {written : List Bytes}
    (waiting : 0 < b.readableBytes + written.flatten.length)
    (room : b.readableBytes + written.flatten.length < 2 ^ 32) :
    (written.foldl (fun b content => b.write content) b).empty = false := by
  obtain ⟨readIndex, writeIndex⟩ := written_indices written b
  rw [empty, readIndex, beq_eq_false_iff_ne]
  intro same
  rcases writeIndex with rfl | index
  · rw [List.foldl_nil] at same
    simp [readableBytes, u32, same] at waiting
  · rw [index] at same
    simp only [readableBytes, u32, same] at waiting room
    omega

theorem writeChars_eq_write {src : Bytes} {len : Nat} (addressed : len ≤ src.length) (b : Buffer) :
    b.writeChars src len = b.write (src.take len) := by
  simp only [writeChars, write, List.length_take, Nat.min_eq_left addressed]

theorem writeUInt32_eq_write (host : Endian) (number : UInt32) (b : Buffer) :
    b.writeUInt32 host number = b.write (encode32 host number) := by
  have four := encode32_length host number
  rw [writeUInt32, writeChars_eq_write (by omega), List.take_of_length_le (by omega)]

theorem Valid.read_eq {b : Buffer} (valid : b.Valid) {n : Nat} (narrow : n < 2 ^ 32) :
    b.read n = (b.unread.take n, b.haveRead (min n b.unread.length)) := by
  simp only [read, valid.peek_eq narrow]

theorem Valid.unread_read {b : Buffer} (valid : b.Valid) {n : Nat} (narrow : n < 2 ^ 32) :
    (b.read n).2.unread = b.unread.drop n := by
  rw [valid.read_eq narrow, valid.unread_haveRead (by omega)]
  rcases Nat.le_total n b.unread.length with short | long
  · rw [Nat.min_eq_left short]
  · rw [Nat.min_eq_right long, List.drop_length, List.drop_eq_nil_of_le long]

theorem Valid.read_valid {b : Buffer} (valid : b.Valid) {n : Nat} (narrow : n < 2 ^ 32) :
    (b.read n).2.Valid := by
  rw [valid.read_eq narrow]
  exact valid.haveRead_valid (by omega)

theorem Valid.readAll_eq {b : Buffer} (valid : b.Valid) :
    b.readAll = b.read b.unread.length := by
  have same : u32 (b.writeIndex + 2 ^ 32 - b.readIndex) = b.unread.length := valid.readableBytes_eq
  rw [readAll, same]

/-- Reading everything empties the buffer. -/
theorem Valid.readAll_snd {b : Buffer} (valid : b.Valid) :
    b.readAll.2.Valid ∧ b.readAll.2.unread = [] ∧ b.readAll.2.writeIndex ≤ b.writeIndex := by
  rw [valid.readAll_eq]
  refine ⟨valid.read_valid valid.unread_length_lt, ?_, ?_⟩
  · rw [valid.unread_read valid.unread_length_lt, List.drop_length]
  · exact b.writeIndex_haveRead_le _

theorem Valid.readAll_fst {b : Buffer} (valid : b.Valid) : b.readAll.1 = b.unread := by
  rw [valid.readAll_eq, valid.read_eq valid.unread_length_lt, List.take_length]

end Buffer
end Ladder.Source
