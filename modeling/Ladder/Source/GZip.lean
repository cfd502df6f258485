import Ladder.Library.Runs
import Ladder.Library.Streams
import Ladder.Library.Words

/-!
# GZip

Source: ladder/src/GZip.cpp. zlib is a stream with windows for each direction; its `init` is
`deflateInit2` or `inflateInit2`, its `call` is `deflate` or `inflate` with the flush mode.
`Deflate` and `Inflate` are one loop over the 128-byte pieces of a string, `DeflateFile` is a
loop over what `fread` gives. A loop that is not over after the rounds given to it gives none.
-/
namespace Ladder.Source.GZip
open Ladder.Library

def kGZipBufferSize : Nat := 128
def kGZipFileBufferSize : Nat := 128 * 1024

/-- The inner loop: the stream, `next_in` up to `avail_in`, `result`, and whether the last call
left `avail_out` at zero. -/
structure Pumping (σ : Type) where
  stream : σ
  input : Bytes
  result : Bytes
  full : Bool

section
variable (z : Stream UInt8)

/-- One call, with an empty window of the given size. -/
def pumpRound (size : Nat) (finish : Bool) (s : Pumping z.State) : Pumping z.State :=
  let called := z.call s.stream s.input size finish
  { stream := called.state
    input := s.input.drop called.consumed
    result := s.result ++ called.output
    full := decide (called.output.length = size) }

/-- `while (1)` until a call leaves `avail_out` above zero. -/
def pump (rounds size : Nat) (finish : Bool) (stream : z.State) (input result : Bytes) :
    Option (Pumping z.State) :=
  whileLoop (fun s => some s.full) (fun s => some (pumpRound z size finish s)) rounds
    ⟨stream, input, result, true⟩

structure Driving (σ : Type) where
  stream : σ
  bytesFinished : Int
  result : Bytes

/-- One round of `while (bytes_finished < bytes_total)`. -/
def driveRound (rounds : Nat) (buf : Bytes) (bytesTotal : Int) (s : Driving z.State) :
    Option (Driving z.State) := do
  let availIn := min (bytesTotal - s.bytesFinished) kGZipBufferSize
  let nextIn := (buf.drop s.bytesFinished.toNat).take availIn.toNat
  let bytesFinished := s.bytesFinished + availIn
  let finish := decide (bytesTotal ≤ bytesFinished)
  let after ← pump z rounds kGZipBufferSize finish s.stream nextIn s.result
  return ⟨after.stream, bytesFinished, after.result⟩

/-- The body of `Deflate` and of `Inflate`. -/
def process (rounds : Nat) (buf : Bytes) : Option Bytes :=
  if buf.isEmpty then some []
  else
    match z.init with
    | none => some []
    | some stream =>
      (whileLoop (fun s => some (decide (s.bytesFinished < int buf.length)))
        (driveRound z rounds buf (int buf.length)) rounds ⟨stream, 0, []⟩).map Driving.result

/-- A file that `fopen` has opened: the octets ahead, and whether reading fails behind them. -/
structure File where
  rest : Bytes
  broken : Bool

structure FileDriving (σ : Type) where
  stream : σ
  file : File
  finish : Bool
  failed : Bool
  result : Bytes

/-- One round of `while (flush != Z_FINISH)`. A short count of `fread` comes with the
end-of-file or the error indicator. -/
def fileRound (rounds : Nat) (s : FileDriving z.State) : Option (FileDriving z.State) := do
  let inBuf := s.file.rest.take kGZipFileBufferSize
  let file := { s.file with rest := s.file.rest.drop kGZipFileBufferSize }
  let short := decide (inBuf.length < kGZipFileBufferSize)
  if short && file.broken then return { s with file := file, failed := true }
  else
    let after ← pump z rounds kGZipFileBufferSize short s.stream inBuf s.result
    return { s with stream := after.stream, file := file, finish := short, result := after.result }

/-- The body of `DeflateFile`; no file stands for a failed `fopen`. -/
def processFile (rounds : Nat) (file : Option File) : Option Bytes :=
  match file, z.init with
  | some file, some stream =>
    (whileLoop (fun s => some (!s.finish && !s.failed)) (fileRound z rounds) rounds
      ⟨stream, file, false, false, []⟩).map fun s => if s.failed then [] else s.result
  | _, _ => some []

end

/-- The two directions of zlib, with the parameters for gzip. -/
structure ZLib where
  deflate : Stream UInt8
  inflate : Stream UInt8

def deflate (zlib : ZLib) (rounds : Nat) (buf : Bytes) : Option Bytes :=
  process zlib.deflate rounds buf

def inflate (zlib : ZLib) (rounds : Nat) (buf : Bytes) : Option Bytes :=
  process zlib.inflate rounds buf

def deflateFile (zlib : ZLib) (rounds : Nat) (file : Option File) : Option Bytes :=
  processFile zlib.deflate rounds file

/-! ## The loops are uses of the stream -/

section
variable {z : Stream UInt8} {x : Bytes} {stream : z.State} {piece later rest result : Bytes}
  {size most rounds : Nat}

/-- Pieces have been offered up to the given rest of the input, unless the stream has ended. -/
structure Offered (z : Stream UInt8) (x : Bytes) (stream : z.State) (ahead result : Bytes) :
    Prop where
  fed : ∃ rest, z.Fed x stream rest result ∧ (rest = ahead ∨ z.ended stream = true)

/-- A piece that is not the last: the inner loop comes to an end, and the piece has been taken. -/
theorem pump_feeds (lawful : z.Lawful) (positive : 0 < size)
    (bounded : ∀ s rest out full, z.Finishing x s rest out full → out.length ≤ most)
    (offered : Offered z x stream (piece ++ later) result) (enough : most + 1 < rounds) :
    ∃ after, pump z rounds size false stream piece result = some after ∧
      Offered z x after.stream later after.result := by
  have round : ∀ s : Pumping z.State,
      (Offered z x s.stream (s.input ++ later) s.result ∧
        (s.full = false → Offered z x s.stream later s.result)) →
      some s.full = some true →
      ∃ next, some (pumpRound z size false s) = some next ∧
        (Offered z x next.stream (next.input ++ later) next.result ∧
          (next.full = false → Offered z x next.stream later next.result)) ∧
        (if next.full then most + 1 - next.result.length else 0) <
          if s.full then most + 1 - s.result.length else 0 := by
    rintro ⟨stream, input, result, full⟩ ⟨⟨rest, fed, ahead⟩, -⟩ go
    obtain rfl : full = true := Option.some.inj go
    dsimp only at fed ahead ⊢
    have short := bounded _ _ _ _ fed.finishing
    by_cases ended : z.ended stream = true
    · -- nothing happens, and room is left
      have left : decide (([] : Bytes).length = size) = false :=
        decide_eq_false (by simpa using positive.ne)
      refine ⟨_, rfl, ?_, ?_⟩
      · simp only [pumpRound, lawful.rests stream input size false ended, List.append_nil]
        exact ⟨⟨rest, fed, .inr ended⟩, fun _ => ⟨rest, fed, .inr ended⟩⟩
      · simp only [pumpRound, lawful.rests stream input size false ended, left, if_true,
          Bool.false_eq_true, if_false]
        omega
    · obtain rfl := ahead.resolve_right ended
      have onward := fed.call input.length positive
      rw [List.take_left] at onward
      have taken := lawful.takes stream input size false
      have fits := lawful.fits stream input size false
      rw [List.drop_append_of_le_length taken] at onward
      have grown := bounded _ _ _ _ onward.finishing
      rw [List.length_append] at grown
      refine ⟨_, rfl, ⟨⟨_, onward, .inl rfl⟩, ?_⟩, ?_⟩
      · intro room
        have other : (z.call stream input size false).output.length ≠ size :=
          of_decide_eq_false room
        rcases lawful.drains stream input size false (by omega) with whole | ends
        · rw [whole, List.drop_length, List.nil_append] at onward
          exact ⟨_, onward, .inl rfl⟩
        · exact ⟨_, onward, .inr ends⟩
      · by_cases filled : (z.call stream input size false).output.length = size
        · simp only [pumpRound, filled, decide_true, if_true, List.length_append]
          omega
        · simp only [pumpRound, filled, decide_false, if_true, Bool.false_eq_true, if_false]
          omega
  obtain ⟨after, ends, ⟨-, taken⟩, halted⟩ :=
    whileLoop_total _ (fun s _ => ⟨s.full, rfl⟩) round
      (s := ⟨stream, piece, result, true⟩) ⟨offered, nofun⟩
      (show (if true then most + 1 - result.length else 0) < rounds by simp only [if_true]; omega)
  exact ⟨after, ends, taken (Option.some.inj halted)⟩

/-- The last piece: the inner loop comes to an end with all of the output. -/
theorem pump_finishes (lawful : z.Lawful) (positive : 0 < size)
    (bounded : ∀ s rest out full, z.Finishing x s rest out full → out.length ≤ most)
    (offered : Offered z x stream piece result) (enough : most + 1 < rounds) :
    ∃ after, pump z rounds size true stream piece result = some after ∧ z.Makes x after.result := by
  obtain ⟨rest, fed, ahead⟩ := offered.fed
  have round : ∀ s : Pumping z.State,
      (∃ rest, z.Finishing x s.stream rest s.result s.full ∧
        (rest = s.input ∨ z.ended s.stream = true)) →
      some s.full = some true →
      ∃ next, some (pumpRound z size true s) = some next ∧
        (∃ rest, z.Finishing x next.stream rest next.result next.full ∧
          (rest = next.input ∨ z.ended next.stream = true)) ∧
        (if next.full then most + 1 - next.result.length else 0) <
          if s.full then most + 1 - s.result.length else 0 := by
    rintro ⟨stream, input, result, full⟩ ⟨rest, finishing, ahead⟩ go
    obtain rfl : full = true := Option.some.inj go
    dsimp only at finishing ahead ⊢
    have short := bounded _ _ _ _ finishing
    by_cases ended : z.ended stream = true
    · have left : decide (([] : Bytes).length = size) = false :=
        decide_eq_false (by simpa using positive.ne)
      refine ⟨_, rfl, ?_, ?_⟩
      · simp only [pumpRound, lawful.rests stream input size true ended, List.append_nil, left]
        exact ⟨rest, finishing.rest lawful ended, .inr ended⟩
      · simp only [pumpRound, lawful.rests stream input size true ended, left, if_true,
          Bool.false_eq_true, if_false]
        omega
    · obtain rfl := ahead.resolve_right ended
      have onward := finishing.call positive
      have grown := bounded _ _ _ _ onward
      rw [List.length_append] at grown
      refine ⟨_, rfl, ⟨_, onward, .inl rfl⟩, ?_⟩
      by_cases filled : (z.call stream rest size true).output.length = size
      · simp only [pumpRound, filled, decide_true, if_true, List.length_append]
        omega
      · simp only [pumpRound, filled, decide_false, if_true, Bool.false_eq_true, if_false]
        omega
  obtain ⟨after, ends, ⟨left, finished, -⟩, halted⟩ :=
    whileLoop_total _ (fun s _ => ⟨s.full, rfl⟩) round (s := ⟨stream, piece, result, true⟩)
      ⟨rest, fed.finishing, ahead⟩
      (show (if true then most + 1 - result.length else 0) < rounds by simp only [if_true]; omega)
  rw [Option.some.inj halted] at finished
  exact ⟨after, ends, _, _, finished⟩

/-! ## The drivers -/

/-- Where the loop over a string is: some of it has been offered, or all of it has. -/
structure Driving.Sound (x : Bytes) (s : Driving z.State) : Prop where
  index : ∃ f : Nat, s.bytesFinished = f ∧ f ≤ x.length ∧
    (f < x.length → Offered z x s.stream (x.drop f) s.result) ∧ (f = x.length → z.Makes x s.result)

theorem driveRound_spec (lawful : z.Lawful)
    (bounded : ∀ s rest out full, z.Finishing x s rest out full → out.length ≤ most)
    (enough : most + 1 < rounds) {s : Driving z.State} (sound : s.Sound x)
    (more : s.bytesFinished < x.length) :
    ∃ next, driveRound z rounds x x.length s = some next ∧ next.Sound x ∧
      (x.length - next.bytesFinished).toNat < (x.length - s.bytesFinished).toNat := by
  obtain ⟨stream, finished, result⟩ := s
  obtain ⟨f, eq, le, offered, -⟩ := sound.index
  dsimp only at eq more offered ⊢
  subst eq
  have ahead := offered (by omega)
  obtain ⟨n, availIn, least, most⟩ : ∃ n : Nat,
    min ((x.length : Int) - f) kGZipBufferSize = n ∧ 0 < n ∧
      f + n ≤ x.length := by
    refine ⟨(min ((x.length : Int) - f) kGZipBufferSize).toNat, ?_, ?_, ?_⟩
    · unfold kGZipBufferSize
      omega
    · unfold kGZipBufferSize
      omega
    · unfold kGZipBufferSize
      omega
  unfold driveRound
  simp only [availIn, Int.toNat_natCast]
  by_cases last : f + n = x.length
  · have whole : (x.drop f).take n = x.drop f :=
      List.take_of_length_le (by rw [List.length_drop]; omega)
    obtain ⟨after, ends, made⟩ :=
      pump_finishes lawful (show 0 < kGZipBufferSize by decide) bounded ahead enough
    have finish : decide ((x.length : Int) ≤ f + n) = true := decide_eq_true (by omega)
    refine ⟨⟨after.stream, f + n, after.result⟩, ?_,
      ⟨f + n, by dsimp only; omega, by omega, by omega, fun _ => made⟩, ?_⟩
    · rw [whole, finish, ends]
      rfl
    · dsimp only
      omega
  · have parts : x.drop f = (x.drop f).take n ++ x.drop (f + n) := by
      rw [← List.drop_drop, List.take_append_drop]
    rw [parts] at ahead
    obtain ⟨after, ends, onward⟩ :=
      pump_feeds lawful (show 0 < kGZipBufferSize by decide) bounded ahead enough
    have finish : decide ((x.length : Int) ≤ f + n) = false := decide_eq_false (by omega)
    refine ⟨⟨after.stream, f + n, after.result⟩, ?_,
      ⟨f + n, by dsimp only; omega, by omega, fun _ => onward, by omega⟩, ?_⟩
    · rw [finish, ends]
      rfl
    · dsimp only
      omega

/-- A string of ordinary size is processed to the end, whatever its relation to the windows. -/
theorem process_makes (lawful : z.Lawful) (nonempty : x ≠ []) (small : x.length < 2 ^ 31) :
    ∃ rounds result, process z rounds x = some result ∧ z.Makes x result := by
  obtain ⟨first, opened⟩ := lawful.opens
  obtain ⟨most, bounded⟩ := lawful.bounded x
  have positive := List.length_pos_iff.mpr nonempty
  have start : Driving.Sound x (⟨first, 0, []⟩ : Driving z.State) := by
    refine ⟨0, rfl, Nat.zero_le _, fun _ => ⟨x, .start opened, .inl rfl⟩, ?_⟩
    omega
  have round : ∀ s : Driving z.State, s.Sound x →
    some (decide (s.bytesFinished < x.length)) = some true →
      ∃ next, driveRound z (most + x.length + 2) x x.length s = some next ∧ next.Sound x ∧
        (x.length - next.bytesFinished).toNat < (x.length - s.bytesFinished).toNat :=
    fun s sound more =>
      driveRound_spec lawful bounded (by omega) sound (of_decide_eq_true (Option.some.inj more))
  obtain ⟨final, ends, sound, halted⟩ :=
    whileLoop_total _ (fun s _ => ⟨decide (s.bytesFinished < (x.length : Int)), rfl⟩) round start
      (show ((x.length : Int) - 0).toNat < most + x.length + 2 by omega)
  obtain ⟨f, eq, le, -, made⟩ := sound.index
  have done := of_decide_eq_false (Option.some.inj halted)
  refine ⟨most + x.length + 2, final.result, ?_, made (by omega)⟩
  rw [process, if_neg (by simpa using nonempty), opened, int_eq_of_small small]
  dsimp only
  rw [ends]
  rfl

/-- Where the loop over a file is. -/
structure FileDriving.Sound (x : Bytes) (s : FileDriving z.State) : Prop where
  intact : s.failed = false ∧ s.file.broken = false
  offered : s.finish = false → Offered z x s.stream s.file.rest s.result
  made : s.finish = true → z.Makes x s.result

theorem fileRound_spec (lawful : z.Lawful)
    (bounded : ∀ s rest out full, z.Finishing x s rest out full → out.length ≤ most)
    (enough : most + 1 < rounds) {s : FileDriving z.State} (sound : s.Sound x)
    (more : s.finish = false) :
    ∃ next, fileRound z rounds s = some next ∧ next.Sound x ∧
      (if next.finish then 0 else next.file.rest.length + 1) <
        if s.finish then 0 else s.file.rest.length + 1 := by
  obtain ⟨stream, ⟨rest, broken⟩, finish, failed, result⟩ := s
  obtain ⟨⟨unfailed, intact⟩, offered, -⟩ := sound
  dsimp only at unfailed intact offered more ⊢
  subst unfailed intact more
  have ahead := offered rfl
  unfold fileRound
  dsimp only
  rw [Bool.and_false, if_neg Bool.false_ne_true, List.length_take]
  by_cases short : rest.length < kGZipFileBufferSize
  · have whole : rest.take kGZipFileBufferSize = rest := List.take_of_length_le (by omega)
    obtain ⟨after, ends, made⟩ :=
      pump_finishes lawful (show 0 < kGZipFileBufferSize by decide) bounded ahead enough
    have finish : decide (min kGZipFileBufferSize rest.length < kGZipFileBufferSize) = true :=
      decide_eq_true (by omega)
    refine ⟨⟨after.stream, ⟨rest.drop kGZipFileBufferSize, false⟩, true, false, after.result⟩, ?_,
      ⟨⟨rfl, rfl⟩, nofun, fun _ => made⟩, ?_⟩
    · rw [whole, finish, ends]
      rfl
    · simp
  · rw [← List.take_append_drop kGZipFileBufferSize rest] at ahead
    obtain ⟨after, ends, onward⟩ :=
      pump_feeds lawful (show 0 < kGZipFileBufferSize by decide) bounded ahead enough
    have finish : decide (min kGZipFileBufferSize rest.length < kGZipFileBufferSize) = false :=
      decide_eq_false (by omega)
    refine ⟨⟨after.stream, ⟨rest.drop kGZipFileBufferSize, false⟩, false, false, after.result⟩, ?_,
      ⟨⟨rfl, rfl⟩, fun _ => onward, nofun⟩, ?_⟩
    · rw [finish, ends]
      rfl
    · simp only [Bool.false_eq_true, if_false, List.length_drop]
      unfold kGZipFileBufferSize at short ⊢
      omega

/-- Every file that can be read is processed to the end, an empty one as well. -/
theorem processFile_makes (lawful : z.Lawful) (x : Bytes) :
    ∃ rounds result, processFile z rounds (some ⟨x, false⟩) = some result ∧ z.Makes x result := by
  obtain ⟨first, opened⟩ := lawful.opens
  obtain ⟨most, bounded⟩ := lawful.bounded x
  have start : FileDriving.Sound x (⟨first, ⟨x, false⟩, false, false, []⟩ : FileDriving z.State) :=
    ⟨⟨rfl, rfl⟩, fun _ => ⟨x, .start opened, .inl rfl⟩, nofun⟩
  have round : ∀ s : FileDriving z.State, s.Sound x → some (!s.finish && !s.failed) = some true →
      ∃ next, fileRound z (most + x.length + 2) s = some next ∧ next.Sound x ∧
        (if next.finish then 0 else next.file.rest.length + 1) <
          if s.finish then 0 else s.file.rest.length + 1 := by
    intro s sound go
    refine fileRound_spec lawful bounded (by omega) sound ?_
    simpa [sound.intact.1] using go
  obtain ⟨final, ends, sound, halted⟩ :=
    whileLoop_total _ (fun s _ => ⟨!s.finish && !s.failed, rfl⟩) round start
      (show (if false then 0 else x.length + 1) < most + x.length + 2 by
        simp only [Bool.false_eq_true, if_false]; omega)
  refine ⟨most + x.length + 2, final.result, ?_,
    sound.made (by simpa [sound.intact.1] using halted)⟩
  simp only [processFile, opened, ends, Option.map_some, sound.intact.1,
    Bool.false_eq_true, if_false]

/-! ## More rounds change nothing -/

theorem pump_mono {more : Nat} (le : rounds ≤ more) {finish : Bool} {after : Pumping z.State}
    (ends : pump z rounds size finish stream piece result = some after) :
    pump z more size finish stream piece result = some after :=
  whileLoop_mono (fun _ _ => id) le ends

theorem driveRound_mono {more : Nat} (le : rounds ≤ more) {total : Int} (s next : Driving z.State)
    (stepped : driveRound z rounds x total s = some next) :
    driveRound z more x total s = some next := by
  obtain ⟨after, pumped, same⟩ := Option.bind_eq_some_iff.mp stepped
  exact Option.bind_eq_some_iff.mpr ⟨after, pump_mono le pumped, same⟩

theorem fileRound_mono {more : Nat} (le : rounds ≤ more) (s next : FileDriving z.State)
    (stepped : fileRound z rounds s = some next) : fileRound z more s = some next := by
  unfold fileRound at stepped ⊢
  dsimp only at stepped ⊢
  by_cases fails : (decide ((s.file.rest.take kGZipFileBufferSize).length < kGZipFileBufferSize) &&
      s.file.broken) = true
  · rw [if_pos fails] at stepped ⊢
    exact stepped
  · rw [if_neg fails] at stepped ⊢
    obtain ⟨after, pumped, same⟩ := Option.bind_eq_some_iff.mp stepped
    exact Option.bind_eq_some_iff.mpr ⟨after, pump_mono le pumped, same⟩

theorem process_mono (rounds more : Nat) (value : Bytes) (le : rounds ≤ more)
    (ends : process z rounds x = some value) : process z more x = some value := by
  unfold process at ends ⊢
  generalize int x.length = total at ends ⊢
  by_cases empty : x.isEmpty = true
  · rw [if_pos empty] at ends ⊢
    exact ends
  · rw [if_neg empty] at ends ⊢
    cases opened : z.init with
    | none =>
      rw [opened] at ends
      exact ends
    | some stream =>
      rw [opened] at ends
      obtain ⟨final, loop, rfl⟩ := Option.map_eq_some_iff.mp ends
      exact congrArg (Option.map Driving.result) (whileLoop_mono (driveRound_mono le) le loop)

theorem processFile_mono {file : Option File} (rounds more : Nat) (value : Bytes)
    (le : rounds ≤ more)
    (ends : processFile z rounds file = some value) : processFile z more file = some value := by
  unfold processFile at ends ⊢
  split at ends
  · obtain ⟨final, loop, rfl⟩ := Option.map_eq_some_iff.mp ends
    exact congrArg (Option.map _) (whileLoop_mono (fileRound_mono le) le loop)
  · exact ends

end

end Ladder.Source.GZip
