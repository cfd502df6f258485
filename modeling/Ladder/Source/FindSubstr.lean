import Ladder.Library.Occurrences
import Ladder.Library.Runs
import Ladder.Library.Words

/-!
# FindSubstr

Source: `FindSubstr` of ladder/src/utils.cpp. The three loops run on `int`s and on the
cells of `next`, which hold nothing before they are written. A result that leaves the range
of an `int`, an index outside a string or the table and a cell that is read too early are
undefined and give none here, as does a loop that is not over after the rounds given to it.
-/
namespace Ladder.Source
open Ladder.Library

/-- The value of an `int` expression. -/
def inInt (n : Int) : Option Int := if -2 ^ 31 ≤ n ∧ n < 2 ^ 31 then some n else none

/-- `str[i]` for a `std::string`, which has a NUL at `size()`. -/
def charAt (str : Bytes) (i : Int) : Option UInt8 := if 0 ≤ i then (str ++ [0])[i.toNat]? else none

/-- `a[i] == b[j]`. -/
def equalAt (a : Bytes) (i : Int) (b : Bytes) (j : Int) : Option Bool :=
  do return (← charAt a i) == (← charAt b j)

abbrev Cells := List (Option Int)

def Cells.read (next : Cells) (i : Int) : Option Int := if 0 ≤ i then next[i.toNat]?.join else none

def Cells.write (next : Cells) (i value : Int) : Option Cells :=
  if 0 ≤ i ∧ i < next.length then some (next.set i.toNat (some value)) else none

namespace FindSubstr

/-- The inner loop: `while (tmp >= 0 && pat[tmp] == pat[i]) tmp = next[tmp]`. -/
def fallBack (pat : Bytes) (next : Cells) (i tmp : Int) : Option Int :=
  whileLoop (fun tmp => if 0 ≤ tmp then equalAt pat tmp pat i else some false) next.read
    (pat.length + 2) tmp

structure Building where
  t : Int
  i : Int
  next : Cells
  deriving DecidableEq, Repr

/-- `t < 0 || pat[t] == pat[i]`. -/
def buildMeets (pat : Bytes) (s : Building) : Option Bool :=
  if s.t < 0 then some true else equalAt pat s.t pat s.i

/-- One round of the loop that fills `next`. -/
def buildRound (pat : Bytes) (s : Building) : Option Building := do
  if ← buildMeets pat s then
    let i ← inInt (s.i + 1)
    let t ← inInt (s.t + 1)
    let tmp ← fallBack pat s.next i t
    return ⟨t, i, ← s.next.write i tmp⟩
  else
    return { s with t := ← s.next.read s.t }

def build (pat : Bytes) (len2 : Int) (next : Cells) : Option Building :=
  whileLoop (fun s => some (decide (s.i < len2))) (buildRound pat)
    (2 * pat.length + 1) ⟨-1, 0, next⟩

structure Searching where
  i : Int
  j : Int
  positions : List Int
  deriving DecidableEq, Repr

/-- `j < len2 && (j < 0 || str[i + j] == pat[j])`. -/
def searchMeets (str pat : Bytes) (len2 : Int) (s : Searching) : Option Bool :=
  if s.j < len2 then
    if s.j < 0 then some true else do equalAt str (← inInt (s.i + s.j)) pat s.j
  else some false

/-- One round of the search. -/
def searchRound (str pat : Bytes) (len2 : Int) (next : Cells) (s : Searching) :
    Option Searching := do
  if ← searchMeets str pat len2 s then
    return { s with j := ← inInt (s.j + 1) }
  else
    let positions := if s.j = len2 then s.positions ++ [s.i] else s.positions
    let back ← next.read s.j
    return ⟨← inInt (s.i + (← inInt (s.j - back))), back, positions⟩

/-- `i + len2 <= len1 && j <= len2`. -/
def searchGoesOn (len1 len2 : Int) (s : Searching) : Option Bool :=
  do return decide ((← inInt (s.i + len2)) ≤ len1) && decide (s.j ≤ len2)

def search (str pat : Bytes) (len1 len2 : Int) (next : Cells) : Option Searching :=
  whileLoop (searchGoesOn len1 len2) (searchRound str pat len2 next) (2 * str.length + 2) ⟨0, 0, []⟩

end FindSubstr

open FindSubstr in
def findSubstr (str pat : Bytes) : Option (List Int) := do
  let len1 := int str.length
  let len2 := int pat.length
  let size ← inInt (1 + len2)
  let next ← Cells.write (List.replicate size.toNat none) 0 (-1)
  let built ← build pat len2 next
  let found ← search str pat len1 len2 built.next
  return found.positions

namespace FindSubstr

/-! ## Letters and cells -/

theorem inInt_eq_some {n m : Int} (fits : inInt n = some m) : m = n ∧ -2 ^ 31 ≤ n ∧ n < 2 ^ 31 := by
  unfold inInt at fits
  split at fits
  · next range => exact ⟨(Option.some.inj fits).symm, range⟩
  · cases fits

theorem inInt_of_range {n : Int} (low : -2 ^ 31 ≤ n) (high : n < 2 ^ 31) : inInt n = some n :=
  if_pos ⟨low, high⟩

theorem charAt_eq (str : Bytes) (i : Nat) : charAt str i = (str ++ [0])[i]? := by
  simp [charAt]

theorem equalAt_eq {a b : Bytes} {i j : Nat} (first : i ≤ a.length) (second : j ≤ b.length) :
    equalAt a i b j = some (decide ((a ++ [0])[i]? = (b ++ [0])[j]?)) := by
  have inside (c : Bytes) (k : Nat) (le : k ≤ c.length) : ∃ x, (c ++ [0])[k]? = some x :=
    Option.isSome_iff_exists.mp (by simpa using Nat.lt_succ_of_le le)
  obtain ⟨x, left⟩ := inside a i first
  obtain ⟨y, right⟩ := inside b j second
  rw [equalAt, charAt_eq, charAt_eq, left, right]
  simp [beq_eq_decide]

section
variable {next : Cells}

theorem write_inside {k : Nat} (inside : k < next.length) (value : Int) :
    next.write k value = some (next.set k (some value)) := by
  simp [Cells.write, inside]

theorem read_set_same {k : Nat} (inside : k < next.length) (value : Int) :
    Cells.read (next.set k (some value)) k = some value := by
  simp [Cells.read, inside]

theorem read_set_other {k l : Nat} (other : l ≠ k) (value : Int) :
    Cells.read (next.set k (some value)) l = next.read l := by
  simp [Cells.read, List.getElem?_set_ne other.symm]

end

/-! ## The table -/

/-- The cells up to `i` hold the fallbacks of the pattern with its terminator. -/
structure Filled (pat : Bytes) (i : Nat) (next : Cells) : Prop where
  size : next.length = pat.length + 1
  cells : ∀ k ≤ i, ∃ n, next.read (k : Nat) = some n ∧ Fallback (pat ++ [0]) k n

section
variable {pat : Bytes} {i : Nat} {next : Cells} {t : Int}

theorem Filled.write {n : Int} (filled : Filled pat i next) (bound : i < pat.length)
    (fallback : Fallback (pat ++ [0]) (i + 1) n) :
    Filled pat (i + 1) (next.set (i + 1) (some n)) := by
  have size := filled.size
  refine ⟨by rw [List.length_set, size], ?_⟩
  intro k le
  rcases Nat.lt_or_eq_of_le le with below | rfl
  · rw [read_set_other (by omega)]
    exact filled.cells k (by omega)
  · exact ⟨n, read_set_same (by omega) n, fallback⟩

/-- Where the inner loop can be: at the borders of the first `i + 1` letters, those passed
followed by the letter after these. -/
abbrev Falls (pat : Bytes) (i : Nat) (tmp : Int) : Prop :=
  Trail (pat ++ [0]) (i + 1) (fun b => (pat ++ [0])[b]? = (pat ++ [0])[i + 1]?) tmp

theorem Falls.index {tmp : Int} (falls : Falls pat i tmp) (nonneg : 0 ≤ tmp) :
    ∃ b : Nat, tmp = b ∧ b ≤ i := by
  have below := falls.lt (Nat.succ_pos i)
  exact ⟨tmp.toNat, by omega, by omega⟩

theorem fallBack_round {tmp : Int} (filled : Filled pat i next) (bound : i < pat.length)
    (falls : Falls pat i tmp)
    (go : (if 0 ≤ tmp then equalAt pat tmp pat (i + 1 : Nat) else some false) = some true) :
    ∃ n, next.read tmp = some n ∧ Falls pat i n ∧ (n + 1).toNat < (tmp + 1).toNat := by
  by_cases nonneg : 0 ≤ tmp
  · rw [if_pos nonneg] at go
    obtain ⟨b, rfl, le⟩ := falls.index nonneg
    rw [equalAt_eq (by omega) (by omega)] at go
    have letter := of_decide_eq_true (Option.some.inj go)
    obtain ⟨n, cell, fallback⟩ := filled.cells b le
    have lower := fallback.lt
    exact ⟨n, cell, falls.fall letter (fun c same => same.trans letter) fallback, by omega⟩
  · rw [if_neg nonneg] at go
    cases go

/-- The inner loop finds the fallback of `i + 1`, from any border on. -/
theorem fallBack_spec (filled : Filled pat i next) (bound : i < pat.length)
    (start : Falls pat i t) :
    ∃ n, fallBack pat next (i + 1 : Nat) t = some n ∧ Fallback (pat ++ [0]) (i + 1) n := by
  have defined : ∀ tmp, Falls pat i tmp →
      ∃ go, (if 0 ≤ tmp then equalAt pat tmp pat (i + 1 : Nat) else some false) = some go := by
    intro tmp falls
    split
    · obtain ⟨b, rfl, le⟩ := falls.index ‹_›
      exact ⟨_, equalAt_eq (by omega) (by omega)⟩
    · exact ⟨_, rfl⟩
  have low := start.low
  have top := start.lt (Nat.succ_pos i)
  obtain ⟨n, ends, falls, halted⟩ :=
    whileLoop_total (fun tmp => (tmp + 1).toNat) defined
      (fun _ => fallBack_round filled bound) start
      (show (t + 1).toNat < pat.length + 2 by omega)
  refine ⟨n, ends, falls, ?_⟩
  rintro b rfl
  obtain ⟨c, same, le⟩ := falls.index (Int.natCast_nonneg b)
  rw [if_pos (Int.natCast_nonneg b), equalAt_eq (by omega) (by omega)] at halted
  exact of_decide_eq_false (Option.some.inj halted)

/-- The state of the loop that fills the table: `t` runs through the borders of the first `i`
letters and those passed cannot be extended by the next letter. -/
structure Building.Sound (pat : Bytes) (s : Building) : Prop where
  index : ∃ i : Nat, s.i = i ∧ i ≤ pat.length ∧ Filled pat i s.next ∧
    Trail (pat ++ [0]) i (fun b => (pat ++ [0])[b]? ≠ (pat ++ [0])[i]?) s.t

/-- The letter after a border of length `t` is compared with the letter after the prefix. -/
theorem buildMeets_spec (next : Cells) (low : -1 ≤ t) (top : t ≤ pat.length) (le : i ≤ pat.length) :
    ∃ same, buildMeets pat ⟨t, i, next⟩ = some same ∧
      (same = true → ∀ b : Nat, t = b → (pat ++ [0])[b]? = (pat ++ [0])[i]?) ∧
      (same = false → ∃ b : Nat, t = b ∧ (pat ++ [0])[b]? ≠ (pat ++ [0])[i]?) := by
  by_cases negative : t < 0
  · exact ⟨true, if_pos negative, fun _ b eq => by omega, nofun⟩
  · obtain ⟨b, rfl⟩ := Int.eq_ofNat_of_zero_le (Int.not_lt.mp negative)
    refine ⟨_, (if_neg negative).trans (equalAt_eq (by omega) le), ?_, ?_⟩
    · intro same c eq
      rw [← Int.natCast_inj.mp eq]
      exact of_decide_eq_true same
    · intro other
      exact ⟨b, rfl, of_decide_eq_false other⟩

theorem Building.Sound.trail_le {s : Building} (sound : s.Sound pat) : -1 ≤ s.t ∧ s.t ≤ s.i := by
  obtain ⟨i, eq, -, -, trail⟩ := sound.index
  have low := trail.low
  refine ⟨low, ?_⟩
  by_contra beyond
  have := (trail.border s.t.toNat (by omega)).1
  omega

theorem buildRound_spec {s : Building} (small : pat.length < 2 ^ 31 - 1) (sound : s.Sound pat)
    (more : s.i < pat.length) :
    ∃ s', buildRound pat s = some s' ∧ s'.Sound pat ∧
      (2 * (pat.length - s'.i) + (s'.t + 1)).toNat <
        (2 * (pat.length - s.i) + (s.t + 1)).toNat := by
  obtain ⟨t, index, next⟩ := s
  obtain ⟨i, eq, le, filled, trail⟩ := sound.index
  dsimp only at eq more filled trail ⊢
  subst eq
  obtain ⟨low, top⟩ := sound.trail_le
  dsimp only at low top
  obtain ⟨same, compared, meets, misses⟩ := buildMeets_spec next low (by omega) le
  cases same with
  | true =>
    have onward (passed : Nat → Prop) := trail.extend (meets rfl) passed
    obtain ⟨n, fell, fallback⟩ := fallBack_spec filled (by omega) (onward _)
    have wrote := write_inside (show i + 1 < next.length by have := filled.size; omega) n
    refine ⟨⟨t + 1, (i + 1 : Nat), next.set (i + 1) (some n)⟩, ?_,
      ⟨i + 1, rfl, by omega, ?_, onward _⟩, ?_⟩
    · rw [Int.natCast_succ] at fell wrote
      simp only [buildRound, compared,
        inInt_of_range (show -2 ^ 31 ≤ (i : Int) + 1 by omega) (by omega),
        inInt_of_range (show -2 ^ 31 ≤ t + 1 by omega) (by omega), fell, wrote, Option.bind_eq_bind,
        Option.bind_some, if_true, Option.pure_def, Int.natCast_succ]
    · exact filled.write (by omega) fallback
    · dsimp only
      omega
  | false =>
    obtain ⟨b, rfl, differs⟩ := misses rfl
    obtain ⟨n, cell, fallback⟩ := filled.cells b (by omega)
    have lower := fallback.lt
    have fallen := trail.fall differs (fun c same => same ▸ differs) fallback
    refine ⟨⟨n, i, next⟩, ?_, ⟨i, rfl, le, filled, fallen⟩, ?_⟩
    · simp only [buildRound, compared, cell, Option.bind_eq_bind, Option.bind_some,
        Bool.false_eq_true, if_false, Option.pure_def]
    · have := fallen.low
      dsimp only
      omega

/-- `next` behind `next[0] = -1`. -/
def firstCell (pat : Bytes) : Cells := (List.replicate (pat.length + 1) none).set 0 (some (-1))

theorem sound_start (pat : Bytes) : Building.Sound pat ⟨-1, 0, firstCell pat⟩ := by
  refine ⟨0, rfl, Nat.zero_le _, ⟨by simp [firstCell], ?_⟩, Int.le_refl _, ?_, ?_⟩
  · intro k le
    obtain rfl := Nat.le_zero.mp le
    exact ⟨-1, read_set_same (by simp) (-1), fallback_zero _⟩
  · intro b eq
    dsimp only at eq
    omega
  · intro b border
    exact absurd border.1 (Nat.not_lt_zero b)

/-- The table is filled within the rounds. -/
theorem build_spec (small : pat.length < 2 ^ 31 - 1) :
    ∃ s, build pat pat.length (firstCell pat) = some s ∧ Filled pat pat.length s.next := by
  have round : ∀ s, Building.Sound pat s → some (decide (s.i < pat.length)) = some true →
      ∃ s', buildRound pat s = some s' ∧ Building.Sound pat s' ∧
        (2 * (pat.length - s'.i) + (s'.t + 1)).toNat < (2 * (pat.length - s.i) + (s.t + 1)).toNat :=
    fun s sound more => buildRound_spec small sound (of_decide_eq_true (Option.some.inj more))
  obtain ⟨s, ends, sound, halted⟩ :=
    whileLoop_total _ (fun s _ => ⟨decide (s.i < (pat.length : Int)), rfl⟩) round (sound_start pat)
      (show (2 * ((pat.length : Int) - 0) + (-1 + 1)).toNat < 2 * pat.length + 1 by omega)
  obtain ⟨i, eq, le, whole, -⟩ := sound.index
  have done := of_decide_eq_false (Option.some.inj halted)
  obtain rfl : i = pat.length := by omega
  exact ⟨s, ends, whole⟩

end

/-! ## The search

`str` may be longer than its size as an `int` says; `seen` is the part the search looks at. -/

/-- `j` letters match at `i`. -/
structure Searching.Tracks (seen pat : Bytes) (s : Searching) : Prop where
  index : ∃ i : Nat, s.i = i ∧ i ≤ seen.length + 1 ∧ ∀ j : Nat, s.j = j → Matches pat seen i j
  low : -1 ≤ s.j
  high : s.j ≤ pat.length

/-- What a round does: it goes on to the next letter, or it leaves a position at which the
first `k` letters match and no more, to a border of these. -/
inductive Searching.Advances (seen pat : Bytes) (s s' : Searching) : Prop
  | letter (stays : s'.i = s.i) (further : s'.j = s.j + 1) (same : s'.positions = s.positions)
  | leaves {i k : Nat} {n : Int} (here : s.i = i) (matched : Matches pat seen i k)
      (inside : k ≤ pat.length) (mismatch : k < pat.length → seen[i + k]? ≠ pat[k]?)
      (fallback : Fallback (pat ++ [0]) k n) (onward : s'.i = i + (k - n))
      (positions : s'.positions = if k = pat.length then s.positions ++ [s.i] else s.positions)

/-- What falls with every round. -/
def Searching.ahead (seen : Bytes) (s : Searching) : Nat :=
  (2 * seen.length + 1 - (2 * s.i + s.j)).toNat

section
variable {str seen pat : Bytes} {next : Cells} {i : Nat} {j : Int} {s s' : Searching}

/-- The test of a round, in range: it fails at the end of the pattern or at a mismatch. -/
theorem searchMeets_spec (view : seen <+: str) (room : i + pat.length ≤ seen.length)
    (narrow : seen.length < 2 ^ 31) (low : -1 ≤ j) (high : j ≤ pat.length) (positions : List Int) :
    ∃ same, searchMeets str pat pat.length ⟨i, j, positions⟩ = some same ∧
      (same = true → j < pat.length ∧ ∀ k : Nat, j = k → seen[i + k]? = pat[k]?) ∧
      (same = false → ∃ k : Nat, j = k ∧ (k < pat.length → seen[i + k]? ≠ pat[k]?)) := by
  have shorter := view.length_le
  unfold searchMeets
  dsimp only
  by_cases short : j < pat.length
  · rw [if_pos short]
    by_cases negative : j < 0
    · rw [if_pos negative]
      exact ⟨true, rfl, fun _ => ⟨short, fun k eq => by omega⟩, nofun⟩
    · obtain ⟨k, rfl⟩ := Int.eq_ofNat_of_zero_le (Int.not_lt.mp negative)
      have here : inInt (i + k : Int) = some ((i + k : Nat) : Int) := by
        rw [inInt_of_range (by omega) (by omega), Int.natCast_add]
      have letters : (str ++ [0])[i + k]? = (pat ++ [0])[k]? ↔ seen[i + k]? = pat[k]? := by
        obtain ⟨rest, rfl⟩ := view
        rw [List.getElem?_append_left (by omega), List.getElem?_append_left (by omega),
          List.getElem?_append_left (by omega)]
      rw [if_neg negative, here, Option.bind_eq_bind, Option.bind_some,
        equalAt_eq (by omega) (by omega)]
      refine ⟨_, rfl, ?_, ?_⟩
      · intro same
        refine ⟨short, fun c eq => ?_⟩
        rw [← Int.natCast_inj.mp eq]
        exact letters.mp (of_decide_eq_true same)
      · intro other
        exact ⟨k, rfl, fun _ => mt letters.mpr (of_decide_eq_false other)⟩
  · rw [if_neg short]
    exact ⟨false, rfl, nofun, fun _ => ⟨j.toNat, by omega, by omega⟩⟩

theorem searchRound_back {len2 back d : Int} (differs : searchMeets str pat len2 s = some false)
    (cell : next.read s.j = some back) (distance : inInt (s.j - back) = some d) :
    searchRound str pat len2 next s = (inInt (s.i + d)).map fun onward =>
      ⟨onward, back, if s.j = len2 then s.positions ++ [s.i] else s.positions⟩ := by
  simp only [searchRound, differs, cell, distance, Option.bind_eq_bind, Option.bind_some,
    Bool.false_eq_true, if_false, Option.pure_def, Option.map_eq_bind]
  rfl

/-- A round in range: it fails only if the next position does not fit an `int`. -/
theorem searchRound_cases (view : seen <+: str) (filled : Filled pat pat.length next)
    (small : pat.length < 2 ^ 31 - 1) (narrow : seen.length < 2 ^ 31) (tracks : s.Tracks seen pat)
    (room : s.i + pat.length ≤ seen.length) :
    (∃ s', searchRound str pat pat.length next s = some s' ∧ s.Advances seen pat s' ∧
        s'.Tracks seen pat ∧ s'.ahead seen < s.ahead seen) ∨
      searchRound str pat pat.length next s = none ∧ seen.length + 1 = 2 ^ 31 := by
  obtain ⟨index, j, positions⟩ := s
  obtain ⟨⟨i, eq, bound, matched⟩, low, high⟩ := tracks
  dsimp only at eq room matched low high
  subst eq
  obtain ⟨same, compared, meets, misses⟩ :=
    searchMeets_spec (i := i) view (by omega) narrow low high positions
  cases same with
  | true =>
    obtain ⟨short, letter⟩ := meets rfl
    have fits := inInt_of_range (show -2 ^ 31 ≤ j + 1 by omega) (by omega)
    refine .inl ⟨⟨i, j + 1, positions⟩, ?_, .letter rfl rfl rfl, ⟨⟨i, rfl, bound, ?_⟩, ?_, ?_⟩, ?_⟩
    · simp only [searchRound, compared, fits, Option.bind_eq_bind, Option.bind_some, if_true,
        Option.pure_def]
    · intro k eq
      dsimp only at eq
      cases k with
      | zero => exact nofun
      | succ k => exact (matched k (by omega)).succ (letter k (by omega))
    · dsimp only
      omega
    · dsimp only
      omega
    · simp only [Searching.ahead]
      omega
  | false =>
    obtain ⟨k, rfl, mismatch⟩ := misses rfl
    obtain ⟨n, cell, fallback⟩ := filled.cells k (by omega)
    have bottom := fallback.trail.low
    have lower := fallback.lt
    -- `i` moves on by `k - n`
    obtain ⟨shift, apart⟩ : ∃ shift : Nat, (k : Int) - n = shift := ⟨(k - n).toNat, by omega⟩
    have distance : inInt ((k : Int) - n) = some (shift : Int) := by
      rw [apart, inInt_of_range (by omega) (by omega)]
    have whole := searchRound_back (s := ⟨i, k, positions⟩) compared cell distance
    dsimp only at whole
    by_cases fits : (i : Int) + shift < 2 ^ 31
    · rw [inInt_of_range (by omega) fits, Option.map_some] at whole
      refine .inl ⟨_, whole, .leaves rfl (matched k rfl) (by omega) mismatch fallback ?_ ?_,
        ⟨⟨i + shift, by dsimp only; omega, by omega, ?_⟩, bottom, by dsimp only; omega⟩, ?_⟩
      · dsimp only
        omega
      · dsimp only
        simp only [Int.natCast_inj]
      · intro c eq
        dsimp only at eq
        subst eq
        have border := (border_append_iff (by omega)).mp (fallback.trail.border c rfl)
        have onward := (matched k rfl).shift border
        rwa [show k - c = shift by omega] at onward
      · simp only [Searching.ahead]
        omega
    · have past : inInt ((i : Int) + shift) = none := if_neg (by omega)
      rw [past] at whole
      exact .inr ⟨whole, by omega⟩

theorem tracks_start (seen pat : Bytes) : Searching.Tracks seen pat ⟨0, 0, []⟩ := by
  refine ⟨⟨0, rfl, Nat.zero_le _, ?_⟩, by decide, Int.natCast_nonneg _⟩
  intro j eq
  obtain rfl := Int.natCast_inj.mp eq
  exact nofun

theorem searchGoesOn_eq (tracks : s.Tracks seen pat) (fits : s.i + pat.length < 2 ^ 31) :
    searchGoesOn seen.length pat.length s = some (decide (s.i + pat.length ≤ seen.length)) := by
  obtain ⟨i, eq, -⟩ := tracks.index
  rw [searchGoesOn, inInt_of_range (by omega) fits]
  simp [tracks.high]

theorem searchGoesOn_room {len1 len2 : Int} (go : searchGoesOn len1 len2 s = some true) :
    s.i + len2 ≤ len1 := by
  obtain ⟨sum, fits, test⟩ := Option.bind_eq_some_iff.mp go
  obtain ⟨rfl, -⟩ := inInt_eq_some fits
  simp only [Option.pure_def, Option.some.injEq, Bool.and_eq_true, decide_eq_true_eq] at test
  exact test.1

theorem searchRound_tracks (view : seen <+: str) (filled : Filled pat pat.length next)
    (small : pat.length < 2 ^ 31 - 1) (narrow : seen.length < 2 ^ 31) (tracks : s.Tracks seen pat)
    (go : searchGoesOn seen.length pat.length s = some true)
    (stepped : searchRound str pat pat.length next s = some s') : s'.Tracks seen pat := by
  rcases searchRound_cases view filled small narrow tracks (searchGoesOn_room go) with
    ⟨next', same, -, tracks', -⟩ | ⟨failed, -⟩
  · rw [stepped] at same
    rwa [Option.some.inj same]
  · rw [stepped] at failed
    cases failed

/-- The search comes to a position that leaves no room for the pattern, with everything that
its rounds keep, and returns there unless the test for room overflows. -/
theorem search_reaches (view : seen <+: str) (filled : Filled pat pat.length next)
    (narrow : seen.length + 1 < 2 ^ 31) (small : pat.length < 2 ^ 31 - 1) (Kept : Searching → Prop)
    (first : Kept ⟨0, 0, []⟩)
    (keeps : ∀ s s' : Searching, s.Tracks seen pat → s.i + pat.length ≤ seen.length →
      s.Advances seen pat s' → Kept s → Kept s') :
    ∃ final, final.Tracks seen pat ∧ Kept final ∧ seen.length < final.i + pat.length ∧
      search str pat seen.length pat.length next =
        if final.i + pat.length < 2 ^ 31 then some final else none := by
  have shorter := view.length_le
  have round : ∀ s : Searching, (s.Tracks seen pat ∧ Kept s) → s.i + pat.length ≤ seen.length →
      searchGoesOn seen.length pat.length s = some true ∧
        ∃ s', searchRound str pat pat.length next s = some s' ∧ (s'.Tracks seen pat ∧ Kept s') ∧
          s'.ahead seen < s.ahead seen := by
    rintro s ⟨tracks, kept⟩ room
    refine ⟨by rw [searchGoesOn_eq tracks (by omega)]; simp [room], ?_⟩
    rcases searchRound_cases view filled small (by omega) tracks room with
      ⟨s', stepped, advances, tracks', lower⟩ | ⟨-, wide⟩
    · exact ⟨s', stepped, ⟨tracks', keeps s s' tracks room advances kept⟩, lower⟩
    · omega
  obtain ⟨final, left, ⟨tracks, kept⟩, stopped, same⟩ :=
    whileLoop_reaches _ (Searching.ahead seen) round ⟨tracks_start seen pat, first⟩
      (show Searching.ahead seen ⟨0, 0, []⟩ <
        2 * str.length + 2 by simp only [Searching.ahead]; omega)
  refine ⟨final, tracks, kept, by omega, ?_⟩
  rw [search, same, whileLoop]
  by_cases fits : final.i + pat.length < 2 ^ 31
  · rw [searchGoesOn_eq tracks fits, if_pos fits, decide_eq_false stopped]
  · have past : inInt (final.i + pat.length) = none := if_neg (by omega)
    rw [searchGoesOn, past, if_neg fits]
    rfl

/-- A size that is negative as an `int`. -/
theorem search_negative {len1 : Int} (negative : len1 < 0) (small : pat.length < 2 ^ 31 - 1) :
    search str pat len1 pat.length next = some ⟨0, 0, []⟩ := by
  have never : searchGoesOn len1 pat.length ⟨0, 0, []⟩ = some false := by
    rw [searchGoesOn, inInt_of_range (by dsimp only; omega) (by dsimp only; omega)]
    simp only [Option.bind_eq_bind, Option.bind_some, Option.pure_def, Option.some.injEq,
      Bool.and_eq_false_iff, decide_eq_false_iff_not]
    omega
  rw [search, whileLoop, never]

/-- In a string of the largest size an `int` can hold, the last test for room overflows. -/
theorem search_widest (view : seen <+: str) (filled : Filled pat pat.length next)
    (widest : seen.length + 1 = 2 ^ 31) (small : pat.length < 2 ^ 31 - 1) :
    search str pat seen.length pat.length next = none := by
  rw [Option.eq_none_iff_forall_ne_some]
  intro final ends
  have tracks : final.Tracks seen pat :=
    whileLoop_invariant (fun s s' => searchRound_tracks view filled small (by omega))
      (tracks_start seen pat) ends
  have halted := whileLoop_over ends
  obtain ⟨sum, fits, test⟩ := Option.bind_eq_some_iff.mp halted
  obtain ⟨rfl, -, narrow⟩ := inInt_eq_some fits
  simp only [Option.pure_def, Option.some.injEq, Bool.and_eq_false_iff,
    decide_eq_false_iff_not] at test
  have high := tracks.high
  omega

/-- Leaving a position passes no occurrence, when the pattern has no NUL. -/
theorem advances_occurrences (plain : (0 : UInt8) ∉ pat) (room : s.i + pat.length ≤ seen.length)
    (advances : s.Advances seen pat s')
    (found : s.positions = (occurrencesBelow pat seen s.i.toNat).map (Nat.cast : Nat → Int)) :
    s'.positions = (occurrencesBelow pat seen s'.i.toNat).map (Nat.cast : Nat → Int) := by
  cases advances with
  | letter stays further same => rw [same, stays, found]
  | @leaves i k n here matched inside mismatch fallback onward positions =>
    rw [here, Int.toNat_natCast] at found
    have bottom := fallback.trail.low
    have lower := fallback.lt
    have skipped : occurrencesBelow pat seen s'.i.toNat = occurrencesBelow pat seen (i + 1) := by
      refine occurrencesBelow_of_none (by omega) ?_
      intro m above below
      obtain ⟨d, rfl⟩ := Nat.le.dest (show i ≤ m by omega)
      exact matched.skip inside mismatch plain fallback (by omega) (by omega)
    rw [positions, skipped, found, here]
    by_cases whole : k = pat.length
    · subst whole
      rw [if_pos rfl, occurrencesBelow_succ ⟨by omega, matched⟩, List.map_append,
        List.map_singleton]
    · have none : ¬ Occurs pat seen i := fun occurs => mismatch (by omega) (occurs.2 k (by omega))
      rw [if_neg whole]
      congr 1
      refine (occurrencesBelow_of_none (Nat.le_succ i) ?_).symm
      intro m above below
      obtain rfl : m = i := by omega
      exact none

end

/-- The table for the whole pattern, and then the search. -/
theorem findSubstr_eq_search {pat : Bytes} (small : pat.length < 2 ^ 31 - 1) :
    ∃ built, build pat pat.length (firstCell pat) = some built ∧ Filled pat pat.length built.next ∧
      ∀ str, findSubstr str pat =
        (search str pat (int str.length) pat.length built.next).map Searching.positions := by
  obtain ⟨built, built_eq, whole⟩ := build_spec small
  refine ⟨built, built_eq, whole, fun str => ?_⟩
  have len2 : int pat.length = pat.length := int_eq_of_small (by omega)
  have fits : inInt (1 + pat.length) = some ((1 : Int) + pat.length) :=
    inInt_of_range (by omega) (by omega)
  have cells : ((1 : Int) + pat.length).toNat = pat.length + 1 := by omega
  have wrote : Cells.write (List.replicate (pat.length + 1) none) 0 (-1) = some (firstCell pat) :=
    write_inside (k := 0) (by simp) (-1)
  unfold findSubstr
  rw [len2]
  dsimp only
  rw [fits, Option.bind_eq_bind, Option.bind_some, cells, wrote, Option.bind_eq_bind,
    Option.bind_some, built_eq, Option.bind_eq_bind, Option.bind_some]
  exact Option.map_eq_bind.symm

end FindSubstr

open FindSubstr in
/-- `FindSubstr` finds all occurrences of a pattern without NUL, in order. -/
theorem findSubstr_eq {str pat : Bytes} (plain : (0 : UInt8) ∉ pat)
    (small : str.length + pat.length < 2 ^ 31 - 1) :
    findSubstr str pat = some ((occurrences pat str).map Nat.cast) := by
  have short : pat.length < 2 ^ 31 - 1 := by omega
  obtain ⟨built, -, filled, whole⟩ := findSubstr_eq_search short
  obtain ⟨final, tracks, found, past, result⟩ :=
    search_reaches (List.prefix_refl str) filled (by omega)
    short (fun s => s.positions = (occurrencesBelow pat str s.i.toNat).map (Nat.cast : Nat → Int))
      rfl
    (fun s s' _ room advances found => advances_occurrences plain room advances found)
  obtain ⟨i, eq, bound, -⟩ := tracks.index
  rw [whole, int_eq_of_small (by omega), result, if_pos (by omega), Option.map_some, found,
    occurrences_eq_below (n := final.i.toNat) (by omega)]

example : findSubstr [1, 1, 2, 1, 1, 2, 1, 1, 1] [1, 1] = some [0, 3, 6, 7] := by decide +kernel

/-- The part of a string that its size, as an `int`, covers. -/
def visible (str : Bytes) : Bytes := str.take (int str.length).toNat

theorem visible_shows (str : Bytes) : visible str <+: str := List.take_prefix _ _

theorem visible_length (str : Bytes) : (visible str).length = (int str.length).toNat := by
  have := int_le str.length
  rw [visible, List.length_take]
  omega

theorem visible_length_lt (str : Bytes) : (visible str).length < 2 ^ 31 := by
  have := int_lt str.length
  rw [visible_length]
  omega

theorem visible_of_small {str : Bytes} (small : str.length < 2 ^ 31) : visible str = str := by
  rw [visible, int_eq_of_small small, Int.toNat_natCast, List.take_length]

open FindSubstr in
/-- Strings of any size: what is found is found in the visible part. -/
theorem findSubstr_visible {str pat : Bytes} (plain : (0 : UInt8) ∉ pat) (nonempty : pat ≠ [])
    (small : pat.length < 2 ^ 31 - 1) {positions : List Int}
    (found : findSubstr str pat = some positions) :
    positions = (occurrences pat (visible str)).map Nat.cast := by
  obtain ⟨built, -, filled, whole⟩ := findSubstr_eq_search small
  rw [whole] at found
  obtain ⟨final, searched, rfl⟩ := Option.map_eq_some_iff.mp found
  have length := visible_length str
  have positive := List.length_pos_iff.mpr nonempty
  rcases Int.lt_or_le (int str.length) 0 with negative | nonneg
  · -- the loop is not entered
    have nothing : occurrences pat (visible str) = [] := by
      rw [occurrences_eq_nil_iff]
      intro i occurs
      have := occurs.1
      omega
    rw [search_negative negative small] at searched
    rw [nothing, ← Option.some.inj searched]
    rfl
  · rw [show int str.length = ((visible str).length : Int) by omega] at searched
    have narrow := visible_length_lt str
    by_cases widest : (visible str).length + 1 = 2 ^ 31
    · rw [search_widest (visible_shows str) filled widest small] at searched
      cases searched
    · obtain ⟨last, tracks, found, past, result⟩ :=
        search_reaches (visible_shows str) filled (by omega)
        small
        (fun s => s.positions =
          (occurrencesBelow pat (visible str) s.i.toNat).map (Nat.cast : Nat → Int))
        rfl (fun s s' _ room advances found => advances_occurrences plain room advances found)
      obtain ⟨i, eq, bound, -⟩ := tracks.index
      rw [result] at searched
      split at searched
      · rw [← Option.some.inj searched, found, occurrences_eq_below (n := last.i.toNat) (by omega)]
      · cases searched

end Ladder.Source
