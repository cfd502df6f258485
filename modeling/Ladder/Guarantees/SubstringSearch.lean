import Ladder.Source.HttpMessage

/-!
# Searching and splitting

The search of ladder/src/utils.cpp against the occurrences of a pattern, its three loops
against the bounds of what they index, and `SplitString` of examples/http/HttpCodec.cpp
against joining. A NUL in the pattern takes occurrences away, because the table compares the
letter behind the pattern with the terminator, but leaves every index where it has to be.
-/
namespace Ladder.Guarantees.SubstringSearch
open Ladder.Library Ladder.Source Ladder.Source.FindSubstr

/-! ## What is found -/

theorem occurs_iff_slice {pat str : Bytes} {i : Nat} :
    Occurs pat str i ↔ i + pat.length ≤ str.length ∧ (str.drop i).take pat.length = pat := by
  constructor
  · intro occurs
    refine ⟨occurs.1, ?_⟩
    have bound := occurs.1
    conv_lhs => rw [occurs.split]
    rw [List.drop_left' (by rw [List.length_take]; omega), List.take_left]
  · rintro ⟨bound, slice⟩
    refine ⟨bound, ?_⟩
    intro k below
    have letter := congrArg (fun l : Bytes => l[k]?) slice
    rwa [List.getElem?_take_of_lt below, List.getElem?_drop] at letter

/-- All positions in order, overlapping ones included; those of the empty pattern are all
positions up to the end. -/
theorem findSubstr_finds_all (str pat : Bytes) (plain : (0 : UInt8) ∉ pat)
    (small : str.length + pat.length < 2 ^ 31 - 1) :
    ∃ positions : List Nat, findSubstr str pat = some (positions.map Nat.cast) ∧
      positions.Pairwise (· < ·) ∧
      (∀ i, i ∈ positions ↔ i + pat.length ≤ str.length ∧ (str.drop i).take pat.length = pat) ∧
      (pat = [] → positions = List.range (str.length + 1)) := by
  refine ⟨occurrences pat str, findSubstr_eq plain small, occurrences_sorted pat str, ?_, ?_⟩
  · intro i
    rw [mem_occurrences, occurs_iff_slice]
  · rintro rfl
    unfold occurrences occurrencesBelow
    rw [List.filter_eq_self]
    intro i below
    have inside := List.mem_range.mp below
    exact decide_eq_true ⟨Nat.le_of_lt_succ inside, nofun⟩

theorem findSubstr_finds_all_overlapping :
    ∃ positions : List Nat, findSubstr [97, 97, 97, 98, 97, 97] [97, 97] =
      some (positions.map Nat.cast) ∧
      positions.Pairwise (· < ·) ∧
      (∀ i, i ∈ positions ↔
        i + 2 ≤ 6 ∧ (([97, 97, 97, 98, 97, 97] : Bytes).drop i).take 2 = [97, 97]) ∧
      (([97, 97] : Bytes) = [] → positions = List.range 7) :=
  findSubstr_finds_all [97, 97, 97, 98, 97, 97] [97, 97] (by decide) (by decide)

/-! ## Where the loops look -/

/-- A state of the loop that fills the table, and of the inner loop it starts. -/
structure FillsInBounds (pat : Bytes) (s : Building) : Prop where
  size : s.next.length = pat.length + 1
  index : 0 ≤ s.i ∧ s.i ≤ pat.length
  border : -1 ≤ s.t ∧ s.t ≤ s.i
  written : ∀ k : Nat, k ≤ s.i → ∃ n, s.next.read k = some n
  inner : s.i < pat.length → buildMeets pat s = some true → ∀ tmp,
    Visits (fun tmp => if 0 ≤ tmp then equalAt pat tmp pat (s.i + 1) else some false)
      s.next.read (s.t + 1) tmp →
      -1 ≤ tmp ∧ tmp ≤ s.i

/-- A state of the search. -/
structure SearchesInBounds (str pat : Bytes) (next : Cells) (s : Searching) : Prop where
  pattern : -1 ≤ s.j ∧ s.j ≤ pat.length
  written : 0 ≤ s.j → ∃ n, next.read s.j = some n
  letter : searchGoesOn str.length pat.length s = some true → 0 ≤ s.j → s.j < pat.length →
    0 ≤ s.i + s.j ∧ s.i + s.j < str.length

section
variable {str pat : Bytes} {next : Cells}

theorem Sound.inBounds {s : Building} (sound : s.Sound pat) : FillsInBounds pat s := by
  obtain ⟨i, eq, le, filled, trail⟩ := sound.index
  obtain ⟨low, top⟩ := sound.trail_le
  refine ⟨filled.size, by omega, ⟨low, top⟩, ?_, ?_⟩
  · intro k below
    obtain ⟨n, cell, -⟩ := filled.cells k (by omega)
    exact ⟨n, cell⟩
  · intro more met tmp visited
    obtain ⟨t, index, next⟩ := s
    dsimp only at eq low top more visited trail filled ⊢
    subst eq
    obtain ⟨same, compared, meets, -⟩ := buildMeets_spec next low (by omega) le
    obtain rfl : same = true := Option.some.inj (compared.symm.trans met)
    have falls : Falls pat i tmp := by
      refine visited.invariant (trail.extend (meets rfl) _) ?_
      intro tmp after falls go read
      obtain ⟨n, cell, onward, -⟩ := fallBack_round filled (by omega) falls go
      rwa [Option.some.inj (read.symm.trans cell)]
    have below := falls.lt (Nat.succ_pos i)
    exact ⟨falls.low, by omega⟩

theorem Tracks.inBounds {s : Searching} (tracks : s.Tracks str pat)
    (filled : Filled pat pat.length next) :
    SearchesInBounds str pat next s := by
  refine ⟨⟨tracks.low, tracks.high⟩, ?_, ?_⟩
  · intro nonneg
    obtain ⟨k, eq⟩ := Int.eq_ofNat_of_zero_le nonneg
    have high := tracks.high
    obtain ⟨n, cell, -⟩ := filled.cells k (by omega)
    exact ⟨n, eq ▸ cell⟩
  · intro go nonneg short
    obtain ⟨i, eq, -⟩ := tracks.index
    have room := searchGoesOn_room go
    omega

end

/-- Every pattern and every string: the loops come to an end, with all operations on `int`s in
range and every cell written before it is read, or the result would be none; the indices that
the loops have in the states they come to lie inside the pattern with its terminator, inside
the table and inside the string without its terminator. -/
theorem findSubstr_in_bounds (str pat : Bytes) (small : str.length + pat.length < 2 ^ 31 - 1) :
    ∃ built found, build pat pat.length (firstCell pat) = some built ∧
      search str pat str.length pat.length built.next = some found ∧
      findSubstr str pat = some found.positions ∧
      (∀ s, Visits (fun s : Building => some (decide (s.i < pat.length))) (buildRound pat)
        ⟨-1, 0, firstCell pat⟩ s → FillsInBounds pat s) ∧
      ∀ s, Visits (searchGoesOn str.length pat.length)
        (searchRound str pat pat.length built.next) ⟨0, 0, []⟩ s →
        SearchesInBounds str pat built.next s := by
  have short : pat.length < 2 ^ 31 - 1 := by omega
  obtain ⟨built, built_eq, filled, whole⟩ := findSubstr_eq_search short
  obtain ⟨found, tracks, -, -, result⟩ :=
    search_reaches (List.prefix_refl str) filled (by omega) short
    (fun _ => True) trivial (fun _ _ _ _ _ _ => trivial)
  obtain ⟨i, eq, bound, -⟩ := tracks.index
  rw [if_pos (by omega)] at result
  refine ⟨built, found, built_eq, result, ?_, ?_, ?_⟩
  · rw [whole, int_eq_of_small (by omega), result, Option.map_some]
  · intro s visited
    refine Sound.inBounds (visited.invariant (sound_start pat) ?_)
    intro s s' sound go stepped
    obtain ⟨after, same, onward, -⟩ :=
      buildRound_spec short sound (of_decide_eq_true (Option.some.inj go))
    rwa [Option.some.inj (stepped.symm.trans same)]
  · intro s visited
    refine Tracks.inBounds (visited.invariant (tracks_start str pat) ?_) filled
    exact fun s s' => searchRound_tracks (List.prefix_refl str) filled short (by omega)

theorem findSubstr_in_bounds_nul :
    ∃ built found, build [0, 0] 2 (firstCell [0, 0]) = some built ∧
      search [0, 0, 0] [0, 0] 3 2 built.next = some found ∧
      findSubstr [0, 0, 0] [0, 0] = some found.positions ∧
      (∀ s, Visits (fun s : Building => some (decide (s.i < 2))) (buildRound [0, 0])
        ⟨-1, 0, firstCell [0, 0]⟩ s → FillsInBounds [0, 0] s) ∧
      ∀ s, Visits (searchGoesOn 3 2) (searchRound [0, 0, 0] [0, 0] 2 built.next) ⟨0, 0, []⟩ s →
        SearchesInBounds [0, 0, 0] [0, 0] built.next s :=
  findSubstr_in_bounds [0, 0, 0] [0, 0] (by decide)

/-! ## Splitting -/

section
open Ladder.Source.Http

variable {sep : Bytes}

theorem occurrences_count (unbordered : Unbordered sep) (nonempty : sep ≠ []) {first : Bytes}
    {others : List Bytes} (clean : ∀ piece ∈ first :: others, FreeOf sep piece) :
    (occurrences sep (sep.intercalate (first :: others))).length = others.length := by
  induction others generalizing first with
  | nil =>
    rw [List.intercalate_singleton, occurrences_eq_nil_iff.mpr (clean first (by simp))]
    rfl
  | cons second others ih =>
    rw [List.intercalate_cons_cons, List.append_assoc,
      occurrences_piece unbordered nonempty (clean first (by simp)),
      List.length_cons, List.length_map,
      ih fun piece member => clean piece (List.mem_cons_of_mem _ member)]
    rfl

/-- A separator that does not overlap itself: the pieces joined give the string, none of them
has the separator in it, and there is one more than there are occurrences. -/
theorem splitString_joins (str breaking : Bytes) (nonempty : breaking ≠ [])
    (plain : (0 : UInt8) ∉ breaking)
    (unbordered : ∀ k < breaking.length, 0 < k →
      breaking.take k ≠ breaking.drop (breaking.length - k))
    (small : str.length + breaking.length < 2 ^ 31 - 1) :
    ∃ pieces, splitString str breaking = .ok pieces ∧ breaking.intercalate pieces = str ∧
      (∀ piece ∈ pieces, ∀ i, ¬ Occurs breaking piece i) ∧
      pieces.length = (occurrences breaking str).length + 1 := by
  have apart : Unbordered breaking := by
    intro k below positive border
    refine unbordered k below positive ?_
    apply List.ext_getElem?
    intro l
    by_cases inside : l < k
    · rw [List.getElem?_take_of_lt inside, List.getElem?_drop]
      exact border.2 l inside
    · rw [List.getElem?_take_eq_none (by omega), List.getElem?_drop,
        List.getElem?_eq_none (by omega)]
  obtain ⟨first, others, split_eq, rfl, clean⟩ := splitString_total apart nonempty plain small
  exact ⟨first :: others, split_eq, rfl, clean, by
    rw [occurrences_count apart nonempty clean, List.length_cons]⟩

theorem splitString_joins_encodings :
    ∃ pieces, splitString (ascii "br, gzip, ") (ascii ", ") = .ok pieces ∧
      (ascii ", ").intercalate pieces = ascii "br, gzip, " ∧
      (∀ piece ∈ pieces, ∀ i, ¬ Occurs (ascii ", ") piece i) ∧
      pieces.length = (occurrences (ascii ", ") (ascii "br, gzip, ")).length + 1 :=
  splitString_joins (ascii "br, gzip, ") (ascii ", ") (by decide) (by decide)
    (by decide) (by decide)

end

end Ladder.Guarantees.SubstringSearch
