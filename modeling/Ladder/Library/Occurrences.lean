import Mathlib.Data.List.Basic
import Mathlib.Data.List.Range
import Mathlib.Data.Nat.Find

/-!
# Occurrences of a pattern and its borders

Positions at which a pattern occurs in a list, and the borders of a pattern: the proper
prefixes that are also suffixes, which is where a search may go on after a mismatch. Both
are stated letter by letter. The last part takes apart a list that is put together from
pieces with a separator in between.
-/
namespace Ladder.Library

universe u

variable {α : Type u}

/-! ## Borders -/

/-- The first `b` letters of `w` are also the last `b` of its first `i`. -/
def Border (w : List α) (b i : Nat) : Prop := b < i ∧ ∀ k < b, w[k]? = w[i - b + k]?

instance [DecidableEq α] (w : List α) (b i : Nat) : Decidable (Border w b i) :=
  inferInstanceAs (Decidable (_ ∧ _))

section
variable {w : List α} {a b i : Nat}

theorem border_zero (w : List α) (positive : 0 < i) : Border w 0 i := ⟨positive, nofun⟩

theorem Border.trans (inner : Border w a b) (outer : Border w b i) : Border w a i := by
  refine ⟨Nat.lt_trans inner.1 outer.1, ?_⟩
  intro k below
  have short := inner.1
  have shorter := outer.1
  rw [inner.2 k below, outer.2 (b - a + k) (by omega)]
  congr 1
  omega

/-- The shorter of two borders is a border of the longer. -/
theorem Border.nested (inner : Border w a i) (outer : Border w b i) (shorter : a < b) :
    Border w a b := by
  refine ⟨shorter, ?_⟩
  intro k below
  have short := outer.1
  rw [inner.2 k below, outer.2 (b - a + k) (by omega)]
  congr 1
  omega

theorem border_succ_iff : Border w (b + 1) (i + 1) ↔ Border w b i ∧ w[b]? = w[i]? := by
  constructor
  · intro border
    have short := border.1
    refine ⟨⟨by omega, ?_⟩, ?_⟩
    · intro k below
      rw [border.2 k (by omega)]
      congr 1
      omega
    · rw [border.2 b (by omega)]
      congr 1
      omega
  · rintro ⟨⟨short, letters⟩, last⟩
    refine ⟨by omega, ?_⟩
    intro k below
    rcases Nat.lt_or_eq_of_le (Nat.le_of_lt_succ below) with inside | rfl
    · rw [letters k inside]
      congr 1
      omega
    · rw [last]
      congr 1
      omega

end

/-! ## Following borders downwards

A walk over the borders of the first `i` letters, from long to short, stands at `t` (at -1
past the last one) with every longer border `passed`. -/

structure Trail (w : List α) (i : Nat) (passed : Nat → Prop) (t : Int) : Prop where
  low : -1 ≤ t
  border : ∀ b : Nat, t = b → Border w b i
  passed : ∀ b : Nat, Border w b i → t < b → passed b

/-- `n` is the longest border of the first `i` letters that is not followed by the letter
that follows these, or -1. -/
structure Fallback (w : List α) (i : Nat) (n : Int) : Prop where
  trail : Trail w i (fun b => w[b]? = w[i]?) n
  stops : ∀ b : Nat, n = b → w[b]? ≠ w[i]?

section
variable {w : List α} {i : Nat} {passed : Nat → Prop} {t n : Int}

theorem Trail.lt (trail : Trail w i passed t) (some : 0 < i) : t < i := by
  rcases Int.lt_or_le t 0 with below | nonneg
  · omega
  · obtain ⟨b, rfl⟩ := Int.eq_ofNat_of_zero_le nonneg
    have := (trail.border b rfl).1
    omega

theorem Fallback.lt (fallback : Fallback w i n) : n < i := by
  rcases Int.lt_or_le n 0 with below | nonneg
  · omega
  · obtain ⟨b, rfl⟩ := Int.eq_ofNat_of_zero_le nonneg
    have := (fallback.trail.border b rfl).1
    omega

theorem fallback_zero (w : List α) : Fallback w 0 (-1) := by
  refine ⟨⟨Int.le_refl _, ?_, ?_⟩, ?_⟩
  · intro b eq
    omega
  · intro b border
    exact absurd border.1 (Nat.not_lt_zero b)
  · intro b eq
    omega

/-- The borders between a passed one and its fallback are followed by the same letter. -/
theorem Trail.fall {b : Nat} (trail : Trail w i passed b) (here : passed b)
    (alike : ∀ c, w[c]? = w[b]? → passed c) (fallback : Fallback w b n) : Trail w i passed n := by
  have border := trail.border b rfl
  refine ⟨fallback.trail.low, ?_, ?_⟩
  · intro c eq
    exact (fallback.trail.border c eq).trans border
  · intro c other longer
    rcases Nat.lt_trichotomy c b with shorter | rfl | beyond
    · exact alike c (fallback.trail.passed c (other.nested border shorter) longer)
    · exact here
    · exact trail.passed c other (by omega)

/-- A walk that looks for the next letter and meets it has found the longest border of one
letter more. -/
theorem Trail.extend (trail : Trail w i (fun b => w[b]? ≠ w[i]?) t)
    (found : ∀ b : Nat, t = b → w[b]? = w[i]?) (next : Nat → Prop) :
    Trail w (i + 1) next (t + 1) := by
  have low := trail.low
  refine ⟨by omega, ?_, ?_⟩
  · intro c eq
    cases c with
    | zero => exact border_zero w (by omega)
    | succ c => exact border_succ_iff.mpr ⟨trail.border c (by omega), found c (by omega)⟩
  · intro c border longer
    cases c with
    | zero => omega
    | succ c =>
      obtain ⟨shorter, letter⟩ := border_succ_iff.mp border
      exact absurd letter (trail.passed c shorter (by omega))

end

/-! ## Occurrences -/

/-- The first `j` letters of the pattern are in `str` from `i` on. -/
def Matches (pat str : List α) (i j : Nat) : Prop := ∀ k < j, str[i + k]? = pat[k]?

def Occurs (pat str : List α) (i : Nat) : Prop :=
  i + pat.length ≤ str.length ∧ Matches pat str i pat.length

instance [DecidableEq α] (pat str : List α) (i : Nat) : Decidable (Occurs pat str i) :=
  inferInstanceAs (Decidable (_ ∧ ∀ k < _, _))

/-- The positions below `n` at which the pattern occurs, in order. -/
def occurrencesBelow [DecidableEq α] (pat str : List α) (n : Nat) : List Nat :=
  (List.range n).filter fun i => Occurs pat str i

def occurrences [DecidableEq α] (pat str : List α) : List Nat :=
  occurrencesBelow pat str (str.length + 1)

section
variable {pat str : List α} {i j : Nat}

theorem Matches.succ (matched : Matches pat str i j) (letter : str[i + j]? = pat[j]?) :
    Matches pat str i (j + 1) := by
  intro k below
  rcases Nat.lt_or_eq_of_le (Nat.le_of_lt_succ below) with inside | rfl
  · exact matched k inside
  · exact letter

/-- Moving on to a border keeps what has been matched. -/
theorem Matches.shift {b : Nat} (matched : Matches pat str i j) (border : Border pat b j) :
    Matches pat str (i + (j - b)) b := by
  intro k below
  have short := border.1
  rw [border.2 k below, ← matched (j - b + k) (by omega)]
  congr 1
  omega

/-- An occurrence that overlaps a match shows a border. -/
theorem Matches.border {d : Nat} (matched : Matches pat str i j) (inside : j ≤ pat.length)
    (later : Occurs pat str (i + d)) (some : 0 < d) (overlap : d ≤ j) : Border pat (j - d) j := by
  refine ⟨by omega, ?_⟩
  intro k below
  rw [← later.2 k (by omega), ← matched (j - (j - d) + k) (by omega)]
  congr 1
  omega

/-- Borders of a prefix do not depend on what follows it. -/
theorem border_append_iff {ext : List α} {b : Nat} (inside : j ≤ pat.length) :
    Border (pat ++ ext) b j ↔ Border pat b j := by
  refine and_congr_right fun short => forall₂_congr fun k below => ?_
  rw [List.getElem?_append_left (by omega), List.getElem?_append_left (by omega)]

/-- From a match that ends in a mismatch, or that is complete, no occurrence lies before the
position the fallback leads to. The terminator `z` stands for the letter after the pattern. -/
theorem Matches.skip {z : α} {n : Int} {d : Nat} (matched : Matches pat str i j)
    (inside : j ≤ pat.length) (mismatch : j < pat.length → str[i + j]? ≠ pat[j]?) (fresh : z ∉ pat)
    (fallback : Fallback (pat ++ [z]) j n) (some : 0 < d) (before : (d : Int) < j - n) :
    ¬ Occurs pat str (i + d) := by
  intro occurs
  have low := fallback.trail.low
  have border := matched.border inside occurs some (by omega)
  have alike := fallback.trail.passed (j - d) ((border_append_iff inside).mpr border) (by omega)
  rw [List.getElem?_append_left (by omega)] at alike
  rcases Nat.lt_or_eq_of_le inside with short | rfl
  · rw [List.getElem?_append_left short] at alike
    have letter := occurs.2 (j - d) (by omega)
    rw [alike, show i + d + (j - d) = i + j by omega] at letter
    exact mismatch short letter
  · rw [List.getElem?_concat_length] at alike
    exact fresh (List.mem_of_getElem? alike)

theorem mem_occurrences [DecidableEq α] : i ∈ occurrences pat str ↔ Occurs pat str i := by
  unfold occurrences occurrencesBelow
  simp only [List.mem_filter, List.mem_range, decide_eq_true_eq]
  refine ⟨And.right, fun occurs => ⟨?_, occurs⟩⟩
  have := occurs.1
  omega

variable [DecidableEq α]

theorem occurrences_sorted (pat str : List α) : (occurrences pat str).Pairwise (· < ·) :=
  List.Pairwise.filter _ List.pairwise_lt_range

/-- The first position found is the first occurrence. -/
theorem occurrences_head {others : List Nat} (all : occurrences pat str = i :: others) :
    Occurs pat str i ∧ ∀ k < i, ¬ Occurs pat str k := by
  refine ⟨mem_occurrences.mp (all ▸ List.mem_cons_self), ?_⟩
  intro k before occurs
  have sorted := all ▸ occurrences_sorted pat str
  rcases List.mem_cons.mp (all ▸ mem_occurrences.mpr occurs) with rfl | later
  · exact Nat.lt_irrefl _ before
  · have := List.rel_of_pairwise_cons sorted later
    omega

theorem occurrencesBelow_of_none {n m : Nat} (le : n ≤ m)
    (none : ∀ i, n ≤ i → i < m → ¬ Occurs pat str i) :
    occurrencesBelow pat str m = occurrencesBelow pat str n := by
  obtain ⟨d, rfl⟩ := Nat.le.dest le
  have nothing : ((List.range d).map (n + ·)).filter (fun i => Occurs pat str i) = [] := by
    rw [List.filter_eq_nil_iff]
    intro i member
    obtain ⟨k, below, rfl⟩ := List.mem_map.mp member
    have := List.mem_range.mp below
    simpa using none (n + k) (by omega) (by omega)
  rw [occurrencesBelow, List.range_add, List.filter_append, nothing, List.append_nil]
  rfl

theorem occurrencesBelow_succ (occurs : Occurs pat str i) :
    occurrencesBelow pat str (i + 1) = occurrencesBelow pat str i ++ [i] := by
  simp [occurrencesBelow, List.range_succ, occurs]

theorem occurrences_eq_below {n : Nat} (enough : str.length < n + pat.length) :
    occurrences pat str = occurrencesBelow pat str n := by
  have beyond : ∀ m i, n ≤ i → i < m → ¬ Occurs pat str i := by
    intro m i above _ occurs
    have := occurs.1
    omega
  rcases Nat.le_total n (str.length + 1) with le | ge
  · exact occurrencesBelow_of_none le (beyond _)
  · refine (occurrencesBelow_of_none ge ?_).symm
    intro i above _ occurs
    have := occurs.1
    omega

end

/-! ## Pieces with a separator in between -/

/-- No proper prefix of the separator, the empty one apart, is also a suffix of it. -/
def Unbordered (sep : List α) : Prop := ∀ k < sep.length, 0 < k → ¬ Border sep k sep.length

instance [DecidableEq α] (sep : List α) : Decidable (Unbordered sep) :=
  inferInstanceAs (Decidable (∀ k < _, _))

/-- The separator does not occur in the piece. -/
def FreeOf (sep piece : List α) : Prop := ∀ i, ¬ Occurs sep piece i

section
variable {sep piece rest : List α}

/-- In front of and inside the first separator there is no other occurrence. -/
theorem occurs_first (unbordered : Unbordered sep) (clean : FreeOf sep piece) {i : Nat}
    (below : i < piece.length + sep.length) :
    Occurs sep (piece ++ (sep ++ rest)) i ↔ i = piece.length := by
  constructor
  · intro occurs
    rcases Nat.lt_trichotomy i piece.length with before | eq | inside
    · -- an occurrence that runs into the separator ends with a prefix of it
      by_cases within : i + sep.length ≤ piece.length
      · refine absurd ⟨within, ?_⟩ (clean i)
        intro k short
        rw [← occurs.2 k short, List.getElem?_append_left (by omega)]
      · have border : Border sep (i + sep.length - piece.length) sep.length := by
          refine ⟨by omega, ?_⟩
          intro k short
          rw [← occurs.2 (sep.length - (i + sep.length - piece.length) + k) (by omega),
            List.getElem?_append_right (by omega), List.getElem?_append_left (by omega)]
          congr 1
          omega
        exact absurd border (unbordered _ border.1 (by omega))
    · exact eq
    · have border : Border sep (sep.length - (i - piece.length)) sep.length := by
        refine ⟨by omega, ?_⟩
        intro k short
        rw [← occurs.2 k (by omega), List.getElem?_append_right (by omega),
          List.getElem?_append_left (by omega)]
        congr 1
        omega
      exact absurd border (unbordered _ border.1 (by omega))
  · rintro rfl
    refine ⟨by simp, ?_⟩
    intro k short
    rw [List.getElem?_append_right (by omega), List.getElem?_append_left (by omega)]
    congr 1
    omega

/-- A piece ends where its separator begins. -/
theorem piece_unique (unbordered : Unbordered sep) {other others : List α} (nonempty : sep ≠ [])
    (clean : FreeOf sep piece) (clean' : FreeOf sep other)
    (same : piece ++ (sep ++ rest) = other ++ (sep ++ others)) : piece = other ∧ rest = others := by
  have positive := List.length_pos_iff.mpr nonempty
  have here : Occurs sep (piece ++ (sep ++ rest)) piece.length :=
    (occurs_first unbordered clean (by omega)).mpr rfl
  have there : Occurs sep (other ++ (sep ++ others)) other.length :=
    (occurs_first unbordered clean' (by omega)).mpr rfl
  have lengths : piece.length = other.length := by
    rcases Nat.lt_or_ge piece.length (other.length + sep.length) with near | far
    · exact (occurs_first unbordered clean' near).mp (same ▸ here)
    · exact ((occurs_first unbordered clean (by omega)).mp (same ▸ there)).symm
  obtain ⟨pieces, rests⟩ := List.append_inj same lengths
  exact ⟨pieces, List.append_cancel_left rests⟩

theorem occurs_append_right (pat front str : List α) (i : Nat) :
    Occurs pat (front ++ str) (front.length + i) ↔ Occurs pat str i := by
  have letters : ∀ k, (front ++ str)[front.length + i + k]? = str[i + k]? := by
    intro k
    rw [List.getElem?_append_right (by omega)]
    congr 1
    omega
  simp only [Occurs, Matches, letters, List.length_append]
  refine and_congr_left fun _ => ?_
  omega

theorem occurs_later (i : Nat) :
    Occurs sep (piece ++ (sep ++ rest)) (piece.length + sep.length + i) ↔ Occurs sep rest i := by
  have whole := occurs_append_right sep (piece ++ sep) rest i
  rwa [List.append_assoc, List.length_append] at whole

/-- Both halves of a pattern occur where it occurs. -/
theorem Occurs.halves {first second str : List α} {i : Nat}
    (occurs : Occurs (first ++ second) str i) :
    Occurs first str i ∧ Occurs second str (i + first.length) := by
  obtain ⟨bound, letters⟩ := occurs
  rw [List.length_append] at bound letters
  refine ⟨⟨by omega, ?_⟩, by omega, ?_⟩
  · intro k below
    rw [letters k (by omega), List.getElem?_append_left below]
  · intro k below
    rw [Nat.add_assoc, letters (first.length + k) (by omega), List.getElem?_append_right (by omega)]
    congr 1
    omega

theorem Occurs.append {pat str : List α} {i : Nat} (occurs : Occurs pat str i) (more : List α) :
    Occurs pat (str ++ more) i := by
  obtain ⟨bound, letters⟩ := occurs
  refine ⟨by rw [List.length_append]; omega, ?_⟩
  intro k below
  rw [← letters k below, List.getElem?_append_left (by omega)]

theorem Occurs.within {pat front more : List α} {i : Nat} (occurs : Occurs pat (front ++ more) i)
    (inside : i + pat.length ≤ front.length) : Occurs pat front i := by
  refine ⟨inside, ?_⟩
  intro k below
  rw [← occurs.2 k below, List.getElem?_append_left (by omega)]

/-- The list around an occurrence. -/
theorem Occurs.split {pat str : List α} {i : Nat} (occurs : Occurs pat str i) :
    str = str.take i ++ (pat ++ str.drop (i + pat.length)) := by
  have here : (str.drop i).take pat.length = pat := by
    apply List.ext_getElem?
    intro k
    by_cases below : k < pat.length
    · rw [List.getElem?_take_of_lt below, List.getElem?_drop, occurs.2 k below]
    · rw [List.getElem?_take_eq_none (by omega), List.getElem?_eq_none (by omega)]
  have tail : str.drop i = pat ++ str.drop (i + pat.length) := by
    rw [← List.take_append_drop pat.length (str.drop i), here, List.drop_drop]
  rw [← tail, List.take_append_drop]

/-- A list is put together from pieces without the separator in one way only. -/
theorem pieces_unique (unbordered : Unbordered sep) (nonempty : sep ≠ []) {first other : List α}
    {others more : List (List α)} (clean : ∀ piece ∈ first :: others, FreeOf sep piece)
    (clean' : ∀ piece ∈ other :: more, FreeOf sep piece)
    (same : sep.intercalate (first :: others) = sep.intercalate (other :: more)) :
    first = other ∧ others = more := by
  have positive := List.length_pos_iff.mpr nonempty
  have split {first other x : List α} (clean : FreeOf sep first) (clean' : FreeOf sep other)
      (whole : first = other ++ (sep ++ x)) : False := by
    have here : Occurs sep (other ++ (sep ++ x)) other.length :=
      (occurs_first unbordered clean' (by omega)).mpr rfl
    exact clean other.length (whole ▸ here)
  induction others generalizing first other more with
  | nil =>
    cases more with
    | nil =>
      rw [List.intercalate_singleton, List.intercalate_singleton] at same
      exact ⟨same, rfl⟩
    | cons second more =>
      rw [List.intercalate_singleton, List.intercalate_cons_cons, List.append_assoc] at same
      exact (split (clean first (by simp)) (clean' other (by simp)) same).elim
  | cons second others ih =>
    cases more with
    | nil =>
      rw [List.intercalate_singleton, List.intercalate_cons_cons, List.append_assoc] at same
      exact (split (clean' other (by simp)) (clean first (by simp)) same.symm).elim
    | cons second' more =>
      rw [List.intercalate_cons_cons, List.intercalate_cons_cons, List.append_assoc,
        List.append_assoc] at same
      obtain ⟨rfl, later⟩ :=
        piece_unique unbordered nonempty (clean first (by simp)) (clean' other (by simp)) same
      obtain ⟨rfl, rfl⟩ := ih (fun piece member => clean piece (List.mem_cons_of_mem _ member))
        (fun piece member => clean' piece (List.mem_cons_of_mem _ member)) later
      exact ⟨rfl, rfl⟩

/-- Between non-empty pieces the separator never stands twice in a row. -/
theorem double_occurs (unbordered : Unbordered sep) {first : List α} {others : List (List α)}
    (clean : ∀ piece ∈ first :: others, FreeOf sep piece)
    (filled : ∀ piece ∈ others, piece ≠ []) {i : Nat}
    (occurs : Occurs (sep ++ sep) (sep.intercalate (first :: others) ++ (sep ++ rest)) i) :
    (sep.intercalate (first :: others)).length ≤ i := by
  induction others generalizing first i with
  | nil =>
    rw [List.intercalate_singleton] at occurs ⊢
    by_contra before
    have first_eq := (occurs_first unbordered (clean first (by simp)) (by omega)).mp occurs.halves.1
    omega
  | cons second others ih =>
    rw [List.intercalate_cons_cons, List.append_assoc, List.append_assoc] at occurs
    rw [List.intercalate_cons_cons, List.length_append, List.length_append]
    by_cases before : i < first.length + sep.length
    · -- behind the first separator a non-empty piece begins
      obtain ⟨here, there⟩ := occurs.halves
      obtain rfl := (occurs_first unbordered (clean first (by simp)) before).mp here
      have start := (occurs_later 0).mp there
      have positive := List.length_pos_iff.mpr (filled second (by simp))
      have second_eq : 0 = second.length := by
        cases others with
        | nil =>
          rw [List.intercalate_singleton] at start
          exact (occurs_first unbordered (clean second (by simp)) (by omega)).mp start
        | cons third others =>
          rw [List.intercalate_cons_cons, List.append_assoc, List.append_assoc] at start
          exact (occurs_first unbordered (clean second (by simp)) (by omega)).mp start
      omega
    · obtain ⟨k, rfl⟩ := Nat.le.dest (Nat.not_lt.mp before)
      have later := (occurs_append_right (sep ++ sep) (first ++ sep) _ k).mp
        (by rwa [List.append_assoc, List.length_append])
      have bound := ih (fun piece member => clean piece (List.mem_cons_of_mem _ member))
        (fun piece member => filled piece (List.mem_cons_of_mem _ member)) later
      omega

variable [DecidableEq α]

theorem occurrences_eq_nil_iff : occurrences sep piece = [] ↔ FreeOf sep piece := by
  simp only [List.eq_nil_iff_forall_not_mem, mem_occurrences, FreeOf]

instance (sep piece : List α) : Decidable (FreeOf sep piece) :=
  decidable_of_iff _ occurrences_eq_nil_iff

/-- The first piece up to its separator, and then the rest. -/
theorem occurrences_piece (unbordered : Unbordered sep) (nonempty : sep ≠ [])
    (clean : FreeOf sep piece) :
    occurrences sep (piece ++ (sep ++ rest)) =
      piece.length :: (occurrences sep rest).map (piece.length + sep.length + ·) := by
  have positive := List.length_pos_iff.mpr nonempty
  have first : ((List.range (piece.length + sep.length)).filter fun i =>
      Occurs sep (piece ++ (sep ++ rest)) i) = [piece.length] := by
    have same : occurrencesBelow sep (piece ++ (sep ++ rest)) (piece.length + sep.length) =
        occurrencesBelow sep (piece ++ (sep ++ rest)) (piece.length + 1) := by
      refine occurrencesBelow_of_none (by omega) ?_
      intro i above below occurs
      have := (occurs_first unbordered clean below).mp occurs
      omega
    have none : occurrencesBelow sep (piece ++ (sep ++ rest)) piece.length =
        occurrencesBelow sep (piece ++ (sep ++ rest)) 0 := by
      refine occurrencesBelow_of_none (by omega) ?_
      intro i above below occurs
      have := (occurs_first unbordered clean (by omega)).mp occurs
      omega
    have occurs : Occurs sep (piece ++ (sep ++ rest)) piece.length :=
      (occurs_first unbordered clean (by omega)).mpr rfl
    have here := occurrencesBelow_succ occurs
    rw [occurrencesBelow] at same
    rw [same, here, none]
    rfl
  have later : (((List.range (rest.length + 1)).map (piece.length + sep.length + ·)).filter fun i =>
      Occurs sep (piece ++ (sep ++ rest)) i) =
        (occurrences sep rest).map (piece.length + sep.length + ·) := by
    rw [List.filter_map, occurrences, occurrencesBelow]
    congr 1
    apply List.filter_congr
    intro i _
    simp only [Function.comp_apply, occurs_later]
  have whole : (piece ++ (sep ++ rest)).length + 1 =
      piece.length + sep.length + (rest.length + 1) := by
    simp only [List.length_append]
    omega
  rw [occurrences, occurrencesBelow, whole, List.range_add, List.filter_append, first, later]
  rfl

/-- Every list is put together from pieces without the separator. -/
theorem exists_pieces (nonempty : sep ≠ []) (str : List α) :
    ∃ first others, str = sep.intercalate (first :: others) ∧
      ∀ piece ∈ first :: others, FreeOf sep piece := by
  have positive := List.length_pos_iff.mpr nonempty
  induction bound : str.length using Nat.strong_induction_on generalizing str with
  | _ n ih =>
    by_cases clean : FreeOf sep str
    · exact ⟨str, [], List.intercalate_singleton.symm, by simpa using clean⟩
    · -- cut at the first occurrence
      have occurs : ∃ i, Occurs sep str i := by
        simpa [FreeOf] using clean
      have fits := (Nat.find_spec occurs).1
      obtain ⟨second, others, rest_eq, pieces⟩ := ih _ (by rw [List.length_drop]; omega)
        (str.drop (Nat.find occurs + sep.length)) rfl
      refine ⟨str.take (Nat.find occurs), second :: others, ?_, ?_⟩
      · rw [List.intercalate_cons_cons, List.append_assoc, ← rest_eq]
        exact (Nat.find_spec occurs).split
      · intro piece member
        rcases List.mem_cons.mp member with rfl | member
        · intro i inside
          have earlier := inside.append (str.drop (Nat.find occurs))
          rw [List.take_append_drop] at earlier
          have := Nat.find_min' occurs earlier
          have := inside.1
          rw [List.length_take] at this
          omega
        · exact pieces piece member

end

end Ladder.Library
