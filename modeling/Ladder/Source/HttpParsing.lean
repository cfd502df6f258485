import Mathlib.Data.List.TakeWhile
import Ladder.Source.HttpMessage

/-!
# What ParseMessage makes of a message

`ParseMessage` of examples/http/HttpCodec.cpp over the lines of a message, for octet strings
of any size. `FindSubstr` looks at the part of the message that its size as an `int` covers,
and its last test for room can overflow; `stop` says where the search for the blank line
comes to rest.
-/
namespace Ladder.Source.Http
open Ladder.Library Ladder.Source.FindSubstr

/-! ## The search for the blank line -/

def blankLine : Bytes := kHeaderBreak ++ kHeaderBreak

/-- A line break at a position. -/
abbrev BreakAt (seen : Bytes) (i : Nat) : Prop := Occurs kHeaderBreak seen i

/-- The position at which the search for the blank line finds no more room. It passes a line
break and the two octets behind it at once, unless these are a line break as well. -/
def stop (seen : Bytes) : Nat :=
  if BreakAt seen (seen.length - 4) ∧ ¬ BreakAt seen (seen.length - 2) then seen.length - 1
  else if BreakAt seen (seen.length - 4) ∨ BreakAt seen (seen.length - 5) ∧
    ¬ BreakAt seen (seen.length - 3) then
    seen.length - 2
  else seen.length - 3

/-- The test for room overflows at the end of the search. -/
def Overruns (message : Bytes) : Prop := 2 ^ 31 ≤ stop (visible message) + 4

instance (message : Bytes) : Decidable (Overruns message) := inferInstanceAs (Decidable (_ ≤ _))

section
variable {seen : Bytes} {i k : Nat} {n : Int}

theorem stop_bounds (seen : Bytes) : seen.length - 3 ≤ stop seen ∧ stop seen ≤ seen.length - 1 := by
  unfold stop
  split
  · omega
  · split <;> omega

theorem fallback_unique {w : Bytes} {m : Int} (one : Fallback w k n) (other : Fallback w k m) :
    n = m := by
  have below {n m : Int} (one : Fallback w k n) (other : Fallback w k m) : ¬ n < m := by
    intro less
    obtain ⟨b, rfl⟩ := Int.eq_ofNat_of_zero_le (show 0 ≤ m by have := one.trail.low; omega)
    exact other.stops b rfl (one.trail.passed b (other.trail.border b rfl) less)
  have := below one other
  have := below other one
  omega

/-- How far the search moves on from a match of `k` letters. -/
theorem blankLine_shift (inside : k ≤ 4) (fallback : Fallback (blankLine ++ [0]) k n) :
    (k : Int) - n = if k ≤ 1 then 1 else if k ≤ 3 then 3 else 2 := by
  obtain ⟨built, build_eq, filled, -⟩ :=
    findSubstr_eq_search (show blankLine.length < 2 ^ 31 - 1 by decide)
  have table : (build blankLine blankLine.length (firstCell blankLine)).map Building.next =
      some [some (-1), some 0, some (-1), some 0, some 2] := by
    decide +kernel
  rw [build_eq, Option.map_some] at table
  have cells := filled.cells
  rw [Option.some.inj table] at cells
  obtain ⟨m, read, same⟩ := cells k inside
  obtain rfl := fallback_unique fallback same
  interval_cases k
  all_goals
    obtain rfl := Option.some.inj read
    decide

theorem breakAt_iff : BreakAt seen i ↔ seen[i]? = some 13 ∧ seen[i + 1]? = some 10 := by
  constructor
  · intro occurs
    exact ⟨occurs.2 0 (by decide), occurs.2 1 (by decide)⟩
  · rintro ⟨cr, lf⟩
    obtain ⟨inside, -⟩ := List.getElem?_eq_some_iff.mp lf
    refine ⟨inside, ?_⟩
    intro l below
    have short : l < 2 := below
    interval_cases l
    · exact cr
    · exact lf

theorem breakAt_next (here : BreakAt seen i) : ¬ BreakAt seen (i + 1) := by
  rw [breakAt_iff] at here ⊢
  rintro ⟨cr, -⟩
  rw [here.2] at cr
  cases cr

/-- The three ways on from a position: one further if there is no line break, three further if
there is one without another behind it, two further on a blank line. -/
theorem blankLine_ways (matched : Matches blankLine seen i k) (inside : k ≤ 4)
    (mismatch : k < 4 → seen[i + k]? ≠ blankLine[k]?) (fallback : Fallback (blankLine ++ [0]) k n) :
    ((k : Int) - n = 1 ∧ ¬ BreakAt seen i) ∨
      ((k : Int) - n = 3 ∧ BreakAt seen i ∧ ¬ BreakAt seen (i + 2)) ∨
      (k : Int) - n = 2 ∧ BreakAt seen i ∧ BreakAt seen (i + 2) := by
  have moved := blankLine_shift inside fallback
  simp only [breakAt_iff]
  interval_cases k
  · refine .inl ⟨moved, ?_⟩
    rintro ⟨cr, -⟩
    exact mismatch (by decide) cr
  · refine .inl ⟨moved, ?_⟩
    rintro ⟨-, lf⟩
    exact mismatch (by decide) lf
  · refine .inr (.inl ⟨moved, ⟨matched 0 (by decide), matched 1 (by decide)⟩, ?_⟩)
    rintro ⟨cr, -⟩
    exact mismatch (by decide) cr
  · refine .inr (.inl ⟨moved, ⟨matched 0 (by decide), matched 1 (by decide)⟩, ?_⟩)
    rintro ⟨-, lf⟩
    exact mismatch (by decide) lf
  · exact .inr (.inr ⟨moved, ⟨matched 0 (by decide), matched 1 (by decide)⟩,
      matched 2 (by decide), matched 3 (by decide)⟩)

/-- Where the search can be: never right behind the first octet of a line break, and, once no
room is left, where `stop` says. -/
structure OnWay (seen : Bytes) (i : Int) : Prop where
  behind : ∀ p : Nat, (p : Int) + 1 = i → ¬ BreakAt seen p
  ends : i + 4 ≤ seen.length ∨ i = stop seen

/-- `stop` in terms of the last position with room. -/
theorem stop_of (size : seen.length = i + 4) :
    stop seen =
      if BreakAt seen i ∧ ¬ BreakAt seen (i + 2) then i + 3
      else if BreakAt seen i ∨ BreakAt seen (i - 1) ∧ ¬ BreakAt seen (i + 1) then i + 2
      else i + 1 := by
  have first : seen.length - 4 = i := by omega
  have second : seen.length - 2 = i + 2 := by omega
  have third : seen.length - 5 = i - 1 := by omega
  have fourth : seen.length - 3 = i + 1 := by omega
  have fifth : seen.length - 1 = i + 3 := by omega
  simp only [stop, first, second, third, fourth, fifth]

theorem onWay_next {i' : Int} (room : i + 4 ≤ seen.length) (way : OnWay seen i)
    (ways : (i' = i + 1 ∧ ¬ BreakAt seen i) ∨
      (i' = i + 3 ∧ BreakAt seen i ∧ ¬ BreakAt seen (i + 2)) ∨
      i' = i + 2 ∧ BreakAt seen i ∧ BreakAt seen (i + 2)) : OnWay seen i' := by
  rcases ways with ⟨rfl, none⟩ | ⟨rfl, here, none⟩ | ⟨rfl, here, there⟩
  · refine ⟨?_, ?_⟩
    · intro p eq
      obtain rfl : p = i := by omega
      exact none
    · by_cases more : (i : Int) + 1 + 4 ≤ seen.length
      · exact .inl more
      · right
        have before : ¬ BreakAt seen (i - 1) := by
          rcases Nat.eq_zero_or_pos i with rfl | positive
          · exact none
          · exact way.behind _ (by omega)
        rw [stop_of (i := i) (by omega), if_neg (fun both => none both.1),
          if_neg (by rintro (h | h); exacts [none h, before h.1])]
        omega
  · refine ⟨?_, ?_⟩
    · intro p eq
      obtain rfl : p = i + 2 := by omega
      exact none
    · by_cases more : (i : Int) + 3 + 4 ≤ seen.length
      · exact .inl more
      · right
        have next := breakAt_next here
        obtain size | size | size : seen.length = i + 4 ∨ seen.length = i + 5 ∨
          seen.length = i + 6 := by omega
        · rw [stop_of size, if_pos ⟨here, none⟩]
          omega
        · rw [stop_of (i := i + 1) size, if_neg (fun both => next both.1),
            if_pos (.inr ⟨here, none⟩)]
          omega
        · rw [stop_of (i := i + 2) size, if_neg (fun both => none both.1),
            if_neg (by rintro (h | h); exacts [none h, next h.1])]
          omega
  · refine ⟨?_, ?_⟩
    · intro p eq
      obtain rfl : p = i + 1 := by omega
      exact breakAt_next here
    · by_cases more : (i : Int) + 2 + 4 ≤ seen.length
      · exact .inl more
      · right
        have next := breakAt_next here
        obtain size | size : seen.length = i + 4 ∨ seen.length = i + 5 := by omega
        · rw [stop_of size, if_neg (fun both => both.2 there), if_pos (.inl here)]
          omega
        · rw [stop_of (i := i + 1) size, if_neg (fun both => next both.1),
            if_neg (by rintro (h | h); exacts [next h, h.2 there])]
          omega

end

theorem findSubstr_blankLine_isSome (message : Bytes) :
    (findSubstr message blankLine).isSome = true ↔ ¬ Overruns message := by
  have length := visible_length message
  have narrow := visible_length_lt message
  obtain ⟨low, high⟩ := stop_bounds (visible message)
  obtain ⟨built, -, filled, whole⟩ :=
    findSubstr_eq_search (show blankLine.length < 2 ^ 31 - 1 by decide)
  rw [whole, Option.isSome_map, Overruns]
  rcases Int.lt_or_le (int message.length) 0 with negative | nonneg
  · rw [search_negative negative (by decide)]
    exact iff_of_true rfl (by omega)
  · rw [show int message.length = ((visible message).length : Int) by omega]
    by_cases widest : (visible message).length + 1 = 2 ^ 31
    · rw [search_widest (visible_shows message) filled widest (by decide)]
      exact iff_of_false Bool.false_ne_true (by omega)
    · obtain ⟨final, tracks, way, past, result⟩ :=
        search_reaches (visible_shows message) filled (by omega)
        (by decide) (fun s => 4 ≤ (visible message).length → OnWay (visible message) s.i)
        (fun _ => ⟨fun p eq => by dsimp only at eq; omega, .inl (by dsimp only; omega)⟩) (by
          intro s s' tracks room advances way long
          cases advances with
          | letter stays => exact stays ▸ way long
          | @leaves i k n here matched inside mismatch fallback onward =>
            rw [here] at room way
            refine onWay_next (by have : blankLine.length = 4 := rfl; omega) (way long) ?_
            rcases blankLine_ways matched inside mismatch fallback with
              ⟨moved, letters⟩ | ⟨moved, letters⟩ | ⟨moved, letters⟩
            · exact .inl ⟨by omega, letters⟩
            · exact .inr (.inl ⟨by omega, letters⟩)
            · exact .inr (.inr ⟨by omega, letters⟩))
      have four : (blankLine.length : Int) = 4 := rfl
      obtain ⟨i, eq, bound, -⟩ := tracks.index
      rw [result, four]
      by_cases long : 4 ≤ (visible message).length
      · have stopped := (way long).ends.resolve_left (by omega)
        split
        · exact iff_of_true rfl (by omega)
        · exact iff_of_false Bool.false_ne_true (by omega)
      · rw [if_pos (by omega)]
        exact iff_of_true rfl (by omega)

/-- The search for the blank line, for messages of any size: undefined if the last test for
room overflows, and otherwise all blank lines of the visible part. -/
theorem findSubstr_blankLine (message : Bytes) :
    findSubstr message blankLine =
      if Overruns message then none else
        some ((occurrences blankLine (visible message)).map Nat.cast) := by
  have defined := findSubstr_blankLine_isSome message
  by_cases overruns : Overruns message
  · rw [if_pos overruns, ← Option.not_isSome_iff_eq_none]
    exact fun found => defined.mp found overruns
  · rw [if_neg overruns]
    obtain ⟨positions, found⟩ := Option.isSome_iff_exists.mp (defined.mpr overruns)
    rw [found, findSubstr_visible (by decide) (by decide) (by decide) found]

/-- Behind a blank line at the end of the message the search rests two octets before its end. -/
theorem stop_of_blankLine (front : Bytes) : stop (front ++ blankLine) = front.length + 2 := by
  have last : BreakAt (front ++ blankLine) (front.length + 2) :=
    (occurs_append_right kHeaderBreak front blankLine 2).mpr (by decide)
  have first : BreakAt (front ++ blankLine) front.length :=
    (occurs_append_right kHeaderBreak front blankLine 0).mpr (by decide)
  have size : (front ++ blankLine).length = front.length + 4 := by
    rw [List.length_append]
    rfl
  unfold stop
  rw [size, Nat.add_sub_cancel, show front.length + 4 - 2 = front.length + 2 from rfl,
    if_neg fun open_end => open_end.2 last, if_pos (.inl first)]

/-- Messages of ordinary size do not overrun. -/
theorem not_overruns_of_small {message : Bytes} (small : message.length < 2 ^ 31 - 3) :
    ¬ Overruns message := by
  have high := (stop_bounds (visible message)).2
  rw [visible_of_small (by omega)] at high
  rw [Overruns, visible_of_small (by omega)]
  omega

/-! ## The head of a message -/

/-- The lines of a head, with line breaks in between. -/
def joined (first : Bytes) (others : List Bytes) : Bytes :=
  kHeaderBreak.intercalate (first :: others)

/-- The lines in front of the first blank line, and what follows it. -/
structure Heads (message first : Bytes) (others : List Bytes) (rest : Bytes) : Prop where
  whole : message = joined first others ++ (blankLine ++ rest)
  clean : ∀ piece ∈ first :: others, FreeOf kHeaderBreak piece
  earliest : ∀ k < (joined first others).length, ¬ Occurs blankLine message k

section
variable {message seen first rest : Bytes} {others : List Bytes} {i : Nat}

theorem exists_heads (occurs : Occurs blankLine seen i) :
    ∃ first others rest, Heads seen first others rest := by
  have some : ∃ k, Occurs blankLine seen k := ⟨i, occurs⟩
  have bound := (Nat.find_spec some).1
  obtain ⟨first, others, head_eq, clean⟩ :=
    exists_pieces (show kHeaderBreak ≠ [] by decide) (seen.take (Nat.find some))
  have size : (joined first others).length = Nat.find some := by
    rw [joined, ← head_eq, List.length_take]
    omega
  refine ⟨first, others, seen.drop (Nat.find some + 4), ?_, clean, ?_⟩
  · rw [joined, ← head_eq]
    exact (Nat.find_spec some).split
  · intro k before
    exact Nat.find_min some (size ▸ before)

theorem Heads.occurs (heads : Heads seen first others rest) :
    Occurs blankLine seen (joined first others).length := by
  rw [heads.whole]
  refine ⟨by simp, ?_⟩
  intro k below
  rw [List.getElem?_append_right (by omega), List.getElem?_append_left (by omega)]
  congr 1
  omega

/-- The end of the head is the first position that the search finds. -/
theorem Heads.occurrences (heads : Heads seen first others rest) :
    ∃ later, occurrences blankLine seen = (joined first others).length :: later := by
  have member := mem_occurrences.mpr heads.occurs
  cases all : Library.occurrences blankLine seen with
  | nil =>
    rw [all] at member
    cases member
  | cons position later =>
    obtain ⟨occurs, none⟩ := occurrences_head all
    rcases Nat.lt_trichotomy position (joined first others).length with before | rfl | behind
    · exact absurd occurs (heads.earliest position before)
    · exact ⟨later, rfl⟩
    · exact absurd heads.occurs (none _ behind)

theorem Heads.length_eq (heads : Heads seen first others rest) :
    seen.length = (joined first others).length + 4 + rest.length := by
  rw [heads.whole]
  simp only [List.length_append, show blankLine.length = 4 from rfl]
  omega

theorem Heads.unique {first' rest' : Bytes} {others' : List Bytes}
    (heads : Heads seen first others rest)
    (heads' : Heads seen first' others' rest') :
    first = first' ∧ others = others' ∧ rest = rest' := by
  have lengths : (joined first others).length = (joined first' others').length := by
    rcases Nat.lt_trichotomy (joined first others).length
      (joined first' others').length with less | eq | more
    · exact absurd heads.occurs (heads'.earliest _ less)
    · exact eq
    · exact absurd heads'.occurs (heads.earliest _ more)
  obtain ⟨head_eq, tail_eq⟩ := List.append_inj (heads.whole.symm.trans heads'.whole) lengths
  obtain ⟨first_eq, others_eq⟩ :=
    pieces_unique kHeaderBreak_unbordered (by decide) heads.clean heads'.clean head_eq
  exact ⟨first_eq, others_eq, List.append_cancel_left tail_eq⟩

/-- Another continuation behind the blank line leaves the head as it is. -/
theorem Heads.continued (heads : Heads seen first others rest) (other : Bytes) :
    Heads (joined first others ++ (blankLine ++ other)) first others other := by
  refine ⟨rfl, heads.clean, ?_⟩
  intro k before occurs
  rw [← List.append_assoc] at occurs
  have front := occurs.within (by
    rw [List.length_append, show blankLine.length = 4 from rfl]
    omega)
  have earlier := front.append rest
  rw [List.append_assoc, ← heads.whole] at earlier
  exact heads.earliest k before earlier

/-- Lines of which only the first may be empty, and a blank line behind them. -/
theorem heads_of_lines (whole : message = joined first others ++ (blankLine ++ rest))
    (clean : ∀ piece ∈ first :: others, FreeOf kHeaderBreak piece)
    (filled : ∀ piece ∈ others, piece ≠ []) : Heads message first others rest := by
  refine ⟨whole, clean, ?_⟩
  intro k before occurs
  rw [whole, show blankLine ++ rest =
    kHeaderBreak ++ (kHeaderBreak ++ rest) from List.append_assoc _ _ _] at occurs
  exact absurd (double_occurs kHeaderBreak_unbordered clean filled occurs) (Nat.not_le.mpr before)

theorem length_le_joined {piece : Bytes} (member : piece ∈ first :: others) :
    piece.length ≤ (joined first others).length := by
  unfold joined
  induction others generalizing first with
  | nil =>
    obtain rfl := List.mem_singleton.mp member
    rw [List.intercalate_singleton]
  | cons second others ih =>
    rw [List.intercalate_cons_cons, List.length_append]
    rcases List.mem_cons.mp member with rfl | later
    · rw [List.length_append]
      omega
    · have := ih later
      omega

variable {handleMessage : HttpContext → Except Failure (Int × HttpContext)} {ctx : HttpContext}

theorem parse_undefined (overruns : Overruns message) :
    parseMessage handleMessage message ctx = .error .undefined := by
  have none := findSubstr_blankLine message
  rw [if_pos overruns] at none
  unfold parseMessage
  rw [show kHeaderBreak ++ kHeaderBreak = blankLine from rfl, none]
  rfl

/-- Without a blank line in its visible part a message is incomplete. -/
theorem parse_incomplete (fits : ¬ Overruns message) (none : FreeOf blankLine (visible message)) :
    parseMessage handleMessage message ctx = .ok ⟨-1, 0, ctx⟩ := by
  have found := findSubstr_blankLine message
  rw [if_neg fits, occurrences_eq_nil_iff.mpr none] at found
  unfold parseMessage
  rw [show kHeaderBreak ++ kHeaderBreak = blankLine from rfl, found]
  rfl

/-- There is a blank line to be seen or there is none. -/
theorem heads_or_free (message : Bytes) : FreeOf blankLine (visible message) ∨
    ∃ first others rest, Heads (visible message) first others rest := by
  by_cases headless : FreeOf blankLine (visible message)
  · exact .inl headless
  · obtain ⟨i, occurs⟩ : ∃ i, Occurs blankLine (visible message) i := by
      simpa [FreeOf] using headless
    exact .inr (exists_heads occurs)

/-- The head is the same with more octets behind the message. -/
theorem Heads.append (heads : Heads message first others rest) (more : Bytes) :
    Heads (message ++ more) first others (rest ++ more) := by
  have whole := heads.continued (rest ++ more)
  rwa [← List.append_assoc blankLine, ← List.append_assoc, ← heads.whole] at whole

/-- The head of the visible part is the head of the message. -/
theorem heads_of_visible (heads : Heads (visible message) first others rest) :
    ∃ more, Heads message first others more := by
  obtain ⟨hidden, parts⟩ := visible_shows message
  exact ⟨rest ++ hidden, parts ▸ heads.append hidden⟩

/-- The head of a message is seen when its size, as an `int`, covers it. -/
theorem Heads.shown (heads : Heads message first others rest)
    (covers : (joined first others).length + 4 ≤ int message.length) :
    ∃ seen, Heads (visible message) first others seen := by
  have front : visible message = joined first others ++ (blankLine ++
      rest.take ((int message.length).toNat - ((joined first others).length + 4))) := by
    rw [visible]
    generalize int message.length = total at covers
    rw [heads.whole, ← List.append_assoc, ← List.append_assoc, List.take_append, List.length_append,
      show blankLine.length = 4 from rfl, List.take_of_length_le]
    rw [List.length_append, show blankLine.length = 4 from rfl]
    omega
  exact ⟨_, front ▸ heads.continued _⟩

/-- Otherwise it is parsed by the lines of its head. -/
theorem parse_of_heads (fits : ¬ Overruns message)
    (heads : Heads (visible message) first others rest) :
    parseMessage handleMessage message ctx =
      parseLines (fun _ => none) others >>= fun result =>
        if result.2 then
          parsePayload handleMessage message (joined first others).length
            (ctx.withHead first result.1)
        else .ok ⟨HttpStatusCode.kBadRequest.toInt, 0, ctx.withHead first result.1⟩ := by
  obtain ⟨later, positions⟩ := heads.occurrences
  have found := findSubstr_blankLine message
  rw [if_neg fits, positions, List.map_cons] at found
  obtain ⟨hidden, parts⟩ := visible_shows message
  have size := heads.length_eq
  have narrow := visible_length_lt message
  have lines := parseFrom_lines handleMessage ctx (blankLine ++ rest ++ hidden) heads.clean
    (show (joined first others).length < 2 ^ 31 - 3 by omega)
  have cut : kHeaderBreak.intercalate (first :: others) ++
      (blankLine ++ rest ++ hidden) = message := by
    rw [← parts, heads.whole, joined, List.append_assoc, List.append_assoc, List.append_assoc]
  rw [cut] at lines
  unfold parseMessage
  rw [show kHeaderBreak ++ kHeaderBreak = blankLine from rfl, found, defined, ok_bind]
  exact lines

/-! ## The payload -/

/-- `payload_length` counts what is visible behind the blank line. -/
theorem available_eq (heads : Heads (visible message) first others rest) :
    int (message.length - ((joined first others).length + 2 * kHeaderBreak.length : Int)) =
      rest.length := by
  have size := heads.length_eq
  have length := visible_length message
  have value : (int message.length : Int) = (joined first others).length + 4 +
      rest.length := by omega
  rw [show (kHeaderBreak.length : Int) = 2 from rfl]
  unfold int at value ⊢
  rw [Int.bmod_def] at value ⊢
  omega

def HttpContext.withPayload (payload : Bytes) (ctx : HttpContext) : HttpContext :=
  { ctx with payload := payload }

theorem payloadLength_le {headers : Headers} {available size : Int} (nonneg : 0 ≤ available)
    (enough : payloadLength headers available = some size) : -2 ^ 31 ≤ size ∧ size ≤ available := by
  unfold payloadLength at enough
  split at enough
  · split at enough
    · cases enough
    · obtain rfl := Option.some.inj enough
      exact ⟨int_ge _, by omega⟩
  · obtain rfl := Option.some.inj enough
    omega

/-- `ParseMessage` behind the head: incomplete, or with the length of what was taken. -/
theorem parsePayload_of_heads (heads : Heads (visible message) first others rest) :
    parsePayload handleMessage message (joined first others).length ctx =
      match payloadLength ctx.headers rest.length with
      | none => .ok ⟨-1, 0, ctx⟩
      | some size =>
        handleMessage
          (ctx.withPayload ((message.drop ((joined first others).length + 4)).take (sizeT size)))
            >>=
          fun result => .ok ⟨result.1, (joined first others).length + 4 + size, result.2⟩ := by
  have available := available_eq heads
  have size := heads.length_eq
  have narrow := visible_length_lt message
  have inside : (visible message).length ≤ message.length := (visible_shows message).length_le
  unfold parsePayload
  dsimp only
  rw [available]
  cases enough : payloadLength ctx.headers rest.length with
  | none => rfl
  | some count =>
    obtain ⟨low, high⟩ := payloadLength_le (Int.natCast_nonneg _) enough
    have start : ((joined first others).length : Int) + 2 * kHeaderBreak.length =
        (((joined first others).length + 4 : Nat) : Int) := rfl
    have length : int ((((joined first others).length + 4 : Nat) : Int) + count) =
        (joined first others).length + 4 + count := by
      rw [int_of_range (by omega) (by omega)]
      omega
    dsimp only
    rw [start, sizeT_natCast (by omega), substr_ok (by omega), ok_bind, length]
    rfl

end

/-! ## Header lines -/

/-- A recognised header line: the field, and the text behind the colon. -/
def headerField (line : Bytes) : Option (HttpHeaderField × Bytes) :=
  match line.findIdx? (· == 58) with
  | some j => (kHeaderFields.lookup (line.take j)).map fun field => (field, line.drop (j + 1))
  | none => none

def hasColon (line : Bytes) : Bool := line.any (· == 58)

/-- The lines that are looked at: up to the first one without a colon. -/
def goodLines (lines : List Bytes) : List Bytes := lines.takeWhile hasColon

/-- A recognised line that ends with its colon. -/
def Bare (lines : List Bytes) : Prop := ∃ line ∈ lines, (headerField line).any (·.2.isEmpty) = true

instance (lines : List Bytes) : Decidable (Bare lines) := inferInstanceAs (Decidable (∃ _ ∈ _, _))

/-- The text behind the colon in the last line that names the field. -/
def lastText (field : HttpHeaderField) : List Bytes → Option Bytes
  | [] => none
  | line :: rest =>
    (lastText field rest).or
      ((headerField line).bind fun named => if named.1 = field then some named.2 else none)

/-- The headers behind the lines: what is stored leaves out the first octet behind the colon. -/
def storedHeaders (lines : List Bytes) (headers : Headers) : Headers := fun field =>
  ((lastText field lines).map (List.drop 1)).or (headers field)

theorem lookup_kHeaderFields :
    ∀ field : HttpHeaderField, kHeaderFields.lookup (kHeaderFieldStrs field) = some field := by
  intro field
  cases field <;> decide

theorem name_of_lookup {key : Bytes} {field : HttpHeaderField}
    (found : kHeaderFields.lookup key = some field) :
    key = kHeaderFieldStrs field := by
  obtain ⟨other, -, same⟩ := List.mem_map.mp (mem_of_lookup found)
  rw [← (Prod.mk.inj same).1, (Prod.mk.inj same).2]

theorem name_no_colon (field : HttpHeaderField) :
    (kHeaderFieldStrs field).findIdx? (· == 58) = none := by
  cases field <;> decide

section
variable {line text : Bytes} {field : HttpHeaderField} {headers : Headers} {lines : List Bytes}

/-- The recognised lines are those of the form `Field:text`. -/
theorem headerField_iff :
    headerField line = some (field, text) ↔ line = kHeaderFieldStrs field ++ 58 :: text := by
  constructor
  · intro named
    unfold headerField at named
    split at named
    · next j found =>
      obtain ⟨known, lookup, same⟩ := Option.map_eq_some_iff.mp named
      obtain ⟨rfl, rfl⟩ := Prod.mk.inj same
      obtain ⟨inside, colon, -⟩ := List.findIdx?_eq_some_iff_getElem.mp found
      rw [← name_of_lookup lookup, ← beq_iff_eq.mp colon]
      rw [List.getElem_cons_drop, List.take_append_drop]
    · cases named
  · rintro rfl
    have found : (kHeaderFieldStrs field ++ 58 :: text).findIdx? (· == 58) =
        some (kHeaderFieldStrs field).length := by
      rw [List.findIdx?_append, name_no_colon, List.findIdx?_cons]
      simp
    rw [headerField, found]
    simp [lookup_kHeaderFields]

theorem parseLine_good (colon : hasColon line = true) (small : line.length < 2 ^ 31 - 2) :
    parseLine headers line =
      match headerField line with
      | none => .ok (some headers)
      | some (_, []) => .error .outOfRange
      | some (field, _ :: text) => .ok (some (headers.set field text)) := by
  obtain ⟨j, found⟩ : ∃ j, line.findIdx? (· == 58) = some j := by
    rw [← Option.isSome_iff_exists, List.findIdx?_isSome]
    exact colon
  obtain ⟨inside, -, -⟩ := List.findIdx?_eq_some_iff_getElem.mp found
  have position : positionColon line = j := by
    rw [positionColon, found]
    exact int_eq_of_small (by omega)
  unfold parseLine
  rw [position]
  dsimp only
  rw [if_neg (by omega), sizeT_natCast (by omega), substr_ok (Nat.zero_le _), ok_bind,
    List.drop_zero, headerField, found]
  dsimp only
  cases lookup : kHeaderFields.lookup (line.take j) with
  | none => rfl
  | some field =>
    have start : inInt ((j : Int) + 2) = some ((j + 2 : Nat) : Int) := by
      rw [inInt_of_range (by omega) (by omega)]
      rfl
    dsimp only
    rw [start, defined, ok_bind, sizeT_natCast (by omega), Option.map_some]
    cases behind : line.drop (j + 1) with
    | nil =>
      have short : line.length ≤ j + 1 := List.drop_eq_nil_iff.mp behind
      rw [substr, if_neg (by omega)]
      rfl
    | cons c text =>
      have long : j + 1 < line.length := by
        by_contra short
        rw [List.drop_eq_nil_of_le (by omega)] at behind
        cases behind
      have count : sizeT ((line.length : Int) - j - 2) = line.length - (j + 2) := by
        rw [show (line.length : Int) - j - 2 = ((line.length - (j + 2) : Nat) : Int) by omega,
          sizeT_natCast (by omega)]
      have value : line.drop (j + 2) = text := by
        rw [show j + 2 = j + 1 + 1 from rfl, ← List.drop_drop, behind]
        rfl
      rw [count, substr_ok (by omega), ok_bind, value, List.take_of_length_le]
      · rfl
      · rw [← value, List.length_drop]

theorem parseLine_bad (colon : hasColon line = false) : parseLine headers line = .ok none := by
  have none : line.findIdx? (· == 58) = none := by
    rw [← Option.not_isSome_iff_eq_none, List.findIdx?_isSome]
    exact Bool.eq_false_iff.mp colon
  unfold parseLine
  rw [show positionColon line = -1 by rw [positionColon, none]]
  rfl

/-- The header lines: an exception at a recognised line that ends with its colon, otherwise
the values stored and whether all lines have a colon. -/
theorem parseLines_eq (small : ∀ line ∈ lines, line.length < 2 ^ 31 - 2) :
    parseLines headers lines =
      if Bare (goodLines lines) then .error .outOfRange
      else .ok (storedHeaders (goodLines lines) headers, lines.all hasColon) := by
  induction lines generalizing headers with
  | nil =>
    rw [if_neg (by rintro ⟨line, member, -⟩; cases member)]
    rfl
  | cons line rest ih =>
    have later (headers : Headers) :=
      @ih headers fun line member => small line (List.mem_cons_of_mem _ member)
    unfold parseLines
    cases colon : hasColon line with
    | false =>
      rw [parseLine_bad colon, ok_bind, goodLines, List.takeWhile_cons_of_neg (by simp [colon]),
        if_neg (by rintro ⟨line, member, -⟩; cases member), List.all_cons, colon]
      rfl
    | true =>
      have good : goodLines (line :: rest) = line :: goodLines rest :=
        List.takeWhile_cons_of_pos colon
      rw [parseLine_good colon (small line List.mem_cons_self), good, List.all_cons,
        colon, Bool.true_and]
      have bare : Bare (line :: goodLines rest) ↔
          (headerField line).any (·.2.isEmpty) = true ∨ Bare (goodLines rest) := by
        simp [Bare]
      cases named : headerField line with
      | none =>
        rw [ok_bind]
        dsimp only
        rw [later]
        have same : storedHeaders (line :: goodLines rest) headers =
            storedHeaders (goodLines rest) headers := by
          funext field
          simp [storedHeaders, lastText, named]
        simp only [bare, named, Option.any_none, Bool.false_eq_true, false_or, same]
      | some entry =>
        obtain ⟨field, text⟩ := entry
        cases text with
        | nil =>
          rw [if_pos (bare.mpr (.inl (by simp [named])))]
          rfl
        | cons c text =>
          rw [ok_bind]
          dsimp only
          rw [later]
          have same : storedHeaders (goodLines rest) (headers.set field text) =
              storedHeaders (line :: goodLines rest) headers := by
            funext other
            simp only [storedHeaders, lastText, named, Option.bind_some, Headers.set]
            cases lastText other (goodLines rest) with
            | some value => rfl
            | none =>
              by_cases eq : other = field
              · simp [eq]
              · simp [eq, Ne.symm eq]
          simp only [bare, named, Option.any_some, List.isEmpty_cons,
            Bool.false_eq_true, false_or, same]

end

/-- A text stands behind the colon of one of the lines. -/
theorem lastText_mem {field : HttpHeaderField} {lines : List Bytes} {text : Bytes}
    (last : lastText field lines = some text) :
    ∃ line ∈ lines, headerField line = some (field, text) := by
  induction lines with
  | nil => cases last
  | cons line rest ih =>
    rw [lastText] at last
    rcases Option.or_eq_some_iff.mp last with later | ⟨-, here⟩
    · obtain ⟨other, member, named⟩ := ih later
      exact ⟨other, List.mem_cons_of_mem _ member, named⟩
    · obtain ⟨⟨other, behind⟩, named, same⟩ := Option.bind_eq_some_iff.mp here
      split at same
      · next field_eq =>
        obtain rfl := Option.some.inj same
        exact ⟨line, List.mem_cons_self, field_eq ▸ named⟩
      · cases same

theorem lastText_length {field : HttpHeaderField} {lines : List Bytes} {text : Bytes} {most : Nat}
    (small : ∀ line ∈ lines, line.length ≤ most) (last : lastText field lines = some text) :
    text.length ≤ most := by
  obtain ⟨line, member, named⟩ := lastText_mem last
  have size := congrArg List.length (headerField_iff.mp named)
  rw [List.length_append, List.length_cons] at size
  have := small line member
  omega

/-- A text is not empty, unless its line ends with the colon. -/
theorem text_filled {field : HttpHeaderField} {lines : List Bytes} {text : Bytes}
    (named : ¬ Bare lines) (last : lastText field lines = some text) : text ≠ [] := by
  rintro rfl
  obtain ⟨line, member, field_eq⟩ := lastText_mem last
  exact named ⟨line, member, by rw [field_eq]; rfl⟩

/-- What is kept of lines without line breaks has none. -/
theorem storedHeaders_clean {lines : List Bytes} (clean : ∀ line ∈ lines, FreeOf kHeaderBreak line)
    {field : HttpHeaderField} {value : Bytes}
    (stored : storedHeaders lines (fun _ => none) field = some value) :
    FreeOf kHeaderBreak value := by
  rw [storedHeaders, Option.or_none] at stored
  obtain ⟨text, last, rfl⟩ := Option.map_eq_some_iff.mp stored
  obtain ⟨line, member, named⟩ := lastText_mem last
  intro i occurs
  have inside :=
    (occurs_append_right kHeaderBreak (kHeaderFieldStrs field ++ 58 :: text.take 1) _ i).mpr occurs
  rw [List.append_assoc, List.cons_append, List.take_append_drop,
    ← headerField_iff.mp named] at inside
  exact clean line member _ inside

/-- The text behind a colon without one space at its front. -/
def fieldValue (text : Bytes) : Bytes := if text.head? = some 32 then text.tail else text

theorem storedHeaders_of_last {field : HttpHeaderField} {lines : List Bytes} {text : Bytes}
    {headers : Headers}
    (last : lastText field lines = some text) :
    storedHeaders lines headers field = some (text.drop 1) := by
  rw [storedHeaders, last]
  rfl

theorem goodLines_eq_self {lines : List Bytes} (colons : lines.all hasColon = true) :
    goodLines lines = lines :=
  List.takeWhile_eq_self_iff.mpr (List.all_eq_true.mp colons)

/-! ## Requests -/

/-- `HttpRequest::HandleMessage` always returns, and leaves headers and payload as they are. -/
theorem handleRequest_total (ctx : HttpContext) (line : ctx.startLine.length < 2 ^ 31 - 2)
    (encodings : ∀ value, ctx.headers .kAcceptEncoding = some value → value.length < 2 ^ 31 - 3) :
    ∃ status after, handleRequest ctx = .ok (status, after) ∧ status ≠ -1 ∧
      after.startLine = ctx.startLine ∧ after.headers = ctx.headers ∧
      after.payload = ctx.payload := by
  obtain ⟨word, words, split_eq, -, -⟩ :=
    splitString_total (show Unbordered (ascii " ") by decide) (by decide) (by decide)
    (show ctx.startLine.length + 1 < 2 ^ 31 - 1 by omega)
  have accepts : ∀ next : HttpContext, next.headers = ctx.headers →
      ∃ after, acceptEncoding next = .ok after ∧ after.startLine = next.startLine ∧
        after.headers = next.headers ∧
        after.payload = next.payload := by
    intro next same
    unfold acceptEncoding
    rw [same]
    cases stored : ctx.headers .kAcceptEncoding with
    | none => exact ⟨_, rfl, rfl, rfl, rfl⟩
    | some value =>
      have short := encodings value stored
      obtain ⟨enc, encs, encs_eq, -, -⟩ :=
        splitString_total (show Unbordered (ascii ", ") by decide) (by decide) (by decide)
        (show value.length + 2 < 2 ^ 31 - 1 by omega)
      dsimp only
      rw [encs_eq, ok_bind]
      exact ⟨_, rfl, rfl, rfl, rfl⟩
  unfold handleRequest
  rw [split_eq, ok_bind]
  split
  · next method uri version _ =>
    split
    · exact ⟨_, _, rfl, by decide, rfl, rfl, rfl⟩
    · next known _ =>
      split
      · obtain ⟨after, accepted, startLine, headers, payload⟩ :=
          accepts { ctx with method := known.toInt, uri := uri.tail, version := version } rfl
        refine ⟨HttpStatusCode.kOk.toInt, after, ?_, by decide, startLine, headers, payload⟩
        exact congrArg
          (fun result => result >>= fun ctx => Except.ok (HttpStatusCode.kOk.toInt, ctx)) accepted
      · exact ⟨_, _, rfl, by decide, rfl, rfl, rfl⟩
  · exact ⟨_, _, rfl, by decide, rfl, rfl, rfl⟩

theorem isDigit_not_space {c : UInt8} (digit : isDigit c = true) : ¬ isSpace c = true := by
  simp only [isDigit, Bool.and_eq_true, decide_eq_true_eq, UInt8.le_iff_toNat_le] at digit
  simp only [isSpace, Bool.or_eq_true, Bool.and_eq_true, decide_eq_true_eq, beq_iff_eq,
    UInt8.le_iff_toNat_le]
  have low : (48 : UInt8).toNat = 48 := rfl
  have high : (13 : UInt8).toNat = 13 := rfl
  rintro (rfl | ⟨-, small⟩)
  · exact absurd digit.1 (by decide)
  · omega

/-- The blanks of a header line. -/
def isBlank (c : UInt8) : Bool := c == 32 || c == 9

theorem isSpace_of_blank {c : UInt8} (blank : isBlank c = true) : isSpace c = true := by
  simp only [isBlank, Bool.or_eq_true, beq_iff_eq] at blank
  rcases blank with rfl | rfl
  · rfl
  · rfl

theorem isBlank_not_digit {c : UInt8} (blank : isBlank c = true) : isDigit c = false := by
  simp only [isBlank, Bool.or_eq_true, beq_iff_eq] at blank
  rcases blank with rfl | rfl
  · rfl
  · rfl

/-- `atoi` passes the blanks in front of a number and stops behind it. -/
theorem atoi_padded {front digits back : Bytes} (blanks : ∀ c ∈ front, isBlank c = true)
    (decimal : ∀ c ∈ digits, isDigit c = true) (rest : ∀ c ∈ back, isBlank c = true) :
    atoi (front ++ (digits ++ back)) = int (min (2 ^ 63 - 1) (numeralValue digits)) := by
  have passed : (front ++ (digits ++ back)).dropWhile isSpace =
      (digits ++ back).dropWhile isSpace :=
    List.dropWhile_append_of_pos fun c member => isSpace_of_blank (blanks c member)
  have ends : back.takeWhile isDigit = [] := by
    cases back with
    | nil => rfl
    | cons c back =>
      rw [List.takeWhile_cons_of_neg]
      rw [isBlank_not_digit (rest c List.mem_cons_self)]
      exact Bool.false_ne_true
  unfold atoi
  dsimp only
  rw [passed]
  cases digits with
  | nil =>
    have gone : back.dropWhile isSpace = [] :=
      List.dropWhile_eq_nil_iff.mpr fun c member => isSpace_of_blank (rest c member)
    rw [List.nil_append, gone]
    rfl
  | cons digit digits =>
    have here := decimal digit List.mem_cons_self
    have taken : ((digit :: digits) ++ back).takeWhile isDigit = digit :: digits := by
      rw [List.takeWhile_append_of_pos decimal, ends, List.append_nil]
    rw [List.cons_append, List.dropWhile_cons_of_neg (isDigit_not_space here)]
    split
    · next sign =>
      rw [(List.cons.inj sign).1] at here
      cases here
    · next sign =>
      rw [(List.cons.inj sign).1] at here
      cases here
    · rw [← List.cons_append, taken]
      dsimp only
      rw [Int.one_mul, Int.max_eq_right (by omega)]

/-- The length of the body according to the header lines, if they are good. -/
def bodyLength (others : List Bytes) : Int :=
  ((lastText .kContentLength others).map fun text => atoi (text.drop 1)).getD 0

/-! ## The body that a head announces -/

def lower (c : UInt8) : UInt8 := if 65 ≤ c && c ≤ 90 then c + 32 else c

/-- The text behind the colon of a line that names Content-Length, in any spelling. -/
def lengthText (line : Bytes) : Option Bytes :=
  match line.findIdx? (· == 58) with
  | some j =>
    if (line.take j).map lower = ascii "content-length" then some (line.drop (j + 1)) else none
  | none => none

/-- The value of a decimal number with blanks around it. -/
def decimal (text : Bytes) : Option Nat :=
  let padded := text.dropWhile isBlank
  let digits := padded.takeWhile isDigit
  if !digits.isEmpty && (padded.dropWhile isDigit).all isBlank then some (numeralValue digits)
  else none

/-- The octets of the body according to the lines behind the start line: none without a
Content-Length line, and the number when all such lines give the same. -/
def announced (others : List Bytes) : Option Nat :=
  match others.filterMap lengthText with
  | [] => some 0
  | text :: more => (decimal text).filter fun n => more.all fun other => decimal other == some n

/-- Such lines can be counted by: the number fits an `int`, the last line spelled
`Content-Length` has an octet behind its colon that the number can do without, and there is
such a line if there is a body. Without a number, what is read in its place is not negative. -/
def countable (others : List Bytes) : Bool :=
  match announced others, lastText .kContentLength others with
  | some n, some text => n < 2 ^ 31 && [some 32, some 9, some 48].contains text.head?
  | some n, none => n == 0
  | none, some text => 0 ≤ atoi (text.drop 1)
  | none, none => true

section
variable {text : Bytes} {others : List Bytes} {n : Nat}

/-- A number is a string of digits with blanks around it. -/
theorem decimal_eq_some (number : decimal text = some n) :
    ∃ front digits back, text = front ++ (digits ++ back) ∧ digits ≠ [] ∧
      (∀ c ∈ front, isBlank c = true) ∧ (∀ c ∈ digits, isDigit c = true) ∧
      (∀ c ∈ back, isBlank c = true) ∧ n = numeralValue digits := by
  unfold decimal at number
  dsimp only at number
  split at number
  · next good =>
    rw [Bool.and_eq_true, Bool.not_eq_true', List.isEmpty_eq_false_iff, List.all_eq_true] at good
    refine ⟨text.takeWhile isBlank, (text.dropWhile isBlank).takeWhile isDigit,
      (text.dropWhile isBlank).dropWhile isDigit, ?_, good.1, ?_, ?_, good.2,
      (Option.some.inj number).symm⟩
    · rw [List.takeWhile_append_dropWhile, List.takeWhile_append_dropWhile]
    · exact fun c member => List.mem_takeWhile_imp member
    · exact fun c member => List.mem_takeWhile_imp member
  · cases number

/-- What `atoi` reads behind the first octet is the number when that octet is a blank or a
zero and the number fits an `int`. -/
theorem atoi_decimal_iff (number : decimal text = some n) :
    atoi (text.drop 1) = n ↔ n < 2 ^ 31 ∧ text.head? ∈ [some 32, some 9, some 48] := by
  obtain ⟨front, digits, back, rfl, filled, blanks, all, rest, rfl⟩ := decimal_eq_some number
  -- reading stops at the bounds of a `long` and keeps 32 bits
  have reads (m : Nat) : int (min (2 ^ 63 - 1) (m : Int)) ≤ m ∧
      (int (min (2 ^ 63 - 1) (m : Int)) = m ↔ m < 2 ^ 31) := by
    have high := int_lt (min (2 ^ 63 - 1) (m : Int))
    unfold int at *
    rw [Int.bmod_def] at *
    omega
  cases front with
  | cons c front =>
    have blank := blanks c List.mem_cons_self
    rw [List.cons_append, List.drop_succ_cons, List.drop_zero, atoi_padded
      (fun c member => blanks c (List.mem_cons_of_mem _ member)) all rest, (reads _).2]
    simp only [isBlank, Bool.or_eq_true, beq_iff_eq] at blank
    rcases blank with rfl | rfl
    · simp
    · simp
  | nil =>
    cases digits with
    | nil => exact absurd rfl filled
    | cons digit digits =>
      have here := all digit List.mem_cons_self
      have value : atoi ([] ++ (digits ++ back)) = int (min (2 ^ 63 - 1) (numeralValue digits)) :=
        atoi_padded nofun (fun c member => all c (List.mem_cons_of_mem _ member)) rest
      rw [List.nil_append] at value
      rw [List.nil_append, List.cons_append, List.drop_succ_cons, List.drop_zero, value,
        numeralValue_cons]
      obtain ⟨below, exact_⟩ := reads (numeralValue digits)
      by_cases zero : digit = 48
      · subst zero
        simpa using exact_
      · have positive : 0 < (digit.toNat - 48) * 10 ^ digits.length := by
          simp only [isDigit, Bool.and_eq_true, decide_eq_true_eq, UInt8.le_iff_toNat_le] at here
          have differs : digit.toNat ≠ 48 := fun same => zero (UInt8.toNat_inj.mp same)
          have low : (48 : UInt8).toNat = 48 := rfl
          exact Nat.mul_pos (by omega) (Nat.pow_pos (by decide))
        refine iff_of_false (by omega) ?_
        rintro ⟨-, first⟩
        simp only [List.head?_cons, List.mem_cons, Option.some.injEq, List.not_mem_nil,
          or_false] at first
        rcases first with rfl | rfl | rfl
        · cases here
        · cases here
        · exact zero rfl

/-- A line that the parser takes for Content-Length is one. -/
theorem lengthText_of_headerField {line : Bytes}
    (named : headerField line = some (.kContentLength, text)) : lengthText line = some text := by
  rw [headerField_iff] at named
  subst named
  have found : (kHeaderFieldStrs .kContentLength ++ 58 :: text).findIdx? (· == 58) = some 14 := by
    rw [List.findIdx?_append, name_no_colon, List.findIdx?_cons]
    rfl
  rw [lengthText, found]
  dsimp only
  rw [List.take_left' (show (kHeaderFieldStrs .kContentLength).length = 14 from rfl),
    if_pos (by decide)]
  rfl

/-- When a number is announced, every line that is taken for Content-Length gives it. -/
theorem decimal_of_announced (number : announced others = some n)
    (last : lastText .kContentLength others = some text) : decimal text = some n := by
  obtain ⟨line, member, named⟩ := lastText_mem last
  have listed : text ∈ others.filterMap lengthText :=
    List.mem_filterMap.mpr ⟨line, member, lengthText_of_headerField named⟩
  unfold announced at number
  split at number
  · next none =>
    rw [none] at listed
    cases listed
  · next first more all =>
    obtain ⟨here, same⟩ := Option.filter_eq_some_iff.mp number
    rw [all] at listed
    rcases List.mem_cons.mp listed with rfl | later
    · exact here
    · exact beq_iff_eq.mp (List.all_eq_true.mp same text later)

/-- The parser counts the body that is announced, and not backwards, exactly when the lines
can be counted by. -/
theorem countable_iff :
    (0 ≤ bodyLength others ∧ ∀ n, announced others = some n → bodyLength others = n) ↔
      countable others = true := by
  unfold countable bodyLength
  cases number : announced others with
  | none =>
    cases last : lastText .kContentLength others with
    | none => simp
    | some text => simp
  | some n =>
    cases last : lastText .kContentLength others with
    | none =>
      simp only [Option.map_none, Option.getD_none, Option.some.injEq, forall_eq', beq_iff_eq]
      omega
    | some text =>
      have counted := atoi_decimal_iff (decimal_of_announced number last)
      simp only [Option.map_some, Option.getD_some, Option.some.injEq, forall_eq',
        Bool.and_eq_true, decide_eq_true_eq, List.contains_iff_mem, ← counted]
      omega

end

section
variable {message first rest : Bytes} {others : List Bytes} {ctx : HttpContext}
  {handleMessage : HttpContext → Except Failure (Int × HttpContext)}

/-- `payload_length` of good header lines. -/
theorem payloadLength_stored (others : List Bytes) (colons : others.all hasColon = true)
    (available : Int) (nonneg : 0 ≤ available) :
    payloadLength (storedHeaders (goodLines others) fun _ => none) available =
      if bodyLength others > available then none else some (bodyLength others) := by
  rw [goodLines_eq_self colons, payloadLength, bodyLength, storedHeaders, Option.or_none]
  cases lastText .kContentLength others with
  | some text => rfl
  | none => simp [nonneg]

/-- `ParseMessage` by the lines of the head: an exception, a bad request, or the payload. -/
theorem parse_by_lines (fits : ¬ Overruns message)
    (heads : Heads (visible message) first others rest) :
    parseMessage handleMessage message ctx =
      if Bare (goodLines others) then .error .outOfRange
      else if others.all hasColon then
        parsePayload handleMessage message (joined first others).length
          (ctx.withHead first (storedHeaders (goodLines others) fun _ => none))
      else .ok ⟨HttpStatusCode.kBadRequest.toInt, 0,
        ctx.withHead first (storedHeaders (goodLines others) fun _ => none)⟩ := by
  have size := heads.length_eq
  have narrow := visible_length_lt message
  rw [parse_of_heads fits heads, parseLines_eq fun line member => by
    have := length_le_joined (List.mem_cons_of_mem first member)
    omega]
  by_cases bare : Bare (goodLines others)
  · rw [if_pos bare, if_pos bare]
    rfl
  · rw [if_neg bare, if_neg bare, ok_bind]

/-- More octets behind a message change nothing, as long as both its size and the size of the
whole cover what the header lines ask for. -/
theorem parse_append {more seen : Bytes} (fits : ¬ Overruns message)
    (fits' : ¬ Overruns (message ++ more))
    (heads : Heads (visible message) first others rest)
    (heads' : Heads (visible (message ++ more)) first others seen)
    (enough : others.all hasColon = true → ¬ Bare others →
      0 ≤ bodyLength others ∧ bodyLength others ≤ rest.length ∧ bodyLength others ≤ seen.length) :
    parseMessage handleMessage (message ++ more) ctx = parseMessage handleMessage message ctx := by
  rw [parse_by_lines fits heads, parse_by_lines fits' heads']
  by_cases bare : Bare (goodLines others)
  · rw [if_pos bare, if_pos bare]
  rw [if_neg bare, if_neg bare]
  cases colons : others.all hasColon with
  | false => rfl
  | true =>
    obtain ⟨nonneg, here, there⟩ := enough colons (goodLines_eq_self colons ▸ bare)
    have size := heads.length_eq
    have narrow := visible_length_lt message
    have inside : (visible message).length ≤ message.length := (visible_shows message).length_le
    have same : ((message ++ more).drop ((joined first others).length + 4)).take
      (sizeT (bodyLength others)) =
        (message.drop ((joined first others).length + 4)).take (sizeT (bodyLength others)) := by
      obtain ⟨count, count_eq⟩ := Int.eq_ofNat_of_zero_le nonneg
      rw [count_eq] at here ⊢
      rw [sizeT_natCast (by omega), List.drop_append_of_le_length (by omega),
        List.take_append_of_le_length (by rw [List.length_drop]; omega)]
    rw [if_pos rfl, if_pos rfl, parsePayload_of_heads heads, parsePayload_of_heads heads']
    simp only [HttpContext.withHead, payloadLength_stored others colons _ (Int.natCast_nonneg _),
      if_neg (Int.not_lt.mpr here), if_neg (Int.not_lt.mpr there), same]

end

/-- A message that was parsed: incomplete, bad, or handled with its head and its payload. -/
theorem parse_cases {parsed : Parsed}
    (returned : parseMessage handleMessage message ctx = .ok parsed) :
    parsed.status = -1 ∧ parsed.length = 0 ∨
      parsed.status = HttpStatusCode.kBadRequest.toInt ∧ parsed.length = 0 ∨
      ∃ first others rest payload, Heads (visible message) first others rest ∧
        parsed.length ≤ (visible message).length ∧
        handleMessage
          ((ctx.withHead first (storedHeaders (goodLines others) fun _ => none)).withPayload
            payload) =
          .ok (parsed.status, parsed.context) := by
  by_cases overruns : Overruns message
  · rw [parse_undefined overruns] at returned
    cases returned
  rcases heads_or_free message with headless | ⟨first, others, rest, heads⟩
  · rw [parse_incomplete overruns headless] at returned
    obtain rfl := Except.ok.inj returned
    exact .inl ⟨rfl, rfl⟩
  rw [parse_by_lines overruns heads] at returned
  by_cases bare : Bare (goodLines others)
  · rw [if_pos bare] at returned
    cases returned
  rw [if_neg bare] at returned
  cases colons : others.all hasColon with
  | false =>
    rw [colons, if_neg Bool.false_ne_true] at returned
    obtain rfl := Except.ok.inj returned
    exact .inr (.inl ⟨rfl, rfl⟩)
  | true =>
    rw [colons, if_pos rfl, parsePayload_of_heads heads] at returned
    cases enough :
      payloadLength (ctx.withHead first (storedHeaders (goodLines others) fun _ => none)).headers
        rest.length with
    | none =>
      rw [enough] at returned
      obtain rfl := Except.ok.inj returned
      exact .inl ⟨rfl, rfl⟩
    | some size =>
      rw [enough] at returned
      obtain ⟨⟨status, after⟩, handled, taken⟩ := bind_eq_ok returned
      obtain rfl := Except.ok.inj taken
      refine .inr (.inr ⟨first, others, rest, _, heads, ?_, handled⟩)
      have := (payloadLength_le (Int.natCast_nonneg _) enough).2
      have := heads.length_eq
      dsimp only
      omega

/-- A request with a visible head, of any size. -/
inductive Outcome (message : Bytes) (ctx : HttpContext) (first : Bytes) (others : List Bytes)
    (rest : Bytes) : Except Failure Parsed → Prop
  | throws (bare : Bare (goodLines others)) :
      Outcome message ctx first others rest (.error .outOfRange)
  | malformed {context : HttpContext} (named : ¬ Bare (goodLines others))
      (colonless : others.all hasColon = false)
      (headers : context.headers = storedHeaders (goodLines others) (fun _ => none)) :
      Outcome message ctx first others rest (.ok ⟨HttpStatusCode.kBadRequest.toInt, 0, context⟩)
  | incomplete {context : HttpContext} (named : ¬ Bare (goodLines others))
      (colons : others.all hasColon = true)
      (missing : rest.length < bodyLength others)
      (headers : context.headers = storedHeaders (goodLines others) (fun _ => none)) :
      Outcome message ctx first others rest (.ok ⟨-1, 0, context⟩)
  | complete {status : Int} {context : HttpContext} (named : ¬ Bare (goodLines others))
      (colons : others.all hasColon = true) (enough : bodyLength others ≤ rest.length)
      (decided : status ≠ -1)
      (startLine : context.startLine = first)
      (headers : context.headers = storedHeaders (goodLines others) (fun _ => none))
      (payload : context.payload =
        (message.drop ((joined first others).length + 4)).take (sizeT (bodyLength others)))
      (handled : handleRequest ((ctx.withHead first (storedHeaders (goodLines others)
        fun _ => none)).withPayload context.payload) = .ok (status, context)) :
      Outcome message ctx first others rest
        (.ok ⟨status, (joined first others).length + 4 + bodyLength others, context⟩)

/-- Only a recognised line that ends with its colon throws. -/
theorem Outcome.returns {message first rest : Bytes} {others : List Bytes} {ctx : HttpContext}
    {result : Except Failure Parsed} (outcome : Outcome message ctx first others rest result) :
    Bare (goodLines others) ∧ result = .error .outOfRange ∨
      ¬ Bare (goodLines others) ∧ ∃ parsed, result = .ok parsed ∧
        parsed.context.headers = storedHeaders (goodLines others) fun _ => none := by
  cases outcome with
  | throws bare => exact .inl ⟨bare, rfl⟩
  | malformed named _ headers => exact .inr ⟨named, _, rfl, headers⟩
  | incomplete named _ _ headers => exact .inr ⟨named, _, rfl, headers⟩
  | complete named _ _ _ _ headers => exact .inr ⟨named, _, rfl, headers⟩

/-- What is kept of the lines of a visible head is short. -/
theorem Heads.stored_length {message first rest value : Bytes} {others : List Bytes}
    {field : HttpHeaderField} (heads : Heads (visible message) first others rest)
    (stored : storedHeaders (goodLines others) (fun _ => none) field = some value) :
    value.length < 2 ^ 31 - 3 := by
  have size := heads.length_eq
  have narrow := visible_length_lt message
  rw [storedHeaders, Option.or_none] at stored
  obtain ⟨text, last, rfl⟩ := Option.map_eq_some_iff.mp stored
  have := lastText_length (fun line member => length_le_joined (List.mem_cons_of_mem first
    (List.takeWhile_subset _ member))) last
  rw [List.length_drop]
  omega

theorem request_outcome {message first rest : Bytes} {others : List Bytes} (ctx : HttpContext)
    (fits : ¬ Overruns message) (heads : Heads (visible message) first others rest) :
    Outcome message ctx first others rest (parseMessage handleRequest message ctx) := by
  have size := heads.length_eq
  have narrow := visible_length_lt message
  have short : ∀ line ∈ first :: others, line.length ≤ (joined first others).length :=
    fun _ => length_le_joined
  rw [parse_by_lines fits heads]
  by_cases bare : Bare (goodLines others)
  · rw [if_pos bare]
    exact .throws bare
  rw [if_neg bare]
  cases colons : others.all hasColon with
  | false =>
    rw [if_neg Bool.false_ne_true]
    exact .malformed bare colons rfl
  | true =>
    rw [if_pos rfl, parsePayload_of_heads heads,
      show (ctx.withHead first (storedHeaders (goodLines others)
      fun _ => none)).headers = storedHeaders (goodLines others) fun _ => none from rfl,
      payloadLength_stored others colons _ (Int.natCast_nonneg _)]
    by_cases missing : bodyLength others > rest.length
    · rw [if_pos missing]
      exact .incomplete bare colons missing rfl
    · rw [if_neg missing]
      dsimp only
      have line : first.length < 2 ^ 31 - 2 := by
        have := short first List.mem_cons_self
        omega
      obtain ⟨status, after, handled, decided, startLine, headers, payload⟩ := handleRequest_total
        ((ctx.withHead first (storedHeaders (goodLines others) fun _ => none)).withPayload
          ((message.drop ((joined first others).length + 4)).take (sizeT (bodyLength others)))) line
        fun _ => heads.stored_length
      rw [handled, ok_bind]
      exact .complete bare colons (Int.not_lt.mp missing) decided startLine headers payload
        (payload ▸ handled)

end Ladder.Source.Http
