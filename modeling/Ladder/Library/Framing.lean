/-!
# Concatenated frames

A stream is the concatenation of one frame per item. However much of it has arrived,
what has arrived is a number of whole frames and a proper part of the next one.
-/
namespace Ladder.Library
universe u v
variable {α : Type u} {β : Type v} {frame : α → List β} {front back rest : List β}
  {items whole left : List α}

/-- `rest` ends inside the first frame of what is left, if there is one. -/
def Unfinished (frame : α → List β) (left : List α) (rest : List β) : Prop :=
  ∀ item ∈ left.head?, rest.length < (frame item).length

/-- `front` has arrived and `back` has not: the frames of `whole` are complete, and
`rest` starts the frames of `left`. -/
structure CutAt (frame : α → List β) (front back : List β) (whole left : List α) (rest : List β) :
    Prop where
  front : front = whole.flatMap frame ++ rest
  back : rest ++ back = left.flatMap frame
  unfinished : Unfinished frame left rest

theorem CutAt.cons {item : α} (cut : CutAt frame front back whole left rest) :
    CutAt frame (frame item ++ front) back (item :: whole) left rest :=
  ⟨by rw [cut.front, List.flatMap_cons, List.append_assoc], cut.back, cut.unfinished⟩

theorem exists_cutAt (arrives : front ++ back = items.flatMap frame) :
    ∃ whole left rest, items = whole ++ left ∧ CutAt frame front back whole left rest := by
  induction items generalizing front with
  | nil =>
    refine ⟨[], [], front, rfl, rfl, arrives, ?_⟩
    intro item first
    cases first
  | cons item items ih =>
    rw [List.flatMap_cons] at arrives
    by_cases short : front.length < (frame item).length
    · refine ⟨[], item :: items, front, rfl, rfl, by rw [arrives, List.flatMap_cons], ?_⟩
      intro first isFirst
      cases isFirst
      exact short
    · obtain ⟨behind, split⟩ : ∃ behind, front = frame item ++ behind := by
        have starts : frame item <+: front :=
          List.prefix_of_prefix_length_le ⟨_, rfl⟩ ⟨back, arrives⟩ (Nat.le_of_not_lt short)
        exact ⟨starts.choose, starts.choose_spec.symm⟩
      rw [split, List.append_assoc, List.append_right_inj] at arrives
      obtain ⟨whole, left, rest, eq, cut⟩ := ih arrives
      exact ⟨item :: whole, left, rest, by rw [eq, List.cons_append], by rw [split]; exact cut.cons⟩

/-- When everything has arrived nothing is left. -/
theorem Unfinished.left_eq_nil (unfinished : Unfinished frame left rest)
    (all : rest = left.flatMap frame) : left = [] := by
  cases left with
  | nil => rfl
  | cons item left =>
    have short := unfinished item rfl
    rw [all, List.flatMap_cons, List.length_append] at short
    omega

/-- A new item at the end of the stream does not complete the first frame. -/
theorem Unfinished.append {item : α} (unfinished : Unfinished frame left rest)
    (starts : rest ++ back = left.flatMap frame) (nonempty : 0 < (frame item).length) :
    Unfinished frame (left ++ [item]) rest := by
  cases left with
  | nil =>
    have nothing : rest = [] := (List.append_eq_nil_iff.mp starts).1
    intro first isFirst
    cases isFirst
    rw [nothing]
    exact nonempty
  | cons head left => exact unfinished

end Ladder.Library
