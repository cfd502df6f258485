import Mathlib.Data.List.Basic

/-!
# Streams with windows

A transformer that is called with some of its input and room for some of its output, takes
a part of the one and fills a part of the other. Input is offered in pieces and the last
piece is announced. What a transformer makes of an input is what it has put out when, with
all the rest of the input offered as the last piece, it leaves room.
-/
namespace Ladder.Library

variable {α : Type}

/-- What a call did. -/
structure StreamCall (α σ : Type) where
  consumed : Nat
  output : List α
  state : σ

/-- The arguments of a call are the piece offered, the room and whether it is the last piece. -/
structure Stream (α : Type) where
  State : Type
  init : Option State
  ended : State → Bool
  call : State → List α → Nat → Bool → StreamCall α State

namespace Stream
variable (z : Stream α) (input : List α)

/-- Pieces of the input have been offered one after the other: the state, the input that is
left and the output so far. -/
inductive Fed : z.State → List α → List α → Prop
  | start {first : z.State} (opened : z.init = some first) : Fed first input []
  | call {s : z.State} {rest out : List α} (fed : Fed s rest out) (piece : Nat) {room : Nat}
      (some : 0 < room) :
      Fed (z.call s (rest.take piece) room false).state
        (rest.drop (z.call s (rest.take piece) room false).consumed)
        (out ++ (z.call s (rest.take piece) room false).output)

/-- All that was left has been offered as the last piece, as often as no room remained. -/
inductive Finishing : z.State → List α → List α → (full : Bool) → Prop
  | start {s : z.State} {rest out : List α} (fed : z.Fed input s rest out) :
      Finishing s rest out true
  | call {s : z.State} {rest out : List α} (finishing : Finishing s rest out true) {room : Nat}
      (some : 0 < room) :
      Finishing (z.call s rest room true).state (rest.drop (z.call s rest room true).consumed)
        (out ++ (z.call s rest room true).output)
          (decide ((z.call s rest room true).output.length = room))

/-- The output is what the transformer makes of the input. -/
def Makes (output : List α) : Prop := ∃ s rest, z.Finishing input s rest output false

/-- The laws of a transformer. Room is left only if the piece has been taken or the stream has
ended; an ended stream does nothing; and no input gives more than a bounded output. -/
structure Lawful (z : Stream α) : Prop where
  opens : ∃ first, z.init = some first
  takes : ∀ s piece room last, (z.call s piece room last).consumed ≤ piece.length
  fits : ∀ s piece room last, (z.call s piece room last).output.length ≤ room
  drains : ∀ s piece room last, (z.call s piece room last).output.length < room →
    (z.call s piece room last).consumed = piece.length ∨
    z.ended (z.call s piece room last).state = true
  rests : ∀ s piece room last, z.ended s = true → z.call s piece room last = ⟨0, [], s⟩
  bounded : ∀ input, ∃ most, ∀ s rest out full, z.Finishing input s rest out full →
    out.length ≤ most

variable {z input}

/-- The bound holds from the first piece on. -/
theorem Fed.finishing {s : z.State} {rest out : List α} (fed : z.Fed input s rest out) :
    z.Finishing input s rest out true := .start fed

/-- A call in an ended stream. -/
theorem Finishing.rest (lawful : z.Lawful) {s : z.State} {rest out : List α}
    (finishing : z.Finishing input s rest out true) (ended : z.ended s = true) :
    z.Finishing input s rest out false := by
  have called := finishing.call Nat.one_pos
  rw [lawful.rests s rest 1 true ended] at called
  simpa using called

end Stream

/-! ## Putting off the output

The transformer that takes everything and puts out a function of it when the last piece has
been offered. -/

section
variable (f : List α → List α)

/-- The state is the input so far, or what is left of the output. -/
def puttingOff : Stream α where
  State := List α ⊕ List α
  init := some (.inl [])
  ended _ := false
  call s piece room last :=
    match s, last with
    | .inl taken, false => ⟨piece.length, [], .inl (taken ++ piece)⟩
    | .inl taken, true =>
      ⟨piece.length, (f (taken ++ piece)).take room, .inr ((f (taken ++ piece)).drop room)⟩
    | .inr pending, _ => ⟨piece.length, pending.take room, .inr (pending.drop room)⟩

variable {f} {input : List α}

theorem puttingOff_fed {s : (puttingOff f).State} {rest out : List α}
    (fed : (puttingOff f).Fed input s rest out) :
    ∃ taken, s = (Sum.inl taken : List α ⊕ List α) ∧ taken ++ rest = input ∧ out = [] := by
  induction fed with
  | start opened =>
    obtain rfl := Option.some.inj opened
    exact ⟨[], rfl, rfl, rfl⟩
  | @call s rest out fed piece room _ ih =>
    obtain ⟨taken, rfl, whole, rfl⟩ := ih
    refine ⟨taken ++ rest.take piece, rfl, ?_, rfl⟩
    rw [← whole]
    show taken ++ rest.take piece ++ rest.drop (rest.take piece).length = _
    rw [List.append_assoc, List.length_take]
    congr 1
    rcases Nat.le_total piece rest.length with le | ge
    · rw [Nat.min_eq_left le, List.take_append_drop]
    · rw [Nat.min_eq_right ge, List.take_of_length_le ge, List.drop_length, List.append_nil]

/-- Before the first call with the last piece nothing has been put out; behind it the output
and what is pending make up the value of the function, and room is left only at the end. -/
theorem puttingOff_finishing {s : (puttingOff f).State} {rest out : List α} {full : Bool}
    (finishing : (puttingOff f).Finishing input s rest out full) :
    (∃ taken, s = (Sum.inl taken : List α ⊕ List α) ∧ taken ++ rest = input ∧
      out = [] ∧ full = true) ∨
      ∃ pending, s = (Sum.inr pending : List α ⊕ List α) ∧ rest = [] ∧ out ++ pending = f input ∧
        (full = false → pending = []) := by
  induction finishing with
  | start fed =>
    obtain ⟨taken, inl, whole, none⟩ := puttingOff_fed fed
    exact .inl ⟨taken, inl, whole, none, rfl⟩
  | @call s rest out finishing room some ih =>
    right
    have short (l : List α) (left : decide ((l.take room).length = room) = false) :
        l.drop room = [] := by
      have other := of_decide_eq_false left
      rw [List.length_take] at other
      exact List.drop_eq_nil_of_le (by omega)
    rcases ih with ⟨taken, rfl, rfl, rfl, -⟩ | ⟨pending, rfl, rfl, whole, -⟩
    · exact ⟨_, rfl, List.drop_length, List.take_append_drop _ _, short _⟩
    · refine ⟨_, rfl, rfl, ?_, short _⟩
      show out ++ pending.take room ++ pending.drop room = f input
      rw [List.append_assoc, List.take_append_drop, whole]

theorem puttingOff_makes {output : List α} (made : (puttingOff f).Makes input output) :
    output = f input := by
  obtain ⟨s, rest, finishing⟩ := made
  rcases puttingOff_finishing finishing with ⟨-, -, -, -, full⟩ | ⟨pending, -, -, whole, none⟩
  · cases full
  · rw [none rfl, List.append_nil] at whole
    exact whole

theorem puttingOff_lawful (f : List α → List α) : (puttingOff f).Lawful where
  opens := ⟨.inl [], rfl⟩
  takes s piece room last := by
    cases s <;> cases last <;> exact Nat.le_refl _
  fits s piece room last := by
    cases s with
    | inl held =>
      cases last with
      | false => exact Nat.zero_le room
      | true => exact List.length_take_le room _
    | inr pending => cases last <;> exact List.length_take_le room _
  drains s piece room last _ := by
    left
    cases s <;> cases last <;> rfl
  rests _ _ _ _ := nofun
  bounded input := by
    refine ⟨(f input).length, ?_⟩
    intro s rest out full finishing
    rcases puttingOff_finishing finishing with ⟨-, -, -, rfl, -⟩ | ⟨pending, -, -, whole, -⟩
    · exact Nat.zero_le _
    · rw [← whole, List.length_append]
      exact Nat.le_add_right _ _

end

end Ladder.Library
