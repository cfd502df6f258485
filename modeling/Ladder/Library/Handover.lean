import Mathlib.Data.List.Nodup
import Mathlib.Data.List.Range
import Mathlib.Logic.Function.Basic

/-!
# Work handed from a queue to its holders

Items are numbered in the order in which they arrive. Each one waits in the queue,
is held by one of the holders, or is done; the three operations move it along. The
account is part of the structure, so no other state of affairs can be built.
-/
namespace Ladder.Library

structure Handover (ι : Type) where
  arrived : Nat
  queue : List Nat
  taken : List Nat
  held : ι → Option Nat
  done : List Nat
  order : taken ++ queue = List.range arrived
  once : done.Nodup
  kept : ∀ item, item ∈ taken ↔ item ∈ done ∨ ∃ i, held i = some item
  unfinished : ∀ i item, held i = some item → item ∉ done
  single : ∀ i j item, held i = some item → held j = some item → i = j

namespace Handover

variable {ι : Type}

def empty : Handover ι where
  arrived := 0
  queue := []
  taken := []
  held _ := none
  done := []
  order := rfl
  once := List.nodup_nil
  kept := by simp
  unfinished := by simp
  single := by simp

/-- A new item goes to the end of the queue. -/
def arrive (h : Handover ι) : Handover ι where
  arrived := h.arrived + 1
  queue := h.queue ++ [h.arrived]
  taken := h.taken
  held := h.held
  done := h.done
  order := by rw [← List.append_assoc, h.order, List.range_succ]
  once := h.once
  kept := h.kept
  unfinished := h.unfinished
  single := h.single

theorem nodup_order (h : Handover ι) : (h.taken ++ h.queue).Nodup := by
  rw [h.order]
  exact List.nodup_range

/-- The front of the queue has not been touched before. -/
theorem front_fresh {h : Handover ι} {item : Nat} {rest : List Nat}
    (front : h.queue = item :: rest) : item ∉ h.taken := by
  intro member
  have disjoint := (List.nodup_append.mp h.nodup_order).2.2
  exact disjoint item member item (by simp [front]) rfl

section
variable [DecidableEq ι] {h : Handover ι} {i : ι} {item : Nat}

theorem held_update_some {held : ι → Option Nat} {value : Option Nat} {j : ι} {other : Nat}
    (here : Function.update held i value j = some other) :
    (j = i ∧ value = some other) ∨ (j ≠ i ∧ held j = some other) := by
  by_cases same : j = i
  · subst same
    rw [Function.update_self] at here
    exact .inl ⟨rfl, here⟩
  · rw [Function.update_of_ne same] at here
    exact .inr ⟨same, here⟩

/-- An idle holder takes the front of the queue. -/
def take (h : Handover ι) (i : ι) (rest : List Nat) (idle : h.held i = none)
    (front : h.queue = item :: rest) : Handover ι where
  arrived := h.arrived
  queue := rest
  taken := h.taken ++ [item]
  held := Function.update h.held i (some item)
  done := h.done
  order := by rw [List.append_assoc, List.singleton_append, ← front, h.order]
  once := h.once
  kept := by
    intro other
    rw [List.mem_append, h.kept other, List.mem_singleton, or_assoc]
    refine or_congr_right ?_
    constructor
    · rintro (⟨j, holds⟩ | rfl)
      · have different : j ≠ i := by
          rintro rfl
          rw [idle] at holds
          cases holds
        exact ⟨j, by rw [Function.update_of_ne different, holds]⟩
      · exact ⟨i, Function.update_self ..⟩
    · rintro ⟨j, holds⟩
      rcases held_update_some holds with ⟨-, new⟩ | ⟨-, old⟩
      · exact .inr (Option.some.inj new).symm
      · exact .inl ⟨j, old⟩
  unfinished := by
    intro j other holds
    rcases held_update_some holds with ⟨-, new⟩ | ⟨-, old⟩
    · cases new
      intro finished
      exact front_fresh front ((h.kept item).mpr (.inl finished))
    · exact h.unfinished j other old
  single := by
    intro j k other first second
    have fresh : ∀ j, h.held j ≠ some item := fun j holds =>
      front_fresh front ((h.kept item).mpr (.inr ⟨j, holds⟩))
    rcases held_update_some first with ⟨rfl, new⟩ | ⟨-, old⟩
    · cases new
      rcases held_update_some second with ⟨rfl, -⟩ | ⟨-, old'⟩
      · rfl
      · exact absurd old' (fresh k)
    · rcases held_update_some second with ⟨rfl, new'⟩ | ⟨-, old'⟩
      · cases new'
        exact absurd old (fresh j)
      · exact h.single j k other old old'

/-- A holder is done with its item. -/
def finish (h : Handover ι) (i : ι) (holding : h.held i = some item) : Handover ι where
  arrived := h.arrived
  queue := h.queue
  taken := h.taken
  held := Function.update h.held i none
  done := h.done ++ [item]
  order := h.order
  once := by
    rw [List.nodup_append]
    refine ⟨h.once, List.nodup_singleton item, ?_⟩
    intro other finished same member
    rw [List.mem_singleton.mp member]
    rintro rfl
    exact h.unfinished i other holding finished
  kept := by
    intro other
    rw [h.kept other, List.mem_append, List.mem_singleton, or_assoc]
    refine or_congr_right ?_
    constructor
    · rintro ⟨j, holds⟩
      by_cases same : j = i
      · subst same
        rw [holding] at holds
        exact .inl (Option.some.inj holds).symm
      · exact .inr ⟨j, by rw [Function.update_of_ne same, holds]⟩
    · rintro (rfl | ⟨j, holds⟩)
      · exact ⟨i, holding⟩
      · rcases held_update_some holds with ⟨-, new⟩ | ⟨-, old⟩
        · cases new
        · exact ⟨j, old⟩
  unfinished := by
    intro j other holds
    rcases held_update_some holds with ⟨-, new⟩ | ⟨different, old⟩
    · cases new
    · rw [List.mem_append, List.mem_singleton, not_or]
      refine ⟨h.unfinished j other old, ?_⟩
      rintro rfl
      exact different (h.single j i other old holding)
  single := by
    intro j k other first second
    rcases held_update_some first with ⟨-, new⟩ | ⟨-, old⟩
    · cases new
    · rcases held_update_some second with ⟨-, new'⟩ | ⟨-, old'⟩
      · cases new'
      · exact h.single j k other old old'

end

/-- When nothing waits and nobody holds anything, every item is done, once. -/
theorem all_done {h : Handover ι} (drained : h.queue = []) (idle : ∀ i, h.held i = none)
    {item : Nat} (arrived : item < h.arrived) : h.done.count item = 1 := by
  have order := h.order
  rw [drained, List.append_nil] at order
  have taken : item ∈ h.taken := by
    rw [order]
    exact List.mem_range.mpr arrived
  rcases (h.kept item).mp taken with finished | ⟨i, holds⟩
  · exact List.count_eq_one_of_mem h.once finished
  · rw [idle i] at holds
    cases holds

end Handover
end Ladder.Library
