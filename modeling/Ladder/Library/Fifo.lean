import Mathlib.Data.List.Basic

/-!
# A first-in first-out queue with its history

The queue remembers everything ever enqueued and how much of it has been taken
out; its contents are what lies between. A block that was enqueued in one piece
is found again, unchanged, when the reader arrives at its offset.
-/
namespace Ladder.Library

structure Fifo (α : Type) where
  written : List α
  consumed : Nat
  consumed_le : consumed ≤ written.length

namespace Fifo
variable {α : Type}

def empty : Fifo α := ⟨[], 0, Nat.le_refl 0⟩

def unread (q : Fifo α) : List α := q.written.drop q.consumed

def enqueue (q : Fifo α) (xs : List α) : Fifo α :=
  ⟨q.written ++ xs, q.consumed, by
    have := q.consumed_le
    simp only [List.length_append]
    omega⟩

/-- Remove the first `n` elements, or all of them when there are fewer. -/
def dequeue (q : Fifo α) (n : Nat) : Fifo α :=
  ⟨q.written, q.consumed + min n q.unread.length, by
    have := q.consumed_le
    simp only [unread, List.length_drop]
    omega⟩

@[simp] theorem written_enqueue (q : Fifo α) (xs : List α) :
    (q.enqueue xs).written = q.written ++ xs := rfl

@[simp] theorem written_dequeue (q : Fifo α) (n : Nat) : (q.dequeue n).written = q.written := rfl

@[simp] theorem unread_enqueue (q : Fifo α) (xs : List α) :
    (q.enqueue xs).unread = q.unread ++ xs :=
  List.drop_append_of_le_length q.consumed_le

@[simp] theorem unread_dequeue (q : Fifo α) (n : Nat) :
    (q.dequeue n).unread = q.unread.drop n := by
  by_cases short : n ≤ q.unread.length
  · simp only [dequeue, unread, List.drop_drop] at *
    rw [Nat.min_eq_left short]
  · have all : min n q.unread.length = q.unread.length := by omega
    have gone : q.unread.drop n = [] := List.drop_eq_nil_of_le (by omega)
    rw [gone]
    simp only [dequeue, unread, List.length_drop] at *
    rw [all]
    exact List.drop_eq_nil_of_le (by have := q.consumed_le; omega)

/-- `block` was enqueued in one piece at `offset` of the history. -/
def HoldsAt (q : Fifo α) (offset : Nat) (block : List α) : Prop :=
  block <+: q.written.drop offset

/-- A reader standing at the offset of a block reads exactly that block. -/
theorem HoldsAt.take_unread {q : Fifo α} {block : List α} (h : q.HoldsAt q.consumed block) :
    q.unread.take block.length = block :=
  (List.prefix_iff_eq_take.mp h).symm

end Fifo
end Ladder.Library
