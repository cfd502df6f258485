import Mathlib.Data.BitVec

/-!
# Walking through the bits of a mask

The loop `while (mask) { bit = mask & -mask; mask ^= bit; .. }` as a function of its
body, and the walk over the bit positions that it amounts to.
-/
namespace Ladder.Library

universe u
variable {w : Nat} {σ : Type u}

/-- `mask & -mask`. -/
def lowestBit (mask : BitVec w) : BitVec w := mask &&& -mask

def eachBit (body : BitVec w → σ → σ) : Nat → BitVec w → σ → Option σ
  | 0, _, _ => none
  | fuel + 1, mask, s =>
    if mask = 0 then some s
    else eachBit body fuel (mask ^^^ lowestBit mask) (body (lowestBit mask) s)

/-- The bits of the mask at `count` positions from `low` on, in ascending order. -/
def onBits (body : BitVec w → σ → σ) (mask : BitVec w) : Nat → Nat → σ → σ
  | 0, _, s => s
  | count + 1, low, s =>
    onBits body mask count (low + 1) (if mask.getLsbD low then body (BitVec.twoPow w low) s else s)

theorem onBits_congr (body : BitVec w → σ → σ) {mask other : BitVec w} {count low : Nat} (s : σ)
    (same : ∀ i, low ≤ i → mask.getLsbD i = other.getLsbD i) :
    onBits body mask count low s = onBits body other count low s := by
  induction count generalizing low s with
  | zero => rfl
  | succ count ih =>
    rw [onBits, onBits, same low (Nat.le_refl _)]
    exact ih _ fun i above => same i (by omega)

theorem lowestBit_eq_twoPow {mask : BitVec w} {low : Nat} (bit : mask.getLsbD low = true)
    (below : ∀ i, i < low → mask.getLsbD i = false) : lowestBit mask = BitVec.twoPow w low := by
  have inside : low < w := BitVec.lt_of_getLsbD bit
  apply BitVec.eq_of_getLsbD_eq
  intro i small
  rw [lowestBit, BitVec.getLsbD_and, BitVec.getLsbD_neg, BitVec.getLsbD_twoPow]
  rcases Nat.lt_trichotomy i low with less | same | more
  · rw [below i less]
    simp only [Bool.false_and, decide_eq_false (Nat.ne_of_gt less), Bool.and_false]
  · subst same
    have none_below : ¬ ∃ j < i, mask.getLsbD j = true := by
      rintro ⟨j, less, one⟩
      rw [below j less] at one
      cases one
    simp [bit, none_below, inside]
  · have some_below : ∃ j < i, mask.getLsbD j = true := ⟨low, more, bit⟩
    simp only [some_below, small, decide_true, Bool.and_true, Bool.bne_true, Bool.and_not_self,
      decide_eq_false (Nat.ne_of_lt more), Bool.and_false]

/-- The loop ends, and its body has run once for every bit of the mask. -/
theorem eachBit_eq_onBits (body : BitVec w → σ → σ) {fuel count low : Nat} (mask : BitVec w) (s : σ)
    (width : low + count = w) (below : ∀ i, i < low → mask.getLsbD i = false)
    (enough : count < fuel) :
    eachBit body fuel mask s = some (onBits body mask count low s) := by
  induction count generalizing fuel low mask s with
  | zero =>
    obtain ⟨fuel, rfl⟩ : ∃ n, fuel = n + 1 := ⟨fuel - 1, by omega⟩
    have zero : mask = 0 := by
      apply BitVec.eq_of_getLsbD_eq
      intro i small
      rw [below i (by omega)]
      simp
    rw [eachBit, if_pos zero, onBits]
  | succ count ih =>
    rw [onBits]
    cases bit : mask.getLsbD low with
    | false =>
      rw [if_neg Bool.false_ne_true]
      refine ih mask s (by omega) (fun i less => ?_) (by omega)
      rcases Nat.lt_succ_iff_lt_or_eq.mp less with less | same
      · exact below i less
      · rw [same]
        exact bit
    | true =>
      obtain ⟨fuel, rfl⟩ : ∃ n, fuel = n + 1 := ⟨fuel - 1, by omega⟩
      have nonzero : mask ≠ 0 := by
        intro zero
        rw [zero] at bit
        simp at bit
      have lowest := lowestBit_eq_twoPow bit below
      -- the lowest bit is gone, those above it are as they were
      have cleared : ∀ i, (mask ^^^ BitVec.twoPow w low).getLsbD i =
          if i = low then false else mask.getLsbD i := by
        intro i
        rw [BitVec.getLsbD_xor, BitVec.getLsbD_twoPow]
        split
        · rename_i same
          rw [same, bit]
          simp [BitVec.lt_of_getLsbD bit]
        · rename_i other
          simp [Ne.symm other]
      rw [eachBit, if_neg nonzero, lowest, if_pos rfl]
      have rest : ∀ i, i < low + 1 → (mask ^^^ BitVec.twoPow w low).getLsbD i = false := by
        intro i less
        rw [cleared]
        split
        · rfl
        · exact below i (by omega)
      rw [ih _ (body (BitVec.twoPow w low) s) (by omega) rest (by omega)]
      congr 1
      refine onBits_congr body _ fun i above => ?_
      rw [cleared, if_neg (by omega)]

end Ladder.Library
