import Mathlib.Data.List.Nodup

/-!
# Linked chains

A heap maps addresses to cells, and each cell names the address of the next one. A
chain lists the cells met on the way from an address to `null`. The heap determines
it, so no cell occurs in it twice, and it does not depend on the rest of the heap.
-/
namespace Ladder.Library
universe u v
variable {ρ : Type u} {ν : Type v}

/-- The cells from `first` on, each with its address. -/
def Chain (next : ν → ρ) (null : ρ) (heap : ρ → Option ν) : ρ → List (ρ × ν) → Prop
  | first, [] => first = null
  | first, (address, cell) :: rest =>
    first = address ∧ address ≠ null ∧ heap address = some cell ∧
      Chain next null heap (next cell) rest

namespace Chain
variable {next : ν → ρ} {null first : ρ} {heap heap' : ρ → Option ν} {cells : List (ρ × ν)}

/-- Only the cells of the chain matter. -/
theorem frame (chain : Chain next null heap first cells)
    (same : ∀ address ∈ cells.map Prod.fst, heap' address = heap address) :
    Chain next null heap' first cells := by
  induction cells generalizing first with
  | nil => exact chain
  | cons entry rest ih =>
    obtain ⟨start, notNull, stored, onward⟩ := chain
    obtain ⟨here, later⟩ := List.forall_mem_cons.mp same
    exact ⟨start, notNull, here.trans stored, ih onward later⟩

theorem unique {other : List (ρ × ν)} (chain : Chain next null heap first cells)
    (again : Chain next null heap first other) : cells = other := by
  induction cells generalizing first other with
  | nil =>
    cases other with
    | nil => rfl
    | cons entry rest => exact absurd (again.1.symm.trans chain) again.2.1
  | cons entry rest ih =>
    obtain ⟨address, cell⟩ := entry
    obtain ⟨start, notNull, stored, onward⟩ := chain
    cases other with
    | nil => exact absurd (start.symm.trans again) notNull
    | cons entry' rest' =>
      obtain ⟨address', cell'⟩ := entry'
      obtain ⟨start', -, stored', onward'⟩ := again
      obtain rfl : address = address' := start.symm.trans start'
      obtain rfl : cell = cell' := Option.some.inj (stored.symm.trans stored')
      rw [ih onward onward']

/-- From each cell of a chain on, the rest of it is a chain. -/
theorem from_mem (chain : Chain next null heap first cells) {address : ρ}
    (member : address ∈ cells.map Prod.fst) :
    ∃ rest, Chain next null heap address rest ∧ rest.length ≤ cells.length := by
  induction cells generalizing first with
  | nil => cases member
  | cons entry rest ih =>
    obtain ⟨start, notNull, stored, onward⟩ := chain
    rcases List.mem_cons.mp member with rfl | later
    · exact ⟨entry :: rest, ⟨rfl, notNull, stored, onward⟩, Nat.le_refl _⟩
    · obtain ⟨suffix, suffixChain, short⟩ := ih onward later
      exact ⟨suffix, suffixChain, Nat.le_succ_of_le short⟩

theorem nodup (chain : Chain next null heap first cells) : (cells.map Prod.fst).Nodup := by
  induction cells generalizing first with
  | nil => exact List.nodup_nil
  | cons entry rest ih =>
    obtain ⟨start, notNull, stored, onward⟩ := chain
    refine List.nodup_cons.mpr ⟨?_, ih onward⟩
    -- a second visit would start a chain that is too short
    intro again
    obtain ⟨suffix, suffixChain, short⟩ := onward.from_mem again
    have same : entry :: rest = suffix := unique ⟨rfl, notNull, stored, onward⟩ suffixChain
    rw [← same, List.length_cons] at short
    omega

theorem stored (chain : Chain next null heap first cells) {address : ρ}
    (member : address ∈ cells.map Prod.fst) : heap address ≠ none := by
  induction cells generalizing first with
  | nil => cases member
  | cons entry rest ih =>
    obtain ⟨-, -, here, onward⟩ := chain
    rcases List.mem_cons.mp member with rfl | later
    · rw [here]
      nofun
    · exact ih onward later

theorem last_stored {front : List (ρ × ν)} {last : ρ} {cell : ν}
    (chain : Chain next null heap first (front ++ [(last, cell)])) : heap last = some cell := by
  induction front generalizing first with
  | nil => exact chain.2.2.1
  | cons entry rest ih => exact ih chain.2.2.2

/-- A cell hung behind the last one. -/
theorem extend {front : List (ρ × ν)} {last added : ρ} {cell cell' newCell : ν}
    (chain : Chain next null heap first (front ++ [(last, cell)])) (notNull : added ≠ null)
    (same : ∀ address ∈ front.map Prod.fst, heap' address = heap address)
    (linked : heap' last = some cell') (points : next cell' = added)
    (stored : heap' added = some newCell) (ends : next newCell = null) :
    Chain next null heap' first (front ++ [(last, cell'), (added, newCell)]) := by
  induction front generalizing first with
  | nil => exact ⟨chain.1, chain.2.1, linked, points, notNull, stored, ends⟩
  | cons entry rest ih =>
    obtain ⟨start, entryNotNull, here, onward⟩ := chain
    obtain ⟨kept, later⟩ := List.forall_mem_cons.mp same
    exact ⟨start, entryNotNull, kept.trans here, ih onward later⟩

end Chain

end Ladder.Library
