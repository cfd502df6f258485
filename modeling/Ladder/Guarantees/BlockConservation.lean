import Mathlib.Data.List.Perm.Basic
import Ladder.Library.Chain
import Ladder.Library.Runs
import Ladder.Source.MemoryPool

/-!
# The blocks of the pool

The nodes of the free list come and go, and their addresses may be used again; what
stays are the blocks they carry. At every moment each block of the constructor is
carried by one node behind the header or held by one wrapper, from the locked pop to
the locked push. The memory of the fallback is never one of these blocks.
-/
namespace Ladder.Guarantees.BlockConservation
open Ladder.Library Ladder.Source.MemoryPool

/-- What one entry of a list contributes to an account changes with the entry. -/
theorem account_set {α β : Type} (f : α → List β) {l : List α} {i : Nat} {x : α} (y : α)
    (front front' : List β) (entry : l[i]? = some x) (moved : (front' ++ f y).Perm (front ++ f x)) :
    (front' ++ (l.set i y).flatMap f).Perm (front ++ l.flatMap f) := by
  obtain ⟨inside, rfl⟩ := List.getElem?_eq_some_iff.mp entry
  have before : (l.flatMap f).Perm (f l[i] ++ (l.eraseIdx i).flatMap f) :=
    ((List.getElem_cons_eraseIdx_perm inside).flatMap_right f).symm
  have after : ((l.set i y).flatMap f).Perm (f y ++ (l.eraseIdx i).flatMap f) :=
    (List.set_perm_cons_eraseIdx inside y).flatMap_right f
  have sum := moved.append_right ((l.eraseIdx i).flatMap f)
  rw [List.append_assoc, List.append_assoc] at sum
  exact (after.append_left _).trans (sum.trans (before.symm.append_left _))

/-- An entry may change when its contribution does not. -/
theorem account_set_same {α β : Type} {f : α → List β} {l : List α} {i : Nat} {x y : α}
    (entry : l[i]? = some x) (same : f y = f x) : (l.set i y).flatMap f = l.flatMap f := by
  obtain ⟨inside, rfl⟩ := List.getElem?_eq_some_iff.mp entry
  rw [List.flatMap_def, List.flatMap_def, List.map_set, same, ← List.map_set, List.set_getElem_self]

/-- Two assignments leave the other addresses alone. -/
theorem update_elsewhere {ν : Type} (heap : Address → ν) {a p q : Address} (x y : ν) (notP : a ≠ p)
    (notQ : a ≠ q) : Function.update (Function.update heap p x) q y a = heap a :=
  (Function.update_of_ne notQ _ _).trans (Function.update_of_ne notP _ _)

/-! ## What a wrapper owns -/

def memoryOf (entry : Address × MemoryBlock) : Address := entry.2.memory

/-- The memories of the nodes behind the header. -/
def FreeList (s : State) (free : List Address) : Prop :=
  ∃ header cells, Chain MemoryBlock.next null s.nodes s.blocks ((s.blocks, header) :: cells) ∧
    free = cells.map memoryOf

/-- The block of the pool, until it is back on the list. -/
def heldBlock (w : MemoryWrapper) : List Address :=
  match w.stage with
  | .live => if w.success then [w.ptr] else []
  | .pushing _ => [w.ptr]
  | .fallback | .destroyed => []

/-- The memory of the fallback. -/
def heapMemory (w : MemoryWrapper) : List Address :=
  match w.stage with
  | .live => if w.success then [] else [w.ptr]
  | .pushing _ | .fallback | .destroyed => []

/-- The node that is not yet linked. -/
def nodeInHand (w : MemoryWrapper) : List Address :=
  match w.stage with
  | .pushing block => [block]
  | .live | .fallback | .destroyed => []

structure WellFormed (nodes : Address → Option MemoryBlock) (memories : Address → Option Storage)
    (w : MemoryWrapper) : Prop where
  node : ∀ block, w.stage = .pushing block → block ≠ null ∧ nodes block = some ⟨w.ptr, null⟩
  memory : w.stage = .live → w.success = false → memories w.ptr = some (storageOf w.arr)

structure Inv (originals : List Address) (s : State) (header : MemoryBlock)
    (cells : List (Address × MemoryBlock)) : Prop where
  chain : Chain MemoryBlock.next null s.nodes s.blocks ((s.blocks, header) :: cells)
  apart : (s.blocks :: cells.map Prod.fst ++ s.wrappers.flatMap nodeInHand).Nodup
  conserved : (cells.map memoryOf ++ s.wrappers.flatMap heldBlock).Perm originals
  reserved : ∀ memory ∈ originals, memory ≠ null ∧ s.memories memory = some .block
  owned : (s.wrappers.flatMap heapMemory).Nodup
  wrappers : ∀ w ∈ s.wrappers, WellFormed s.nodes s.memories w

def Conserved (originals : List Address) (s : State) : Prop :=
  ∃ header cells, Inv originals s header cells

theorem mem_heapMemory {w : MemoryWrapper} {address : Address} :
    address ∈ heapMemory w ↔ w.stage = .live ∧ w.success = false ∧ w.ptr = address := by
  cases w with
  | mk content ptr arr success stage => cases stage <;> cases success <;> simp [heapMemory, eq_comm]

theorem mem_nodeInHand {w : MemoryWrapper} {address : Address} :
    address ∈ nodeInHand w ↔ w.stage = .pushing address := by
  cases w with
  | mk content ptr arr success stage => cases stage <;> simp [nodeInHand, eq_comm]

/-- A node in hand is neither on the list nor its header. -/
theorem inHand_apart {linked : List Address} {ws : List MemoryWrapper}
    (apart : (linked ++ ws.flatMap nodeInHand).Nodup) {w : MemoryWrapper} (member : w ∈ ws)
    {block : Address} (pushes : w.stage = .pushing block) : block ∉ linked := by
  intro listed
  exact List.disjoint_of_nodup_append apart listed
    (List.mem_flatMap.mpr ⟨w, member, mem_nodeInHand.mpr pushes⟩)

variable {originals : List Address} {s next : State} {header : MemoryBlock}
  {cells : List (Address × MemoryBlock)}

/-! ## The construction of a wrapper -/

/-- A wrapper that has nothing yet. -/
theorem Inv.waits (inv : Inv originals s header cells) {w : MemoryWrapper}
    (waits : w.stage = .fallback) :
    Inv originals { s with wrappers := s.wrappers ++ [w] } header cells := by
  obtain ⟨chain, apart, conserved, reserved, owned, wrappers⟩ := inv
  refine ⟨chain, ?_, ?_, reserved, ?_, ?_⟩
  · simpa [nodeInHand, waits] using apart
  · simpa [heldBlock, waits] using conserved
  · simpa [heapMemory, waits] using owned
  · intro w' member
    rcases List.mem_append.mp member with old | new
    · exact wrappers w' old
    · rw [List.mem_singleton.mp new]
      exact ⟨by simp [waits], by simp [waits]⟩

/-- The first block of the list goes to the wrapper. -/
theorem Inv.pops {address : Address} {block : MemoryBlock}
    (inv : Inv originals s header ((address, block) :: cells)) {w : MemoryWrapper}
    (live : w.stage = .live) (success : w.success = true) (ptr : w.ptr = block.memory) :
    Inv originals
      { s with
        nodes := Function.update
          (Function.update s.nodes s.blocks (some { header with next := block.next }))
          header.next none
        wrappers := s.wrappers ++ [w] }
      { header with next := block.next } cells := by
  obtain ⟨chain, apart, conserved, reserved, owned, wrappers⟩ := inv
  have distinct := chain.nodup
  obtain ⟨-, blocksNotNull, -, first, -, -, onward⟩ := chain
  rw [first]
  simp only [List.map_cons, List.nodup_cons, List.mem_cons, not_or] at distinct
  obtain ⟨⟨headerFirst, headerApart⟩, firstApart, -⟩ := distinct
  refine ⟨⟨rfl, blocksNotNull, ?_, ?_⟩, ?_, ?_, reserved, ?_, ?_⟩
  · exact (Function.update_of_ne headerFirst _ _).trans (Function.update_self _ _ _)
  · exact onward.frame fun a listed => update_elsewhere _ _ _
      (ne_of_mem_of_not_mem listed headerApart) (ne_of_mem_of_not_mem listed firstApart)
  · refine apart.sublist ?_
    simp [nodeInHand, live]
  · refine List.Perm.trans ?_ conserved
    simp only [List.flatMap_append, List.flatMap_cons, List.flatMap_nil, List.append_nil, heldBlock,
      live, success, if_true, ptr, List.map_cons, memoryOf, List.cons_append, ← List.append_assoc]
    exact List.perm_append_singleton _ _
  · simpa [heapMemory, live, success] using owned
  · intro w' member
    rcases List.mem_append.mp member with old | new
    · refine ⟨fun a pushes => ?_, (wrappers w' old).memory⟩
      obtain ⟨notNull, stored⟩ := (wrappers w' old).node a pushes
      have notLinked := inHand_apart apart old pushes
      simp only [List.map_cons, List.mem_cons, not_or] at notLinked
      obtain ⟨notHeader, notFirst, -⟩ := notLinked
      exact ⟨notNull, (update_elsewhere _ _ _ notHeader notFirst).trans stored⟩
    · rw [List.mem_singleton.mp new]
      exact ⟨by simp [live], by simp [success]⟩

theorem constructStep_of_allocate {bits : Nat} {content : Content} {memory : Address}
    (allocated : allocate s (content.requested bits) = some (next, memory)) :
    constructStep bits s content = some { next with
      wrappers := next.wrappers ++ [⟨content, memory, content.isArray, true,
        if memory = null then .fallback else .live⟩] } := by
  simp only [constructStep, allocated]
  rfl

/-- A wrapper can always be constructed, and it has a block of the pool exactly when
one is large enough and free. -/
theorem Inv.construct (inv : Inv originals s header cells) (bits : Nat) (content : Content) :
    ∃ next w, step bits s (.construct content) = some next ∧ next.wrappers = s.wrappers ++ [w] ∧
      next.blockSize = s.blockSize ∧ Conserved originals next ∧
      (w.ptr ∈ originals ↔ content.requested bits ≤ s.blockSize ∧ cells ≠ []) := by
  have nullForeign : null ∉ originals := fun member => (inv.reserved null member).1 rfl
  by_cases large : s.blockSize < content.requested bits
  · have allocated : allocate s (content.requested bits) = some (s, null) := if_pos large
    refine ⟨_, _, constructStep_of_allocate allocated, rfl, rfl, ⟨_, _, inv.waits rfl⟩, ?_⟩
    exact ⟨fun member => absurd member nullForeign,
      fun fits => absurd fits.1 (Nat.not_le.mpr large)⟩
  · have locked : allocate s (content.requested bits) = popBlock s := if_neg large
    obtain ⟨-, -, stored, onward⟩ := inv.chain
    cases cells with
    | nil =>
      rw [popBlock_empty stored onward] at locked
      refine ⟨_, _, constructStep_of_allocate locked, rfl, rfl, ⟨_, _, inv.waits rfl⟩, ?_⟩
      exact ⟨fun member => absurd member nullForeign, fun fits => absurd rfl fits.2⟩
    | cons entry rest =>
      obtain ⟨address, block⟩ := entry
      obtain ⟨first, notNull, blockStored, -⟩ := onward
      rw [popBlock_first stored (first ▸ notNull) (first ▸ blockStored)] at locked
      have original : block.memory ∈ originals :=
        inv.conserved.subset (List.mem_append_left _ List.mem_cons_self)
      have live : (if block.memory = null then Stage.fallback else .live) = .live :=
        if_neg (inv.reserved _ original).1
      refine ⟨_, _, constructStep_of_allocate locked, rfl, rfl, ⟨_, _, inv.pops live rfl rfl⟩, ?_⟩
      exact ⟨fun _ => ⟨Nat.not_lt.mp large, List.cons_ne_nil _ _⟩, fun _ => original⟩

/-! ## The fallback and the destruction -/

/-- An unused address is none that the invariant speaks of. -/
theorem Inv.unused_apart (inv : Inv originals s header cells) {address : Address}
    (unused : s.unused address = true) :
    address ∉ originals ∧ address ∉ s.wrappers.flatMap heapMemory ∧
      address ∉ s.blocks :: cells.map Prod.fst ++ s.wrappers.flatMap nodeInHand := by
  obtain ⟨-, noNode, noMemory⟩ := State.unused_iff.mp unused
  refine ⟨?_, ?_, ?_⟩
  · intro original
    cases noMemory.symm.trans (inv.reserved _ original).2
  · intro member
    obtain ⟨w, listed, held⟩ := List.mem_flatMap.mp member
    obtain ⟨live, failed, rfl⟩ := mem_heapMemory.mp held
    cases noMemory.symm.trans ((inv.wrappers w listed).memory live failed)
  · intro member
    rcases List.mem_append.mp member with linked | inHand
    · exact inv.chain.stored linked noNode
    · obtain ⟨w, listed, held⟩ := List.mem_flatMap.mp inHand
      cases noNode.symm.trans ((inv.wrappers w listed).node _ (mem_nodeInHand.mp held)).2

theorem storageOf_ne_block (arr : Bool) : storageOf arr ≠ .block := by
  cases arr <;> nofun

/-- Memory of the fallback is no block of the pool. -/
theorem Inv.heap_foreign (inv : Inv originals s header cells) {w : MemoryWrapper}
    (listed : w ∈ s.wrappers) (live : w.stage = .live) (failed : w.success = false) :
    w.ptr ∉ originals := by
  intro original
  have memory := (inv.wrappers w listed).memory live failed
  exact storageOf_ne_block w.arr (Option.some.inj (memory.symm.trans (inv.reserved _ original).2))

/-- The wrapper gets memory of its own. -/
theorem Inv.fallsBack (inv : Inv originals s header cells) {i : Nat} {w : MemoryWrapper}
    {memory : Address} (entry : s.wrappers[i]? = some w) (waits : w.stage = .fallback)
    (unused : s.unused memory = true) :
    Inv originals
      { s with
        memories := Function.update s.memories memory (some (storageOf w.arr))
        wrappers := s.wrappers.set i { w with ptr := memory, success := false, stage := .live } }
      header cells := by
  obtain ⟨foreign, unowned, -⟩ := inv.unused_apart unused
  obtain ⟨chain, apart, conserved, reserved, owned, wrappers⟩ := inv
  refine ⟨chain, ?_, ?_, ?_, ?_, ?_⟩
  · rwa [account_set_same entry (by simp only [nodeInHand, waits])]
  · rwa [account_set_same entry (by simp [heldBlock, waits])]
  · intro original member
    refine ⟨(reserved original member).1, ?_⟩
    exact (Function.update_of_ne (ne_of_mem_of_not_mem member foreign) _ _).trans
      (reserved original member).2
  · have gains := account_set heapMemory { w with ptr := memory, success := false, stage := .live }
      [memory] [] entry (by simp [heapMemory, waits])
    exact gains.nodup_iff.mpr (List.nodup_cons.mpr ⟨unowned, owned⟩)
  · intro w' member
    rcases List.mem_or_eq_of_mem_set member with old | rfl
    · refine ⟨(wrappers w' old).node, fun live failed => ?_⟩
      have held : w'.ptr ∈ s.wrappers.flatMap heapMemory :=
        List.mem_flatMap.mpr ⟨w', old, mem_heapMemory.mpr ⟨live, failed, rfl⟩⟩
      exact (Function.update_of_ne (ne_of_mem_of_not_mem held unowned) _ _).trans
        ((wrappers w' old).memory live failed)
    · exact ⟨nofun, fun _ _ => Function.update_self _ _ _⟩

/-- The destructor has a new node for its block. -/
theorem Inv.frees (inv : Inv originals s header cells) {i : Nat} {w : MemoryWrapper}
    {block : Address} (entry : s.wrappers[i]? = some w) (live : w.stage = .live)
    (success : w.success = true) (unused : s.unused block = true) :
    Inv originals
      { s with
        nodes := Function.update s.nodes block (some ⟨w.ptr, null⟩)
        wrappers := s.wrappers.set i { w with stage := .pushing block } }
      header cells := by
  obtain ⟨-, -, fresh⟩ := inv.unused_apart unused
  obtain ⟨chain, apart, conserved, reserved, owned, wrappers⟩ := inv
  refine ⟨?_, ?_, ?_, reserved, ?_, ?_⟩
  · refine chain.frame fun a linked => Function.update_of_ne ?_ _ _
    exact ne_of_mem_of_not_mem (List.mem_append_left _ linked) fresh
  · have moved : (s.blocks :: cells.map Prod.fst ++
        nodeInHand { w with stage := .pushing block }).Perm
        (block :: s.blocks :: cells.map Prod.fst ++ nodeInHand w) := by
      simp only [nodeInHand, live, List.append_nil]
      exact List.perm_append_singleton _ _
    have gains := account_set nodeInHand _ _ _ entry moved
    exact gains.nodup_iff.mpr (List.nodup_cons.mpr ⟨fresh, apart⟩)
  · rwa [account_set_same entry (by simp [heldBlock, live, success])]
  · rwa [account_set_same entry (by simp [heapMemory, live, success])]
  · intro w' member
    rcases List.mem_or_eq_of_mem_set member with old | rfl
    · refine ⟨fun a pushes => ?_, (wrappers w' old).memory⟩
      obtain ⟨notNull, stored⟩ := (wrappers w' old).node a pushes
      have inHand : a ∈ s.wrappers.flatMap nodeInHand :=
        List.mem_flatMap.mpr ⟨w', old, mem_nodeInHand.mpr pushes⟩
      exact ⟨notNull, (Function.update_of_ne
        (ne_of_mem_of_not_mem (List.mem_append_right _ inHand) fresh) _ _).trans stored⟩
    · refine ⟨fun a pushes => ?_, nofun⟩
      cases pushes
      exact ⟨(State.unused_iff.mp unused).1, Function.update_self _ _ _⟩

/-- The block of the wrapper is the first one on the list. -/
theorem Inv.pushes (inv : Inv originals s header cells) {i : Nat} {w : MemoryWrapper}
    {block : Address} (entry : s.wrappers[i]? = some w) (pushes : w.stage = .pushing block) :
    Inv originals
      { s with
        nodes := Function.update
          (Function.update s.nodes block (some ⟨w.ptr, header.next⟩))
          s.blocks (some { header with next := block })
        wrappers := s.wrappers.set i { w with ptr := null, stage := .destroyed } }
      { header with next := block } ((block, ⟨w.ptr, header.next⟩) :: cells) := by
  have listed : w ∈ s.wrappers := List.mem_of_getElem? entry
  have unlinked := inHand_apart inv.apart listed pushes
  obtain ⟨chain, apart, conserved, reserved, owned, wrappers⟩ := inv
  have distinct := chain.nodup
  obtain ⟨-, blocksNotNull, -, onward⟩ := chain
  have headerApart : s.blocks ∉ cells.map Prod.fst := (List.nodup_cons.mp distinct).1
  simp only [List.mem_cons, not_or] at unlinked
  obtain ⟨notHeader, notListed⟩ := unlinked
  have apart' : (s.blocks :: block :: cells.map Prod.fst ++
      (s.wrappers.set i { w with ptr := null, stage := .destroyed }).flatMap nodeInHand).Nodup := by
    refine (List.Perm.nodup_iff (account_set nodeInHand _ (s.blocks :: cells.map Prod.fst)
      (s.blocks :: block :: cells.map Prod.fst) entry ?_)).mpr apart
    simp only [nodeInHand, pushes, List.append_nil, List.cons_append]
    exact (List.perm_append_singleton _ _).symm.cons _
  refine ⟨⟨rfl, blocksNotNull, Function.update_self _ _ _, rfl, ?_, ?_, ?_⟩, apart', ?_, reserved,
    ?_, ?_⟩
  · exact ((wrappers w listed).node block pushes).1
  · exact (Function.update_of_ne notHeader _ _).trans (Function.update_self _ _ _)
  · exact onward.frame fun a linked => update_elsewhere _ _ _
      (ne_of_mem_of_not_mem linked notListed) (ne_of_mem_of_not_mem linked headerApart)
  · refine (account_set heldBlock _ (cells.map memoryOf) _ entry ?_).trans conserved
    simp only [heldBlock, pushes, List.map_cons, memoryOf, List.append_nil]
    exact (List.perm_append_singleton _ _).symm
  · rwa [account_set_same entry (by simp only [heapMemory, pushes])]
  · intro w' member
    rcases List.mem_or_eq_of_mem_set member with old | rfl
    · refine ⟨fun a pushes' => ?_, (wrappers w' old).memory⟩
      -- the same wrapper may be listed twice only if it has no node in hand
      have elsewhere := inHand_apart apart' member pushes'
      simp only [List.mem_cons, not_or] at elsewhere
      obtain ⟨notNull, stored⟩ := (wrappers w' old).node a pushes'
      exact ⟨notNull, (update_elsewhere _ _ _ elsewhere.2.1 elsewhere.1).trans stored⟩
    · exact ⟨nofun, nofun⟩

/-- The new node can be linked. -/
theorem Inv.pushBlock_eq (inv : Inv originals s header cells) {w : MemoryWrapper} {block : Address}
    (listed : w ∈ s.wrappers) (pushes : w.stage = .pushing block) :
    pushBlock s block = some { s with
      nodes := Function.update
        (Function.update s.nodes block (some ⟨w.ptr, header.next⟩))
        s.blocks (some { header with next := block }) } := by
  have unlinked := inHand_apart inv.apart listed pushes
  exact Source.MemoryPool.pushBlock_eq (ne_of_mem_of_not_mem List.mem_cons_self unlinked).symm
    inv.chain.2.2.1 ((inv.wrappers w listed).node block pushes).2

/-- The wrapper deletes memory of its own. -/
theorem Inv.deletes (inv : Inv originals s header cells) {i : Nat} {w : MemoryWrapper}
    (entry : s.wrappers[i]? = some w) (live : w.stage = .live) (failed : w.success = false) :
    Inv originals
      { s with
        memories := Function.update s.memories w.ptr none
        wrappers := s.wrappers.set i { w with ptr := null, stage := .destroyed } }
      header cells := by
  have foreign := inv.heap_foreign (List.mem_of_getElem? entry) live failed
  obtain ⟨chain, apart, conserved, reserved, owned, wrappers⟩ := inv
  have loses := account_set heapMemory { w with ptr := null, stage := .destroyed } [] [w.ptr] entry
    (by simp [heapMemory, live, failed])
  obtain ⟨unowned, owned'⟩ := List.nodup_cons.mp (loses.nodup_iff.mpr owned)
  refine ⟨chain, ?_, ?_, ?_, owned', ?_⟩
  · rwa [account_set_same entry (by simp only [nodeInHand, live])]
  · rwa [account_set_same entry (by simp [heldBlock, live, failed])]
  · intro original member
    refine ⟨(reserved original member).1, ?_⟩
    exact (Function.update_of_ne (ne_of_mem_of_not_mem member foreign) _ _).trans
      (reserved original member).2
  · intro w' member
    rcases List.mem_or_eq_of_mem_set member with old | rfl
    · refine ⟨(wrappers w' old).node, fun live' failed' => ?_⟩
      have held := List.mem_flatMap.mpr ⟨w', member, mem_heapMemory.mpr ⟨live', failed', rfl⟩⟩
      exact (Function.update_of_ne (ne_of_mem_of_not_mem held unowned) _ _).trans
        ((wrappers w' old).memory live' failed')
    · exact ⟨nofun, nofun⟩

/-! ## Whole runs -/

/-- Every step keeps the blocks together. -/
theorem Conserved.step {bits : Nat} {act : Act} (conserved : Conserved originals s)
    (stepped : step bits s act = some next) :
    Conserved originals next ∧ next.blockSize = s.blockSize := by
  obtain ⟨header, cells, inv⟩ := conserved
  cases act with
  | construct content =>
    obtain ⟨next', w, constructed, -, size, kept, -⟩ := inv.construct bits content
    cases constructed.symm.trans stepped
    exact ⟨kept, size⟩
  | fallback i memory =>
    simp only [Source.MemoryPool.step, fallbackStep, Option.bind_eq_bind,
      Option.bind_eq_some_iff] at stepped
    obtain ⟨w, entry, stepped⟩ := stepped
    split at stepped
    · rename_i waits
      obtain ⟨t, created, ended⟩ := Option.bind_eq_some_iff.mp stepped
      obtain ⟨unused, rfl⟩ := State.newMemory_some created
      cases ended
      exact ⟨⟨_, _, inv.fallsBack entry waits.1 unused⟩, rfl⟩
    · cases stepped
  | free i block =>
    simp only [Source.MemoryPool.step, freeStep, Option.bind_eq_bind,
      Option.bind_eq_some_iff] at stepped
    obtain ⟨w, entry, stepped⟩ := stepped
    split at stepped
    · rename_i holds
      obtain ⟨t, freed, ended⟩ := Option.bind_eq_some_iff.mp stepped
      obtain ⟨unused, rfl⟩ := freeNode_some freed
      cases ended
      exact ⟨⟨_, _, inv.frees entry holds.1 holds.2 unused⟩, rfl⟩
    · cases stepped
  | push i =>
    simp only [Source.MemoryPool.step, pushStep, Option.bind_eq_bind,
      Option.bind_eq_some_iff] at stepped
    obtain ⟨w, entry, stepped⟩ := stepped
    split at stepped
    · rename_i pushes
      rw [inv.pushBlock_eq (List.mem_of_getElem? entry) pushes] at stepped
      cases stepped
      exact ⟨⟨_, _, inv.pushes entry pushes⟩, rfl⟩
    · cases stepped
  | delete i =>
    simp only [Source.MemoryPool.step, deleteStep, Option.bind_eq_bind,
      Option.bind_eq_some_iff] at stepped
    obtain ⟨w, entry, stepped⟩ := stepped
    split at stepped
    · rename_i owns
      cases stepped
      exact ⟨⟨_, _, inv.deletes entry owns.1 owns.2.1⟩, rfl⟩
    · cases stepped

/-- A destruction never gets stuck: the node is created at any unused address and then
linked, and memory of the fallback is deleted the way it was created. -/
theorem Inv.destructs (inv : Inv originals s header cells) (bits : Nat) {i : Nat}
    {w : MemoryWrapper} (entry : s.wrappers[i]? = some w) :
    (w.stage = .live → w.success = true → ∀ block, s.unused block = true →
      (step bits s (.free i block)).isSome = true) ∧
    (∀ block, w.stage = .pushing block → (step bits s (.push i)).isSome = true) ∧
    (w.stage = .live → w.success = false → (step bits s (.delete i)).isSome = true) := by
  have listed : w ∈ s.wrappers := List.mem_of_getElem? entry
  refine ⟨?_, ?_, ?_⟩
  · intro live success block unused
    simp [step, freeStep, entry, live, success, freeNode, State.newBlock, unused, State.write]
  · intro block pushes
    simp [step, pushStep, entry, pushes, inv.pushBlock_eq listed pushes]
  · intro live failed
    simp [step, deleteStep, entry, live, failed, (inv.wrappers w listed).memory live failed]

/-! ## The construction of the pool -/

/-- The list while the constructor hangs nodes behind the last one. -/
structure Building (s : State) (front : List (Address × MemoryBlock)) (last : Address)
    (cell : MemoryBlock) (originals : List Address) : Prop where
  chain : Chain MemoryBlock.next null s.nodes s.blocks (front ++ [(last, cell)])
  ends : cell.next = null
  carried : (front ++ [(last, cell)]).map memoryOf = null :: originals
  distinct : originals.Nodup
  reserved : ∀ memory ∈ originals, memory ≠ null ∧ s.memories memory = some .block
  fresh : s.wrappers = []

/-- A turn of the constructor's loop hangs one more node behind the last one. -/
theorem Building.turn {front : List (Address × MemoryBlock)} {last node memory : Address}
    {cell : MemoryBlock} (building : Building s front last cell originals)
    (unused : s.unused node = true) (notNull : memory ≠ null)
    (noMemory : s.memories memory = none) :
    Building
      { s with
        nodes := Function.update
          (Function.update s.nodes last (some { cell with next := node }))
          node (some ⟨memory, null⟩)
        memories := Function.update s.memories memory (some .block) }
      (front ++ [(last, { cell with next := node })]) node ⟨memory, null⟩
        (originals ++ [memory]) := by
  obtain ⟨chain, -, carried, distinct, reserved, fresh⟩ := building
  obtain ⟨nodeNotNull, noNode, -⟩ := State.unused_iff.mp unused
  have foreign : memory ∉ originals := by
    intro original
    cases noMemory.symm.trans (reserved memory original).2
  -- the nodes of the list are stored, the new one is not
  have nodeApart : ∀ a ∈ (front ++ [(last, cell)]).map Prod.fst, a ≠ node := by
    rintro a linked rfl
    exact chain.stored linked noNode
  have lastApart : ∀ a ∈ front.map Prod.fst, a ≠ last := by
    intro a linked
    have nodup := chain.nodup
    rw [List.map_append] at nodup
    exact fun same => List.disjoint_of_nodup_append nodup linked (same ▸ List.mem_singleton_self _)
  simp only [List.map_append, List.mem_append] at nodeApart
  refine ⟨?_, rfl, ?_, ?_, ?_, fresh⟩
  · rw [List.append_assoc]
    refine chain.extend nodeNotNull ?_ ?_ rfl (Function.update_self _ _ _) rfl
    · exact fun a linked =>
        update_elsewhere _ _ _ (lastApart a linked) (nodeApart a (.inl linked))
    · exact (Function.update_of_ne (nodeApart last (.inr (List.mem_singleton_self _))) _ _).trans
        (Function.update_self _ _ _)
  · rw [List.map_append, List.map_append] at *
    exact congrArg (· ++ [memory]) carried
  · exact List.nodup_append.mpr ⟨distinct, List.nodup_singleton _, by
      rintro a original b added rfl
      exact foreign (List.mem_singleton.mp added ▸ original)⟩
  · intro a member
    rcases List.mem_append.mp member with original | added
    · refine ⟨(reserved a original).1, ?_⟩
      exact (Function.update_of_ne (ne_of_mem_of_not_mem original foreign) _ _).trans
        (reserved a original).2
    · rw [List.mem_singleton.mp added]
      exact ⟨notNull, Function.update_self _ _ _⟩

theorem Building.addBlocks {front : List (Address × MemoryBlock)} {last : Address}
    {cell : MemoryBlock}
    {answers : List (Address × Address)} (building : Building s front last cell originals)
    (added : addBlocks s last answers = some next) :
    (∃ front' last' cell', Building next front' last' cell' (originals ++ answers.map Prod.snd)) ∧
      next.blockSize = s.blockSize := by
  induction answers generalizing s front last cell originals with
  | nil =>
    cases added
    rw [List.map_nil, List.append_nil]
    exact ⟨⟨front, last, cell, building⟩, rfl⟩
  | cons answer rest ih =>
    obtain ⟨node, memory⟩ := answer
    have stored : s.nodes last = some cell := building.chain.last_stored
    obtain ⟨unused, notNull, noMemory, added⟩ := addBlocks_cons stored added
    obtain ⟨built, size⟩ := ih (building.turn unused notNull noMemory) added
    rw [List.append_assoc] at built
    exact ⟨built, size⟩

theorem Building.conserved {front : List (Address × MemoryBlock)} {last : Address}
    {cell : MemoryBlock} (building : Building s front last cell originals) :
    Conserved originals s := by
  obtain ⟨chain, -, carried, -, reserved, fresh⟩ := building
  obtain ⟨⟨address, header⟩, cells, whole⟩ :
      ∃ entry cells, front ++ [(last, cell)] = entry :: cells :=
    List.exists_cons_of_ne_nil (List.append_ne_nil_of_right_ne_nil _ (List.cons_ne_nil _ _))
  rw [whole] at chain carried
  obtain rfl : s.blocks = address := chain.1
  have carries : cells.map memoryOf = originals := (List.cons.inj carried).2
  refine ⟨header, cells, chain, ?_, ?_, reserved, ?_, ?_⟩
  · simpa [fresh] using chain.nodup
  · simp [fresh, carries]
  · simp [fresh]
  · simp [fresh]

theorem memoryPoolImpl_conserved {numBlocks blockSize : Nat} {header : Address}
    {answers : List (Address × Address)}
    (created : memoryPoolImpl numBlocks blockSize header answers = some s) :
    Conserved (answers.map Prod.snd) s ∧ (answers.map Prod.snd).Nodup ∧
      answers.length = numBlocks ∧ s.blockSize = blockSize := by
  simp only [memoryPoolImpl] at created
  split at created
  · rename_i enough
    obtain ⟨t, first, added⟩ := Option.bind_eq_some_iff.mp created
    obtain ⟨unused, rfl⟩ := State.newBlock_some first
    have start : Building
        ⟨blockSize, header, Function.update (fun _ => none) header (some ⟨null, null⟩),
          fun _ => none, []⟩ [] header ⟨null, null⟩ [] :=
      { chain := ⟨rfl, (State.unused_iff.mp unused).1, by simp only [Function.update_self], rfl⟩
        ends := rfl
        carried := rfl
        distinct := List.nodup_nil
        reserved := nofun
        fresh := rfl }
    obtain ⟨⟨front, last, cell, building⟩, size⟩ := start.addBlocks added
    exact ⟨building.conserved, building.distinct, enough, size⟩
  · cases created

/-! ## Conservation -/

/-- Two wrappers do not hold the same memory. -/
theorem held_once {f : MemoryWrapper → List Address} {ws : List MemoryWrapper}
    (nodup : (ws.flatMap f).Nodup) {i j : Nat} {v w : MemoryWrapper} (differ : i ≠ j)
    (first : ws[i]? = some v) (second : ws[j]? = some w) : List.Disjoint (f v) (f w) := by
  have pairs := List.pairwise_iff_getElem.mp (List.nodup_flatMap.mp nodup).2
  obtain ⟨inside, rfl⟩ := List.getElem?_eq_some_iff.mp first
  obtain ⟨inside', rfl⟩ := List.getElem?_eq_some_iff.mp second
  rcases Nat.lt_or_gt_of_ne differ with before | after
  · exact pairs i j inside inside' before
  · exact List.disjoint_symm (pairs j i inside' inside after)

/-- Live wrappers have different pointers, whether to blocks or to memory of their own. -/
theorem Inv.unshared (inv : Inv originals s header cells) (distinct : originals.Nodup) {i j : Nat}
    {v w : MemoryWrapper} (differ : i ≠ j) (first : s.wrappers[i]? = some v)
    (second : s.wrappers[j]? = some w) (liveFirst : v.stage = .live)
    (liveSecond : w.stage = .live) :
    v.ptr ≠ w.ptr := by
  have heldNodup : (s.wrappers.flatMap heldBlock).Nodup :=
    (List.nodup_append.mp (inv.conserved.nodup_iff.mpr distinct)).2.1
  have original : ∀ u ∈ s.wrappers, u.stage = .live → u.success = true → u.ptr ∈ originals := by
    intro u listed live success
    apply inv.conserved.subset
    exact List.mem_append_right _
      (List.mem_flatMap.mpr ⟨u, listed, by simp [heldBlock, live, success]⟩)
  have listedFirst := List.mem_of_getElem? first
  have listedSecond := List.mem_of_getElem? second
  intro same
  cases block : v.success <;> cases block' : w.success
  · exact held_once inv.owned differ first second (mem_heapMemory.mpr ⟨liveFirst, block, rfl⟩)
      (mem_heapMemory.mpr ⟨liveSecond, block', same.symm⟩)
  · exact inv.heap_foreign listedFirst liveFirst block
      (same ▸ original w listedSecond liveSecond block')
  · exact inv.heap_foreign listedSecond liveSecond block'
      (same ▸ original v listedFirst liveFirst block)
  · refine held_once heldNodup differ first second (a := v.ptr) ?_ ?_
    · simp [heldBlock, liveFirst, block]
    · simp [heldBlock, liveSecond, block', same]

/-- In every state of every run: the blocks on the free list and those of the wrappers
are the blocks of the constructor, each once; live wrappers share nothing; the next
wrapper gets a block exactly when its size is at most `block_size` and the free list
is not empty; memory of the fallback is no block, so it is not on the list either;
and no destruction gets stuck. -/
theorem blocks_conserved (bits numBlocks blockSize : Nat) (header : Address)
    (answers : List (Address × Address)) (initial final : State) (acts : List Act)
    (created : memoryPoolImpl numBlocks blockSize header answers = some initial)
    (reached : run (step bits) initial acts = some final) :
    answers.length = numBlocks ∧ (answers.map Prod.snd).Nodup ∧
    ∃ free, FreeList final free ∧
      (free ++ final.wrappers.flatMap heldBlock).Perm (answers.map Prod.snd) ∧
      (∀ (i j : Nat) (v w : MemoryWrapper), i ≠ j → final.wrappers[i]? = some v →
        final.wrappers[j]? = some w →
        v.stage = .live → w.stage = .live → v.ptr ≠ w.ptr) ∧
      (∀ content : Content, content.bytes < 2 ^ bits →
        ∃ next w, step bits final (.construct content) = some next ∧
          next.wrappers = final.wrappers ++ [w] ∧
          (w.ptr ∈ answers.map Prod.snd ↔ content.bytes ≤ blockSize ∧ free ≠ [])) ∧
      (∀ w ∈ final.wrappers, ∀ memory ∈ heapMemory w,
        memory ∉ answers.map Prod.snd ∧ memory ∉ free) ∧
      (∀ (i : Nat) (w : MemoryWrapper), final.wrappers[i]? = some w →
        (w.stage = .live → w.success = true → ∀ block, final.unused block = true →
          (step bits final (.free i block)).isSome = true) ∧
        (∀ block, w.stage = .pushing block → (step bits final (.push i)).isSome = true) ∧
        (w.stage = .live → w.success = false → (step bits final (.delete i)).isSome = true)) := by
  obtain ⟨start, distinct, enough, size⟩ := memoryPoolImpl_conserved created
  have keeps : ∀ s act next, Conserved (answers.map Prod.snd) s ∧ s.blockSize = blockSize →
      step bits s act = some next →
      Conserved (answers.map Prod.snd) next ∧ next.blockSize = blockSize := by
    intro s act next holds stepped
    obtain ⟨kept, same⟩ := holds.1.step stepped
    exact ⟨kept, same.trans holds.2⟩
  obtain ⟨⟨head, cells, inv⟩, size'⟩ := run_invariant keeps ⟨start, size⟩ reached
  refine ⟨enough, distinct, cells.map memoryOf, ⟨head, cells, inv.chain, rfl⟩,
    inv.conserved, ?_, ?_, ?_, ?_⟩
  · intro i j v w differ first second liveFirst liveSecond
    exact inv.unshared distinct differ first second liveFirst liveSecond
  · intro content fits
    obtain ⟨next, w, stepped, added, -, -, gets⟩ := inv.construct bits content
    refine ⟨next, w, stepped, added, ?_⟩
    rw [gets, Content.requested_eq fits, size', Ne, Ne, List.map_eq_nil_iff]
  · intro w listed memory owned
    obtain ⟨live, failed, rfl⟩ := mem_heapMemory.mp owned
    have foreign := inv.heap_foreign listed live failed
    exact ⟨foreign, fun free => foreign (inv.conserved.subset (List.mem_append_left _ free))⟩
  · intro i w entry
    exact inv.destructs bits entry

/-- A pool of one block: the second wrapper falls back, the first one goes, and the node
of its block is created where the old one was; the third one gets the block again. -/
def onlyBlock : List Act :=
  [.construct (.single 8), .construct (.array 2 4), .fallback 1 9, .free 0 2, .push 0, .delete 1,
    .construct (.array 4 4)]

theorem blocks_conserved_onlyBlock :
    ∃ initial final, memoryPoolImpl 1 16 1 [(2, 3)] = some initial ∧
      run (step 64) initial onlyBlock = some final ∧
      final.wrappers.map heldBlock = [[], [], [3]] ∧
      ∃ free, FreeList final free ∧ (free ++ final.wrappers.flatMap heldBlock).Perm [3] := by
  have runs : ((memoryPoolImpl 1 16 1 [(2, 3)]).bind fun initial =>
      (run (step 64) initial onlyBlock).map fun final => final.wrappers.map heldBlock) =
      some [[], [], [3]] := by
    decide +kernel
  obtain ⟨initial, created, runs⟩ := Option.bind_eq_some_iff.mp runs
  obtain ⟨final, reached, holds⟩ := Option.map_eq_some_iff.mp runs
  obtain ⟨-, -, free, listed, conserved, -⟩ :=
    blocks_conserved 64 1 16 1 [(2, 3)] initial final onlyBlock created reached
  exact ⟨initial, final, created, reached, holds, free, listed, conserved⟩

end Ladder.Guarantees.BlockConservation
