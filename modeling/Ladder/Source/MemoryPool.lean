import Mathlib.Algebra.Group.Nat.Defs
import Mathlib.Logic.Function.Basic

/-!
# MemoryPool

Source: ladder/include/MemoryPool.h and ladder/src/MemoryPool.cpp, while the pool
exists. Wrappers are constructed and destroyed by any number of threads; each section
locked by `mutex_blocks_` is one step, and so is each `new` outside of it. The
addresses `new` returns are arguments: any address that is not in use, freed ones
included. An object placed into a block has the address of the block. Following a
pointer to nothing and deleting what is not there have no result.
-/
namespace Ladder.Source.MemoryPool

abbrev Address := Nat

def null : Address := 0

structure MemoryBlock where
  memory : Address
  next : Address
  deriving DecidableEq, Repr

/-- Memory that is not a node: a block of the pool, or what the fallback got. -/
inductive Storage where
  | block
  | object
  | array
  deriving DecidableEq, Repr

/-- What a wrapper is for: one `T`, or `n` of them, with `sizeof(T)`. -/
inductive Content where
  | single (size : Nat)
  | array (size n : Nat)
  deriving DecidableEq, Repr

namespace Content

def isArray : Content → Bool
  | .single _ => false
  | .array _ _ => true

def bytes : Content → Nat
  | .single size => size
  | .array size n => n * size

/-- The argument of `allocate(size_t)`, a product of `bits` bits for an array. -/
def requested (bits : Nat) : Content → Nat
  | .single size => size
  | .array size n => n * size % 2 ^ bits

theorem requested_eq {bits : Nat} {content : Content} (fits : content.bytes < 2 ^ bits) :
    content.requested bits = content.bytes := by
  cases content with
  | single size => rfl
  | array size n => exact Nat.mod_eq_of_lt fits

end Content

/-- Where a wrapper is: its allocation came back empty; constructed; its destructor has
the new node in hand; destroyed. -/
inductive Stage where
  | fallback
  | live
  | pushing (block : Address)
  | destroyed
  deriving DecidableEq, Repr

structure MemoryWrapper where
  content : Content
  ptr : Address
  arr : Bool
  success : Bool
  stage : Stage
  deriving DecidableEq, Repr

/-- `blocks` is the header of the free list. Wrappers stay listed when destroyed. -/
structure State where
  blockSize : Nat
  blocks : Address
  nodes : Address → Option MemoryBlock
  memories : Address → Option Storage
  wrappers : List MemoryWrapper

namespace State

def unused (s : State) (address : Address) : Bool :=
  address != null && (s.nodes address).isNone && (s.memories address).isNone

/-- `new MemoryBlock`. -/
def newBlock (s : State) (address : Address) : Option State :=
  if s.unused address then
    some { s with nodes := Function.update s.nodes address (some ⟨null, null⟩) }
  else none

def newMemory (s : State) (address : Address) (storage : Storage) : Option State :=
  if s.unused address then
    some { s with memories := Function.update s.memories address (some storage) }
  else none

/-- An assignment to a field of a node. -/
def write (s : State) (address : Address) (change : MemoryBlock → MemoryBlock) : Option State :=
  (s.nodes address).map fun block =>
    { s with nodes := Function.update s.nodes address (some (change block)) }

theorem unused_iff {s : State} {address : Address} :
    s.unused address = true ↔
      address ≠ null ∧ s.nodes address = none ∧ s.memories address = none := by
  simp [unused, and_assoc]

theorem newBlock_some {s next : State} {address : Address}
    (created : s.newBlock address = some next) :
    s.unused address = true ∧
      next = { s with nodes := Function.update s.nodes address (some ⟨null, null⟩) } := by
  simp only [newBlock] at created
  split at created
  · rename_i unused
    exact ⟨unused, (Option.some.inj created).symm⟩
  · cases created

theorem newMemory_some {s next : State} {address : Address} {storage : Storage}
    (created : s.newMemory address storage = some next) :
    s.unused address = true ∧
      next = { s with memories := Function.update s.memories address (some storage) } := by
  simp only [newMemory] at created
  split at created
  · rename_i unused
    exact ⟨unused, (Option.some.inj created).symm⟩
  · cases created

theorem write_eq {s : State} {address : Address} {block : MemoryBlock}
    (stored : s.nodes address = some block) (change : MemoryBlock → MemoryBlock) :
    s.write address change =
      some { s with nodes := Function.update s.nodes address (some (change block)) } := by
  simp only [write, stored, Option.map_some]

end State

/-- The loop of the constructor, with `block` at the last node; each turn takes the
addresses of its node and of its memory. -/
def addBlocks (s : State) (block : Address) : List (Address × Address) → Option State
  | [] => some s
  | (node, memory) :: rest => do
    let s ← s.newBlock node
    let s ← s.write block fun b => { b with next := node }
    let s ← s.newMemory memory .block
    let s ← s.write node fun b => { b with memory := memory }
    addBlocks s node rest

/-- A turn of the loop. -/
theorem addBlocks_cons {s final : State} {block node memory : Address} {cell : MemoryBlock}
    {rest : List (Address × Address)} (stored : s.nodes block = some cell)
    (added : addBlocks s block ((node, memory) :: rest) = some final) :
    s.unused node = true ∧ memory ≠ null ∧ s.memories memory = none ∧
      addBlocks { s with
        nodes := Function.update
          (Function.update s.nodes block (some { cell with next := node }))
          node (some ⟨memory, null⟩)
        memories := Function.update s.memories memory (some .block) } node rest = some final := by
  simp only [addBlocks, Option.bind_eq_bind, Option.bind_eq_some_iff] at added
  obtain ⟨s₁, created, s₂, linked, s₃, reserved, s₄, filled, added⟩ := added
  obtain ⟨unused, rfl⟩ := State.newBlock_some created
  have apart : block ≠ node := by
    rintro rfl
    cases stored.symm.trans (State.unused_iff.mp unused).2.1
  have stored₁ : Function.update s.nodes node (some ⟨null, null⟩) block = some cell :=
    (Function.update_of_ne apart _ _).trans stored
  rw [State.write_eq stored₁] at linked
  cases linked
  obtain ⟨free, rfl⟩ := State.newMemory_some reserved
  have stored₂ : Function.update (Function.update s.nodes node (some ⟨null, null⟩)) block
      (some { cell with next := node }) node = some ⟨null, null⟩ :=
    (Function.update_of_ne apart.symm _ _).trans (Function.update_self _ _ _)
  rw [State.write_eq stored₂] at filled
  cases filled
  -- the node is written twice, and only the second time counts
  have nodes : Function.update (Function.update (Function.update s.nodes node (some ⟨null, null⟩))
        block (some { cell with next := node })) node (some ⟨memory, null⟩) =
      Function.update (Function.update s.nodes block (some { cell with next := node }))
        node (some ⟨memory, null⟩) := by
    rw [Function.update_comm apart.symm, Function.update_idem]
  obtain ⟨notNull, -, noMemory⟩ := State.unused_iff.mp free
  dsimp only at added
  rw [nodes] at added
  exact ⟨unused, notNull, noMemory, added⟩

/-- `MemoryPoolImpl(num_blocks, block_size)`. -/
def memoryPoolImpl (numBlocks blockSize : Nat) (header : Address)
    (answers : List (Address × Address)) : Option State :=
  if answers.length = numBlocks then do
    let s ← State.newBlock ⟨blockSize, header, fun _ => none, fun _ => none, []⟩ header
    addBlocks s header answers
  else none

/-- `allocate()`. -/
def popBlock (s : State) : Option (State × Address) := do
  let header ← s.nodes s.blocks
  if header.next = null then return (s, null)
  let block ← s.nodes header.next
  let unlinked ← s.write s.blocks fun h => { h with next := block.next }
  return ({ unlinked with nodes := Function.update unlinked.nodes header.next none }, block.memory)

theorem popBlock_empty {s : State} {header : MemoryBlock} (stored : s.nodes s.blocks = some header)
    (empty : header.next = null) : popBlock s = some (s, null) := by
  simp [popBlock, stored, empty]

theorem popBlock_first {s : State} {header block : MemoryBlock}
    (stored : s.nodes s.blocks = some header) (more : header.next ≠ null)
    (first : s.nodes header.next = some block) :
    popBlock s = some ({ s with
      nodes := Function.update
        (Function.update s.nodes s.blocks (some { header with next := block.next }))
        header.next none }, block.memory) := by
  simp [popBlock, stored, more, first, State.write]

/-- `allocate(size_t)`. -/
def allocate (s : State) (n : Nat) : Option (State × Address) :=
  if s.blockSize < n then some (s, null) else popBlock s

/-- `free` before its lock. -/
def freeNode (s : State) (block memory : Address) : Option State := do
  let s ← s.newBlock block
  s.write block fun b => { b with memory := memory }

theorem freeNode_some {s next : State} {block memory : Address}
    (freed : freeNode s block memory = some next) :
    s.unused block = true ∧
      next = { s with nodes := Function.update s.nodes block (some ⟨memory, null⟩) } := by
  simp only [freeNode, Option.bind_eq_bind, Option.bind_eq_some_iff] at freed
  obtain ⟨s₁, created, filled⟩ := freed
  obtain ⟨unused, rfl⟩ := State.newBlock_some created
  rw [State.write_eq (Function.update_self _ _ _)] at filled
  cases filled
  exact ⟨unused, by rw [Function.update_idem]⟩

/-- `free` under its lock. -/
def pushBlock (s : State) (block : Address) : Option State := do
  let header ← s.nodes s.blocks
  let s ← s.write block fun b => { b with next := header.next }
  s.write s.blocks fun h => { h with next := block }

theorem pushBlock_eq {s : State} {header node : MemoryBlock} {block : Address}
    (apart : block ≠ s.blocks) (stored : s.nodes s.blocks = some header)
    (created : s.nodes block = some node) :
    pushBlock s block = some { s with
      nodes := Function.update
        (Function.update s.nodes block (some { node with next := header.next }))
        s.blocks (some { header with next := block }) } := by
  simp [pushBlock, stored, created, State.write, Function.update_of_ne apart.symm]

/-- The constructor of `MemoryWrapper` up to its test of `ptr_`. -/
def constructStep (bits : Nat) (s : State) (content : Content) : Option State := do
  let (s, memory) ← allocate s (content.requested bits)
  let stage := if memory = null then .fallback else .live
  return { s with wrappers := s.wrappers ++ [⟨content, memory, content.isArray, true, stage⟩] }

def storageOf (arr : Bool) : Storage := if arr then .array else .object

/-- `new T` or `new T[n]`, which throws when the size of the array overflows. -/
def fallbackStep (bits : Nat) (s : State) (i : Nat) (memory : Address) : Option State := do
  let w ← s.wrappers[i]?
  if w.stage = .fallback ∧ w.content.bytes < 2 ^ bits then
    let s ← s.newMemory memory (storageOf w.arr)
    return { s with
      wrappers := s.wrappers.set i { w with ptr := memory, success := false, stage := .live } }
  else none

/-- `~MemoryWrapper` of a wrapper with a block, up to the lock of `free`. -/
def freeStep (s : State) (i : Nat) (block : Address) : Option State := do
  let w ← s.wrappers[i]?
  if w.stage = .live ∧ w.success = true then
    let s ← freeNode s block w.ptr
    return { s with wrappers := s.wrappers.set i { w with stage := .pushing block } }
  else none

def pushStep (s : State) (i : Nat) : Option State := do
  let w ← s.wrappers[i]?
  match w.stage with
  | .pushing block =>
    let s ← pushBlock s block
    return { s with wrappers := s.wrappers.set i { w with ptr := null, stage := .destroyed } }
  | _ => none

/-- `~MemoryWrapper` of a wrapper with memory of its own: `delete` or `delete[]`, which
has to match. -/
def deleteStep (s : State) (i : Nat) : Option State := do
  let w ← s.wrappers[i]?
  if w.stage = .live ∧ w.success = false ∧ s.memories w.ptr = some (storageOf w.arr) then
    return { s with
      memories := Function.update s.memories w.ptr none
      wrappers := s.wrappers.set i { w with ptr := null, stage := .destroyed } }
  else none

inductive Act where
  | construct (content : Content)
  | fallback (i : Nat) (memory : Address)
  | free (i : Nat) (block : Address)
  | push (i : Nat)
  | delete (i : Nat)
  deriving DecidableEq, Repr

def step (bits : Nat) (s : State) : Act → Option State
  | .construct content => constructStep bits s content
  | .fallback i memory => fallbackStep bits s i memory
  | .free i block => freeStep s i block
  | .push i => pushStep s i
  | .delete i => deleteStep s i

end Ladder.Source.MemoryPool
