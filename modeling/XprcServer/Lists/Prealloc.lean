import XprcServer.Channels.Basic
import XprcServer.Lib.Links

/-!
# Preallocated lists

`lists.c`: the items of a list stand in blocks of five, in the order in which they are appended.  An
item is deleted by marking it; those in use are linked in both directions, and compacting copies
them to new blocks.

The size of a list is an `int` in the source and has no bound here: what is shown of it holds of
lists with fewer than 2^31 items.

* `Built` : what holds of blocks that are filled one after the other, and of the items in use;
* `Built.placeItem` : appending an item, to the list or while its items are copied;
* `Built.unlink` : deleting one.
-/

namespace XprcServer

open Lib

/-- `PREALLOC_LIST_BLOCK_SIZE` -/
def preallocListBlockSize : ℕ := 5

/-- `PREALLOC_ITEM_STATUS_*` -/
inductive ItemStatus where
  | pristine
  | inUse
  | deleted
  deriving DecidableEq

/-- The address of an item: its block and its place there. -/
abbrev ItemAddress := ℕ × Fin preallocListBlockSize

/-- `prealloc_list_item_t`, with values `ν` and their destructors `δ` -/
structure PreallocItem (ν δ : Type) where
  status : ItemStatus
  value : Option ν
  valueDestructor : Option δ
  prevInUse : Option ItemAddress
  nextInUse : Option ItemAddress

/-- What an item holds, without its links -/
structure ItemContent (ν δ : Type) where
  status : ItemStatus
  value : Option ν
  valueDestructor : Option δ

/-- `prealloc_list_block_t` -/
structure PreallocBlock (ν δ : Type) where
  nextBlock : Option ℕ
  firstPristineItemIndex : ℕ
  items : Fin preallocListBlockSize → PreallocItem ν δ

/-- The blocks in memory, and the destructors that have been called, each with its argument. -/
structure PreallocHeap (ν δ : Type) where
  blocks : ℕ → Option (PreallocBlock ν δ)
  /-- the address of the next allocation -/
  unused : ℕ
  destroyed : List (δ × Option ν)

/-- `prealloc_list_t` -/
structure PreallocList where
  size : ℤ
  dirty : Bool
  firstInUseItem : Option ItemAddress
  lastInUseItem : Option ItemAddress
  headBlock : ℕ
  tailBlock : ℕ
  deriving DecidableEq

section

variable {ν δ : Type}

/-- Zeroed memory for an item -/
def PreallocItem.zero : PreallocItem ν δ := ⟨.pristine, none, none, none, none⟩

def PreallocItem.content (item : PreallocItem ν δ) : ItemContent ν δ :=
  ⟨item.status, item.value, item.valueDestructor⟩

def ItemContent.zero : ItemContent ν δ := ⟨.pristine, none, none⟩

namespace PreallocHeap

/-- `create_preallocated_list_block` when it succeeds -/
def createBlock (heap : PreallocHeap ν δ) : PreallocHeap ν δ :=
  { heap with
    blocks := Function.update heap.blocks heap.unused (some ⟨none, 0, fun _ => .zero⟩)
    unused := heap.unused + 1 }

/-- An assignment to fields of a block -/
def modifyBlock (heap : PreallocHeap ν δ) (b : ℕ) (f : PreallocBlock ν δ → PreallocBlock ν δ) :
    Access (PreallocHeap ν δ) := do
  let block ← heap.blocks b
  return { heap with blocks := Function.update heap.blocks b (some (f block)) }

/-- The item at an address -/
def item (heap : PreallocHeap ν δ) (a : ItemAddress) : Access (PreallocItem ν δ) := do
  let block ← heap.blocks a.1
  return block.items a.2

/-- An assignment to fields of an item -/
def modifyItem (heap : PreallocHeap ν δ) (a : ItemAddress)
    (f : PreallocItem ν δ → PreallocItem ν δ) :
    Access (PreallocHeap ν δ) :=
  heap.modifyBlock a.1 fun block =>
    { block with items := Function.update block.items a.2 (f (block.items a.2)) }

/-- The same for a pointer that may be NULL, which is tested before -/
def modifyItem? (heap : PreallocHeap ν δ) (p : Option ItemAddress)
    (f : PreallocItem ν δ → PreallocItem ν δ) : Access (PreallocHeap ν δ) :=
  match p with
  | none => some heap
  | some a => heap.modifyItem a f

/-! `prealloc_list_append` and the loop of `prealloc_list_compact` do alike what follows. -/

/-- The last block, or a new one behind it if that is full; nothing if there is no memory. -/
def roomyBlock (alloc : Bool) (heap : PreallocHeap ν δ) (tail : ℕ) :
    Access (Option (PreallocHeap ν δ × ℕ)) := do
  let block ← heap.blocks tail
  if block.firstPristineItemIndex < preallocListBlockSize then return some (heap, tail)
  if !alloc then return none
  let heap' ← heap.createBlock.modifyBlock tail fun block =>
    { block with nextBlock := some heap.unused }
  return some (heap', heap.unused)

/-- The value goes to the first pristine item of a block and is linked to the item before. -/
def fillItem (heap : PreallocHeap ν δ) (tail : ℕ) (last : Option ItemAddress) (value : Option ν) :
    Access (PreallocHeap ν δ × ItemAddress) := do
  let block ← heap.blocks tail
  if h : block.firstPristineItemIndex < preallocListBlockSize then do
    let item : ItemAddress := (tail, ⟨block.firstPristineItemIndex, h⟩)
    let heap ← heap.modifyBlock tail fun block =>
      { block with firstPristineItemIndex := block.firstPristineItemIndex + 1 }
    let heap ← heap.modifyItem item fun cell =>
      { cell with status := .inUse, value, prevInUse := last }
    let heap ← heap.modifyItem? last fun cell => { cell with nextInUse := some item }
    return (heap, item)
  else none

/-- Returns the heap, the last block and the new item. -/
def placeItem (alloc : Bool) (heap : PreallocHeap ν δ) (tail : ℕ) (last : Option ItemAddress)
    (value : Option ν) : Access (Option (PreallocHeap ν δ × ℕ × ItemAddress)) := do
  match ← heap.roomyBlock alloc tail with
  | none => return none
  | some (heap, tail) => do
    let (heap, item) ← heap.fillItem tail last value
    return some (heap, tail, item)

end PreallocHeap

/-- `create_preallocated_list` when it succeeds, with the memory it is in -/
def createPreallocatedList (ν δ : Type) : PreallocList × PreallocHeap ν δ :=
  let heap : PreallocHeap ν δ := ⟨fun _ => none, 0, []⟩
  (⟨0, false, none, none, heap.unused, heap.unused⟩, heap.createBlock)

namespace PreallocList

variable (list : PreallocList) (heap : PreallocHeap ν δ)

/-- `prealloc_list_append` -/
def append (alloc : Bool) (value : Option ν) : Access (Bool × PreallocList × PreallocHeap ν δ) := do
  match ← heap.placeItem alloc list.tailBlock list.lastInUseItem value with
  | none => return (false, list, heap)
  | some (heap, tail, item) =>
    let firstInUseItem := if list.firstInUseItem = none then some item else list.firstInUseItem
    return (true, { list with
      tailBlock := tail, lastInUseItem := some item, firstInUseItem, size := list.size + 1 }, heap)

/-- The loop of `prealloc_list_get_item` -/
def getItemLoop : ℕ → Option ItemAddress → Access (Option ItemAddress)
  | 0, item => some item
  | _ + 1, none => some none
  | index + 1, some item => do
    let cell ← heap.item item
    getItemLoop index cell.nextInUse

/-- `prealloc_list_get_item` -/
def getItem (index : ℤ) : Access (Option ItemAddress) :=
  if index < 0 ∨ list.size ≤ index then some none
  else getItemLoop heap index.toNat list.firstInUseItem

/-- `prealloc_list_delete_item` -/
def deleteItem (item : Option ItemAddress) (valueDestructor : Option δ) (deferDestruction : Bool) :
    Access (Bool × PreallocList × PreallocHeap ν δ) :=
  match item with
  | none => some (false, list, heap)
  | some item => do
    let cell ← heap.item item
    if cell.status ≠ .inUse then return (false, list, heap)
    let heap ← heap.modifyItem item fun cell => { cell with status := .deleted }
    let list := { list with
      dirty := true
      size := list.size - 1
      firstInUseItem :=
        if list.firstInUseItem = some item then cell.nextInUse else list.firstInUseItem
      lastInUseItem := if list.lastInUseItem = some item then cell.prevInUse else
      list.lastInUseItem }
    let heap ← heap.modifyItem? cell.prevInUse fun prev => { prev with nextInUse := cell.nextInUse }
    let cell ← heap.item item
    let heap ← heap.modifyItem? cell.nextInUse fun next => { next with prevInUse := cell.prevInUse }
    if deferDestruction then
      let heap ← heap.modifyItem item fun cell => { cell with valueDestructor }
      return (true, list, heap)
    else
      let calls := valueDestructor.toList.map fun destructor => (destructor, cell.value)
      let heap ← heap.modifyItem item fun cell => { cell with value := none }
      return (true, list, { heap with destroyed := heap.destroyed ++ calls })

end PreallocList

/-! ### What assignments change -/

namespace PreallocHeap

/-- The link of a block and how far it is filled. -/
def shape (heap : PreallocHeap ν δ) (b : ℕ) : Option (Option ℕ × ℕ) :=
  (heap.blocks b).map fun block => (block.nextBlock, block.firstPristineItemIndex)

def nextBlock (heap : PreallocHeap ν δ) (b : ℕ) : Option ℕ := (heap.shape b).bind Prod.fst

def next (heap : PreallocHeap ν δ) (a : ItemAddress) : Option ItemAddress :=
  (heap.item a).bind PreallocItem.nextInUse

def prev (heap : PreallocHeap ν δ) (a : ItemAddress) : Option ItemAddress :=
  (heap.item a).bind PreallocItem.prevInUse

/-- An item without its links; where no block is, it is as if there were zeroed memory. -/
def content (heap : PreallocHeap ν δ) (a : ItemAddress) : ItemContent ν δ :=
  (heap.item a).elim .zero PreallocItem.content

variable {heap heap' : PreallocHeap ν δ}

/-- The rest of the heap is as it was. -/
structure Elsewhere (heap heap' : PreallocHeap ν δ) : Prop where
  unused : heap'.unused = heap.unused
  destroyed : heap'.destroyed = heap.destroyed

theorem Elsewhere.trans {heap'' : PreallocHeap ν δ} (h : Elsewhere heap heap')
    (h' : Elsewhere heap' heap'') : Elsewhere heap heap'' :=
  ⟨h'.unused.trans h.unused, h'.destroyed.trans h.destroyed⟩

theorem blocks_of_shape {b : ℕ} {next : Option ℕ} {index : ℕ}
    (h : heap.shape b = some (next, index)) : ∃ items, heap.blocks b =
      some ⟨next, index, items⟩ := by
  obtain ⟨⟨next', index', items⟩, hblock, heq⟩ := Option.map_eq_some_iff.1 h
  cases heq
  exact ⟨items, hblock⟩

theorem shape_of_item {a : ItemAddress} {cell : PreallocItem ν δ} (h : heap.item a = some cell) :
    ∃ next index, heap.shape a.1 = some (next, index) := by
  cases hblock : heap.blocks a.1 with
  | none => simp [item, hblock] at h
  | some block => exact ⟨_, _, by rw [shape, hblock]; rfl⟩

theorem item_of_shape {a : ItemAddress} (h : (heap.shape a.1).isSome) : ∃ cell,
    heap.item a = some cell := by
  obtain ⟨⟨next, index⟩, hshape⟩ := Option.isSome_iff_exists.1 h
  obtain ⟨items, hblock⟩ := blocks_of_shape hshape
  exact ⟨items a.2, by rw [item, hblock]; rfl⟩

theorem createBlock_shape (heap : PreallocHeap ν δ) :
    heap.createBlock.shape = Function.update heap.shape heap.unused (some (none, 0)) := by
  funext b
  by_cases hb : b = heap.unused
  · simp [shape, createBlock, hb]
  · simp [shape, createBlock, hb]

theorem createBlock_item (heap : PreallocHeap ν δ) (a : ItemAddress) :
    heap.createBlock.item a = if a.1 = heap.unused then some .zero else heap.item a := by
  by_cases ha : a.1 = heap.unused
  · simp [item, createBlock, ha]
  · simp [item, createBlock, ha]

theorem content_eq {a : ItemAddress} {cell : PreallocItem ν δ} (h : heap.item a = some cell) :
    heap.content a = cell.content := by
  rw [content, h]
  rfl

theorem next_eq {a : ItemAddress} {cell : PreallocItem ν δ} (h : heap.item a = some cell) :
    heap.next a = cell.nextInUse := by
  rw [next, h]
  rfl

/-- Where no block is, there is no item. -/
theorem item_eq_none {a : ItemAddress} (h : heap.shape a.1 = none) : heap.item a = none := by
  rw [shape, Option.map_eq_none_iff] at h
  rw [item, h]
  rfl

theorem createBlock_holds (h : heap.shape heap.unused = none) :
    heap.createBlock.content = heap.content ∧ heap.createBlock.next = heap.next := by
  refine ⟨funext fun a => ?_, funext fun a => ?_⟩
  · rw [content, createBlock_item, content]
    split_ifs with ha
    · rw [item_eq_none (ha ▸ h)]
      rfl
    · rfl
  · rw [next, createBlock_item, next]
    split_ifs with ha
    · rw [item_eq_none (ha ▸ h)]
      rfl
    · rfl

theorem holds_congr (h : heap'.item = heap.item) :
    heap'.content = heap.content ∧ heap'.next = heap.next := by
  refine ⟨funext fun a => ?_, funext fun a => ?_⟩
  · rw [content, content, h]
  · rw [next, next, h]

theorem modifyBlock_eq {b : ℕ} {block : PreallocBlock ν δ} (h : heap.blocks b = some block)
    (f : PreallocBlock ν δ → PreallocBlock ν δ) :
    heap.modifyBlock b f =
      some { heap with blocks := Function.update heap.blocks b (some (f block)) } := by
  rw [modifyBlock, h]
  rfl

/-- An assignment to the fields of a block other than its items. -/
theorem modifyBlock_spec {b : ℕ} {next : Option ℕ} {index : ℕ}
    (h : heap.shape b = some (next, index)) (f : PreallocBlock ν δ → PreallocBlock ν δ)
    (hitems : ∀ block, (f block).items = block.items) (next' : Option ℕ) (index' : ℕ)
    (hf : ∀ items, ((f ⟨next, index, items⟩).nextBlock,
      (f ⟨next, index, items⟩).firstPristineItemIndex) = (next', index')) :
    ∃ heap', heap.modifyBlock b f = some heap' ∧ Elsewhere heap heap' ∧
      heap'.shape = Function.update heap.shape b (some (next', index')) ∧
      heap'.item = heap.item := by
  obtain ⟨items, hblock⟩ := blocks_of_shape h
  refine ⟨_, modifyBlock_eq hblock f, ⟨rfl, rfl⟩, ?_, ?_⟩
  · funext c
    by_cases hc : c = b
    · simp only [shape, hc, Function.update_self, Option.map_some, hf]
    · simp [shape, hc]
  · funext a
    by_cases ha : a.1 = b
    · simp [item, ha, hblock, hitems]
    · simp [item, ha]

theorem modifyItem_spec {a : ItemAddress} {cell : PreallocItem ν δ} (h : heap.item a = some cell)
    (f : PreallocItem ν δ → PreallocItem ν δ) :
    ∃ heap', heap.modifyItem a f = some heap' ∧ Elsewhere heap heap' ∧ heap'.shape = heap.shape ∧
      heap'.item = Function.update heap.item a (some (f cell)) := by
  obtain ⟨b, i⟩ := a
  obtain ⟨next, index, hshape⟩ := shape_of_item h
  obtain ⟨items, hblock⟩ := blocks_of_shape hshape
  obtain rfl : items i = cell := by simpa [item, hblock] using h
  refine ⟨_, modifyBlock_eq hblock _, ⟨rfl, rfl⟩, ?_, ?_⟩
  · funext c
    by_cases hc : c = b
    · simp [shape, hc, hblock]
    · simp [shape, hc]
  · funext ⟨c, j⟩
    by_cases hc : c = b
    · subst hc
      by_cases hj : j = i
      · simp [item, hj]
      · simp [item, hj, hblock, Prod.ext_iff]
    · simp [item, hc, Prod.ext_iff]

/-- An assignment through a pointer that may be NULL. -/
theorem modifyItem?_spec {p : Option ItemAddress}
    (h : ∀ a, p = some a → ∃ cell, heap.item a = some cell)
    (f : PreallocItem ν δ → PreallocItem ν δ) :
    ∃ heap', heap.modifyItem? p f = some heap' ∧ Elsewhere heap heap' ∧ heap'.shape = heap.shape ∧
      ∀ a, heap'.item a = if p = some a then (heap.item a).map f else heap.item a := by
  cases p with
  | none => exact ⟨heap, rfl, ⟨rfl, rfl⟩, rfl, fun a => by simp⟩
  | some a =>
    obtain ⟨cell, hcell⟩ := h a rfl
    obtain ⟨heap', hmodify, helse, hshape, hitem⟩ := modifyItem_spec hcell f
    refine ⟨heap', hmodify, helse, hshape, fun c => ?_⟩
    rw [hitem]
    by_cases hc : c = a
    · simp [hc, hcell]
    · simp [hc, Ne.symm hc]

end PreallocHeap

/-! ### Blocks filled one after the other -/

/-- The blocks from `head` to `tail`, of which the last one is filled up to its first pristine item,
and the items in use with their values, linked in both directions. -/
structure Built (heap : PreallocHeap ν δ) (head tail : ℕ) (first last : Option ItemAddress)
    (chain : List ℕ) (seq : List (ItemAddress × Option ν)) : Prop where
  blocks : Linked heap.nextBlock (some head) chain
  ends : chain.getLast? = some tail
  allocated : ∀ b ∈ chain, (heap.shape b).isSome
  linked : DoublyLinked heap.next heap.prev first last (seq.map Prod.fst)
  live : ∀ e ∈ seq, e.1.1 ∈ chain ∧
    ∃ cell, heap.item e.1 = some cell ∧ cell.status = .inUse ∧ cell.value = e.2
  inUse : ∀ a cell, a.1 ∈ chain → heap.item a = some cell → cell.status = .inUse →
    a ∈ seq.map Prod.fst
  pristine : ∀ next index, heap.shape tail = some (next, index) →
    ∀ i : Fin preallocListBlockSize, index ≤ i → heap.item (tail, i) = some .zero

section

variable {heap heap' : PreallocHeap ν δ} {head tail : ℕ} {first last : Option ItemAddress}
  {chain : List ℕ} {seq : List (ItemAddress × Option ν)}

theorem Built.tail_mem (h : Built heap head tail first last chain seq) : tail ∈ chain :=
  List.mem_of_getLast? h.ends

theorem Built.mem_chain (h : Built heap head tail first last chain seq) {a : ItemAddress}
    (ha : a ∈ seq.map Prod.fst) : a.1 ∈ chain := by
  obtain ⟨e, he, rfl⟩ := List.mem_map.1 ha
  exact (h.live e he).1

/-- Only the blocks of the chain matter. -/
theorem Built.congr (h : Built heap head tail first last chain seq)
    (hshape : ∀ b ∈ chain, heap'.shape b = heap.shape b)
    (hitem : ∀ a : ItemAddress, a.1 ∈ chain → heap'.item a = heap.item a) :
    Built heap' head tail first last chain seq where
  blocks := h.blocks.congr fun b hb => by
    rw [PreallocHeap.nextBlock, PreallocHeap.nextBlock, hshape b hb]
  ends := h.ends
  allocated b hb := by rw [hshape b hb]; exact h.allocated b hb
  linked := h.linked.congr
    (fun a ha => by rw [PreallocHeap.next, PreallocHeap.next, hitem a (h.mem_chain ha)])
    (fun a ha => by rw [PreallocHeap.prev, PreallocHeap.prev, hitem a (h.mem_chain ha)])
  live e he := by
    rw [hitem e.1 (h.live e he).1]
    exact h.live e he
  inUse a cell ha hcell hstatus := h.inUse a cell ha (by rw [← hitem a ha, hcell]) hstatus
  pristine next index hblock i hi := by
    rw [hitem (tail, i) h.tail_mem]
    exact h.pristine next index (by rw [← hshape tail h.tail_mem, hblock]) i hi

/-- A new block behind the last one. -/
theorem Built.grow (h : Built heap head tail first last chain seq) (hnew : heap.unused ∉ chain)
    (hshape : ∀ b ∈ chain, heap'.nextBlock b =
      if chain.getLast? = some b then some heap.unused else heap.nextBlock b)
    (hallocated : ∀ b ∈ chain, (heap'.shape b).isSome)
    (hshape' : heap'.shape heap.unused = some (none, 0))
    (hitem : ∀ a : ItemAddress,
      heap'.item a = if a.1 = heap.unused then some .zero else heap.item a) :
    Built heap' head heap.unused first last (chain ++ [heap.unused]) seq := by
  have hne : ∀ a : ItemAddress, a.1 ∈ chain → heap'.item a = heap.item a := by
    intro a ha
    have hblock : a.1 ≠ heap.unused := fun heq => hnew (heq ▸ ha)
    rw [hitem, if_neg hblock]
  constructor
  · refine h.blocks.append ?_ hshape (by rw [PreallocHeap.nextBlock, hshape']; rfl)
    rw [if_neg (List.ne_nil_of_mem h.tail_mem)]
  · exact List.getLast?_concat
  · intro b hb
    rcases List.mem_append.1 hb with hb | hb
    · exact hallocated b hb
    · rw [List.mem_singleton.1 hb, hshape']
      rfl
  · exact h.linked.congr
      (fun a ha => by rw [PreallocHeap.next, PreallocHeap.next, hne a (h.mem_chain ha)])
      (fun a ha => by rw [PreallocHeap.prev, PreallocHeap.prev, hne a (h.mem_chain ha)])
  · intro e he
    rw [hne e.1 (h.live e he).1]
    exact ⟨List.mem_append_left _ (h.live e he).1, (h.live e he).2⟩
  · intro a cell ha hcell hstatus
    rcases List.mem_append.1 ha with ha | ha
    · exact h.inUse a cell ha (by rw [← hne a ha, hcell]) hstatus
    · rw [hitem, if_pos (List.mem_singleton.1 ha)] at hcell
      cases hcell
      cases hstatus
  · intro next index _ i _
    rw [hitem, if_pos rfl]

/-- No block is where the next ones will be allocated. -/
def PreallocHeap.Fresh (heap : PreallocHeap ν δ) : Prop :=
  ∀ b, heap.unused ≤ b → heap.shape b = none

theorem Built.lt_unused (h : Built heap head tail first last chain seq)
    (hfresh : heap.Fresh) {b : ℕ} (hb : b ∈ chain) : b < heap.unused := by
  refine Nat.lt_of_not_le fun hle => ?_
  have hsome := h.allocated b hb
  rw [hfresh b hle] at hsome
  cases hsome

/-- There is room for an item in the last block or a new one, unless there is no memory. -/
theorem Built.roomyBlock (h : Built heap head tail first last chain seq) (hfresh : heap.Fresh)
    (alloc : Bool) :
    heap.roomyBlock alloc tail = some none ∧ alloc = false ∨
      ∃ heap' tail' chain' next index, heap.roomyBlock alloc tail = some (some (heap', tail')) ∧
        Built heap' head tail' first last chain' seq ∧ heap'.Fresh ∧
        heap'.shape tail' = some (next, index) ∧ index < preallocListBlockSize ∧
        (chain' = chain ∧ heap' = heap ∧ tail' = tail ∨
          chain' = chain ++ [heap.unused] ∧
            heap.shape tail ≠ some (none, 0)) ∧
        heap'.destroyed = heap.destroyed ∧ heap.unused ≤ heap'.unused ∧
        (∀ b, b ∉ chain' → heap'.shape b = heap.shape b) ∧
        (∀ a : ItemAddress, a.1 ∉ chain' → heap'.item a = heap.item a) ∧
        heap'.content = heap.content ∧ heap'.next = heap.next := by
  obtain ⟨⟨next, index⟩, hshape⟩ := Option.isSome_iff_exists.1 (h.allocated tail h.tail_mem)
  obtain ⟨items, hblock⟩ := PreallocHeap.blocks_of_shape hshape
  have hnew : heap.unused ∉ chain := fun hmem => Nat.lt_irrefl _ (h.lt_unused hfresh hmem)
  have hne : tail ≠ heap.unused := fun heq => hnew (heq ▸ h.tail_mem)
  simp only [PreallocHeap.roomyBlock, hblock, Option.bind_eq_bind, Option.bind_some]
  by_cases hroom : index < preallocListBlockSize
  · refine .inr ⟨heap, tail, chain, next, index, ?_, h, hfresh, hshape, hroom, .inl ⟨rfl, rfl, rfl⟩,
      rfl, Nat.le_refl _, fun _ _ => rfl, fun _ _ => rfl, rfl, rfl⟩
    rw [if_pos hroom]
    rfl
  · simp only [if_neg hroom]
    cases alloc with
    | false => exact .inl ⟨rfl, rfl⟩
    | true =>
      have hcreated : heap.createBlock.shape tail = some (next, index) := by
        rw [PreallocHeap.createBlock_shape, Function.update_of_ne hne, hshape]
      obtain ⟨heap', hmodify, helse, hshape', hitem'⟩ := PreallocHeap.modifyBlock_spec hcreated
        (fun block => { block with nextBlock := some heap.unused }) (fun _ => rfl)
        (some heap.unused) index fun _ => rfl
      rw [PreallocHeap.createBlock_shape] at hshape'
      have hunused : heap'.unused = heap.unused + 1 := helse.unused
      refine .inr ⟨heap', heap.unused, chain ++ [heap.unused], none, 0, ?_, ?_, ?_, ?_, by decide,
        .inr ⟨rfl, ?_⟩, helse.destroyed, by omega, fun b hb => ?_, fun a ha => ?_, ?_⟩
      · simp only [Bool.not_true, Bool.false_eq_true, if_false, hmodify, Option.bind_some]
        rfl
      · refine h.grow hnew (fun b hb => ?_) (fun b hb => ?_) ?_ fun a => ?_
        · have hb' : b ≠ heap.unused := fun heq => hnew (heq ▸ hb)
          rw [h.ends, PreallocHeap.nextBlock, PreallocHeap.nextBlock, hshape']
          by_cases htail : b = tail
          · simp [htail]
          · simp [htail, hb', Ne.symm htail]
        · rw [hshape']
          by_cases htail : b = tail
          · simp [htail]
          · have hb' : b ≠ heap.unused := fun heq => hnew (heq ▸ hb)
            simpa [htail, hb'] using h.allocated b hb
        · simp [hshape', hne.symm]
        · rw [hitem', PreallocHeap.createBlock_item]
      · intro b hb
        have hlt : tail < heap.unused := h.lt_unused hfresh h.tail_mem
        rw [hshape', Function.update_of_ne (by omega), Function.update_of_ne (by omega)]
        exact hfresh b (by omega)
      · simp [hshape', hne.symm]
      · rw [hshape]
        rintro ⟨⟩
        exact hroom (by decide)
      · rw [List.mem_append, List.mem_singleton, not_or] at hb
        have htail : b ≠ tail := fun heq => hb.1 (heq ▸ h.tail_mem)
        rw [hshape', Function.update_of_ne htail, Function.update_of_ne hb.2]
      · rw [List.mem_append, List.mem_singleton, not_or] at ha
        rw [hitem', PreallocHeap.createBlock_item, if_neg ha.2]
      · obtain ⟨hcontent, hnext⟩ :=
          PreallocHeap.createBlock_holds (hfresh heap.unused (Nat.le_refl _))
        obtain ⟨hcontent', hnext'⟩ := PreallocHeap.holds_congr hitem'
        exact ⟨hcontent'.trans hcontent, hnext'.trans hnext⟩

/-- The item that is filled next is not in use. -/
theorem Built.pristine_not_mem (h : Built heap head tail first last chain seq) {next : Option ℕ}
    {index : ℕ} (hshape : heap.shape tail = some (next, index))
    (hroom : index < preallocListBlockSize) : (tail, ⟨index, hroom⟩) ∉ seq.map Prod.fst := by
  intro hmem
  obtain ⟨e, he, heq⟩ := List.mem_map.1 hmem
  obtain ⟨-, cell, hcell, hstatus, -⟩ := h.live e he
  rw [heq, h.pristine next index hshape _ (Nat.le_refl _)] at hcell
  cases hcell
  cases hstatus

theorem Built.exists_item (h : Built heap head tail first last chain seq) {a : ItemAddress}
    (ha : a ∈ seq.map Prod.fst) : ∃ cell, heap.item a = some cell := by
  obtain ⟨e, he, rfl⟩ := List.mem_map.1 ha
  obtain ⟨-, cell, hcell, -⟩ := h.live e he
  exact ⟨cell, hcell⟩

theorem Built.last_mem (h : Built heap head tail first last chain seq) {a : ItemAddress}
    (ha : last = some a) : a ∈ seq.map Prod.fst := List.mem_of_getLast? (h.linked.last_eq ▸ ha)

/-- The first pristine item is in use, and linked behind the last one. -/
theorem Built.append (h : Built heap head tail first last chain seq) {next : Option ℕ} {index : ℕ}
    {item : ItemAddress} {value : Option ν} (hshape : heap.shape tail = some (next, index))
    (hitem : item.1 = tail ∧ (item.2 : ℕ) = index) (hnew : item ∉ seq.map Prod.fst)
    (hshape' : heap'.shape = Function.update heap.shape tail (some (next, index + 1)))
    (hself : heap'.item item = some ⟨.inUse, value, none, last, none⟩)
    (hother : ∀ a, a ≠ item → heap'.item a = if last = some a then
      (heap.item a).map fun cell => { cell with nextInUse := some item } else heap.item a) :
    Built heap' head tail (if first = none then some item else first) (some item) chain
      (seq ++ [(item, value)]) := by
  have hne : ∀ a ∈ seq.map Prod.fst, a ≠ item := fun a ha heq => hnew (heq ▸ ha)
  constructor
  · refine h.blocks.congr fun b _ => ?_
    rw [PreallocHeap.nextBlock, PreallocHeap.nextBlock, hshape']
    by_cases hb : b = tail
    · rw [hb, Function.update_self, hshape]
      rfl
    · rw [Function.update_of_ne hb]
  · exact h.ends
  · intro b hb
    rw [hshape']
    by_cases htail : b = tail
    · simp [htail]
    · rw [Function.update_of_ne htail]
      exact h.allocated b hb
  · rw [List.map_append]
    refine h.linked.append ⟨?_, ?_⟩ (fun a ha => ?_) (fun a ha => ?_) rfl rfl
    · rw [PreallocHeap.next, hself]
      rfl
    · rw [PreallocHeap.prev, hself]
      rfl
    · obtain ⟨cell, hcell⟩ := h.exists_item ha
      rw [PreallocHeap.next, hother a (hne a ha), PreallocHeap.next, hcell]
      split_ifs with hlast
      · rfl
      · rfl
    · obtain ⟨cell, hcell⟩ := h.exists_item ha
      rw [PreallocHeap.prev, hother a (hne a ha), PreallocHeap.prev, hcell]
      split_ifs with hlast
      · rfl
      · rfl
  · intro e he
    rcases List.mem_append.1 he with he | he
    · obtain ⟨hblock, cell, hcell, hstatus, hvalue⟩ := h.live e he
      rw [hother e.1 (hne e.1 (List.mem_map_of_mem he)), hcell]
      refine ⟨hblock, ?_⟩
      split_ifs with hlast
      · exact ⟨_, rfl, hstatus, hvalue⟩
      · exact ⟨cell, rfl, hstatus, hvalue⟩
    · obtain rfl := List.mem_singleton.1 he
      exact ⟨hitem.1 ▸ h.tail_mem, _, hself, rfl, rfl⟩
  · intro a cell ha hcell hstatus
    rw [List.map_append, List.mem_append]
    by_cases heq : a = item
    · exact .inr (by simp [heq])
    · refine .inl ?_
      rw [hother a heq] at hcell
      split_ifs at hcell with hlast
      · exact h.last_mem hlast
      · exact h.inUse a cell ha hcell hstatus
  · intro next' index' hblock i hi
    rw [hshape', Function.update_self, Option.some.injEq, Prod.mk.injEq] at hblock
    obtain ⟨-, rfl⟩ := hblock
    have heq : (tail, i) ≠ item := by
      rintro rfl
      have := hitem.2
      simp only at this
      omega
    have hlast : last ≠ some (tail, i) := by
      intro hlast
      obtain ⟨e, he, heq⟩ := List.mem_map.1 (h.last_mem hlast)
      obtain ⟨-, cell, hcell, hstatus, -⟩ := h.live e he
      rw [heq, h.pristine next index hshape i (by omega)] at hcell
      cases hcell
      cases hstatus
    rw [hother _ heq, if_neg hlast]
    exact h.pristine next index hshape i (by omega)

/-- A value is placed into the first pristine item of the last block, behind the last item. -/
theorem Built.fillItem (h : Built heap head tail first last chain seq) {next : Option ℕ} {index : ℕ}
    (hshape : heap.shape tail = some (next, index)) (hroom : index < preallocListBlockSize)
    (value : Option ν) :
    ∃ heap', heap.fillItem tail last value = some (heap', (tail, ⟨index, hroom⟩)) ∧
      Built heap' head tail (if first = none then some (tail, ⟨index, hroom⟩) else first)
        (some (tail, ⟨index, hroom⟩)) chain (seq ++ [((tail, ⟨index, hroom⟩), value)]) ∧
      heap.Elsewhere heap' ∧
      heap'.shape = Function.update heap.shape tail (some (next, index + 1)) ∧
      (∀ a : ItemAddress, a.1 ∉ chain → heap'.item a = heap.item a) ∧
      heap'.content = Function.update heap.content (tail, ⟨index, hroom⟩) ⟨.inUse, value, none⟩ ∧
      ∀ a, heap'.next a = if last = some a then some (tail, ⟨index, hroom⟩) else heap.next a := by
  have hnew := h.pristine_not_mem hshape hroom
  have hzero := h.pristine next index hshape ⟨index, hroom⟩ (Nat.le_refl _)
  have hne : ∀ a ∈ seq.map Prod.fst, a ≠ (tail, ⟨index, hroom⟩) := fun a ha heq => hnew (heq ▸ ha)
  obtain ⟨heap₁, hadvance, helse₁, hshape₁, hitem₁⟩ := PreallocHeap.modifyBlock_spec hshape
    (fun block => { block with firstPristineItemIndex := block.firstPristineItemIndex + 1 })
    (fun _ => rfl) next (index + 1) fun _ => rfl
  rw [← hitem₁] at hzero
  obtain ⟨heap₂, hfill, helse₂, hshape₂, hitem₂⟩ := PreallocHeap.modifyItem_spec hzero
    (fun cell => { cell with status := .inUse, value, prevInUse := last })
  have hkept : ∀ a, a ≠ (tail, ⟨index, hroom⟩) → heap₂.item a = heap.item a := fun a ha => by
    rw [hitem₂, Function.update_of_ne ha, hitem₁]
  have hlast : ∀ a, last = some a → ∃ cell, heap₂.item a = some cell := fun a ha => by
    rw [hkept a (hne a (h.last_mem ha))]
    exact h.exists_item (h.last_mem ha)
  obtain ⟨heap₃, hlink, helse₃, hshape₃, hitem₃⟩ := PreallocHeap.modifyItem?_spec hlast
    (fun cell => { cell with nextInUse := some (tail, ⟨index, hroom⟩) })
  have hself : heap₃.item (tail, ⟨index, hroom⟩) = some ⟨.inUse, value, none, last, none⟩ := by
    rw [hitem₃, if_neg fun heq => hnew (h.last_mem heq), hitem₂, Function.update_self]
    rfl
  have hother : ∀ a, a ≠ (tail, ⟨index, hroom⟩) → heap₃.item a = if last = some a then
      (heap.item a).map fun cell => { cell with nextInUse := some (tail, ⟨index, hroom⟩) }
      else heap.item a := fun a ha => by rw [hitem₃, hkept a ha]
  have hshape' := (hshape₃.trans hshape₂).trans hshape₁
  refine ⟨heap₃, ?_, h.append hshape ⟨rfl, rfl⟩ hnew hshape' hself hother,
    (helse₁.trans helse₂).trans helse₃, hshape', fun a ha => ?_, funext fun a => ?_, fun a => ?_⟩
  · obtain ⟨items, hblock⟩ := PreallocHeap.blocks_of_shape hshape
    simp only [PreallocHeap.fillItem, hblock, Option.bind_eq_bind, Option.bind_some, hroom,
      ↓reduceDIte, hadvance, hfill, hlink]
    rfl
  · have heq : a ≠ (tail, ⟨index, hroom⟩) := fun heq => ha (heq ▸ h.tail_mem)
    rw [hother a heq, if_neg fun heq => ha (h.mem_chain (h.last_mem heq))]
  · by_cases heq : a = (tail, ⟨index, hroom⟩)
    · rw [heq, Function.update_self, PreallocHeap.content_eq hself]
      rfl
    · rw [Function.update_of_ne heq, PreallocHeap.content, hother a heq, PreallocHeap.content]
      -- the link of the last item is no part of what it holds
      split_ifs
      · cases heap.item a <;> rfl
      · rfl
  · by_cases heq : a = (tail, ⟨index, hroom⟩)
    · have hlast' : last ≠ some a := fun hlast' => hnew (heq ▸ h.last_mem hlast')
      rw [if_neg hlast', heq, PreallocHeap.next_eq hself,
        PreallocHeap.next_eq (h.pristine next index hshape ⟨index, hroom⟩ (Nat.le_refl _))]
      rfl
    · rw [PreallocHeap.next, hother a heq, PreallocHeap.next]
      split_ifs with hlast'
      · obtain ⟨cell, hcell⟩ := h.exists_item (h.last_mem hlast')
        rw [hcell]
        rfl
      · rfl

/-- **A value is appended, to the last block or a new one, unless there is no memory.** -/
theorem Built.placeItem (h : Built heap head tail first last chain seq) (hfresh : heap.Fresh)
    (alloc : Bool) (value : Option ν) :
    heap.placeItem alloc tail last value = some none ∧ alloc = false ∨
      ∃ heap' tail' item chain', heap.placeItem alloc tail last value =
        some (some (heap', tail', item)) ∧
        Built heap' head tail' (if first = none then some item else first) (some item) chain'
          (seq ++ [(item, value)]) ∧
        heap'.Fresh ∧ heap'.destroyed = heap.destroyed ∧ heap.unused ≤ heap'.unused ∧
        (chain' = chain ∨ chain' = chain ++ [heap.unused]) ∧
        (∀ b, b ∉ chain' → heap'.shape b = heap.shape b) ∧
        (∀ a : ItemAddress, a.1 ∉ chain' → heap'.item a = heap.item a) ∧
        (∃ next, heap'.shape item.1 = some (next, (item.2 : ℕ) + 1)) ∧ item.1 = tail' ∧
        (heap.shape tail = some (none, 0) → item = (tail, ⟨0, by decide⟩)) ∧
        heap.content item = .zero ∧
        heap'.content = Function.update heap.content item ⟨.inUse, value, none⟩ ∧
        ∀ a, heap'.next a = if last = some a then some item else heap.next a := by
  rcases h.roomyBlock hfresh alloc with ⟨hroomy, halloc⟩ |
    ⟨heap₁, tail₁, chain₁, next, index, hroomy, h₁, hfresh₁, hshape₁, hindex, hwhere, hdestroyed,
      hunused, hblocks, hitems, hcontent, hnext⟩
  · exact .inl ⟨by rw [PreallocHeap.placeItem, hroomy]; rfl, halloc⟩
  · obtain ⟨heap₂, hfill, h₂, helse, hshape₂, hitems₂, hcontent₂, hnext₂⟩ :=
      h₁.fillItem hshape₁ hindex value
    refine .inr ⟨heap₂, tail₁, _, chain₁, by rw [PreallocHeap.placeItem, hroomy]; simp [hfill], h₂,
      fun b hb => ?_, by rw [helse.destroyed, hdestroyed], by rw [helse.unused]; exact hunused,
      hwhere.imp And.left And.left, fun b hb => ?_, fun a ha => by rw [hitems₂ a ha, hitems a ha],
      ⟨next, by rw [hshape₂, Function.update_self]⟩, rfl, fun hempty => ?_,
      ?_, by rw [hcontent₂, hcontent], fun a => by rw [hnext₂, hnext]⟩
    · rw [helse.unused] at hb
      have hlt := h₁.lt_unused hfresh₁ h₁.tail_mem
      rw [hshape₂, Function.update_of_ne (by omega)]
      exact hfresh₁ b hb
    · have hne : b ≠ tail₁ := fun heq => hb (heq ▸ h₁.tail_mem)
      rw [hshape₂, Function.update_of_ne hne, hblocks b hb]
    · rcases hwhere with ⟨-, rfl, rfl⟩ | ⟨-, hfull⟩
      · rw [hempty] at hshape₁
        cases hshape₁
        rfl
      · exact absurd hempty hfull
    · rw [← hcontent]
      exact PreallocHeap.content_eq (h₁.pristine next index hshape₁ _ (Nat.le_refl _))

/-- An item is not in use any more, and its neighbours are linked to each other. -/
theorem Built.erase {before behind : List (ItemAddress × Option ν)} {a : ItemAddress}
    {value : Option ν} (h : Built heap head tail first last chain (before ++ (a, value) :: behind))
    (hshape : heap'.shape = heap.shape)
    (hself : ∀ cell, heap'.item a = some cell → cell.status ≠ .inUse)
    (hother : ∀ c cell, c ≠ a → heap.item c = some cell → ∃ cell', heap'.item c = some cell' ∧
      cell'.status = cell.status ∧ cell'.value = cell.value ∧
      cell'.nextInUse = (if heap.prev a = some c then heap.next a else cell.nextInUse) ∧
      cell'.prevInUse = (if heap.next a = some c then heap.prev a else cell.prevInUse))
    (hkept : ∀ c, c ∉ (before ++ (a, value) :: behind).map Prod.fst → heap'.item c = heap.item c) :
    Built heap' head tail (if first = some a then heap.next a else first)
      (if last = some a then heap.prev a else last) chain (before ++ behind) := by
  have hlinked := h.linked
  rw [List.map_append, List.map_cons] at hlinked
  have hnodup := hlinked.forward.nodup
  have hne : ∀ c ∈ before.map Prod.fst ++ behind.map Prod.fst, c ≠ a := by
    intro c hc heq
    obtain ⟨-, hnodup', hdisjoint⟩ := List.nodup_append.1 hnodup
    rcases List.mem_append.1 hc with hc | hc
    · exact hdisjoint c hc a List.mem_cons_self heq
    · exact (List.nodup_cons.1 hnodup').1 (heq ▸ hc)
  have hmem : ∀ c ∈ before.map Prod.fst ++ behind.map Prod.fst,
      c ∈ (before ++ (a, value) :: behind).map Prod.fst := by
    intro c hc
    rw [List.map_append, List.map_cons]
    exact (List.mem_append.1 hc).elim (List.mem_append_left _)
      fun hc => List.mem_append_right _ (List.mem_cons_of_mem _ hc)
  constructor
  · exact h.blocks.congr fun b _ => by rw [PreallocHeap.nextBlock, PreallocHeap.nextBlock, hshape]
  · exact h.ends
  · intro b hb
    rw [hshape]
    exact h.allocated b hb
  · rw [List.map_append]
    refine hlinked.erase (fun c hc => ?_) (fun c hc => ?_) rfl rfl
    · obtain ⟨cell, hcell⟩ := h.exists_item (hmem c hc)
      obtain ⟨cell', hcell', -, -, hnext, -⟩ := hother c cell (hne c hc) hcell
      rw [PreallocHeap.next, hcell', Option.bind_some, hnext]
      congr 1
      rw [PreallocHeap.next, hcell, Option.bind_some]
    · obtain ⟨cell, hcell⟩ := h.exists_item (hmem c hc)
      obtain ⟨cell', hcell', -, -, -, hprev⟩ := hother c cell (hne c hc) hcell
      rw [PreallocHeap.prev, hcell', Option.bind_some, hprev]
      congr 1
      rw [PreallocHeap.prev, hcell, Option.bind_some]
  · intro e he
    have hc : e.1 ∈ before.map Prod.fst ++ behind.map Prod.fst := by
      rw [← List.map_append]
      exact List.mem_map_of_mem he
    have he' : e ∈ before ++ (a, value) :: behind :=
      (List.mem_append.1 he).elim (List.mem_append_left _)
        fun he => List.mem_append_right _ (List.mem_cons_of_mem _ he)
    obtain ⟨hblock, cell, hcell, hstatus, hvalue⟩ := h.live e he'
    obtain ⟨cell', hcell', hstatus', hvalue', -⟩ := hother e.1 cell (hne _ hc) hcell
    exact ⟨hblock, cell', hcell', hstatus'.trans hstatus, hvalue'.trans hvalue⟩
  · intro c cell' hc hcell' hstatus'
    have hca : c ≠ a := fun heq => hself cell' (heq ▸ hcell') hstatus'
    obtain ⟨cell, hcell⟩ := PreallocHeap.item_of_shape (h.allocated c.1 hc)
    obtain ⟨cell'', hcell'', hstatus'', -⟩ := hother c cell hca hcell
    rw [hcell'] at hcell''
    obtain rfl := Option.some.inj hcell''
    have hin := h.inUse c cell hc hcell (hstatus''.symm.trans hstatus')
    rw [List.map_append, List.map_cons, List.mem_append, List.mem_cons] at hin
    rw [List.map_append, List.mem_append]
    exact hin.imp_right fun hin => hin.resolve_left hca
  · intro next index hblock i hi
    rw [hshape] at hblock
    have hpristine := h.pristine next index hblock i hi
    rw [hkept, hpristine]
    intro hin
    obtain ⟨e, he, heq⟩ := List.mem_map.1 hin
    obtain ⟨-, cell, hcell, hstatus, -⟩ := h.live e he
    rw [heq, hpristine] at hcell
    cases hcell
    cases hstatus

end

end

end XprcServer
