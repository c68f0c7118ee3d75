import Mathlib.Data.List.ProdSigma
import XprcServer.Lib.Refinement
import XprcServer.Lists.Sequence

/-!
# Compacting preallocated lists

`prealloc_list_compact`: the values in use are copied to new blocks, which replace the old ones; if
there is no memory for one of the new blocks, all of them are freed again.

* `Copying.step` : one value is copied;
* `StandsFor.compact` : compacting keeps the sequence of values, or leaves everything as it was;
* `preallocList_refines_sequence` : any sequence of calls on a new list.
-/

namespace XprcServer

open Lib

variable {ν δ : Type}

namespace PreallocHeap

/-- `free` of a block after some calls of destructors -/
def freeBlock (heap : PreallocHeap ν δ) (b : ℕ) (calls : List (δ × Option ν)) : PreallocHeap ν δ :=
  { heap with
    blocks := Function.update heap.blocks b none
    destroyed := heap.destroyed ++ calls }

/-- Walks along blocks and frees them.  What is left in a block may have to be destroyed. -/
def freeBlocks (left : PreallocBlock ν δ → List (δ × Option ν)) :
    ℕ → PreallocHeap ν δ → Option ℕ → Access (PreallocHeap ν δ)
  | _, heap, none => some heap
  | 0, _, some _ => none
  | fuel + 1, heap, some b => do
    let block ← heap.blocks b
    freeBlocks left fuel (heap.freeBlock b (left block)) block.nextBlock

/-- The destructor calls for the deleted items of an old block whose values are still there. -/
def destroyDeleted (valueDestructor : Option δ) (overrideDeferred : Bool)
    (block : PreallocBlock ν δ) :
    List (δ × Option ν) :=
  (List.finRange preallocListBlockSize).flatMap fun i =>
    let item := block.items i
    if item.value.isNone ∨ item.status ≠ .deleted then []
    else match item.valueDestructor, overrideDeferred with
      | some destructor, false => [(destructor, item.value)]
      | _, _ => valueDestructor.toList.map fun destructor => (destructor, item.value)

/-- The loop of `prealloc_list_compact` over the items in use; `alloc` tells whether a block can be
allocated at an address.  Returns whether all values have been copied, and the last new block. -/
def copyItems (alloc : ℕ → Bool) : ℕ → PreallocHeap ν δ → ℕ → Option ItemAddress →
    Option ItemAddress → Access (Bool × PreallocHeap ν δ × ℕ)
  | _, heap, newBlock, _, none => some (true, heap, newBlock)
  | 0, _, _, _, some _ => none
  | fuel + 1, heap, newBlock, prevNewItem, some oldItem => do
    let old ← heap.item oldItem
    match ← heap.placeItem (alloc heap.unused) newBlock prevNewItem old.value with
    | none => return (false, heap, newBlock)
    | some (heap, newBlock, newItem) => do
      let old ← heap.item oldItem
      copyItems alloc fuel heap newBlock (some newItem) old.nextInUse

/-- `&(block->items[index - 1])` -/
def itemBefore (b index : ℕ) : Access ItemAddress :=
  if h : index - 1 < preallocListBlockSize then
    if 0 < index then some (b, ⟨index - 1, h⟩) else none
  else none

end PreallocHeap

/-- The new blocks are set active: all items are consecutive and in use, so that the first and the
last one are known. -/
def PreallocList.activate (list : PreallocList) (heap : PreallocHeap ν δ)
    (newHeadBlock newBlock : ℕ) :
    Access PreallocList :=
  let list := { list with headBlock := newHeadBlock, tailBlock := newBlock }
  if (0 : ℤ) < list.size then do
    let block ← heap.blocks newBlock
    let lastInUseItem ← PreallocHeap.itemBefore newBlock block.firstPristineItemIndex
    return { list with
      firstInUseItem := some (newHeadBlock, ⟨0, by decide⟩)
      lastInUseItem := some lastInUseItem }
  else some list

/-- `prealloc_list_compact`.  There are no more items than the blocks allocated so far have
places. -/
def PreallocList.compact (list : PreallocList) (heap : PreallocHeap ν δ) (alloc : ℕ → Bool)
    (valueDestructor : Option δ) (overrideDeferred : Bool) :
    Access (Bool × PreallocList × PreallocHeap ν δ) :=
  if !list.dirty then some (true, list, heap)
  else if !alloc heap.unused then some (false, list, heap)
  else do
    let newHeadBlock := heap.unused
    let (copied, heap, newBlock) ← heap.createBlock.copyItems alloc
      (heap.unused * preallocListBlockSize) newHeadBlock none list.firstInUseItem
    if !copied then do
      -- the old structures are kept
      let heap ← heap.freeBlocks (fun _ => []) heap.unused (some newHeadBlock)
      return (false, list, heap)
    else do
      let oldBlock := list.headBlock
      let list ← list.activate heap newHeadBlock newBlock
      let heap ← heap.freeBlocks (PreallocHeap.destroyDeleted valueDestructor overrideDeferred)
        heap.unused (some oldBlock)
      return (true, { list with dirty := false }, heap)

/-! ### Freeing -/

namespace PreallocHeap

variable {heap heap' : PreallocHeap ν δ}

theorem blocks_isSome {b : ℕ} : (heap.blocks b).isSome = (heap.shape b).isSome := by
  rw [shape, Option.isSome_map]

/-- Heaps with the same shape and the same items have the same blocks. -/
theorem blocks_ext {b : ℕ} (hshape : heap'.shape b = heap.shape b)
    (hitem : ∀ i, heap'.item (b, i) = heap.item (b, i)) : heap'.blocks b = heap.blocks b := by
  cases hblock : heap.blocks b with
  | none =>
    rw [shape, shape, hblock, Option.map_none, Option.map_eq_none_iff] at hshape
    exact hshape
  | some block =>
    rw [shape, shape, hblock, Option.map_some, Option.map_eq_some_iff] at hshape
    obtain ⟨block', hblock', heq⟩ := hshape
    have hitems : block'.items = block.items := by
      funext i
      have := hitem i
      simpa [item, hblock, hblock'] using this
    obtain ⟨next, index, items⟩ := block
    obtain ⟨next', index', items'⟩ := block'
    obtain ⟨rfl, rfl⟩ := Prod.mk.inj heq
    obtain rfl : items' = items := hitems
    exact hblock'

theorem freeBlock_blocks_of_ne {b c : ℕ} (calls : List (δ × Option ν)) (heap : PreallocHeap ν δ)
    (hc : c ≠ b) : (heap.freeBlock b calls).blocks c = heap.blocks c := Function.update_of_ne hc _ _

/-- All blocks of a chain are freed, and no other one. -/
theorem freeBlocks_spec (left : PreallocBlock ν δ → List (δ × Option ν)) {p : Option ℕ}
    {chain : List ℕ} (h : Linked heap.nextBlock p chain)
    (hallocated : ∀ b ∈ chain, (heap.shape b).isSome) {fuel : ℕ} (hfuel : chain.length ≤ fuel) :
    ∃ heap', heap.freeBlocks left fuel p = some heap' ∧ heap'.unused = heap.unused ∧
      (∀ b ∈ chain, heap'.blocks b = none) ∧ (∀ b, b ∉ chain → heap'.blocks b = heap.blocks b) ∧
      heap'.destroyed = heap.destroyed ++ chain.flatMap fun b => (heap.blocks b).elim [] left := by
  induction chain generalizing heap p fuel with
  | nil =>
    obtain rfl : p = none := h
    exact ⟨heap, by cases fuel <;> rfl, rfl, (fun _ hb => nomatch hb), fun _ _ => rfl,
      (List.append_nil _).symm⟩
  | cons b chain ih =>
    have hnodup := h.nodup
    obtain ⟨rfl, hrest⟩ := h
    obtain ⟨fuel, rfl, hle⟩ := exists_fuel hfuel
    have hb : b ∉ chain := (List.nodup_cons.1 hnodup).1
    obtain ⟨block, hblock⟩ := Option.isSome_iff_exists.1
      (blocks_isSome.trans (hallocated b List.mem_cons_self))
    have hnext : heap.nextBlock b = block.nextBlock := by rw [nextBlock, shape, hblock]; rfl
    have hkept : ∀ c ∈ chain, (heap.freeBlock b (left block)).shape c = heap.shape c :=
      fun c hc => by
      have hcb : c ≠ b := fun heq => hb (heq ▸ hc)
      rw [shape, freeBlock_blocks_of_ne _ _ hcb, shape]
    rw [hnext] at hrest
    have hrest' : Linked (heap.freeBlock b (left block)).nextBlock block.nextBlock chain :=
      hrest.congr fun c hc => by rw [nextBlock, nextBlock, hkept c hc]
    obtain ⟨heap', hfree, hunused, hfreed, hother, hdestroyed⟩ := ih hrest'
      (fun c hc => by rw [hkept c hc]; exact hallocated c (List.mem_cons_of_mem b hc))
      hle
    refine ⟨heap', ?_, hunused, fun c hc => ?_, fun c hc => ?_, ?_⟩
    · rw [freeBlocks, hblock]
      exact hfree
    · by_cases hcb : c ∈ chain
      · exact hfreed c hcb
      · obtain rfl : c = b := (List.mem_cons.1 hc).resolve_right hcb
        rw [hother c hcb]
        exact Function.update_self _ _ _
    · rw [List.mem_cons, not_or] at hc
      rw [hother c hc.2]
      exact Function.update_of_ne hc.1 _ _
    · have hrestLeft :
          (chain.flatMap fun c => ((heap.freeBlock b (left block)).blocks c).elim [] left) =
          chain.flatMap fun c => (heap.blocks c).elim [] left := by
        refine List.flatMap_congr fun c hc => ?_
        have hcb : c ≠ b := fun heq => hb (heq ▸ hc)
        rw [freeBlock_blocks_of_ne _ _ hcb]
      rw [hdestroyed, hrestLeft, List.flatMap_cons, hblock, ← List.append_assoc]
      rfl

/-- The blocks in memory were freed one after the other, and destructors called for what was left in
them. -/
def Released (heap heap' : PreallocHeap ν δ) (left : PreallocBlock ν δ → List (δ × Option ν)) :
    Prop :=
  ∃ chain : List ℕ, chain.Nodup ∧ (∀ b, (heap.shape b).isSome ↔ b ∈ chain) ∧
    heap'.destroyed = heap.destroyed ++ chain.flatMap fun b => (heap.blocks b).elim [] left

end PreallocHeap

/-! ### Copying -/

/-- While items are copied: new blocks, all of them behind those of the heap before (`heap₀`), hold
the values copied so far from their first place on, and the old blocks are as they were. -/
structure Copying (heap₀ heap : PreallocHeap ν δ) (newBlock : ℕ) (prevNewItem : Option ItemAddress)
    (newChain : List ℕ) (copied : List (ItemAddress × Option ν)) : Prop where
  built : Built heap heap₀.unused newBlock (copied.head?.map Prod.fst) prevNewItem newChain copied
  fresh : heap.Fresh
  unused : heap₀.unused ≤ heap.unused
  behind : ∀ b ∈ newChain, heap₀.unused ≤ b
  all : ∀ b, heap₀.unused ≤ b → (heap.shape b).isSome → b ∈ newChain
  old_shape : ∀ b, b < heap₀.unused → heap.shape b = heap₀.shape b
  old_item : ∀ a : ItemAddress, a.1 < heap₀.unused → heap.item a = heap₀.item a
  filled : copied = [] ∧ newBlock = heap₀.unused ∧ heap.shape newBlock = some (none, 0) ∨
    ∃ i next, prevNewItem = some (newBlock, i) ∧ heap.shape newBlock = some (next, (i : ℕ) + 1) ∧
      copied.head?.map Prod.fst = some (heap₀.unused, ⟨0, by decide⟩)

section

variable {heap₀ heap : PreallocHeap ν δ} {newBlock : ℕ} {prevNewItem : Option ItemAddress}
  {newChain : List ℕ} {copied : List (ItemAddress × Option ν)}

/-- The first of the new blocks -/
theorem copying_createBlock (hfresh : heap₀.Fresh) :
    Copying heap₀ heap₀.createBlock heap₀.unused none [heap₀.unused] [] := by
  have hshape := PreallocHeap.createBlock_shape heap₀
  have hself : heap₀.createBlock.shape heap₀.unused = some (none, 0) := by
    rw [hshape, Function.update_self]
  have hzero : ∀ a : ItemAddress, a.1 = heap₀.unused → heap₀.createBlock.item a = some .zero :=
    fun a ha => (PreallocHeap.createBlock_item heap₀ a).trans (if_pos ha)
  refine ⟨⟨⟨rfl, ?_⟩, rfl, ?_, doublyLinked_nil, ?_, ?_, ?_⟩, ?_, Nat.le_succ _, ?_, ?_, ?_, ?_,
    .inl ⟨rfl, rfl, hself⟩⟩
  · rw [linked_nil, PreallocHeap.nextBlock, hself]
    rfl
  · intro b hb
    rw [List.mem_singleton.1 hb, hself]
    rfl
  · intro e he
    cases he
  · intro a cell ha hcell hstatus
    rw [hzero a (List.mem_singleton.1 ha)] at hcell
    cases hcell
    cases hstatus
  · exact fun _ _ _ i _ => hzero _ rfl
  · intro b hb
    have hle : heap₀.unused + 1 ≤ b := hb
    rw [hshape, Function.update_of_ne (by omega)]
    exact hfresh b (by omega)
  · intro b hb
    exact Nat.le_of_eq (List.mem_singleton.1 hb).symm
  · intro b hb hsome
    by_cases heq : b = heap₀.unused
    · exact List.mem_singleton.2 heq
    · rw [hshape, Function.update_of_ne heq, hfresh b hb] at hsome
      cases hsome
  · intro b hb
    rw [hshape, Function.update_of_ne (by omega)]
  · intro a ha
    rw [PreallocHeap.createBlock_item, if_neg (by omega)]

theorem Copying.step (h : Copying heap₀ heap newBlock prevNewItem newChain copied) (alloc : Bool)
    (value : Option ν) :
    heap.placeItem alloc newBlock prevNewItem value = some none ∧ alloc = false ∨
      ∃ heap' newBlock' newItem newChain',
        heap.placeItem alloc newBlock prevNewItem value = some (some (heap', newBlock', newItem)) ∧
        Copying heap₀ heap' newBlock' (some newItem) newChain' (copied ++ [(newItem, value)]) ∧
        heap'.destroyed = heap.destroyed ∧
        heap'.content = Function.update heap.content newItem ⟨.inUse, value, none⟩ := by
  rcases h.built.placeItem h.fresh alloc value with hfail |
    ⟨heap', newBlock', newItem, newChain', hplace, hbuilt, hfresh, hdestroyed,
      hunused, hchain, hblocks, hitems, ⟨next, hfilled⟩, rfl, hfirst, -, hcontent, -⟩
  · exact .inl hfail
  · have hhead : (if copied.head?.map Prod.fst = none then some newItem
        else copied.head?.map Prod.fst) = ((copied ++ [(newItem, value)]).head?.map Prod.fst) := by
      cases copied with
      | nil => rfl
      | cons e copied => rfl
    have hbehind : ∀ b ∈ newChain', heap₀.unused ≤ b := by
      intro b hb
      have hle := h.unused
      rcases hchain with rfl | rfl
      · exact h.behind b hb
      · rcases List.mem_append.1 hb with hb | hb
        · exact h.behind b hb
        · rw [List.mem_singleton.1 hb]
          exact hle
    have hold : ∀ b, b < heap₀.unused → b ∉ newChain' := fun b hb hmem =>
      absurd (hbehind b hmem) (by omega)
    refine .inr ⟨heap', newItem.1, newItem, newChain', hplace, ⟨hhead ▸ hbuilt, hfresh,
      h.unused.trans hunused, hbehind, fun b hb hsome => ?_, fun b hb => ?_, fun a ha => ?_,
      .inr ⟨newItem.2, next, rfl, hfilled, ?_⟩⟩, hdestroyed, hcontent⟩
    · by_contra hb'
      rw [hblocks b hb'] at hsome
      rcases hchain with rfl | rfl
      · exact hb' (h.all b hb hsome)
      · exact hb' (List.mem_append_left _ (h.all b hb hsome))
    · rw [hblocks b (hold b hb), h.old_shape b hb]
    · rw [hitems a (hold a.1 ha), h.old_item a ha]
    · rcases h.filled with ⟨rfl, rfl, hempty⟩ | ⟨i, next', -, -, hfirst'⟩
      · rw [List.nil_append, List.head?_cons, Option.map_some, hfirst hempty]
      · cases copied with
        | nil => cases hfirst'
        | cons e copied => exact hfirst'

/-- **All values of the items in use are copied in their order, unless there is no memory for a
block.** -/
theorem Copying.copyItems (alloc : ℕ → Bool) {oldItem : Option ItemAddress}
    (rest : List (ItemAddress × Option ν)) (hrest : Linked heap₀.next oldItem (rest.map Prod.fst))
    (hlive : ∀ e ∈ rest, e.1.1 < heap₀.unused ∧ ∃ cell, heap₀.item e.1 = some cell ∧
      cell.value = e.2)
    (h : Copying heap₀ heap newBlock prevNewItem newChain copied) {fuel : ℕ}
    (hfuel : rest.length ≤ fuel) :
    ∃ ok heap' newBlock' prevNewItem' newChain' copied',
      heap.copyItems alloc fuel newBlock prevNewItem oldItem = some (ok, heap', newBlock') ∧
      Copying heap₀ heap' newBlock' prevNewItem' newChain' copied' ∧
      (ok = true → copied'.map Prod.snd = copied.map Prod.snd ++ rest.map Prod.snd) ∧
      (ok = false → ∃ b, alloc b = false) ∧ heap'.destroyed = heap.destroyed ∧
      ∀ a, heap'.content a = heap.content a ∨ ∃ value, heap'.content a = ⟨.inUse, value, none⟩ := by
  induction rest generalizing heap newBlock prevNewItem newChain copied oldItem fuel with
  | nil =>
    obtain rfl : oldItem = none := hrest
    refine ⟨true, heap, newBlock, prevNewItem, newChain, copied, ?_, h, by simp, nofun, rfl,
      fun _ => .inl rfl⟩
    cases fuel <;> rfl
  | cons e rest ih =>
    obtain ⟨rfl, hnext⟩ := hrest
    obtain ⟨fuel, rfl, hle⟩ := exists_fuel hfuel
    rw [List.forall_mem_cons] at hlive
    obtain ⟨⟨hlt, cell, hcell, hvalue⟩, hlive⟩ := hlive
    have hread : heap.item e.1 = some cell := (h.old_item e.1 hlt).trans hcell
    rcases h.step (alloc heap.unused) e.2 with ⟨hplace, halloc⟩ |
      ⟨heap₁, newBlock₁, newItem, newChain₁, hplace, h₁, hdestroyed₁, hcontent₁⟩
    · refine ⟨false, heap, newBlock, prevNewItem, newChain, copied, ?_, h, nofun,
        fun _ => ⟨_, halloc⟩, rfl, fun _ => .inl rfl⟩
      simp only [PreallocHeap.copyItems, hread, Option.bind_eq_bind, Option.bind_some,
        hvalue, hplace]
      rfl
    · have hread₁ : heap₁.item e.1 = some cell := (h₁.old_item e.1 hlt).trans hcell
      rw [PreallocHeap.next, hcell, Option.bind_some] at hnext
      obtain ⟨ok, heap', newBlock', prevNewItem', newChain', copied', hloop, h', hvalues, hfail,
        hdestroyed, hcontent⟩ := ih hnext hlive h₁ hle
      refine ⟨ok, heap', newBlock', prevNewItem', newChain', copied', ?_, h', fun hok => ?_, hfail,
        hdestroyed.trans hdestroyed₁, fun a => (hcontent a).elim (fun hsame => ?_) .inr⟩
      · simp only [PreallocHeap.copyItems, hread, Option.bind_eq_bind, Option.bind_some,
          hvalue, hplace, hread₁, hloop]
      · rw [hvalues hok]
        simp
      · by_cases ha : a = newItem
        · exact .inr ⟨e.2, by rw [hsame, hcontent₁, ha, Function.update_self]⟩
        · exact .inl (by rw [hsame, hcontent₁, Function.update_of_ne ha])

end

/-! ### Compacting -/

namespace PreallocHeap

variable {heap heap' : PreallocHeap ν δ}

theorem shape_eq_none {b : ℕ} : heap.shape b = none ↔ heap.blocks b = none := Option.map_eq_none_iff

theorem shape_congr {b : ℕ} (h : heap'.blocks b = heap.blocks b) :
    heap'.shape b = heap.shape b := by
  rw [shape, shape, h]

theorem item_congr {a : ItemAddress} (h : heap'.blocks a.1 = heap.blocks a.1) :
    heap'.item a = heap.item a := by
  rw [item, item, h]

end PreallocHeap

namespace PreallocList

variable {list : PreallocList} {heap : PreallocHeap ν δ} {seq : List (ItemAddress × Option ν)}

/-- A list of which all blocks are as they were stands for the same sequence. -/
theorem StandsFor.congr_blocks (h : list.StandsFor heap seq) {heap' : PreallocHeap ν δ}
    (hblocks : heap'.blocks = heap.blocks) (hunused : heap.unused ≤ heap'.unused) :
    list.StandsFor heap' seq := by
  obtain ⟨⟨chain, hbuilt, hall⟩, hfresh, hsize⟩ := h
  have hshape : ∀ b, heap'.shape b = heap.shape b := fun b =>
    PreallocHeap.shape_congr (congrFun hblocks b)
  refine ⟨⟨chain, hbuilt.congr (fun b _ => hshape b)
    (fun a _ => PreallocHeap.item_congr (congrFun hblocks a.1)), fun b hb => hall b ?_⟩,
    fun b hb => ?_, hsize⟩
  · rwa [← hshape]
  · rw [hshape]
    exact hfresh b (hunused.trans hb)

/-- There are no more items than the blocks have places. -/
theorem length_le_unused {head tail : ℕ} {first last : Option ItemAddress} {chain : List ℕ}
    (hbuilt : Built heap head tail first last chain seq) (hfresh : heap.Fresh) :
    seq.length ≤ heap.unused * preallocListBlockSize := by
  have hsub : seq.map Prod.fst ⊆
      List.range heap.unused ×ˢ List.finRange preallocListBlockSize := by
    intro a ha
    exact List.mem_product.2 ⟨List.mem_range.2 (hbuilt.lt_unused hfresh (hbuilt.mem_chain ha)),
      List.mem_finRange _⟩
  have hle := (hbuilt.linked.forward.nodup.subperm hsub).length_le
  rwa [List.length_map, List.length_product, List.length_range, List.length_finRange] at hle

/-- Freeing the new blocks again leaves the old ones. -/
theorem Copying.discard {heap' : PreallocHeap ν δ} {newBlock : ℕ}
    {prevNewItem : Option ItemAddress} {newChain : List ℕ} {copied : List (ItemAddress × Option ν)}
    (hfresh : heap.Fresh) (h : Copying heap heap' newBlock prevNewItem newChain copied) :
    ∃ heap'', heap'.freeBlocks (fun _ => []) heap'.unused (some heap.unused) = some heap'' ∧
      heap''.blocks = heap.blocks ∧ heap.unused ≤ heap''.unused ∧
      heap''.destroyed = heap'.destroyed := by
  obtain ⟨heap'', hfree, hunused, hfreed, hother, hdestroyed⟩ := PreallocHeap.freeBlocks_spec
    (fun _ => []) h.built.blocks h.built.allocated
    (h.built.blocks.length_le fun b hb => h.built.lt_unused h.fresh hb)
  have hnothing : (newChain.flatMap fun b => (heap'.blocks b).elim [] fun _ =>
      ([] : List (δ × Option ν))) =
      [] := by
    rw [List.flatMap_eq_nil_iff]
    intro b _
    cases heap'.blocks b <;> rfl
  refine ⟨heap'', hfree, ?_, h.unused.trans (Nat.le_of_eq hunused.symm),
    by rw [hdestroyed, hnothing, List.append_nil]⟩
  funext b
  by_cases hb : b ∈ newChain
  · rw [hfreed b hb, PreallocHeap.shape_eq_none.1 (hfresh b (h.behind b hb))]
  · rw [hother b hb]
    rcases Nat.lt_or_ge b heap.unused with hlt | hge
    · exact PreallocHeap.blocks_ext (h.old_shape b hlt) fun i => h.old_item (b, i) hlt
    · have hnone : heap'.shape b = none :=
        Option.not_isSome_iff_eq_none.1 fun hsome => hb (h.all b hge hsome)
      rw [PreallocHeap.shape_eq_none.1 hnone, PreallocHeap.shape_eq_none.1 (hfresh b hge)]

/-- With all values copied the new blocks replace the old ones. -/
theorem StandsFor.replace (h : list.StandsFor heap seq) {heap' : PreallocHeap ν δ} {newBlock : ℕ}
    {prevNewItem : Option ItemAddress} {newChain : List ℕ} {copied : List (ItemAddress × Option ν)}
    (hcopying : Copying heap heap' newBlock prevNewItem newChain copied)
    (hvalues : copied.map Prod.snd = seq.map Prod.snd)
    (left : PreallocBlock ν δ → List (δ × Option ν)) :
    ∃ heap'', heap'.freeBlocks left heap'.unused (some list.headBlock) = some heap'' ∧
      (∀ dirty, StandsFor ⟨list.size, dirty, copied.head?.map Prod.fst, prevNewItem, heap.unused,
        newBlock⟩ heap'' copied) ∧
      (heap'.destroyed = heap.destroyed → heap.Released heap'' left) ∧
      ∀ a, heap''.content a = if a.1 < heap.unused then .zero else heap'.content a := by
  obtain ⟨⟨chain, hbuilt, hall⟩, hfresh, hsize⟩ := h
  have hlt : ∀ b ∈ chain, b < heap.unused := fun b hb => hbuilt.lt_unused hfresh hb
  have hold : Linked heap'.nextBlock (some list.headBlock) chain :=
    hbuilt.blocks.congr fun b hb => by
    rw [PreallocHeap.nextBlock, PreallocHeap.nextBlock, hcopying.old_shape b (hlt b hb)]
  have hallocated : ∀ b ∈ chain, (heap'.shape b).isSome := fun b hb => by
    rw [hcopying.old_shape b (hlt b hb)]
    exact hbuilt.allocated b hb
  obtain ⟨heap'', hfree, hunused, hfreed, hother, hdestroyed⟩ :=
    PreallocHeap.freeBlocks_spec left hold
    hallocated (hold.length_le fun b hb => (hlt b hb).trans_le hcopying.unused)
  have hdisjoint : ∀ b ∈ newChain, b ∉ chain := fun b hb hmem =>
    absurd (hcopying.behind b hb) (Nat.not_le.2 (hlt b hmem))
  have hlength := congrArg List.length hvalues
  rw [List.length_map, List.length_map] at hlength
  refine ⟨heap'', hfree, fun dirty => ⟨⟨newChain, hcopying.built.congr (fun b hb => ?_)
    (fun a ha => ?_), fun b hb => ?_⟩, fun b hb => ?_, ?_⟩, fun hsame =>
    ⟨chain, hbuilt.blocks.nodup, fun b => ⟨hall b, hbuilt.allocated b⟩, ?_⟩, fun a => ?_⟩
  · exact PreallocHeap.shape_congr (hother b (hdisjoint b hb))
  · exact PreallocHeap.item_congr (hother a.1 (hdisjoint a.1 ha))
  · by_cases hmem : b ∈ chain
    · rw [PreallocHeap.shape, hfreed b hmem] at hb
      cases hb
    · rw [PreallocHeap.shape_congr (hother b hmem)] at hb
      rcases Nat.lt_or_ge b heap.unused with hlt' | hge
      · rw [hcopying.old_shape b hlt'] at hb
        exact absurd (hall b hb) hmem
      · exact hcopying.all b hge hb
  · rw [hunused] at hb
    by_cases hmem : b ∈ chain
    · rw [PreallocHeap.shape, hfreed b hmem]
      rfl
    · rw [PreallocHeap.shape_congr (hother b hmem)]
      exact hcopying.fresh b hb
  · rw [hlength]
    exact hsize
  · rw [hdestroyed, hsame]
    congr 1
    refine List.flatMap_congr fun b hb => ?_
    rw [PreallocHeap.blocks_ext (hcopying.old_shape b (hlt b hb))
      fun i => hcopying.old_item (b, i) (hlt b hb)]
  · by_cases hmem : a.1 ∈ chain
    · rw [if_pos (hlt a.1 hmem), PreallocHeap.content,
        PreallocHeap.item_eq_none (PreallocHeap.shape_eq_none.2 (hfreed a.1 hmem))]
      rfl
    · rw [PreallocHeap.content, PreallocHeap.item_congr (hother a.1 hmem)]
      split_ifs with hold'
      · have hnone : heap.shape a.1 = none := Option.not_isSome_iff_eq_none.1 fun hb =>
            hmem (hall a.1 hb)
        rw [hcopying.old_item a hold', PreallocHeap.item_eq_none hnone]
        rfl
      · rfl

/-- The first and the last of the copied items are where the new blocks begin and end. -/
theorem StandsFor.activate (h : list.StandsFor heap seq) {heap' : PreallocHeap ν δ} {newBlock : ℕ}
    {prevNewItem : Option ItemAddress} {newChain : List ℕ} {copied : List (ItemAddress × Option ν)}
    (hcopying : Copying heap heap' newBlock prevNewItem newChain copied)
    (hvalues : copied.map Prod.snd = seq.map Prod.snd) :
    list.activate heap' heap.unused newBlock = some ⟨list.size, list.dirty,
      copied.head?.map Prod.fst, prevNewItem, heap.unused, newBlock⟩ := by
  obtain ⟨⟨chain, hbuilt, -⟩, -, hsize⟩ := h
  have hlength := congrArg List.length hvalues
  rw [List.length_map, List.length_map] at hlength
  rcases hcopying.filled with ⟨rfl, -, -⟩ | ⟨i, next, rfl, hshape, hfirst⟩
  · obtain rfl : seq = [] := List.length_eq_zero_iff.1 hlength.symm
    have hlast : prevNewItem = none := hcopying.built.linked.last_eq
    have hfirst : list.firstInUseItem = none := hbuilt.linked.first_eq
    have hlast' : list.lastInUseItem = none := hbuilt.linked.last_eq
    have hzero : ¬ (0 : ℤ) < list.size := by
      rw [hsize, List.length_nil]
      decide
    simp only [PreallocList.activate, if_neg hzero, hfirst, hlast', hlast]
    rfl
  · have hpos : (0 : ℤ) < list.size := by
      cases copied with
      | nil => cases hfirst
      | cons e copied =>
        rw [hsize, ← hlength, List.length_cons]
        omega
    obtain ⟨items, hblock⟩ := PreallocHeap.blocks_of_shape hshape
    have hitem : PreallocHeap.itemBefore newBlock ((i : ℕ) + 1) = some (newBlock, i) := by
      simp [PreallocHeap.itemBefore]
    simp only [PreallocList.activate, if_pos hpos, hblock, Option.bind_eq_bind, Option.bind_some,
      hitem, hfirst]
    rfl

/-- **Compacting keeps the sequence of values, and nothing is left to compact; without memory for a
block everything is as it was.** -/
theorem StandsFor.compact (h : list.StandsFor heap seq) (alloc : ℕ → Bool)
    (valueDestructor : Option δ) (overrideDeferred : Bool) :
    ∃ ok list' heap', list.compact heap alloc valueDestructor overrideDeferred =
        some (ok, list', heap') ∧
      (ok = true → list'.dirty = false ∧
        ∃ seq', list'.StandsFor heap' seq' ∧ seq'.map Prod.snd = seq.map Prod.snd ∧
          (list' = list ∧ heap' = heap ∧ seq' = seq ∧ list.dirty = false ∨
            heap.Released heap' (PreallocHeap.destroyDeleted valueDestructor overrideDeferred) ∧
              ∀ a, heap'.content a = .zero ∨ ∃ value, heap'.content a = ⟨.inUse, value, none⟩)) ∧
      (ok = false → (∃ b, alloc b = false) ∧ list' = list ∧ heap'.blocks = heap.blocks ∧
        heap'.destroyed = heap.destroyed ∧ list.StandsFor heap' seq) := by
  by_cases hdirty : list.dirty = false
  · refine ⟨true, list, heap, by rw [PreallocList.compact, hdirty]; rfl,
      fun _ => ⟨hdirty, seq, h, rfl, .inl ⟨rfl, rfl, rfl, hdirty⟩⟩, nofun⟩
  rw [Bool.not_eq_false] at hdirty
  cases halloc : alloc heap.unused with
  | false =>
    exact ⟨false, list, heap, by simp [PreallocList.compact, hdirty, halloc], nofun,
      fun _ => ⟨⟨_, halloc⟩, rfl, rfl, rfl, h⟩⟩
  | true =>
    obtain ⟨⟨chain, hbuilt, -⟩, hfresh, hsize⟩ := id h
    have hlive : ∀ e ∈ seq, e.1.1 < heap.unused ∧
        ∃ cell, heap.item e.1 = some cell ∧ cell.value = e.2 := fun e he => by
      obtain ⟨hblock, cell, hcell, -, hvalue⟩ := hbuilt.live e he
      exact ⟨hbuilt.lt_unused hfresh hblock, cell, hcell, hvalue⟩
    obtain ⟨ok, heap₁, newBlock, prevNewItem, newChain, copied, hloop, hcopying, hvalues, hfail,
        hdestroyed₁, hcontent₁⟩ :=
      (copying_createBlock hfresh).copyItems alloc seq hbuilt.linked.forward hlive
        (length_le_unused hbuilt hfresh)
    cases ok with
    | false =>
      obtain ⟨heap', hfree, hblocks, hunused, hdestroyed⟩ := Copying.discard hfresh hcopying
      refine ⟨false, list, heap', ?_, nofun, fun _ => ⟨hfail rfl, rfl, hblocks,
        hdestroyed.trans hdestroyed₁, h.congr_blocks hblocks hunused⟩⟩
      simp only [PreallocList.compact, hdirty, halloc, hloop, Bool.not_true, Bool.false_eq_true,
        if_false, Option.bind_eq_bind, Option.bind_some, Bool.not_false, if_true, hfree]
      rfl
    | true =>
      obtain ⟨heap', hfree, hstands, hreleased, hcontent⟩ := h.replace hcopying (hvalues rfl)
        (PreallocHeap.destroyDeleted valueDestructor overrideDeferred)
      refine ⟨true, _, heap', ?_, fun _ => ⟨rfl, copied, hstands false, hvalues rfl,
        .inr ⟨hreleased hdestroyed₁, fun a => ?_⟩⟩, nofun⟩
      rotate_left
      · rw [hcontent]
        split_ifs with hold
        · exact .inl rfl
        · refine (hcontent₁ a).imp_left fun hsame => ?_
          have hnone : heap.shape a.1 = none := hfresh a.1 (Nat.le_of_not_lt hold)
          rw [hsame, (PreallocHeap.createBlock_holds (hfresh heap.unused (Nat.le_refl _))).1,
            PreallocHeap.content, PreallocHeap.item_eq_none hnone]
          rfl
      simp only [PreallocList.compact, hdirty, halloc, hloop, Bool.not_true, Bool.false_eq_true,
        if_false, Option.bind_eq_bind, Option.bind_some, h.activate hcopying (hvalues rfl), hfree]
      rfl

end PreallocList

/-! ### Sequences of calls -/

/-- A call of one of the functions on the list, with the outcomes of its allocations. -/
inductive PreallocOp (ν δ : Type) where
  | append (alloc : Bool) (value : Option ν)
  | getItem (index : ℤ)
  | deleteItem (item : Option ItemAddress) (valueDestructor : Option δ) (deferDestruction : Bool)
  | compact (alloc : ℕ → Bool) (valueDestructor : Option δ) (overrideDeferred : Bool)

/-- What a call returns. -/
inductive PreallocAnswer where
  | done (ok : Bool)
  | item (item : Option ItemAddress)
  deriving DecidableEq

namespace PreallocOp

/-- A call on a list and the memory it is in -/
def perform (s : PreallocList × PreallocHeap ν δ) :
    PreallocOp ν δ → Access (PreallocAnswer × PreallocList × PreallocHeap ν δ)
  | .append alloc value => do
    let (ok, s) ← s.1.append s.2 alloc value
    return (.done ok, s)
  | .getItem index => do
    let item ← s.1.getItem s.2 index
    return (.item item, s)
  | .deleteItem item valueDestructor deferDestruction => do
    let (ok, s) ← s.1.deleteItem s.2 item valueDestructor deferDestruction
    return (.done ok, s)
  | .compact alloc valueDestructor overrideDeferred => do
    let (ok, s) ← s.1.compact s.2 alloc valueDestructor overrideDeferred
    return (.done ok, s)

/-- An item to be deleted must still be in memory: its block has not been freed. -/
def Allowed (s : PreallocList × PreallocHeap ν δ) : PreallocOp ν δ → Prop
  | .deleteItem (some item) _ _ => (s.2.shape item.1).isSome = true
  | _ => True

def IsCompact : PreallocOp ν δ → Prop
  | .compact .. => True
  | _ => False

/-- What a sequence of items and their values answers to a call, and the sequence afterwards.  Where
a new item stands, or the items that have been compacted, is left open. -/
def Spec (seq : List (ItemAddress × Option ν)) :
    PreallocOp ν δ → PreallocAnswer → List (ItemAddress × Option ν) → Prop
  | .append alloc value, answer, seq' =>
    answer = .done true ∧ (∃ item, item ∉ seq.map Prod.fst ∧ seq' = seq ++ [(item, value)]) ∨
      answer = .done false ∧ alloc = false ∧ seq' = seq
  | .getItem index, answer, seq' =>
    answer = .item (if 0 ≤ index then (seq.map Prod.fst)[index.toNat]? else none) ∧ seq' = seq
  | .deleteItem none _ _, answer, seq' => answer = .done false ∧ seq' = seq
  | .deleteItem (some item) _ _, answer, seq' =>
    (∃ before value behind, seq = before ++ (item, value) :: behind ∧ answer = .done true ∧
      seq' = before ++ behind) ∨
      item ∉ seq.map Prod.fst ∧ answer = .done false ∧ seq' = seq
  | .compact alloc _ _, answer, seq' =>
    answer = .done true ∧ seq'.map Prod.snd = seq.map Prod.snd ∨
      answer = .done false ∧ (∃ b, alloc b = false) ∧ seq' = seq

/-- **One call is answered by the sequence.**  A call that fails has changed nothing, and after
compacting there is nothing left to compact. -/
theorem perform_stands {s : PreallocList × PreallocHeap ν δ} {seq : List (ItemAddress × Option ν)}
    (op : PreallocOp ν δ) (hallowed : op.Allowed s) (h : s.1.StandsFor s.2 seq) :
    ∃ answer s' seq', op.perform s = some (answer, s') ∧ op.Spec seq answer seq' ∧
      s'.1.StandsFor s'.2 seq' ∧
      (answer = .done false → s'.1 = s.1 ∧ s'.2.blocks = s.2.blocks) ∧
      (answer = .done true → op.IsCompact → s'.1.dirty = false) := by
  obtain ⟨list, heap⟩ := s
  cases op with
  | append alloc value =>
    rcases h.append alloc value with ⟨happend, halloc⟩ | ⟨item, list', heap', happend, hnew, h', -⟩
    · exact ⟨.done false, (list, heap), seq, by rw [perform, happend]; rfl,
        .inr ⟨rfl, halloc, rfl⟩, h, fun _ => ⟨rfl, rfl⟩, nofun⟩
    · exact ⟨.done true, (list', heap'), _, by rw [perform, happend]; rfl,
        .inl ⟨rfl, item, hnew, rfl⟩, h', nofun, fun _ hcompact => hcompact.elim⟩
  | getItem index =>
    exact ⟨_, (list, heap), seq, by rw [perform, h.getItem]; rfl, ⟨rfl, rfl⟩, h, nofun, nofun⟩
  | deleteItem item valueDestructor deferDestruction =>
    cases item with
    | none =>
      exact ⟨.done false, (list, heap), seq, rfl, ⟨rfl, rfl⟩, h, fun _ => ⟨rfl, rfl⟩, nofun⟩
    | some item =>
      rcases h.deleteItem hallowed valueDestructor deferDestruction with
        ⟨before, value, behind, rfl, list', heap', hdelete, h', -⟩ | ⟨hnone, hdelete⟩
      · exact ⟨.done true, (list', heap'), _, by rw [perform, hdelete]; rfl,
          .inl ⟨before, value, behind, rfl, rfl, rfl⟩, h', nofun, fun _ hcompact => hcompact.elim⟩
      · exact ⟨.done false, (list, heap), seq, by rw [perform, hdelete]; rfl,
          .inr ⟨hnone, rfl, rfl⟩, h, fun _ => ⟨rfl, rfl⟩, nofun⟩
  | compact alloc valueDestructor overrideDeferred =>
    obtain ⟨ok, list', heap', hcompact, hdone, hfail⟩ :=
      h.compact alloc valueDestructor overrideDeferred
    cases ok with
    | true =>
      obtain ⟨hdirty, seq', h', hvalues, -⟩ := hdone rfl
      exact ⟨.done true, (list', heap'), seq', by rw [perform, hcompact]; rfl,
        .inl ⟨rfl, hvalues⟩, h', nofun, fun _ _ => hdirty⟩
    | false =>
      obtain ⟨halloc, rfl, hblocks, -, h'⟩ := hfail rfl
      exact ⟨.done false, (list', heap'), seq, by rw [perform, hcompact]; rfl,
        .inr ⟨rfl, halloc, rfl⟩, h', fun _ => ⟨rfl, hblocks⟩, nofun⟩

end PreallocOp

/-- **A preallocated list is a sequence.**  Whatever calls are made on a new list, as long as items
to be deleted are still in memory, each is answered as by the sequence of the values appended and
not deleted; afterwards both directions of links, the index, the size and the ends agree with it.  A
call that fails, also one for lack of memory, has changed nothing, and compacting leaves nothing to
compact. -/
theorem preallocList_refines_sequence {ν δ : Type} (ops : List (PreallocOp ν δ))
    (hops : AdmissibleRun PreallocOp.Allowed PreallocOp.perform (createPreallocatedList ν δ) ops) :
    ∃ answers list heap seq,
      performAll PreallocOp.perform (createPreallocatedList ν δ) ops = some (answers, list, heap) ∧
      Steps (fun seq op => PreallocOp.Spec seq op) [] ops answers seq ∧
      Linked heap.next list.firstInUseItem (seq.map Prod.fst) ∧
      Linked heap.prev list.lastInUseItem (seq.map Prod.fst).reverse ∧
      (∀ e ∈ seq, (heap.item e.1).map PreallocItem.value = some e.2) ∧
      (∀ index : ℕ, list.getItem heap index = some (seq.map Prod.fst)[index]?) ∧
      list.size = seq.length ∧
      (list.firstInUseItem = none ↔ seq = []) ∧ (list.lastInUseItem = none ↔ seq = []) ∧
      ∀ op : PreallocOp ν δ, op.Allowed (list, heap) →
        ∃ answer list' heap', op.perform (list, heap) = some (answer, list', heap') ∧
          (answer = .done false → list' = list ∧ heap'.blocks = heap.blocks) ∧
          (answer = .done true → op.IsCompact → list'.dirty = false) := by
  have hstep : ∀ (s : PreallocList × PreallocHeap ν δ) (seq : List (ItemAddress × Option ν))
      (op : PreallocOp ν δ), op.Allowed s → s.1.StandsFor s.2 seq →
      ∃ answer s' seq', op.perform s = some (answer, s') ∧ op.Spec seq answer seq' ∧
        s'.1.StandsFor s'.2 seq' := by
    intro s seq op hallowed h
    obtain ⟨answer, s', seq', hperform, hspec, h', -⟩ := op.perform_stands hallowed h
    exact ⟨answer, s', seq', hperform, hspec, h'⟩
  obtain ⟨answers, ⟨list, heap⟩, seq, hrun, hsteps, h⟩ :=
    performAll_simulates hstep hops PreallocList.standsFor_create
  obtain ⟨⟨chain, hbuilt, -⟩, -, hsize⟩ := id h
  refine ⟨answers, list, heap, seq, hrun, hsteps, hbuilt.linked.forward, hbuilt.linked.backward,
    fun e he => ?_, fun index => ?_, hsize, ?_, ?_, fun op hallowed => ?_⟩
  · obtain ⟨-, cell, hcell, -, hvalue⟩ := hbuilt.live e he
    rw [hcell, Option.map_some, hvalue]
  · rw [h.getItem, if_pos (Int.natCast_nonneg index), Int.toNat_natCast]
  · rw [← hbuilt.linked.forward.eq_nil_iff, List.map_eq_nil_iff]
  · rw [← hbuilt.linked.backward.eq_nil_iff, List.reverse_eq_nil_iff, List.map_eq_nil_iff]
  · obtain ⟨answer, s', seq', hperform, -, -, hfailed, hdirty⟩ := op.perform_stands hallowed h
    exact ⟨answer, s'.1, s'.2, hperform, hfailed, hdirty⟩

theorem preallocList_refines_sequence_of_two :
    ∃ list heap, performAll PreallocOp.perform (createPreallocatedList ℕ Unit)
        [.append true (some 7), .append true (some 8),
          .deleteItem (some (0, ⟨0, by decide⟩)) none false, .compact (fun _ => true) none false,
          .getItem 0] =
        some ([.done true, .done true, .done true, .done true, .item (some (1, ⟨0, by decide⟩))],
          list, heap) ∧
      list.size = 1 ∧ list.lastInUseItem ≠ none := by
  have hops : AdmissibleRun PreallocOp.Allowed PreallocOp.perform (createPreallocatedList ℕ Unit)
      [.append true (some 7), .append true (some 8),
        .deleteItem (some (0, ⟨0, by decide⟩)) none false, .compact (fun _ => true) none false,
        .getItem 0] :=
    ⟨trivial, trivial, show Option.isSome _ = true from rfl, trivial, trivial, trivial⟩
  obtain ⟨answers, list, heap, seq, hrun, -, -, -, -, -, hsize, -, hlast, -⟩ :=
    preallocList_refines_sequence _ hops
  have hresult : (performAll PreallocOp.perform (createPreallocatedList ℕ Unit)
      [.append true (some 7), .append true (some 8),
        .deleteItem (some (0, ⟨0, by decide⟩)) none false, .compact (fun _ => true) none false,
        .getItem 0]).map (fun r => (r.1, r.2.1.size)) =
      some ([.done true, .done true, .done true, .done true, .item (some (1, ⟨0, by decide⟩))],
        1) := by
    decide +kernel
  rw [hrun, Option.map_some, Option.some.injEq, Prod.mk.injEq] at hresult
  obtain ⟨rfl, hone⟩ := hresult
  refine ⟨list, heap, hrun, hone, fun hnone => ?_⟩
  rw [hlast.1 hnone] at hsize
  rw [hsize] at hone
  cases hone

end XprcServer
