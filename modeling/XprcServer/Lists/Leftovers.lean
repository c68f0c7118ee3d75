import Mathlib.Data.List.Nodup
import XprcServer.Lists.Compact

/-!
# What is left in a preallocated list

An item that is deleted may keep its value, and then a destructor for it, until the list is
compacted or destroyed.  `Keeps list heap seq left` says that the list stands for `seq` and that
`left` are the values of deleted items that are still to be destroyed.

* `Keeps.append`, `Keeps.deleteItem`, `Keeps.compact` : what calls on the list do to both, and which
  destructors they call;
* `Keeps.destroy` : destroying the list releases whatever is in it.
-/

namespace XprcServer

open Lib

variable {ν δ : Type}

/-- The destructor call for a value with its recorded destructor, as compacting and destroying do
it. -/
def release (valueDestructor : Option δ) (overrideDeferred : Bool) (held : Option δ × ν) :
    List (δ × Option ν) :=
  match held.1, overrideDeferred with
  | some destructor, false => [(destructor, some held.2)]
  | _, _ => valueDestructor.toList.map fun destructor => (destructor, some held.2)

namespace PreallocHeap

/-- The destructor calls of `destroy_preallocated_list` for a block: whatever the status of an item
is. -/
def destroyAll (valueDestructor : Option δ) (overrideDeferred : Bool) (block : PreallocBlock ν δ) :
    List (δ × Option ν) :=
  (List.finRange preallocListBlockSize).flatMap fun i =>
    let item := block.items i
    if item.value.isNone then []
    else match item.valueDestructor, overrideDeferred with
      | some destructor, false => [(destructor, item.value)]
      | _, _ => valueDestructor.toList.map fun destructor => (destructor, item.value)

end PreallocHeap

/-- `destroy_preallocated_list` -/
def PreallocList.destroy (list : PreallocList) (heap : PreallocHeap ν δ)
    (valueDestructor : Option δ) (overrideDeferred : Bool) : Access (PreallocHeap ν δ) :=
  heap.freeBlocks (PreallocHeap.destroyAll valueDestructor overrideDeferred) heap.unused
    (some list.headBlock)

namespace ItemContent

/-- The value, if there is one, with its recorded destructor -/
def held (c : ItemContent ν δ) : Option (Option δ × ν) :=
  c.value.map fun value => (c.valueDestructor, value)

/-- What a deleted item holds -/
def left (c : ItemContent ν δ) : Option (Option δ × ν) :=
  if c.status = .deleted then c.held else none

/-- Only deleted items have destructors recorded, and only used ones have values. -/
def Tidy (c : ItemContent ν δ) : Prop :=
  (c.status ≠ .deleted → c.valueDestructor = none) ∧ (c.status = .pristine → c.value = none)

@[simp] theorem held_zero : (ItemContent.zero : ItemContent ν δ).held = none := rfl

@[simp] theorem left_zero : (ItemContent.zero : ItemContent ν δ).left = none := rfl

theorem tidy_zero : (ItemContent.zero : ItemContent ν δ).Tidy := ⟨fun _ => rfl, fun _ => rfl⟩

theorem tidy_inUse (value : Option ν) : (⟨.inUse, value, none⟩ : ItemContent ν δ).Tidy :=
  ⟨fun _ => rfl, nofun⟩

end ItemContent

namespace PreallocHeap

variable {heap heap' : PreallocHeap ν δ}

theorem destroyDeleted_eq (valueDestructor : Option δ) (overrideDeferred : Bool)
    (block : PreallocBlock ν δ) :
    destroyDeleted valueDestructor overrideDeferred block =
      (List.finRange preallocListBlockSize).flatMap fun i =>
        (block.items i).content.left.elim [] (release valueDestructor overrideDeferred) := by
  refine List.flatMap_congr fun i _ => ?_
  obtain ⟨status, value, destructor, _, _⟩ := block.items i
  cases status <;> cases value <;> rfl

theorem destroyAll_eq (valueDestructor : Option δ) (overrideDeferred : Bool)
    (block : PreallocBlock ν δ) :
    destroyAll valueDestructor overrideDeferred block =
      (List.finRange preallocListBlockSize).flatMap fun i =>
        (block.items i).content.held.elim [] (release valueDestructor overrideDeferred) := by
  refine List.flatMap_congr fun i _ => ?_
  obtain ⟨_, value, _, _, _⟩ := block.items i
  cases value <;> rfl

/-- What is called for a block, in terms of what its items hold. -/
theorem elim_block (f : ItemContent ν δ → Option (Option δ × ν))
    (calls : Option δ × ν → List (δ × Option ν)) {b : ℕ} (hb : (heap.shape b).isSome) :
    ((heap.blocks b).elim [] fun block => (List.finRange preallocListBlockSize).flatMap fun i =>
        (f (block.items i).content).elim [] calls) =
      (List.finRange preallocListBlockSize).flatMap fun i =>
        (f (heap.content (b, i))).elim [] calls := by
  obtain ⟨block, hblock⟩ := Option.isSome_iff_exists.1 (blocks_isSome.trans hb)
  rw [hblock, Option.elim_some]
  refine List.flatMap_congr fun i _ => ?_
  rw [content_eq (show heap.item (b, i) = some (block.items i) by rw [item, hblock]; rfl)]

theorem flatMap_elim {α β γ : Type} (l : List α) (h : α → Option β) (k : β → List γ) :
    (l.flatMap fun a => (h a).elim [] k) = (l.filterMap h).flatMap k := by
  induction l with
  | nil => rfl
  | cons a l ih =>
    rw [List.flatMap_cons, ih]
    cases ha : h a with
    | none => rw [List.filterMap_cons_none ha]; rfl
    | some b => rw [List.filterMap_cons_some ha, List.flatMap_cons]; rfl

/-- **What is released** is what the items held, in some order. -/
theorem Released.perm {left : PreallocBlock ν δ → List (δ × Option ν)}
    (h : heap.Released heap' left)
    {f : ItemContent ν δ → Option (Option δ × ν)} (hzero : f .zero = none)
    {calls : Option δ × ν → List (δ × Option ν)}
    (hleft : ∀ block, left block = (List.finRange preallocListBlockSize).flatMap fun i =>
      (f (block.items i).content).elim [] calls)
    {entries : List (ItemAddress × Option δ × ν)} (hnodup : (entries.map Prod.fst).Nodup)
    (hentries : ∀ a x, f (heap.content a) = some x ↔ (a, x) ∈ entries) :
    ∃ released, heap'.destroyed = heap.destroyed ++ released ∧
      released.Perm (entries.flatMap fun e => calls e.2) := by
  obtain ⟨chain, hchain, hall, hdestroyed⟩ := h
  let places := chain ×ˢ List.finRange preallocListBlockSize
  let found := places.filterMap fun a => (f (heap.content a)).map fun x => (a, x)
  have hmem : ∀ e : ItemAddress × Option δ × ν, e ∈ found ↔ f (heap.content e.1) = some e.2 := by
    intro e
    refine List.mem_filterMap.trans ⟨?_, fun he => ⟨e.1, ?_, by rw [he]; rfl⟩⟩
    · rintro ⟨a, -, ha⟩
      obtain ⟨x, hx, rfl⟩ := Option.map_eq_some_iff.1 ha
      exact hx
    · refine List.mem_product.2 ⟨(hall e.1.1).1 (Option.isSome_iff_ne_none.2 fun hnone => ?_),
        List.mem_finRange _⟩
      rw [content, item_eq_none hnone, Option.elim_none, hzero] at he
      cases he
  have hplaces : places.Nodup := hchain.product (List.nodup_finRange _)
  have hfound : found.Nodup := by
    refine hplaces.filterMap fun a a' e ha ha' => ?_
    obtain ⟨x, -, rfl⟩ := Option.map_eq_some_iff.1 (Option.mem_def.1 ha)
    obtain ⟨x', -, heq⟩ := Option.map_eq_some_iff.1 (Option.mem_def.1 ha')
    exact (congrArg Prod.fst heq).symm
  have hperm : found.Perm entries := by
    refine (List.perm_ext_iff_of_nodup hfound (List.Nodup.of_map _ hnodup)).2 fun e => ?_
    rw [hmem, hentries]
  refine ⟨_, hdestroyed, ?_⟩
  have hcalls : (chain.flatMap fun b => (heap.blocks b).elim [] left) =
      found.flatMap fun e => calls e.2 := by
    rw [← flatMap_elim]
    have hproduct : places = chain.flatMap fun b =>
        (List.finRange preallocListBlockSize).map fun i => (b, i) := rfl
    rw [hproduct, List.flatMap_assoc]
    refine List.flatMap_congr fun b hb => ?_
    rw [List.flatMap_map, funext hleft, elim_block f calls ((hall b).2 hb)]
    refine List.flatMap_congr fun i _ => ?_
    cases f (heap.content (b, i)) <;> rfl
  rw [hcalls]
  exact hperm.flatMap_right _

end PreallocHeap

namespace PreallocList

/-- The list stands for `seq`, and `left` are the values of deleted items, with what destructor was
recorded for them, that have not been destroyed. -/
structure Keeps (list : PreallocList) (heap : PreallocHeap ν δ)
    (seq : List (ItemAddress × Option ν)) (left : List (ItemAddress × Option δ × ν)) : Prop where
  stands : list.StandsFor heap seq
  tidy : ∀ a, (heap.content a).Tidy
  nodup : (left.map Prod.fst).Nodup
  left_iff : ∀ a x, (heap.content a).left = some x ↔ (a, x) ∈ left
  dirty : left ≠ [] → list.dirty = true

variable {list : PreallocList} {heap : PreallocHeap ν δ} {seq : List (ItemAddress × Option ν)}
  {left : List (ItemAddress × Option δ × ν)}

theorem keeps_create :
    (createPreallocatedList ν δ).1.Keeps (createPreallocatedList ν δ).2 [] [] := by
  have hcontent : ∀ a, (createPreallocatedList ν δ).2.content a = .zero := by
    intro a
    rw [PreallocHeap.content]
    have hitem := PreallocHeap.createBlock_item (⟨fun _ => none, 0, []⟩ : PreallocHeap ν δ) a
    rw [show (createPreallocatedList ν δ).2.item a = _ from hitem]
    split_ifs <;> rfl
  refine ⟨standsFor_create, fun a => ?_, List.nodup_nil, fun a x => ?_, fun h => absurd rfl h⟩
  · rw [hcontent]
    exact ItemContent.tidy_zero
  · rw [hcontent]
    simp

/-- In a list without leftovers all that is held is in use. -/
theorem StandsFor.content (h : list.StandsFor heap seq) {e : ItemAddress × Option ν}
    (he : e ∈ seq) :
    (heap.content e.1).status = .inUse ∧ (heap.content e.1).value = e.2 := by
  obtain ⟨⟨chain, hbuilt, -⟩, -, -⟩ := h
  obtain ⟨-, cell, hcell, hstatus, hvalue⟩ := hbuilt.live e he
  rw [PreallocHeap.content_eq hcell]
  exact ⟨hstatus, hvalue⟩

theorem StandsFor.mem (h : list.StandsFor heap seq) {a : ItemAddress}
    (ha : (heap.content a).status = .inUse) : (a, (heap.content a).value) ∈ seq := by
  obtain ⟨⟨chain, hbuilt, hall⟩, -, -⟩ := id h
  cases hcell : heap.item a with
  | none =>
    rw [PreallocHeap.content, hcell] at ha
    cases ha
  | some cell =>
    rw [PreallocHeap.content_eq hcell] at ha
    obtain ⟨next, index, hshape⟩ := PreallocHeap.shape_of_item hcell
    have hblock := hall a.1 (by rw [hshape]; rfl)
    obtain ⟨e, he, rfl⟩ := List.mem_map.1 (hbuilt.inUse a cell hblock hcell ha)
    rw [(h.content he).2]
    exact he

/-- The values in use, none of which has a destructor recorded -/
def inUseEntries (seq : List (ItemAddress × Option ν)) : List (ItemAddress × Option δ × ν) :=
  seq.filterMap fun e => e.2.map fun value => (e.1, none, value)

theorem mem_inUseEntries {a : ItemAddress} {x : Option δ × ν} :
    (a, x) ∈ inUseEntries seq ↔ x.1 = none ∧ (a, some x.2) ∈ seq := by
  refine List.mem_filterMap.trans ⟨?_, ?_⟩
  · rintro ⟨e, he, hsome⟩
    obtain ⟨value, hvalue, heq⟩ := Option.map_eq_some_iff.1 hsome
    cases heq
    exact ⟨rfl, hvalue ▸ he⟩
  · rintro ⟨hx, he⟩
    exact ⟨_, he, by rw [← hx]; rfl⟩

/-- Whatever is held is in use or left. -/
theorem Keeps.held_iff (h : list.Keeps heap seq left) (a : ItemAddress) (x : Option δ × ν) :
    (heap.content a).held = some x ↔ (a, x) ∈ inUseEntries seq ++ left := by
  rw [List.mem_append, mem_inUseEntries, ← h.left_iff]
  obtain ⟨hdestructor, hpristine⟩ := h.tidy a
  constructor
  · intro hheld
    obtain ⟨value, hvalue, rfl⟩ := Option.map_eq_some_iff.1 hheld
    cases hstatus : (heap.content a).status with
    | pristine =>
      rw [hpristine hstatus] at hvalue
      cases hvalue
    | inUse =>
      have hmem := h.stands.mem hstatus
      rw [hvalue] at hmem
      exact .inl ⟨hdestructor (by rw [hstatus]; decide), hmem⟩
    | deleted => exact .inr ((if_pos hstatus).trans hheld)
  · rintro (⟨hx, hmem⟩ | hleft)
    · obtain ⟨hstatus, hvalue⟩ := h.stands.content hmem
      have hnone := hdestructor (by rw [hstatus]; decide)
      rw [ItemContent.held, hvalue, hnone, ← hx]
      rfl
    · rw [ItemContent.left] at hleft
      split_ifs at hleft
      exact hleft

theorem Keeps.held_nodup (h : list.Keeps heap seq left) :
    ((inUseEntries seq ++ left).map Prod.fst).Nodup := by
  obtain ⟨⟨chain, hbuilt, -⟩, -, -⟩ := h.stands
  have hnodup := hbuilt.linked.forward.nodup
  have hsub : ((inUseEntries seq : List (ItemAddress × Option δ × ν)).map Prod.fst).Sublist
      (seq.map Prod.fst) := by
    clear hnodup hbuilt h
    induction seq with
    | nil => exact .slnil
    | cons e seq ih =>
      rw [inUseEntries, List.filterMap_cons]
      cases e.2 with
      | none => exact ih.cons e.1
      | some value => exact ih.cons_cons e.1
  rw [List.map_append]
  refine List.nodup_append.2 ⟨hnodup.sublist hsub, h.nodup, fun a ha b hb => ?_⟩
  rintro rfl
  obtain ⟨⟨a, x⟩, hx, rfl⟩ := List.mem_map.1 ha
  obtain ⟨⟨a', y⟩, hy, rfl⟩ := List.mem_map.1 hb
  obtain ⟨hstatus, -⟩ := h.stands.content (mem_inUseEntries.1 hx).2
  have hleft := (h.left_iff _ y).2 hy
  rw [ItemContent.left, if_neg (by rw [hstatus]; decide)] at hleft
  cases hleft

/-! ### Calls on the list -/

theorem Keeps.append (h : list.Keeps heap seq left) (alloc : Bool) (value : Option ν) :
    list.append heap alloc value = some (false, list, heap) ∧ alloc = false ∨
      ∃ item list' heap', list.append heap alloc value = some (true, list', heap') ∧
        list'.Keeps heap' (seq ++ [(item, value)]) left ∧ heap'.destroyed = heap.destroyed ∧
        item ∉ seq.map Prod.fst ∧ (heap.content item).status = .pristine ∧
        ∀ a, heap'.next a = if list.lastInUseItem = some a then some item else heap.next a := by
  rcases h.stands.append alloc value with hfail |
    ⟨item, list', heap', happend, hnew, hstands, hdirty, hdestroyed, hzero, hcontent, hnext⟩
  · exact .inl hfail
  · have hleft : ∀ a, (heap'.content a).left = (heap.content a).left := by
      intro a
      rw [hcontent]
      by_cases ha : a = item
      · rw [ha, Function.update_self, hzero]
        rfl
      · rw [Function.update_of_ne ha]
    refine .inr ⟨item, list', heap', happend,
      ⟨hstands, fun a => ?_, h.nodup, fun a x => ?_, fun hne => ?_⟩, hdestroyed, hnew, by
        rw [hzero]; rfl, hnext⟩
    · rw [hcontent]
      by_cases ha : a = item
      · rw [ha, Function.update_self]
        exact ItemContent.tidy_inUse value
      · rw [Function.update_of_ne ha]
        exact h.tidy a
    · rw [hleft]
      exact h.left_iff a x
    · rw [hdirty]
      exact h.dirty hne

/-- A value goes to what is left if its destruction is deferred, or else is destroyed. -/
theorem Keeps.deleteItem (h : list.Keeps heap seq left) {a : ItemAddress}
    (ha : (heap.shape a.1).isSome) (valueDestructor : Option δ) (deferDestruction : Bool) :
    (∃ before value behind, seq = before ++ (a, value) :: behind ∧
      ∃ list' heap', list.deleteItem heap (some a) valueDestructor deferDestruction =
          some (true, list', heap') ∧
        list'.Keeps heap' (before ++ behind)
          ((if deferDestruction then value.toList.map fun value => (a, valueDestructor, value) else
            []) ++ left) ∧
        heap'.destroyed = heap.destroyed ++ (if deferDestruction then [] else
          valueDestructor.toList.map fun destructor => (destructor, value)) ∧
        ∀ c, heap'.next c = if heap.prev a = some c then heap.next a else heap.next c) ∨
      a ∉ seq.map Prod.fst ∧
        list.deleteItem heap (some a) valueDestructor deferDestruction =
          some (false, list, heap) := by
  rcases h.stands.deleteItem ha valueDestructor deferDestruction with
    ⟨before, value, behind, rfl, list', heap', hdelete, hstands, hdirty, hcontent,
      hdestroyed, hnext⟩ |
    hrefused
  swap
  · exact .inr hrefused
  refine .inl ⟨before, value, behind, rfl, list', heap', hdelete, ?_, hdestroyed, hnext⟩
  obtain ⟨hstatus, hvalue⟩ :=
    h.stands.content (show (a, value) ∈ before ++ (a, value) :: behind by simp)
  have hnot : ∀ x, (a, x) ∉ left := by
    intro x hx
    have hleft := (h.left_iff a x).2 hx
    rw [ItemContent.left, if_neg (by rw [hstatus]; decide)] at hleft
    cases hleft
  refine ⟨hstands, fun c => ?_, ?_, fun c x => ?_, fun _ => hdirty⟩
  · rw [hcontent]
    by_cases hc : c = a
    · rw [hc, Function.update_self]
      cases deferDestruction <;> exact ⟨fun hne => absurd rfl hne, nofun⟩
    · rw [Function.update_of_ne hc]
      exact h.tidy c
  · cases deferDestruction with
    | false => exact h.nodup
    | true =>
      cases value with
      | none => exact h.nodup
      | some value =>
        refine List.nodup_cons.2 ⟨fun hmem => ?_, h.nodup⟩
        obtain ⟨⟨a', x⟩, hx, rfl⟩ := List.mem_map.1 hmem
        exact hnot x hx
  · rw [hcontent, List.mem_append]
    by_cases hc : c = a
    · subst hc
      rw [Function.update_self, or_iff_left (hnot x)]
      cases deferDestruction with
      | false => exact ⟨nofun, nofun⟩
      | true =>
        cases value with
        | none => exact ⟨nofun, nofun⟩
        | some value => simp [ItemContent.left, ItemContent.held, eq_comm]
    · rw [Function.update_of_ne hc, h.left_iff, or_iff_right]
      cases deferDestruction with
      | false => exact List.not_mem_nil
      | true =>
        cases value with
        | none => exact List.not_mem_nil
        | some value => simp [hc]

/-- **Compacting releases what is left**, unless there is no memory. -/
theorem Keeps.compact (h : list.Keeps heap seq left) (alloc : ℕ → Bool) (valueDestructor : Option δ)
    (overrideDeferred : Bool) :
    (∃ list' heap' seq' released, list.compact heap alloc valueDestructor overrideDeferred =
        some (true, list', heap') ∧ list'.Keeps heap' seq' [] ∧
        seq'.map Prod.snd = seq.map Prod.snd ∧
        heap'.destroyed = heap.destroyed ++ released ∧
        released.Perm (left.flatMap fun e => release valueDestructor overrideDeferred e.2)) ∨
      ∃ heap', list.compact heap alloc valueDestructor overrideDeferred =
        some (false, list, heap') ∧
        (∃ b, alloc b = false) ∧ list.Keeps heap' seq left ∧ heap'.destroyed = heap.destroyed := by
  obtain ⟨ok, list', heap', hcompact, hdone, hfail⟩ :=
    h.stands.compact alloc valueDestructor overrideDeferred
  cases ok with
  | true =>
    obtain ⟨-, seq', hstands, hvalues, ⟨rfl, rfl, rfl, hclean⟩ | ⟨hreleased, hcontent⟩⟩ := hdone rfl
    · -- where nothing was deleted nothing is left
      have hnil : left = [] := by
        by_contra hne
        rw [h.dirty hne] at hclean
        cases hclean
      subst hnil
      exact .inl ⟨list', heap', seq', [], hcompact, h, rfl, (List.append_nil _).symm, .refl _⟩
    · obtain ⟨released, hdestroyed, hperm⟩ := hreleased.perm ItemContent.left_zero
        (PreallocHeap.destroyDeleted_eq valueDestructor overrideDeferred) h.nodup h.left_iff
      refine .inl ⟨list', heap', seq', released, hcompact, ⟨hstands, fun a => ?_, List.nodup_nil,
        fun a x => ?_, fun hne => absurd rfl hne⟩, hvalues, hdestroyed, hperm⟩
      · rcases hcontent a with ha | ⟨value, ha⟩
        · rw [ha]
          exact ItemContent.tidy_zero
        · rw [ha]
          exact ItemContent.tidy_inUse value
      · rcases hcontent a with ha | ⟨value, ha⟩
        · rw [ha]
          exact ⟨nofun, nofun⟩
        · rw [ha]
          exact ⟨nofun, nofun⟩
  | false =>
    obtain ⟨halloc, rfl, hblocks, hdestroyed, hstands⟩ := hfail rfl
    have hcontent : ∀ a, heap'.content a = heap.content a := fun a => by
      rw [PreallocHeap.content, PreallocHeap.item_congr (congrFun hblocks a.1)]
      rfl
    refine .inr ⟨heap', hcompact, halloc, ⟨hstands, fun a => ?_, h.nodup, fun a x => ?_, h.dirty⟩,
      hdestroyed⟩
    · rw [hcontent]
      exact h.tidy a
    · rw [hcontent]
      exact h.left_iff a x

/-- **Destroying a list releases all values**, those in use as well, and frees all memory. -/
theorem Keeps.destroy (h : list.Keeps heap seq left) (valueDestructor : Option δ)
    (overrideDeferred : Bool) :
    ∃ heap' released, list.destroy heap valueDestructor overrideDeferred = some heap' ∧
      (∀ b, heap'.blocks b = none) ∧ heap'.destroyed = heap.destroyed ++ released ∧
      released.Perm ((inUseEntries seq ++ left).flatMap fun e : ItemAddress × Option δ × ν =>
        release valueDestructor overrideDeferred e.2) := by
  obtain ⟨⟨chain, hbuilt, hall⟩, hfresh, -⟩ := h.stands
  obtain ⟨heap', hfree, -, hfreed, hother, hdestroyed⟩ := PreallocHeap.freeBlocks_spec
    (PreallocHeap.destroyAll valueDestructor overrideDeferred) hbuilt.blocks hbuilt.allocated
    (hbuilt.blocks.length_le fun b hb => hbuilt.lt_unused hfresh hb)
  have hreleased : heap.Released heap' (PreallocHeap.destroyAll valueDestructor overrideDeferred) :=
    ⟨chain, hbuilt.blocks.nodup, fun b => ⟨hall b, hbuilt.allocated b⟩, hdestroyed⟩
  obtain ⟨released, hreleased, hperm⟩ := hreleased.perm ItemContent.held_zero
    (PreallocHeap.destroyAll_eq valueDestructor overrideDeferred) h.held_nodup h.held_iff
  refine ⟨heap', released, hfree, fun b => ?_, hreleased, hperm⟩
  by_cases hb : b ∈ chain
  · exact hfreed b hb
  · rw [hother b hb]
    exact PreallocHeap.shape_eq_none.1
      (Option.not_isSome_iff_eq_none.1 fun hsome => hb (hall b hsome))

end PreallocList

end XprcServer
