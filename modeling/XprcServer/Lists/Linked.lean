import XprcServer.Channels.Basic
import XprcServer.Lib.Links

/-!
# Linked lists

The ordinary lists of `lists.c`: each item is allocated by itself and linked in both directions.

* `LinkedList.Holds.append`, `LinkedList.Holds.deleteItem` : what `list_append` and
  `list_delete_item` make of the values;
* `LinkedList.Holds.find` : `list_find` ends, and finds an item with the value if there is one.
-/

namespace XprcServer

open Lib

variable {ν : Type}

/-- `list_item_t` -/
structure ListItem (ν : Type) where
  value : ν
  prev : Option ℕ
  next : Option ℕ

/-- The items in memory; nothing is at an address that is free. -/
abbrev ListHeap (ν : Type) := ℕ → Option (ListItem ν)

/-- `list_t` -/
structure LinkedList where
  head : Option ℕ
  tail : Option ℕ
  size : ℤ
  deriving DecidableEq

namespace ListHeap

variable (heap : ListHeap ν)

/-- The link behind an item -/
def next (a : ℕ) : Option ℕ := (heap a).bind ListItem.next

/-- The link before an item -/
def prev (a : ℕ) : Option ℕ := (heap a).bind ListItem.prev

/-- An assignment to fields of an item -/
def modify (a : ℕ) (f : ListItem ν → ListItem ν) : Access (ListHeap ν) := do
  let item ← heap a
  return Function.update heap a (some (f item))

/-- The same for a pointer that may be NULL, which is tested before -/
def modify? (p : Option ℕ) (f : ListItem ν → ListItem ν) : Access (ListHeap ν) :=
  match p with
  | none => some heap
  | some a => heap.modify a f

/-- Only the item at the pointer is changed. -/
theorem exists_modify? {p : Option ℕ} (hlive : ∀ a, p = some a → heap a ≠ none)
    (f : ListItem ν → ListItem ν) :
    ∃ heap', heap.modify? p f = some heap' ∧
      ∀ b, heap' b = (heap b).map fun item => if p = some b then f item else item := by
  cases p with
  | none => exact ⟨heap, rfl, fun b => by simp⟩
  | some a =>
    obtain ⟨cell, hcell⟩ := Option.ne_none_iff_exists'.1 (hlive a rfl)
    refine ⟨_, by rw [modify?, modify, hcell]; rfl, fun b => ?_⟩
    by_cases hb : a = b
    · subst hb
      simp [hcell]
    · simp [Function.update_of_ne (Ne.symm hb), hb]

end ListHeap

/-- `create_list` -/
def createList : LinkedList := ⟨none, none, 0⟩

namespace LinkedList

variable (list : LinkedList) (heap : ListHeap ν)

/-- `list_append`, with the address that `zmalloc` returns -/
def append (alloc : Option ℕ) (value : ν) : Access (Bool × LinkedList × ListHeap ν) :=
  match alloc with
  | none => some (false, list, heap)
  | some item => do
    let heap : ListHeap ν := Function.update heap item (some ⟨value, list.tail, none⟩)
    let heap ← heap.modify? list.tail fun prev => { prev with next := some item }
    let head := if list.head = none then some item else list.head
    return (true, ⟨head, some item, list.size + 1⟩, heap)

/-- The loop of `list_find`; the first argument bounds the number of rounds. -/
def findLoop [DecidableEq ν] (value : ν) : ℕ → Option ℕ → Access (Option ℕ)
  | _, none => some none
  | 0, some _ => none
  | fuel + 1, some item => do
    let cell ← heap item
    if cell.value = value then return some item
    findLoop value fuel cell.next

/-- `list_find` -/
def find [DecidableEq ν] (fuel : ℕ) (value : ν) : Access (Option ℕ) :=
  findLoop heap value fuel list.head

/-- `list_delete_item` without a destructor; the item is freed. -/
def deleteItem (item : ℕ) : Access (LinkedList × ListHeap ν) := do
  let cell ← heap item
  let heap ← heap.modify? cell.prev fun prev => { prev with next := cell.next }
  let cell ← heap item
  let heap ← heap.modify? cell.next fun next => { next with prev := cell.prev }
  let cell ← heap item
  return (⟨if list.head = some item then cell.next else list.head,
    if list.tail = some item then cell.prev else list.tail, list.size - 1⟩,
    Function.update heap item none)

/-- The loop of `destroy_list` without a destructor; the first argument bounds the number of
rounds. -/
def destroyLoop : ℕ → Option ℕ → ListHeap ν → Access (ListHeap ν)
  | _, none, heap => some heap
  | 0, some _, _ => none
  | fuel + 1, some item, heap => do
    let cell ← heap item
    destroyLoop fuel cell.next (Function.update heap item none)

/-- `destroy_list` without a destructor -/
def destroy (fuel : ℕ) : Access (ListHeap ν) := destroyLoop fuel list.head heap

/-- The values of the list -/
def values : List ν :=
  match follow heap.next list.size.toNat list.head with
  | none => []
  | some items => items.filterMap fun item => (heap item).map ListItem.value

/-- The list consists of these items with their values. -/
structure Holds (items : List (ℕ × ν)) : Prop where
  links : DoublyLinked heap.next heap.prev list.head list.tail (items.map Prod.fst)
  cells : ∀ e ∈ items, (heap e.1).map ListItem.value = some e.2
  size : list.size = items.length

variable {list heap} {items : List (ℕ × ν)}

theorem holds_createList (heap : ListHeap ν) : createList.Holds heap [] :=
  ⟨doublyLinked_nil, (fun _ h => nomatch h), rfl⟩

/-- The values are those of the items. -/
theorem Holds.values_eq (h : list.Holds heap items) : list.values heap = items.map Prod.snd := by
  have hlength : (items.map Prod.fst).length ≤ list.size.toNat := by
    rw [h.size, List.length_map]
    omega
  rw [values, h.links.forward.follow_eq hlength]
  dsimp only
  have hcells := h.cells
  clear hlength h
  induction items with
  | nil => rfl
  | cons e items ih =>
    have he := hcells e List.mem_cons_self
    simp only [List.map_cons, List.filterMap_cons, he]
    rw [ih fun e' he' => hcells e' (List.mem_cons_of_mem e he')]

theorem Holds.cell_eq {items₁ items₂ : List (ℕ × ν)} {a : ℕ} {v : ν}
    (h : list.Holds heap (items₁ ++ (a, v) :: items₂)) :
    heap a = some ⟨v, (items₁.map Prod.fst).getLast?, (items₂.map Prod.fst).head?⟩ := by
  have hlinks := h.links
  rw [List.map_append, List.map_cons] at hlinks
  have hvalue := h.cells (a, v) (List.mem_append_right _ List.mem_cons_self)
  have hnext := hlinks.next_eq
  have hprev := hlinks.prev_eq
  rw [ListHeap.next] at hnext
  rw [ListHeap.prev] at hprev
  cases hcell : heap a with
  | none =>
    rw [hcell] at hvalue
    cases hvalue
  | some cell =>
    rw [hcell, Option.bind_some] at hnext hprev
    have hvalue : cell.value = v := by rwa [hcell, Option.map_some, Option.some.injEq] at hvalue
    rw [← hnext, ← hprev, ← hvalue]

theorem findLoop_eq [DecidableEq ν] {p : Option ℕ}
    (hlinks : Linked heap.next p (items.map Prod.fst))
    (hcells : ∀ e ∈ items, (heap e.1).map ListItem.value = some e.2) {fuel : ℕ}
    (hfuel : items.length ≤ fuel) (value : ν) :
    findLoop heap value fuel p = some ((items.find? fun e => e.2 = value).map Prod.fst) := by
  induction items generalizing p fuel with
  | nil =>
    obtain rfl : p = none := hlinks
    cases fuel <;> rfl
  | cons e items ih =>
    obtain ⟨rfl, hrest⟩ := hlinks
    obtain ⟨fuel, rfl, hle⟩ := exists_fuel hfuel
    obtain ⟨cell, hcell, hvalue⟩ := Option.map_eq_some_iff.1 (hcells e List.mem_cons_self)
    rw [ListHeap.next, hcell, Option.bind_some] at hrest
    rw [findLoop, hcell, Option.bind_eq_bind, Option.bind_some, hvalue]
    by_cases he : e.2 = value
    · simp only [if_pos he, List.find?_cons, decide_eq_true he]
      rfl
    · simp only [if_neg he, List.find?_cons, decide_eq_false he]
      exact ih hrest (fun e' he' => hcells e' (List.mem_cons_of_mem e he')) hle

/-- `list_find` ends, and finds the value if it is there. -/
theorem Holds.find [DecidableEq ν] (h : list.Holds heap items) (value : ν) :
    list.find heap list.size.toNat value =
      some ((items.find? fun e => e.2 = value).map Prod.fst) :=
  findLoop_eq h.links.forward h.cells (by rw [h.size]; omega) value

theorem Holds.live (h : list.Holds heap items) {a : ℕ} (ha : a ∈ items.map Prod.fst) :
    heap a ≠ none := fun hnone => by
  obtain ⟨e, he, rfl⟩ := List.mem_map.1 ha
  have hvalue := h.cells e he
  rw [hnone] at hvalue
  cases hvalue

/-- What `list_append` writes: the new item, and the link of the last one to it. -/
theorem append_writes (list : LinkedList) {item : ℕ} (hfree : heap item = none)
    (htail : ∀ a, list.tail = some a → heap a ≠ none) (value : ν) :
    ∃ heap', list.append heap (some item) value =
        some (true, ⟨if list.head = none then some item else list.head, some item, list.size + 1⟩,
          heap') ∧
      heap' item = some ⟨value, list.tail, none⟩ ∧
      ∀ b, b ≠ item → heap' b = (heap b).map fun cell =>
        { cell with next := if list.tail = some b then some item else cell.next } := by
  have hother : ∀ a, list.tail = some a → a ≠ item := fun a ha heq => htail a ha (heq ▸ hfree)
  obtain ⟨heap', hmodify, heap'_eq⟩ :=
    ListHeap.exists_modify? (Function.update heap item (some ⟨value, list.tail, none⟩))
      (p := list.tail) (fun a ha => by
        rw [Function.update_of_ne (hother a ha)]
        exact htail a ha) fun prev => { prev with next := some item }
  refine ⟨heap', by rw [append, hmodify]; rfl, ?_, fun b hb => ?_⟩
  · rw [heap'_eq, Function.update_self, Option.map_some,
      if_neg fun heq => hother item heq rfl]
  · rw [heap'_eq, Function.update_of_ne hb]
    congr 1
    funext cell
    split <;> rfl

/-- **`list_append` adds the value at the end.** -/
theorem Holds.append (h : list.Holds heap items) {item : ℕ} (hfree : heap item = none) (value : ν) :
    ∃ list' heap', list.append heap (some item) value = some (true, list', heap') ∧
      list'.Holds heap' (items ++ [(item, value)]) := by
  have hother : ∀ a ∈ items.map Prod.fst, a ≠ item := fun a ha heq => h.live ha (heq ▸ hfree)
  obtain ⟨heap', happend, hnew, hold⟩ := append_writes list hfree (fun a ha => by
    rw [h.links.last_eq] at ha
    exact h.live (List.mem_of_getLast? ha)) value
  refine ⟨_, heap', happend, ?_, fun e he => ?_, ?_⟩
  · rw [List.map_append, List.map_singleton]
    refine h.links.append ⟨?_, ?_⟩ (fun a ha => ?_) (fun a ha => ?_) rfl rfl
    · rw [ListHeap.next, hnew, Option.bind_some]
    · rw [ListHeap.prev, hnew, Option.bind_some]
    · obtain ⟨cell, hcell⟩ := Option.ne_none_iff_exists'.1 (h.live ha)
      rw [ListHeap.next, ListHeap.next, hold a (hother a ha), hcell]
      rfl
    · rw [ListHeap.prev, ListHeap.prev, hold a (hother a ha), Option.bind_map]
      rfl
  · obtain he | he := List.mem_append.1 he
    · rw [hold e.1 (hother e.1 (List.mem_map_of_mem he)), ← h.cells e he, Option.map_map]
      rfl
    · obtain rfl := List.mem_singleton.1 he
      rw [hnew, Option.map_some]
  · have hsize := h.size
    rw [List.length_append, List.length_singleton]
    dsimp only
    omega

/-- What `list_delete_item` writes: the links of the neighbours, or the ends, to each other. -/
theorem deleteItem_writes (list : LinkedList) {item : ℕ} {cell : ListItem ν}
    (hcell : heap item = some cell)
    (hbefore : ∀ a, cell.prev = some a → a ≠ item ∧ heap a ≠ none)
    (hbehind : ∀ a, cell.next = some a → a ≠ item ∧ heap a ≠ none) :
    ∃ heap', list.deleteItem heap item =
        some (⟨if list.head = some item then cell.next else list.head,
          if list.tail = some item then cell.prev else list.tail, list.size - 1⟩, heap') ∧
      ∀ b, b ≠ item → heap' b = (heap b).map fun c =>
        ⟨c.value, if cell.next = some b then cell.prev else c.prev,
          if cell.prev = some b then cell.next else c.next⟩ := by
  obtain ⟨heap₁, hmodify₁, heap₁_eq⟩ := heap.exists_modify? (fun a ha => (hbefore a ha).2)
    fun prev => { prev with next := cell.next }
  have hcell₁ : heap₁ item = some cell := by
    rw [heap₁_eq, hcell, Option.map_some, if_neg fun heq => (hbefore item heq).1 rfl]
  obtain ⟨heap₂, hmodify₂, heap₂_eq⟩ := heap₁.exists_modify?
    (p := cell.next) (fun a ha => by
      rw [heap₁_eq, ne_eq, Option.map_eq_none_iff]
      exact (hbehind a ha).2) fun next => { next with prev := cell.prev }
  have hcell₂ : heap₂ item = some cell := by
    rw [heap₂_eq, hcell₁, Option.map_some, if_neg fun heq => (hbehind item heq).1 rfl]
  refine ⟨Function.update heap₂ item none, ?_, fun b hb => ?_⟩
  · simp only [deleteItem, hcell, hmodify₁, hcell₁, hmodify₂, hcell₂, Option.bind_eq_bind,
      Option.bind_some]
    rfl
  · rw [Function.update_of_ne hb, heap₂_eq, heap₁_eq, Option.map_map]
    congr 1
    funext c
    dsimp only [Function.comp_apply]
    split_ifs <;> rfl

/-- **`list_delete_item` takes the item out.** -/
theorem Holds.deleteItem {items₁ items₂ : List (ℕ × ν)} {item : ℕ} {value : ν}
    (h : list.Holds heap (items₁ ++ (item, value) :: items₂)) :
    ∃ list' heap', list.deleteItem heap item = some (list', heap') ∧
      list'.Holds heap' (items₁ ++ items₂) := by
  have hcell := h.cell_eq
  have hlinks := h.links
  rw [List.map_append, List.map_cons] at hlinks
  -- the neighbours are listed, so they are in memory and not the item itself
  have hother : ∀ a ∈ items₁.map Prod.fst ++ items₂.map Prod.fst, a ≠ item ∧ heap a ≠ none :=
    fun a ha => by
      refine ⟨fun heq => ?_, h.live ?_⟩
      · exact (List.nodup_cons.1 (List.perm_middle.nodup_iff.1 hlinks.forward.nodup)).1 (heq ▸ ha)
      · rw [List.map_append, List.map_cons, List.mem_append, List.mem_cons]
        exact (List.mem_append.1 ha).imp_right .inr
  obtain ⟨heap', hdelete, hrest⟩ := deleteItem_writes list hcell
    (fun a ha => hother a (List.mem_append_left _ (List.mem_of_getLast? ha)))
    (fun a ha => hother a (List.mem_append_right _ (List.mem_of_head? ha)))
  refine ⟨_, heap', hdelete, ?_, fun e he => ?_, ?_⟩
  · rw [List.map_append]
    refine hlinks.erase (fun a ha => ?_) (fun a ha => ?_) ?_ ?_
    · obtain ⟨cell, hlive⟩ := Option.ne_none_iff_exists'.1 (hother a ha).2
      rw [hlinks.prev_eq, hlinks.next_eq, ListHeap.next, ListHeap.next, hrest a (hother a ha).1,
        hlive]
      rfl
    · obtain ⟨cell, hlive⟩ := Option.ne_none_iff_exists'.1 (hother a ha).2
      rw [hlinks.prev_eq, hlinks.next_eq, ListHeap.prev, ListHeap.prev, hrest a (hother a ha).1,
        hlive]
      rfl
    · rw [hlinks.next_eq]
    · rw [hlinks.prev_eq]
  · have hmem : e.1 ∈ items₁.map Prod.fst ++ items₂.map Prod.fst := by
      rw [← List.map_append]
      exact List.mem_map_of_mem he
    rw [hrest e.1 (hother e.1 hmem).1, ← h.cells e ?_, Option.map_map]
    · rfl
    · rw [List.mem_append, List.mem_cons]
      exact (List.mem_append.1 he).imp_right .inr
  · have hsize := h.size
    rw [List.length_append, List.length_cons] at hsize
    rw [List.length_append]
    dsimp only
    omega

end LinkedList

end XprcServer
