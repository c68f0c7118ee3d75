import XprcServer.Lists.Prealloc

/-!
# Preallocated lists are sequences

A list stands for the sequence of its items in use, each with its value (`Stands`): appending adds
to its end, deleting an item takes it out, looking up an index finds the item there, and compacting
keeps the values.

* `PreallocList.StandsFor.append`, `StandsFor.deleteItem`, `StandsFor.getItem` : one call.
-/

namespace XprcServer

open Lib

variable {ν δ : Type}

namespace PreallocList

/-- The list stands for the items of a sequence; there are no blocks but those of the list. -/
structure StandsFor (list : PreallocList) (heap : PreallocHeap ν δ)
    (seq : List (ItemAddress × Option ν)) : Prop where
  built : ∃ chain, Built heap list.headBlock list.tailBlock list.firstInUseItem list.lastInUseItem
    chain seq ∧ ∀ b, (heap.shape b).isSome → b ∈ chain
  fresh : heap.Fresh
  size : list.size = seq.length

variable {list : PreallocList} {heap : PreallocHeap ν δ} {seq : List (ItemAddress × Option ν)}

theorem standsFor_create :
    (createPreallocatedList ν δ).1.StandsFor (createPreallocatedList ν δ).2 [] := by
  have hshape : (createPreallocatedList ν δ).2.shape =
      Function.update (fun _ : ℕ => none) 0 (some (none, 0)) := PreallocHeap.createBlock_shape _
  have hitem : ∀ a : ItemAddress, a.1 = 0 →
      (createPreallocatedList ν δ).2.item a = some .zero := by
    intro a ha
    exact (PreallocHeap.createBlock_item _ a).trans (if_pos ha)
  refine ⟨⟨[0], ⟨⟨rfl, ?_⟩, rfl, ?_, doublyLinked_nil, ?_, ?_, ?_⟩, ?_⟩, ?_, rfl⟩
  · rw [linked_nil, PreallocHeap.nextBlock, hshape]
    rfl
  · intro b hb
    rw [List.mem_singleton.1 hb, hshape]
    rfl
  · intro e he
    cases he
  · intro a cell ha hcell hstatus
    rw [hitem a (List.mem_singleton.1 ha)] at hcell
    cases hcell
    cases hstatus
  · exact fun _ _ _ i _ => hitem _ rfl
  · intro b hb
    by_cases h0 : b = 0
    · exact List.mem_singleton.2 h0
    · rw [hshape, Function.update_of_ne h0] at hb
      cases hb
  · intro b hb
    have h0 : b ≠ 0 := by
      have hle : 1 ≤ b := hb
      omega
    rw [hshape, Function.update_of_ne h0]

/-- **A value is appended, unless there is no memory; then nothing has changed.** -/
theorem StandsFor.append (h : list.StandsFor heap seq) (alloc : Bool) (value : Option ν) :
    list.append heap alloc value = some (false, list, heap) ∧ alloc = false ∨
      ∃ item list' heap', list.append heap alloc value = some (true, list', heap') ∧
        item ∉ seq.map Prod.fst ∧ list'.StandsFor heap' (seq ++ [(item, value)]) ∧
        list'.dirty = list.dirty ∧ heap'.destroyed = heap.destroyed ∧ heap.content item = .zero ∧
        heap'.content = Function.update heap.content item ⟨.inUse, value, none⟩ ∧
        ∀ a, heap'.next a = if list.lastInUseItem = some a then some item else heap.next a := by
  obtain ⟨⟨chain, hbuilt, hall⟩, hfresh, hsize⟩ := h
  rcases hbuilt.placeItem hfresh alloc value with ⟨hplace, halloc⟩ |
    ⟨heap', tail', item, chain', hplace, hbuilt', hfresh', hdestroyed, -, hchain,
      hblocks, -, -, -, -, hholds⟩
  · exact .inl ⟨by rw [PreallocList.append, hplace]; rfl, halloc⟩
  · have hnew : item ∉ seq.map Prod.fst := by
      have hnodup := hbuilt'.linked.forward.nodup
      rw [List.map_append] at hnodup
      exact fun hmem => (List.nodup_append.1 hnodup).2.2 item hmem item
        (List.mem_singleton_self item) rfl
    let list' : PreallocList := { list with
      tailBlock := tail'
      lastInUseItem := some item
      firstInUseItem := if list.firstInUseItem = none then some item else list.firstInUseItem
      size := list.size + 1 }
    refine .inr ⟨item, list', heap', by rw [PreallocList.append, hplace]; rfl, hnew,
      ⟨⟨chain', hbuilt', fun b hb => ?_⟩, hfresh', ?_⟩, rfl, hdestroyed, hholds⟩
    · by_contra hb'
      rw [hblocks b hb'] at hb
      rcases hchain with rfl | rfl
      · exact hb' (hall b hb)
      · exact hb' (List.mem_append_left _ (hall b hb))
    · simp [list', hsize]

/-- Taking an item out of the links: its neighbours are linked to each other, and it is marked. -/
theorem unlink_spec {head tail : ℕ} {first last : Option ItemAddress} {chain : List ℕ}
    {before behind : List (ItemAddress × Option ν)} {a : ItemAddress} {value : Option ν}
    (hbuilt : Built heap head tail first last chain (before ++ (a, value) :: behind))
    {cell : PreallocItem ν δ} (hcell : heap.item a = some cell) :
    ∃ heap₁ heap₂ cell₂ heap₃,
      heap.modifyItem a (fun cell => { cell with status := .deleted }) = some heap₁ ∧
      heap₁.modifyItem? cell.prevInUse (fun prev => { prev with nextInUse := cell.nextInUse }) =
        some heap₂ ∧
      heap₂.item a = some cell₂ ∧ cell₂.nextInUse = cell.nextInUse ∧
      cell₂.prevInUse = cell.prevInUse ∧ cell₂.value = cell.value ∧
      heap₂.modifyItem? cell₂.nextInUse (fun next => { next with prevInUse := cell₂.prevInUse }) =
        some heap₃ ∧
      heap.Elsewhere heap₃ ∧ heap₃.shape = heap.shape ∧
      heap₃.item a = some { cell with status := .deleted } ∧
      (∀ c, c ≠ a → heap₃.content c = heap.content c) ∧
      (∀ c, heap₃.next c = if heap.prev a = some c then heap.next a else heap.next c) ∧
      ∀ f heap', heap₃.modifyItem a f = some heap' → (∀ cell, (f cell).status = cell.status) →
        Built heap' head tail (if first = some a then heap.next a else first)
          (if last = some a then heap.prev a else last) chain (before ++ behind) := by
  have hlinked := hbuilt.linked
  rw [List.map_append, List.map_cons] at hlinked
  have hnodup := List.nodup_append.1 hlinked.forward.nodup
  have hnext : cell.nextInUse = heap.next a := by rw [PreallocHeap.next, hcell]; rfl
  have hprev : cell.prevInUse = heap.prev a := by rw [PreallocHeap.prev, hcell]; rfl
  have hprev_mem : ∀ c, heap.prev a = some c → c ∈ before.map Prod.fst := fun c hc =>
    List.mem_of_getLast? (hlinked.prev_eq ▸ hc)
  have hnext_mem : ∀ c, heap.next a = some c → c ∈ behind.map Prod.fst := fun c hc =>
    List.mem_of_mem_head? (hlinked.next_eq ▸ hc)
  have hprev_ne : heap.prev a ≠ some a := fun heq =>
    hnodup.2.2 a (hprev_mem a heq) a List.mem_cons_self rfl
  have hnext_ne : heap.next a ≠ some a := fun heq =>
    (List.nodup_cons.1 hnodup.2.1).1 (hnext_mem a heq)
  have hmem : ∀ c, c ∈ before.map Prod.fst ∨ c ∈ behind.map Prod.fst →
      c ∈ (before ++ (a, value) :: behind).map Prod.fst := by
    intro c hc
    rw [List.map_append, List.map_cons]
    exact hc.elim (List.mem_append_left _)
      fun hc => List.mem_append_right _ (List.mem_cons_of_mem _ hc)
  obtain ⟨heap₁, hmark, helse₁, hshape₁, hitem₁⟩ := PreallocHeap.modifyItem_spec hcell
    (fun cell => { cell with status := .deleted })
  have hkept₁ : ∀ c, c ≠ a → heap₁.item c = heap.item c := fun c hc => by
    rw [hitem₁, Function.update_of_ne hc]
  have hexists₁ : ∀ c, cell.prevInUse = some c → ∃ cell, heap₁.item c = some cell := fun c hc => by
    rw [hprev] at hc
    rw [hkept₁ c fun heq => hprev_ne (heq ▸ hc)]
    exact hbuilt.exists_item (hmem c (.inl (hprev_mem c hc)))
  obtain ⟨heap₂, hbefore, helse₂, hshape₂, hitem₂⟩ := PreallocHeap.modifyItem?_spec hexists₁
    (fun prev => { prev with nextInUse := cell.nextInUse })
  rw [hprev] at hitem₂
  have hself₂ : heap₂.item a = some { cell with status := .deleted } := by
    rw [hitem₂, if_neg hprev_ne, hitem₁, Function.update_self]
  have hexists₂ : ∀ c, cell.nextInUse = some c → ∃ cell, heap₂.item c = some cell := fun c hc => by
    rw [hnext] at hc
    have hca : c ≠ a := fun heq => hnext_ne (heq ▸ hc)
    have hcp : heap.prev a ≠ some c := fun heq =>
      hnodup.2.2 c (hprev_mem c heq) c (List.mem_cons_of_mem _ (hnext_mem c hc)) rfl
    rw [hitem₂, if_neg hcp, hkept₁ c hca]
    exact hbuilt.exists_item (hmem c (.inr (hnext_mem c hc)))
  obtain ⟨heap₃, hbehind, helse₃, hshape₃, hitem₃⟩ := PreallocHeap.modifyItem?_spec hexists₂
    (fun next => { next with prevInUse := cell.prevInUse })
  rw [hnext] at hitem₃
  have hself₃ : heap₃.item a = some { cell with status := .deleted } := by
    rw [hitem₃, if_neg hnext_ne, hself₂]
  have hother₃ : ∀ c cell', c ≠ a → heap.item c = some cell' → heap₃.item c = some { cell' with
      nextInUse := if heap.prev a = some c then heap.next a else cell'.nextInUse
      prevInUse := if heap.next a = some c then heap.prev a else cell'.prevInUse } := by
    intro c cell' hc hcell'
    rw [hitem₃, hitem₂, hkept₁ c hc, hcell', hnext, hprev]
    by_cases hcp : heap.prev a = some c <;> by_cases hcn : heap.next a = some c <;> simp [hcp, hcn]
  have hmissing₃ : ∀ c, c ≠ a → heap.item c = none → heap₃.item c = none := by
    intro c hc hnone
    rw [hitem₃, hitem₂, hkept₁ c hc, hnone]
    simp
  refine ⟨heap₁, heap₂, _, heap₃, hmark, by rw [hbefore], hself₂, rfl, rfl, rfl, hbehind,
    (helse₁.trans helse₂).trans helse₃, (hshape₃.trans hshape₂).trans hshape₁, hself₃,
    fun c hc => ?_, fun c => ?_, ?_⟩
  · cases hcell' : heap.item c with
    | none => rw [PreallocHeap.content, PreallocHeap.content, hmissing₃ c hc hcell', hcell']
    | some cell' =>
      rw [PreallocHeap.content_eq (hother₃ c cell' hc hcell'), PreallocHeap.content_eq hcell']
      rfl
  · by_cases hc : c = a
    · rw [hc, if_neg hprev_ne, PreallocHeap.next_eq hself₃, ← hnext]
    · cases hcell' : heap.item c with
      | none =>
        have hcp : heap.prev a ≠ some c := fun heq => by
          obtain ⟨cell', hcell''⟩ := hbuilt.exists_item (hmem c (.inl (hprev_mem c heq)))
          rw [hcell'] at hcell''
          cases hcell''
        rw [if_neg hcp, PreallocHeap.next, PreallocHeap.next, hmissing₃ c hc hcell', hcell']
      | some cell' =>
        rw [PreallocHeap.next_eq (hother₃ c cell' hc hcell'), PreallocHeap.next_eq hcell']
  intro f heap' hmodify hstatus
  obtain ⟨heap'', hmodify', -, hshape', hitem'⟩ := PreallocHeap.modifyItem_spec hself₃ f
  obtain rfl : heap'' = heap' := Option.some.inj (hmodify'.symm.trans hmodify)
  refine hbuilt.erase (((hshape'.trans hshape₃).trans hshape₂).trans hshape₁) ?_ ?_ ?_
  · intro cell' hcell'
    rw [hitem', Function.update_self] at hcell'
    obtain rfl := Option.some.inj hcell'
    rw [hstatus]
    simp
  · intro c cell' hc hcell'
    rw [hitem', Function.update_of_ne hc, hother₃ c cell' hc hcell']
    exact ⟨_, rfl, rfl, rfl, rfl, rfl⟩
  · intro c hc
    rw [List.map_append, List.map_cons, List.mem_append, List.mem_cons, not_or, not_or] at hc
    have hcp : heap.prev a ≠ some c := fun heq => hc.1 (hprev_mem c heq)
    have hcn : heap.next a ≠ some c := fun heq => hc.2.2 (hnext_mem c heq)
    rw [hitem', Function.update_of_ne hc.2.1, hitem₃, if_neg hcn, hitem₂, if_neg hcp,
      hkept₁ c hc.2.1]

/-- Items on the way to an index are passed one by one. -/
theorem getItemLoop_eq {l : List ItemAddress} {p : Option ItemAddress}
    (h : Linked heap.next p l) (hitems : ∀ a ∈ l, ∃ cell, heap.item a = some cell) (index : ℕ) :
    getItemLoop heap index p = some l[index]? := by
  induction index generalizing p l with
  | zero =>
    rw [getItemLoop, h.eq_head, List.head?_eq_getElem?]
  | succ index ih =>
    cases l with
    | nil =>
      obtain rfl : p = none := h
      rfl
    | cons a l =>
      obtain ⟨rfl, hrest⟩ := h
      obtain ⟨cell, hcell⟩ := hitems a List.mem_cons_self
      rw [PreallocHeap.next, hcell, Option.bind_some] at hrest
      rw [getItemLoop, hcell, Option.bind_eq_bind, Option.bind_some, List.getElem?_cons_succ]
      exact ih hrest fun b hb => hitems b (List.mem_cons_of_mem a hb)

/-- **An index is looked up in the sequence.** -/
theorem StandsFor.getItem (h : list.StandsFor heap seq) (index : ℤ) :
    list.getItem heap index =
      some (if 0 ≤ index then (seq.map Prod.fst)[index.toNat]? else none) := by
  obtain ⟨⟨chain, hbuilt, -⟩, -, hsize⟩ := h
  rw [PreallocList.getItem, hsize]
  by_cases hneg : index < 0
  · rw [if_pos (.inl hneg), if_neg (by omega)]
  · rw [if_pos (Int.not_lt.1 hneg)]
    by_cases hlong : (seq.length : ℤ) ≤ index
    · rw [if_pos (.inr hlong), List.getElem?_eq_none (by rw [List.length_map]; omega)]
    · rw [if_neg (not_or.2 ⟨hneg, hlong⟩)]
      exact getItemLoop_eq hbuilt.linked.forward (fun a ha => hbuilt.exists_item ha) _

/-- **An item in use is taken out of the sequence; any other one is refused, and nothing has
changed.** -/
theorem StandsFor.deleteItem (h : list.StandsFor heap seq) {a : ItemAddress}
    (ha : (heap.shape a.1).isSome) (valueDestructor : Option δ) (deferDestruction : Bool) :
    (∃ before value behind, seq = before ++ (a, value) :: behind ∧
      ∃ list' heap', list.deleteItem heap (some a) valueDestructor deferDestruction =
          some (true, list', heap') ∧ list'.StandsFor heap' (before ++ behind) ∧
          list'.dirty = true ∧
        heap'.content = Function.update heap.content a (if deferDestruction then
          ⟨.deleted, value, valueDestructor⟩ else
          ⟨.deleted, none, (heap.content a).valueDestructor⟩) ∧
        heap'.destroyed = heap.destroyed ++ (if deferDestruction then [] else
          valueDestructor.toList.map fun destructor => (destructor, value)) ∧
        ∀ c, heap'.next c = if heap.prev a = some c then heap.next a else heap.next c) ∨
      a ∉ seq.map Prod.fst ∧
        list.deleteItem heap (some a) valueDestructor deferDestruction =
          some (false, list, heap) := by
  obtain ⟨cell, hcell⟩ := PreallocHeap.item_of_shape ha
  by_cases hstatus : cell.status = .inUse
  · have hmem : a ∈ seq.map Prod.fst := by
      obtain ⟨⟨chain, hbuilt, hall⟩, -, -⟩ := h
      exact hbuilt.inUse a cell (hall a.1 ha) hcell hstatus
    obtain ⟨⟨a', value⟩, he, rfl⟩ := List.mem_map.1 hmem
    obtain ⟨before, behind, rfl⟩ := List.append_of_mem he
    refine .inl ⟨before, value, behind, rfl, ?_⟩
    have hnext : cell.nextInUse = heap.next a' := by rw [PreallocHeap.next, hcell]; rfl
    have hprev : cell.prevInUse = heap.prev a' := by rw [PreallocHeap.prev, hcell]; rfl
    obtain ⟨⟨chain, hbuilt, hall⟩, hfresh, hsize⟩ := h
    have hvalue : cell.value = value := by
      obtain ⟨-, cell', hcell', -, hvalue⟩ := hbuilt.live (a', value) he
      rw [hcell] at hcell'
      rw [Option.some.inj hcell', hvalue]
    obtain ⟨heap₁, heap₂, cell₂, heap₃, hmark, hbefore, hself₂, hnext₂, hprev₂, hvalue₂, hbehind,
      helse₃, hshape₃, hself₃, hcontent₃, hnext₃, herase⟩ := unlink_spec hbuilt hcell
    -- what is assigned last, to the value or its destructor, does not matter
    have hstands : ∀ f : PreallocItem ν δ → PreallocItem ν δ,
        (∀ cell, (f cell).status = cell.status) →
        (∀ cell, (f cell).nextInUse = cell.nextInUse) →
        ∃ heap', heap₃.modifyItem a' f = some heap' ∧ (∀ destroyed, StandsFor
          ⟨list.size - 1, true,
            if list.firstInUseItem = some a' then cell.nextInUse else list.firstInUseItem,
            if list.lastInUseItem = some a' then cell.prevInUse else list.lastInUseItem,
            list.headBlock, list.tailBlock⟩
          { heap' with destroyed } (before ++ behind)) ∧ heap'.destroyed = heap.destroyed ∧
          heap'.content = Function.update heap.content a'
            (f { cell with status := .deleted }).content ∧
          ∀ c, heap'.next c = if heap.prev a' = some c then heap.next a' else heap.next c := by
      intro f hf hfnext
      obtain ⟨heap', hmodify, helse, hshape, hitem⟩ := PreallocHeap.modifyItem_spec hself₃ f
      have hshape' := hshape.trans hshape₃
      refine ⟨heap', hmodify, fun destroyed => ⟨⟨chain, ?_, fun b hb => hall b ?_⟩,
        fun b hb => ?_, ?_⟩, helse.destroyed.trans helse₃.destroyed, funext fun c =>
          ?_, fun c => ?_⟩
      · rw [hnext, hprev]
        exact (herase f heap' hmodify hf).congr (fun _ _ => rfl) fun _ _ => rfl
      · rwa [← hshape']
      · refine (congrFun hshape' b).trans (hfresh b ?_)
        rwa [← helse₃.unused, ← helse.unused]
      · simp only [hsize, List.length_append, List.length_cons]
        omega
      · by_cases hc : c = a'
        · rw [hc, Function.update_self, PreallocHeap.content, hitem, Function.update_self]
          rfl
        · rw [Function.update_of_ne hc, ← hcontent₃ c hc, PreallocHeap.content, hitem,
            Function.update_of_ne hc]
          rfl
      · rw [← hnext₃, PreallocHeap.next, hitem, PreallocHeap.next]
        by_cases hc : c = a'
        · rw [hc, Function.update_self, hself₃, Option.bind_some, Option.bind_some, hfnext]
        · rw [Function.update_of_ne hc]
    cases deferDestruction with
    | true =>
      obtain ⟨heap', hmodify, hstands', hdestroyed, hcontent, hnext'⟩ :=
        hstands (fun cell => { cell with valueDestructor }) (fun _ => rfl) fun _ => rfl
      refine ⟨_, heap', ?_, hstands' heap'.destroyed, rfl, ?_, ?_, hnext'⟩
      rotate_left
      · rw [hcontent, if_pos rfl, ← hvalue]
        rfl
      · rw [hdestroyed, if_pos rfl, List.append_nil]
      simp only [PreallocList.deleteItem, hcell, Option.bind_eq_bind, Option.bind_some,
        hstatus, ne_eq, not_true_eq_false, if_false, hmark, hbefore, hself₂,
        hbehind, hmodify, if_true]
      rfl
    | false =>
      obtain ⟨heap', hmodify, hstands', hdestroyed, hcontent, hnext'⟩ :=
        hstands (fun cell => { cell with value := none }) (fun _ => rfl) fun _ => rfl
      refine ⟨_, _, ?_, hstands' (heap'.destroyed ++
        valueDestructor.toList.map fun destructor => (destructor, cell₂.value)), rfl, ?_, ?_,
        hnext'⟩
      rotate_left
      · rw [if_neg Bool.false_ne_true, PreallocHeap.content_eq hcell]
        exact hcontent
      · rw [if_neg Bool.false_ne_true, hdestroyed, hvalue₂, hvalue]
      simp only [PreallocList.deleteItem, hcell, Option.bind_eq_bind, Option.bind_some,
        hstatus, ne_eq, not_true_eq_false, if_false, hmark, hbefore, hself₂, hbehind, hmodify,
        Bool.false_eq_true]
      rfl
  · refine .inr ⟨fun hmem => hstatus ?_, ?_⟩
    · obtain ⟨e, he, rfl⟩ := List.mem_map.1 hmem
      obtain ⟨⟨chain, hbuilt, -⟩, -, -⟩ := h
      obtain ⟨-, cell', hcell', hstatus', -⟩ := hbuilt.live e he
      rw [hcell] at hcell'
      rw [Option.some.inj hcell', hstatus']
    · simp [PreallocList.deleteItem, hcell, hstatus]

end PreallocList

end XprcServer
