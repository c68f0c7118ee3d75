import XprcServer.Channels.Basic
import XprcServer.Decimal
import XprcServer.Hashmap
import XprcServer.Lib.Links
import XprcServer.Lib.Refinement

/-!
# Hash maps in memory

`hashmap.c` with its items where they are: allocated one by one, each with a pointer to the next
item of the same hash, and found through a pointer to such a pointer when one is added.

* `MapMemory.Represents` : the chains of items are those of a `Hashmap`;
* `Represents.get`, `Represents.put` : looking up and storing are those of the `Hashmap`;
* `hashmap_refines_map` : whatever is stored, the memory answers as a finite map.
-/

namespace XprcServer

open Lib

/-- `hashmap_item_t` -/
structure HashmapItem (ν : Type) where
  key : List UInt8
  value : Option ν
  next : Option ℕ

/-- A `hashmap_t` and the items allocated for it. -/
structure MapMemory (ν : Type) where
  items : UInt16 → Option ℕ
  cells : ℕ → Option (HashmapItem ν)
  /-- the address of the next allocation -/
  unused : ℕ

/-- What a `hashmap_item_t **` points to: the root of a hash, or the link of an item. -/
inductive MapReference where
  | root (hash : UInt16)
  | next (item : ℕ)

/-- `strcmp` finds no difference. -/
def sameString (s t : List UInt8) : Bool := cString s = cString t

namespace MapMemory

variable {ν : Type}

/-- `create_hashmap` when it succeeds -/
def create : MapMemory ν := ⟨fun _ => none, fun _ => none, 0⟩

section

variable (m : MapMemory ν)

/-- `*reference`; there is no item outside of the allocated ones. -/
def read : MapReference → Access (Option ℕ)
  | .root hash => some (m.items hash)
  | .next item => do
    let cell ← m.cells item
    return cell.next

theorem read_root (hash : UInt16) : m.read (.root hash) = some (m.items hash) := rfl

/-- `*reference = item` -/
def write (item : ℕ) : MapReference → Access (MapMemory ν)
  | .root hash => some { m with items := Function.update m.items hash (some item) }
  | .next item' => do
    let cell ← m.cells item'
    return { m with cells := Function.update m.cells item' (some { cell with next := some item }) }

/-- The loop of `hashmap_get` from an item on; it must end within as many passes. -/
def getLoop (key : List UInt8) : ℕ → Option ℕ → Access (Option ν)
  | _, none => some none
  | 0, some _ => none
  | fuel + 1, some item => do
    let cell ← m.cells item
    if sameString cell.key key then return cell.value
    getLoop key fuel cell.next

/-- `hashmap_get`; no chain has more items than have been allocated. -/
def get (key : List UInt8) : Access (Option ν) :=
  m.getLoop key m.unused (m.items (computeHash (cString key)))

/-- The loop of `hashmap_put`: the item with an equal key, or the pointer at the end of the
chain. -/
def putLoop (key : List UInt8) (fuel : ℕ) (reference : MapReference) :
    Access (ℕ ⊕ MapReference) := do
  match ← m.read reference with
  | none => return .inr reference
  | some item =>
    match fuel with
    | 0 => none
    | fuel + 1 =>
      let cell ← m.cells item
      if sameString cell.key key then return .inl item
      putLoop key fuel (.next item)

/-- `hashmap_put`, with the outcomes of the allocations of an item and of its key.  Returns the
result and what is in `*old_value` afterwards. -/
def put (allocItem allocKey : Bool) (key : List UInt8) (value oldValue : Option ν) :
    Access ((Bool × Option ν) × MapMemory ν) := do
  match ← m.putLoop key m.unused (.root (computeHash (cString key))) with
  | .inl item =>
    let cell ← m.cells item
    return ((true, cell.value),
      { m with cells := Function.update m.cells item (some { cell with value := value }) })
  | .inr reference =>
    if !allocItem then return ((false, oldValue), m)
    -- the item is freed again if there is no memory for its key
    if !allocKey then return ((false, oldValue), m)
    let cells := Function.update m.cells m.unused (some ⟨cString key, value, none⟩)
    let m' ← { m with cells, unused := m.unused + 1 }.write m.unused reference
    return ((true, oldValue), m')

/-- The indices of the root items. -/
def hashes : List UInt16 := (List.range (2 ^ 16)).map UInt16.ofNat

/-- The keys in the chain from an item on, appended to `out`; the walk breaks off when the
allocation for a list item fails. -/
def referenceChain (alloc : ℕ → Bool) : ℕ → Option ℕ → Bool × List (List UInt8) →
    Access (Bool × List (List UInt8))
  | _, none, out => some out
  | 0, some _, _ => none
  | fuel + 1, some item, out => do
    let cell ← m.cells item
    if !alloc (out.2.length + 1) then return (false, out.2)
    referenceChain alloc fuel cell.next (out.1, out.2 ++ [cell.key])

/-- `hashmap_reference_keys`; `alloc` has the outcomes of the allocations of the list and its
items. -/
def referenceKeys (alloc : ℕ → Bool) : Access (Option (List (List UInt8))) :=
  if !alloc 0 then some none
  else do
    let (success, out) ← hashes.foldlM
      (fun out hash => m.referenceChain alloc m.unused (m.items hash) out) (true, [])
    return if success then some out else none

/-- `hashmap_copy_keys`; `allocCopy` has the outcomes of the allocations of the copies. -/
def copyKeys (alloc allocCopy : ℕ → Bool) : Access (Option (List (List UInt8))) := do
  match ← m.referenceKeys alloc with
  | none => return none
  | some keys =>
    return if (List.range keys.length).all allocCopy then some (keys.map cString) else none

/-- The items of a chain up to the first one that satisfies a predicate. -/
def findChain (predicate : List UInt8 → Option ν → Bool) : ℕ → Option ℕ → Access (Option ℕ)
  | _, none => some none
  | 0, some _ => none
  | fuel + 1, some item => do
    let cell ← m.cells item
    if predicate cell.key cell.value then return some item
    findChain predicate fuel cell.next

/-- `hashmap_find_first` -/
def findFirst (predicate : List UInt8 → Option ν → Bool) : Access (Option ℕ) :=
  hashes.foldlM (fun found hash =>
    match found with
    | some item => some (some item)
    | none => m.findChain predicate m.unused (m.items hash)) none

end

/-! ### Chains of items -/

/-- The link of an item. -/
def link (m : MapMemory ν) (item : ℕ) : Option ℕ := (m.cells item).bind HashmapItem.next

/-- The key and the value of an item. -/
def entry (m : MapMemory ν) (item : ℕ) : Option (List UInt8 × Option ν) :=
  (m.cells item).map fun cell => (cell.key, cell.value)

/-- From a pointer on there are these items with these entries. -/
structure Chained (m : MapMemory ν) (p : Option ℕ) (l : List ℕ)
    (chain : List (List UInt8 × Option ν)) : Prop where
  linked : Linked m.link p l
  entries : l.map m.entry = chain.map some

section

variable {m m' : MapMemory ν} {p : Option ℕ} {l : List ℕ} {chain : List (List UInt8 × Option ν)}
  {key : List UInt8} {fuel : ℕ}

theorem Chained.eq_nil (h : m.Chained p [] chain) : p = none ∧ chain = [] :=
  ⟨h.linked, List.map_eq_nil_iff.1 h.entries.symm⟩

theorem Chained.cons {a : ℕ} (h : m.Chained p (a :: l) chain) :
    ∃ cell chain', p = some a ∧ m.cells a = some cell ∧
      chain = (cell.key, cell.value) :: chain' ∧ m.Chained cell.next l chain' := by
  obtain ⟨⟨rfl, hlinked⟩, hentries⟩ := h
  cases chain with
  | nil => cases hentries
  | cons e chain' =>
    obtain ⟨hentry, hrest⟩ := List.cons.inj hentries
    cases hcell : m.cells a with
    | none => simp [entry, hcell] at hentry
    | some cell =>
      simp only [entry, hcell, Option.map_some, Option.some.injEq] at hentry
      simp only [link, hcell, Option.bind_some] at hlinked
      exact ⟨cell, chain', rfl, rfl, by rw [hentry], hlinked, hrest⟩

theorem Chained.entry_mem {a : ℕ} (h : m.Chained p l chain) (ha : a ∈ l) :
    ∃ e ∈ chain, m.entry a = some e := by
  have hmem : m.entry a ∈ chain.map some := h.entries ▸ List.mem_map_of_mem ha
  obtain ⟨e, he, heq⟩ := List.mem_map.1 hmem
  exact ⟨e, he, heq.symm⟩

/-- Items that are as they were are chained as they were. -/
theorem Chained.congr (h : m.Chained p l chain) (hcells : ∀ a ∈ l, m'.cells a = m.cells a) :
    m'.Chained p l chain where
  linked := h.linked.congr fun a ha => by rw [link, link, hcells a ha]
  entries := by
    rw [← h.entries]
    exact List.map_congr_left fun a ha => by rw [entry, entry, hcells a ha]

theorem sameString_eq {s : List UInt8} (hs : cString s = s) (t : List UInt8) :
    sameString s t = decide (s = cString t) := by
  rw [sameString, hs]

/-- The loop of `hashmap_get` finds what stands first for the key. -/
theorem getLoop_eq (h : m.Chained p l chain) (hkeys : ∀ e ∈ chain, cString e.1 = e.1)
    (hfuel : l.length ≤ fuel) :
    m.getLoop key fuel p = some ((Buckets.getIn (cString key) chain).join) := by
  induction l generalizing p chain fuel with
  | nil =>
    obtain ⟨rfl, rfl⟩ := h.eq_nil
    cases fuel <;> rfl
  | cons a l ih =>
    obtain ⟨cell, chain, rfl, hcell, rfl, hrest⟩ := h.cons
    rw [List.forall_mem_cons] at hkeys
    obtain ⟨fuel, rfl, hle⟩ := exists_fuel hfuel
    simp only [getLoop, hcell, Option.bind_eq_bind, Option.bind_some, sameString_eq hkeys.1,
      decide_eq_true_eq, Buckets.getIn]
    split_ifs with heq
    · rfl
    · exact ih hrest hkeys.2 hle

/-- The loop of `hashmap_put` stops at the item with the key. -/
theorem putLoop_found {before behind : List (List UInt8 × Option ν)} {old : Option ν}
    {reference : MapReference} (hread : m.read reference = some p)
    (h : m.Chained p l (before ++ (cString key, old) :: behind))
    (hkeys : ∀ e ∈ before ++ (cString key, old) :: behind, cString e.1 = e.1)
    (hbefore : ∀ e ∈ before, e.1 ≠ cString key) (hfuel : l.length ≤ fuel) :
    ∃ l₁ a l₂, l = l₁ ++ a :: l₂ ∧ l₁.length = before.length ∧
      m.putLoop key fuel reference = some (.inl a) := by
  induction before generalizing p l fuel reference with
  | nil =>
    cases l with
    | nil => exact absurd h.eq_nil.2 (by simp)
    | cons a l =>
      obtain ⟨cell, chain, rfl, hcell, heq, hrest⟩ := h.cons
      obtain ⟨fuel, rfl, hle⟩ := exists_fuel hfuel
      have hkey : cell.key = cString key := (Prod.mk.inj (List.cons.inj heq).1).1.symm
      refine ⟨[], a, l, rfl, rfl, ?_⟩
      rw [putLoop, hread]
      simp [hcell, sameString, hkey, hkeys _ List.mem_cons_self]
  | cons e before ih =>
    cases l with
    | nil => exact absurd h.eq_nil.2 (by simp)
    | cons a l =>
      obtain ⟨cell, chain, rfl, hcell, heq, hrest⟩ := h.cons
      obtain ⟨fuel, rfl, hle⟩ := exists_fuel hfuel
      rw [List.cons_append, List.cons.injEq] at heq
      obtain ⟨rfl, rfl⟩ := heq
      rw [List.cons_append, List.forall_mem_cons] at hkeys
      rw [List.forall_mem_cons] at hbefore
      have hnext : m.read (.next a) = some cell.next := by rw [read, hcell]; rfl
      obtain ⟨l₁, b, l₂, rfl, hlen, hloop⟩ := ih hnext hrest hkeys.2 hbefore.2 hle
      refine ⟨a :: l₁, b, l₂, rfl, congrArg (· + 1) hlen, ?_⟩
      rw [putLoop, hread]
      simp only [Option.bind_eq_bind, Option.bind_some, hcell, sameString_eq hkeys.1, hbefore.1,
        decide_false, Bool.false_eq_true, if_false, hloop]

/-- The loop of `hashmap_put` goes to the end of a chain without the key. -/
theorem putLoop_free {reference : MapReference} (hread : m.read reference = some p)
    (h : m.Chained p l chain) (hkeys : ∀ e ∈ chain, cString e.1 = e.1)
    (hnone : ∀ e ∈ chain, e.1 ≠ cString key) (hfuel : l.length ≤ fuel) :
    m.putLoop key fuel reference = some (.inr ((l.getLast?.map .next).getD reference)) := by
  induction l generalizing p chain fuel reference with
  | nil =>
    obtain ⟨rfl, rfl⟩ := h.eq_nil
    rw [putLoop, hread]
    rfl
  | cons a l ih =>
    obtain ⟨cell, chain, rfl, hcell, rfl, hrest⟩ := h.cons
    rw [List.forall_mem_cons] at hkeys hnone
    obtain ⟨fuel, rfl, hle⟩ := exists_fuel hfuel
    have hnext : m.read (.next a) = some cell.next := by rw [read, hcell]; rfl
    have hlast : ((a :: l).getLast?.map MapReference.next).getD reference =
        (l.getLast?.map .next).getD (.next a) := by
      cases l with
      | nil => rfl
      | cons b l =>
        rw [List.getLast?_cons_cons]
        cases hlast : (b :: l).getLast? with
        | none => exact absurd (List.getLast?_eq_none_iff.1 hlast) (List.cons_ne_nil b l)
        | some c => rfl
    rw [putLoop, hread, hlast, ← ih hnext hrest hkeys.2 hnone.2 hle]
    simp only [Option.bind_eq_bind, Option.bind_some, hcell, sameString_eq hkeys.1, hnone.1,
      decide_false, Bool.false_eq_true, if_false]

end

/-! ### The map in memory -/

/-- The memory holds the chains of a map: keys are strings without NUL, each in the chain of its
hash and only once, and addresses are allocated in order. -/
structure Represents (m : MapMemory ν) (map : Hashmap (Option ν)) : Prop where
  chained : ∀ hash, ∃ l, m.Chained (m.items hash) l (map.chains hash)
  keys : ∀ hash, ∀ e ∈ map.chains hash, cString e.1 = e.1
  proper : Buckets.Proper computeHash map
  unused : ∀ a, m.unused ≤ a → m.cells a = none

theorem represents_create : (create : MapMemory ν).Represents Buckets.empty where
  chained _ := ⟨[], rfl, rfl⟩
  keys _ _ h := nomatch h
  proper := Buckets.proper_empty
  unused _ _ := rfl

section

variable {m : MapMemory ν} {map : Hashmap (Option ν)} {key : List UInt8} {hash hash' : UInt16}
  {l l' : List ℕ} {chain : List (List UInt8 × Option ν)}

theorem Represents.lt_unused (h : m.Represents map) {p : Option ℕ} (hl : m.Chained p l chain)
    {a : ℕ} (ha : a ∈ l) : a < m.unused := by
  obtain ⟨e, -, he⟩ := hl.entry_mem ha
  refine Nat.lt_of_not_le fun hle => ?_
  rw [entry, h.unused a hle] at he
  cases he

theorem Represents.length_le (h : m.Represents map) {p : Option ℕ} (hl : m.Chained p l chain) :
    l.length ≤ m.unused := hl.linked.length_le fun _ => h.lt_unused hl

/-- No item is in two chains. -/
theorem Represents.separate (h : m.Represents map)
    (hl : m.Chained (m.items hash) l (map.chains hash))
    (hl' : m.Chained (m.items hash') l' (map.chains hash')) {a : ℕ} (ha : a ∈ l) (ha' : a ∈ l') :
    hash = hash' := by
  obtain ⟨e, he, hentry⟩ := hl.entry_mem ha
  obtain ⟨e', he', hentry'⟩ := hl'.entry_mem ha'
  obtain rfl : e = e' := Option.some.inj (hentry.symm.trans hentry')
  rw [← h.proper.hashed hash e he, h.proper.hashed hash' e he']

theorem cString_idem (s : List UInt8) : cString (cString s) = cString s :=
  cString_eq_self (zero_not_mem_cString s)

theorem Represents.get (h : m.Represents map) (key : List UInt8) :
    m.get key = some (map.get key).join := by
  obtain ⟨l, hl⟩ := h.chained (computeHash (cString key))
  exact getLoop_eq hl (h.keys _) (h.length_le hl)

/-- The chain of a key after something is stored for it, and the others as they were. -/
theorem Represents.of_put (h : m.Represents map) {m' : MapMemory ν} {value : Option ν} {l' : List ℕ}
    (hown : m'.Chained (m'.items (computeHash (cString key))) l'
      (Buckets.putIn (cString key) value (map.chains (computeHash (cString key)))))
    (hother : ∀ hash, hash ≠ computeHash (cString key) → m'.items hash = m.items hash ∧
      ∀ l, m.Chained (m.items hash) l (map.chains hash) → ∀ a ∈ l, m'.cells a = m.cells a)
    (hunused : ∀ a, m'.unused ≤ a → m'.cells a = none) : m'.Represents (map.put key value) where
  chained hash := by
    by_cases heq : hash = computeHash (cString key)
    · subst heq
      exact ⟨l', by rwa [Hashmap.put, Buckets.put_chains_self]⟩
    · obtain ⟨hitems, hcells⟩ := hother hash heq
      obtain ⟨l, hl⟩ := h.chained hash
      refine ⟨l, ?_⟩
      rw [Hashmap.put, Buckets.put_chains_of_ne _ _ _ _ heq, hitems]
      exact hl.congr (hcells l hl)
  keys hash e he := by
    by_cases heq : hash = computeHash (cString key)
    · subst heq
      rw [Hashmap.put, Buckets.put_chains_self] at he
      rcases Buckets.mem_putIn he with hkey | he
      · rw [hkey, cString_idem]
      · exact h.keys _ e he
    · rw [Hashmap.put, Buckets.put_chains_of_ne _ _ _ _ heq] at he
      exact h.keys hash e he
  proper := h.proper.put _ _
  unused := hunused

/-- The value of an item is replaced, wherever it stands in its chain. -/
theorem Represents.replace (h : m.Represents map) {before behind : List (List UInt8 × Option ν)}
    {old value : Option ν} {l₁ l₂ : List ℕ} {a : ℕ} {cell : HashmapItem ν} (m' : MapMemory ν)
    (hchain : map.chains (computeHash (cString key)) = before ++ (cString key, old) :: behind)
    (hbefore : ∀ e ∈ before, e.1 ≠ cString key)
    (hl : m.Chained (m.items (computeHash (cString key))) (l₁ ++ a :: l₂)
      (before ++ (cString key, old) :: behind))
    (hlen : l₁.length = before.length) (hcell : m.cells a = some cell)
    (hitems : m'.items = m.items) (hunused : m'.unused = m.unused)
    (hself : m'.cells a = some { cell with value := value })
    (hcells : ∀ c, c ≠ a → m'.cells c = m.cells c) :
    cell.value = old ∧ m'.Represents (map.put key value) := by
  obtain ⟨-, hnodup, hdisjoint⟩ := List.nodup_append.1 hl.linked.nodup
  have ha₂ : a ∉ l₂ := (List.nodup_cons.1 hnodup).1
  have hentries := hl.entries
  rw [List.map_append, List.map_append, List.map_cons, List.map_cons] at hentries
  obtain ⟨hentries₁, hentries₂⟩ := List.append_inj hentries (by simpa using hlen)
  obtain ⟨hentry, hentries₂⟩ := List.cons.inj hentries₂
  rw [entry, hcell, Option.map_some, Option.some.injEq, Prod.mk.injEq] at hentry
  refine ⟨hentry.2, h.of_put (show m'.Chained _ (l₁ ++ a :: l₂) _ from ⟨?_, ?_⟩)
    (fun hash' hne => ⟨by rw [hitems], ?_⟩) ?_⟩
  · rw [hitems]
    refine hl.linked.congr fun c _ => ?_
    by_cases hc : c = a
    · subst hc
      rw [link, link, hself, hcell]
      rfl
    · rw [link, link, hcells c hc]
  · rw [hchain, Buckets.putIn_split hbefore, List.map_append, List.map_append, List.map_cons,
      List.map_cons, ← hentries₁, ← hentries₂]
    congr 1
    · exact List.map_congr_left fun c hc => by
        rw [entry, entry, hcells c (hdisjoint c hc a List.mem_cons_self)]
    · congr 1
      · rw [entry, hself, Option.map_some, hentry.1]
      · exact List.map_congr_left fun c hc => by
          rw [entry, entry, hcells c fun heq => ha₂ (heq ▸ hc)]
  · intro l' hl' c hc
    refine hcells c fun heq => hne ?_
    subst heq
    exact h.separate hl' (hchain ▸ hl) hc (List.mem_append_right _ List.mem_cons_self)
  · intro c hc
    have hlt : a < m.unused := h.lt_unused hl (List.mem_append_right _ List.mem_cons_self)
    rw [hunused] at hc
    rw [hcells c (by omega)]
    exact h.unused c hc

/-- A stored value is replaced and reported, without an allocation. -/
theorem Represents.put_present (h : m.Represents map) {old : Option ν}
    (hget : map.get key = some old) (allocItem allocKey : Bool) (value oldValue : Option ν) :
    ∃ m', m.put allocItem allocKey key value oldValue = some ((true, old), m') ∧
      m'.Represents (map.put key value) := by
  obtain ⟨l, hl⟩ := h.chained (computeHash (cString key))
  have hkeys := h.keys (computeHash (cString key))
  rw [Hashmap.get, Buckets.get] at hget
  rcases Buckets.split_or_not_mem (cString key) (map.chains (computeHash (cString key))) with
    ⟨before, old', behind, hchain, hbefore⟩ | hnone
  · rw [hchain, Buckets.getIn_split hbefore] at hget
    obtain rfl : old' = old := Option.some.inj hget
    rw [hchain] at hl hkeys
    obtain ⟨l₁, a, l₂, rfl, hlen, hloop⟩ := putLoop_found (m.read_root _) hl hkeys hbefore
      (h.length_le hl)
    obtain ⟨e, -, hentry⟩ := hl.entry_mem (List.mem_append_right l₁ List.mem_cons_self)
    obtain ⟨cell, hcell, -⟩ := Option.map_eq_some_iff.1 hentry
    obtain ⟨rfl, hrepresents⟩ := h.replace { m with
      cells := Function.update m.cells a (some { cell with value := value }) }
      hchain hbefore hl hlen hcell rfl rfl (Function.update_self _ _ _)
      fun c hc => Function.update_of_ne hc _ _
    refine ⟨_, ?_, hrepresents⟩
    simp only [MapMemory.put, hloop, Option.bind_eq_bind, Option.bind_some, hcell]
    rfl
  · rw [Buckets.getIn_eq_none hnone] at hget
    cases hget

theorem Represents.put_failed (h : m.Represents map) (hget : map.get key = none)
    {allocItem allocKey : Bool} (halloc : (allocItem && allocKey) = false)
    (value oldValue : Option ν) :
    m.put allocItem allocKey key value oldValue = some ((false, oldValue), m) := by
  obtain ⟨l, hl⟩ := h.chained (computeHash (cString key))
  have hkeys := h.keys (computeHash (cString key))
  rw [Hashmap.get, Buckets.get] at hget
  rcases Buckets.split_or_not_mem (cString key) (map.chains (computeHash (cString key))) with
    ⟨before, old', behind, hchain, hbefore⟩ | hnone
  · rw [hchain, Buckets.getIn_split hbefore] at hget
    cases hget
  · have hloop := putLoop_free (m.read_root _) hl hkeys hnone (h.length_le hl)
    simp only [MapMemory.put, hloop, Option.bind_eq_bind, Option.bind_some]
    cases allocItem with
    | false => rfl
    | true =>
      obtain rfl : allocKey = false := halloc
      rfl

/-- A new item behind the last one of a chain, or at its root: what `*reference = item` changes. -/
theorem Represents.write_last (h : m.Represents map)
    (hl : m.Chained (m.items hash) l chain) (item : HashmapItem ν) :
    ∃ m', write { m with
          cells := Function.update m.cells m.unused (some item)
          unused := m.unused + 1 } m.unused ((l.getLast?.map .next).getD (.root hash)) = some m' ∧
      m'.unused = m.unused + 1 ∧ m'.cells m.unused = some item ∧
      m'.items hash = (if l = [] then some m.unused else m.items hash) ∧
      (∀ hash', hash' ≠ hash → m'.items hash' = m.items hash') ∧
      (∀ c, c ≠ m.unused → l.getLast? ≠ some c → m'.cells c = m.cells c) ∧
      ∀ c cell, l.getLast? = some c → m.cells c = some cell →
        m'.cells c = some { cell with next := some m.unused } := by
  rcases List.eq_nil_or_concat' l with rfl | ⟨l, b, rfl⟩
  · refine ⟨_, rfl, rfl, Function.update_self _ _ _, Function.update_self _ _ _,
      fun hash' hne => Function.update_of_ne hne _ _, fun c hc _ =>
        Function.update_of_ne hc _ _, ?_⟩
    rintro c cell ⟨⟩
  · have hb : b ∈ l ++ [b] := List.mem_append_right _ (List.mem_singleton_self b)
    have hne : b ≠ m.unused := Nat.ne_of_lt (h.lt_unused hl hb)
    obtain ⟨e, -, hentry⟩ := hl.entry_mem hb
    obtain ⟨cell, hcell, -⟩ := Option.map_eq_some_iff.1 hentry
    refine ⟨⟨m.items, Function.update (Function.update m.cells m.unused (some item)) b
      (some { cell with next := some m.unused }), m.unused + 1⟩, ?_, rfl, ?_, ?_, fun _ _ => rfl,
      ?_, ?_⟩
    · simp only [List.getLast?_append, List.getLast?_singleton, Option.some_or, Option.map_some,
        Option.getD_some, write, Function.update_of_ne hne, hcell, Option.bind_eq_bind,
        Option.bind_some]
      rfl
    · simp [hne.symm]
    · simp
    · intro c hc hlast
      have hcb : c ≠ b := fun heq => hlast (by simp [heq])
      simp [hc, hcb]
    · intro c cell' hlast hcell'
      obtain rfl : b = c := by simpa using hlast
      obtain rfl : cell = cell' := Option.some.inj (hcell.symm.trans hcell')
      simp

/-- With memory for it a new item is added, and `*old_value` stays as it was. -/
theorem Represents.put_absent (h : m.Represents map) (hget : map.get key = none)
    (value oldValue : Option ν) :
    ∃ m', m.put true true key value oldValue = some ((true, oldValue), m') ∧
      m'.Represents (map.put key value) := by
  obtain ⟨l, hl⟩ := h.chained (computeHash (cString key))
  have hkeys := h.keys (computeHash (cString key))
  rw [Hashmap.get, Buckets.get] at hget
  rcases Buckets.split_or_not_mem (cString key) (map.chains (computeHash (cString key))) with
    ⟨before, old', behind, hchain, hbefore⟩ | hnone
  · rw [hchain, Buckets.getIn_split hbefore] at hget
    cases hget
  · have hloop := putLoop_free (m.read_root _) hl hkeys hnone (h.length_le hl)
    obtain ⟨m', hwrite, hunused, hnew, hroot, hroots, hcells, hlast⟩ :=
      h.write_last hl ⟨cString key, value, none⟩
    have hfresh : m.unused ∉ l := fun hmem => Nat.lt_irrefl _ (h.lt_unused hl hmem)
    refine ⟨m', ?_, h.of_put (show m'.Chained _ (l ++ [m.unused]) _ from ⟨?_, ?_⟩)
      (fun hash hne => ⟨hroots hash hne, fun l' hl' c hc => ?_⟩) fun c hc => ?_⟩
    · simp only [MapMemory.put, hloop, Option.bind_eq_bind, Option.bind_some, Bool.not_true,
        Bool.false_eq_true, if_false, hwrite]
      rfl
    · refine hl.linked.append hroot (fun c hc => ?_) (by rw [link, hnew]; rfl)
      obtain ⟨e, -, hentry⟩ := hl.entry_mem hc
      obtain ⟨cell, hcell, -⟩ := Option.map_eq_some_iff.1 hentry
      split_ifs with hlast?
      · rw [link, hlast c cell hlast? hcell]
        rfl
      · rw [link, hcells c (fun heq => hfresh (heq ▸ hc)) hlast?, link]
    · rw [Buckets.putIn_eq_append hnone, List.map_append, List.map_append, ← hl.entries]
      congr 1
      · refine List.map_congr_left fun c hc => ?_
        obtain ⟨e, -, hentry⟩ := hl.entry_mem hc
        obtain ⟨cell, hcell, -⟩ := Option.map_eq_some_iff.1 hentry
        by_cases hlast? : l.getLast? = some c
        · rw [entry, hlast c cell hlast? hcell, entry, hcell]
          rfl
        · rw [entry, hcells c (fun heq => hfresh (heq ▸ hc)) hlast?, entry]
      · rw [List.map_singleton, List.map_singleton, entry, hnew]
        rfl
    · -- the items of the other chains are not touched
      refine hcells c (fun heq => ?_) fun heq =>
        hne (h.separate hl' hl hc (List.mem_of_getLast? heq))
      exact absurd (h.lt_unused hl' hc) (by omega)
    · rw [hunused] at hc
      rw [hcells c (by omega) fun heq => ?_]
      · exact h.unused c (by omega)
      · exact absurd (h.lt_unused hl (List.mem_of_getLast? heq)) (by omega)

/-! ### Walks over all items -/

theorem mem_hashes (hash : UInt16) : hash ∈ hashes :=
  List.mem_map.2 ⟨_, List.mem_range.2 (UInt16.toNat_lt hash), UInt16.ofNat_toNat⟩

theorem nodup_hashes : hashes.Nodup := by
  refine List.nodup_range.map_on fun i hi j hj heq => ?_
  rw [List.mem_range] at hi hj
  have htoNat := congrArg UInt16.toNat heq
  rwa [UInt16.toNat_ofNat_of_lt' hi, UInt16.toNat_ofNat_of_lt' hj] at htoNat

theorem referenceChain_eq {p : Option ℕ} {fuel : ℕ} (h : m.Chained p l chain)
    (hfuel : l.length ≤ fuel) (out : List (List UInt8)) :
    m.referenceChain (fun _ => true) fuel p (true, out) =
      some (true, out ++ chain.map Prod.fst) := by
  induction l generalizing p chain fuel out with
  | nil =>
    obtain ⟨rfl, rfl⟩ := h.eq_nil
    cases fuel <;> simp [referenceChain]
  | cons a l ih =>
    obtain ⟨cell, chain, rfl, hcell, rfl, hrest⟩ := h.cons
    obtain ⟨fuel, rfl, hle⟩ := exists_fuel hfuel
    simp only [referenceChain, hcell, Option.bind_eq_bind, Option.bind_some, Bool.not_true,
      Bool.false_eq_true, if_false]
    rw [ih hrest hle, List.append_assoc]
    rfl

theorem Represents.referenceKeys (h : m.Represents map) :
    m.referenceKeys (fun _ => true) = some (some (map.keys hashes)) := by
  have hwalk : ∀ (hs : List UInt16) (out : List (List UInt8)),
      hs.foldlM (fun out hash => m.referenceChain (fun _ => true) m.unused (m.items hash) out)
        (true, out) = some (true, out ++ map.keys hs) := by
    intro hs
    induction hs with
    | nil => simp [Buckets.keys]
    | cons hash hs ih =>
      intro out
      obtain ⟨l, hl⟩ := h.chained hash
      rw [List.foldlM_cons, referenceChain_eq hl (h.length_le hl), Option.bind_eq_bind,
        Option.bind_some, ih, List.append_assoc]
      rfl
  rw [MapMemory.referenceKeys]
  generalize hashes = hs
  simp only [Bool.not_true, Bool.false_eq_true, if_false]
  rw [hwalk hs]
  show some (some ([] ++ map.keys hs)) = _
  rw [List.nil_append]

/-- The copies are the keys themselves, which end where their NUL is. -/
theorem Represents.copyKeys (h : m.Represents map) :
    m.copyKeys (fun _ => true) (fun _ => true) = some (some (map.keys hashes)) := by
  have hcopies : (map.keys hashes).map cString = map.keys hashes := by
    conv_rhs => rw [← List.map_id (map.keys hashes)]
    refine List.map_congr_left fun key hkey => ?_
    obtain ⟨hash, -, hmem⟩ := List.mem_flatMap.1 hkey
    obtain ⟨e, he, rfl⟩ := List.mem_map.1 hmem
    exact h.keys hash e he
  have hall : (List.range (map.keys hashes).length).all (fun _ => true) = true :=
    List.all_eq_true.2 fun _ _ => rfl
  simp only [MapMemory.copyKeys, h.referenceKeys, Option.bind_eq_bind, Option.bind_some, hall,
    if_true, hcopies]
  rfl

/-- The walk over a chain finds an item that satisfies the predicate, if there is one. -/
theorem findChain_spec (predicate : List UInt8 → Option ν → Bool) {p : Option ℕ} {fuel : ℕ}
    (h : m.Chained p l chain) (hfuel : l.length ≤ fuel) :
    ∃ found, m.findChain predicate fuel p = some found ∧
      (found = none → ∀ e ∈ chain, predicate e.1 e.2 = false) ∧
      ∀ a, found = some a → ∃ e ∈ chain, m.entry a = some e ∧ predicate e.1 e.2 = true := by
  induction l generalizing p chain fuel with
  | nil =>
    obtain ⟨rfl, rfl⟩ := h.eq_nil
    refine ⟨none, by cases fuel <;> rfl, (fun _ _ he => nomatch he), ?_⟩
    rintro a ⟨⟩
  | cons a l ih =>
    obtain ⟨cell, chain, rfl, hcell, rfl, hrest⟩ := h.cons
    obtain ⟨fuel, rfl, hle⟩ := exists_fuel hfuel
    simp only [findChain, hcell, Option.bind_eq_bind, Option.bind_some]
    cases hpredicate : predicate cell.key cell.value with
    | true =>
      refine ⟨some a, rfl, (fun hnone => nomatch hnone), ?_⟩
      rintro b ⟨⟩
      exact ⟨_, List.mem_cons_self, by rw [entry, hcell]; rfl, hpredicate⟩
    | false =>
      obtain ⟨found, hfound, hnone, hsome⟩ := ih hrest hle
      refine ⟨found, hfound, fun heq => List.forall_mem_cons.2 ⟨hpredicate, hnone heq⟩, ?_⟩
      intro b hb
      obtain ⟨e, he, hentry, hholds⟩ := hsome b hb
      exact ⟨e, List.mem_cons_of_mem _ he, hentry, hholds⟩

theorem Represents.findFirst (h : m.Represents map) (predicate : List UInt8 → Option ν → Bool) :
    ∃ found, m.findFirst predicate = some found ∧
      (found = none → ∀ hash, ∀ e ∈ map.chains hash, predicate e.1 e.2 = false) ∧
      ∀ a, found = some a →
        ∃ hash, ∃ e ∈ map.chains hash, m.entry a = some e ∧ predicate e.1 e.2 = true := by
  have hkept : ∀ (hs : List UInt16) (a : ℕ), hs.foldlM (fun found hash =>
      match found with
      | some item => some (some item)
      | none => m.findChain predicate m.unused (m.items hash)) (some a) = some (some a) := by
    intro hs a
    induction hs with
    | nil => rfl
    | cons hash hs ih => exact ih
  have hwalk : ∀ hs : List UInt16, ∃ found, hs.foldlM (fun found hash =>
      match found with
      | some item => some (some item)
      | none => m.findChain predicate m.unused (m.items hash)) none = some found ∧
      (found = none → ∀ hash ∈ hs, ∀ e ∈ map.chains hash, predicate e.1 e.2 = false) ∧
      ∀ a, found = some a →
        ∃ hash, ∃ e ∈ map.chains hash, m.entry a = some e ∧ predicate e.1 e.2 = true := by
    intro hs
    induction hs with
    | nil => exact ⟨none, rfl, (fun _ _ hmem => nomatch hmem), (fun _ heq => nomatch heq)⟩
    | cons hash hs ih =>
      obtain ⟨l, hl⟩ := h.chained hash
      obtain ⟨found, hfound, hnone, hsome⟩ := findChain_spec predicate hl (h.length_le hl)
      cases found with
      | some a =>
        refine ⟨some a, ?_, (fun heq => nomatch heq), ?_⟩
        · rw [List.foldlM_cons, hfound]
          exact hkept hs a
        · rintro b ⟨⟩
          exact ⟨hash, hsome a rfl⟩
      | none =>
        obtain ⟨found, hrest, hnone', hsome'⟩ := ih
        refine ⟨found, ?_, fun heq => List.forall_mem_cons.2 ⟨hnone rfl, hnone' heq⟩, hsome'⟩
        rw [List.foldlM_cons, hfound]
        exact hrest
  obtain ⟨found, hfound, hnone, hsome⟩ := hwalk hashes
  exact ⟨found, hfound, fun heq hash => hnone heq hash (mem_hashes hash), hsome⟩

end

end MapMemory

/-! ### Sequences of calls -/

/-- A call of `hashmap_put`: its arguments, what is in `*old_value` before it, and the outcomes of
the allocations of an item and of its key. -/
structure PutCall (ν : Type) where
  key : List UInt8
  value : Option ν
  oldValue : Option ν
  allocItem : Bool
  allocKey : Bool

/-- The finite map: the value of a key, which may be NULL, if the key is present. -/
abbrev EntryMap (ν : Type) := List UInt8 → Option (Option ν)

section

variable {ν : Type}

/-- `hashmap_put` with the arguments of a call -/
def PutCall.perform (m : MapMemory ν) (call : PutCall ν) : Access
    ((Bool × Option ν) × MapMemory ν) :=
  m.put call.allocItem call.allocKey call.key call.value call.oldValue

/-- What a map answers to a call, and the map afterwards: the value of a present key is replaced and
reported, a new key needs memory, and without it nothing is stored. -/
def EntryMap.reply (map : EntryMap ν) (call : PutCall ν) : (Bool × Option ν) × EntryMap ν :=
  match map (cString call.key) with
  | some old => ((true, old), Function.update map (cString call.key) (some call.value))
  | none =>
    if call.allocItem && call.allocKey then
      ((true, call.oldValue), Function.update map (cString call.key) (some call.value))
    else ((false, call.oldValue), map)

/-- The memory stands for a finite map. -/
def MapMemory.StandsFor (m : MapMemory ν) (map : EntryMap ν) : Prop :=
  ∃ buckets : Hashmap (Option ν), m.Represents buckets ∧
    ∀ key, Buckets.get computeHash buckets key = map key

variable {m : MapMemory ν} {map : EntryMap ν}

theorem standsFor_create : (MapMemory.create : MapMemory ν).StandsFor fun _ => none :=
  ⟨Buckets.empty, MapMemory.represents_create, fun _ => rfl⟩

/-- The finite map after a value has been stored. -/
theorem get_put_eq_update {buckets : Hashmap (Option ν)}
    (hget : ∀ key, Buckets.get computeHash buckets key = map key) (key : List UInt8)
    (value : Option ν) (key' : List UInt8) :
    Buckets.get computeHash (buckets.put key value) key' =
      Function.update map (cString key) (some value) key' := by
  by_cases heq : key' = cString key
  · subst heq
    rw [Function.update_self]
    exact Buckets.get_put_self computeHash buckets _ value
  · rw [Function.update_of_ne heq, ← hget key']
    exact Buckets.get_put_of_ne computeHash buckets heq value

/-- **One call has the answer of the map and keeps the relation.** -/
theorem PutCall.perform_stands (call : PutCall ν) (h : m.StandsFor map) :
    ∃ m', call.perform m = some ((map.reply call).1, m') ∧ m'.StandsFor (map.reply call).2 := by
  obtain ⟨buckets, hrepresents, hget⟩ := h
  have hkey : buckets.get call.key = map (cString call.key) := hget _
  cases hfound : map (cString call.key) with
  | some old =>
    obtain ⟨m', hput, hrepresents'⟩ := hrepresents.put_present (hkey.trans hfound)
      call.allocItem call.allocKey call.value call.oldValue
    simp only [EntryMap.reply, hfound]
    exact ⟨m', hput, _, hrepresents', get_put_eq_update hget _ _⟩
  | none =>
    simp only [EntryMap.reply, hfound]
    cases halloc : call.allocItem && call.allocKey with
    | true =>
      obtain ⟨hitem, hkey'⟩ := Bool.and_eq_true_iff.1 halloc
      obtain ⟨m', hput, hrepresents'⟩ := hrepresents.put_absent (hkey.trans hfound) call.value
        call.oldValue
      refine ⟨m', ?_, _, hrepresents', get_put_eq_update hget _ _⟩
      rw [PutCall.perform, hitem, hkey', hput]
      rfl
    | false =>
      exact ⟨m, hrepresents.put_failed (hkey.trans hfound) halloc _ _, buckets, hrepresents, hget⟩

/-- A call that fails leaves the memory as it was. -/
theorem PutCall.perform_failed (call : PutCall ν) (h : m.StandsFor map)
    (hfailed : (map.reply call).1.1 = false) :
    call.perform m = some ((false, call.oldValue), m) := by
  obtain ⟨buckets, hrepresents, hget⟩ := h
  have hkey : buckets.get call.key = map (cString call.key) := hget _
  cases hfound : map (cString call.key) with
  | some old => simp [EntryMap.reply, hfound] at hfailed
  | none =>
    cases halloc : call.allocItem && call.allocKey with
    | true => simp [EntryMap.reply, hfound, halloc] at hfailed
    | false => exact hrepresents.put_failed (hkey.trans hfound) halloc _ _

/-- A key is where a C string ends: no other one is ever stored. -/
theorem MapMemory.StandsFor.get (h : m.StandsFor map) (key : List UInt8) :
    m.get key = some (map (cString key)).join := by
  obtain ⟨buckets, hrepresents, hget⟩ := h
  rw [hrepresents.get, ← hget]
  rfl

theorem MapMemory.StandsFor.keys (h : m.StandsFor map) :
    ∃ keys, m.referenceKeys (fun _ => true) = some (some keys) ∧
      m.copyKeys (fun _ => true) (fun _ => true) = some (some keys) ∧
      keys.Nodup ∧ ∀ key, key ∈ keys ↔ (map key).isSome := by
  obtain ⟨buckets, hrepresents, hget⟩ := h
  refine ⟨_, hrepresents.referenceKeys, hrepresents.copyKeys,
    hrepresents.proper.nodup_keys MapMemory.nodup_hashes, fun key => ?_⟩
  rw [hrepresents.proper.mem_keys_iff MapMemory.mem_hashes, hget]

theorem MapMemory.StandsFor.findFirst (h : m.StandsFor map)
    (predicate : List UInt8 → Option ν → Bool) :
    ∃ found, m.findFirst predicate = some found ∧
      (found.isSome ↔ ∃ key value, map key = some value ∧ predicate key value = true) ∧
      ∀ item, found = some item → ∃ key value, m.entry item = some (key, value) ∧
        map key = some value ∧ predicate key value = true := by
  obtain ⟨buckets, hrepresents, hget⟩ := h
  obtain ⟨found, hfound, hnone, hsome⟩ := hrepresents.findFirst predicate
  have hitem : ∀ item, found = some item → ∃ key value, m.entry item = some (key, value) ∧
      map key = some value ∧ predicate key value = true := by
    intro item heq
    obtain ⟨hash, e, he, hentry, hholds⟩ := hsome item heq
    exact ⟨e.1, e.2, hentry, by rw [← hget, (hrepresents.proper.mem_chains_iff.1 he).2], hholds⟩
  refine ⟨found, hfound, ⟨fun hisSome => ?_, ?_⟩, hitem⟩
  · obtain ⟨item, rfl⟩ := Option.isSome_iff_exists.1 hisSome
    obtain ⟨key, value, -, hmap, hholds⟩ := hitem item rfl
    exact ⟨key, value, hmap, hholds⟩
  · rintro ⟨key, value, hmap, hholds⟩
    rw [Option.isSome_iff_ne_none]
    intro heq
    rw [← hget, hrepresents.proper.get_eq_some_iff] at hmap
    have hfalse := hnone heq _ _ hmap
    rw [hholds] at hfalse
    cases hfalse

end

/-- **A hash map is the finite map that has been put into it.**  Whatever calls of `hashmap_put` are
made on a new map, each returns and reports what the finite map says; afterwards `hashmap_get` finds
the value last stored for an equal key and NULL for every other one, both lists of keys have each
present key once, `hashmap_find_first` finds an item iff an entry satisfies the predicate, and a
call that fails changes nothing. -/
theorem hashmap_refines_map {ν : Type} (calls : List (PutCall ν)) :
    ∃ m, performAll (fun m call => PutCall.perform m call) .create calls =
        some ((replyAll EntryMap.reply (fun _ => none) calls).1, m) ∧
      (∀ key, m.get key =
        some ((replyAll EntryMap.reply (fun _ => none) calls).2 (cString key)).join) ∧
      (∃ keys, m.referenceKeys (fun _ => true) = some (some keys) ∧
        m.copyKeys (fun _ => true) (fun _ => true) = some (some keys) ∧ keys.Nodup ∧
        ∀ key, key ∈ keys ↔ ((replyAll EntryMap.reply (fun _ => none) calls).2 key).isSome) ∧
      (∀ predicate : List UInt8 → Option ν → Bool,
        ∃ found, m.findFirst predicate = some found ∧
          (found.isSome ↔ ∃ key value,
            (replyAll EntryMap.reply (fun _ => none) calls).2 key = some value ∧
              predicate key value = true) ∧
          ∀ item, found = some item → ∃ key value, m.entry item = some (key, value) ∧
            (replyAll EntryMap.reply (fun _ => none) calls).2 key = some value ∧
              predicate key value = true) ∧
      ∀ call : PutCall ν,
        (EntryMap.reply (replyAll EntryMap.reply (fun _ => none) calls).2 call).1.1 = false →
          call.perform m = some ((false, call.oldValue), m) := by
  have hallowed : Admissible (fun _ _ => True) EntryMap.reply (fun _ => none) calls :=
    admissible_of_forall fun _ _ => trivial
  obtain ⟨m, hrun, h⟩ := performAll_refines (fun _ _ call _ h => PutCall.perform_stands call h)
    hallowed standsFor_create
  exact ⟨m, hrun, h.get, h.keys, h.findFirst, fun call => call.perform_failed h⟩

end XprcServer
