import Mathlib.Data.List.Nodup
import Mathlib.Data.List.Pairwise
import Mathlib.Logic.Function.Basic

/-!
# Maps in buckets

A map from keys `κ` to values `ν` that is kept as one chain of entries for each bucket `β`; a hash
function tells the bucket of a key.  A value is replaced in place, and a new entry is added at the
end of its chain.

* `Buckets.get_put_self`, `Buckets.get_put_of_ne` : the map laws;
* `Buckets.mem_values_of_get`, `Buckets.mem_values_put` : a walk over all buckets finds every value;
* `Buckets.Proper.put`, `Buckets.Proper.get_eq_some_iff` : every key stands once, in its own bucket;
* `Buckets.Proper.mem_keys_iff`, `Buckets.Proper.nodup_keys` : a walk over all buckets meets each
  key once;
* `Buckets.Proper.keys_eq` : it meets keys of distinct buckets in the order of these.
-/

namespace Lib

variable {β κ ν : Type} [DecidableEq β] [DecidableEq κ]

/-- The chains of entries, by bucket. -/
structure Buckets (β κ ν : Type) where
  chains : β → List (κ × ν)

namespace Buckets

/-- A map without entries. -/
def empty : Buckets β κ ν := ⟨fun _ => []⟩

/-- The first value of a key in a chain. -/
def getIn (key : κ) : List (κ × ν) → Option ν
  | [] => none
  | (key', value) :: chain => if key' = key then some value else getIn key chain

/-- A chain in which the key has a new value. -/
def putIn (key : κ) (value : ν) : List (κ × ν) → List (κ × ν)
  | [] => [(key, value)]
  | (key', value') :: chain =>
    if key' = key then (key', value) :: chain else (key', value') :: putIn key value chain

variable (hash : κ → β)

/-- The value of a key. -/
def get (m : Buckets β κ ν) (key : κ) : Option ν := getIn key (m.chains (hash key))

/-- The map in which the key has a new value. -/
def put (m : Buckets β κ ν) (key : κ) (value : ν) : Buckets β κ ν :=
  ⟨Function.update m.chains (hash key) (putIn key value (m.chains (hash key)))⟩

/-- The values in the given buckets. -/
def values (buckets : List β) (m : Buckets β κ ν) : List ν :=
  buckets.flatMap fun b => (m.chains b).map Prod.snd

@[simp] theorem put_chains_self (m : Buckets β κ ν) (key : κ) (value : ν) :
    (m.put hash key value).chains (hash key) = putIn key value (m.chains (hash key)) :=
  Function.update_self _ _ _

theorem put_chains_of_ne (m : Buckets β κ ν) (key : κ) (value : ν) {b : β} (hb : b ≠ hash key) :
    (m.put hash key value).chains b = m.chains b := Function.update_of_ne hb _ _

theorem getIn_putIn_self (key : κ) (value : ν) (chain : List (κ × ν)) :
    getIn key (putIn key value chain) = some value := by
  induction chain with
  | nil => simp [putIn, getIn]
  | cons entry chain ih =>
    by_cases h : entry.1 = key
    · simp [putIn, getIn, h]
    · simp [putIn, getIn, h, ih]

theorem getIn_putIn_of_ne {key key' : κ} (hkey : key' ≠ key) (value : ν) (chain : List (κ × ν)) :
    getIn key' (putIn key value chain) = getIn key' chain := by
  induction chain with
  | nil => simp [putIn, getIn, hkey.symm]
  | cons entry chain ih =>
    by_cases h : entry.1 = key
    · simp [putIn, getIn, h, hkey.symm]
    · simp [putIn, getIn, h, ih]

omit [DecidableEq β] in
@[simp] theorem get_empty (key : κ) : (empty : Buckets β κ ν).get hash key = none := rfl

theorem get_put_self (m : Buckets β κ ν) (key : κ) (value : ν) :
    (m.put hash key value).get hash key = some value := by
  simp [get, put, getIn_putIn_self]

theorem get_put_of_ne (m : Buckets β κ ν) {key key' : κ} (hkey : key' ≠ key) (value : ν) :
    (m.put hash key value).get hash key' = m.get hash key' := by
  by_cases hbucket : hash key' = hash key
  · simp [get, put, hbucket, getIn_putIn_of_ne hkey]
  · simp [get, put, hbucket]

omit [DecidableEq β] in
theorem mem_values_of_get {m : Buckets β κ ν} {key : κ} {value : ν} {buckets : List β}
    (hbucket : hash key ∈ buckets) (h : m.get hash key = some value) : value ∈
      m.values buckets := by
  have hchain : ∀ chain : List (κ × ν), getIn key chain = some value →
      value ∈ chain.map Prod.snd := by
    intro chain hget
    induction chain with
    | nil => cases hget
    | cons entry chain ih =>
      by_cases hkey : entry.1 = key
      · simp only [getIn, hkey, ↓reduceIte, Option.some.injEq] at hget
        simp [hget]
      · simp only [getIn, hkey, ↓reduceIte] at hget
        exact List.mem_cons_of_mem _ (ih hget)
  exact List.mem_flatMap.2 ⟨hash key, hbucket, hchain _ h⟩

/-! ### Where a key stands -/

omit [DecidableEq β] in
/-- A chain is split by the first entry of a key, if there is one. -/
theorem split_or_not_mem (key : κ) (chain : List (κ × ν)) :
    (∃ before value behind, chain = before ++ (key, value) :: behind ∧ ∀ e ∈ before, e.1 ≠ key) ∨
      ∀ e ∈ chain, e.1 ≠ key := by
  induction chain with
  | nil => exact .inr fun _ h => nomatch h
  | cons entry chain ih =>
    by_cases hkey : entry.1 = key
    · exact .inl ⟨[], entry.2, chain, by rw [← hkey]; rfl, fun _ h => nomatch h⟩
    · rcases ih with ⟨before, value, behind, rfl, hbefore⟩ | hnone
      · exact .inl ⟨entry :: before, value, behind, rfl, List.forall_mem_cons.2 ⟨hkey, hbefore⟩⟩
      · exact .inr (List.forall_mem_cons.2 ⟨hkey, hnone⟩)

section

variable {key : κ} {chain before behind : List (κ × ν)}

theorem getIn_split (hbefore : ∀ e ∈ before, e.1 ≠ key) (value : ν) :
    getIn key (before ++ (key, value) :: behind) = some value := by
  induction before with
  | nil => simp [getIn]
  | cons entry before ih =>
    rw [List.forall_mem_cons] at hbefore
    rw [List.cons_append, getIn, if_neg hbefore.1, ih hbefore.2]

theorem getIn_eq_none (h : ∀ e ∈ chain, e.1 ≠ key) : getIn key chain = none := by
  induction chain with
  | nil => rfl
  | cons entry chain ih =>
    rw [List.forall_mem_cons] at h
    rw [getIn, if_neg h.1, ih h.2]

theorem putIn_split (hbefore : ∀ e ∈ before, e.1 ≠ key) (old value : ν) :
    putIn key value (before ++ (key, old) :: behind) = before ++ (key, value) :: behind := by
  induction before with
  | nil => simp [putIn]
  | cons entry before ih =>
    rw [List.forall_mem_cons] at hbefore
    rw [List.cons_append, putIn, if_neg hbefore.1, ih hbefore.2, List.cons_append]

theorem putIn_eq_append (h : ∀ e ∈ chain, e.1 ≠ key) (value : ν) :
    putIn key value chain = chain ++ [(key, value)] := by
  induction chain with
  | nil => rfl
  | cons entry chain ih =>
    rw [List.forall_mem_cons] at h
    rw [putIn, if_neg h.1, ih h.2, List.cons_append]

end

/-- A new value is stored for the key itself, and only for it. -/
theorem mem_putIn {key : κ} {value : ν} {chain : List (κ × ν)} {e : κ × ν}
    (he : e ∈ putIn key value chain) : e.1 = key ∨ e ∈ chain := by
  rcases split_or_not_mem key chain with ⟨before, old, behind, rfl, hbefore⟩ | hnone
  · rw [putIn_split hbefore] at he
    rcases List.mem_append.1 he with he | he
    · exact .inr (List.mem_append_left _ he)
    · rcases List.mem_cons.1 he with rfl | he
      · exact .inl rfl
      · exact .inr (List.mem_append_right _ (List.mem_cons_of_mem _ he))
  · rw [putIn_eq_append hnone] at he
    rcases List.mem_append.1 he with he | he
    · exact .inr he
    · exact .inl (by rw [List.mem_singleton.1 he])

theorem not_mem_of_getIn {key : κ} {chain : List (κ × ν)} (h : getIn key chain = none) :
    ∀ e ∈ chain, e.1 ≠ key := by
  rcases split_or_not_mem key chain with ⟨before, value, behind, rfl, hbefore⟩ | hnone
  · rw [getIn_split hbefore] at h
    cases h
  · exact hnone

/-- A walk over all buckets finds what was put under a new key, and what was there before. -/
theorem mem_values_put {m : Buckets β κ ν} {key : κ} {value v : ν} {buckets : List β}
    (hbucket : hash key ∈ buckets) (h : m.get hash key = none) :
    v ∈ (m.put hash key value).values buckets ↔ v = value ∨ v ∈ m.values buckets := by
  have hchain := putIn_eq_append (not_mem_of_getIn h) value
  simp only [values, List.mem_flatMap]
  constructor
  · rintro ⟨b, hb, hv⟩
    by_cases hkey : b = hash key
    · subst hkey
      rw [put_chains_self, hchain, List.map_append, List.mem_append] at hv
      rcases hv with hv | hv
      · exact .inr ⟨_, hb, hv⟩
      · exact .inl (List.mem_singleton.1 hv)
    · rw [put_chains_of_ne hash m key value hkey] at hv
      exact .inr ⟨b, hb, hv⟩
  · rintro (rfl | ⟨b, hb, hv⟩)
    · refine ⟨hash key, hbucket, ?_⟩
      rw [put_chains_self, hchain, List.map_append]
      exact List.mem_append_right _ (List.mem_singleton.2 rfl)
    · refine ⟨b, hb, ?_⟩
      by_cases hkey : b = hash key
      · subst hkey
        rw [put_chains_self, hchain, List.map_append]
        exact List.mem_append_left _ hv
      · rw [put_chains_of_ne hash m key value hkey]
        exact hv

/-! ### Every key once -/

/-- Every key stands in its own bucket, and only once. -/
structure Proper (m : Buckets β κ ν) : Prop where
  hashed : ∀ b, ∀ e ∈ m.chains b, hash e.1 = b
  nodup : ∀ b, ((m.chains b).map Prod.fst).Nodup

/-- The keys in the given buckets. -/
def keys (buckets : List β) (m : Buckets β κ ν) : List κ :=
  buckets.flatMap fun b => (m.chains b).map Prod.fst

variable {hash} {m : Buckets β κ ν}

omit [DecidableEq β] [DecidableEq κ] in
theorem proper_empty : Proper hash (empty : Buckets β κ ν) :=
  ⟨(fun _ _ h => nomatch h), fun _ => List.nodup_nil⟩

theorem Proper.put (h : Proper hash m) (key : κ) (value : ν) : Proper hash
    (m.put hash key value) := by
  constructor
  · intro b e he
    by_cases hb : b = hash key
    · subst hb
      rw [put_chains_self] at he
      rcases mem_putIn he with rfl | he
      · rfl
      · exact h.hashed _ e he
    · rw [put_chains_of_ne hash m key value hb] at he
      exact h.hashed b e he
  · intro b
    by_cases hb : b = hash key
    · subst hb
      have hnodup := h.nodup (hash key)
      rw [put_chains_self]
      rcases split_or_not_mem key (m.chains (hash key)) with ⟨before, old, behind,
        heq, hbefore⟩ | hnone
      · rw [heq, List.map_append, List.map_cons] at hnodup
        rw [heq, putIn_split hbefore, List.map_append, List.map_cons]
        exact hnodup
      · rw [putIn_eq_append hnone, List.map_append, List.nodup_append]
        refine ⟨hnodup, List.nodup_singleton _, ?_⟩
        rintro k hk k' hk' rfl
        obtain ⟨e, he, rfl⟩ := List.mem_map.1 hk
        exact hnone e he (List.mem_singleton.1 hk')
    · rw [put_chains_of_ne hash m key value hb]
      exact h.nodup b

omit [DecidableEq β] in
theorem Proper.get_eq_some_iff (h : Proper hash m) {key : κ} {value : ν} :
    m.get hash key = some value ↔ (key, value) ∈ m.chains (hash key) := by
  have hnodup := h.nodup (hash key)
  rw [get]
  rcases split_or_not_mem key (m.chains (hash key)) with ⟨before, old, behind, heq, hbefore⟩ | hnone
  · rw [heq, getIn_split hbefore]
    rw [heq, List.map_append, List.map_cons] at hnodup
    have hbehind := (List.nodup_cons.1 (List.nodup_append.1 hnodup).2.1).1
    constructor
    · intro hvalue
      rw [Option.some.inj hvalue]
      exact List.mem_append_right _ List.mem_cons_self
    · intro hmem
      rcases List.mem_append.1 hmem with hmem | hmem
      · exact absurd rfl (hbefore _ hmem)
      · rcases List.mem_cons.1 hmem with heq | hmem
        · rw [(Prod.mk.inj heq).2]
        · exact absurd (List.mem_map_of_mem hmem) hbehind
  · rw [getIn_eq_none hnone]
    exact iff_of_false (fun hvalue => nomatch hvalue) fun hmem => hnone _ hmem rfl

omit [DecidableEq β] in
/-- An entry of any bucket is the one that is found for its key. -/
theorem Proper.mem_chains_iff (h : Proper hash m) {b : β} {e : κ × ν} :
    e ∈ m.chains b ↔ hash e.1 = b ∧ m.get hash e.1 = some e.2 := by
  rw [h.get_eq_some_iff]
  constructor
  · intro he
    obtain rfl := h.hashed b e he
    exact ⟨rfl, he⟩
  · rintro ⟨rfl, he⟩
    exact he

omit [DecidableEq β] in
theorem Proper.mem_keys_iff (h : Proper hash m) {buckets : List β} (hall : ∀ b, b ∈ buckets)
    {key : κ} : key ∈ m.keys buckets ↔ (m.get hash key).isSome := by
  simp only [keys, List.mem_flatMap, List.mem_map, h.mem_chains_iff, Option.isSome_iff_exists]
  constructor
  · rintro ⟨b, -, e, ⟨-, he⟩, rfl⟩
    exact ⟨e.2, he⟩
  · rintro ⟨value, hvalue⟩
    exact ⟨hash key, hall _, (key, value), ⟨rfl, hvalue⟩, rfl⟩

omit [DecidableEq β] [DecidableEq κ] in
theorem Proper.nodup_keys (h : Proper hash m) {buckets : List β} (hbuckets : buckets.Nodup) :
    (m.keys buckets).Nodup := by
  refine List.nodup_flatMap.2 ⟨fun b _ => h.nodup b, hbuckets.imp fun {b b'} hne => ?_⟩
  intro key hkey hkey'
  obtain ⟨e, he, rfl⟩ := List.mem_map.1 hkey
  obtain ⟨e', he', heq⟩ := List.mem_map.1 hkey'
  exact hne ((h.hashed b e he).symm.trans ((congrArg hash heq).symm.trans (h.hashed b' e' he')))

omit [DecidableEq β] [DecidableEq κ] in
/-- A walk over the buckets meets the keys in the order of their buckets. -/
theorem Proper.pairwise_keys (h : Proper hash m) {buckets : List β} {r : β → β → Prop}
    (hbuckets : buckets.Pairwise r) :
    (m.keys buckets).Pairwise fun key key' => hash key = hash key' ∨ r (hash key) (hash key') := by
  have hhash : ∀ b, ∀ key ∈ (m.chains b).map Prod.fst, hash key = b := by
    intro b key hkey
    obtain ⟨e, he, rfl⟩ := List.mem_map.1 hkey
    exact h.hashed b e he
  refine List.pairwise_flatMap.2
    ⟨fun b _ => ?_, hbuckets.imp fun {b b'} hr key hkey key' hkey' => ?_⟩
  · exact List.pairwise_of_forall_mem_list fun key hkey key' hkey' =>
      .inl ((hhash b key hkey).trans (hhash b key' hkey').symm)
  · rw [hhash b key hkey, hhash b' key' hkey']
    exact .inr hr

omit [DecidableEq β] in
/-- The order in which keys of distinct buckets are met -/
theorem Proper.keys_eq (h : Proper hash m) {buckets : List β} {r : β → β → Prop} {keys : List κ}
    (hall : ∀ b, b ∈ buckets) (hbuckets : buckets.Pairwise r) (hirrefl : ∀ b, ¬ r b b)
    (hasymm : ∀ b b', r b b' → ¬ r b' b)
    (hkeys : keys.Pairwise fun key key' => r (hash key) (hash key'))
    (hmem : ∀ key, key ∈ keys ↔ (m.get hash key).isSome) : m.keys buckets = keys := by
  have hmem' : ∀ key, key ∈ m.keys buckets ↔ key ∈ keys := fun key =>
    (h.mem_keys_iff hall).trans (hmem key).symm
  have hnodup : buckets.Nodup := by
    refine hbuckets.imp ?_
    rintro b _ hr rfl
    exact hirrefl b hr
  have hnodup' : keys.Nodup := by
    refine hkeys.imp ?_
    rintro key _ hr rfl
    exact hirrefl _ hr
  -- keys of one bucket are the same
  have hsame : ∀ key ∈ keys, ∀ key' ∈ keys, hash key = hash key' → key = key' := by
    have : Std.Symm fun key key' : κ => hash key = hash key' → key = key' :=
      ⟨fun key key' hkey heq => (hkey heq.symm).symm⟩
    refine List.Pairwise.forall_of_forall (fun _ _ _ => rfl) (hkeys.imp ?_)
    intro key key' hr heq
    rw [heq] at hr
    exact absurd hr (hirrefl _)
  refine List.Perm.eq_of_pairwise ?_ (h.pairwise_keys hbuckets) (hkeys.imp fun hr => .inr hr)
    ((List.perm_ext_iff_of_nodup (h.nodup_keys hnodup) hnodup').2 hmem')
  rintro key key' hkey hkey' (heq | hr) (heq' | hr')
  · exact hsame key ((hmem' key).1 hkey) key' hkey' heq
  · exact hsame key ((hmem' key).1 hkey) key' hkey' heq
  · rw [heq'] at hr
    exact absurd hr (hirrefl _)
  · exact absurd hr' (hasymm _ _ hr)

end Buckets

end Lib
