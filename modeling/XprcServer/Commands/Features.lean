import XprcServer.Commands.Cmrg
import XprcServer.Session.Answers
import XprcServer.Utils.Numbers

/-!
# Command configurations

`command.c`: a configuration of a command has a version and a state for each of its features.  The
same type is used for the changes that a client asks for with SRFS, which lists the features in one
text.

* `FeatureItem`, `listText` : the lists that are well formed;
* `Features.featureLoop_listText` : the loop that cuts the list in place records the items one by
  one until a name comes twice;
* `Features.recordAll_isSome_iff`, `Features.get_recordAll` : what is recorded in the end.
-/

namespace XprcServer

open Lib

namespace Features

variable {μ : Type}

/-- `create_command_config`; the argument is converted to `uint16_t`. -/
def createCommandConfig (version : ℤ) : M μ (Option CommandConfig) := do
  let version := (version % 2 ^ 16).toNat
  if version < 1 then pure none
  else if ← Session.allocate then
    if ← Session.allocate then pure (some ⟨version, Buckets.empty⟩)
    else pure none
  else pure none

/-- `set_command_feature_flag`: the error, the configuration afterwards and the previous state.
Every state is valid. -/
def setCommandFeatureFlag (config : Option CommandConfig) (name : List UInt8)
    (state : FeatureState) :
    M μ (ErrorCode × Option CommandConfig × Option FeatureState) :=
  match config with
  | none => pure (.unspecific, none, none)
  | some config =>
    let changed := some { config with features := config.features.put name state }
    match config.features.get name with
    | some previous => pure (.none, changed, some previous)
    | none => do
      if ← Session.allocate then
        if ← Session.allocate then pure (.none, changed, none)
        else pure (.unspecific, some config, none)
      else pure (.unspecific, some config, none)

/-- `has_mandatory_command_feature_request` -/
def hasMandatory (config : CommandConfig) : Bool :=
  config.features.toList.any FeatureState.requestedMandatory

/-- The loop of `srfs_create` over the feature flags in `buffer`, which is `length` characters long
behind which stands a NUL; `start` is where the next flag starts, and every comma is overwritten by
a NUL once it was found.  The first argument bounds the number of rounds.  The error is what the
client is told, if anything. -/
def featureLoop (length : ℕ) : ℕ → List UInt8 → ℕ → Option CommandConfig →
    M μ (Except (Option String) (Option CommandConfig))
  | 0, _, _, config => pure (.ok config)
  | fuel + 1, buffer, start, config =>
    if start < length then
      let found := strpos (buffer.drop start) 44 0
      let endExcl := if found < 0 then length else found.toNat + start
      if endExcl - start < 2 then pure (.error (some "invalid feature flag length"))
      else
        match FeatureState.ofRequest (buffer.getD start 0) with
        | none => pure (.error (some "invalid or missing feature flag state"))
        | some state => do
          let buffer := buffer.set endExcl 0
          let (err, config, previous) ←
            setCommandFeatureFlag config (cString (buffer.drop (start + 1))) state
          if err ≠ .none then pure (.error none)
          else if previous.isSome then
            pure (.error (some "multiple changes requested for same feature flag"))
          else featureLoop length fuel buffer (endExcl + 1) config
    else pure (.ok config)

end Features

/-! ### Lists of features -/

/-- The character of a state in requests -/
def FeatureState.requestChar : FeatureState → UInt8
  | .enabledClient => 43
  | .disabledClient => 45
  | .enabledDefault => 42
  | .unavailable => 47
  | .disabledDefault => 63
  | .enabledAlways => 32

/-- One change in a list of features: one of the four states that can be asked for, and a name. -/
structure FeatureItem where
  state : FeatureState
  name : List UInt8
  requested : FeatureState.ofRequest state.requestChar = some state
  name_ne_nil : name ≠ []
  comma_not_mem : 44 ∉ name
  nul_not_mem : 0 ∉ name

theorem FeatureItem.state_cases (item : FeatureItem) : item.state = .enabledClient ∨
    item.state = .disabledClient ∨ item.state = .enabledDefault ∨ item.state = .unavailable := by
  have hrequested := item.requested
  cases hstate : item.state with
  | enabledClient => exact .inl rfl
  | disabledClient => exact .inr (.inl rfl)
  | enabledDefault => exact .inr (.inr (.inl rfl))
  | unavailable => exact .inr (.inr (.inr rfl))
  | disabledDefault =>
    rw [hstate] at hrequested
    cases hrequested
  | enabledAlways =>
    rw [hstate] at hrequested
    cases hrequested

/-- `+name` -/
def FeatureItem.text (item : FeatureItem) : List UInt8 := item.state.requestChar :: item.name

/-- The items with commas between them -/
def listText : List FeatureItem → List UInt8
  | [] => []
  | [item] => item.text
  | item :: items => item.text ++ 44 :: listText items

/-- The items recorded one by one; a name that comes twice is refused. -/
def recordAll : List FeatureItem → Hashmap FeatureState → Option (Hashmap FeatureState)
  | [], features => some features
  | item :: items, features =>
    match features.get item.name with
    | some _ => none
    | none => recordAll items (features.put item.name item.state)

namespace Features

variable {μ : Type} {w : World μ}

theorem createCommandConfig_gives (h : w.Obliging) (version : ℤ) :
    Gives (createCommandConfig version) w
      (if version % 2 ^ 16 = 0 then none else some ⟨(version % 2 ^ 16).toNat, Buckets.empty⟩) := by
  unfold createCommandConfig
  dsimp only
  split_ifs with hnone hzero hzero
  · exact .pure _ _
  · omega
  · omega
  · refine (allocate_gives h).bind fun w' ht => ?_
    exact (allocate_gives (h.ticks ht)).bind fun w'' _ => .pure _ _

theorem setCommandFeatureFlag_gives (h : w.Obliging) (config : CommandConfig) (name : List UInt8)
    (state : FeatureState) :
    Gives (setCommandFeatureFlag (some config) name state) w
      (.none, some { config with features := config.features.put name state },
        config.features.get name) := by
  unfold setCommandFeatureFlag
  dsimp only
  cases config.features.get name with
  | some previous => exact .pure _ _
  | none =>
    refine (allocate_gives h).bind fun w' ht => ?_
    exact (allocate_gives (h.ticks ht)).bind fun w'' _ => .pure _ _

/-! ### Cutting a list -/

variable {item : FeatureItem} {items : List FeatureItem}

theorem requestChar_ne (state : FeatureState) : state.requestChar ≠ 44 ∧ state.requestChar ≠ 0 := by
  cases state <;> decide

theorem comma_not_mem_text (item : FeatureItem) : 44 ∉ item.text := by
  rw [FeatureItem.text, List.mem_cons, not_or]
  exact ⟨(requestChar_ne item.state).1.symm, item.comma_not_mem⟩

theorem nul_not_mem_text (item : FeatureItem) : 0 ∉ item.text := by
  rw [FeatureItem.text, List.mem_cons, not_or]
  exact ⟨(requestChar_ne item.state).2.symm, item.nul_not_mem⟩

theorem two_le_length_text (item : FeatureItem) : 2 ≤ item.text.length := by
  have hname := List.length_pos_of_ne_nil item.name_ne_nil
  rw [FeatureItem.text, List.length_cons]
  omega

theorem listText_cons (item : FeatureItem) (hitems : items ≠ []) :
    listText (item :: items) = item.text ++ 44 :: listText items := by
  cases items with
  | nil => exact absurd rfl hitems
  | cons _ _ => rfl

theorem nul_not_mem_listText (items : List FeatureItem) : 0 ∉ listText items := by
  induction items with
  | nil => simp [listText]
  | cons item items ih =>
    cases items with
    | nil => exact nul_not_mem_text item
    | cons next items =>
      rw [listText_cons item (List.cons_ne_nil _ _), List.mem_append, List.mem_cons]
      rintro (h | h | h)
      · exact nul_not_mem_text item h
      · cases h
      · exact ih h

theorem length_le_listText (items : List FeatureItem) : items.length ≤ (listText items).length := by
  induction items with
  | nil => exact Nat.le_refl _
  | cons item items ih =>
    have hitem := two_le_length_text item
    by_cases hitems : items = []
    · subst hitems
      exact Nat.le_of_lt hitem
    · rw [listText_cons item hitems, List.length_cons, List.length_append, List.length_cons]
      omega

/-- Behind an item whose comma was overwritten the name ends. -/
theorem cString_text_append (item : FeatureItem) (behind : List UInt8) :
    cString ((item.text ++ 0 :: behind).drop 1) = item.name := by
  rw [FeatureItem.text, List.cons_append, List.drop_one, List.tail_cons, cString,
    List.takeWhile_append_of_pos (forall_ne_of_not_mem item.nul_not_mem)]
  simp

/-- Where the next item ends, by the comma behind it or by the end of the text. -/
theorem strpos_text (item : FeatureItem) (behind : List UInt8) :
    strpos (item.text ++ 44 :: behind) 44 0 = item.text.length ∧
      strpos (item.text ++ 0 :: behind) 44 0 = -1 := by
  have htake := forall_ne_of_not_mem (nul_not_mem_text item)
  constructor
  · have hcString : cString (item.text ++ 44 :: behind) =
        item.text ++ 44 :: behind.takeWhile (· ≠ 0) := by
      rw [cString, List.takeWhile_append_of_pos htake]
      rfl
    have hpos : strpos (item.text ++ 44 :: behind) 44 0 = (0 : ℕ) + item.text.length :=
      strpos_eq (by rw [hcString]; rfl) (comma_not_mem_text item)
    simpa using hpos
  · refine strpos_eq_neg_one ?_
    rw [cString, List.takeWhile_append_of_pos htake]
    simpa using comma_not_mem_text item

/-- One round of the loop: the item is recorded under its name. -/
theorem featureLoop_item (length fuel : ℕ) (done behind : List UInt8)
    (item : FeatureItem) {ch : UInt8}
    (config : Option CommandConfig) (hlength : done.length + item.text.length ≤ length)
    (hend : ch = 44 ∨ ch = 0 ∧ length = done.length + item.text.length) :
    (featureLoop length (fuel + 1) (done ++ (item.text ++ ch :: behind)) done.length config :
      M μ (Except (Option String) (Option CommandConfig))) = (do
      let (err, config, previous) ← setCommandFeatureFlag config item.name item.state
      if err ≠ .none then pure (.error none)
      else if previous.isSome then
        pure (.error (some "multiple changes requested for same feature flag"))
      else
        featureLoop length fuel (done ++ (item.text ++ 0 :: behind))
          (done.length + item.text.length + 1) config) := by
  have hlt : done.length < length := by
    have := two_le_length_text item
    omega
  have hdrop : ∀ ch', (done ++ (item.text ++ ch' :: behind)).drop done.length = item.text ++
      ch' :: behind :=
    fun ch' => List.drop_left
  -- the comma or the end of the text is found
  have hendExcl : (if strpos (item.text ++ ch :: behind) 44 0 < 0 then length
      else (strpos (item.text ++ ch :: behind) 44 0).toNat + done.length) =
        done.length + item.text.length := by
    rcases hend with rfl | ⟨rfl, rfl⟩
    · rw [(strpos_text item behind).1, if_neg (by omega), Int.toNat_natCast, Nat.add_comm]
    · rw [(strpos_text item behind).2, if_pos (by decide)]
  have hset : (done ++ (item.text ++ ch :: behind)).set (done.length + item.text.length) 0 =
      done ++ (item.text ++ 0 :: behind) := by
    rw [List.set_append_right _ _ (Nat.le_add_right _ _), Nat.add_sub_cancel_left,
      List.set_append_right _ _ (Nat.le_refl _), Nat.sub_self]
    rfl
  have hstate : (done ++ (item.text ++ ch :: behind)).getD done.length 0 =
      item.state.requestChar := by
    simp [FeatureItem.text, List.getD_eq_getElem?_getD]
  have hname : cString ((done ++ (item.text ++ 0 :: behind)).drop (done.length + 1)) =
      item.name := by
    rw [← List.drop_drop, List.drop_left, cString_text_append]
  rw [featureLoop, if_pos hlt]
  dsimp only
  rw [hdrop, hendExcl, Nat.add_sub_cancel_left, if_neg (not_lt.2 (two_le_length_text item)), hstate,
    item.requested]
  dsimp only
  rw [hset, hname]

theorem featureLoop_end {length fuel start : ℕ} (buffer : List UInt8)
    (config : Option CommandConfig)
    (h : length ≤ start) : Gives (featureLoop length fuel buffer start config) w (.ok config) := by
  cases fuel with
  | zero => exact .pure _ _
  | succ fuel =>
    rw [featureLoop, if_neg (not_lt.2 h)]
    exact .pure _ _

/-- **The loop records the items of the list**, unless a name comes twice.  The induction is on the
items, with what the loop has passed, in which the commas are overwritten. -/
theorem featureLoop_listText (h : w.Obliging) (config : CommandConfig) {length fuel : ℕ}
    (done : List UInt8) (hfuel : items.length ≤ fuel)
    (hlength : length = done.length + (listText items).length) :
    Gives (featureLoop length fuel (done ++ (listText items ++ [0])) done.length (some config)) w
      (match recordAll items config.features with
      | none => .error (some "multiple changes requested for same feature flag")
      | some features => .ok (some { config with features := features })) := by
  induction items generalizing w config fuel done with
  | nil =>
    refine featureLoop_end _ _ (Nat.le_of_eq ?_)
    rw [hlength]
    rfl
  | cons item items ih =>
    obtain ⟨fuel, rfl⟩ : ∃ n, fuel = n + 1 := ⟨fuel - 1, by simp at hfuel; omega⟩
    -- what stands behind the item
    obtain ⟨ch, behind, hlist, hend, hrest⟩ : ∃ ch behind,
        done ++ (listText (item :: items) ++ [0]) = done ++ (item.text ++ ch :: behind) ∧
        (ch = 44 ∨ ch = 0 ∧ length = done.length + item.text.length) ∧
        ∀ (config : CommandConfig) (w' : World μ), w'.Obliging →
          Gives (featureLoop length fuel (done ++ (item.text ++ 0 :: behind))
            (done.length + item.text.length + 1) (some config)) w'
            (match recordAll items config.features with
            | none => .error (some "multiple changes requested for same feature flag")
            | some features => .ok (some { config with features := features })) := by
      by_cases hitems : items = []
      · subst hitems
        rw [listText] at hlength
        refine ⟨0, [], rfl, .inr ⟨rfl, hlength⟩, fun config w' _ => ?_⟩
        exact featureLoop_end _ _ (by omega)
      · rw [listText_cons item hitems] at hlength ⊢
        refine ⟨44, listText items ++ [0], by simp, .inl rfl, fun config w' hw' => ?_⟩
        have hnext := ih hw' config (done ++ (item.text ++ [0])) (by simp at hfuel; omega)
          (by rw [hlength]; simp; omega)
        simpa [Nat.add_assoc] using hnext
    have hle : done.length + item.text.length ≤ length := by
      rw [hlength]
      by_cases hitems : items = []
      · simp [hitems, listText]
      · simp [listText_cons item hitems]
    rw [hlist, featureLoop_item length fuel done behind item _ hle hend]
    refine (setCommandFeatureFlag_gives h config item.name item.state).bind fun w' ht => ?_
    dsimp only
    rw [if_neg (by simp), recordAll]
    cases config.features.get item.name with
    | some previous => exact .pure _ _
    | none =>
      exact hrest { config with features := config.features.put item.name item.state } w'
        (h.ticks ht)

/-! ### What is recorded -/

theorem cString_name (item : FeatureItem) : cString item.name = item.name :=
  cString_eq_self item.nul_not_mem

theorem recordAll_isSome_iff (items : List FeatureItem) (features : Hashmap FeatureState) :
    (recordAll items features).isSome ↔ (items.map FeatureItem.name).Nodup ∧
      ∀ item ∈ items, features.get item.name = none := by
  induction items generalizing features with
  | nil => simp [recordAll]
  | cons item items ih =>
    rw [recordAll, List.map_cons, List.nodup_cons, List.forall_mem_cons]
    cases hget : features.get item.name with
    | some previous => simp
    | none =>
      rw [ih]
      constructor
      · rintro ⟨hnodup, hnew⟩
        refine ⟨⟨fun hmem => ?_, hnodup⟩, rfl, fun other hother => ?_⟩
        · obtain ⟨other, hother, hname⟩ := List.mem_map.1 hmem
          have hnone := hnew other hother
          rw [hname, Hashmap.get_put_self] at hnone
          cases hnone
        · by_cases hname : other.name = item.name
          · rw [hname]
            exact hget
          · have hne : cString other.name ≠ cString item.name := by
              rwa [cString_name, cString_name]
            rw [← Hashmap.get_put_of_ne features hne item.state]
            exact hnew other hother
      · rintro ⟨⟨hname, hnodup⟩, -, hnew⟩
        refine ⟨hnodup, fun other hother => ?_⟩
        have hne : cString other.name ≠ cString item.name := by
          rw [cString_name, cString_name]
          exact fun h => hname (List.mem_map.2 ⟨other, hother, h⟩)
        rw [Hashmap.get_put_of_ne features hne]
        exact hnew other hother

/-- Every item is found under its name, as long as the names are new. -/
theorem get_recordAll {features recorded : Hashmap FeatureState}
    (h : recordAll items features = some recorded) {key : List UInt8} {state : FeatureState} :
    Buckets.get computeHash recorded key = some state ↔
      (∃ item ∈ items, item.name = key ∧ item.state = state) ∨
        Buckets.get computeHash features key = some state := by
  induction items generalizing features with
  | nil =>
    obtain rfl := Option.some.inj h
    simp
  | cons item items ih =>
    rw [recordAll] at h
    cases hget : features.get item.name with
    | some previous =>
      rw [hget] at h
      cases h
    | none =>
      rw [hget] at h
      rw [ih h, List.exists_mem_cons_iff, Hashmap.put, cString_name]
      by_cases hkey : key = item.name
      · subst hkey
        rw [Hashmap.get, cString_name] at hget
        rw [Buckets.get_put_self, hget]
        simp only [Option.some.injEq, true_and, reduceCtorEq, or_false]
        rw [or_comm]
      · rw [Buckets.get_put_of_ne _ _ hkey]
        have hne : ¬ (item.name = key ∧ item.state = state) := fun h => hkey h.1.symm
        simp only [hne, false_or]

theorem recordAll_proper {features recorded : Hashmap FeatureState}
    (h : recordAll items features = some recorded) (hproper : Buckets.Proper computeHash features) :
    Buckets.Proper computeHash recorded := by
  induction items generalizing features with
  | nil =>
    obtain rfl := Option.some.inj h
    exact hproper
  | cons item items ih =>
    rw [recordAll] at h
    cases hget : features.get item.name with
    | some previous =>
      rw [hget] at h
      cases h
    | none =>
      rw [hget] at h
      exact ih h (hproper.put _ _)

theorem mem_featureFlagNames {features : Hashmap FeatureState} (version : ℕ)
    (h : recordAll items Buckets.empty = some features) {name : List UInt8} :
    name ∈ featureFlagNames ⟨version, features⟩ ↔ ∃ item ∈ items, item.name = name := by
  have hall : ∀ hash, hash ∈ (List.range (2 ^ 16)).map UInt16.ofNat := fun hash =>
    List.mem_map.2 ⟨_, List.mem_range.2 (UInt16.toNat_lt hash), UInt16.ofNat_toNat⟩
  rw [featureFlagNames, (recordAll_proper h Buckets.proper_empty).mem_keys_iff hall,
    Option.isSome_iff_exists]
  constructor
  · rintro ⟨state, hstate⟩
    obtain ⟨item, hitem, hname, -⟩ | hnone := (get_recordAll h).1 hstate
    · exact ⟨item, hitem, hname⟩
    · cases hnone
  · rintro ⟨item, hitem, hname⟩
    exact ⟨item.state, (get_recordAll h).2 (.inl ⟨item, hitem, hname, rfl⟩)⟩

theorem mem_toList_recordAll {features recorded : Hashmap FeatureState}
    (h : recordAll items features = some recorded) (state : FeatureState) :
    state ∈ recorded.toList ↔ (∃ item ∈ items, item.state = state) ∨ state ∈ features.toList := by
  induction items generalizing features with
  | nil =>
    obtain rfl := Option.some.inj h
    simp
  | cons item items ih =>
    rw [recordAll] at h
    cases hget : features.get item.name with
    | some previous =>
      rw [hget] at h
      cases h
    | none =>
      rw [hget] at h
      rw [ih h, Hashmap.mem_toList_put hget, List.exists_mem_cons_iff,
        or_comm (a := item.state = state), or_assoc, eq_comm (a := item.state)]

theorem hasMandatory_iff {features : Hashmap FeatureState} (version : ℕ)
    (h : recordAll items Buckets.empty = some features) :
    hasMandatory ⟨version, features⟩ = true ↔
      ∃ item ∈ items, item.state.requestedMandatory = true := by
  have hempty : ∀ state, state ∉ Hashmap.toList (Buckets.empty : Hashmap FeatureState) := by
    intro state hmem
    obtain ⟨b, -, hb⟩ := List.mem_flatMap.1 hmem
    cases hb
  rw [hasMandatory, List.any_eq_true]
  constructor
  · rintro ⟨state, hstate, hmandatory⟩
    obtain ⟨item, hitem, rfl⟩ | hmem := (mem_toList_recordAll h state).1 hstate
    · exact ⟨item, hitem, hmandatory⟩
    · exact absurd hmem (hempty state)
  · rintro ⟨item, hitem, hmandatory⟩
    exact ⟨item.state, (mem_toList_recordAll h _).2 (.inl ⟨item, hitem, rfl⟩), hmandatory⟩

end Features

end XprcServer
