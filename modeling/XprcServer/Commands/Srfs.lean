import XprcServer.Commands.Features

/-!
# SRFS, the command that configures commands

A client asks for a version and features of a command.  `srfs_create` reads the request, merges it
with the configuration that the session has for the command, and answers on the channel at once.

* `Srfs.create_answers` : which requests succeed, and what the client is told;
* `srfs_follows_iff` : the version is compared after its conversion to 16 bits, so that other
  versions are taken for the supported one.

A `merge_config` function may return a new configuration, which then takes the place of the old one.
No command does, so that a request that succeeds changes nothing either.
-/

namespace XprcServer

open Lib

namespace Srfs

open Session Features

variable {μ : Type}

/-- `SRFS_COMMAND_VERSION` -/
def commandVersion : ℕ := 1

/-- `dynamic_sprintf` for a format that writes `text` -/
def sprintf (text : List UInt8) : M μ (Option (List UInt8)) := do
  if ← Session.allocate then pure (some text) else pure none

/-- The names of the commands -/
def commandName : Command → List UInt8
  | .cmhd => bytes "CMHD"
  | .cmrg => bytes "CMRG"
  | .cmtr => bytes "CMTR"
  | .drci => bytes "DRCI"
  | .drls => bytes "DRLS"
  | .drqv => bytes "DRQV"
  | .drmu => bytes "DRMU"
  | .srfs => bytes "SRFS"
  | .srid => bytes "SRID"
  | .srlc => bytes "SRLC"

/-! ### Merging -/

/-- What a `merge_config` function returns: the error, the new configuration and the message. -/
abbrev Merged := ErrorCode × Option CommandConfig × Option (List UInt8)

/-- An error with a message, if there is memory for the message -/
def refuse (text : List UInt8) : M μ Merged := do
  let message ← sprintf text
  pure (.unspecific, none, message)

/-- The refusal of another version -/
def refuseVersion (supported : ℕ) (requested : CommandConfig) : M μ Merged :=
  refuse (bytes "only supported version is " ++ decimal supported ++ bytes ", requested " ++
    decimal requested.version)

/-- `cmtr_merge_config`, `srfs_merge_config` and those of all other commands but DRLS -/
def mergeWithoutFeatures (supported : ℕ) (requested : CommandConfig) : M μ Merged := do
  if requested.version ≠ supported then refuseVersion supported requested
  else if hasMandatory requested then
    refuse (bytes "current command implementation does not support any feature flags")
  else pure (.none, none, none)

/-- The loop of `drls_merge_config` over the names of the features that changes are requested for -/
def drlsMergeLoop (previous requested : CommandConfig) : List (List UInt8) → M μ Merged
  | [] => pure (.none, none, none)
  | name :: names =>
    let change := getCommandFeatureState requested name
    if cString name ≠ unspecificFeature then
      if change.any FeatureState.requestedOptionally then drlsMergeLoop previous requested names
      else refuse (bytes "unknown feature flag \"" ++ cString name ++ bytes "\"")
    else
      let state := getCommandFeatureState previous unspecificFeature
      let alreadySet :=
        (change.any FeatureState.requestedEnabled && state.any FeatureState.actuallyEnabled) ||
          (change.any FeatureState.requestedDisabled && state.any FeatureState.actuallyDisabled)
      if !alreadySet && change.any FeatureState.requestedMandatory then
        refuse (bytes "unable to change feature flag \"" ++ cString name ++ bytes "\"")
      else drlsMergeLoop previous requested names

/-- `drls_merge_config` -/
def drlsMergeConfig (supported : ℕ) (previous requested : CommandConfig) : M μ Merged := do
  if requested.version ≠ supported then refuseVersion supported requested
  else if ← Session.allocate then
    drlsMergeLoop previous requested (featureFlagNames requested)
  else pure (.unspecific, none, none)

/-- `merge_config` of a command -/
def mergeConfig (command : Command) (previous requested : CommandConfig) : M μ Merged :=
  match command with
  | .drls => drlsMergeConfig (supportedVersion .drls) previous requested
  | command => mergeWithoutFeatures (supportedVersion command) requested

/-- `merge_command_config` for a registered command and a previous configuration -/
def mergeCommandConfig (command : Command) (previous : CommandConfig)
    (requested : Option CommandConfig) : M μ Merged :=
  match requested with
  | none => pure (.unspecific, none, none)
  | some requested => do
    let (err, newConfig, message) ← mergeConfig command previous requested
    let err := if err = .none ∧ message.isSome then .unspecific else err
    if err ≠ .none ∧ newConfig.isSome then pure (.unspecific, none, message)
    else pure (err, newConfig, message)

/-! ### The command -/

/-- An error before anything was requested -/
def reject (id : ChannelId) (text : String) : M μ (ErrorCode × Option ℕ) := do
  let _ ← errorChannel id currentTimeReference (some (bytes text))
  pure (.unspecific, none)

/-- The label `error` of `srfs_create` -/
def giveUp (id : ChannelId) (outError : ErrorCode) : M μ (ErrorCode × Option ℕ) := do
  let _ ← errorChannel id currentTimeReference none
  pure (if outError = .none then .unspecific else outError, none)

/-- An error message and the label `error` -/
def giveUpWith (id : ChannelId) (outError : ErrorCode) (text : List UInt8) :
    M μ (ErrorCode × Option ℕ) := do
  let _ ← errorChannel id currentTimeReference (some text)
  giveUp id outError

/-- The feature flags, if there is a parameter with some; the error is what the client is told. -/
def readFeatures (requested : Option CommandConfig) (parameters : List (List UInt8)) :
    M μ (Except (Option String) (Option CommandConfig)) :=
  match parameters with
  | [] => pure (.ok requested)
  | flags :: more =>
    if strlen flags = 0 then pure (.ok requested)
    else if more ≠ [] then pure (.error (some "too many parameters"))
    else if 2 ^ 31 - 1 < strlen flags then pure (.error none)
    else featureLoop (strlen flags) (strlen flags) (cString flags ++ [0]) 0 requested

/-- `set_command_configuration`; the name has an entry in the map already. -/
def setCommandConfiguration (command : Command) (config : CommandConfig) : M μ ErrorCode :=
  locked .session (fun _ => .mutexFailed) do
    Logged.update fun w => { w with configs := Function.update w.configs command (some config) }
    pure .none

/-- The end of `srfs_create` from the merge on -/
def apply (id : ChannelId) (command : Command) (previous : CommandConfig)
    (requested : Option CommandConfig) : M μ (ErrorCode × Option ℕ) := do
  let (err, newConfig, message) ← mergeCommandConfig command previous requested
  if err ≠ .none then
    match message with
    | some message => do
      -- the message of the command is part of the answer if there is memory for it
      match ← sprintf (bytes "failed to reconfigure command: " ++ message) with
      | some text => giveUpWith id err text
      | none => giveUpWith id err (bytes "failed to reconfigure command")
    | none => giveUpWith id err (bytes "failed to reconfigure command")
  else
    match newConfig with
    | some config => do
      let err ← setCommandConfiguration command config
      if err ≠ .none then giveUpWith id .none (bytes "failed to reconfigure command")
      else do
        let _ ← finishChannel id currentTimeReference none
        pure (.none, none)
    | none => do
      let _ ← finishChannel id currentTimeReference none
      pure (.none, none)

/-- `srfs_create` from the second parameter on, for a command with a configuration -/
def reconfigure (lib : Library) (id : ChannelId) (command : Command) (previous : CommandConfig)
    (parameters : List (List UInt8)) : M μ (ErrorCode × Option ℕ) :=
  match parameters with
  | [] => reject id "missing parameter: expected command version as second parameter"
  | versionText :: parameters =>
    if strlen versionText = 0 then
      reject id "missing parameter: expected command version as second parameter"
    else do
      let memory ← Session.allocate
      match if memory then parseInt lib versionText else none with
      | none => reject id "invalid command version"
      | some version =>
        if version < 1 then reject id "invalid command version"
        else do
          -- that there is a configuration is not checked
          let requested ← createCommandConfig version
          match ← readFeatures requested parameters with
          | .error none => giveUp id .none
          | .error (some text) => giveUpWith id .none (bytes text)
          | .ok requested => apply id command previous requested

/-- `srfs_create` -/
def create (lib : Library) (request : Request) (version : ℕ) : M μ (ErrorCode × Option ℕ) := do
  let id := request.channelId
  if version ≠ commandVersion then reject id "unexpected SRFS command version"
  else if request.hasOnlyOptions [] = false then reject id "unsupported options"
  else
    match request.parameters with
    | [] => reject id "missing parameter: expected command name as first parameter"
    | name :: parameters =>
      if strlen name = 0 then
        reject id "missing parameter: expected command name as first parameter"
      else
        match Command.ofName name with
        | none => pure (.unspecific, none)
        | some command => do
          match ← Server.getCommandConfiguration command with
          | none => pure (.unspecific, none)
          | some previous => reconfigure lib id command previous parameters

end Srfs

namespace Srfs

open Session Features

variable {μ : Type} {w : World μ} {id : ChannelId} {channel : Channel} {outError : ErrorCode}
  {message : List UInt8} {text : String}

/-- The client is told an error. -/
abbrev Fails (id : ChannelId) (w : World μ) (result : ErrorCode × Option ℕ) (w' : World μ) : Prop :=
  result.1 ≠ .none ∧ Told id .err w w'

/-- The client is told that all is done. -/
abbrev Succeeds (id : ChannelId) (w : World μ) (result : ErrorCode × Option ℕ)
    (w' : World μ) : Prop :=
  result = (.none, none) ∧ Told id .ackClose w w'

theorem reject_fails (h : w.Obliging) (hid : w.channels.lookup id = some channel)
    (hopen : channel.state ≠ .closed) : Ends (reject id text) w (Fails id w) :=
  ⟨by simp [reject], errorChannel_told _ h hid hopen⟩

theorem giveUp_fails (h : w.Obliging) (hid : w.channels.lookup id = some channel)
    (hopen : channel.state ≠ .closed) : Ends (giveUp id outError) w (Fails id w) := by
  refine ⟨?_, errorChannel_told _ h hid hopen⟩
  by_cases hnone : outError = .none
  · simp [giveUp, hnone]
  · simp [giveUp, hnone]

/-- The second error does not get out. -/
theorem giveUpWith_fails (h : w.Obliging) (hid : w.channels.lookup id = some channel)
    (hopen : channel.state ≠ .closed) : Ends (giveUpWith id outError message) w (Fails id w) := by
  have htold := errorChannel_told (some message) h hid hopen
  obtain ⟨closed, hid', hclosed⟩ := Told.state htold
  have hagain := errorChannel_closed none (Told.obliging htold h) hid' hclosed
  refine ⟨?_, Told.ticks htold hagain⟩
  by_cases hnone : outError = .none
  · simp [giveUpWith, giveUp, hnone]
  · simp [giveUpWith, giveUp, hnone]

/-! ### What is merged -/

variable {p q : M μ Merged} {P P' : Prop} {previous requested : CommandConfig}

/-- A merge returns no new configuration, and an error unless `accepted`. -/
def Decides (p : M μ Merged) (w : World μ) (accepted : Prop) : Prop :=
  ∃ r, Gives p w r ∧ r.2.1 = none ∧ (accepted → r = (.none, none, none)) ∧
    (¬ accepted → r.1 = .unspecific)

theorem Decides.congr (hp : Decides p w P) (h : P ↔ P') : Decides p w P' := propext h ▸ hp

theorem accept_decides : Decides (pure (.none, none, none)) w True :=
  ⟨_, .pure _ _, rfl, fun _ => rfl, fun h => absurd trivial h⟩

theorem refuse_decides (h : w.Obliging) (text : List UInt8) : Decides (refuse text) w False := by
  refine ⟨(.unspecific, none, some text), ?_, rfl, False.elim, fun _ => rfl⟩
  refine Gives.bind (a := some text) ?_ fun w' _ => .pure _ _
  exact (allocate_gives h).bind fun w' _ => .pure _ _

theorem Decides.bind {α : Type} {a : α} {p : M μ α} {f : α → M μ Merged} (hp : Gives p w a)
    (hf : ∀ w', w.Ticks w' → Decides (f a) w' P) : Decides (p >>= f) w P := by
  obtain ⟨hval, hticks⟩ := hp
  subst hval
  obtain ⟨r, ⟨hr, hticks'⟩, hrest⟩ := hf _ hticks
  exact ⟨r, ⟨hr, IsTrans.trans _ _ _ hticks hticks'⟩, hrest⟩

theorem Decides.ite {c : Prop} [Decidable c] (hp : c → Decides p w P) (hq : ¬ c → Decides q w P) :
    Decides (if c then p else q) w P := by
  split_ifs with hc
  · exact hp hc
  · exact hq hc

theorem mergeWithoutFeatures_decides (h : w.Obliging) (supported : ℕ) (requested : CommandConfig) :
    Decides (mergeWithoutFeatures supported requested) w
      (requested.version = supported ∧ hasMandatory requested = false) := by
  refine .ite (fun hversion => ?_) fun hversion => .ite (fun hmandatory => ?_) fun hmandatory => ?_
  · exact (refuse_decides h _).congr (by simp [hversion])
  · exact (refuse_decides h _).congr (by simp [hmandatory])
  · exact accept_decides.congr (by simpa [hmandatory] using hversion)

/-- The change requested under a name can be ignored by DRLS, or was made already. -/
def DrlsAccepts (previous requested : CommandConfig) (name : List UInt8) : Prop :=
  let change := getCommandFeatureState requested name
  let state := getCommandFeatureState previous unspecificFeature
  if cString name ≠ unspecificFeature then change.any FeatureState.requestedOptionally = true
  else change.any FeatureState.requestedMandatory = true →
    (change.any FeatureState.requestedEnabled && state.any FeatureState.actuallyEnabled ||
      change.any FeatureState.requestedDisabled && state.any FeatureState.actuallyDisabled) = true

theorem drlsMergeLoop_decides (h : w.Obliging) (previous requested : CommandConfig)
    (names : List (List UInt8)) :
    Decides (drlsMergeLoop previous requested names) w
      (∀ name ∈ names, DrlsAccepts previous requested name) := by
  induction names with
  | nil => exact accept_decides.congr (by simp)
  | cons name names ih =>
    rw [drlsMergeLoop]
    dsimp only
    refine .ite (fun hname => ?_) fun hname => ?_
    · have hiff : DrlsAccepts previous requested name ↔ (getCommandFeatureState requested name).any
          FeatureState.requestedOptionally = true := by simp [DrlsAccepts, hname]
      refine .ite (fun hoptional => ?_) fun hoptional => ?_
      · exact ih.congr (by rw [List.forall_mem_cons, hiff, and_iff_right hoptional])
      · exact (refuse_decides h _).congr (by rw [List.forall_mem_cons, hiff]; simp [hoptional])
    · rw [List.forall_mem_cons, DrlsAccepts, if_neg hname]
      refine .ite (fun hrefused => ?_) fun hrefused => ?_
      · refine (refuse_decides h _).congr (iff_of_false id ?_)
        rintro ⟨haccepts, -⟩
        rw [Bool.and_eq_true, Bool.not_eq_true'] at hrefused
        rw [haccepts hrefused.2] at hrefused
        cases hrefused.1
      · refine ih.congr (iff_and_self.2 fun _ hmandatory => ?_)
        rw [Bool.and_eq_true, Bool.not_eq_true', not_and_or, Bool.not_eq_false] at hrefused
        exact hrefused.resolve_right (not_not_intro hmandatory)

theorem drlsMergeConfig_decides (h : w.Obliging) (supported : ℕ)
    (previous requested : CommandConfig) :
    Decides (drlsMergeConfig supported previous requested) w
      (requested.version = supported ∧
        ∀ name ∈ featureFlagNames requested, DrlsAccepts previous requested name) := by
  refine .ite (fun hversion => ?_) fun hversion => ?_
  · exact (refuse_decides h _).congr (by simp [hversion])
  · refine Decides.bind (allocate_gives h) fun w' ht => ?_
    rw [if_pos rfl]
    have hloop := drlsMergeLoop_decides (h.ticks ht) previous requested (featureFlagNames requested)
    exact hloop.congr (and_iff_right (not_not.1 hversion)).symm

/-! ### Requests -/

variable {command : Command} {item : FeatureItem} {items : List FeatureItem}
  {features : Hashmap FeatureState} {v : ℤ} {name : List UInt8}

/-- The feature is enabled or disabled already, as the item asks. -/
def MadeAlready (previous : CommandConfig) (item : FeatureItem) : Prop :=
  let state := getCommandFeatureState previous item.name
  item.state.requestedEnabled = true ∧ state.any FeatureState.actuallyEnabled = true ∨
    item.state.requestedDisabled = true ∧ state.any FeatureState.actuallyDisabled = true

/-- What is asked of an item: only DRLS has a feature, and that cannot be changed. -/
def Grants (previous : CommandConfig) (command : Command) (item : FeatureItem) : Prop :=
  item.state.requestedMandatory = true →
    command = .drls ∧ item.name = unspecificFeature ∧ MadeAlready previous item

/-- A request that succeeds -/
structure Accepted (previous : CommandConfig) (command : Command) (v : ℤ)
    (items : List FeatureItem) :
    Prop where
  version : v % 2 ^ 16 = 1
  nodup : (items.map FeatureItem.name).Nodup
  grants : ∀ item ∈ items, Grants previous command item
  length_lt : (listText items).length < 2 ^ 31

theorem drlsAccepts_iff {version' : ℕ} (h : recordAll items Buckets.empty = some features)
    (hitem : item ∈ items) :
    DrlsAccepts previous ⟨version', features⟩ item.name ↔ Grants previous .drls item := by
  have hchange : getCommandFeatureState ⟨version', features⟩ item.name = some item.state := by
    rw [getCommandFeatureState, Hashmap.get, cString_name]
    exact (get_recordAll h).2 (.inl ⟨item, hitem, rfl, rfl⟩)
  rw [DrlsAccepts, hchange, cString_name, Grants]
  by_cases hname : item.name = unspecificFeature
  · rw [if_neg (not_not_intro hname), MadeAlready, hname, Bool.or_eq_true, Bool.and_eq_true,
      Bool.and_eq_true]
    exact imp_congr_right fun _ => ⟨fun h => ⟨rfl, rfl, h⟩, fun h => h.2.2⟩
  · rw [if_pos hname]
    obtain hstate | hstate | hstate | hstate := item.state_cases <;> rw [hstate] <;>
      simp [hname] <;> decide

theorem mergeConfig_decides (previous : CommandConfig) (command : Command) (version' : ℕ)
    (h : w.Obliging) (hrecord : recordAll items Buckets.empty = some features) :
    Decides (mergeConfig command previous ⟨version', features⟩) w
      (version' = 1 ∧ ∀ item ∈ items, Grants previous command item) := by
  by_cases hcommand : command = .drls
  · subst hcommand
    have hmerge := drlsMergeConfig_decides h (supportedVersion .drls) previous ⟨version', features⟩
    rw [mergeConfig]
    refine hmerge.congr (and_congr_right fun _ => ?_)
    constructor
    · intro haccepts item hitem
      exact (drlsAccepts_iff hrecord hitem).1
        (haccepts _ ((mem_featureFlagNames version' hrecord).2 ⟨item, hitem, rfl⟩))
    · intro hgrants name hname
      obtain ⟨item, hitem, rfl⟩ := (mem_featureFlagNames version' hrecord).1 hname
      exact (drlsAccepts_iff hrecord hitem).2 (hgrants item hitem)
  · have hmerge : mergeConfig command previous ⟨version', features⟩ =
        (mergeWithoutFeatures 1 ⟨version', features⟩ : M μ Merged) := by
      cases command with
      | drls => exact absurd rfl hcommand
      | _ => rfl
    rw [hmerge]
    refine (mergeWithoutFeatures_decides h 1 _).congr (and_congr_right fun _ => ?_)
    rw [← Bool.not_eq_true, hasMandatory_iff version' hrecord]
    simp [Grants, hcommand]

theorem mergeCommandConfig_decides (previous : CommandConfig) (command : Command) (version' : ℕ)
    (h : w.Obliging) (hrecord : recordAll items Buckets.empty = some features) :
    Decides (mergeCommandConfig command previous (some ⟨version', features⟩)) w
      (version' = 1 ∧ ∀ item ∈ items, Grants previous command item) := by
  obtain ⟨⟨err, newConfig, message⟩, hgives, hnone, haccepted, hrefused⟩ :=
    mergeConfig_decides previous command version' h hrecord
  dsimp only at hnone
  subst hnone
  by_cases hok : version' = 1 ∧ ∀ item ∈ items, Grants previous command item
  · have hresult := haccepted hok
    rw [hresult] at hgives
    exact ⟨_, hgives.bind fun w' _ => .pure _ _, rfl, fun _ => rfl, fun hno => absurd hok hno⟩
  · have herr : err = .unspecific := hrefused hok
    subst herr
    exact ⟨_, hgives.bind fun w' _ => .pure _ _, rfl, fun hyes => absurd hyes hok, fun _ => rfl⟩

/-- The client is told that all is done if the request is accepted, and an error otherwise. -/
def Answers (id : ChannelId) (accepted : Prop) (w : World μ) (result : ErrorCode × Option ℕ)
    (w' : World μ) : Prop :=
  (accepted → Succeeds id w result w') ∧ (¬ accepted → Fails id w result w')

variable {result : ErrorCode × Option ℕ} {w' w'' : World μ} {r : M μ (ErrorCode × Option ℕ)}

theorem Answers.of_ticks (ht : w.Ticks w') (h : Answers id P w' result w'') :
    Answers id P w result w'' :=
  ⟨fun hyes => ⟨(h.1 hyes).1, (h.1 hyes).2.of_ticks ht⟩,
    fun hno => ⟨(h.2 hno).1, (h.2 hno).2.of_ticks ht⟩⟩

theorem Answers.bind {α : Type} {a : α} {p : M μ α} {f : α → M μ (ErrorCode × Option ℕ)}
    (hp : Gives p w a) (hf : ∀ w', w.Ticks w' → Ends (f a) w' (Answers id P w')) :
    Ends (p >>= f) w (Answers id P w) :=
  hp.ends fun w' ht => .of_ticks ht (hf w' ht)

theorem Answers.of_fails (h : Ends r w (Fails id w)) (hno : ¬ P) : Ends r w (Answers id P w) :=
  ⟨fun hyes => absurd hyes hno, fun _ => h⟩

theorem Answers.congr (h : P ↔ P') (hr : Ends r w (Answers id P w)) : Ends r w (Answers id P' w) :=
  propext h ▸ hr

/-- The answer to a request whose features could be recorded. -/
theorem apply_answers (h : w.Obliging) (hid : w.channels.lookup id = some channel)
    (hinitial : channel.state = .initial) {version' : ℕ}
    (hrecord : recordAll items Buckets.empty = some features) :
    Ends (apply id command previous (some ⟨version', features⟩)) w
      (Answers id (version' = 1 ∧ ∀ item ∈ items, Grants previous command item) w) := by
  have hopen : channel.state ≠ .closed := by
    rw [hinitial]
    decide
  obtain ⟨⟨err, newConfig, message⟩, hgives, hnone, haccepted, hrefused⟩ :=
    mergeCommandConfig_decides previous command version' h hrecord
  dsimp only at hnone
  subst hnone
  refine .bind hgives fun w' ht => ?_
  have h' := h.ticks ht
  have hid' : w'.channels.lookup id = some channel := ht.channels ▸ hid
  by_cases hok : version' = 1 ∧ ∀ item ∈ items, Grants previous command item
  · obtain ⟨rfl, -, rfl⟩ := haccepted hok
    obtain ⟨-, htold⟩ := finishChannel_told none h' hid' hinitial
    exact ⟨fun _ => ⟨rfl, htold⟩, fun hno => absurd hok hno⟩
  · have herr : err = .unspecific := hrefused hok
    subst herr
    dsimp only
    rw [if_pos (show ErrorCode.unspecific ≠ .none by decide)]
    cases message with
    | none => exact .of_fails (giveUpWith_fails h' hid' hopen) hok
    | some message =>
      -- there is memory for the message
      refine .bind ((allocate_gives h').bind fun w'' _ => .pure _ _) fun w'' ht' => ?_
      exact .of_fails (giveUpWith_fails (h'.ticks ht') (ht'.channels ▸ hid') hopen) hok

theorem apply_none {previous : CommandConfig} (h : w.Obliging)
    (hid : w.channels.lookup id = some channel) (hopen : channel.state ≠ .closed) (hno : ¬ P) :
    Ends (apply id command previous none) w (Answers id P w) := by
  refine .bind (.pure _ w) fun w' ht => ?_
  exact .of_fails (giveUpWith_fails (h.ticks ht) (ht.channels ▸ hid) hopen) hno

/-- The parameters of a request behind the name of the command -/
def requestParameters (v : ℤ) (items : List FeatureItem) : List (List UInt8) :=
  decimalInt v :: if items = [] then [] else [listText items]

theorem strlen_listText (items : List FeatureItem) : strlen
    (listText items) = (listText items).length := by
  rw [strlen, cString_eq_self (nul_not_mem_listText items)]

theorem readFeatures_gives (h : w.Obliging) (config : CommandConfig)
    (hfits : (listText items).length < 2 ^ 31) :
    Gives (readFeatures (some config) (if items = [] then [] else [listText items])) w
      (match recordAll items config.features with
      | none => .error (some "multiple changes requested for same feature flag")
      | some features => .ok (some { config with features := features })) := by
  by_cases hitems : items = []
  · subst hitems
    exact .pure _ _
  · have hpos := List.length_pos_of_ne_nil hitems
    have hlength := length_le_listText items
    rw [if_neg hitems, readFeatures, strlen_listText, if_neg (by omega), if_neg (not_not_intro rfl),
      if_neg (by omega), cString_eq_self (nul_not_mem_listText _)]
    exact featureLoop_listText h config [] hlength (Nat.zero_add _).symm

/-- What stands behind the first item of a list. -/
theorem listText_split (item : FeatureItem) (items : List FeatureItem) :
    ∃ ch behind, listText (item :: items) ++ [0] = item.text ++ ch :: behind ∧
      item.text.length ≤ (listText (item :: items)).length ∧
      (ch = 44 ∨ ch = 0 ∧ (listText (item :: items)).length = item.text.length) := by
  by_cases hitems : items = []
  · subst hitems
    exact ⟨0, [], rfl, Nat.le_refl _, .inr ⟨rfl, rfl⟩⟩
  · rw [listText_cons item hitems]
    exact ⟨44, listText items ++ [0], by simp, by simp, .inl rfl⟩

theorem featureLoop_none {length fuel : ℕ} {ch : UInt8} (behind : List UInt8) (hfuel : 0 < fuel)
    (hle : item.text.length ≤ length) (hend : ch = 44 ∨ ch = 0 ∧ length = item.text.length) :
    Gives (featureLoop length fuel (item.text ++ ch :: behind) 0 none) w (.error none) := by
  obtain ⟨fuel, rfl⟩ := Nat.exists_eq_add_of_lt hfuel
  have hround := @featureLoop_item μ length (0 + fuel) [] behind item ch none (by simpa using hle)
    (by simpa using hend)
  rw [List.nil_append, List.length_nil] at hround
  rw [hround]
  exact (Gives.pure _ w).bind fun w' _ => .pure _ _

theorem readFeatures_none (w : World μ) (items : List FeatureItem) :
    ∃ requested, (requested = .ok none ∨ requested = .error none) ∧
      Gives (readFeatures none (if items = [] then [] else [listText items])) w requested := by
  cases items with
  | nil => exact ⟨_, .inl rfl, .pure _ _⟩
  | cons item items =>
    have hpos := length_le_listText (item :: items)
    rw [List.length_cons] at hpos
    rw [if_neg (List.cons_ne_nil _ _), readFeatures, strlen_listText, if_neg (by omega),
      if_neg (not_not_intro rfl)]
    by_cases hlong : 2 ^ 31 - 1 < (listText (item :: items)).length
    · rw [if_pos hlong]
      exact ⟨_, .inr rfl, .pure _ _⟩
    · rw [if_neg hlong, cString_eq_self (nul_not_mem_listText _)]
      obtain ⟨ch, behind, htext, hle, hend⟩ := listText_split item items
      rw [htext]
      exact ⟨.error none, .inr rfl, featureLoop_none behind (by omega) hle hend⟩

theorem getCommandConfiguration_gives (h : w.Obliging) (command : Command) :
    Gives (Server.getCommandConfiguration command) w (w.configs command) := by
  rw [Gives, Server.getCommandConfiguration, locked_granted h.granted]
  exact ⟨rfl, w.tick + 3, Nat.le_add_right _ _,
    congrArg (World.atTick · (w.tick + 3)) (World.apply_unlock_apply_lock w .session)⟩

/-- The answer to the part of a request behind the name of the command. -/
theorem reconfigure_answers (lib : Library) (h : w.Obliging)
    (hid : w.channels.lookup id = some channel) (hinitial : channel.state = .initial)
    (hpos : 1 ≤ v) (hlt : v < 2 ^ 31) :
    Ends (reconfigure lib id command previous (requestParameters v items)) w
      (Answers id (Accepted previous command v items) w) := by
  have hopen : channel.state ≠ .closed := by
    rw [hinitial]
    decide
  have htext : strlen (decimalInt v) ≠ 0 := by
    rw [strlen, cString_decimalInt, decimalInt, List.length_append]
    have := decimal_length_pos v.natAbs
    omega
  rw [requestParameters, reconfigure, if_neg htext]
  refine .bind (allocate_gives h) fun w₁ h₁ => ?_
  rw [if_pos rfl, parseInt_decimalInt lib (by omega) hlt]
  dsimp only
  rw [if_neg (by omega)]
  refine .bind (createCommandConfig_gives (h.ticks h₁) v) fun w₂ h₂ => ?_
  have hw₂ := (h.ticks h₁).ticks h₂
  have hid₂ : w₂.channels.lookup id = some channel := h₂.channels.trans h₁.channels ▸ hid
  by_cases hzero : v % 2 ^ 16 = 0
  · -- the version is converted to one that no configuration can have
    have hno : ¬ Accepted previous command v items := fun haccepted => by
      have := haccepted.version
      omega
    rw [if_pos hzero]
    obtain ⟨requested, hrequested, hread⟩ := readFeatures_none w₂ items
    refine .bind hread fun w₃ h₃ => ?_
    have hid₃ : w₃.channels.lookup id = some channel := h₃.channels ▸ hid₂
    rcases hrequested with rfl | rfl
    · exact apply_none (hw₂.ticks h₃) hid₃ hopen hno
    · exact .of_fails (giveUp_fails (hw₂.ticks h₃) hid₃ hopen) hno
  rw [if_neg hzero]
  by_cases hfits : (listText items).length < 2 ^ 31
  · refine .bind (readFeatures_gives hw₂ _ hfits) fun w₃ h₃ => ?_
    have hid₃ : w₃.channels.lookup id = some channel := h₃.channels ▸ hid₂
    have hnodup := recordAll_isSome_iff items Buckets.empty
    cases hrecord : recordAll items Buckets.empty with
    | none =>
      refine .of_fails (giveUpWith_fails (hw₂.ticks h₃) hid₃ hopen) fun haccepted => ?_
      rw [hrecord] at hnodup
      cases hnodup.2 ⟨haccepted.nodup, fun _ _ => rfl⟩
    | some features =>
      rw [hrecord] at hnodup
      have hversion : (v % 2 ^ 16).toNat = 1 ↔ v % 2 ^ 16 = 1 := by omega
      refine .congr ?_ (apply_answers (hw₂.ticks h₃) hid₃ hinitial hrecord)
      rw [hversion]
      constructor
      · rintro ⟨hversion, hgrants⟩
        exact ⟨hversion, (hnodup.1 rfl).1, hgrants, hfits⟩
      · exact fun haccepted => ⟨haccepted.version, haccepted.grants⟩
  · have hitems : items ≠ [] := by
      rintro rfl
      exact hfits (Nat.two_pow_pos 31)
    rw [if_neg hitems, readFeatures, strlen_listText, if_neg (by omega), if_neg (not_not_intro rfl),
      if_pos (by omega)]
    refine .bind (.pure _ _) fun w₃ h₃ => ?_
    exact .of_fails (giveUp_fails (hw₂.ticks h₃) (h₃.channels ▸ hid₂) hopen) fun haccepted =>
      hfits haccepted.length_lt

/-- The request for the version `v` and the features of a command -/
def request (id : ChannelId) (command : Command) (v : ℤ) (items : List FeatureItem) : Request :=
  ⟨id, bytes "SRFS", [], commandName command :: requestParameters v items⟩

theorem ofName_commandName (command : Command) :
    Command.ofName (commandName command) = some command ∧ strlen (commandName command) ≠ 0 := by
  cases command <;> decide

/-- **Which requests succeed.**  The version is compared after its conversion to 16 bits. -/
theorem create_answers (lib : Library) (items : List FeatureItem) (h : w.Obliging)
    (hid : w.channels.lookup id = some channel) (hinitial : channel.state = .initial)
    (hconfig : w.configs command = some previous) (hpos : 1 ≤ v) (hlt : v < 2 ^ 31) :
    Ends (create lib (request id command v items) commandVersion) w
      (Answers id (Accepted previous command v items) w) := by
  obtain ⟨hname, hlength⟩ := ofName_commandName command
  rw [create, if_neg (not_not_intro rfl), if_neg (not_eq_of_beq_eq_false rfl), request]
  dsimp only
  rw [if_neg hlength, hname]
  refine .bind (getCommandConfiguration_gives h command) fun w₁ h₁ => ?_
  rw [hconfig]
  exact reconfigure_answers lib (h.ticks h₁) (h₁.channels ▸ hid) hinitial hpos hlt

end Srfs

section

open Srfs

variable {μ : Type} {w : World μ} {id : ChannelId} {channel : Channel} {command : Command} {v : ℤ}

/-- The version is the supported one, the names are distinct, and nothing is mandatory. -/
structure Fulfillable (command : Command) (v : ℤ) (items : List FeatureItem) : Prop where
  version : v = supportedVersion command
  nodup : (items.map FeatureItem.name).Nodup
  optional : ∀ item ∈ items, item.state.requestedMandatory = false

/-- The request succeeds if it can be fulfilled, and only then; otherwise the client is told an
error, and the configuration of the command stays as it is, its features included. -/
def FollowsRequest (id : ChannelId) (command : Command) (v : ℤ) (items : List FeatureItem)
    (w : World μ) (result : ErrorCode × Option ℕ) (w' : World μ) : Prop :=
  (Succeeds id w result w' ↔ Fulfillable command v items) ∧
    (¬ Fulfillable command v items → Told id .err w w' ∧ w'.configs command = w.configs command)

/-- A request is followed iff what the code accepts can be fulfilled, and the other way round. -/
theorem follows_iff {r : M μ (ErrorCode × Option ℕ)} {accepted : Prop} {items : List FeatureItem}
    (hanswers : Ends r w (Answers id accepted w)) :
    Ends r w (FollowsRequest id command v items w) ↔ (accepted ↔ Fulfillable command v items) := by
  by_cases hok : accepted
  · have hsucceeds := hanswers.1 hok
    constructor
    · exact fun hfollow => iff_of_true hok (hfollow.1.1 hsucceeds)
    · intro hiff
      exact ⟨iff_of_true hsucceeds (hiff.1 hok), fun hno => absurd (hiff.1 hok) hno⟩
  · obtain ⟨herr, htold⟩ := hanswers.2 hok
    have hfails : ¬ Ends r w (Succeeds id w) := fun hsucceeds =>
        herr (congrArg Prod.fst hsucceeds.1)
    constructor
    · exact fun hfollow => iff_of_false hok fun hyes => hfails (hfollow.1.2 hyes)
    · intro hiff
      exact ⟨iff_of_false hfails fun hyes => hok (hiff.2 hyes),
        fun _ => ⟨htold, congrFun htold.configs command⟩⟩

/-- **Requests for commands without features** are followed as long as the version is not taken for
another one, and the list is not too long. -/
theorem srfs_follows_iff (lib : Library) (h : w.Obliging)
    (hid : w.channels.lookup id = some channel) (hinitial : channel.state = .initial)
    (hcommand : command = .cmtr ∨ command = .srfs) (hconfig : (w.configs command).isSome)
    (hpos : 1 ≤ v) (hmax : v ≤ 2 ^ 31 - 1) (items : List FeatureItem) :
    Ends (create lib (request id command v items) commandVersion) w
        (FollowsRequest id command v items w) ↔
      ((items.map FeatureItem.name).Nodup →
        (∀ item ∈ items, item.state.requestedMandatory = false) →
        ((listText items).length < 2 ^ 31 → v % 2 ^ 16 = 1 → v = 1) ∧
          (2 ^ 31 ≤ (listText items).length → v ≠ 1)) := by
  obtain ⟨previous, hprevious⟩ := Option.isSome_iff_exists.1 hconfig
  have hanswers := create_answers lib items h hid hinitial hprevious hpos (by omega)
  have hsupported : (supportedVersion command : ℤ) = 1 := by
    rcases hcommand with rfl | rfl <;> rfl
  have hgrants : ∀ item, Grants previous command item ↔ item.state.requestedMandatory = false := by
    rcases hcommand with rfl | rfl <;> simp [Grants]
  have haccepted : Accepted previous command v items ↔ v % 2 ^ 16 = 1 ∧
      (items.map FeatureItem.name).Nodup ∧ (∀ item ∈ items, item.state.requestedMandatory = false) ∧
        (listText items).length < 2 ^ 31 := by
    simp only [← hgrants]
    exact ⟨fun ⟨h₁, h₂, h₃, h₄⟩ => ⟨h₁, h₂, h₃, h₄⟩, fun ⟨h₁, h₂, h₃, h₄⟩ => ⟨h₁, h₂, h₃, h₄⟩⟩
  have hfulfillable : Fulfillable command v items ↔ v = 1 ∧ (items.map FeatureItem.name).Nodup ∧
      ∀ item ∈ items, item.state.requestedMandatory = false := by
    rw [← hsupported]
    exact ⟨fun ⟨h₁, h₂, h₃⟩ => ⟨h₁, h₂, h₃⟩, fun ⟨h₁, h₂, h₃⟩ => ⟨h₁, h₂, h₃⟩⟩
  rw [follows_iff hanswers, haccepted, hfulfillable]
  constructor
  · intro hiff hnodup hoptional
    refine ⟨fun hlength hversion => (hiff.1 ⟨hversion, hnodup, hoptional, hlength⟩).1, ?_⟩
    intro hlong hone
    exact absurd (hiff.2 ⟨hone, hnodup, hoptional⟩).2.2.2 (Nat.not_lt.2 hlong)
  · intro hcond
    constructor
    · rintro ⟨hversion, hnodup, hoptional, hlength⟩
      exact ⟨(hcond hnodup hoptional).1 hlength hversion, hnodup, hoptional⟩
    · rintro ⟨rfl, hnodup, hoptional⟩
      refine ⟨rfl, hnodup, hoptional, ?_⟩
      by_contra hlong
      exact (hcond hnodup hoptional).2 (Nat.not_lt.1 hlong) rfl

end

/-- A session with a new channel `aaaa` -/
def World.requested : World Unit :=
  { World.idle () with channels := .single ⟨0, .initial, false, none, none⟩ }

theorem World.requested_obliging : World.requested.Obliging := by
  refine ⟨fun _ => rfl, fun tick => ?_, fun _ => rfl, fun _ => ⟨⟨0, 0⟩, rfl, by decide⟩, by decide⟩
  rintro (h | ⟨-, h⟩ | h) <;> cases h

theorem World.requested_lookup :
    World.requested.channels.lookup 0 = some ⟨0, .initial, false, none, none⟩ :=
  ChannelsTable.lookup_single (by decide)

/-- `*x` -/
def FeatureItem.sample : FeatureItem :=
  ⟨.enabledDefault, bytes "x", rfl, by decide, by decide, by decide⟩

theorem srfs_follows_iff_sample :
    Ends (Srfs.create .calm (Srfs.request 0 .cmtr 1 [.sample]) Srfs.commandVersion) .requested
      (FollowsRequest 0 .cmtr 1 [.sample] .requested) :=
  (srfs_follows_iff .calm World.requested_obliging World.requested_lookup rfl (.inl rfl) rfl
    (by decide) (by decide) [.sample]).2 fun _ _ =>
      ⟨fun _ _ => rfl, fun hlong => absurd hlong (by decide)⟩

/-- The version 65537 of CMTR is taken for version 1. -/
theorem not_srfs_follows :
    ¬ Ends (Srfs.create .calm (Srfs.request 0 .cmtr 65537 []) Srfs.commandVersion) .requested
      (FollowsRequest 0 .cmtr 65537 [] .requested) := by
  intro hfollows
  have hanswers : Ends (Srfs.create .calm (Srfs.request 0 .cmtr 65537 []) Srfs.commandVersion)
      .requested
        (Srfs.Answers 0 (Srfs.Accepted (defaultConfig true .cmtr) .cmtr 65537 []) .requested) :=
    Srfs.create_answers .calm [] World.requested_obliging World.requested_lookup rfl rfl (by decide)
      (by decide)
  have hsucceeds := hanswers.1 ⟨by decide, List.nodup_nil, fun _ h => absurd h List.not_mem_nil,
    Nat.two_pow_pos 31⟩
  exact absurd (hfollows.1.1 hsucceeds).version (by decide)

end XprcServer
