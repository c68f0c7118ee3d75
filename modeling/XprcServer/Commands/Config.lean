import XprcServer.Channels.Basic
import XprcServer.Hashmap

/-!
# Command configurations

`command.c`: a configuration of a command has a version and a state for each of its features.  A
session keeps one for every command, and starts with those that `create_default_config` makes.

* `featureFlagNames_default` : the features that a new configuration lists;
* `defaultConfig_sound` : each of them has a state.
-/

namespace XprcServer

open Lib

/-- `feature_state_t`, by the characters that stand for the states; no state is
`COMMAND_FEATURE_STATE_NONE`. -/
inductive FeatureState where
  | enabledDefault -- '*'
  | disabledDefault -- '?'
  | enabledClient -- '+'
  | disabledClient -- '-'
  | unavailable -- '/'
  | enabledAlways -- ' '
  deriving DecidableEq, Repr

namespace FeatureState

/-- `COMMAND_FEATURE_STATE_ENABLE` -/
abbrev enable : FeatureState := enabledClient

/-- `COMMAND_FEATURE_STATE_DISABLE` -/
abbrev disable : FeatureState := disabledClient

/-- `COMMAND_FEATURE_STATE_ENABLE_ONLY_IF_POSSIBLE` -/
abbrev enableOnlyIfPossible : FeatureState := enabledDefault

/-- `COMMAND_FEATURE_STATE_DISABLE_ONLY_IF_POSSIBLE` -/
abbrev disableOnlyIfPossible : FeatureState := unavailable

/-- `is_command_feature_actually_enabled` -/
def actuallyEnabled (state : FeatureState) : Bool :=
  state = enabledAlways || state = enabledClient || state = enabledDefault

/-- `is_command_feature_actually_disabled` -/
def actuallyDisabled (state : FeatureState) : Bool :=
  state = disabledClient || state = disabledDefault || state = unavailable

/-- `is_command_feature_requested_enabled` -/
def requestedEnabled (state : FeatureState) : Bool := state = enable || state = enableOnlyIfPossible

/-- `is_command_feature_requested_disabled` -/
def requestedDisabled (state : FeatureState) : Bool :=
  state = disable || state = disableOnlyIfPossible

/-- `is_command_feature_requested_optionally` -/
def requestedOptionally (state : FeatureState) : Bool :=
  state = enableOnlyIfPossible || state = disableOnlyIfPossible

/-- `is_command_feature_requested_mandatory` -/
def requestedMandatory (state : FeatureState) : Bool := state = enable || state = disable

/-- The state that a client asks for by a character. -/
def ofRequest (ch : UInt8) : Option FeatureState :=
  if ch = 43 then some enable -- '+'
  else if ch = 45 then some disable -- '-'
  else if ch = 42 then some enableOnlyIfPossible -- '*'
  else if ch = 47 then some disableOnlyIfPossible -- '/'
  else none

end FeatureState

/-- `command_config_t` -/
structure CommandConfig where
  version : ℕ
  features : Hashmap FeatureState

/-- `get_command_feature_state` -/
def getCommandFeatureState (config : CommandConfig) (name : List UInt8) : Option FeatureState :=
  config.features.get name

/-- The names that `reference_feature_flag_names` lists -/
def featureFlagNames (config : CommandConfig) : List (List UInt8) :=
  config.features.keys ((List.range (2 ^ 16)).map UInt16.ofNat)

/-- The version constant of each command -/
def supportedVersion : Command → ℕ
  | .cmhd | .cmrg | .cmtr | .drci | .drls | .drqv | .drmu | .srfs | .srid | .srlc => 1

/-- The name of the only feature that any command has -/
def unspecificFeature : List UInt8 := bytes "unspecific"

/-- The features of `create_default_config`; `unspecific` is `COMMAND_DRLS_UNSPECIFIC_SUPPORTED`. -/
def defaultFeatures (unspecific : Bool) : Command → Hashmap FeatureState
  | .drls => Hashmap.put Buckets.empty unspecificFeature
      (if unspecific then .enabledAlways else .unavailable)
  | _ => Buckets.empty

/-- `create_default_config` of a command when there is memory -/
def defaultConfig (unspecific : Bool) (command : Command) : CommandConfig :=
  ⟨supportedVersion command, defaultFeatures unspecific command⟩

theorem featureFlagNames_default (unspecific : Bool) (command : Command) (version : ℕ) :
    featureFlagNames ⟨version, defaultFeatures unspecific command⟩ =
      if command = .drls then [unspecificFeature] else [] := by
  have hunspecific : cString unspecificFeature = unspecificFeature := by decide
  by_cases hdrls : command = .drls
  · subst hdrls
    rw [if_pos rfl]
    refine Hashmap.keys_eq_of_hashes (Buckets.proper_empty.put _ _) (List.pairwise_singleton _ _)
      fun name => ?_
    change name ∈ _ ↔ (Buckets.get computeHash
      (Buckets.put computeHash _ (cString unspecificFeature) _) name).isSome
    rw [hunspecific, List.mem_singleton]
    by_cases hname : name = unspecificFeature
    · rw [hname, Buckets.get_put_self]
      simp
    · rw [Buckets.get_put_of_ne _ _ hname, Buckets.get_empty]
      simp [hname]
  · have hempty : defaultFeatures unspecific command = Buckets.empty := by
      cases command with
      | drls => exact absurd rfl hdrls
      | _ => rfl
    rw [if_neg hdrls, hempty]
    exact Hashmap.keys_eq_of_hashes Buckets.proper_empty .nil fun name => by simp

theorem getCommandFeatureState_default (unspecific : Bool) (version : ℕ) :
    getCommandFeatureState ⟨version, defaultFeatures unspecific .drls⟩ unspecificFeature =
      some (if unspecific then .enabledAlways else .unavailable) :=
  Hashmap.get_put_self _ _ _

/-- A configuration that can be described: it has a version, and a state for every feature it
lists. -/
structure CommandConfig.Sound (config : CommandConfig) : Prop where
  version_pos : 1 ≤ config.version
  listed : ∀ name ∈ featureFlagNames config, (getCommandFeatureState config name).isSome

theorem defaultConfig_sound (unspecific : Bool) (command : Command) :
    (defaultConfig unspecific command).Sound := by
  refine ⟨?_, fun name hname => ?_⟩
  · cases command <;> exact Nat.le_refl 1
  · rw [defaultConfig, featureFlagNames_default] at hname
    by_cases hdrls : command = .drls
    · subst hdrls
      rw [if_pos rfl, List.mem_singleton] at hname
      rw [hname, defaultConfig, getCommandFeatureState_default]
      rfl
    · rw [if_neg hdrls] at hname
      cases hname

end XprcServer
