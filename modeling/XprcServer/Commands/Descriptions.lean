import XprcServer.Commands.Srfs
import XprcServer.Session.Talks

/-!
# SRID and SRLC, the commands that describe the server

SRID tells what the server is, and SRLC which commands it has, in which version and with which
features.  Both complete at once: they confirm the channel, say one message after the other, and
close it with the last one.

SRLC takes its own configuration first, and then the others in the order in which the hash map of
the commands lists them.  The channel is closed with the last name of that list, unless it is SRLC's
own.

* `Descriptions.commandNames_eq` : the order of the list;
* `Descriptions.create_srid_speaks`, `Descriptions.create_srlc_speaks` : what the client is told;
* `srlc_lists` : every command exactly once, SRLC first, and the last message closes the channel.
-/

namespace XprcServer

open Lib

namespace Descriptions

open Session Features Srfs

variable {μ : Type}

/-- The checks of `srid_create` and `srlc_create` -/
def withoutArguments (request : Request) (supported version : ℕ)
    (body : M μ (ErrorCode × Option ℕ)) :
    M μ (ErrorCode × Option ℕ) :=
  if version ≠ supported then reject request.channelId "unexpected command version"
  else if request.hasOnlyOptions [] = false then reject request.channelId "unsupported options"
  else if request.parameters ≠ [] then reject request.channelId "unsupported parameters"
  else body

/-! ### SRID -/

/-- `SRID_COMMAND_VERSION` -/
def sridCommandVersion : ℕ := 1

/-- The constants of the build, and what X-Plane told about itself -/
structure ServerInfo where
  serverId : List UInt8
  serverName : List UInt8
  serverVersion : List UInt8
  serverWebsite : List UInt8
  buildId : List UInt8
  buildRef : List UInt8
  buildTime : List UInt8
  buildTarget : List UInt8
  xplmVersion : ℤ
  xplaneVersion : ℤ

/-- Messages that continue the channel, whether or not they get through -/
def continueAll (id : ChannelId) : List (List UInt8) → M μ Unit
  | [] => pure ()
  | text :: texts => do
    let _ ← continueChannel id currentTimeReference (some text)
    continueAll id texts

/-- A message with a number; `outError` is the error so far. -/
def continueFormatted (id : ChannelId) (outError : ErrorCode) (text : List UInt8) :
    M μ ErrorCode := do
  match ← sprintf text with
  | none => pure .incomplete
  | some text => do
    let _ ← continueChannel id currentTimeReference (some text)
    pure outError

/-- A message that is left out if its value is empty -/
def unlessEmpty (key : String) (value : List UInt8) : List (List UInt8) :=
  if 0 < value.length then [bytes key ++ value] else []

/-- `srid_create` behind the checks -/
def identify (info : ServerInfo) (id : ChannelId) : M μ (ErrorCode × Option ℕ) := do
  let _ ← confirmChannel id currentTimeReference none
  continueAll id ([bytes "id:" ++ info.serverId, bytes "name:" ++ info.serverName,
    bytes "version:" ++ info.serverVersion] ++ unlessEmpty "website:" info.serverWebsite)
  let outError ← continueFormatted id .none (bytes "apiversion:" ++ decimalInt info.xplmVersion)
  let outError ← continueFormatted id outError (bytes "xpversion:" ++ decimalInt info.xplaneVersion)
  continueAll id (unlessEmpty "x-build-id:" info.buildId ++
    unlessEmpty "x-build-ref:" info.buildRef ++ unlessEmpty "x-build-time:" info.buildTime)
  let _ ← finishChannel id currentTimeReference (some (bytes "x-build-target:" ++ info.buildTarget))
  pure (outError, none)

/-- `srid_create` -/
def createSrid (info : ServerInfo) (request : Request) (version : ℕ) : M μ (ErrorCode × Option ℕ) :=
  withoutArguments request sridCommandVersion version (identify info request.channelId)

/-! ### SRLC -/

/-- `SRLC_COMMAND_VERSION` -/
def srlcCommandVersion : ℕ := 1

/-- The commands in the order in which `create_command_factory` registers them -/
def registeredCommands : List Command :=
  [.cmhd, .cmrg, .cmtr, .drci, .drls, .drqv, .drmu, .srfs, .srid, .srlc]

/-- `register_command` -/
def registerCommand (factory : Hashmap Command) (command : Command) : Hashmap Command :=
  factory.put (commandName command) command

/-- `commands_by_name` after `create_command_factory` -/
def commandFactory : Hashmap Command := registeredCommands.foldl registerCommand Buckets.empty

/-- The keys of `commands_by_name` in the order of `hashmap_reference_keys` -/
def commandNames : List (List UInt8) := commandFactory.keys ((List.range (2 ^ 16)).map UInt16.ofNat)

/-- One allocation for each of `n` items -/
def allocateAll : ℕ → M μ Bool
  | 0 => pure true
  | n + 1 => do if ← Session.allocate then allocateAll n else pure false

/-- `hashmap_reference_keys` on a map with `n` keys: whether there is memory for the list. -/
def referenceKeys (n : ℕ) : M μ Bool := do
  if ← Session.allocate then allocateAll n else pure false

/-- `list_command_names` -/
def listCommandNames : M μ (Option (List (List UInt8))) := do
  if ← referenceKeys commandNames.length then
    if ← allocateAll commandNames.length then pure (some commandNames) else pure none
  else pure none

/-- The character before the name of a feature, if the state has one -/
def stateEncoded : FeatureState → List UInt8
  | .enabledDefault => [42]
  | .disabledDefault => [63]
  | .enabledClient => [43]
  | .disabledClient => [45]
  | .unavailable => [47]
  | .enabledAlways => []

/-- The loop of `send_command_configuration` over the names of the features -/
def addFeatures (config : CommandConfig) : List (List UInt8) → Bool → List UInt8 →
    M μ (Except ErrorCode (List UInt8))
  | [], _, msg => pure (.ok msg)
  | name :: names, isFirst, msg =>
    match getCommandFeatureState config name with
    | none => pure (.error .unspecific)
    | some state => do
      match ← sprintf
          (msg ++ (if isFirst then 58 else 44) :: (stateEncoded state ++ cString name)) with
      | none => pure (.error .memoryAllocation)
      | some msg => addFeatures config names false msg

/-- `send_command_configuration` -/
def sendCommandConfiguration (id : ChannelId) (name : List UInt8) (finish : Bool) : M μ ErrorCode :=
  match Command.ofName name with
  | none => pure .unspecific
  | some command => do
    match ← Server.getCommandConfiguration command with
    | none => pure .unspecific
    | some config =>
      if config.version < 1 then pure .unspecific
      else do
        match ← sprintf (cString name ++ 58 :: decimal config.version) with
        | none => pure .memoryAllocation
        | some msg =>
          if ← referenceKeys (featureFlagNames config).length then do
            match ← addFeatures config (featureFlagNames config) true msg with
            | .error err => pure err
            | .ok msg =>
              if finish then finishChannel id currentTimeReference (some msg)
              else continueChannel id currentTimeReference (some msg)
          else pure .unspecific

/-- The loop of `srlc_create` over the names of the commands -/
def sendConfigurations (id : ChannelId) : List (List UInt8) → M μ ErrorCode
  | [] => pure .none
  | name :: names =>
    -- SRLC was described before
    if cString name = commandName .srlc then sendConfigurations id names
    else do
      let err ← sendCommandConfiguration id name names.isEmpty
      if err ≠ .none then pure err else sendConfigurations id names

/-- `srlc_create` behind the checks -/
def describe (id : ChannelId) : M μ (ErrorCode × Option ℕ) := do
  match ← listCommandNames with
  | none => giveUp id .none
  | some names => do
    let _ ← confirmChannel id currentTimeReference none
    let err ← sendCommandConfiguration id (commandName .srlc) names.isEmpty
    if err ≠ .none then giveUp id .incomplete
    else do
      let err ← sendConfigurations id names
      if err ≠ .none then giveUp id .incomplete else pure (.none, none)

/-- `srlc_create` -/
def createSrlc (request : Request) (version : ℕ) : M μ (ErrorCode × Option ℕ) :=
  withoutArguments request srlcCommandVersion version (describe request.channelId)

/-! ### The order of the commands -/

theorem cString_commandName (command : Command) : cString
    (commandName command) = commandName command := by
  cases command <;> decide

/-- What is found in the map after some registrations -/
theorem get_foldl_put (commands : List Command) (factory : Hashmap Command) (name : List UInt8) :
    Buckets.get computeHash (commands.foldl registerCommand factory) name =
      (commands.reverse.find? fun command => name = commandName command).or
        (Buckets.get computeHash factory name) := by
  induction commands generalizing factory with
  | nil => rfl
  | cons command commands ih =>
    rw [List.foldl_cons, ih, List.reverse_cons, List.find?_append, Option.or_assoc, registerCommand,
      Hashmap.put, cString_commandName]
    congr 1
    by_cases hname : name = commandName command
    · rw [hname, Buckets.get_put_self]
      simp
    · rw [Buckets.get_put_of_ne _ _ hname]
      simp [hname]

theorem get_commandFactory_eq_none {name : List UInt8} (h : ∀ command, name ≠ commandName command) :
    Buckets.get computeHash commandFactory name = none := by
  rw [commandFactory, get_foldl_put, Buckets.get_empty, Option.or_none]
  exact List.find?_eq_none.2 fun command _ => by simpa using h command

theorem get_commandFactory_commandName (command : Command) :
    Buckets.get computeHash commandFactory (commandName command) = some command := by
  rw [commandFactory, get_foldl_put, Buckets.get_empty, Option.or_none]
  cases command <;> decide

theorem proper_commandFactory : commandFactory.Proper computeHash := by
  have hproper : ∀ (commands : List Command) (factory : Hashmap Command),
      factory.Proper computeHash →
      (commands.foldl registerCommand factory).Proper computeHash := by
    intro commands
    induction commands with
    | nil => exact fun _ h => h
    | cons command commands ih =>
      exact fun factory h => ih _ (h.put (cString (commandName command)) command)
  exact hproper registeredCommands _ Buckets.proper_empty

/-- The commands in the order of the hash values of their names -/
def listedCommands : List Command :=
  [.drci, .drls, .drmu, .drqv, .srid, .srlc, .cmhd, .srfs, .cmrg, .cmtr]

/-- SRLC is not the last one of the list. -/
theorem commandNames_eq : commandNames = listedCommands.map commandName := by
  refine Hashmap.keys_eq_of_hashes proper_commandFactory (by decide) fun name =>
    ⟨fun hname => ?_, fun hname => ?_⟩
  · obtain ⟨command, -, rfl⟩ := List.mem_map.1 hname
    rw [get_commandFactory_commandName]
    rfl
  · by_contra hne
    rw [get_commandFactory_eq_none] at hname
    · cases hname
    · rintro command rfl
      refine hne (List.mem_map_of_mem ?_)
      cases command <;> decide

/-! ### What is said -/

variable {w : World μ} {id : ChannelId} {command : Command} {config : CommandConfig}

/-- The features behind the version, each with its state -/
def featuresText (config : CommandConfig) : Bool → List (List UInt8) → List UInt8
  | _, [] => []
  | isFirst, name :: names =>
    (if isFirst then 58 else 44) ::
      ((getCommandFeatureState config name).elim [] stateEncoded ++ cString name) ++
        featuresText config false names

/-- What SRLC tells about a command -/
def configurationText (command : Command) (config : CommandConfig) : List UInt8 :=
  commandName command ++ 58 :: decimal config.version ++
    featuresText config true (featureFlagNames config)

/-- What it tells about a new configuration: only DRLS has a feature. -/
theorem configurationText_default (unspecific : Bool) (command : Command) (version : ℕ) :
    configurationText command ⟨version, defaultFeatures unspecific command⟩ =
      commandName command ++ 58 :: decimal version ++
        if command = .drls then 58 :: ((if unspecific then [] else [47]) ++ unspecificFeature)
        else [] := by
  rw [configurationText, featureFlagNames_default]
  by_cases hdrls : command = .drls
  · subst hdrls
    have hcString : cString unspecificFeature = unspecificFeature := by decide
    rw [if_pos rfl, if_pos rfl, featuresText, getCommandFeatureState_default, hcString]
    cases unspecific <;> rfl
  · rw [if_neg hdrls, if_neg hdrls]
    rfl

theorem sprintf_gives (h : w.Obliging) (text : List UInt8) : Gives (sprintf text) w (some text) :=
  (allocate_gives h).bind fun _ _ => .pure _ _

theorem allocateAll_gives (h : w.Obliging) (n : ℕ) : Gives (allocateAll n) w true := by
  induction n generalizing w with
  | zero => exact .pure _ _
  | succ n ih => exact (allocate_gives h).bind fun w' ht => ih (h.ticks ht)

theorem referenceKeys_gives (h : w.Obliging) (n : ℕ) : Gives (referenceKeys n) w true :=
  (allocate_gives h).bind fun _ ht => allocateAll_gives (h.ticks ht) n

theorem listCommandNames_gives (h : w.Obliging) : Gives listCommandNames w (some commandNames) := by
  refine (referenceKeys_gives h _).bind fun w' ht => ?_
  exact (allocateAll_gives (h.ticks ht) _).bind fun _ _ => .pure _ _

theorem addFeatures_gives (h : w.Obliging) (config : CommandConfig) {names : List (List UInt8)}
    (hnames : ∀ name ∈ names, (getCommandFeatureState config name).isSome) (isFirst : Bool)
    (msg : List UInt8) :
    Gives (addFeatures config names isFirst msg) w
      (.ok (msg ++ featuresText config isFirst names)) := by
  induction names generalizing w isFirst msg with
  | nil =>
    rw [featuresText, List.append_nil]
    exact .pure _ _
  | cons name names ih =>
    obtain ⟨hname, hnames⟩ := List.forall_mem_cons.1 hnames
    obtain ⟨state, hstate⟩ := Option.isSome_iff_exists.1 hname
    rw [addFeatures, featuresText, hstate]
    refine (sprintf_gives h _).bind fun w' ht => ?_
    have hrest := ih (h.ticks ht) hnames false
      (msg ++ (if isFirst then 58 else 44) :: (stateEncoded state ++ cString name))
    rw [List.append_assoc] at hrest
    exact hrest

theorem sendCommandConfiguration_tells (finish : Bool) (h : w.Obliging) (hw : w.Confirmed id)
    (hconfig : w.configs command = some config) (hsound : config.Sound) :
    Tells (sendCommandConfiguration id (commandName command) finish) id w
      [(if finish then .close else .continues, some (configurationText command config))] .none := by
  rw [sendCommandConfiguration, (ofName_commandName command).1]
  refine .after (getCommandConfiguration_gives h command) fun w₁ h₁ => ?_
  rw [hconfig]
  dsimp only
  rw [if_neg (Nat.not_lt.2 hsound.version_pos)]
  refine .after (sprintf_gives (h.ticks h₁) _) fun w₂ h₂ => ?_
  have hw₂ := (h.ticks h₁).ticks h₂
  refine .after (referenceKeys_gives hw₂ _) fun w₃ h₃ => ?_
  have hw₃ := hw₂.ticks h₃
  rw [if_pos rfl]
  refine .after (addFeatures_gives hw₃ config hsound.listed true _) fun w₄ h₄ => ?_
  have hconfirmed : w₄.Confirmed id := by
    obtain ⟨channel, hid, hstate⟩ := hw
    refine ⟨channel, ?_, hstate⟩
    rw [h₄.channels, h₃.channels, h₂.channels, h₁.channels, hid]
  rw [cString_commandName]
  cases finish with
  | true => exact closeChannel_tells (hw₃.ticks h₄) _ hconfirmed
  | false => exact continueChannel_tells (hw₃.ticks h₄) _ hconfirmed

/-- The messages about commands, of which the last one closes the channel -/
def configurationMessages (config : Command → CommandConfig) : List Command → List Message
  | [] => []
  | [command] => [(.close, some (configurationText command (config command)))]
  | command :: commands =>
    (.continues, some (configurationText command (config command))) ::
      configurationMessages config commands

theorem commandName_injective : Function.Injective commandName := by
  intro command command' heq
  have hname := congrArg Command.ofName heq
  rw [(ofName_commandName command).1, (ofName_commandName command').1] at hname
  exact Option.some.inj hname

/-- The loop tells about the commands one by one, without SRLC, which is not the last one. -/
theorem sendConfigurations_tells (h : w.Obliging) (hw : w.Confirmed id)
    {config : Command → CommandConfig}
    (hconfig : ∀ command, w.configs command = some (config command))
    (hsound : ∀ command, (config command).Sound) {commands : List Command}
    (hlast : commands.getLast? ≠ some .srlc) :
    Tells (sendConfigurations id (commands.map commandName)) id w
      (configurationMessages config (commands.filter (· ≠ .srlc))) .none := by
  induction commands generalizing w with
  | nil => exact .pure _ _
  | cons command commands ih =>
    have hrest : commands ≠ [] → commands.getLast? ≠ some .srlc := by
      intro hne
      obtain ⟨next, more, rfl⟩ := List.exists_cons_of_ne_nil hne
      rwa [List.getLast?_cons_cons] at hlast
    rw [List.map_cons, sendConfigurations, cString_commandName]
    by_cases hsrlc : command = .srlc
    · subst hsrlc
      rw [if_pos rfl, List.filter_cons_of_neg (by simp)]
      refine ih h hw hconfig (hrest ?_)
      rintro rfl
      exact hlast rfl
    · rw [if_neg (commandName_injective.ne hsrlc), List.filter_cons_of_pos (by simpa using hsrlc)]
      have hsent := @sendCommandConfiguration_tells _ _ id command _
        (commands.map commandName).isEmpty h hw (hconfig command) (hsound command)
      cases commands with
      | nil =>
        exact hsent.bind fun w' hspoke => .pure _ _
      | cons next commands =>
        -- the channel stays open, and another command than SRLC follows
        have hne : (next :: commands).filter (· ≠ .srlc) ≠ [] := by
          intro hnil
          have hall := List.filter_eq_nil_iff.1 hnil
          have hmem := List.getLast_mem (List.cons_ne_nil next commands)
          have hlast' := hall _ hmem
          refine hrest (List.cons_ne_nil _ _) ?_
          rw [List.getLast?_eq_getLast_of_ne_nil (List.cons_ne_nil _ _)]
          simpa using hlast'
        obtain ⟨follower, followers, hfollowers⟩ := List.exists_cons_of_ne_nil hne
        have hmessages : configurationMessages config
            (command :: (next :: commands).filter (· ≠ .srlc)) =
            [(.continues, some (configurationText command (config command)))] ++
              configurationMessages config ((next :: commands).filter (· ≠ .srlc)) := by
          rw [hfollowers]
          rfl
        rw [hmessages]
        refine hsent.bind fun w' hspoke => ?_
        rw [if_neg (not_not_intro rfl)]
        have haside := hspoke.aside
        refine ih (hspoke.obliging h) (hspoke.confirmed ?_ hw) ?_ (hrest (List.cons_ne_nil _ _))
        · exact List.forall_mem_singleton.2 rfl
        · intro command'
          rw [haside.configs, hconfig]

/-- The messages of `continueAll` -/
def continueMessages (texts : List (List UInt8)) : List Message :=
  texts.map fun text => (.continues, some text)

theorem continueMessages_continues (texts : List (List UInt8)) :
    ∀ m ∈ continueMessages texts, m.Continues := by
  intro m hm
  obtain ⟨text, -, rfl⟩ := List.mem_map.1 hm
  rfl

theorem continueAll_tells (h : w.Obliging) (hw : w.Confirmed id) (texts : List (List UInt8)) :
    Tells (continueAll id texts) id w (continueMessages texts) () := by
  induction texts generalizing w with
  | nil => exact .pure _ _
  | cons text texts ih =>
    refine (continueChannel_tells h (some text) hw).bind fun w' hspoke => ?_
    exact ih (hspoke.obliging h) (hspoke.confirmed (List.forall_mem_singleton.2 rfl) hw)

theorem continueFormatted_tells (h : w.Obliging) (hw : w.Confirmed id) (outError : ErrorCode)
    (text : List UInt8) :
    Tells (continueFormatted id outError text) id w (continueMessages [text]) outError := by
  refine .after (sprintf_gives h text) fun w' ht => ?_
  have hw' : w'.Confirmed id := by
    obtain ⟨channel, hid, hstate⟩ := hw
    exact ⟨channel, ht.channels ▸ hid, hstate⟩
  exact (continueChannel_tells (h.ticks ht) _ hw').bind fun _ _ => .pure _ _

/-- What SRID says -/
def identityMessages (info : ServerInfo) : List Message :=
  [(.ackContinue, none)] ++ (continueMessages ([bytes "id:" ++ info.serverId,
      bytes "name:" ++ info.serverName, bytes "version:" ++ info.serverVersion] ++
        unlessEmpty "website:" info.serverWebsite) ++
    (continueMessages [bytes "apiversion:" ++ decimalInt info.xplmVersion] ++
      (continueMessages [bytes "xpversion:" ++ decimalInt info.xplaneVersion] ++
        (continueMessages (unlessEmpty "x-build-id:" info.buildId ++
            unlessEmpty "x-build-ref:" info.buildRef ++
              unlessEmpty "x-build-time:" info.buildTime) ++
          [(.close, some (bytes "x-build-target:" ++ info.buildTarget))]))))

theorem identityMessages_closing (info : ServerInfo) : Closing (identityMessages info) := by
  have hcontinue := continueMessages_continues
  have hlast : Closing [(.close, some (bytes "x-build-target:" ++ info.buildTarget))] := .single rfl
  exact ((((hlast.behind (hcontinue _)).behind (hcontinue _)).behind (hcontinue _)).behind
    (hcontinue _)).behind (List.forall_mem_singleton.2 rfl)

theorem identify_tells {channel : Channel} (info : ServerInfo) (h : w.Obliging)
    (hid : w.channels.lookup id = some channel) (hinitial : channel.state = .initial) :
    Tells (identify info id) id w (identityMessages info) (.none, none) := by
  refine (confirmChannel_tells h none hid hinitial).bind fun w₁ h₁ => ?_
  have hw₁ := h₁.obliging h
  have hopen₁ := h₁.confirms rfl
  refine (continueAll_tells hw₁ hopen₁ _).bind fun w₂ h₂ => ?_
  have hw₂ := h₂.obliging hw₁
  have hopen₂ := h₂.confirmed (continueMessages_continues _) hopen₁
  refine (continueFormatted_tells hw₂ hopen₂ .none _).bind fun w₃ h₃ => ?_
  have hw₃ := h₃.obliging hw₂
  have hopen₃ := h₃.confirmed (continueMessages_continues _) hopen₂
  refine (continueFormatted_tells hw₃ hopen₃ .none _).bind fun w₄ h₄ => ?_
  have hw₄ := h₄.obliging hw₃
  have hopen₄ := h₄.confirmed (continueMessages_continues _) hopen₃
  refine (continueAll_tells hw₄ hopen₄ _).bind fun w₅ h₅ => ?_
  have hopen₅ := h₅.confirmed (continueMessages_continues _) hopen₄
  rw [← List.append_nil [_]]
  exact (closeChannel_tells (h₅.obliging hw₄) _ hopen₅).bind fun _ _ => .pure _ _

/-- The commands in the order in which SRLC describes them -/
def describedCommands : List Command := .srlc :: listedCommands.filter (· ≠ .srlc)

theorem commandNames_ne_nil : commandNames.isEmpty = false := by
  rw [commandNames_eq]
  rfl

theorem describe_tells {channel : Channel} (h : w.Obliging)
    (hid : w.channels.lookup id = some channel)
    (hinitial : channel.state = .initial) {config : Command → CommandConfig}
    (hconfig : ∀ command, w.configs command = some (config command))
    (hsound : ∀ command, (config command).Sound) :
    Tells (describe id) id w
      ((.ackContinue, none) :: configurationMessages config describedCommands)
      (.none, none) := by
  refine .after (listCommandNames_gives h) fun w₁ h₁ => ?_
  dsimp only
  rw [commandNames_ne_nil]
  refine (confirmChannel_tells (h.ticks h₁) none (h₁.channels ▸ hid) hinitial).bind fun w₂ h₂ => ?_
  have hw₂ := h₂.obliging (h.ticks h₁)
  have hconfirmed := h₂.confirms rfl
  have hconfig₂ : ∀ command, w₂.configs command = some (config command) := by
    intro command
    rw [h₂.aside.configs, (World.Ticks.aside h₁ id).configs, hconfig]
  refine (sendCommandConfiguration_tells false hw₂ hconfirmed (hconfig₂ .srlc) (hsound .srlc)).bind
    fun w₃ h₃ => ?_
  rw [if_neg (not_not_intro rfl), commandNames_eq]
  have hloop := @sendConfigurations_tells _ w₃ id (h₃.obliging hw₂)
    (h₃.confirmed (List.forall_mem_singleton.2 rfl) hconfirmed) config
    (fun command => by rw [h₃.aside.configs, hconfig₂]) hsound listedCommands (by decide)
  rw [← List.append_nil (configurationMessages _ _)]
  exact hloop.bind fun w₄ h₄ => .pure _ _

end Descriptions

open Descriptions Srfs in
/-- **SRLC lists every command exactly once**, itself first; the last message, and no other one,
closes the channel. -/
theorem srlc_lists {μ : Type} {w : World μ} {channel : Channel} (request : Request) (h : w.Obliging)
    (hid : w.channels.lookup request.channelId = some channel)
    (hinitial : channel.state = .initial) (hoptions : request.options = [])
    (hparameters : request.parameters = []) {config : Command → CommandConfig}
    (hconfig : ∀ command, w.configs command = some (config command))
    (hsound : ∀ command, (config command).Sound) :
    let messages := (.ackContinue, none) :: configurationMessages config describedCommands
    Tells (createSrlc request srlcCommandVersion) request.channelId w messages (.none, none) ∧
      Closing messages ∧ describedCommands.Perm registeredCommands ∧
      describedCommands.head? = some .srlc ∧
      ∀ (unspecific : Bool) (command : Command) (version : ℕ),
        config command = ⟨version, defaultFeatures unspecific command⟩ →
        configurationText command (config command) = commandName command ++ 58 :: decimal version ++
          if command = .drls then 58 :: ((if unspecific then [] else [47]) ++ unspecificFeature)
          else [] := by
  refine ⟨?_, ?_, by decide, rfl, fun unspecific command version hdefault => ?_⟩
  · have hchecks : ¬ request.hasOnlyOptions [] = false := by
      rw [Request.hasOnlyOptions, hoptions]
      decide
    rw [createSrlc, withoutArguments, if_neg (not_not_intro rfl), if_neg hchecks,
      if_neg (not_not_intro hparameters)]
    exact describe_tells h hid hinitial hconfig hsound
  · refine ⟨(.ackContinue, none) :: (describedCommands.dropLast.map fun command =>
      (.continues, some (configurationText command (config command)))),
      (.close, some (configurationText .cmtr (config .cmtr))), rfl, ?_, rfl⟩
    rintro m (_ | ⟨_, hm⟩)
    · rfl
    · obtain ⟨command, -, rfl⟩ := List.mem_map.1 hm
      rfl
  · rw [hdefault, configurationText_default]

theorem srlc_lists_requested :
    Tells (Descriptions.createSrlc ⟨0, bytes "SRLC", [], []⟩ Descriptions.srlcCommandVersion) 0
      .requested ((.ackContinue, none) :: Descriptions.configurationMessages (defaultConfig true)
        Descriptions.describedCommands) (.none, none) :=
  (srlc_lists ⟨0, bytes "SRLC", [], []⟩ World.requested_obliging World.requested_lookup rfl rfl rfl
    (fun _ => rfl) (defaultConfig_sound true)).1

end XprcServer
