import XprcServer.Channels.FiniteMap
import XprcServer.Commands.Descriptions

/-!
# Requests that are answered at once

SRFS, SRID and SRLC complete while they are created, and leave nothing behind that could be
destroyed later: `handle_command_request` removes the channel again as soon as it was answered.

* `Srfs.create_configs` : no request changes what is configured for a command, whatever fails;
* `instantCommands` : a family of commands in which these three are the ones of the plugin;
* `handleRequest_instant` : every request for one of the three, whatever its options and parameters
  are, is answered by messages of which the last one closes the channel, and the session is as
  before.
-/

namespace XprcServer

open Lib
open Logged (Keeps Leads)

namespace Srfs

open Session Features

variable {μ : Type} {w : World μ} {id : ChannelId} {channel : Channel}

/-! ### What takes time only -/

theorem allocate_ticks : Keeps World.Ticks (Session.allocate : M μ Bool) := ask_ticks _

theorem sprintf_ticks (text : List UInt8) : Keeps World.Ticks
    (sprintf text : M μ (Option (List UInt8))) :=
  allocate_ticks.bind fun _ => .ite (.pure _) (.pure _)

theorem createCommandConfig_ticks (version : ℤ) :
    Keeps World.Ticks (createCommandConfig version : M μ (Option CommandConfig)) := by
  refine .ite (.pure _) (allocate_ticks.bind fun _ => .ite ?_ (.pure _))
  exact allocate_ticks.bind fun _ => .ite (.pure _) (.pure _)

theorem setCommandFeatureFlag_ticks (config : Option CommandConfig) (name : List UInt8)
    (state : FeatureState) :
    Keeps World.Ticks (setCommandFeatureFlag config name state :
      M μ (ErrorCode × Option CommandConfig × Option FeatureState)) := by
  cases config with
  | none => exact .pure _
  | some config =>
    rw [setCommandFeatureFlag]
    cases config.features.get name with
    | some previous => exact .pure _
    | none =>
      refine allocate_ticks.bind fun _ => .ite ?_ (.pure _)
      exact allocate_ticks.bind fun _ => .ite (.pure _) (.pure _)

theorem featureLoop_ticks (length fuel : ℕ) (buffer : List UInt8) (start : ℕ)
    (config : Option CommandConfig) :
    Keeps World.Ticks (featureLoop length fuel buffer start config :
      M μ (Except (Option String) (Option CommandConfig))) := by
  induction fuel generalizing buffer start config with
  | zero => exact .pure _
  | succ fuel ih =>
    refine .ite (.ite (.pure _) ?_) (.pure _)
    cases FeatureState.ofRequest (buffer.getD start 0) with
    | none => exact .pure _
    | some state =>
      refine (setCommandFeatureFlag_ticks config _ state).bind fun _ => ?_
      exact .ite (.pure _) (.ite (.pure _) (ih _ _ _))

theorem readFeatures_ticks (requested : Option CommandConfig) (parameters : List (List UInt8)) :
    Keeps World.Ticks (readFeatures requested parameters :
      M μ (Except (Option String) (Option CommandConfig))) := by
  cases parameters with
  | nil => exact .pure _
  | cons flags more =>
    exact .ite (.pure _) (.ite (.pure _) (.ite (.pure _) (featureLoop_ticks _ _ _ _ _)))

theorem refuse_ticks (text : List UInt8) : Keeps World.Ticks (refuse text : M μ Merged) :=
  (sprintf_ticks text).bind fun _ => .pure _

theorem drlsMergeLoop_ticks (previous requested : CommandConfig) (names : List (List UInt8)) :
    Keeps World.Ticks (drlsMergeLoop previous requested names : M μ Merged) := by
  induction names with
  | nil => exact .pure _
  | cons name names ih => exact .ite (.ite ih (refuse_ticks _)) (.ite (refuse_ticks _) ih)

theorem mergeConfig_ticks (command : Command) (previous requested : CommandConfig) :
    Keeps World.Ticks (mergeConfig command previous requested : M μ Merged) := by
  have hwithout : ∀ supported, Keeps World.Ticks (mergeWithoutFeatures supported requested :
      M μ Merged) :=
    fun _ => .ite (refuse_ticks _) (.ite (refuse_ticks _) (.pure _))
  cases command with
  | drls =>
    refine .ite (refuse_ticks _) (allocate_ticks.bind fun _ => .ite ?_ (.pure _))
    exact drlsMergeLoop_ticks _ _ _
  | _ => exact hwithout _

theorem mergeCommandConfig_ticks (command : Command) (previous : CommandConfig)
    (requested : Option CommandConfig) :
    Keeps World.Ticks (mergeCommandConfig command previous requested : M μ Merged) := by
  cases requested with
  | none => exact .pure _
  | some requested => exact (mergeConfig_ticks _ _ _).bind fun _ => .ite (.pure _) (.pure _)

/-! ### No new configuration -/

theorem refuse_none (text : List UInt8) (w : World μ) : ((refuse text).run w).val.2.1 = none := rfl

theorem drlsMergeLoop_none (previous requested : CommandConfig) (names : List (List UInt8))
    (w : World μ) :
    ((drlsMergeLoop previous requested names).run w).val.2.1 = none := by
  induction names with
  | nil => rfl
  | cons name names ih =>
    rw [drlsMergeLoop]
    simp only [Logged.run_ite]
    split_ifs
    · exact ih
    · exact refuse_none _ w
    · exact refuse_none _ w
    · exact ih

theorem mergeConfig_none (command : Command) (previous requested : CommandConfig) (w : World μ) :
    ((mergeConfig command previous requested).run w).val.2.1 = none := by
  have hwithout : ∀ supported, ((mergeWithoutFeatures supported requested).run w).val.2.1 =
      none := by
    intro supported
    rw [mergeWithoutFeatures, Logged.run_ite, Logged.run_ite]
    split_ifs
    · exact refuse_none _ w
    · exact refuse_none _ w
    · rfl
  cases command with
  | drls =>
    rw [mergeConfig, drlsMergeConfig, Logged.run_ite]
    split_ifs
    · exact refuse_none _ w
    · rw [Logged.run_bind, Outcome.after_val, Logged.run_ite]
      split_ifs
      · exact drlsMergeLoop_none _ _ _ _
      · rfl
  | _ => exact hwithout _

/-- No merge returns a new configuration. -/
theorem mergeCommandConfig_none (command : Command) (previous : CommandConfig)
    (requested : Option CommandConfig) (w : World μ) :
    ((mergeCommandConfig command previous requested).run w).val.2.1 = none := by
  cases requested with
  | none => rfl
  | some requested =>
    have hnone := mergeConfig_none command previous requested w
    rw [mergeCommandConfig, Logged.run_bind, Outcome.after_val]
    generalize ((mergeConfig command previous requested).run w).val = merged at hnone ⊢
    obtain ⟨err, newConfig, message⟩ := merged
    obtain rfl : newConfig = none := hnone
    simp

end Srfs

/-! ### What is configured -/

/-- What is configured for the commands is the same. -/
def World.SameConfigs {μ : Type} (w w' : World μ) : Prop := w'.configs = w.configs

instance {μ : Type} : Std.Refl (@World.SameConfigs μ) := ⟨fun _ => rfl⟩

instance {μ : Type} : IsTrans (World μ) World.SameConfigs := ⟨fun _ _ _ h h' => Eq.trans h' h⟩

section

open Session

variable {μ α : Type}

theorem lockFlagged_configs (l : Lock) : Leads World.SameConfigs
    (lockFlagged l : M μ ErrorCode) := by
  intro w
  by_cases h : w.refuses l
  · obtain ⟨n, -, -, hstate, -⟩ := lockFlagged_refused h
    rw [hstate]
    rfl
  · rw [lockFlagged_granted h]
    rfl

theorem locked_configs {l : Lock} {refused : ErrorCode → α} {body : M μ α}
    (hbody : Leads World.SameConfigs body) : Leads World.SameConfigs (locked l refused body) :=
  .bind (lockFlagged_configs l) fun _ =>
    .ite (.bind hbody fun _ => .bind (fun _ => rfl) fun _ => .pure _)
    (.pure _)

theorem keeps_configs {p : M μ α} (h : Keeps World.Frame p) : Leads World.SameConfigs p :=
  fun w => (h w).2.configs

theorem ticks_configs {p : M μ α} (h : Keeps World.Ticks p) : Leads World.SameConfigs p :=
  keeps_configs (h.mono fun _ _ => .ofTicks)

theorem exec_configs (call : ChannelCall) (id : ChannelId) (timestamp : ℤ)
    (message : Option (List UInt8)) :
    Leads World.SameConfigs (call.exec id timestamp message : M μ ErrorCode) := by
  have honChannel : ∀ body : Channel → M μ ErrorCode,
      (∀ channel, Leads World.SameConfigs (body channel)) →
        Leads World.SameConfigs (onChannel id body) := by
    intro body hbody
    refine .bind (.bind (lockFlagged_configs _) fun _ => .pure _) fun _ => .ite ?_ (.pure _)
    refine .bind (.read _) fun channel => ?_
    cases channel with
    | none => exact .pure _
    | some channel => exact .bind (hbody channel) fun _ => .bind (fun _ => rfl) fun _ => .pure _
  have herror : ∀ text, Leads World.SameConfigs (errorChannel id timestamp text : M μ ErrorCode) :=
    fun text => honChannel _ fun channel => keeps_configs (sendChannel_keeps id channel _ _ _)
  have hmessage : ∀ kind failure,
      Leads World.SameConfigs (messageChannel kind failure id timestamp message :
        M μ ErrorCode) := by
    intro kind failure
    refine honChannel _ fun channel =>
      .bind (keeps_configs (sendChannel_keeps id channel _ _ _)) fun _ => ?_
    exact .ite (.bind (herror _) fun _ => .pure _) (.pure _)
  cases call with
  | confirm => exact hmessage _ _
  | continues => exact hmessage _ _
  | finish => exact hmessage _ _
  | error => exact herror _

end

namespace Srfs

open Session Features

variable {μ : Type}

theorem reject_configs (id : ChannelId) (text : String) :
    Leads World.SameConfigs (reject id text : M μ (ErrorCode × Option ℕ)) :=
  .bind (exec_configs .error id _ _) fun _ => .pure _

theorem giveUp_configs (id : ChannelId) (outError : ErrorCode) :
    Leads World.SameConfigs (giveUp id outError : M μ (ErrorCode × Option ℕ)) :=
  .bind (exec_configs .error id _ _) fun _ => .pure _

theorem giveUpWith_configs (id : ChannelId) (outError : ErrorCode) (text : List UInt8) :
    Leads World.SameConfigs (giveUpWith id outError text : M μ (ErrorCode × Option ℕ)) :=
  .bind (exec_configs .error id _ _) fun _ => giveUp_configs id outError

/-- What `apply` answers after the merge, which hands out no configuration -/
def answerMerge (id : ChannelId) (err : ErrorCode) (message : Option (List UInt8)) :
    M μ (ErrorCode × Option ℕ) := do
  if err ≠ .none then
    match message with
    | some message => do
      match ← sprintf (bytes "failed to reconfigure command: " ++ message) with
      | some text => giveUpWith id err text
      | none => giveUpWith id err (bytes "failed to reconfigure command")
    | none => giveUpWith id err (bytes "failed to reconfigure command")
  else
    let _ ← finishChannel id currentTimeReference none
    pure (.none, none)

theorem answerMerge_configs (id : ChannelId) (err : ErrorCode) (message : Option (List UInt8)) :
    Leads World.SameConfigs (answerMerge id err message : M μ (ErrorCode × Option ℕ)) := by
  refine .ite ?_ (.bind (exec_configs .finish id _ _) fun _ => .pure _)
  cases message with
  | none => exact giveUpWith_configs _ _ _
  | some message =>
    refine .bind (ticks_configs (sprintf_ticks _)) fun text => ?_
    cases text with
    | none => exact giveUpWith_configs _ _ _
    | some text => exact giveUpWith_configs _ _ _

theorem apply_configs (id : ChannelId) (command : Command) (previous : CommandConfig)
    (requested : Option CommandConfig) :
    Leads World.SameConfigs (apply id command previous requested : M μ (ErrorCode × Option ℕ)) := by
  intro w
  have hnone := mergeCommandConfig_none command previous requested w
  have hmerge : w.SameConfigs ((mergeCommandConfig command previous requested).run w).state :=
    ticks_configs (mergeCommandConfig_ticks command previous requested) w
  rw [apply, Logged.run_bind, Outcome.after_state]
  generalize (mergeCommandConfig command previous requested).run w = r at hnone hmerge ⊢
  obtain ⟨⟨err, newConfig, message⟩, w', ops⟩ := r
  obtain rfl : newConfig = none := hnone
  refine IsTrans.trans _ _ _ hmerge ?_
  clear hmerge
  exact answerMerge_configs id err message w'

/-- **No request changes what is configured**, whatever it is and whatever fails. -/
theorem create_configs (lib : Library) (request : Request) (version : ℕ) :
    Leads World.SameConfigs (create lib request version : M μ (ErrorCode × Option ℕ)) := by
  refine .ite (reject_configs _ _) (.ite (reject_configs _ _) ?_)
  cases request.parameters with
  | nil => exact reject_configs _ _
  | cons name parameters =>
    refine .ite (reject_configs _ _) ?_
    cases Command.ofName name with
    | none => exact .pure _
    | some command =>
      refine .bind (locked_configs (.read _)) fun previous => ?_
      cases previous with
      | none => exact .pure _
      | some previous =>
        cases parameters with
        | nil => exact reject_configs _ _
        | cons versionText parameters =>
          refine .ite (reject_configs _ _) (.bind (ticks_configs allocate_ticks) fun memory => ?_)
          cases (if memory then parseInt lib versionText else none) with
          | none => exact reject_configs _ _
          | some version =>
            refine .ite (reject_configs _ _)
              (.bind (ticks_configs (createCommandConfig_ticks _)) fun requested =>
                .bind (ticks_configs (readFeatures_ticks _ _)) fun read => ?_)
            cases read with
            | ok requested => exact apply_configs _ _ _ _
            | error text =>
              cases text with
              | none => exact giveUp_configs _ _
              | some text => exact giveUpWith_configs _ _ _

end Srfs

/-! ### Commands that complete at once -/

section

variable {μ α : Type} {w w' : World μ} {id : ChannelId} {r : ErrorCode × Option ℕ}

/-- The command is complete, and its last message closed the channel. -/
def Concludes (id : ChannelId) (w : World μ) (r : ErrorCode × Option ℕ) (w' : World μ) : Prop :=
  r.2 = none ∧ ∃ messages, Closing messages ∧ Says id messages w w'

/-- The command is complete; if it was refused without a message, it is left to its caller to
tell. -/
def Completes (id : ChannelId) (w : World μ) (r : ErrorCode × Option ℕ) (w' : World μ) : Prop :=
  Concludes id w r w' ∨ r.2 = none ∧ r.1 ≠ .none ∧ w.Ticks w'

theorem Concludes.of_told {action : ChannelAction} (hr : r.2 = none) (h : Told id action w w')
    (hclosed : action.nextState = .closed) : Concludes id w r w' := by
  obtain ⟨message, hspoke⟩ := Says.of_told h
  exact ⟨hr, _, .single hclosed, hspoke⟩

theorem Concludes.behind {messages : List Message} {w'' : World μ} (h : Concludes id w' r w'')
    (hspoke : Says id messages w w') (hmessages : ∀ m ∈ messages, m.Continues) :
    Concludes id w r w'' := by
  obtain ⟨hr, more, hclosing, hmore⟩ := h
  exact ⟨hr, _, hclosing.behind hmessages, hspoke.append hmore⟩

theorem Concludes.of_ticks {w'' : World μ} (ht : w.Ticks w') (h : Concludes id w' r w'') :
    Concludes id w r w'' := by
  obtain ⟨hr, messages, hclosing, hspoke⟩ := h
  exact ⟨hr, messages, hclosing, hspoke.of_ticks ht⟩

theorem Completes.of_ticks {w'' : World μ} (ht : w.Ticks w') (h : Completes id w' r w'') :
    Completes id w r w'' := by
  refine h.imp (fun hconcludes => ?_) fun ⟨hr, herr, ht'⟩ => ⟨hr, herr, IsTrans.trans _ _ _ ht ht'⟩
  exact hconcludes.of_ticks ht

/-- What takes time only can come before. -/
theorem Completes.after {p : M μ α} {f : α → M μ (ErrorCode × Option ℕ)} (hp : Keeps World.Ticks p)
    (hf : ∀ a w', w.Ticks w' → Ends (f a) w' (Completes id w')) :
    Ends (p >>= f) w (Completes id w) :=
  .of_ticks (hp w).2 (hf _ _ (hp w).2)

end

namespace Srfs

open Session Features

variable {μ : Type} {w : World μ} {id : ChannelId} {channel : Channel}

theorem reject_concludes (h : w.Obliging) (hid : w.channels.lookup id = some channel)
    (hopen : channel.state ≠ .closed) (text : String) : Ends (reject id text) w (Concludes id w) :=
  .of_told rfl (reject_fails h hid hopen).2 rfl

theorem giveUp_concludes (h : w.Obliging) (hid : w.channels.lookup id = some channel)
    (hopen : channel.state ≠ .closed) (outError : ErrorCode) :
    Ends (giveUp id outError) w (Concludes id w) :=
  .of_told rfl (giveUp_fails h hid hopen).2 rfl

theorem giveUpWith_concludes (h : w.Obliging) (hid : w.channels.lookup id = some channel)
    (hopen : channel.state ≠ .closed) (outError : ErrorCode) (text : List UInt8) :
    Ends (giveUpWith id outError text) w (Concludes id w) :=
  .of_told rfl (giveUpWith_fails h hid hopen).2 rfl

theorem apply_completes (h : w.Obliging) (hid : w.channels.lookup id = some channel)
    (hinitial : channel.state = .initial) (command : Command) (previous : CommandConfig)
    (requested : Option CommandConfig) :
    Ends (apply id command previous requested) w (Completes id w) := by
  have hopen : channel.state ≠ .closed := by
    rw [hinitial]
    decide
  have hnone := mergeCommandConfig_none command previous requested w
  have hticks := (mergeCommandConfig_ticks command previous requested w).2
  rw [apply, Ends, Logged.run_bind, Outcome.after_state, Outcome.after_val]
  generalize (mergeCommandConfig command previous requested).run w = merged at hnone hticks ⊢
  obtain ⟨⟨err, newConfig, message⟩, w', ops⟩ := merged
  obtain rfl : newConfig = none := hnone
  refine .of_ticks hticks ?_
  have h' := h.ticks hticks
  have hid' : w'.channels.lookup id = some channel := hticks.channels ▸ hid
  dsimp only
  by_cases herr : err = .none
  · subst herr
    rw [if_neg (not_not_intro rfl)]
    exact .inl (.of_told rfl (finishChannel_told none h' hid' hinitial).2 rfl)
  · rw [if_pos herr]
    cases message with
    | none => exact .inl (giveUpWith_concludes h' hid' hopen _ _)
    | some message =>
      refine Completes.after (sprintf_ticks _) fun text w'' ht => ?_
      have hgiveUp := giveUpWith_concludes (h'.ticks ht) (ht.channels ▸ hid') hopen err
      cases text with
      | none => exact .inl (hgiveUp _)
      | some text => exact .inl (hgiveUp _)

/-- Every request is answered, but for one about an unknown command. -/
theorem create_completes (lib : Library) {request : Request} (version : ℕ)
    (h : w.Obliging) (hid : w.channels.lookup request.channelId = some channel)
    (hinitial : channel.state = .initial) :
    Ends (create lib request version) w (Completes request.channelId w) := by
  have hopen : channel.state ≠ .closed := by
    rw [hinitial]
    decide
  have hreject := reject_concludes h hid hopen
  rw [create]
  split_ifs
  · exact .inl (hreject _)
  · exact .inl (hreject _)
  cases request.parameters with
  | nil => exact .inl (hreject _)
  | cons name parameters =>
    dsimp only
    split_ifs
    · exact .inl (hreject _)
    cases Command.ofName name with
    | none => exact .inr ⟨rfl, show ErrorCode.unspecific ≠ .none by decide, Std.Refl.refl w⟩
    | some command =>
      have hgives := getCommandConfiguration_gives h command
      refine hgives.ends fun w₁ h₁ => .of_ticks h₁ ?_
      have hw₁ := h.ticks h₁
      have hid₁ : w₁.channels.lookup request.channelId = some channel := h₁.channels ▸ hid
      cases w.configs command with
      | none => exact .inr ⟨rfl, show ErrorCode.unspecific ≠ .none by decide, Std.Refl.refl w₁⟩
      | some previous =>
        have hreject₁ := reject_concludes hw₁ hid₁ hopen
        cases parameters with
        | nil => exact .inl (hreject₁ _)
        | cons versionText parameters =>
          dsimp only
          rw [reconfigure]
          split_ifs
          · exact .inl (hreject₁ _)
          refine Completes.after allocate_ticks fun memory w₂ h₂ => ?_
          have hw₂ := hw₁.ticks h₂
          have hid₂ : w₂.channels.lookup request.channelId = some channel := h₂.channels ▸ hid₁
          have hreject₂ := reject_concludes hw₂ hid₂ hopen
          cases (if memory then parseInt lib versionText else none) with
          | none => exact .inl (hreject₂ _)
          | some version =>
            dsimp only
            split_ifs
            · exact .inl (hreject₂ _)
            refine Completes.after (createCommandConfig_ticks _) fun requested w₃ h₃ =>
              Completes.after (readFeatures_ticks _ _) fun read w₄ h₄ => ?_
            have hw₄ := (hw₂.ticks h₃).ticks h₄
            have hid₄ : w₄.channels.lookup request.channelId = some channel :=
              h₄.channels.trans h₃.channels ▸ hid₂
            cases read with
            | ok requested => exact apply_completes hw₄ hid₄ hinitial _ _ _
            | error text =>
              cases text with
              | none => exact .inl (giveUp_concludes hw₄ hid₄ hopen _)
              | some text => exact .inl (giveUpWith_concludes hw₄ hid₄ hopen _ _)

end Srfs

namespace Descriptions

open Session Features Srfs

variable {μ : Type} {w : World μ} {id : ChannelId} {channel : Channel} {command : Command}

theorem addFeatures_ends (w : World μ) (config : CommandConfig) (names : List (List UInt8))
    (isFirst : Bool) (msg : List UInt8) :
    Ends (addFeatures config names isFirst msg) w fun added w' =>
      added ≠ .error .none ∧ w.Ticks w' := by
  induction names generalizing w isFirst msg with
  | nil => exact ⟨(by rintro ⟨⟩), Std.Refl.refl w⟩
  | cons name names ih =>
    rw [addFeatures]
    cases getCommandFeatureState config name with
    | none => exact ⟨(by rintro ⟨⟩), Std.Refl.refl w⟩
    | some state =>
      refine Ends.andThen (P := fun _ w' => w.Ticks w') (sprintf_ticks _ w).2 fun msg' w' ht => ?_
      cases msg' with
      | none => exact ⟨(by rintro ⟨⟩), ht⟩
      | some msg' =>
        obtain ⟨hadded, hticks⟩ := ih w' false msg'
        exact ⟨hadded, IsTrans.trans _ _ _ ht hticks⟩

/-- The message about a command, or an error without a message -/
theorem sendCommandConfiguration_ends (finish : Bool) (h : w.Obliging) (hw : w.Confirmed id) :
    Ends (sendCommandConfiguration id (commandName command) finish) w fun err w' =>
      (err = .none ∧ ∃ text, Says id [(if finish then .close else .continues, some text)] w w') ∨
        (err ≠ .none ∧ w.Ticks w') := by
  have hunspecific : ErrorCode.unspecific ≠ .none := by decide
  rw [sendCommandConfiguration, (ofName_commandName command).1]
  refine (getCommandConfiguration_gives h command).ends fun w₁ h₁ => ?_
  cases w.configs command with
  | none => exact .inr ⟨hunspecific, h₁⟩
  | some config =>
    dsimp only
    by_cases hversion : config.version < 1
    · rw [if_pos hversion]
      exact .inr ⟨hunspecific, h₁⟩
    rw [if_neg hversion]
    refine (sprintf_gives (h.ticks h₁) _).ends fun w₂ h₂ => ?_
    have hw₂ := (h.ticks h₁).ticks h₂
    refine (referenceKeys_gives hw₂ _).ends fun w₃ h₃ => ?_
    rw [if_pos rfl]
    refine (addFeatures_ends w₃ config _ true _).andThen fun added w₄ hadded => ?_
    obtain ⟨hfails, h₄⟩ := hadded
    have ht : w.Ticks w₄ :=
      IsTrans.trans _ _ _ h₁ (IsTrans.trans _ _ _ h₂ (IsTrans.trans _ _ _ h₃ h₄))
    cases added with
    | error err => exact .inr ⟨fun hnone => hfails (congrArg _ hnone), ht⟩
    | ok msg =>
      have hconfirmed : w₄.Confirmed id := by
        obtain ⟨channel, hid, hstate⟩ := hw
        exact ⟨channel, ht.channels ▸ hid, hstate⟩
      cases finish with
      | true =>
        obtain ⟨herr, hsays⟩ := closeChannel_tells (h.ticks ht) msg hconfirmed
        exact .inl ⟨herr, msg, hsays.of_ticks ht⟩
      | false =>
        obtain ⟨herr, hsays⟩ := continueChannel_tells (h.ticks ht) msg hconfirmed
        exact .inl ⟨herr, msg, hsays.of_ticks ht⟩

theorem sendConfigurations_ends (h : w.Obliging) (hw : w.Confirmed id) {commands : List Command}
    (hne : commands ≠ []) (hlast : commands.getLast? ≠ some .srlc) :
    Ends (sendConfigurations id (commands.map commandName)) w fun err w' =>
      (err = .none ∧ ∃ messages, Closing messages ∧ Says id messages w w') ∨
        (err ≠ .none ∧ ∃ messages, (∀ m ∈ messages, Message.Continues m) ∧
          Says id messages w w') := by
  induction commands generalizing w with
  | nil => exact absurd rfl hne
  | cons command commands ih =>
    rw [List.map_cons, sendConfigurations, cString_commandName]
    cases commands with
    | nil =>
      have hsrlc : command ≠ .srlc := fun heq => hlast (congrArg some heq)
      rw [if_neg (commandName_injective.ne hsrlc)]
      refine (sendCommandConfiguration_ends true h hw).andThen fun err w' hend => ?_
      rcases hend with ⟨rfl, text, hspoke⟩ | ⟨herr, ht⟩
      · exact .inl ⟨rfl, _, .single rfl, hspoke⟩
      · rw [if_pos herr]
        exact .inr ⟨herr, [], fun _ hm => absurd hm List.not_mem_nil, ht⟩
    | cons next commands =>
      rw [List.getLast?_cons_cons] at hlast
      by_cases hsrlc : command = .srlc
      · subst hsrlc
        rw [if_pos rfl]
        exact ih h hw (List.cons_ne_nil _ _) hlast
      · rw [if_neg (commandName_injective.ne hsrlc)]
        refine (sendCommandConfiguration_ends false h hw).andThen fun err w' hend => ?_
        rcases hend with ⟨rfl, text, hspoke⟩ | ⟨herr, ht⟩
        · have hcontinues := Message.continues_single .continues (some text) rfl
          rw [if_neg (not_not_intro rfl)]
          have hrest := ih (hspoke.obliging h) (hspoke.confirmed hcontinues hw)
              (List.cons_ne_nil _ _) hlast
          rcases hrest with ⟨herr, messages, hclosing, hmore⟩ | ⟨herr, messages, hmessages, hmore⟩
          · exact .inl ⟨herr, _, hclosing.behind hcontinues, hspoke.append hmore⟩
          · exact .inr ⟨herr, _, List.forall_mem_append.2 ⟨hcontinues, hmessages⟩,
              hspoke.append hmore⟩
        · rw [if_pos herr]
          exact .inr ⟨herr, [], fun _ hm => absurd hm List.not_mem_nil, ht⟩

theorem giveUp_concludes_of_confirmed (h : w.Obliging) (hw : w.Confirmed id)
    (outError : ErrorCode) :
    Ends (giveUp id outError) w (Concludes id w) := by
  obtain ⟨channel, hid, hstate⟩ := hw
  refine giveUp_concludes h hid ?_ outError
  rw [hstate]
  decide

/-- Whatever is configured, the channel is closed. -/
theorem describe_concludes (h : w.Obliging) (hid : w.channels.lookup id = some channel)
    (hinitial : channel.state = .initial) : Ends (describe id) w (Concludes id w) := by
  refine (listCommandNames_gives h).ends fun w₁ h₁ => ?_
  dsimp only
  rw [commandNames_ne_nil]
  have hconfirm := confirmChannel_tells (h.ticks h₁) none (h₁.channels ▸ hid) hinitial
  refine Ends.andThen hconfirm fun _ w₂ hend => ?_
  have h₂ : Says id [(.ackContinue, none)] w w₂ := hend.2.of_ticks h₁
  have hw₂ := h₂.obliging h
  have hconfirmed₂ := h₂.confirms rfl
  have hcontinues₂ := Message.continues_single .ackContinue none rfl
  refine (@sendCommandConfiguration_ends _ _ _ .srlc false hw₂ hconfirmed₂).andThen
    fun err w₃ hend => ?_
  rcases hend with ⟨rfl, text, hspoke⟩ | ⟨herr, ht⟩
  · rw [if_neg (not_not_intro rfl), commandNames_eq]
    have hcontinues := Message.continues_single .continues (some text) rfl
    have hw₃ := hspoke.obliging hw₂
    have hconfirmed₃ := hspoke.confirmed hcontinues hconfirmed₂
    refine (sendConfigurations_ends hw₃ hconfirmed₃ (by decide) (by decide)).andThen
      fun err w₄ hend => ?_
    rcases hend with ⟨rfl, messages, hclosing, hmore⟩ | ⟨herr, messages, hmessages, hmore⟩
    · exact Concludes.behind (Concludes.behind ⟨rfl, messages, hclosing, hmore⟩ hspoke hcontinues)
        h₂ hcontinues₂
    · rw [if_pos herr]
      have hgiveUp := giveUp_concludes_of_confirmed (hmore.obliging hw₃)
          (hmore.confirmed hmessages hconfirmed₃)
        .incomplete
      exact ((Concludes.behind hgiveUp hmore hmessages).behind hspoke hcontinues).behind
        h₂ hcontinues₂
  · rw [if_pos herr]
    have hconfirmed₃ : w₃.Confirmed id := by
      obtain ⟨channel, hid, hstate⟩ := hconfirmed₂
      exact ⟨channel, ht.channels ▸ hid, hstate⟩
    exact ((giveUp_concludes_of_confirmed (hw₂.ticks ht) hconfirmed₃ .incomplete).of_ticks
      ht).behind h₂ hcontinues₂

theorem withoutArguments_concludes {request : Request} {supported version : ℕ}
    {body : M μ (ErrorCode × Option ℕ)} (h : w.Obliging)
    (hid : w.channels.lookup request.channelId = some channel) (hinitial : channel.state = .initial)
    (hbody : Ends body w (Concludes request.channelId w)) :
    Ends (withoutArguments request supported version body) w (Concludes request.channelId w) := by
  have hopen : channel.state ≠ .closed := by
    rw [hinitial]
    decide
  rw [withoutArguments]
  split_ifs
  · exact reject_concludes h hid hopen _
  · exact reject_concludes h hid hopen _
  · exact reject_concludes h hid hopen _
  · exact hbody

end Descriptions

/-! ### The commands of the plugin -/

section

open Session Server

variable {μ : Type}

/-- `srfs_terminate`, `srid_terminate` and `srlc_terminate`: there is nothing to end. -/
def terminateInstant (ref : Option ℕ) : M μ ErrorCode :=
  pure (if ref.isSome then .unspecific else .none)

/-- The command completes while it is created. -/
def Command.Instant (command : Command) : Prop :=
  command = .srfs ∨ command = .srid ∨ command = .srlc

theorem reject_tidy (id : ChannelId) (text : String) :
    TidyOn id (Srfs.reject id text : M μ (ErrorCode × Option ℕ)) :=
  .bind (.message .error _ _) fun _ => .pure _

theorem giveUp_tidy (id : ChannelId) (outError : ErrorCode) :
    TidyOn id (Srfs.giveUp id outError : M μ (ErrorCode × Option ℕ)) :=
  .bind (.message .error _ _) fun _ => .pure _

theorem giveUpWith_tidy (id : ChannelId) (outError : ErrorCode) (text : List UInt8) :
    TidyOn id (Srfs.giveUpWith id outError text : M μ (ErrorCode × Option ℕ)) :=
  .bind (.message .error _ _) fun _ => giveUp_tidy id outError

theorem ticks_tidy {α : Type} {id : ChannelId} {p : M μ α}
    (h : Keeps World.Ticks p) : TidyOn id p :=
  .of_frame (h.mono fun _ _ => .ofTicks)

theorem getCommandConfiguration_tidy (id : ChannelId) (command : Command) :
    TidyOn id (getCommandConfiguration command : M μ (Option CommandConfig)) := .locked (.read _)

namespace Srfs

open Features

theorem answerMerge_tidy (id : ChannelId) (err : ErrorCode) (message : Option (List UInt8)) :
    TidyOn id (answerMerge id err message : M μ (ErrorCode × Option ℕ)) := by
  refine .ite ?_ (.bind (.message .finish _ _) fun _ => .pure _)
  cases message with
  | none => exact giveUpWith_tidy _ _ _
  | some message =>
    refine .bind (ticks_tidy (sprintf_ticks _)) fun text => ?_
    cases text with
    | none => exact giveUpWith_tidy _ _ _
    | some text => exact giveUpWith_tidy _ _ _

theorem apply_tidy (id : ChannelId) (command : Command) (previous : CommandConfig)
    (requested : Option CommandConfig) :
    TidyOn id (apply id command previous requested : M μ (ErrorCode × Option ℕ)) := by
  intro w hw hid
  have hnone := mergeCommandConfig_none command previous requested w
  have htidy := @ticks_tidy _ _ id _ (mergeCommandConfig_ticks command previous requested) w hw hid
  refine htidy.bind ?_
  have hw' := htidy.busy hw
  have hid' := htidy.kept id hid
  generalize (mergeCommandConfig command previous requested).run w = r at hnone hw' hid' ⊢
  obtain ⟨⟨err, newConfig, message⟩, w', ops⟩ := r
  obtain rfl : newConfig = none := hnone
  exact answerMerge_tidy id err message w' hw' hid'

theorem create_tidy (lib : Library) (request : Request) (version : ℕ) :
    TidyOn request.channelId (create lib request version : M μ (ErrorCode × Option ℕ)) := by
  refine .ite (reject_tidy _ _) (.ite (reject_tidy _ _) ?_)
  cases request.parameters with
  | nil => exact reject_tidy _ _
  | cons name parameters =>
    refine .ite (reject_tidy _ _) ?_
    cases Command.ofName name with
    | none => exact .pure _
    | some command =>
      refine .bind (getCommandConfiguration_tidy _ _) fun previous => ?_
      cases previous with
      | none => exact .pure _
      | some previous =>
        cases parameters with
        | nil => exact reject_tidy _ _
        | cons versionText parameters =>
          refine .ite (reject_tidy _ _) (.bind (ticks_tidy allocate_ticks) fun memory => ?_)
          cases (if memory then parseInt lib versionText else none) with
          | none => exact reject_tidy _ _
          | some version =>
            refine .ite (reject_tidy _ _)
              (.bind (ticks_tidy (createCommandConfig_ticks _)) fun requested =>
                .bind (ticks_tidy (readFeatures_ticks _ _)) fun read => ?_)
            cases read with
            | ok requested => exact apply_tidy _ _ _ _
            | error text =>
              cases text with
              | none => exact giveUp_tidy _ _
              | some text => exact giveUpWith_tidy _ _ _

end Srfs

namespace Descriptions

open Srfs Features

theorem withoutArguments_tidy {request : Request} {supported version : ℕ}
    {body : M μ (ErrorCode × Option ℕ)} (hbody : TidyOn request.channelId body) :
    TidyOn request.channelId (withoutArguments request supported version body) :=
  .ite (reject_tidy _ _) (.ite (reject_tidy _ _) (.ite (reject_tidy _ _) hbody))

theorem continueAll_tidy (id : ChannelId) (texts : List (List UInt8)) :
    TidyOn id (continueAll id texts : M μ Unit) := by
  induction texts with
  | nil => exact .pure _
  | cons text texts ih => exact .bind (.message .continues _ _) fun _ => ih

theorem continueFormatted_tidy (id : ChannelId) (outError : ErrorCode) (text : List UInt8) :
    TidyOn id (continueFormatted id outError text : M μ ErrorCode) := by
  refine .bind (ticks_tidy (sprintf_ticks _)) fun text => ?_
  cases text with
  | none => exact .pure _
  | some text => exact .bind (.message .continues _ _) fun _ => .pure _

theorem identify_tidy (info : ServerInfo) (id : ChannelId) :
    TidyOn id (identify info id : M μ (ErrorCode × Option ℕ)) := by
  refine .bind (.message .confirm _ _) fun _ => .bind (continueAll_tidy _ _) fun _ => ?_
  refine .bind (continueFormatted_tidy _ _ _) fun _ => .bind (continueFormatted_tidy _ _ _) fun _ =>
    ?_
  exact .bind (continueAll_tidy _ _) fun _ => .bind (.message .finish _ _) fun _ => .pure _

theorem allocateAll_ticks (n : ℕ) : Keeps World.Ticks (allocateAll n : M μ Bool) := by
  induction n with
  | zero => exact .pure _
  | succ n ih => exact allocate_ticks.bind fun _ => .ite ih (.pure _)

theorem referenceKeys_ticks (n : ℕ) : Keeps World.Ticks (referenceKeys n : M μ Bool) :=
  allocate_ticks.bind fun _ => .ite (allocateAll_ticks n) (.pure _)

theorem listCommandNames_ticks :
    Keeps World.Ticks (listCommandNames : M μ (Option (List (List UInt8)))) := by
  refine (referenceKeys_ticks _).bind fun _ => .ite ?_ (.pure _)
  exact (allocateAll_ticks _).bind fun _ => .ite (.pure _) (.pure _)

theorem addFeatures_ticks (config : CommandConfig) (names : List (List UInt8)) (isFirst : Bool)
    (msg : List UInt8) :
    Keeps World.Ticks (addFeatures config names isFirst msg :
      M μ (Except ErrorCode (List UInt8))) := by
  induction names generalizing isFirst msg with
  | nil => exact .pure _
  | cons name names ih =>
    rw [addFeatures]
    cases getCommandFeatureState config name with
    | none => exact .pure _
    | some state =>
      refine (sprintf_ticks _).bind fun msg => ?_
      cases msg with
      | none => exact .pure _
      | some msg => exact ih false msg

theorem sendCommandConfiguration_tidy (id : ChannelId) (name : List UInt8)
    (finish : Bool) :
    TidyOn id (sendCommandConfiguration id name finish : M μ ErrorCode) := by
  rw [sendCommandConfiguration]
  cases Command.ofName name with
  | none => exact .pure _
  | some command =>
    refine .bind (getCommandConfiguration_tidy _ _) fun config => ?_
    cases config with
    | none => exact .pure _
    | some config =>
      refine .ite (.pure _) (.bind (ticks_tidy (sprintf_ticks _)) fun msg => ?_)
      cases msg with
      | none => exact .pure _
      | some msg =>
        refine .bind (ticks_tidy (referenceKeys_ticks _)) fun _ => .ite ?_ (.pure _)
        refine .bind (ticks_tidy (addFeatures_ticks _ _ _ _)) fun added => ?_
        cases added with
        | error err => exact .pure _
        | ok msg => exact .ite (.message .finish _ _) (.message .continues _ _)

theorem sendConfigurations_tidy (id : ChannelId) (names : List (List UInt8)) :
    TidyOn id (sendConfigurations id names : M μ ErrorCode) := by
  induction names with
  | nil => exact .pure _
  | cons name names ih =>
    refine .ite ih (.bind (sendCommandConfiguration_tidy _ _ _) fun _ => ?_)
    exact .ite (.pure _) ih

theorem describe_tidy (id : ChannelId) :
    TidyOn id (describe id : M μ (ErrorCode × Option ℕ)) := by
  refine .bind (ticks_tidy listCommandNames_ticks) fun names => ?_
  cases names with
  | none => exact giveUp_tidy _ _
  | some names =>
    refine .bind (.message .confirm _ _) fun _ =>
      .bind (sendCommandConfiguration_tidy _ _ _) fun _ => ?_
    refine .ite (giveUp_tidy _ _) (.bind (sendConfigurations_tidy _ _) fun _ => ?_)
    exact .ite (giveUp_tidy _ _) (.pure _)

end Descriptions

/-- The three commands that complete at once, beside others -/
def instantCommands (info : Descriptions.ServerInfo) (lib : Library)
    (others : Commands μ) : Commands μ where
  create command request version :=
    match command with
    | .srfs => Srfs.create lib request version
    | .srid => Descriptions.createSrid info request version
    | .srlc => Descriptions.createSrlc request version
    | _ => others.create command request version
  terminate command ref :=
    match command with
    | .srfs | .srid | .srlc => terminateInstant ref
    | _ => others.terminate command ref
  channelOf := others.channelOf
  create_tidy command request version := by
    cases command with
    | srfs => exact Srfs.create_tidy _ _ _
    | srid => exact Descriptions.withoutArguments_tidy (Descriptions.identify_tidy _ _)
    | srlc => exact Descriptions.withoutArguments_tidy (Descriptions.describe_tidy _)
    | _ => exact others.create_tidy _ request version
  terminate_orderly command ref w hw hrun := by
    cases command with
    | srfs => exact .pure _ _
    | srid => exact .pure _ _
    | srlc => exact .pure _ _
    | _ => exact others.terminate_orderly _ ref w hw hrun

end

/-! ### The whole request -/

section

open Session Server

variable {μ : Type} {w w' w'' : World μ} {id : ChannelId} {channel : Channel}
  {messages more : List Message}

theorem World.Aside.obliging (h : w.Aside id w') (hw : w.Obliging) : w'.Obliging := by
  refine ⟨fun tick => ?_, fun tick hrefuses => ?_, fun tick => ?_, fun tick => ?_, ?_⟩
  · rw [h.env, hw.alloc]
  · refine hw.session tick ?_
    simp only [World.refuses, World.atTick_env, World.atTick_depth, World.atTick_tick,
      h.env, h.depth] at hrefuses ⊢
    exact hrefuses
  · rw [h.env, hw.send]
  · rw [h.env, h.reference]
    exact hw.clock tick
  · rw [h.reference]
    exact hw.reference

/-- The lines of a conversation on a channel -/
def LinesOf (id : ChannelId) (messages : List Message) (lines : List (List UInt8)) : Prop :=
  List.Forall₂ (fun m line => ∃ c ts, Channel.id c = id ∧ line = channelLine c m.1 ts m.2)
    messages lines

/-- A conversation took place, and the channel may have been changed otherwise. -/
structure World.Spoken (id : ChannelId) (messages : List Message) (w w' : World μ) : Prop where
  aside : w.Aside id w'
  wire : ∃ lines, w'.wire = w.wire ++ lines ∧ LinesOf id messages lines

theorem World.Aside.spoken (h : w.Aside id w') (hwire : w'.wire = w.wire) : w.Spoken id [] w' :=
  ⟨h, [], by rw [hwire, List.append_nil], .nil⟩

theorem World.Ticks.spoken (h : w.Ticks w') : w.Spoken id [] w' := by
  refine (h.aside id).spoken ?_
  obtain ⟨n, -, rfl⟩ := h
  rfl

theorem World.Spoken.append (h : w.Spoken id messages w') (h' : w'.Spoken id more w'') :
    w.Spoken id (messages ++ more) w'' := by
  obtain ⟨lines, hwire, hlines⟩ := h.wire
  obtain ⟨lines', hwire', hlines'⟩ := h'.wire
  refine ⟨h.aside.trans h'.aside, lines ++ lines', ?_, List.rel_append hlines hlines'⟩
  rw [hwire', hwire, List.append_assoc]

theorem Says.spoken (h : Says channel.id messages w w')
    (hid : w.channels.lookup channel.id = some channel) : w.Spoken channel.id messages w' :=
  ⟨h.aside, h.wire hid⟩

theorem modifyChannel_spoken (id : ChannelId) (f : Channel → Channel) (w : World μ) :
    w.Spoken id [] ((modifyChannel id f).run w).state :=
  World.Aside.spoken ⟨rfl, Nat.le_refl _, rfl, rfl, rfl, rfl, rfl,
    fun _ hne => ChannelsTable.lookup_modify_of_ne hne⟩ rfl

/-- No message is allowed on a closed channel. -/
theorem sendChannel_invalid (id : ChannelId) (action : ChannelAction)
    (message : Option (List UInt8)) (h : w.Obliging) (hclosed : channel.state = .closed) :
    Ends (sendChannel id channel action currentTimeReference message) w fun err w' =>
      err = .sessionInvalidChannelState ∧ w.Ticks w' := by
  obtain ⟨ts, hts, -, hgives⟩ := resolveTimestamp_gives h (.inl rfl)
  refine hgives.ends fun w' ht => ?_
  rw [if_neg (Int.not_lt.2 hts), hclosed]
  exact ⟨rfl, ht⟩

theorem errorChannel_invalid (message : Option (List UInt8)) (h : w.Obliging)
    (hid : w.channels.lookup id = some channel) (hclosed : channel.state = .closed) :
    Ends (errorChannel id currentTimeReference message) w fun err w' =>
      err = .sessionInvalidChannelState ∧ w.Ticks w' := by
  rw [Ends, errorChannel, onChannel_found h.granted hid]
  obtain ⟨herr, hticks⟩ := sendChannel_invalid id .err message (h.holding .session) hclosed
  exact ⟨herr, unlocked_ticks hticks⟩

theorem finishChannel_invalid (message : Option (List UInt8)) (h : w.Obliging)
    (hid : w.channels.lookup id = some channel) (hclosed : channel.state = .closed) :
    Ends (finishChannel id currentTimeReference message) w fun err w' =>
      err = .sessionInvalidChannelState ∧ w.Ticks w' := by
  rw [Ends, finishChannel, messageChannel, onChannel_found h.granted hid]
  have hsend := sendChannel_invalid id (if channel.state = .initial then
      .ackClose else .close) message
    (h.holding .session) hclosed
  -- the message about the failure is not allowed either
  have hbody : Ends (do
      let err ← sendChannel id channel (if channel.state = .initial then .ackClose else .close)
        currentTimeReference message
      if err ≠ .none then do
        let _ ← errorChannel id currentTimeReference (some (bytes "failed to finish channel"))
        pure err
      else pure err) (w.holding .session) fun err w' =>
        err = .sessionInvalidChannelState ∧ (w.holding .session).Ticks w' := by
    refine hsend.andThen ?_
    rintro _ w₁ ⟨rfl, h₁⟩
    rw [if_pos (by decide)]
    refine (errorChannel_invalid _ ((h.holding .session).ticks h₁)
      (h₁.channels ▸ hid) hclosed).andThen ?_
    rintro _ w₂ ⟨-, h₂⟩
    exact ⟨rfl, IsTrans.trans _ _ _ h₁ h₂⟩
  obtain ⟨herr, hticks⟩ := hbody
  exact ⟨herr, unlocked_ticks hticks⟩

theorem errorChannel_speaks (message : Option (List UInt8)) (h : w.Obliging)
    (hid : w.channels.lookup id = some channel) (hopen : channel.state ≠ .closed) :
    Ends (errorChannel id currentTimeReference message) w fun err w' =>
      err = .none ∧ Says id [(.err, message)] w w' := by
  have hallowed : ChannelAction.forbidden .err channel.state = false := by
    cases hstate : channel.state with
    | closed => exact absurd hstate hopen
    | initial => rfl
    | confirmed => rfl
  rw [Ends, errorChannel, onChannel_found h.granted hid]
  obtain ⟨herr, ts, -, hsent⟩ := sendChannel_sends id (h.holding .session)
    (.inl rfl) message hallowed
  exact ⟨herr, .single hid (unlocked_sent hsent)⟩

/-- What holds after `create_command`: the client was told how the command ended, or it is left to
the caller to tell. -/
def Created (id : ChannelId) (w : World μ) (err : ErrorCode) (w' : World μ) : Prop :=
  ∃ messages channel, w.Spoken id messages w' ∧ w'.channels.lookup id = some channel ∧
    channel.id = id ∧ channel.commandRef = none ∧
      (Closing messages ∧ channel.state = .closed ∨
        messages = [] ∧ err ≠ .none ∧ channel.state ≠ .closed)

variable {info : Descriptions.ServerInfo} {lib : Library} {others : Commands μ}
  {request : Request} {command : Command}

theorem instantCommands_completes (hcommand : command.Instant) (version : ℕ) (h : w.Obliging)
    (hid : w.channels.lookup request.channelId = some channel)
    (hinitial : channel.state = .initial) :
    Ends ((instantCommands info lib others).create command request version) w
      (Completes request.channelId w) := by
  rcases hcommand with rfl | rfl | rfl
  · exact Srfs.create_completes lib version h hid hinitial
  · refine .inl (Descriptions.withoutArguments_concludes h hid hinitial ?_)
    obtain ⟨hval, hspoke⟩ := Descriptions.identify_tells info h hid hinitial
    exact ⟨congrArg Prod.snd hval, _, Descriptions.identityMessages_closing info, hspoke⟩
  · exact .inl (Descriptions.withoutArguments_concludes h hid hinitial
      (Descriptions.describe_concludes h hid hinitial))

/-- The channel after a conversation that closes it -/
theorem Says.closed (h : Says id messages w w') (hclosing : Closing messages)
    (hid : w.channels.lookup id = some channel) :
    w'.channels.lookup id = some { channel with state := .closed } := by
  obtain ⟨front, last, rfl, -, hlast⟩ := hclosing
  rw [h.lookup hid, List.foldl_append, List.foldl_cons, List.foldl_nil, hlast]

theorem getChannel_ends (id : ChannelId) (w : World μ) :
    Ends (Session.getChannel id) w fun channel w' => channel = w.channels.lookup id ∧ w' = w := by
  rw [Ends, Session.run_getChannel]
  exact ⟨rfl, rfl⟩

theorem modifyChannel_ends (f : Channel → Channel) (hid : w.channels.lookup id = some channel) :
    Ends (modifyChannel id f) w fun _ w' =>
      w.Spoken id [] w' ∧ w'.channels.lookup id = some (f channel) := by
  refine ⟨modifyChannel_spoken id f w, ?_⟩
  change (w.channels.modify id f).lookup id = _
  rw [ChannelsTable.lookup_modify_self, hid]
  rfl

theorem createCommand_created (hname : Command.ofName request.commandName = some command)
    (hcommand : command.Instant) (h : w.Obliging)
    (hid : w.channels.lookup request.channelId = some ⟨request.channelId, .initial,
      false, none, none⟩) :
    Ends (createCommand (instantCommands info lib others) request) w
      (Created request.channelId w) := by
  set chosen : Channel := ⟨request.channelId, .initial, false, some command, none⟩ with hchosen
  have hopen : ChannelState.initial ≠ .closed := by decide
  rw [createCommand, hname]
  refine (modifyChannel_ends _ hid).andThen fun _ w₀ hset => ?_
  obtain ⟨hspoken₀, hid₀⟩ : _ ∧ w₀.channels.lookup request.channelId = some chosen := hset
  have hw₀ := hspoken₀.aside.obliging h
  refine (Srfs.getCommandConfiguration_gives hw₀ command).ends fun w₁ h₁ => ?_
  have hspoken₁ : w.Spoken request.channelId [] w₁ := hspoken₀.append h₁.spoken
  have hid₁ : w₁.channels.lookup request.channelId = some chosen := h₁.channels ▸ hid₀
  cases w₀.configs command with
  | none => exact ⟨[], chosen, hspoken₁, hid₁, rfl, rfl,
      .inr ⟨rfl, show ErrorCode.unspecific ≠ .none by decide, hopen⟩⟩
  | some config =>
    have hcompletes := @instantCommands_completes _ _ _ info lib others request _ hcommand
      config.version (hw₀.ticks h₁) hid₁ rfl
    refine hcompletes.andThen ?_
    rintro ⟨err, ref⟩ w₂ hcompleted
    rcases hcompleted with ⟨hr, messages, hclosing, hspoke⟩ | ⟨hr, herr, ht⟩
    · refine (modifyChannel_ends _ (hspoke.closed hclosing hid₁)).andThen fun _ w₃ hdone => ?_
      have hsaid := (hspoken₁.append (@Says.spoken _ _ _ chosen _ hspoke hid₁)).append hdone.1
      rw [List.nil_append, List.append_nil] at hsaid
      exact ⟨messages, _, hsaid, hdone.2, rfl, hr, .inl ⟨hclosing, rfl⟩⟩
    · refine (modifyChannel_ends _ (ht.channels ▸ hid₁)).andThen fun _ w₃ hdone => ?_
      exact ⟨[], _, (hspoken₁.append ht.spoken).append hdone.1, hdone.2, rfl, hr,
        .inr ⟨rfl, herr, hopen⟩⟩

theorem popChannel_ends (hid : (w.channels.lookup id).isSome) :
    Ends (Server.popChannel id) w fun found w' =>
      found = true ∧ w.Spoken id [] w' ∧ w'.channels.lookup id = none := by
  obtain ⟨table', hrun, hgone, hkept⟩ := popChannel_spec id w
  rw [Ends, hrun]
  exact ⟨hid, World.Aside.spoken ⟨rfl, Nat.le_refl _, rfl, rfl, rfl, rfl, rfl, hkept⟩ rfl, hgone⟩

theorem dropChannel_ends {err : ErrorCode} (herr : err = .none ∨ err = .sessionInvalidChannelState)
    (hid : (w.channels.lookup id).isSome) :
    Ends (dropChannel id err) w fun _ w' =>
      w.Spoken id [] w' ∧ w'.channels.lookup id = none := by
  rw [dropChannel, if_neg (by rcases herr with rfl | rfl <;> decide)]
  refine (popChannel_ends hid).andThen ?_
  rintro _ w' ⟨rfl, hpopped⟩
  rw [if_pos rfl]
  exact hpopped

theorem putChannel_ends (h : w.Obliging) (hrange : InRange channel.id)
    (hpending : w.channels.destructionPending = false)
    (hfree : w.channels.lookup channel.id = none) :
    Ends (Server.putChannel channel) w fun stored w' =>
      stored = true ∧ w.Spoken channel.id [] w' ∧ w'.channels.lookup channel.id = some channel := by
  obtain ⟨stored, table', hrun, hresult⟩ := putChannel_spec channel w
  have hstored := putChannel_of_lookup_none hrange hpending hfree
  have hval := congrArg Outcome.val hrun
  rw [Server.putChannel, Logged.run_bind, Session.allocate, run_ask, h.alloc] at hval
  simp only [Logged.run_bind, Logged.run_read, Outcome.after_nil, World.atTick_channels,
    hstored] at hval
  rw [Ends, hrun]
  rcases hresult with ⟨hyes, hself, hkept⟩ | ⟨hno, -⟩
  · exact ⟨hyes, World.Aside.spoken ⟨rfl, Nat.le_succ _, rfl, rfl, rfl, rfl, rfl, hkept⟩ rfl, hself⟩
  · cases show true = false from hval.trans hno

/-- A request that was handled: a conversation took place on its channel, and nothing is left of
it. -/
structure World.Handled (id : ChannelId) (w w' : World μ) : Prop where
  spoken : ∃ messages, Closing messages ∧ w.Spoken id messages w'
  gone : w'.channels.lookup id = none

/-- The end of `handle_command_request` -/
theorem Created.handled {err : ErrorCode} (h : w.Obliging) (hcreated : Created id w err w') :
    Ends (if err ≠ .none then do
        let err ← errorChannel id currentTimeReference (some (bytes "command creation failed"))
        dropChannel id err
      else do
        match ← Session.getChannel id with
        | none => pure ()
        | some channel =>
          if channel.commandRef = none then do
            let err ← finishChannel id currentTimeReference none
            dropChannel id err
          else pure ()) w' fun _ w'' => w.Handled id w'' := by
  obtain ⟨messages, channel, hspoken, hid, hself, href, hcases⟩ := hcreated
  have hw' := hspoken.aside.obliging h
  -- what is left to do once the channel is closed
  have hclosed : ∀ {w₁ w₂ : World μ}, Closing messages → w'.Ticks w₁ →
      (w₁.Spoken id [] w₂ ∧ w₂.channels.lookup id = none) → w.Handled id w₂ := by
    rintro w₁ w₂ hclosing h₁ ⟨hspoken₂, hgone⟩
    refine ⟨⟨messages, hclosing, ?_⟩, hgone⟩
    have hall := (hspoken.append h₁.spoken).append hspoken₂
    rwa [List.append_nil, List.append_nil] at hall
  have hfound : ∀ {w₁ : World μ}, w'.Ticks w₁ → (w₁.channels.lookup id).isSome := by
    intro w₁ h₁
    rw [h₁.channels, hid]
    rfl
  by_cases herr : err = .none
  · obtain ⟨hclosing, hstate⟩ : Closing messages ∧ channel.state = .closed :=
      hcases.resolve_right fun hfailed => hfailed.2.1 herr
    rw [herr, if_neg (not_not_intro rfl)]
    refine (getChannel_ends _ w').andThen ?_
    rintro _ _ ⟨rfl, rfl⟩
    rw [hid]
    dsimp only
    rw [if_pos href]
    refine (finishChannel_invalid none hw' hid hstate).andThen ?_
    rintro _ w₁ ⟨rfl, h₁⟩
    exact hclosed hclosing h₁ (dropChannel_ends (.inr rfl) (hfound h₁))
  · rw [if_pos herr]
    rcases hcases with ⟨hclosing, hstate⟩ | ⟨rfl, -, hopen⟩
    · refine (errorChannel_invalid _ hw' hid hstate).andThen ?_
      rintro _ w₁ ⟨rfl, h₁⟩
      exact hclosed hclosing h₁ (dropChannel_ends (.inr rfl) (hfound h₁))
    · -- the client was not told anything yet
      refine (errorChannel_speaks _ hw' hid hopen).andThen ?_
      rintro _ w₁ ⟨rfl, hspoke⟩
      have hfound₁ : (w₁.channels.lookup id).isSome := by
        rw [hspoke.lookup hid]
        rfl
      obtain ⟨hspoken₂, hgone⟩ := @dropChannel_ends _ w₁ id .none (.inl rfl) hfound₁
      subst hself
      have hall := (hspoken.append (hspoke.spoken hid)).append hspoken₂
      exact ⟨⟨_, .single rfl, hall⟩, hgone⟩

theorem World.Handled.of_spoken (h : w.Spoken id [] w') (h' : w'.Handled id w'') :
    w.Handled id w'' := by
  obtain ⟨⟨messages, hclosing, hspoken⟩, hgone⟩ := h'
  exact ⟨⟨messages, hclosing, h.append hspoken⟩, hgone⟩

theorem handleCommandRequest_handled (hname : Command.ofName request.commandName = some command)
    (hcommand : command.Instant) (h : w.Obliging) (hrange : InRange request.channelId)
    (hpending : w.channels.destructionPending = false)
    (hfree : w.channels.lookup request.channelId = none) :
    Ends (handleCommandRequest (instantCommands info lib others) request) w fun _ w' =>
      w.Handled request.channelId w' := by
  rw [handleCommandRequest]
  refine (getChannel_ends _ w).andThen ?_
  rintro _ w' ⟨rfl, rfl⟩
  rw [hfree]
  refine (allocate_gives h).ends fun w₁ h₁ => ?_
  rw [if_pos rfl]
  have hput := @putChannel_ends _ w₁ ⟨request.channelId, .initial, false, none, none⟩
      (h.ticks h₁) hrange
    (h₁.channels ▸ hpending) (h₁.channels ▸ hfree)
  refine hput.andThen ?_
  rintro _ w₂ ⟨rfl, hspoken₂, hid₂⟩
  rw [if_pos rfl]
  have hw₂ := hspoken₂.aside.obliging (h.ticks h₁)
  refine (createCommand_created hname hcommand hw₂ hid₂).andThen fun err w₃ hcreated => ?_
  exact (hcreated.handled hw₂).of_spoken (h₁.spoken.append hspoken₂)

theorem ofName_ne_term {name : List UInt8} (hname : Command.ofName name = some command) :
    cString name ≠ bytes "TERM" := by
  intro hterm
  have hnone : Command.ofName name = none := by
    rw [Command.ofName, hterm]
    decide
  rw [hnone] at hname
  cases hname

/-- **Every request for SRFS, SRID or SRLC on a free channel is answered**, whatever its options and
parameters are: the client gets a line for each message of a conversation of which the last message,
and no other one, closes the channel; and everything else in the session, the locks and the free
channel included, is as before. -/
theorem handleRequest_instant (info : Descriptions.ServerInfo) (lib : Library)
    (others : Commands μ) (hname : Command.ofName request.commandName = some command)
    (hcommand : command.Instant) (h : w.Obliging) (hschedule : ¬ w.refuses .schedule)
    (hrange : InRange request.channelId) (hpending : w.channels.destructionPending = false)
    (hfree : w.channels.lookup request.channelId = none) :
    let w' := ((handleRequest (instantCommands info lib others) request).run w).state
    (∃ messages lines, Closing messages ∧ LinesOf request.channelId messages lines ∧
      w'.wire = w.wire ++ lines) ∧
      w'.depth = w.depth ∧ w'.closing = w.closing ∧ w'.configs = w.configs ∧ w'.memory = w.memory ∧
        ∀ id, w'.channels.lookup id = w.channels.lookup id := by
  have hrun := (handleRequest_granted (instantCommands info lib others) request hschedule
    (h.holding .schedule).granted).1
  have hhandled := @handleCommandRequest_handled _ (requestWorld w) info lib others _ _ hname
    hcommand ((h.holding .schedule).holding .session) hrange hpending hfree
  rw [handleLocked, if_neg (ofName_ne_term hname)] at hrun
  rw [Ends] at hhandled
  intro w'
  change w' = _ at hrun
  rw [hrun]
  generalize ((handleCommandRequest (instantCommands info lib others) request).run
    (requestWorld w)).state = w₁ at hhandled ⊢
  obtain ⟨⟨messages, hclosing, haside, lines, hwire, hlines⟩, hgone⟩ := hhandled
  refine ⟨⟨messages, lines, hclosing, hlines, hwire⟩, ?_, haside.closing, haside.configs,
    haside.memory, ?_⟩
  · have hback : ∀ l (d : Lock → ℕ), (LockOp.unlock l).apply ((LockOp.lock l).apply d) = d :=
      fun l d => by simp [LockOp.apply]
    rw [World.apply_depth, World.apply_depth, haside.depth, requestWorld,
      World.holding_depth, hback, World.holding_depth, hback]
  · intro id
    by_cases hid : id = request.channelId
    · rw [hid, hfree]
      exact hgone
    · exact haside.others id hid

theorem World.idle_obliging : (World.idle ()).Obliging := by
  refine ⟨fun _ => rfl, fun tick => ?_, fun _ => rfl, fun _ => ⟨⟨0, 0⟩, rfl, by decide⟩, by decide⟩
  rintro (h | ⟨-, h⟩ | h) <;> cases h

end

/-- What a server says of itself that has no website -/
def plainInfo : Descriptions.ServerInfo where
  serverId := bytes "plain"
  serverName := bytes "server"
  serverVersion := bytes "1"
  serverWebsite := []
  buildId := []
  buildRef := []
  buildTime := []
  buildTarget := bytes "linux"
  xplmVersion := 400
  xplaneVersion := 12000

/-- A request for SRLC with a parameter, which is not supported -/
theorem handleRequest_instant_srlc :
    ∃ messages lines, Closing messages ∧ LinesOf 7542 messages lines ∧
      ((Server.handleRequest (instantCommands plainInfo .calm (.inert Unit))
        ⟨7542, bytes "SRLC", [], [bytes "x"]⟩).run (World.idle ())).state.wire = [] ++ lines :=
  (@handleRequest_instant _ (World.idle ()) ⟨7542, bytes "SRLC", [], [bytes "x"]⟩
    .srlc plainInfo .calm
    (.inert Unit) (by decide) (.inr (.inr rfl)) World.idle_obliging (by decide) (by decide) rfl
    (by decide)).1

end XprcServer
