import Mathlib.Data.List.Induction
import XprcServer.Commands.CmrgLifecycle
import XprcServer.Decimal

/-!
# Escaped names

`copy_unescaped_string` undoes every escaping of a string, and rejects only what ends in an open
escape.  CMRG applies it to its parameters; but where the description is missing it applies it to
the name, which has been unescaped before.  So a name with backslashes either gets a description
that lacks some of them, or, if it ends in an odd number of them, no command at all.

* `unescapeLoop_eq_some_iff` : unescaping is the inverse of every escaping;
* `unescapeLoop_eq_none_iff` : what it rejects;
* `create_proxy` : the proxy that CMRG creates for a single parameter;
* `unescapes_iff` : so the name is also the description iff there is no backslash in it.
-/

namespace XprcServer

open Lib
open Logged (Leads)

/-! ### Escapings -/

/-- `e` is `n` with a backslash before each backslash, and before any other characters. -/
inductive Escaping : List UInt8 → List UInt8 → Prop where
  | nil : Escaping [] []
  | plain {n e : List UInt8} {ch : UInt8} (h : ch ≠ 92) (rest : Escaping n e) :
      Escaping (ch :: n) (ch :: e)
  | escaped {n e : List UInt8} (ch : UInt8) (rest : Escaping n e) :
      Escaping (ch :: n) (92 :: ch :: e)

/-- The number of backslashes at the end of a string. -/
def trailingBackslashes (s : List UInt8) : ℕ := (s.reverse.takeWhile (· = 92)).length

/-- An escape is open behind the characters. -/
def openEscape : Bool → List UInt8 → Bool
  | escaped, [] => escaped
  | escaped, ch :: s => openEscape (!escaped && ch == 92) s

variable {n e s : List UInt8} {escaped : Bool} {ch : UInt8}

theorem unescapeLoop_plain (h : ch ≠ 92) (s : List UInt8) :
    unescapeLoop false (ch :: s) = (unescapeLoop false s).map (ch :: ·) := by
  rw [unescapeLoop, if_neg h]

theorem unescapeLoop_escaped (ch : UInt8) (s : List UInt8) :
    unescapeLoop false (92 :: ch :: s) = (unescapeLoop false s).map (ch :: ·) := by
  rw [unescapeLoop, if_pos rfl, unescapeLoop]

theorem escaping_of_unescapeLoop (h : unescapeLoop false e = some n) : Escaping n e := by
  -- on the length, as a backslash is taken together with the character behind it
  induction hlength : e.length using Nat.strongRecOn generalizing n e with
  | ind length ih =>
    subst hlength
    match e, h with
    | [], h =>
      obtain rfl := Option.some.inj h
      exact .nil
    | [ch], h =>
      by_cases hch : ch = 92
      · rw [hch, unescapeLoop, if_pos rfl, unescapeLoop, if_pos rfl] at h
        cases h
      · rw [unescapeLoop_plain hch, unescapeLoop] at h
        obtain rfl := Option.some.inj h
        exact .plain hch .nil
    | ch :: next :: e, h =>
      by_cases hch : ch = 92
      · subst hch
        rw [unescapeLoop_escaped, Option.map_eq_some_iff] at h
        obtain ⟨n, hn, rfl⟩ := h
        exact .escaped next (ih e.length (by rw [List.length_cons, List.length_cons]; omega) hn rfl)
      · rw [unescapeLoop_plain hch, Option.map_eq_some_iff] at h
        obtain ⟨n, hn, rfl⟩ := h
        exact .plain hch (ih (next :: e).length (by simp) hn rfl)

/-- **Unescaping is the inverse of every escaping.** -/
theorem unescapeLoop_eq_some_iff : unescapeLoop false e = some n ↔ Escaping n e := by
  refine ⟨escaping_of_unescapeLoop, fun h => ?_⟩
  induction h with
  | nil => rfl
  | plain hch _ ih => rw [unescapeLoop_plain hch, ih, Option.map_some]
  | escaped ch _ ih => rw [unescapeLoop_escaped, ih, Option.map_some]

theorem unescapeLoop_isNone (escaped : Bool) (s : List UInt8) :
    unescapeLoop escaped s = none ↔ openEscape escaped s = true := by
  induction s generalizing escaped with
  | nil => cases escaped <;> simp [unescapeLoop, openEscape]
  | cons ch s ih =>
    cases escaped with
    | false =>
      by_cases hch : ch = 92
      · simp [unescapeLoop, openEscape, hch, ih]
      · simp [unescapeLoop, openEscape, hch, ih, beq_false_of_ne hch]
    | true => simp [unescapeLoop, openEscape, ih]

theorem openEscape_snoc (escaped : Bool) (s : List UInt8) (ch : UInt8) :
    openEscape escaped (s ++ [ch]) = (!openEscape escaped s && ch == 92) := by
  induction s generalizing escaped with
  | nil => rfl
  | cons c s ih => exact ih _

theorem openEscape_iff (s : List UInt8) :
    openEscape false s = true ↔ trailingBackslashes s % 2 = 1 := by
  induction s using List.reverseRecOn with
  | nil => simp [openEscape, trailingBackslashes]
  | append_singleton s ch ih =>
    have htrailing : trailingBackslashes (s ++ [ch]) =
        if ch = 92 then trailingBackslashes s + 1 else 0 := by
      by_cases hch : ch = 92 <;> simp [trailingBackslashes, hch]
    rw [openEscape_snoc, htrailing]
    by_cases hch : ch = 92
    · rw [if_pos hch, hch]
      cases hopen : openEscape false s with
      | false =>
        have := mt ih.2 (Bool.eq_false_iff.1 hopen)
        simp
        omega
      | true =>
        have := ih.1 hopen
        simp
        omega
    · simp [hch]

/-- **Only what ends in an unpaired backslash is rejected.** -/
theorem unescapeLoop_eq_none_iff (s : List UInt8) :
    unescapeLoop false s = none ↔ trailingBackslashes s % 2 = 1 :=
  (unescapeLoop_isNone false s).trans (openEscape_iff s)

theorem Escaping.length_le (h : Escaping n e) : n.length ≤ e.length := by
  induction h with
  | nil => exact Nat.le_refl _
  | plain _ _ ih => exact Nat.succ_le_succ ih
  | escaped _ _ ih =>
    simp only [List.length_cons]
    omega

/-- Only a string without backslashes is an escaping of itself. -/
theorem escaping_self_iff : Escaping n n ↔ 92 ∉ n := by
  constructor
  · intro h
    have key : ∀ {n e : List UInt8}, Escaping n e → e.length = n.length → 92 ∉ n := by
      intro n e h hlength
      induction h with
      | nil => exact List.not_mem_nil
      | plain hch _ ih =>
        rw [List.mem_cons, not_or]
        exact ⟨Ne.symm hch, ih (Nat.succ.inj hlength)⟩
      | escaped ch rest _ =>
        have := rest.length_le
        simp only [List.length_cons] at hlength
        omega
    exact key h rfl
  · intro h
    induction n with
    | nil => exact .nil
    | cons ch n ih =>
      rw [List.mem_cons, not_or] at h
      exact .plain (Ne.symm h.1) (ih h.2)

/-- A string without NUL has none in an escaping. -/
theorem Escaping.zero_not_mem (h : Escaping n e) (hn : 0 ∉ n) : 0 ∉ e := by
  induction h with
  | nil => exact hn
  | plain _ _ ih =>
    rw [List.mem_cons, not_or] at hn ⊢
    exact ⟨hn.1, ih hn.2⟩
  | escaped ch _ ih =>
    rw [List.mem_cons, not_or] at hn
    simp only [List.mem_cons, not_or]
    exact ⟨by decide, hn.1, ih hn.2⟩

/-! ### The proxy that is created -/

namespace Cmrg

open Session Xpcommands

/-- Memory can be allocated, and the registry of X-Plane commands can be locked. -/
structure Provides (w : World CmrgMemory) : Prop where
  alloc : ∀ tick, w.env.alloc tick = true
  registry : ∀ tick, ¬ (w.atTick tick).refuses .registry

/-- A request for CMRG with options that are accepted. -/
structure Accepted (request : Request) (version : ℕ) : Prop where
  version_eq : version = commandVersion
  options : request.hasOnlyOptions supportedOptions = true
  monitor : (parseMonitor (request.getOption "monitor" "all")).isSome
  phase : (parsePhase (request.getOption "phase" "before")).isSome
  propagate : (parsePropagation (request.getOption "propagate" "false")).isSome

/-- The registry lists one proxy more, with that name and description. -/
def ProxyAdded (w w' : World CmrgMemory) (name description : List UInt8) : Prop :=
  ∃ a found, w'.memory.xpcommands = Function.update w.memory.xpcommands a (some found) ∧
    w'.memory.commands = w.memory.commands ++ [a] ∧ found.name = name ∧
    found.description = description

/-- The registry is as before. -/
structure SameRegistry (w w' : World CmrgMemory) : Prop where
  xpcommands : w'.memory.xpcommands = w.memory.xpcommands
  commands : w'.memory.commands = w.memory.commands

instance : Std.Refl SameRegistry := ⟨fun _ => ⟨rfl, rfl⟩⟩

instance : IsTrans (World CmrgMemory) SameRegistry :=
  ⟨fun _ _ _ h h' => ⟨h'.xpcommands.trans h.xpcommands, h'.commands.trans h.commands⟩⟩

variable {w w' w'' : World CmrgMemory} {request : Request} {version ref : ℕ}
  {name description : List UInt8}

theorem sameRegistry_of_speaks (h : w.Speaks w') : SameRegistry w w' :=
  ⟨by rw [h.memory], by rw [h.memory]⟩

theorem ProxyAdded.same (h : ProxyAdded w w' name description) (hs : SameRegistry w' w'') :
    ProxyAdded w w'' name description := by
  obtain ⟨a, found, hx, hcommands, hfound⟩ := h
  exact ⟨a, found, hs.xpcommands.trans hx, hs.commands.trans hcommands, hfound⟩

/-- There is only one proxy more, so only one description. -/
theorem ProxyAdded.description_eq {name' description' : List UInt8}
    (h : ProxyAdded w w' name description) (h' : ProxyAdded w w' name' description') :
    description = description' := by
  obtain ⟨a, found, hx, hcommands, -, rfl⟩ := h
  obtain ⟨a', found', hx', hcommands', -, rfl⟩ := h'
  obtain rfl : a = a' := by
    rw [hcommands] at hcommands'
    simpa using hcommands'
  have hfound := congrFun (hx.symm.trans hx') a
  rw [Function.update_self, Function.update_self] at hfound
  rw [Option.some.inj hfound]

theorem ProxyAdded.not_same (h : ProxyAdded w w' name description) : ¬ SameRegistry w w' := by
  obtain ⟨a, found, -, hcommands, -⟩ := h
  intro hs
  rw [hs.commands] at hcommands
  simp at hcommands

theorem sameRegistry_updateMemory {f : CmrgMemory → CmrgMemory}
    (hx : ∀ m, (f m).xpcommands = m.xpcommands) (hcommands : ∀ m, (f m).commands = m.commands) :
    Leads SameRegistry (updateMemory f) := fun w => ⟨hx w.memory, hcommands w.memory⟩

theorem sameRegistry_ask {α : Type} (f : Environment → ℕ → α) :
    Leads SameRegistry (ask f : M CmrgMemory α) :=
  (ask_speaks f).mono fun _ _ => sameRegistry_of_speaks

theorem sameRegistry_fail (id : ChannelId) (text : String) :
    Leads SameRegistry (fail ref id text) := by
  refine .bind (.bind ?_ fun _ => .pure _) fun _ => .bind ?_ fun _ => .pure _
  · exact (ChannelCall.exec_speaks .error id _ _).mono fun _ _ => sameRegistry_of_speaks
  · exact sameRegistry_updateMemory (fun _ => rfl) fun _ => rfl

theorem sameRegistry_modifyCommand (f : CommandCmrg → CommandCmrg) :
    Leads SameRegistry (modifyCommand ref f) := sameRegistry_updateMemory (fun _ => rfl) fun _ =>
      rfl

/-- Once the proxy is listed, it stays, also if the task cannot be scheduled. -/
theorem sameRegistry_createTask (id : ChannelId) : Leads SameRegistry (createTask ref id) := by
  have hschedule : ∀ task, Leads SameRegistry (scheduleTask task) := fun task =>
    .bind (sameRegistry_ask _) fun _ => .ite (.pure _) <| .bind (sameRegistry_ask _) fun _ =>
      .ite (.bind (sameRegistry_updateMemory (fun _ => rfl) fun _ => rfl) fun _ => .pure _)
        (.pure _)
  refine .bind (sameRegistry_ask _) fun _ => .ite ?_ ?_
  · refine .bind (.bind (.read _) fun _ => ?_) fun task => ?_
    · exact .bind (sameRegistry_updateMemory (fun _ => rfl) fun _ => rfl) fun _ => .pure _
    · refine .bind (locked_leads (fun _ _ => sameRegistry_of_speaks) ?_) fun err =>
        .ite (.pure _) ?_
      · exact .bind (hschedule task) fun err =>
          .ite (.bind (sameRegistry_modifyCommand _) fun _ => .pure _) (.pure _)
      · exact .bind (sameRegistry_fail _ _) fun _ => .pure _
  · exact .bind (sameRegistry_updateMemory (fun _ => rfl) fun _ => rfl) fun _ => .pure _

theorem Provides.congr (h : Provides w) (henv : w'.env = w.env) (hdepth : w'.depth = w.depth) :
    Provides w' where
  alloc tick := by
    rw [henv]
    exact h.alloc tick
  registry tick hrefuses := by
    refine h.registry tick ?_
    simpa only [World.refuses, World.atTick, henv, hdepth] using hrefuses

theorem copyUnescapedString_run (h : Provides w) (s : List UInt8) :
    (copyUnescapedString (some s)).run w =
      ⟨unescapeLoop false (cString s), w.atTick (w.tick + 1), []⟩ := by
  simp [copyUnescapedString, Session.allocate, h.alloc]

theorem createXpcommand_provided (h : Provides w) (name description : List UInt8)
    (phase : XpcommandPhase) (propagate : XpcommandPropagation) (ref : ℕ) :
    ((createXpcommand name description phase propagate ref).run w).val = some w.memory.next ∧
      ProxyAdded w ((createXpcommand name description phase propagate ref).run w).state name
        description := by
  have hgranted : ¬ (w.atTick (w.tick + 1 + 1 + 1)).refuses .registry := h.registry _
  have hval : ((createXpcommand name description phase propagate ref).run w).val =
      some w.memory.next := by
    simp [createXpcommand, Session.allocate, h.alloc, locked_granted hgranted, World.holding,
      newAddress, readMemory]
  rcases createXpcommand_lists name description phase propagate w with ⟨hnone, -⟩ | ⟨-, hmemory⟩
  · rw [hval] at hnone
    cases hnone
  · exact ⟨hval, w.memory.next, ⟨.created, name, description, phase, propagate, none, some ref⟩,
      by rw [hmemory], by rw [hmemory], rfl, rfl⟩

theorem create_configure (haccepted : Accepted request version) (h : Provides w) :
    ((create request version).run w).state =
      ((configure w.memory.next request).run (allocated request w)).state := by
  have hoptions : ¬ request.hasOnlyOptions supportedOptions = false := by
    rw [haccepted.options]
    decide
  have halloc : ((Session.allocate : M CmrgMemory Bool).run w).val = true := h.alloc w.tick
  unfold create
  simp only [Logged.run_ite]
  rw [if_neg (not_not.2 haccepted.version_eq), if_neg hoptions, Logged.run_bind, Logged.run_ite,
    if_pos halloc]
  rfl

/-- The middle part of `cmrg_create`, for a single parameter: the description is the name, unescaped
once more. -/
theorem createProxy_cases (h : Provides w) {parameter : List UInt8}
    (hparameters : request.parameters = [parameter])
    (hname : unescapeLoop false (cString parameter) = some name) (phase : XpcommandPhase)
    (propagate : XpcommandPropagation) :
    (unescapeLoop false (cString name) = none ∧
      SameRegistry w ((createProxy ref request phase propagate).run w).state) ∨
    ∃ description, unescapeLoop false (cString name) = some description ∧
      ProxyAdded w ((createProxy ref request phase propagate).run w).state name description := by
  have hprovides : Provides (w.atTick (w.tick + 1)) := h.congr rfl rfl
  have hsame : SameRegistry w ((w.atTick (w.tick + 1)).atTick (w.tick + 1 + 1)) := ⟨rfl, rfl⟩
  -- there is no second parameter
  have hdefault : ([parameter] : List (List UInt8))[1]?.getD name = name := rfl
  rw [createProxy, Logged.run_bind, hparameters, List.getElem?_cons_zero, copyUnescapedString_run h,
    hname]
  simp only [hdefault, Outcome.after_state]
  rw [Logged.run_bind, copyUnescapedString_run hprovides]
  cases hagain : unescapeLoop false (cString name) with
  | none => exact .inl ⟨rfl, IsTrans.trans _ _ _ hsame (sameRegistry_fail _ _ _)⟩
  | some description =>
    refine .inr ⟨description, rfl, ?_⟩
    have hnot : ¬ 2 < [parameter].length := by simp
    set w' := (w.atTick (w.tick + 1)).atTick ((w.atTick (w.tick + 1)).tick + 1)
    obtain ⟨hval, hadded⟩ := createXpcommand_provided (hprovides.congr rfl rfl : Provides w') name
      description phase propagate ref
    have hadded' :
        ProxyAdded w ((createXpcommand name description phase propagate ref).run w').state
        name description := hadded
    simp only [if_neg hnot, Outcome.after_state]
    rw [Logged.run_bind]
    simp only [Outcome.after_state]
    rw [hval]
    have hstays : Leads SameRegistry (do
        modifyCommand ref fun command => { command with xpcmd := some w'.memory.next }
        createTask ref request.channelId) :=
      .bind (sameRegistry_modifyCommand _) fun _ => sameRegistry_createTask _
    exact hadded'.same (hstays _)

/-- **The proxy for a single parameter**: its description is the name, unescaped once more. -/
theorem create_proxy (haccepted : Accepted request version) (h : Provides w)
    {parameter : List UInt8} (hparameters : request.parameters = [parameter])
    (hname : unescapeLoop false (cString parameter) = some name) :
    (unescapeLoop false (cString name) = none ∧
      SameRegistry w ((create request version).run w).state) ∨
    ∃ description, unescapeLoop false (cString name) = some description ∧
      ProxyAdded w ((create request version).run w).state name description := by
  obtain ⟨monitor, hmonitor⟩ := Option.isSome_iff_exists.1 haccepted.monitor
  obtain ⟨phase, hphase⟩ := Option.isSome_iff_exists.1 haccepted.phase
  obtain ⟨propagate, hpropagate⟩ := Option.isSome_iff_exists.1 haccepted.propagate
  set w' := ((modifyCommand w.memory.next fun command => { command with monitor := monitor }).run
    (allocated request w)).state
  have hprovides : Provides w' := h.congr rfl rfl
  have hcreate : ((create request version).run w).state =
      ((createProxy w.memory.next request phase propagate).run w').state := by
    rw [create_configure haccepted h, configure]
    simp only [hmonitor, hphase, hpropagate]
    rfl
  rw [hcreate]
  rcases createProxy_cases hprovides hparameters hname phase propagate with
    ⟨hnone, hsame⟩ | ⟨description, hsome, hadded⟩
  · exact .inl ⟨hnone, hsame.xpcommands, hsame.commands⟩
  · exact .inr ⟨description, hsome, hadded⟩

/-- What is expected of a name and an escaping of it: the escaping is undone, and a request with
this as its only parameter creates a proxy with that name and description. -/
structure Unescapes (request : Request) (version : ℕ) (w : World CmrgMemory) (n e : List UInt8) :
    Prop where
  copied : ((copyUnescapedString (some e) : M CmrgMemory _).run w).val = some n
  created : ProxyAdded w ((create request version).run w).state n n

/-- A name is its own description only if unescaping it once more changes nothing. -/
theorem Unescapes.self (hunescapes : Unescapes request version w n e) (h : Provides w) (hn : 0 ∉ n)
    (hescaping : Escaping n e) (haccepted : Accepted request version)
    (hparameters : request.parameters = [e]) : unescapeLoop false n = some n := by
  have hcopied : unescapeLoop false (cString e) = some n := by
    rw [cString_eq_self (hescaping.zero_not_mem hn)]
    exact unescapeLoop_eq_some_iff.2 hescaping
  rcases create_proxy haccepted h hparameters hcopied with ⟨-, hsame⟩ | ⟨description,
    hagain, hadded⟩
  · exact absurd hsame hunescapes.created.not_same
  · rw [cString_eq_self hn] at hagain
    obtain rfl := hunescapes.created.description_eq hadded
    exact hagain

/-- **A name is also taken for the description iff there is no backslash in it.**  An unpaired
backslash at the end is all that makes a string be rejected. -/
theorem unescapes_iff (w : World CmrgMemory) (h : Provides w) :
    (∀ s, 0 ∉ s → (((copyUnescapedString (some s) : M CmrgMemory _).run w).val = none ↔
      trailingBackslashes s % 2 = 1)) ∧
    ∀ (n e : List UInt8) (request : Request) (version : ℕ), 0 ∉ n → Escaping n e →
      Accepted request version → request.parameters = [e] →
      (Unescapes request version w n e ↔ 92 ∉ n) := by
  constructor
  · intro s hs
    rw [copyUnescapedString_run h, cString_eq_self hs]
    exact unescapeLoop_eq_none_iff s
  · intro n e request version hn hescaping haccepted hparameters
    rw [← escaping_self_iff, ← unescapeLoop_eq_some_iff]
    refine ⟨fun hunescapes => hunescapes.self h hn hescaping haccepted hparameters, fun hself => ?_⟩
    have hcopied : unescapeLoop false (cString e) = some n := by
      rw [cString_eq_self (hescaping.zero_not_mem hn)]
      exact unescapeLoop_eq_some_iff.2 hescaping
    refine ⟨by rw [copyUnescapedString_run h, hcopied], ?_⟩
    have hcreate := create_proxy haccepted h hparameters hcopied
    rw [cString_eq_self hn, hself] at hcreate
    rcases hcreate with ⟨hnone, -⟩ | ⟨description, hagain, hadded⟩
    · cases hnone
    · obtain rfl := Option.some.inj hagain
      exact hadded

theorem provides_idle (m : CmrgMemory) : Provides (World.idle m) where
  alloc _ := rfl
  registry tick := by
    simp [World.refuses, World.idle, Environment.calm, Environment.pendingAt, World.atTick]

/-- A request for CMRG with one parameter and no options. -/
def single (parameter : List UInt8) : Request := ⟨1, bytes "CMRG", [], [parameter]⟩

theorem accepted_single (parameter : List UInt8) : Accepted (single parameter) commandVersion :=
  ⟨rfl, rfl, rfl, rfl, rfl⟩

theorem unescapes_iff_plain :
    Unescapes (single (bytes "\\a")) commandVersion (World.idle .empty) (bytes "a") (bytes "\\a") :=
  ((unescapes_iff (World.idle .empty) (provides_idle .empty)).2 (bytes "a") (bytes "\\a")
    (single (bytes "\\a")) commandVersion (by decide) (.escaped 97 .nil) (accepted_single _) rfl).2
    (by decide)

/-- The name has a backslash, its description has not. -/
theorem not_unescapes_backslash :
    ¬ Unescapes (single (bytes "a\\\\b")) commandVersion (World.idle .empty) (bytes "a\\b")
      (bytes "a\\\\b") := by
  intro h
  have hescaping : Escaping (bytes "a\\b") (bytes "a\\\\b") :=
    .plain (by decide) (.escaped 92 (.plain (by decide) .nil))
  have hself := h.self (provides_idle .empty) (by decide) hescaping (accepted_single _) rfl
  exact absurd hself (by decide)

end Cmrg

end XprcServer
