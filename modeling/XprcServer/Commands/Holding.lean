import XprcServer.Commands.Xpqueue

/-!
# Entries of X-Plane commands

`command_cmtr.c` and `command_cmhd.c` both work on a list of X-Plane commands that they hold and
release.  Their entries are the same, and so are the loops over them: all entries are looked up, all
are held, all that are held are released, and in the end the release of all that are still held is
queued.

`Tracks` says that the entries are marked as held exactly if X-Plane holds them for the command, and
that no release is queued while the command may still hold them again.  There is one lemma for each
of the loops.
-/

namespace XprcServer

/-- `cmtr_entry_t` and `cmhd_entry_t`; `address` is where the entry is. -/
structure HoldEntry where
  address : ℕ
  name : List UInt8
  held : Bool
  xpRef : Option ℕ
  deriving DecidableEq, Repr

namespace HoldEntry

/-! ### The loops -/

/-- All entries are looked up with `XPLMFindCommand`, until one is not found. -/
def findAll (findCommand : List UInt8 → Option ℕ) : List HoldEntry → List HoldEntry × Bool
  | [] => ([], true)
  | entry :: rest =>
    match findCommand entry.name with
    | none => ({ entry with xpRef := none } :: rest, false)
    | some xpRef =>
      let r := findAll findCommand rest
      ({ entry with xpRef := some xpRef } :: r.1, r.2)

/-- The call of X-Plane for an entry. -/
def callFor (function : XplmCommandFunction) (onlyIfHeld : Bool) (entry : HoldEntry) (xp : XpSide) :
    XpSide :=
  if !onlyIfHeld || entry.held then xp.call ⟨function, entry.xpRef, some entry.address, false⟩
  else xp

/-- `for_all_xprefs` -/
def forAllXprefs (function : XplmCommandFunction) (holding onlyIfHeld : Bool) :
    List HoldEntry → XpSide → List HoldEntry × XpSide
  | [], xp => ([], xp)
  | entry :: rest, xp =>
    let r := forAllXprefs function holding onlyIfHeld rest (callFor function onlyIfHeld entry xp)
    ({ entry with held := holding } :: r.1, r.2)

/-- `for_all_xprefs_reversed` -/
def forAllXprefsReversed (function : XplmCommandFunction) (holding onlyIfHeld : Bool) :
    List HoldEntry → XpSide → List HoldEntry × XpSide
  | [], xp => ([], xp)
  | entry :: rest, xp =>
    let r := forAllXprefsReversed function holding onlyIfHeld rest xp
    ({ entry with held := holding } :: r.1, callFor function onlyIfHeld entry r.2)

/-- What happens while releases are queued: the results for each entry, and what others do to the
queue before its release is queued. -/
structure ReleaseEnv where
  results : ℕ → QueueResults
  others : ℕ → List XpqueueOp

/-- The loop of `cmtr_terminate` and `cmhd_terminate`, from the last entry to the first one; `keep`
is what stays in the list of an entry whose release was queued.  Also counts the entries whose
release could not be queued. -/
def releaseAll (env : ReleaseEnv) (keep : HoldEntry → Option HoldEntry) :
    List HoldEntry → XpSide → List HoldEntry × ℕ × XpSide
  | [], xp => ([], 0, xp)
  | entry :: rest, xp =>
    let r := releaseAll env keep rest xp
    if entry.held then
      let xp := r.2.2.execAll (env.others entry.address)
      let q := xp.queueCommandEnd (env.results entry.address) entry.xpRef (some entry.address)
      if q.1 = .none then ((keep entry).toList ++ r.1, r.2.1, q.2)
      else (entry :: r.1, r.2.1 + 1, q.2)
    else (entry :: r.1, r.2.1, r.2.2)

/-- The addresses of the entries that are held. -/
def heldAddresses (entries : List HoldEntry) : List ℕ :=
  (entries.filter HoldEntry.held).map HoldEntry.address

section

variable {entry : HoldEntry} {entries rest : List HoldEntry} {xp : XpSide} {a : ℕ}
  {phase : EntryPhase}

theorem heldAddresses_subset : heldAddresses entries ⊆ entries.map HoldEntry.address := by
  intro a ha
  obtain ⟨entry, hentry, rfl⟩ := List.mem_map.1 ha
  exact List.mem_map.2 ⟨entry, (List.mem_filter.1 hentry).1, rfl⟩

theorem heldAddresses_cons : heldAddresses (entry :: rest) =
    if entry.held then entry.address :: heldAddresses rest else heldAddresses rest := by
  unfold heldAddresses
  cases hheld : entry.held with
  | false => simp [hheld]
  | true => simp [hheld]

theorem heldAddresses_append :
    heldAddresses (entries ++ rest) = heldAddresses entries ++ heldAddresses rest := by
  unfold heldAddresses
  rw [List.filter_append, List.map_append]

theorem heldAddresses_of_held {holding : Bool} (h : ∀ entry ∈ entries, entry.held = holding) :
    heldAddresses entries = if holding then entries.map HoldEntry.address else [] := by
  unfold heldAddresses
  cases holding with
  | false => simpa [List.filter_eq_nil_iff] using h
  | true =>
    rw [List.filter_eq_self.2 h]
    rfl

/-! ### Looking up -/

theorem findAll_map_address (findCommand : List UInt8 → Option ℕ) (entries : List HoldEntry) :
    (findAll findCommand entries).1.map HoldEntry.address = entries.map HoldEntry.address ∧
      (findAll findCommand entries).1.map HoldEntry.held = entries.map HoldEntry.held := by
  induction entries with
  | nil => exact ⟨rfl, rfl⟩
  | cons entry rest ih =>
    unfold findAll
    cases findCommand entry.name with
    | none => exact ⟨rfl, rfl⟩
    | some xpRef => exact ⟨congrArg (entry.address :: ·) ih.1, congrArg (entry.held :: ·) ih.2⟩

theorem findAll_found {findCommand : List UInt8 → Option ℕ}
    (h : (findAll findCommand entries).2 = true) :
    ∀ entry ∈ (findAll findCommand entries).1, entry.xpRef ≠ none := by
  induction entries with
  | nil => intro entry hentry; cases hentry
  | cons first rest ih =>
    unfold findAll at h ⊢
    cases hfind : findCommand first.name with
    | none => rw [hfind] at h; cases h
    | some xpRef =>
      rw [hfind] at h
      intro entry hentry
      rcases List.mem_cons.1 hentry with rfl | hrest
      · simp
      · exact ih h entry hrest

/-! ### Calls for all entries -/

theorem forAllXprefs_fst (function : XplmCommandFunction) (holding onlyIfHeld : Bool)
    (entries : List HoldEntry) (xp : XpSide) :
    (forAllXprefs function holding onlyIfHeld entries xp).1 =
      entries.map fun entry => { entry with held := holding } := by
  induction entries generalizing xp with
  | nil => rfl
  | cons entry rest ih => exact congrArg _ (ih _)

theorem forAllXprefsReversed_fst (function : XplmCommandFunction) (holding onlyIfHeld : Bool)
    (entries : List HoldEntry) (xp : XpSide) :
    (forAllXprefsReversed function holding onlyIfHeld entries xp).1 =
      entries.map fun entry => { entry with held := holding } := by
  induction entries generalizing xp with
  | nil => rfl
  | cons entry rest ih => exact congrArg _ (ih _)

theorem callFor_delivers (h : xp.Delivers) (function : XplmCommandFunction) (onlyIfHeld : Bool)
    (entry : HoldEntry) : (callFor function onlyIfHeld entry xp).Delivers := by
  unfold callFor
  split_ifs
  · exact h.call rfl
  · exact h

/-- The calls for an entry are none of another one. -/
theorem callFor_other (h : xp.At a phase) (function : XplmCommandFunction) (onlyIfHeld : Bool)
    (hne : entry.address ≠ a) : (callFor function onlyIfHeld entry xp).At a phase := by
  unfold callFor
  split_ifs
  · exact h.call_other (by simp [XpSide.bracketOf, hne])
  · exact h

theorem forAllXprefs_delivers (h : xp.Delivers) (function : XplmCommandFunction)
    (holding onlyIfHeld : Bool) (entries : List HoldEntry) :
    (forAllXprefs function holding onlyIfHeld entries xp).2.Delivers := by
  induction entries generalizing xp with
  | nil => exact h
  | cons entry rest ih => exact ih (callFor_delivers h _ _ _)

theorem forAllXprefsReversed_delivers (h : xp.Delivers) (function : XplmCommandFunction)
    (holding onlyIfHeld : Bool) (entries : List HoldEntry) :
    (forAllXprefsReversed function holding onlyIfHeld entries xp).2.Delivers := by
  induction entries with
  | nil => exact h
  | cons entry rest ih => exact callFor_delivers ih _ _ _

theorem forAllXprefs_other (h : xp.At a phase) (function : XplmCommandFunction)
    (holding onlyIfHeld : Bool) (ha : a ∉ entries.map HoldEntry.address) :
    (forAllXprefs function holding onlyIfHeld entries xp).2.At a phase := by
  induction entries generalizing xp with
  | nil => exact h
  | cons entry rest ih =>
    rw [List.map_cons, List.mem_cons, not_or] at ha
    exact ih (callFor_other h _ _ (Ne.symm ha.1)) ha.2

theorem forAllXprefsReversed_other (h : xp.At a phase) (function : XplmCommandFunction)
    (holding onlyIfHeld : Bool) (ha : a ∉ entries.map HoldEntry.address) :
    (forAllXprefsReversed function holding onlyIfHeld entries xp).2.At a phase := by
  induction entries with
  | nil => exact h
  | cons entry rest ih =>
    rw [List.map_cons, List.mem_cons, not_or] at ha
    exact callFor_other (ih ha.2) _ _ (Ne.symm ha.1)

theorem forAllXprefs_begin (hnodup : (entries.map HoldEntry.address).Nodup)
    (h : ∀ a ∈ entries.map HoldEntry.address, xp.At a .released) :
    ∀ a ∈ entries.map HoldEntry.address,
      (forAllXprefs .commandBegin true false entries xp).2.At a .held := by
  induction entries generalizing xp with
  | nil => intro a ha; cases ha
  | cons entry rest ih =>
    rw [List.map_cons, List.nodup_cons] at hnodup
    rw [List.map_cons, List.forall_mem_cons] at h
    have hfirst : (callFor .commandBegin false entry xp).At entry.address .held := by
      simpa [callFor] using h.1.commandBegin
    intro a ha
    rcases List.mem_cons.1 ha with rfl | hrest
    · exact forAllXprefs_other hfirst _ _ _ hnodup.1
    · refine ih hnodup.2 (fun b hb => callFor_other (h.2 b hb) _ _ ?_) a hrest
      exact fun heq => hnodup.1 (heq ▸ hb)

theorem forAllXprefsReversed_end (hnodup : (entries.map HoldEntry.address).Nodup)
    (h : ∀ a ∈ heldAddresses entries, xp.At a .held)
    (hother : a ∉ heldAddresses entries → xp.At a phase)
    (hphase : a ∈ heldAddresses entries → phase = .released) :
    (forAllXprefsReversed .commandEnd false true entries xp).2.At a phase := by
  induction entries with
  | nil => exact hother (by simp [heldAddresses])
  | cons entry rest ih =>
    rw [List.map_cons, List.nodup_cons] at hnodup
    rw [heldAddresses_cons] at h hother hphase
    have hnotrest : entry.address ∉ heldAddresses rest := fun hmem =>
      hnodup.1 (heldAddresses_subset hmem)
    cases hheld : entry.held with
    | false =>
      simp only [hheld, Bool.false_eq_true, if_false] at h hother hphase
      simpa [forAllXprefsReversed, callFor, hheld] using ih hnodup.2 h hother hphase
    | true =>
      simp only [hheld, if_true, List.mem_cons, forall_eq_or_imp, not_or] at h hother hphase
      have hend : (forAllXprefsReversed .commandEnd false true (entry :: rest) xp).2 =
          (forAllXprefsReversed .commandEnd false true rest xp).2.call
            ⟨.commandEnd, entry.xpRef, some entry.address, false⟩ := by
        simp [forAllXprefsReversed, callFor, hheld]
      rw [hend]
      by_cases ha : a = entry.address
      · subst ha
        rw [hphase (.inl rfl)]
        exact (forAllXprefsReversed_other h.1 _ _ _ hnodup.1).commandEnd
      · refine (ih hnodup.2 h.2 (fun hn => hother ⟨ha, hn⟩) fun hm => hphase (.inr hm)).call_other
          ?_
        simp [XpSide.bracketOf, Ne.symm ha]

theorem forAllXprefs_once (h : xp.At a phase) (holding onlyIfHeld : Bool) :
    (forAllXprefs .commandOnce holding onlyIfHeld entries xp).2.At a phase := by
  induction entries generalizing xp with
  | nil => exact h
  | cons entry rest ih =>
    refine ih ?_
    unfold callFor
    split_ifs
    · exact h.call_other (by simp [XpSide.bracketOf])
    · exact h

/-! ### Queueing the releases -/

variable {env : ReleaseEnv} {keep : HoldEntry → Option HoldEntry}

/-- What is kept of an entry is not held any more. -/
def Keeps (keep : HoldEntry → Option HoldEntry) : Prop :=
  ∀ entry kept, keep entry = some kept → kept.held = false ∧ kept.address = entry.address

theorem Keeps.sublist (hkeep : Keeps keep) (entry : HoldEntry) :
    ((keep entry).toList.map HoldEntry.address).Sublist [entry.address] := by
  cases hkept : keep entry with
  | none => simp
  | some kept => simp [(hkeep entry kept hkept).2]

theorem Keeps.heldAddresses (hkeep : Keeps keep) (entry : HoldEntry) (rest : List HoldEntry) :
    heldAddresses ((keep entry).toList ++ rest) = heldAddresses rest := by
  cases hkept : keep entry with
  | none => rfl
  | some kept =>
    rw [Option.toList_some, List.singleton_append, heldAddresses_cons]
    simp [(hkeep entry kept hkept).1]

/-- No entry is added, and none is marked as held. -/
theorem releaseAll_sublist (env : ReleaseEnv) (hkeep : Keeps keep) (entries : List HoldEntry)
    (xp : XpSide) :
    ((releaseAll env keep entries xp).1.map HoldEntry.address).Sublist
      (entries.map HoldEntry.address) ∧
    (∀ entry ∈ (releaseAll env keep entries xp).1, entry.held = true → entry ∈ entries) := by
  induction entries with
  | nil => exact ⟨.slnil, fun _ h _ => h⟩
  | cons entry rest ih =>
    unfold releaseAll
    dsimp only
    split_ifs
    · refine ⟨?_, fun e he hheld => ?_⟩
      · rw [List.map_append, List.map_cons]
        exact (hkeep.sublist entry).append ih.1
      · rcases List.mem_append.1 he with hkept | hrest
        · rw [(hkeep entry e (Option.mem_toList.1 hkept)).1] at hheld
          cases hheld
        · exact List.mem_cons_of_mem _ (ih.2 e hrest hheld)
    all_goals
      refine ⟨ih.1.cons_cons _, fun e he hheld => ?_⟩
      rcases List.mem_cons.1 he with rfl | hrest
      · exact List.mem_cons_self
      · exact List.mem_cons_of_mem _ (ih.2 e hrest hheld)

theorem releaseAll_idle (env : ReleaseEnv) (hkeep : Keeps keep) (xp : XpSide)
    (h : heldAddresses entries = []) : heldAddresses (releaseAll env keep entries xp).1 = [] := by
  refine List.eq_nil_iff_forall_not_mem.2 fun a ha => ?_
  obtain ⟨entry, hentry, rfl⟩ := List.mem_map.1 ha
  obtain ⟨hentry, hheld⟩ := List.mem_filter.1 hentry
  have hmem : entry.address ∈ heldAddresses entries :=
    List.mem_map_of_mem
      (List.mem_filter.2 ⟨(releaseAll_sublist env hkeep entries xp).2 entry hentry hheld, hheld⟩)
  rw [h] at hmem
  cases hmem

theorem releaseAll_delivers (h : xp.Delivers) (entries : List HoldEntry) :
    (releaseAll env keep entries xp).2.2.Delivers := by
  induction entries with
  | nil => exact h
  | cons entry rest ih =>
    unfold releaseAll
    dsimp only
    split_ifs
    · exact (ih.execAll _).queueCommandEnd _ _ _
    · exact (ih.execAll _).queueCommandEnd _ _ _
    · exact ih

/-- The number of failures is that of the entries still held. -/
theorem releaseAll_failed (env : ReleaseEnv) (hkeep : Keeps keep) (entries : List HoldEntry)
    (xp : XpSide) :
    (releaseAll env keep entries xp).2.1 =
      (heldAddresses (releaseAll env keep entries xp).1).length := by
  induction entries with
  | nil => rfl
  | cons entry rest ih =>
    unfold releaseAll
    dsimp only
    split_ifs with hheld hqueued
    · rw [hkeep.heldAddresses]
      exact ih
    · rw [heldAddresses_cons, if_pos hheld, List.length_cons, ih]
    · rw [heldAddresses_cons, if_neg hheld, ih]

/-- What is not held by the entries is not touched, apart from releases that were queued before. -/
theorem releaseAll_other (h : xp.At a phase) (ha : a ∉ heldAddresses entries) :
    (releaseAll env keep entries xp).2.2.Drained a phase := by
  induction entries with
  | nil => exact .inl h
  | cons entry rest ih =>
    rw [heldAddresses_cons] at ha
    unfold releaseAll
    dsimp only
    by_cases hheld : entry.held = true
    · rw [if_pos hheld, List.mem_cons, not_or] at ha
      have hne : some entry.address ≠ some a := fun heq => ha.1 (Option.some.inj heq).symm
      -- what is queued for the entry is queued for another address
      have hqueue : ((((releaseAll env keep rest xp).2.2.execAll
          (env.others entry.address)).queueCommandEnd (env.results entry.address) entry.xpRef
            (some entry.address)).2).Drained a phase :=
        ((ih ha.2).step fun hat => hat.execAll _).step fun hat => .inl (hat.queue_other hne)
      rw [if_pos hheld]
      split_ifs
      · exact hqueue
      · exact hqueue
    · rw [if_neg hheld] at ha
      rw [if_neg hheld]
      exact ih ha

/-- The release of an entry that was held is queued, or the entry is still held. -/
theorem releaseAll_held (hkeep : Keeps keep) (hnodup : (entries.map HoldEntry.address).Nodup)
    (h : xp.At a .held) (ha : a ∈ heldAddresses entries) :
    ∃ phase, (releaseAll env keep entries xp).2.2.At a phase ∧
      (phase = .held ↔ a ∈ heldAddresses (releaseAll env keep entries xp).1) := by
  induction entries with
  | nil => cases ha
  | cons entry rest ih =>
    rw [List.map_cons, List.nodup_cons] at hnodup
    rw [heldAddresses_cons] at ha
    unfold releaseAll
    dsimp only
    by_cases hheld : entry.held = true
    · rw [if_pos hheld] at ha
      rw [if_pos hheld]
      set before := (releaseAll env keep rest xp).2.2.execAll
          (env.others entry.address) with hbefore
      by_cases heq : a = entry.address
      · -- this entry: it is not among the rest, so that it is still held when it is its turn
        subst heq
        have hnotin : entry.address ∉ heldAddresses rest :=
          fun hmem => hnodup.1 (heldAddresses_subset hmem)
        have hrest : (releaseAll env keep rest xp).2.2.At entry.address .held :=
          (releaseAll_other h hnotin).held
        have hbeforeAt : before.At entry.address .held :=
          (hrest.execAll (env.others entry.address)).held
        have hnotend : entry.address ∉ heldAddresses (releaseAll env keep rest xp).1 := by
          intro hmem
          exact hnodup.1 ((releaseAll_sublist env hkeep rest xp).1.subset
            (heldAddresses_subset hmem))
        split_ifs with hqueued
        · refine ⟨.releasing, hbeforeAt.queue_self hqueued, ?_⟩
          rw [hkeep.heldAddresses]
          simpa using hnotend
        · rcases XpSide.queueCommandEnd_cases (env.results entry.address) entry.xpRef
            (some entry.address) before with ⟨-, hsame⟩ | hqueued'
          · refine ⟨.held, ?_, ?_⟩
            · rw [hsame]
              exact hbeforeAt
            · rw [heldAddresses_cons, if_pos hheld]
              simp
          · exact absurd (congrArg Prod.fst hqueued') hqueued
      · -- an entry of the rest: queueing another one does not touch it
        have harest : a ∈ heldAddresses rest := (List.mem_cons.1 ha).resolve_left heq
        obtain ⟨phase, hat, hiff⟩ := ih hnodup.2 harest
        have hne : some entry.address ≠ some a := fun hsome => heq (Option.some.inj hsome).symm
        obtain ⟨phase', hat', hiff'⟩ : ∃ phase', before.At a phase' ∧
            (phase' = .held ↔ phase = .held) := by
          rcases hat.execAll (env.others entry.address) with hsame | ⟨hphase, hreleased⟩
          · exact ⟨phase, hsame, Iff.rfl⟩
          · exact ⟨.released, hreleased, by simp [hphase]⟩
        split_ifs with hqueued
        · refine ⟨phase', hat'.queue_other hne, ?_⟩
          rw [hkeep.heldAddresses]
          exact hiff'.trans hiff
        · refine ⟨phase', hat'.queue_other hne, ?_⟩
          rw [heldAddresses_cons, if_pos hheld, List.mem_cons]
          exact hiff'.trans (hiff.trans (by simp [heq]))
    · rw [if_neg hheld] at ha
      rw [if_neg hheld]
      obtain ⟨phase, hat, hiff⟩ := ih hnodup.2 ha
      refine ⟨phase, hat, ?_⟩
      rw [heldAddresses_cons, if_neg hheld]
      exact hiff

/-- If nothing fails, the releases of all entries that are held are queued. -/
theorem releaseAll_ok (hresults : ∀ a, env.results a = .ok)
    (hpending : xp.queue.destructionPending = false)
    (hrefs : ∀ entry ∈ entries, entry.held = true → entry.xpRef ≠ none) :
    (releaseAll env keep entries xp).1 =
        entries.flatMap (fun entry => if entry.held then (keep entry).toList else [entry]) ∧
      (releaseAll env keep entries xp).2.1 = 0 ∧
      (releaseAll env keep entries xp).2.2.queue.destructionPending = false := by
  induction entries with
  | nil => exact ⟨rfl, rfl, hpending⟩
  | cons entry rest ih =>
    obtain ⟨hentries, hfailed, hrest⟩ := ih fun e he => hrefs e (List.mem_cons_of_mem _ he)
    unfold releaseAll
    dsimp only
    rw [List.flatMap_cons]
    by_cases hheld : entry.held = true
    · rw [if_pos hheld, if_pos hheld]
      have hqueued : (((releaseAll env keep rest xp).2.2.execAll
          (env.others entry.address)).queueCommandEnd (env.results entry.address) entry.xpRef
            (some entry.address)).1 = .none :=
        XpSide.queueCommandEnd_ok (hresults entry.address)
          ((XpSide.execAll_destructionPending (env.others entry.address) _).trans hrest)
          (hrefs entry List.mem_cons_self hheld)
      rw [if_pos hqueued]
      refine ⟨congrArg _ hentries, hfailed, ?_⟩
      rw [XpSide.queueCommandEnd_destructionPending, XpSide.execAll_destructionPending]
      exact hrest
    · rw [if_neg hheld, if_neg hheld]
      exact ⟨congrArg _ hentries, hfailed, hrest⟩

end

/-! ### Entries and X-Plane agree -/

/-- The entries are marked as held exactly if X-Plane holds them, and a release is queued only for a
command that does not run any more. -/
structure Tracks (running : Prop) (entries : List HoldEntry) (xp : XpSide) : Prop where
  nodup : (entries.map HoldEntry.address).Nodup
  phases : ∀ a, ∃ phase, xp.At a phase ∧ (phase = .held ↔ a ∈ heldAddresses entries) ∧
    (phase = .releasing → ¬ running)
  refs : ∀ entry ∈ entries, entry.held = true → entry.xpRef ≠ none
  delivers : xp.Delivers

namespace Tracks

variable {running running' : Prop} {entries : List HoldEntry} {xp : XpSide}

theorem mono (h : Tracks running entries xp) (himp : running' → running) :
    Tracks running' entries xp := by
  refine ⟨h.nodup, fun a => ?_, h.refs, h.delivers⟩
  obtain ⟨phase, hat, hheld, hreleasing⟩ := h.phases a
  exact ⟨phase, hat, hheld, fun hphase hrunning => hreleasing hphase (himp hrunning)⟩

theorem execAll (h : Tracks running entries xp) (ops : List XpqueueOp) :
    Tracks running entries (xp.execAll ops) := by
  refine ⟨h.nodup, fun a => ?_, h.refs, h.delivers.execAll ops⟩
  obtain ⟨phase, hat, hheld, hreleasing⟩ := h.phases a
  rcases hat.execAll ops with hsame | ⟨hphase, hreleased⟩
  · exact ⟨phase, hsame, hheld, hreleasing⟩
  · refine ⟨.released, hreleased, ?_, fun himpossible => nomatch himpossible⟩
    rw [← hheld, hphase]
    decide

/-- Entries are looked up while none is held. -/
theorem findAll (h : Tracks running entries xp) (hheld : ∀ entry ∈ entries, entry.held = false)
    (findCommand : List UInt8 → Option ℕ) :
    Tracks running (HoldEntry.findAll findCommand entries).1 xp ∧
      ∀ entry ∈ (HoldEntry.findAll findCommand entries).1, entry.held = false := by
  obtain ⟨haddress, hheld'⟩ := findAll_map_address findCommand entries
  have hnone : ∀ entry ∈ (HoldEntry.findAll findCommand entries).1, entry.held = false := by
    intro entry hentry
    have hmem : entry.held ∈ entries.map HoldEntry.held := by
      rw [← hheld']
      exact List.mem_map_of_mem hentry
    obtain ⟨entry', hentry', heq⟩ := List.mem_map.1 hmem
    rw [← heq]
    exact hheld entry' hentry'
  refine ⟨⟨?_, fun a => ?_, fun entry hentry htrue => ?_, h.delivers⟩, hnone⟩
  · rw [haddress]
    exact h.nodup
  · rw [heldAddresses_of_held hnone]
    have hphases := h.phases a
    rw [heldAddresses_of_held hheld] at hphases
    exact hphases
  · rw [hnone entry hentry] at htrue
    cases htrue

theorem forAllXprefs_begin (h : Tracks running entries xp) (hrunning : running)
    (hheld : ∀ entry ∈ entries, entry.held = false)
    (hrefs : ∀ entry ∈ entries, entry.xpRef ≠ none) :
    Tracks running (forAllXprefs .commandBegin true false entries xp).1
      (forAllXprefs .commandBegin true false entries xp).2 := by
  have hreleased : ∀ a, xp.At a .released := by
    intro a
    obtain ⟨phase, hat, hiff, hreleasing⟩ := h.phases a
    rw [heldAddresses_of_held hheld] at hiff
    cases phase with
    | released => exact hat
    | held => cases hiff.1 rfl
    | releasing => exact absurd hrunning (hreleasing rfl)
  rw [forAllXprefs_fst]
  have haddress : (entries.map fun entry => { entry with held := true }).map HoldEntry.address =
      entries.map HoldEntry.address := by simp
  have hall : ∀ entry ∈ entries.map fun entry => { entry with held := true },
      entry.held = true := by
    simp
  refine ⟨haddress ▸ h.nodup, fun a => ?_, fun entry hentry _ => ?_,
    forAllXprefs_delivers h.delivers _ _ _ _⟩
  · rw [heldAddresses_of_held hall, if_pos rfl, haddress]
    by_cases ha : a ∈ entries.map HoldEntry.address
    · exact ⟨.held, HoldEntry.forAllXprefs_begin h.nodup (fun b _ => hreleased b) a ha,
        iff_of_true rfl ha, fun himpossible => nomatch himpossible⟩
    · exact ⟨.released, forAllXprefs_other (hreleased a) _ _ _ ha,
        iff_of_false (by decide) ha, fun himpossible => nomatch himpossible⟩
  · obtain ⟨entry', hentry', rfl⟩ := List.mem_map.1 hentry
    exact hrefs entry' hentry'

theorem forAllXprefsReversed_end (h : Tracks running entries xp) :
    Tracks running (forAllXprefsReversed .commandEnd false true entries xp).1
      (forAllXprefsReversed .commandEnd false true entries xp).2 := by
  have hheld : ∀ a ∈ heldAddresses entries, xp.At a .held := by
    intro a ha
    obtain ⟨phase, hat, hiff, -⟩ := h.phases a
    rw [← hiff.2 ha]
    exact hat
  rw [forAllXprefsReversed_fst]
  have haddress : (entries.map fun entry => { entry with held := false }).map HoldEntry.address =
      entries.map HoldEntry.address := by simp
  have hnone : ∀ entry ∈ entries.map fun entry => { entry with held := false },
      entry.held = false := by
    simp
  refine ⟨haddress ▸ h.nodup, fun a => ?_, fun entry hentry htrue => ?_,
    forAllXprefsReversed_delivers h.delivers _ _ _ _⟩
  · rw [heldAddresses_of_held hnone]
    obtain ⟨phase, hat, hiff, hreleasing⟩ := h.phases a
    by_cases ha : a ∈ heldAddresses entries
    · refine ⟨.released, HoldEntry.forAllXprefsReversed_end h.nodup hheld (absurd ha) fun _ => rfl,
        ?_, fun himpossible => nomatch himpossible⟩
      simp
    · refine ⟨phase, HoldEntry.forAllXprefsReversed_end h.nodup hheld (fun _ => hat) fun hmem =>
        absurd hmem ha, ?_, hreleasing⟩
      simpa [ha] using hiff
  · rw [hnone entry hentry] at htrue
    cases htrue

theorem forAllXprefs_once (h : Tracks running entries xp)
    (hheld : ∀ entry ∈ entries, entry.held = false) :
    Tracks running (forAllXprefs .commandOnce false false entries xp).1
      (forAllXprefs .commandOnce false false entries xp).2 := by
  have hfst : (forAllXprefs .commandOnce false false entries xp).1 = entries := by
    rw [forAllXprefs_fst]
    conv_rhs => rw [← List.map_id entries]
    refine List.map_congr_left fun entry hentry => ?_
    rw [id, ← hheld entry hentry]
  rw [hfst]
  refine ⟨h.nodup, fun a => ?_, h.refs, forAllXprefs_delivers h.delivers _ _ _ _⟩
  obtain ⟨phase, hat, hiff⟩ := h.phases a
  exact ⟨phase, HoldEntry.forAllXprefs_once hat _ _, hiff⟩

/-- The release of one entry that is held is queued, once the command does not run any more. -/
theorem release {keep : HoldEntry → Option HoldEntry} {before after : List HoldEntry}
    {entry : HoldEntry} {results : QueueResults} (h : Tracks running (before ++ entry :: after) xp)
    (hkeep : Keeps keep) (hrunning : ¬ running) (hheld : entry.held = true)
    (hqueued : (xp.queueCommandEnd results entry.xpRef (some entry.address)).1 = .none) :
    Tracks running (before ++ ((keep entry).toList ++ after))
      (xp.queueCommandEnd results entry.xpRef (some entry.address)).2 := by
  have haddresses : heldAddresses (before ++ ((keep entry).toList ++ after)) =
      heldAddresses (before ++ after) := by
    rw [heldAddresses_append, hkeep.heldAddresses, heldAddresses_append]
  have hbefore : ∀ a, a ∈ heldAddresses (before ++ entry :: after) ↔
      a = entry.address ∨ a ∈ heldAddresses (before ++ after) := by
    intro a
    rw [heldAddresses_append, heldAddresses_cons, if_pos hheld, heldAddresses_append]
    simp only [List.mem_append, List.mem_cons]
    tauto
  have hnodup := h.nodup
  rw [List.map_append, List.map_cons, List.perm_middle.nodup_iff, List.nodup_cons,
    ← List.map_append] at hnodup
  refine ⟨?_, fun a => ?_, fun e he heheld => h.refs e ?_ heheld,
    h.delivers.queueCommandEnd _ _ _⟩
  · refine h.nodup.sublist ?_
    rw [List.map_append, List.map_append, List.map_append, List.map_cons]
    exact (List.Sublist.refl _).append ((hkeep.sublist entry).append (List.Sublist.refl _))
  · rw [haddresses]
    obtain ⟨phase, hat, hiff, hreleasing⟩ := h.phases a
    rw [hbefore] at hiff
    by_cases ha : a = entry.address
    · subst ha
      rw [hiff.2 (.inl rfl)] at hat
      refine ⟨.releasing, hat.queue_self hqueued, iff_of_false (by decide) fun hmem => ?_,
        fun _ => hrunning⟩
      exact hnodup.1 (heldAddresses_subset hmem)
    · have hne : some entry.address ≠ some a := fun heq => ha (Option.some.inj heq).symm
      exact ⟨phase, hat.queue_other hne, hiff.trans (or_iff_right ha), hreleasing⟩
  · rcases List.mem_append.1 he with hfirst | hrest
    · exact List.mem_append_left _ hfirst
    · rcases List.mem_append.1 hrest with hkept | hlast
      · rw [(hkeep entry e (Option.mem_toList.1 hkept)).1] at heheld
        cases heheld
      · exact List.mem_append_right _ (List.mem_cons_of_mem _ hlast)

/-- The releases are queued once the command does not run any more. -/
theorem releaseAll {keep : HoldEntry → Option HoldEntry} (h : Tracks running entries xp)
    (hkeep : Keeps keep) (hrunning : ¬ running) (env : ReleaseEnv) :
    Tracks running (HoldEntry.releaseAll env keep entries xp).1
      (HoldEntry.releaseAll env keep entries xp).2.2 := by
  obtain ⟨hsublist, hmem⟩ := releaseAll_sublist env hkeep entries xp
  refine ⟨h.nodup.sublist hsublist, fun a => ?_, fun entry hentry hheld =>
    h.refs entry (hmem entry hentry hheld) hheld, releaseAll_delivers h.delivers entries⟩
  obtain ⟨phase, hat, hiff, -⟩ := h.phases a
  by_cases ha : a ∈ heldAddresses entries
  · rw [hiff.2 ha] at hat
    obtain ⟨phase', hat', hiff'⟩ := releaseAll_held hkeep h.nodup hat ha
    exact ⟨phase', hat', hiff', fun _ => hrunning⟩
  · have hnot : a ∉ heldAddresses (HoldEntry.releaseAll env keep entries xp).1 := by
      intro hend
      obtain ⟨entry, hentry, rfl⟩ := List.mem_map.1 hend
      obtain ⟨hentry, hheld⟩ := List.mem_filter.1 hentry
      exact ha (List.mem_map.2 ⟨entry, List.mem_filter.2 ⟨hmem entry hentry hheld, hheld⟩, rfl⟩)
    have hphase : phase ≠ .held := fun heq => ha (hiff.1 heq)
    rcases releaseAll_other hat ha with hsame | ⟨-, hreleased⟩
    · exact ⟨phase, hsame, iff_of_false hphase hnot, fun _ => hrunning⟩
    · exact ⟨.released, hreleased, iff_of_false (by decide) hnot, fun _ => hrunning⟩

end Tracks

end HoldEntry

end XprcServer
