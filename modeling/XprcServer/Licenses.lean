import XprcServer.Fileio
import XprcServer.Hashmap

/-!
# Licenses

`licenses.c` and `license_manager.c`: the licenses are a table that the build generates.  Accepting
them writes one line for each, its id and its hash; a later version of the program reads the file
and asks again for what is new to its own table or has changed.  A file that can be read is the list
of its bytes; the allocations succeed.

* `getAccepted` : the hash that is found for a license after loading is the one it had when it was
  accepted;
* `pending_of_accepted` : what is pending in the later version, and when nothing is.
-/

namespace XprcServer

/-- `xprc_license_t` -/
structure XprcLicense where
  id : List UInt8
  hash : UInt32
  deriving DecidableEq

/-- `_xprc_licenses`, as the build generates it -/
structure XprcLicenses where
  licenses : List XprcLicense
  unique : (licenses.map XprcLicense.id).Nodup
  nonempty : ∀ license ∈ licenses, license.id ≠ []
  plain : ∀ license ∈ licenses, PlainLine license.id
  tab : ∀ license ∈ licenses, 9 ∉ license.id

/-- `pending_license_t` -/
structure PendingLicense where
  licenseId : List UInt8
  previouslyAccepted : Bool
  acceptedHash : UInt32
  deriving DecidableEq

/-- `xprc_format_license_hash` -/
def xprcFormatLicenseHash (hash : UInt32) : List UInt8 := decimalInt hash.toNat

/-- `xprc_parse_license_hash` -/
def xprcParseLicenseHash (overflow : ℤ → ℤ) (s : List UInt8) : Option UInt32 :=
  parseUint32 overflow s

/-- `xprc_get_license_ids` -/
def xprcGetLicenseIds (table : XprcLicenses) : List (List UInt8) :=
  table.licenses.map XprcLicense.id

/-- `xprc_get_license` -/
def xprcGetLicense (table : XprcLicenses) (id : List UInt8) : Option XprcLicense :=
  table.licenses.find? fun item => cString id = cString item.id

/-- `LICENSE_ID_SEPARATOR` -/
def licenseIdSeparator : UInt8 := 9

/-- `create_pending_license` -/
def createPendingLicense (licenseId : List UInt8) (previouslyAcceptedHash : Option UInt32) :
    PendingLicense :=
  ⟨licenseId, previouslyAcceptedHash.isSome, previouslyAcceptedHash.getD 0⟩

/-- The part of `load_accepted_licenses` for one line -/
def loadAcceptedLicense (overflow : ℤ → ℤ) (table : XprcLicenses) (accepted : Hashmap UInt32)
    (line : List UInt8) : Hashmap UInt32 :=
  let separatorOffset := strpos line licenseIdSeparator 0
  if separatorOffset < 1 then accepted
  else
    -- the separator is overwritten, and ends the id
    let acceptedLicenseId := line.take separatorOffset.toNat
    match xprcParseLicenseHash overflow (line.drop (separatorOffset.toNat + 1)) with
    | none => accepted
    | some acceptedLicenseHash =>
      match xprcGetLicense table acceptedLicenseId with
      | none => accepted
      | some license => accepted.put license.id acceptedLicenseHash

/-- `load_accepted_licenses`; nothing is accepted if the file cannot be read. -/
def loadAcceptedLicenses (overflow : ℤ → ℤ) (table : XprcLicenses) (file : Option (List UInt8)) :
    Hashmap UInt32 :=
  match readLinesFromFile file with
  | none => Lib.Buckets.empty
  | some lines => lines.foldl (loadAcceptedLicense overflow table) Lib.Buckets.empty

/-- The loop of `compare_licenses` over the ids -/
def compareLicensesLoop (table : XprcLicenses) (accepted : Hashmap UInt32) :
    List (List UInt8) → Option (List PendingLicense)
  | [] => some []
  | licenseId :: licenseIds =>
    match xprcGetLicense table licenseId with
    | none => none
    | some license =>
      if accepted.get licenseId = some license.hash then
        compareLicensesLoop table accepted licenseIds
      else (compareLicensesLoop table accepted licenseIds).map
        (createPendingLicense license.id (accepted.get licenseId) :: ·)

/-- `compare_licenses` -/
def compareLicenses (table : XprcLicenses) (accepted : Hashmap UInt32) :
    Option (List PendingLicense) :=
  compareLicensesLoop table accepted (xprcGetLicenseIds table)

/-- `license_manager_t` -/
structure LicenseManager where
  pendingLicenses : List PendingLicense

/-- `create_license_manager`, with what the acceptance file holds -/
def createLicenseManager (overflow : ℤ → ℤ) (table : XprcLicenses) (file : Option (List UInt8)) :
    Option LicenseManager :=
  (compareLicenses table (loadAcceptedLicenses overflow table file)).map LicenseManager.mk

/-- `all_licenses_accepted` -/
def allLicensesAccepted (licenseManager : LicenseManager) : Bool :=
  licenseManager.pendingLicenses.isEmpty

/-- The line that `persist_all_licenses` writes for a license -/
def licenseLine (license : XprcLicense) : List UInt8 :=
  cString license.id ++ [licenseIdSeparator] ++ xprcFormatLicenseHash license.hash

/-- The loop of `persist_all_licenses` over the ids -/
def persistAllLicensesLoop (table : XprcLicenses) : List (List UInt8) → Option (List (List UInt8))
  | [] => some []
  | licenseId :: licenseIds =>
    match xprcGetLicense table licenseId with
    | none => none
    | some license => (persistAllLicensesLoop table licenseIds).map (licenseLine license :: ·)

/-- `persist_all_licenses`: the acceptance file afterwards; it stays as it is if a license is not
found. -/
def persistAllLicenses (lineEnd : LineEndSequence) (table : XprcLicenses)
    (file : Option (List UInt8)) : Option (List UInt8) :=
  match persistAllLicensesLoop table (xprcGetLicenseIds table) with
  | none => file
  | some lines => some (writeLinesToFile lineEnd lines)

/-- `accept_all_licenses`: the manager and the acceptance file afterwards -/
def acceptAllLicenses (lineEnd : LineEndSequence) (table : XprcLicenses)
    (licenseManager : LicenseManager) (file : Option (List UInt8)) :
    LicenseManager × Option (List UInt8) :=
  ({ licenseManager with pendingLicenses := [] }, persistAllLicenses lineEnd table file)

/-! ### The table -/

variable {table : XprcLicenses} {license : XprcLicense}

/-- A license is found under its id. -/
theorem xprcGetLicense_of_mem (h : license ∈ table.licenses) :
    xprcGetLicense table license.id = some license := by
  have hid := (table.plain license h).cString
  obtain ⟨before, behind, hsplit⟩ := List.append_of_mem h
  have hunique := table.unique
  rw [hsplit, List.map_append, List.nodup_append] at hunique
  rw [xprcGetLicense, List.find?_eq_some_iff_append]
  refine ⟨by simp, before, behind, hsplit, fun other hother => ?_⟩
  have hne : license.id ≠ other.id := by
    intro heq
    exact hunique.2.2 _ (List.mem_map_of_mem hother) _ (by simp) heq.symm
  have hother : cString other.id = other.id :=
    (table.plain other (by simp [hsplit, hother])).cString
  simpa [hid, hother] using hne

/-- Nothing else is found under it. -/
theorem mem_of_xprcGetLicense {id : List UInt8} (hid : PlainLine id)
    (h : xprcGetLicense table id = some license) : license ∈ table.licenses ∧ license.id = id := by
  have hmem := List.mem_of_find?_eq_some h
  have heq := List.find?_some h
  rw [hid.cString, (table.plain license hmem).cString] at heq
  exact ⟨hmem, (of_decide_eq_true heq).symm⟩

/-! ### Writing -/

theorem licenseLine_plain (h : license ∈ table.licenses) : PlainLine (licenseLine license) := by
  have hid := table.plain license h
  have hhash : ∀ c : UInt8, c ≠ 45 → c.toNat < 48 ∨ 57 < c.toNat →
      c ∉ xprcFormatLicenseHash license.hash := fun c h1 h2 => not_mem_decimalInt _ h1 h2
  have hline : ∀ c : UInt8, c ∉ license.id → c ≠ 9 → c ≠ 45 → c.toNat < 48 ∨ 57 < c.toNat →
      c ∉ licenseLine license := by
    intro c hc htab h1 h2 hmem
    rw [licenseLine, hid.cString, List.mem_append, List.mem_append] at hmem
    rcases hmem with (hmem | hmem) | hmem
    · exact hc hmem
    · exact htab (List.mem_singleton.1 hmem)
    · exact hhash c h1 h2 hmem
  exact ⟨hline 13 hid.cr (by decide) (by decide) (by decide),
    hline 10 hid.lf (by decide) (by decide) (by decide),
    hline 0 hid.nul (by decide) (by decide) (by decide)⟩

theorem persistAllLicensesLoop_eq {licenses : List XprcLicense}
    (h : ∀ license ∈ licenses, license ∈ table.licenses) :
    persistAllLicensesLoop table (licenses.map XprcLicense.id) =
      some (licenses.map licenseLine) := by
  induction licenses with
  | nil => rfl
  | cons license licenses ih =>
    have hrest := ih fun other hother => h other (List.mem_cons_of_mem _ hother)
    simp only [List.map_cons, persistAllLicensesLoop,
      xprcGetLicense_of_mem (h license List.mem_cons_self), hrest, Option.map_some]

theorem persistAllLicenses_eq (lineEnd : LineEndSequence) (table : XprcLicenses)
    (file : Option (List UInt8)) : persistAllLicenses lineEnd table file =
      some (writeLinesToFile lineEnd (table.licenses.map licenseLine)) := by
  rw [persistAllLicenses, xprcGetLicenseIds, persistAllLicensesLoop_eq fun _ h => h]

/-! ### Reading -/

/-- A line that was written for a license is read as its id and its hash. -/
theorem loadAcceptedLicense_licenseLine {old : XprcLicenses} (hold : license ∈ old.licenses)
    (overflow : ℤ → ℤ) (table : XprcLicenses) (accepted : Hashmap UInt32) :
    loadAcceptedLicense overflow table accepted (licenseLine license) =
      match xprcGetLicense table license.id with
      | none => accepted
      | some new => accepted.put new.id license.hash := by
  have hid := (old.plain license hold).cString
  have hlength : 0 < license.id.length := List.length_pos_iff.2 (old.nonempty license hold)
  have hline : licenseLine license =
      license.id ++ licenseIdSeparator :: xprcFormatLicenseHash license.hash := by
    rw [licenseLine, hid, List.append_assoc]
    rfl
  have hcString : cString (licenseLine license) = licenseLine license :=
    (licenseLine_plain hold).cString
  have hpos : strpos (licenseLine license) licenseIdSeparator 0 = license.id.length := by
    have hdrop : (cString (licenseLine license)).drop 0 =
        license.id ++ licenseIdSeparator :: xprcFormatLicenseHash license.hash :=
      hcString.trans hline
    simpa using strpos_eq hdrop (old.tab license hold)
  have hhash : xprcParseLicenseHash overflow (xprcFormatLicenseHash license.hash) =
      some license.hash := parseUint32_decimalInt overflow license.hash
  rw [loadAcceptedLicense, hpos, if_neg (by omega), Int.toNat_natCast, hline, List.take_left]
  rw [show List.drop (license.id.length + 1)
      (license.id ++ licenseIdSeparator :: xprcFormatLicenseHash license.hash) =
        xprcFormatLicenseHash license.hash by simp, hhash]

theorem get_foldl_loadAcceptedLicense {old : XprcLicenses} (hnew : license ∈ table.licenses)
    (overflow : ℤ → ℤ) {licenses : List XprcLicense} (hold : ∀ l ∈ licenses, l ∈ old.licenses)
    (hunique : (licenses.map XprcLicense.id).Nodup) (accepted : Hashmap UInt32) :
    ((licenses.map licenseLine).foldl (loadAcceptedLicense overflow table) accepted).get
      license.id =
      match licenses.find? fun l => l.id = license.id with
      | none => accepted.get license.id
      | some l => some l.hash := by
  induction licenses generalizing accepted with
  | nil => rfl
  | cons l licenses ih =>
    rw [List.map_cons, List.nodup_cons] at hunique
    have hl := hold l List.mem_cons_self
    have hplain := (old.plain l hl)
    rw [List.map_cons, List.foldl_cons, loadAcceptedLicense_licenseLine hl,
      ih (fun other hother => hold other (List.mem_cons_of_mem _ hother)) hunique.2]
    by_cases hid : l.id = license.id
    · -- no later line is about the same license
      have hnone : (licenses.find? fun other => other.id = license.id) = none := by
        rw [List.find?_eq_none]
        intro other hother heq
        refine hunique.1 (List.mem_map.2 ⟨other, hother, ?_⟩)
        rw [hid]
        exact of_decide_eq_true heq
      rw [hnone, List.find?_cons_of_pos (by simp [hid]), hid, xprcGetLicense_of_mem hnew]
      exact Hashmap.get_put_self accepted license.id l.hash
    · rw [List.find?_cons_of_neg (by simp [hid])]
      split
      · cases hfound : xprcGetLicense table l.id with
        | none => rfl
        | some new =>
          obtain ⟨-, hnewId⟩ := mem_of_xprcGetLicense hplain hfound
          refine Hashmap.get_put_of_ne accepted ?_ l.hash
          rw [hnewId, hplain.cString, (table.plain license hnew).cString]
          exact Ne.symm hid
      · rfl

/-- The hash that a license had when all licenses were accepted, if it was there -/
def acceptedHash (old : XprcLicenses) (id : List UInt8) : Option UInt32 :=
  (old.licenses.find? fun license => license.id = id).map XprcLicense.hash

variable {old : XprcLicenses}

theorem acceptedHash_of_mem (h : license ∈ old.licenses) :
    acceptedHash old license.id = some license.hash := by
  cases hfound : old.licenses.find? fun l => l.id = license.id with
  | none => exact absurd (decide_eq_true rfl) (List.find?_eq_none.1 hfound license h)
  | some l =>
    have hid : l.id = license.id := by simpa using List.find?_some hfound
    have hl := xprcGetLicense_of_mem (List.mem_of_find?_eq_some hfound)
    rw [hid, xprcGetLicense_of_mem h] at hl
    rw [acceptedHash, hfound, Option.some.inj hl]
    rfl

theorem acceptedHash_eq_none_iff {id : List UInt8} :
    acceptedHash old id = none ↔ ∀ license ∈ old.licenses, license.id ≠ id := by
  simp [acceptedHash]

theorem exists_of_acceptedHash {id : List UInt8} {hash : UInt32}
    (h : acceptedHash old id = some hash) : ∃ l ∈ old.licenses, l.id = id ∧ l.hash = hash := by
  obtain ⟨l, hfound, rfl⟩ := Option.map_eq_some_iff.1 h
  exact ⟨l, List.mem_of_find?_eq_some hfound, by simpa using List.find?_some hfound, rfl⟩

/-- **After loading, the hash found for a license is the one that was accepted.** -/
theorem getAccepted (hnew : license ∈ table.licenses) (overflow : ℤ → ℤ)
    (lineEnd : LineEndSequence) (old : XprcLicenses) (file : Option (List UInt8)) :
    (loadAcceptedLicenses overflow table (persistAllLicenses lineEnd old file)).get license.id =
      acceptedHash old license.id := by
  have hplain : ∀ line ∈ old.licenses.map licenseLine, PlainLine line := by
    intro line hline
    obtain ⟨l, hl, rfl⟩ := List.mem_map.1 hline
    exact licenseLine_plain hl
  rw [persistAllLicenses_eq, loadAcceptedLicenses,
    readLinesFromFile_writeLinesToFile lineEnd hplain]
  dsimp only
  split_ifs with hnone
  · -- the file of no license is one empty line, which is skipped
    have hempty : old.licenses = [] := List.map_eq_nil_iff.1 hnone
    rw [acceptedHash, hempty]
    rfl
  · rw [get_foldl_loadAcceptedLicense hnew overflow (fun _ h => h) old.unique, acceptedHash]
    cases old.licenses.find? fun l => l.id = license.id <;> rfl

/-! ### What is pending -/

/-- What `compare_licenses` finds for a license -/
def pendingLicense (accepted : Option UInt32) (license : XprcLicense) : Option PendingLicense :=
  if accepted = some license.hash then none else some (createPendingLicense license.id accepted)

theorem compareLicensesLoop_eq (accepted : Hashmap UInt32) {licenses : List XprcLicense}
    (h : ∀ license ∈ licenses, license ∈ table.licenses) :
    compareLicensesLoop table accepted (licenses.map XprcLicense.id) =
      some (licenses.filterMap fun license => pendingLicense
        (accepted.get license.id) license) := by
  induction licenses with
  | nil => rfl
  | cons license licenses ih =>
    have hrest := ih fun other hother => h other (List.mem_cons_of_mem _ hother)
    simp only [List.map_cons, compareLicensesLoop,
      xprcGetLicense_of_mem (h license List.mem_cons_self), hrest, Option.map_some]
    by_cases haccepted : accepted.get license.id = some license.hash
    · rw [if_pos haccepted, List.filterMap_cons_none (by rw [pendingLicense, if_pos haccepted])]
    · rw [if_neg haccepted, List.filterMap_cons_some (by rw [pendingLicense, if_neg haccepted])]

/-- A license is pending if it is new, or if its hash has changed. -/
theorem pendingLicense_eq_some_iff {pending : PendingLicense} :
    pendingLicense (acceptedHash old license.id) license = some pending ↔
      pending.licenseId = license.id ∧
      ((∀ l ∈ old.licenses, l.id ≠ license.id) ∧ pending.previouslyAccepted = false ∧
          pending.acceptedHash = 0 ∨
        ∃ l ∈ old.licenses, l.id = license.id ∧ l.hash ≠ license.hash ∧
          pending.previouslyAccepted = true ∧ pending.acceptedHash = l.hash) := by
  obtain ⟨licenseId, previouslyAccepted, hash⟩ := pending
  cases haccepted : acceptedHash old license.id with
  | none =>
    have hnew := acceptedHash_eq_none_iff.1 haccepted
    constructor
    · intro h
      cases h
      exact ⟨rfl, .inl ⟨hnew, rfl, rfl⟩⟩
    · rintro ⟨rfl, ⟨-, rfl, rfl⟩ | ⟨l, hl, hid, -⟩⟩
      · rfl
      · exact absurd hid (hnew l hl)
  | some oldHash =>
    obtain ⟨l, hl, hid, rfl⟩ := exists_of_acceptedHash haccepted
    constructor
    · intro h
      rw [pendingLicense] at h
      split_ifs at h with hsame
      cases h
      exact ⟨rfl, .inr ⟨l, hl, hid, fun heq => hsame (congrArg some heq), rfl, rfl⟩⟩
    · rintro ⟨rfl, ⟨hnew, -⟩ | ⟨l', hl', hid', hne, rfl, rfl⟩⟩
      · exact absurd hid (hnew l hl)
      · have hhash : l'.hash = l.hash := by
          have h := acceptedHash_of_mem hl'
          rw [hid', haccepted] at h
          exact (Option.some.inj h).symm
        rw [hhash] at hne ⊢
        rw [pendingLicense, if_neg fun h => hne (Option.some.inj h)]
        rfl

theorem pendingLicense_eq_none_iff :
    pendingLicense (acceptedHash old license.id) license = none ↔
      ∃ l ∈ old.licenses, l.id = license.id ∧ l.hash = license.hash := by
  rw [pendingLicense]
  constructor
  · intro h
    split_ifs at h with hsame
    exact exists_of_acceptedHash hsame
  · rintro ⟨l, hl, hid, hhash⟩
    rw [← hid, acceptedHash_of_mem hl, if_pos (congrArg some hhash)]

theorem pendingLicense_sublist (old : XprcLicenses) (licenses : List XprcLicense) :
    ((licenses.filterMap fun license => pendingLicense (acceptedHash old license.id) license).map
      PendingLicense.licenseId).Sublist (licenses.map XprcLicense.id) := by
  induction licenses with
  | nil => exact .slnil
  | cons license licenses ih =>
    cases hpending : pendingLicense (acceptedHash old license.id) license with
    | none =>
      simp only [List.filterMap_cons, hpending, List.map_cons]
      exact ih.cons license.id
    | some pending =>
      have hid := (pendingLicense_eq_some_iff.1 hpending).1
      simp only [List.filterMap_cons, hpending, List.map_cons, hid]
      exact ih.cons_cons license.id

/-- **Pending in the later version** are, in the order of its table and each once, the licenses that
were not in the earlier one or had another hash there, which is remembered.  Both managers find the
memory they ask for. -/
theorem pending_of_accepted (overflow : ℤ → ℤ) (lineEnd : LineEndSequence) (old new : XprcLicenses)
    (licenseManager : LicenseManager) (file : Option (List UInt8)) :
    ∃ later, createLicenseManager overflow new
      (acceptAllLicenses lineEnd old licenseManager file).2 =
        some later ∧
      (later.pendingLicenses.map PendingLicense.licenseId).Sublist (xprcGetLicenseIds new) ∧
      (later.pendingLicenses.map PendingLicense.licenseId).Nodup ∧
      (∀ pending, pending ∈ later.pendingLicenses ↔ ∃ license ∈ new.licenses,
        pending.licenseId = license.id ∧
        ((∀ l ∈ old.licenses, l.id ≠ license.id) ∧ pending.previouslyAccepted = false ∧
            pending.acceptedHash = 0 ∨
          ∃ l ∈ old.licenses, l.id = license.id ∧ l.hash ≠ license.hash ∧
            pending.previouslyAccepted = true ∧ pending.acceptedHash = l.hash)) ∧
      (allLicensesAccepted later = true ↔
        ∀ license ∈ new.licenses, ∃ l ∈ old.licenses, l.id = license.id ∧
          l.hash = license.hash) := by
  refine ⟨⟨new.licenses.filterMap fun license =>
    pendingLicense (acceptedHash old license.id) license⟩, ?_, ?_⟩
  · show Option.map LicenseManager.mk (compareLicenses new _) = _
    rw [compareLicenses, xprcGetLicenseIds, compareLicensesLoop_eq _ fun _ h => h, Option.map_some]
    refine congrArg (fun pending => some (LicenseManager.mk pending)) ?_
    refine List.filterMap_congr fun license hlicense => ?_
    exact congrArg (pendingLicense · license) (getAccepted hlicense overflow lineEnd old file)
  have hsublist := pendingLicense_sublist old new.licenses
  refine ⟨hsublist, hsublist.nodup new.unique, fun pending => ?_, ?_⟩
  · rw [List.mem_filterMap]
    simp only [pendingLicense_eq_some_iff]
  · rw [allLicensesAccepted, List.isEmpty_iff, List.filterMap_eq_nil_iff]
    simp only [pendingLicense_eq_none_iff]

/-- One license -/
def XprcLicenses.earlier : XprcLicenses where
  licenses := [⟨bytes "xprc", 1⟩]
  unique := by decide
  nonempty := by decide
  plain := by decide
  tab := by decide

/-- The same license with another text, and a new one -/
def XprcLicenses.later : XprcLicenses where
  licenses := [⟨bytes "xprc", 2⟩, ⟨bytes "sdk", 3⟩]
  unique := by decide
  nonempty := by decide
  plain := by decide
  tab := by decide

theorem pending_of_accepted_later :
    ∃ later, createLicenseManager id .later
        (acceptAllLicenses .lf .earlier ⟨[⟨bytes "xprc", false, 0⟩]⟩ none).2 = some later ∧
      ⟨bytes "xprc", true, 1⟩ ∈ later.pendingLicenses ∧
      ⟨bytes "sdk", false, 0⟩ ∈ later.pendingLicenses ∧ allLicensesAccepted later = false := by
  obtain ⟨later, hlater, -, -, hpending, haccepted⟩ :=
    pending_of_accepted id .lf .earlier .later ⟨[⟨bytes "xprc", false, 0⟩]⟩ none
  refine ⟨later, hlater, (hpending _).2 ?_, (hpending _).2 ?_, ?_⟩
  · exact ⟨⟨bytes "xprc", 2⟩, by decide, rfl, .inr ⟨⟨bytes "xprc", 1⟩, by decide⟩⟩
  · exact ⟨⟨bytes "sdk", 3⟩, by decide, rfl, .inl (by decide)⟩
  · rw [Bool.eq_false_iff, ne_eq, haccepted]
    decide

end XprcServer
