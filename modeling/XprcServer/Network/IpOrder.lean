import Mathlib.Data.List.Lex
import Mathlib.Data.Prod.Lex
import XprcServer.Lib.Comparators
import XprcServer.Network.Ipv4

/-!
# The order of IP addresses

`cmp_ip_address` orders texts of any kind: what is no address in front of the IPv4 addresses, and
these in front of the IPv6 addresses.  `settings_window.c` sorts by it.

The order is that of a key (`ipKey`): the kind comes first, then the numbers of the address or of
the characters (`IpView.cmp`).
-/

namespace XprcServer

open Lib

/-- `is_ip_address` -/
def isIpAddress (lib : Library) (address : Option (List UInt8)) : Bool :=
  isIpv4Address lib address || isIpv6Address address

/-- `cmp_ip_address` -/
def cmpIpAddress (lib : Library) (a b : Option (List UInt8)) : ℤ :=
  let a4 := isIpv4Address lib a
  let b4 := isIpv4Address lib b
  let a6 := isIpv6Address a
  let b6 := isIpv6Address b
  if a4 ∧ b4 then cmpIpv4Address lib a b
  else if a6 ∧ b6 then cmpIpv6Address a b
  else if a4 ∧ b6 then -1
  else if b4 ∧ a6 then 1
  else if (a4 || a6) ∧ ¬ (b4 || b6) then 1
  else if ¬ (a4 || a6) ∧ (b4 || b6) then -1
  else
    -- neither is an address
    match a, b with
    | none, none => 0
    | none, some _ => -1
    | some _, none => 1
    | some a, some b => strcmp a b

/-! ### Kinds of texts -/

theorem IsQuad.mem {s : List UInt8} {octets : List (List UInt8)} (h : IsQuad s octets) :
    octetSeparator ∈ s := by
  obtain ⟨hlength, -, rfl⟩ := h
  match octets, hlength with
  | first :: next :: octets, _ =>
    rw [List.intercalate_cons_cons, List.append_assoc]
    exact List.mem_append_right _ List.mem_cons_self

/-- There are no dots in the groups and between them. -/
theorem Ipv6Notation.Fits.not_mem {n : Ipv6Notation} (h : n.Fits) : octetSeparator ∉ n.text := by
  have hgroups : ∀ g ∈ n.groups, ∀ ch ∈ g, ch ≠ octetSeparator := by
    rintro g hg ch hch rfl
    exact absurd ((h.1 g hg).2 _ hch) (by decide)
  have hsep : groupSeparator ≠ octetSeparator := by decide
  rw [groups, List.forall_mem_append] at hgroups
  have hfront :=
    (forall_mem_intercalate (P := fun ch => ch ≠ octetSeparator) hsep n.front).2 hgroups.1
  intro hmem
  rw [text] at hmem
  cases hr : n.rear with
  | none =>
    rw [hr] at hmem
    exact hfront _ hmem rfl
  | some rear =>
    rw [hr] at hmem hgroups
    have hrear :=
      (forall_mem_intercalate (P := fun ch => ch ≠ octetSeparator) hsep rear).2 hgroups.2
    rcases List.mem_append.1 hmem with hmem | hmem
    · exact hfront _ hmem rfl
    · rcases List.mem_cons.1 hmem with heq | hmem
      · exact hsep heq.symm
      · rcases List.mem_cons.1 hmem with heq | hmem
        · exact hsep heq.symm
        · exact hrear _ hmem rfl

/-- No text is an address in both notations. -/
theorem not_ipv4_and_ipv6 (lib : Library) {s : List UInt8} (h : 0 ∉ s) :
    ¬ (isIpv4Address lib (some s) = true ∧ isIpv6Address (some s) = true) := by
  rintro ⟨h4, h6⟩
  obtain ⟨octets, hquad⟩ := (isIpv4Address_iff lib h).1 h4
  have hnot := (accepted_fits h h6).1.not_mem
  rw [Ipv6Notation.text_ofText] at hnot
  exact hnot hquad.mem

/-- What a text is, and the key by which it is compared. -/
inductive IpView (lib : Library) : Option (List UInt8) → ℕ ×ₗ List ℕ → Prop
  | null : IpView lib none (toLex (0, []))
  | text {s : List UInt8} (h : 0 ∉ s) (h4 : parseIpv4Address lib (some s) = none)
      (h6 : parseIpv6Address (some s) = none) : IpView lib (some s) (toLex (1, s.map UInt8.toNat))
  | ipv4 {s octets : List UInt8} (h : octets.length = 4)
      (h4 : parseIpv4Address lib (some s) = some octets) (h6 : parseIpv6Address (some s) = none) :
      IpView lib (some s) (toLex (2, octets.map UInt8.toNat))
  | ipv6 {s : List UInt8} {groups : List UInt16} (h : groups.length = 8)
      (h4 : parseIpv4Address lib (some s) = none) (h6 : parseIpv6Address (some s) = some groups) :
      IpView lib (some s) (toLex (3, groups.map UInt16.toNat))

/-- The texts, and the missing one. -/
def terminated : Set (Option (List UInt8)) := {a | ∀ s ∈ a, 0 ∉ s}

/-- The key by which a text is compared: its kind, and its numbers. -/
def ipKey (lib : Library) (a : Option (List UInt8)) : ℕ ×ₗ List ℕ :=
  match parseIpv4Address lib a, parseIpv6Address a, a with
  | some octets, _, _ => toLex (2, octets.map UInt8.toNat)
  | none, some groups, _ => toLex (3, groups.map UInt16.toNat)
  | none, none, some s => toLex (1, s.map UInt8.toNat)
  | none, none, none => toLex (0, [])

/-- **Every text is of one kind.** -/
theorem ipView_ipKey (lib : Library) {a : Option (List UInt8)} (h : a ∈ terminated) :
    IpView lib a (ipKey lib a) := by
  cases a with
  | none => exact .null
  | some s =>
    have hs : 0 ∉ s := h s rfl
    unfold ipKey
    cases h4 : parseIpv4Address lib (some s) with
    | none =>
      cases h6 : parseIpv6Address (some s) with
      | none => exact .text hs h4 h6
      | some groups =>
        have haccepted : isIpv6Address (some s) = true := by rw [isIpv6Address, h6]; rfl
        obtain ⟨hfits, hparse⟩ := accepted_fits hs haccepted
        rw [h6, Option.some.injEq] at hparse
        exact .ipv6 (by rw [hparse, Ipv6Notation.length_fill hfits]) h4 h6
    | some octets =>
      have haccepted : isIpv4Address lib (some s) = true := by rw [isIpv4Address, h4]; rfl
      have h6 : parseIpv6Address (some s) = none := by
        by_contra hsome
        exact not_ipv4_and_ipv6 lib hs ⟨haccepted, Option.isSome_iff_ne_none.2 hsome⟩
      obtain ⟨pieces, hquad⟩ := (isIpv4Address_iff lib hs).1 haccepted
      have hparse := hquad.parse lib hs
      rw [h4, Option.some.injEq] at hparse
      exact .ipv4 (by rw [hparse, List.length_map, hquad.1]) h4 h6

/-! ### The comparison -/

theorem strcmp_swap (s t : List UInt8) : strcmp t s = -strcmp s t := by
  induction s generalizing t with
  | nil => cases t <;> simp [strcmp]
  | cons a s ih =>
    cases t with
    | nil => simp [strcmp]
    | cons b t =>
      rw [strcmp, strcmp, ih]
      by_cases h : a = b
      · rw [if_pos h, if_pos h.symm]
      · rw [if_neg h, if_neg (Ne.symm h)]
        omega

theorem strcmp_neg_iff {s t : List UInt8} (hs : 0 ∉ s) (ht : 0 ∉ t) :
    strcmp s t < 0 ↔ s.map UInt8.toNat < t.map UInt8.toNat := by
  induction s generalizing t with
  | nil =>
    cases t with
    | nil => simp [strcmp]
    | cons b t =>
      have hb : b.toNat ≠ 0 := by
        intro hb
        obtain rfl : b = 0 := UInt8.toNat_inj.1 hb
        exact ht List.mem_cons_self
      simp only [strcmp, List.map_nil, List.map_cons, List.nil_lt_cons, iff_true]
      omega
  | cons a s ih =>
    cases t with
    | nil => simp [strcmp]
    | cons b t =>
      have hrest := ih (fun h => hs (List.mem_cons_of_mem _ h)) fun h =>
          ht (List.mem_cons_of_mem _ h)
      have hinj := UInt8.toNat_inj (a := a) (b := b)
      rw [strcmp, List.map_cons, List.map_cons, List.cons_lt_cons_iff, ← hrest]
      by_cases hab : a = b
      · have hnat := hinj.2 hab
        rw [if_pos hab]
        omega
      · have hnat := mt hinj.1 hab
        rw [if_neg hab]
        omega

theorem strcmp_eq_zero_iff {s t : List UInt8} (hs : 0 ∉ s) (ht : 0 ∉ t) :
    strcmp s t = 0 ↔ s.map UInt8.toNat = t.map UInt8.toNat := by
  have h1 := strcmp_neg_iff hs ht
  have h2 := strcmp_neg_iff ht hs
  rw [strcmp_swap] at h2
  constructor
  · intro h
    exact le_antisymm (not_lt.1 (mt h2.2 (by omega))) (not_lt.1 (mt h1.2 (by omega)))
  · intro h
    rw [h] at h1 h2
    have hpos := mt h1.1 (lt_irrefl _)
    have hneg := mt h2.1 (lt_irrefl _)
    omega

/-- Numbers are compared by their place: the first that differ decide. -/
theorem cmpSegments_key {a b : List UInt16} (h : a.length = b.length) :
    (cmpSegments a b < 0 ↔ a.map UInt16.toNat < b.map UInt16.toNat) ∧
      (cmpSegments a b = 0 ↔ a.map UInt16.toNat = b.map UInt16.toNat) := by
  refine ⟨cmpSegments_neg_iff h, ?_⟩
  rw [cmpSegments_eq_zero_iff h]
  exact (List.map_injective_iff.2 fun _ _ => UInt16.toNat_inj.1).eq_iff.symm

theorem cmpIpv4Address_key {lib : Library} {a b : Option (List UInt8)}
    {octetsA octetsB : List UInt8}
    (ha : parseIpv4Address lib a = some octetsA) (hb : parseIpv4Address lib b = some octetsB)
    (h : octetsA.length = octetsB.length) :
    (cmpIpv4Address lib a b < 0 ↔ octetsA.map UInt8.toNat < octetsB.map UInt8.toNat) ∧
      (cmpIpv4Address lib a b = 0 ↔ octetsA.map UInt8.toNat = octetsB.map UInt8.toNat) := by
  have hnat : ∀ octets : List UInt8,
      (octets.map UInt8.toUInt16).map UInt16.toNat = octets.map UInt8.toNat := by
    intro octets
    rw [List.map_map]
    exact List.map_congr_left fun ch _ => UInt8.toNat_toUInt16 ch
  have hkey := cmpSegments_key (a := octetsA.map UInt8.toUInt16) (b := octetsB.map UInt8.toUInt16)
    (by rw [List.length_map, List.length_map, h])
  rw [hnat, hnat] at hkey
  rw [cmpIpv4Address, ha, hb]
  exact hkey

theorem cmpIpv6Address_key {a b : Option (List UInt8)} {groupsA groupsB : List UInt16}
    (ha : parseIpv6Address a = some groupsA) (hb : parseIpv6Address b = some groupsB)
    (h : groupsA.length = groupsB.length) :
    (cmpIpv6Address a b < 0 ↔ groupsA.map UInt16.toNat < groupsB.map UInt16.toNat) ∧
      (cmpIpv6Address a b = 0 ↔ groupsA.map UInt16.toNat = groupsB.map UInt16.toNat) := by
  rw [cmpIpv6Address, ha, hb]
  exact cmpSegments_key h

/-- **The comparison is that of the keys**: first of the kinds, then within the kind. -/
theorem IpView.cmp {lib : Library} {a b : Option (List UInt8)} {keyA keyB : ℕ ×ₗ List ℕ}
    (ha : IpView lib a keyA) (hb : IpView lib b keyB) :
    (cmpIpAddress lib a b < 0 ↔ keyA < keyB) ∧ (cmpIpAddress lib a b = 0 ↔ keyA = keyB) := by
  have n4 : parseIpv4Address lib none = none := rfl
  have n6 : parseIpv6Address none = none := rfl
  unfold cmpIpAddress isIpv4Address isIpv6Address
  cases ha with
  | null => cases hb <;> simp [*, Prod.Lex.toLex_lt_toLex]
  | text h h4 h6 =>
    cases hb with
    | text k k4 k6 =>
      simp [h4, h6, k4, k6, Prod.Lex.toLex_lt_toLex, strcmp_neg_iff h k, strcmp_eq_zero_iff h k]
    | _ => simp [*, Prod.Lex.toLex_lt_toLex]
  | ipv4 h h4 h6 =>
    cases hb with
    | ipv4 k k4 k6 =>
      have hkey := cmpIpv4Address_key h4 k4 (h.trans k.symm)
      simp [h4, k4, Prod.Lex.toLex_lt_toLex, hkey]
    | _ => simp [*, Prod.Lex.toLex_lt_toLex]
  | ipv6 h h4 h6 =>
    cases hb with
    | ipv6 k k4 k6 =>
      have hkey := cmpIpv6Address_key h6 k6 (h.trans k.symm)
      simp [h4, k4, h6, k6, Prod.Lex.toLex_lt_toLex, hkey]
    | _ => simp [*, Prod.Lex.toLex_lt_toLex]

theorem cmpIpAddress_lt_iff (lib : Library) {a b : Option (List UInt8)} (ha : a ∈ terminated)
    (hb : b ∈ terminated) : cmpIpAddress lib a b < 0 ↔ ipKey lib a < ipKey lib b :=
  ((ipView_ipKey lib ha).cmp (ipView_ipKey lib hb)).1

/-- **Texts are in a total preorder**, in which the missing text precedes those that are no address,
these precede the IPv4 addresses, and these the IPv6 addresses.  No text is an address of both
kinds. -/
theorem cmpIpAddress_totalPreorder (lib : Library) :
    TotalPreorderOn terminated (cmpIpAddress lib) ∧
    (∀ text v4 v6 : List UInt8, 0 ∉ text → 0 ∉ v4 → 0 ∉ v6 → isIpAddress lib (some text) = false →
      isIpv4Address lib (some v4) = true → isIpv6Address (some v6) = true →
      cmpIpAddress lib none (some text) < 0 ∧ cmpIpAddress lib (some text) (some v4) < 0 ∧
        cmpIpAddress lib (some v4) (some v6) < 0) ∧
    ∀ s : List UInt8, 0 ∉ s →
      ¬ (isIpv4Address lib (some s) = true ∧ isIpv6Address (some s) = true) := by
  refine ⟨TotalPreorderOn.of_key (ipKey lib) (fun a ha b hb => cmpIpAddress_lt_iff lib ha hb)
    fun a ha b hb => ((ipView_ipKey lib ha).cmp (ipView_ipKey lib hb)).2, ?_,
    fun s => not_ipv4_and_ipv6 lib⟩
  intro text v4 v6 htext hv4 hv6 hnone h4 h6
  have hterminated : ∀ {s : List UInt8}, 0 ∉ s → some s ∈ terminated := by
    rintro s hs t ht
    rwa [← Option.some.inj ht]
  have hnull : (none : Option (List UInt8)) ∈ terminated := by
    rintro t ht
    cases ht
  rw [isIpAddress, Bool.or_eq_false_iff] at hnone
  have h46 : isIpv4Address lib (some v6) = false := by
    rw [← Bool.not_eq_true]
    exact fun hboth => not_ipv4_and_ipv6 lib hv6 ⟨hboth, h6⟩
  simp only [isIpv4Address, isIpv6Address, Option.isSome_eq_false_iff, Option.isNone_iff_eq_none]
    at hnone h46
  obtain ⟨octets, hoctets⟩ := Option.isSome_iff_exists.1 h4
  obtain ⟨groups, hgroups⟩ := Option.isSome_iff_exists.1 h6
  have keyNone : ipKey lib none = toLex (0, []) := rfl
  have keyText : ipKey lib (some text) = toLex (1, text.map UInt8.toNat) := by
    simp only [ipKey, hnone.1, hnone.2]
  have key4 : ipKey lib (some v4) = toLex (2, octets.map UInt8.toNat) := by
    simp only [ipKey, hoctets]
  have key6 : ipKey lib (some v6) = toLex (3, groups.map UInt16.toNat) := by
    simp only [ipKey, h46, hgroups]
  refine ⟨?_, ?_, ?_⟩
  · rw [cmpIpAddress_lt_iff lib hnull (hterminated htext), keyNone, keyText]
    exact Prod.Lex.toLex_lt_toLex.2 (.inl (Nat.lt_succ_self _))
  · rw [cmpIpAddress_lt_iff lib (hterminated htext) (hterminated hv4), keyText, key4]
    exact Prod.Lex.toLex_lt_toLex.2 (.inl (Nat.lt_succ_self _))
  · rw [cmpIpAddress_lt_iff lib (hterminated hv4) (hterminated hv6), key4, key6]
    exact Prod.Lex.toLex_lt_toLex.2 (.inl (Nat.lt_succ_self _))

theorem cmpIpAddress_totalPreorder_some :
    cmpIpAddress .calm none (some (bytes "localhost")) < 0 ∧
      cmpIpAddress .calm (some (bytes "localhost")) (some (bytes "127.0.0.1")) < 0 ∧
      cmpIpAddress .calm (some (bytes "127.0.0.1")) (some (bytes "::1")) < 0 :=
  (cmpIpAddress_totalPreorder .calm).2.1 _ _ _ (by decide) (by decide) (by decide)
    (by decide +kernel) (by decide +kernel) (by decide +kernel)

end XprcServer
