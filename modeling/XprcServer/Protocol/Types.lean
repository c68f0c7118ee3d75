import XprcServer.Commands.Drqv
import XprcServer.Decimal

/-!
# Types in the protocol

`protocol.c`: a type is written by its name, several types by their names with commas between.
`xprc_parse_types` is given the number of characters to read, but looks for the next comma in the
whole string.

* `parseTypesLoop_eq` : what is read from the items of the text, and from what follows them;
* `parseTypes_list_iff` : a text that ends where the string does is read as the list it is unless it
  is a list and one comma more, which is accepted as well;
* `typesIndependent_iff` : for which texts nothing that follows them matters.
-/

namespace XprcServer

/-- `XPRC_TYPE_SEPARATOR`, `,` -/
def typeSeparator : UInt8 := 44

/-- `!strncmp(a, b, count)` -/
def strnEq (a b : List UInt8) (count : ℕ) : Bool := (cString a).take count == (cString b).take count

/-- `xprc_parse_type` -/
def parseType (s : List UInt8) (count : ℤ) : BitVec 32 :=
  if count = 3 ∧ strnEq (bytes "int") s count.toNat then xplmTypeInt
  else if count = 5 ∧ strnEq (bytes "float") s count.toNat then xplmTypeFloat
  else if count = 6 ∧ strnEq (bytes "double") s count.toNat then xplmTypeDouble
  else if count = 5 ∧ strnEq (bytes "int[]") s count.toNat then xplmTypeIntArray
  else if count = 7 ∧ strnEq (bytes "float[]") s count.toNat then xplmTypeFloatArray
  else if count = 4 ∧ strnEq (bytes "blob") s count.toNat then xplmTypeData
  else xplmTypeUnknown

/-- The loop of `xprc_parse_types`.  Every pass but the last one skips a separator, so that `count`
passes are enough. -/
def parseTypesLoop : ℕ → List UInt8 → ℤ → BitVec 32 → BitVec 32
  | 0, _, _, types => types
  | fuel + 1, s, count, types =>
    if 0 < count then
      let offsetSeparator := (cString s).idxOf? typeSeparator -- `strstr`
      let typeLength := match offsetSeparator with
        | some offset => (offset : ℤ)
        | none => count
      let type := parseType s typeLength
      if type = xplmTypeUnknown then xplmTypeUnknown
      else if types &&& type ≠ 0 then xplmTypeUnknown
      else if offsetSeparator = none then types ||| type
      else parseTypesLoop fuel (s.drop (typeLength + 1).toNat) (count - (typeLength + 1))
        (types ||| type)
    else types

/-- `xprc_parse_types` of a string -/
def parseTypes (s : List UInt8) (count : ℤ) : BitVec 32 :=
  parseTypesLoop count.toNat s count xplmTypeUnknown

/-! ### Names of types -/

/-- The names of the types. -/
def typeNames : List (List UInt8) :=
  [bytes "int", bytes "float", bytes "double", bytes "int[]", bytes "float[]", bytes "blob"]

theorem strnEq_append {a text rest : List UInt8} (h : 0 ∉ text) (ha : cString a = a)
    (hlen : a.length = text.length) : strnEq a (text ++ rest) text.length = decide (text = a) := by
  have htext : (cString (text ++ rest)).take text.length = text := by
    have hall := forall_ne_of_not_mem h
    rw [cString, List.takeWhile_append_of_pos hall]
    exact List.take_left' rfl
  rw [strnEq, htext, ha, ← hlen, List.take_length]
  by_cases heq : text = a
  · simp [heq]
  · simp [heq, Ne.symm heq]

/-- A type is read by its name, whatever follows. -/
theorem parseType_append {text : List UInt8} (h : 0 ∉ text) (rest : List UInt8) :
    parseType (text ++ rest) text.length = xprcParseType text := by
  have hname : ∀ (name : List UInt8) (k : ℤ), cString name = name → (name.length : ℤ) = k →
      (((text.length : ℤ) = k ∧ strnEq name (text ++ rest) text.length) ↔ text = name) := by
    rintro name k hself rfl
    constructor
    · rintro ⟨hlen, heq⟩
      rw [strnEq_append h hself (by omega)] at heq
      exact of_decide_eq_true heq
    · rintro rfl
      exact ⟨rfl, by rw [strnEq_append h hself rfl]; simp⟩
  simp only [parseType, Int.toNat_natCast, xprcParseType]
  simp only [hname (bytes "int") 3 (by decide) rfl, hname (bytes "float") 5 (by decide) rfl,
    hname (bytes "double") 6 (by decide) rfl, hname (bytes "int[]") 5 (by decide) rfl,
    hname (bytes "float[]") 7 (by decide) rfl, hname (bytes "blob") 4 (by decide) rfl]

theorem xprcParseType_eq_unknown {name : List UInt8} (h : name ∉ typeNames) :
    xprcParseType name = xplmTypeUnknown := by
  simp only [typeNames, List.mem_cons, List.not_mem_nil, or_false, not_or] at h
  simp only [xprcParseType, h, if_false]

theorem xprcParseType_ne_unknown : ∀ name ∈ typeNames, xprcParseType name ≠ xplmTypeUnknown := by
  decide

/-- Different names are different bits. -/
theorem xprcParseType_and : ∀ a ∈ typeNames, ∀ b ∈ typeNames,
    (xprcParseType a &&& xprcParseType b = 0 ↔ a ≠ b) := by
  decide

/-- Names have neither a separator nor a NUL in them, nor the character `!`. -/
theorem typeNames_free : ∀ name ∈ typeNames, typeSeparator ∉ name ∧ 0 ∉ name ∧ 33 ∉ name := by
  decide

theorem nil_not_mem_typeNames : [] ∉ typeNames := by decide

/-! ### Lists of types -/

/-- One more type is added to those read so far. -/
def addType (types : BitVec 32) (item : List UInt8) : BitVec 32 :=
  if xprcParseType item = xplmTypeUnknown then xplmTypeUnknown
  else if types &&& xprcParseType item ≠ 0 then xplmTypeUnknown
  else types ||| xprcParseType item

/-- What is read of the text behind the last item: all of it up to the next separator, and nothing
if there is none. -/
def readBehind (separator : UInt8) (rest : List UInt8) : List UInt8 :=
  if separator ∈ rest then rest.takeWhile (· ≠ separator) else []

/-- What is read from the items of a text. -/
def readTypes (rest : List UInt8) : BitVec 32 → List (List UInt8) → BitVec 32
  | types, [] => types
  | types, [item] => if item = [] then types else
      addType types (item ++ readBehind typeSeparator rest)
  | types, item :: next :: items =>
    if addType types item = xplmTypeUnknown then xplmTypeUnknown
    else readTypes rest (addType types item) (next :: items)

/-- The pieces have no separator in them. -/
theorem not_mem_of_mem_splitOn {sep : UInt8} {text piece : List UInt8}
    (h : piece ∈ text.splitOn sep) : sep ∉ piece := by
  induction hn : text.length using Nat.strong_induction_on generalizing text with
  | _ n ih =>
    by_cases hsep : sep ∈ text
    · obtain ⟨item, more, rfl, hitem⟩ := List.eq_append_cons_of_mem hsep
      rw [List.splitOn_append_cons_self_of_not_mem hitem, List.mem_cons] at h
      rcases h with rfl | h
      · exact hitem
      · exact ih more.length (by rw [← hn]; simp; omega) h rfl
    · rw [List.splitOn_eq_singleton hsep, List.mem_singleton] at h
      exact h ▸ hsep

theorem idxOf?_append_cons {sep : UInt8} {item : List UInt8} (h : sep ∉ item) (text : List UInt8) :
    (item ++ sep :: text).idxOf? sep = some item.length := by
  rw [List.idxOf?_eq_some_iff]
  refine ⟨by simp, by simp, fun j hj => ?_⟩
  rw [List.getElem_append_left hj]
  intro heq
  exact h (heq ▸ List.getElem_mem hj)

theorem takeWhile_append_cons {sep : UInt8} {item : List UInt8} (h : sep ∉ item)
    (text : List UInt8) : (item ++ sep :: text).takeWhile (· ≠ sep) = item := by
  rw [List.takeWhile_append_of_pos (forall_ne_of_not_mem h)]
  simp

theorem parseTypesLoop_done {fuel : ℕ} {s : List UInt8} {count : ℤ} {types : BitVec 32}
    (h : count ≤ 0) : parseTypesLoop fuel s count types = types := by
  cases fuel with
  | zero => rfl
  | succ fuel => rw [parseTypesLoop, if_neg (by omega)]

/-- **What `xprc_parse_types` reads**, from the items of the text and what follows it. -/
theorem parseTypesLoop_eq {text rest : List UInt8} (h : 0 ∉ text ++ rest) {fuel : ℕ}
    (hfuel : text.length ≤ fuel) (types : BitVec 32) :
    parseTypesLoop fuel (text ++ rest) text.length types =
      readTypes rest types (text.splitOn typeSeparator) := by
  induction fuel generalizing text types with
  | zero =>
    obtain rfl : text = [] := List.length_eq_zero_iff.1 (by omega)
    simp [parseTypesLoop, readTypes]
  | succ fuel ih =>
    rw [parseTypesLoop, cString_eq_self h]
    by_cases hsep : typeSeparator ∈ text
    · -- an item and its separator
      obtain ⟨item, text, rfl, hitem⟩ := List.eq_append_cons_of_mem hsep
      have hitem0 : 0 ∉ item := fun h0 => h (by simp [h0])
      have hpos : (0 : ℤ) < (item ++ typeSeparator :: text).length := by simp; omega
      have hsplit := List.splitOn_append_cons_self_of_not_mem hitem text
      obtain ⟨next, items, hitems⟩ :=
        List.exists_cons_of_ne_nil (List.splitOn_ne_nil typeSeparator text)
      rw [List.append_assoc, List.cons_append] at h ⊢
      simp only [if_pos hpos, idxOf?_append_cons hitem, parseType_append hitem0]
      rw [hsplit, hitems, readTypes, addType, ← hitems]
      by_cases hknown : xprcParseType item = xplmTypeUnknown
      · simp only [if_pos hknown, if_true]
      by_cases hnew : types &&& xprcParseType item ≠ 0
      · simp only [if_neg hknown, if_pos hnew, if_true]
      have hsome : types ||| xprcParseType item ≠ xplmTypeUnknown := by
        intro hzero
        exact hknown (BitVec.or_eq_zero_iff.1 hzero).2
      have hdrop : (item ++ typeSeparator :: (text ++ rest)).drop ((item.length : ℤ) + 1).toNat =
          text ++ rest := by
        rw [show ((item.length : ℤ) + 1).toNat = item.length + 1 by omega, ← List.drop_drop,
          List.drop_left' rfl]
        rfl
      have hcount : ((item ++ typeSeparator :: text).length : ℤ) - (item.length + 1) =
          text.length := by
        rw [List.length_append, List.length_cons]
        omega
      simp only [if_neg hknown, if_neg hnew, if_neg hsome, hdrop, hcount, reduceCtorEq, if_false]
      refine ih ?_ ?_ _
      · intro h0
        exact h (by simp [h0])
      · rw [List.length_append, List.length_cons] at hfuel
        omega
    · -- the last item, and what follows it up to the next separator
      rw [List.splitOn_eq_singleton hsep, readTypes]
      by_cases hempty : text = []
      · simp [hempty]
      have hpos : (0 : ℤ) < text.length := by
        have := List.length_pos_iff.2 hempty
        omega
      simp only [if_pos hpos, if_neg hempty, readBehind]
      by_cases hrest : typeSeparator ∈ rest
      · obtain ⟨behind, more, rfl, hbehind⟩ := List.eq_append_cons_of_mem hrest
        have hitem : typeSeparator ∉ text ++ behind := by simp [hsep, hbehind]
        have hitem0 : 0 ∉ text ++ behind := fun h0 => h (by
          rw [← List.append_assoc]
          exact List.mem_append_left _ h0)
        have htake : (behind ++ typeSeparator :: more).takeWhile (· ≠ typeSeparator) = behind :=
          takeWhile_append_cons hbehind more
        rw [← List.append_assoc] at h ⊢
        simp only [idxOf?_append_cons hitem, parseType_append hitem0, if_pos hrest, htake,
          reduceCtorEq, if_false]
        rw [parseTypesLoop_done (by rw [List.length_append]; omega)]
        rfl
      · have hnone : (text ++ rest).idxOf? typeSeparator = none :=
          List.idxOf?_eq_none_iff.2 (by simp [hsep, hrest])
        have hitem0 : 0 ∉ text := fun h0 => h (List.mem_append_left _ h0)
        simp only [hnone, parseType_append hitem0, if_neg hrest, if_true, List.append_nil]
        rfl

/-- All types of a list together. -/
def unionOf (items : List (List UInt8)) : BitVec 32 :=
  items.foldl (fun types item => types ||| xprcParseType item) 0

/-- The items are names of different types. -/
def Distinct (items : List (List UInt8)) : Prop := (∀ item ∈ items, item ∈ typeNames) ∧ items.Nodup

instance (items : List (List UInt8)) : Decidable (Distinct items) :=
  inferInstanceAs (Decidable (_ ∧ _))

section

variable {items earlier : List (List UInt8)} {item last text : List UInt8}

theorem unionOf_append (items : List (List UInt8)) (item : List UInt8) :
    unionOf (items ++ [item]) = unionOf items ||| xprcParseType item := by
  rw [unionOf, List.foldl_append]
  rfl

/-- A type is among those of a list iff its name is. -/
theorem unionOf_and (hitems : ∀ other ∈ items, other ∈ typeNames) (hitem : item ∈ typeNames) :
    unionOf items &&& xprcParseType item = 0 ↔ item ∉ items := by
  have hor : ∀ a b : BitVec 32, a ||| b = 0 ↔ a = 0 ∧ b = 0 := fun a b => BitVec.or_eq_zero_iff
  induction items using List.reverseRecOn with
  | nil => simp [unionOf]
  | append_singleton items other ih =>
    have hother := xprcParseType_and item hitem other (hitems other (by simp))
    have hfirst := ih fun other hmem => hitems other (List.mem_append_left _ hmem)
    rw [BitVec.and_comm] at hfirst
    rw [unionOf_append, BitVec.and_comm, BitVec.and_or_distrib_left, hor]
    exact (and_congr hfirst hother).trans (by simp)

theorem unionOf_ne_zero (hitems : ∀ other ∈ items, other ∈ typeNames) (hne : items ≠ []) :
    unionOf items ≠ xplmTypeUnknown := by
  obtain ⟨item, rest, rfl⟩ := List.exists_cons_of_ne_nil hne
  intro hzero
  have hnone := (unionOf_and hitems (hitems item List.mem_cons_self)).1 (by
    rw [hzero]
    exact BitVec.zero_and)
  exact hnone List.mem_cons_self

/-- A name that is not in the list yet is added to it. -/
theorem addType_unionOf (hitems : ∀ other ∈ items, other ∈ typeNames) (item : List UInt8) :
    addType (unionOf items) item =
      if item ∈ typeNames ∧ item ∉ items then unionOf (items ++ [item]) else xplmTypeUnknown := by
  rw [addType, unionOf_append]
  by_cases hname : item ∈ typeNames
  · rw [if_neg (xprcParseType_ne_unknown item hname)]
    by_cases hmem : item ∈ items
    · rw [if_pos fun h => (unionOf_and hitems hname).1 h hmem, if_neg fun h => h.2 hmem]
    · rw [if_neg (not_not.2 ((unionOf_and hitems hname).2 hmem)), if_pos ⟨hname, hmem⟩]
  · rw [if_pos (xprcParseType_eq_unknown hname), if_neg fun h => hname h.1]

theorem distinct_append_singleton :
    Distinct (items ++ [item]) ↔ Distinct items ∧ item ∈ typeNames ∧ item ∉ items := by
  simp only [Distinct, List.forall_mem_append, List.nodup_append, List.nodup_singleton,
    List.mem_singleton, forall_eq]
  constructor
  · rintro ⟨⟨hitems, hitem⟩, hnodup, -, hne⟩
    exact ⟨⟨hitems, hnodup⟩, hitem, fun hmem => hne item hmem rfl⟩
  · rintro ⟨⟨hitems, hnodup⟩, hitem, hnew⟩
    refine ⟨⟨hitems, hitem⟩, hnodup, trivial, ?_⟩
    rintro a ha rfl
    exact hnew ha

/-- What is read from the items before the last one. -/
theorem readTypes_earlier (rest : List UInt8) {done : List (List UInt8)} (hdone : Distinct done)
    (earlier : List (List UInt8)) (last : List UInt8) :
    readTypes rest (unionOf done) (earlier ++ [last]) =
      if Distinct (done ++ earlier) then readTypes rest (unionOf (done ++ earlier)) [last]
      else xplmTypeUnknown := by
  induction earlier generalizing done with
  | nil =>
    rw [List.append_nil, if_pos hdone]
    rfl
  | cons item earlier ih =>
    have hstep : readTypes rest (unionOf done) (item :: (earlier ++ [last])) =
        if addType (unionOf done) item = xplmTypeUnknown then xplmTypeUnknown
        else readTypes rest (addType (unionOf done) item) (earlier ++ [last]) := by
      obtain ⟨next, items, hitems⟩ := List.exists_cons_of_ne_nil
        (show earlier ++ [last] ≠ [] by simp)
      rw [hitems, readTypes]
    have hshift : done ++ item :: earlier = (done ++ [item]) ++ earlier := by simp
    rw [List.cons_append, hstep, addType_unionOf hdone.1]
    by_cases hnew : item ∈ typeNames ∧ item ∉ done
    · have hmore : Distinct (done ++ [item]) := distinct_append_singleton.2 ⟨hdone, hnew⟩
      rw [if_pos hnew, if_neg (unionOf_ne_zero hmore.1 (by simp)), ih hmore, hshift]
    · have hbad : ¬ Distinct (done ++ item :: earlier) := by
        rw [hshift]
        rintro ⟨hnames, hnodup⟩
        refine hnew (distinct_append_singleton.1 ⟨?_, (List.nodup_append.1 hnodup).1⟩).2
        exact fun other hmem => hnames other (List.mem_append_left _ hmem)
      rw [if_neg hnew, if_pos rfl, if_neg hbad]

/-- **What `xprc_parse_types` returns** for a text with something behind it: the types of the list
that its items make, the last one read up to the next separator. -/
theorem parseTypes_eq {rest : List UInt8} (h : 0 ∉ text ++ rest)
    (hsplit : text.splitOn typeSeparator = earlier ++ [last]) :
    parseTypes (text ++ rest) text.length =
      if last = [] then if Distinct earlier then unionOf earlier else xplmTypeUnknown
      else if Distinct (earlier ++ [last ++ readBehind typeSeparator rest]) then
        unionOf (earlier ++ [last ++ readBehind typeSeparator rest])
      else xplmTypeUnknown := by
  have hnone : Distinct [] := ⟨by simp, by simp⟩
  have hread := readTypes_earlier rest hnone earlier last
  rw [List.nil_append] at hread
  rw [parseTypes, parseTypesLoop_eq h (by omega), hsplit]
  refine Eq.trans hread ?_
  rw [readTypes]
  by_cases hlast : last = []
  · simp only [if_pos hlast]
  simp only [if_neg hlast]
  by_cases hearlier : Distinct earlier
  · rw [if_pos hearlier, addType_unionOf hearlier.1]
    simp only [distinct_append_singleton, hearlier, true_and]
  · rw [if_neg hearlier, if_neg fun h => hearlier (distinct_append_singleton.1 h).1]

theorem exists_last (text : List UInt8) :
    ∃ earlier last, text.splitOn typeSeparator = earlier ++ [last] :=
  ⟨_, _, (List.dropLast_append_getLast (List.splitOn_ne_nil typeSeparator text)).symm⟩

end

/-! ### Texts that end with the string -/

/-- A comma-separated list of pairwise distinct names. -/
def TypeList (s : List UInt8) : Prop := Distinct (s.splitOn typeSeparator)

/-- The string is read as the list it is, and rejected if it is none. -/
structure ReadAsList (s : List UInt8) : Prop where
  accepted : parseTypes s s.length ≠ xplmTypeUnknown ↔ TypeList s
  union : TypeList s → parseTypes s s.length = unionOf (s.splitOn typeSeparator)

theorem splitOn_append_separator (s : List UInt8) :
    (s ++ [typeSeparator]).splitOn typeSeparator = s.splitOn typeSeparator ++ [[]] := by
  rw [List.splitOn_append_cons_self, List.splitOn_nil]

/-- An empty item at the end stands behind a separator. -/
theorem exists_of_last_nil {s : List UInt8} {earlier : List (List UInt8)} (hs : s ≠ [])
    (hsplit : s.splitOn typeSeparator = earlier ++ [[]]) :
    ∃ list, s = list ++ [typeSeparator] ∧ list.splitOn typeSeparator = earlier := by
  have hend : ∃ list, s = list ++ [typeSeparator] := by
    induction hn : s.length using Nat.strong_induction_on generalizing s earlier with
    | _ n ih =>
      by_cases hsep : typeSeparator ∈ s
      · obtain ⟨item, text, rfl, hitem⟩ := List.eq_append_cons_of_mem hsep
        rcases eq_or_ne text [] with rfl | htext
        · exact ⟨item, rfl⟩
        · rw [List.splitOn_append_cons_self_of_not_mem hitem] at hsplit
          have hlast := congrArg List.getLast? hsplit
          obtain ⟨before, last, hbefore⟩ := exists_last text
          rw [hbefore, ← List.cons_append, List.getLast?_concat, List.getLast?_concat] at hlast
          injection hlast with hlast
          subst hlast
          obtain ⟨list, rfl⟩ := ih text.length (by rw [← hn]; simp; omega) htext hbefore rfl
          exact ⟨item ++ typeSeparator :: list, by simp⟩
      · rw [List.splitOn_eq_singleton hsep] at hsplit
        have hlast := congrArg List.getLast? hsplit
        rw [List.getLast?_singleton, List.getLast?_concat] at hlast
        injection hlast with hlast
        exact absurd hlast hs
  obtain ⟨list, rfl⟩ := hend
  rw [splitOn_append_separator] at hsplit
  exact ⟨list, rfl, List.append_cancel_right hsplit⟩

/-- **Only a comma behind the list is accepted that should not be.** For every string up to its
terminator: `xprc_parse_types` returns types iff the string is a list of distinct type names, and
then all of them, unless the string is such a list with one more separator at its end. -/
theorem parseTypes_list_iff (s : List UInt8) (h : 0 ∉ s) :
    ReadAsList s ↔ ¬ ∃ list, TypeList list ∧ s = list ++ [typeSeparator] := by
  obtain ⟨earlier, last, hsplit⟩ := exists_last s
  have hparse := parseTypes_eq (show 0 ∉ s ++ [] by simpa using h) hsplit
  have hbehind : readBehind typeSeparator [] = [] := rfl
  rw [List.append_nil, hbehind, List.append_nil, ← hsplit] at hparse
  by_cases hlast : last = []
  · -- there is an empty item at the end
    subst hlast
    rw [if_pos rfl] at hparse
    have hnot : ¬ TypeList s := by
      rw [TypeList, hsplit, distinct_append_singleton]
      exact fun h => nil_not_mem_typeNames h.2.1
    constructor
    · rintro hread ⟨list, hlist, rfl⟩
      refine hnot (hread.accepted.1 ?_)
      rw [splitOn_append_separator] at hsplit
      have hearlier := List.append_cancel_right hsplit
      rw [hparse, ← hearlier, if_pos (show Distinct _ from hlist)]
      exact unionOf_ne_zero hlist.1 (List.splitOn_ne_nil _ _)
    · intro hno
      refine ⟨iff_of_false (fun hne => ?_) hnot, fun hlist => absurd hlist hnot⟩
      split_ifs at hparse with hearlier
      · rcases eq_or_ne s [] with rfl | hs
        · exact hne rfl
        · obtain ⟨list, rfl, rfl⟩ := exists_of_last_nil hs hsplit
          exact hno ⟨list, hearlier, rfl⟩
      · exact hne hparse
  · rw [if_neg hlast] at hparse
    have hread : ReadAsList s := by
      by_cases hlist : TypeList s
      · rw [if_pos (show Distinct _ from hlist)] at hparse
        refine ⟨iff_of_true ?_ hlist, fun _ => hparse⟩
        rw [hparse]
        exact unionOf_ne_zero hlist.1 (List.splitOn_ne_nil _ _)
      · rw [if_neg (show ¬ Distinct _ from hlist)] at hparse
        exact ⟨iff_of_false (fun hne => hne hparse) hlist, fun h => absurd h hlist⟩
    refine iff_of_true hread ?_
    rintro ⟨list, -, rfl⟩
    rw [splitOn_append_separator] at hsplit
    have heq := congrArg List.getLast? hsplit
    rw [List.getLast?_concat, List.getLast?_concat] at heq
    injection heq with heq
    exact hlast heq.symm

theorem parseTypes_list_iff_two :
    ReadAsList (bytes "int,float[]") ↔
      ¬ ∃ list, TypeList list ∧ bytes "int,float[]" = list ++ [typeSeparator] :=
  parseTypes_list_iff (bytes "int,float[]") (by decide +kernel)

/-- A comma behind a type is not noticed. -/
theorem readAsList_fails_comma : ¬ ReadAsList (bytes "int,") := by
  intro h
  exact absurd (h.accepted.1 (by decide +kernel)) (by unfold TypeList; decide +kernel)

/-! ### Texts with something behind them -/

/-- What follows the text is not taken for a part of it: the list is rejected for its earlier items,
or ends with a separator, or all types whose names start with the last item are among the earlier
ones. -/
def TypesClosed (text : List UInt8) : Prop :=
  ∀ earlier last, text.splitOn typeSeparator = earlier ++ [last] → last ≠ [] → Distinct earlier →
    ∀ name ∈ typeNames, last <+: name → name ∈ earlier

/-- The types read from a text do not depend on what follows it. -/
def TypesIndependent (text : List UInt8) : Prop :=
  ∀ rest rest', 0 ∉ rest → 0 ∉ rest' →
    parseTypes (text ++ rest) text.length = parseTypes (text ++ rest') text.length

theorem readBehind_append {separator : UInt8} {behind : List UInt8} (h : separator ∉ behind) :
    readBehind separator (behind ++ [separator]) = behind := by
  rw [readBehind, if_pos (by simp), takeWhile_append_cons h]

/-- **Types are read independently of what follows them for closed texts only**: elsewhere the rest
of a name, or anything else, can be put behind the text. -/
theorem typesIndependent_iff {text : List UInt8} (h : 0 ∉ text) :
    TypesIndependent text ↔ TypesClosed text := by
  constructor
  · intro hsame earlier last hsplit hlast hearlier name hname hprefix
    by_contra hnew
    obtain ⟨behind, rfl⟩ := hprefix
    obtain ⟨hsep, hzero, hbang⟩ := typeNames_free _ hname
    have hbehind : typeSeparator ∉ behind := fun hmem => hsep (List.mem_append_right _ hmem)
    have hbehind0 : 0 ∉ behind ++ [typeSeparator] := by
      intro hmem
      rcases List.mem_append.1 hmem with hmem | hmem
      · exact hzero (List.mem_append_right _ hmem)
      · exact absurd (List.mem_singleton.1 hmem) (by decide)
    have hbang0 : (0 : UInt8) ∉ [33] ++ [typeSeparator] := by decide
    have htext : ∀ rest : List UInt8, 0 ∉ rest → 0 ∉ text ++ rest := by
      intro rest hrest hmem
      exact (List.mem_append.1 hmem).elim h hrest
    have heq := hsame _ _ hbehind0 hbang0
    -- with the rest of the name it is read, with `!` it is not
    rw [parseTypes_eq (htext _ hbehind0) hsplit, parseTypes_eq (htext _ hbang0) hsplit,
      if_neg hlast, if_neg hlast, readBehind_append hbehind,
      readBehind_append (show typeSeparator ∉ [33] by decide)] at heq
    have hgood : Distinct (earlier ++ [last ++ behind]) :=
      distinct_append_singleton.2 ⟨hearlier, hname, hnew⟩
    have hbad : ¬ Distinct (earlier ++ [last ++ [33]]) := by
      intro hbad
      exact (typeNames_free _ (distinct_append_singleton.1 hbad).2.1).2.2 (by simp)
    rw [if_pos hgood, if_neg hbad] at heq
    exact unionOf_ne_zero hgood.1 (by simp) heq
  · intro hclosed rest rest' hrest hrest'
    obtain ⟨earlier, last, hsplit⟩ := exists_last text
    have htext : ∀ rest : List UInt8, 0 ∉ rest → 0 ∉ text ++ rest := by
      intro rest hrest hmem
      exact (List.mem_append.1 hmem).elim h hrest
    rw [parseTypes_eq (htext rest hrest) hsplit, parseTypes_eq (htext rest' hrest') hsplit]
    by_cases hlast : last = []
    · rw [if_pos hlast, if_pos hlast]
    · have hbad : ∀ behind, ¬ Distinct (earlier ++ [last ++ behind]) := by
        intro behind hgood
        obtain ⟨hearlier, hname, hnew⟩ := distinct_append_singleton.1 hgood
        exact hnew (hclosed earlier last hsplit hlast hearlier _ hname (List.prefix_append _ _))
      rw [if_neg hlast, if_neg hlast, if_neg (hbad _), if_neg (hbad _)]

end XprcServer
