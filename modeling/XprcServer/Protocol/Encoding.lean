import XprcServer.Lib.Buffer
import XprcServer.Protocol.Arrays
import XprcServer.Protocol.Types

/-!
# Writing types

`protocol.c`: `xprc_encode_types` writes the names of several types with commas between them into
memory whose size it has computed before.

* `encodeTypes_eq` : the names fill the memory exactly;
* `parseTypes_encodeTypes` : `xprc_parse_types` reads the types that were written, and nothing is
  written only for a set without such types, or without memory.
-/

namespace XprcServer

open Lib

/-- `encode_types_add`: the memory and `is_first` afterwards -/
def encodeTypesAdd (condition : Bool) (encoded : List UInt8) (s : Buffer UInt8 × Bool) :
    Access (Buffer UInt8 × Bool) :=
  if !condition then some s
  else do
    let out ← (if s.2 then some s.1 else s.1.put [typeSeparator])
    let out ← out.put encoded
    return (out, false)

/-- `xprc_encode_types` for the types that are asked for: the memory, if there is some; `alloc` is
the outcome of the allocation. -/
def encodeTypeFlags (alloc isInt isFloat isDouble isFloatArray isIntArray isBlob : Bool) :
    Access (Option (List UInt8)) :=
  let numTypes : ℤ := (if isInt then 1 else 0) + (if isFloat then 1 else 0) +
      (if isDouble then 1 else 0) +
    (if isFloatArray then 1 else 0) + (if isIntArray then 1 else 0) + (if isBlob then 1 else 0)
  if numTypes ≤ 0 then some none
  else
    let length := (if isInt then 3 else 0) + (if isFloat then 5 else 0) +
        (if isDouble then 6 else 0) +
      (if isFloatArray then 7 else 0) + (if isIntArray then 5 else 0) + (if isBlob then 4 else 0) +
      (numTypes - 1).toNat
    if !alloc then some none
    else do
      let s ← encodeTypesAdd isInt (bytes "int") (Buffer.zeroed 0 (length + 1), true)
      let s ← encodeTypesAdd isFloat (bytes "float") s
      let s ← encodeTypesAdd isDouble (bytes "double") s
      let s ← encodeTypesAdd isIntArray (bytes "int[]") s
      let s ← encodeTypesAdd isFloatArray (bytes "float[]") s
      let s ← encodeTypesAdd isBlob (bytes "blob") s
      return some (s.1.cells.set length 0)

/-- `xprc_encode_types` -/
def encodeTypes (alloc : Bool) (types : BitVec 32) : Access (Option (List UInt8)) :=
  encodeTypeFlags alloc (types &&& xplmTypeInt != 0) (types &&& xplmTypeFloat != 0)
    (types &&& xplmTypeDouble != 0) (types &&& xplmTypeFloatArray != 0)
    (types &&& xplmTypeIntArray != 0) (types &&& xplmTypeData != 0)

/-! ### The names of a set of types -/

/-- The names of the types that are asked for, in the order in which they are written -/
def flagNames (isInt isFloat isDouble isFloatArray isIntArray isBlob : Bool) : List (List UInt8) :=
  (if isInt then [bytes "int"] else []) ++ (if isFloat then [bytes "float"] else []) ++
    (if isDouble then [bytes "double"] else []) ++ (if isIntArray then [bytes "int[]"] else []) ++
    (if isFloatArray then [bytes "float[]"] else []) ++ (if isBlob then [bytes "blob"] else [])

/-- The names of a set of types -/
def encodedNames (types : BitVec 32) : List (List UInt8) :=
  flagNames (types &&& xplmTypeInt != 0) (types &&& xplmTypeFloat != 0)
    (types &&& xplmTypeDouble != 0)
    (types &&& xplmTypeFloatArray != 0) (types &&& xplmTypeIntArray != 0)
      (types &&& xplmTypeData != 0)

/-- The names with commas between them -/
def encodedText (types : BitVec 32) : List UInt8 := [typeSeparator].intercalate (encodedNames types)

example : encodedText (xplmTypeFloatArray ||| xplmTypeInt) = bytes "int,float[]" := by decide

section

-- what is said about the types that are asked for is tried out for all of them at once

theorem flagNames_checked : ∀ isInt isFloat isDouble isFloatArray isIntArray isBlob,
    (encodeTypeFlags false isInt isFloat isDouble isFloatArray isIntArray isBlob = some none ∧
      encodeTypeFlags true isInt isFloat isDouble isFloatArray isIntArray isBlob =
        some (if flagNames isInt isFloat isDouble isFloatArray isIntArray isBlob = [] then none
          else some ([typeSeparator].intercalate
            (flagNames isInt isFloat isDouble isFloatArray isIntArray isBlob) ++ [0]))) ∧
    (Distinct (flagNames isInt isFloat isDouble isFloatArray isIntArray isBlob) ∧
      0 ∉ [typeSeparator].intercalate
        (flagNames isInt isFloat isDouble isFloatArray isIntArray isBlob)) ∧
    ((flagNames isInt isFloat isDouble isFloatArray isIntArray isBlob ≠ [] →
        unionOf (flagNames isInt isFloat isDouble isFloatArray isIntArray isBlob) ≠ 0) ∧
      unionOf (flagNames isInt isFloat isDouble isFloatArray isIntArray isBlob) =
        (if isInt then xplmTypeInt else 0) ||| (if isFloat then xplmTypeFloat else 0) |||
          (if isDouble then xplmTypeDouble else 0) |||
          (if isFloatArray then xplmTypeFloatArray else 0) |||
          (if isIntArray then xplmTypeIntArray else 0) |||
            (if isBlob then xplmTypeData else 0)) := by
  decide +kernel

theorem typeNames_colon : ∀ name ∈ typeNames, 58 ∉ name := by decide

variable (isInt isFloat isDouble isFloatArray isIntArray isBlob : Bool)

theorem encodeTypeFlags_unallocated :
    encodeTypeFlags false isInt isFloat isDouble isFloatArray isIntArray isBlob = some none :=
  (flagNames_checked isInt isFloat isDouble isFloatArray isIntArray isBlob).1.1

/-- The names fill the memory up to the NUL. -/
theorem encodeTypeFlags_eq :
    encodeTypeFlags true isInt isFloat isDouble isFloatArray isIntArray isBlob =
      some (if flagNames isInt isFloat isDouble isFloatArray isIntArray isBlob = [] then none
        else some ([typeSeparator].intercalate
          (flagNames isInt isFloat isDouble isFloatArray isIntArray isBlob) ++ [0])) :=
  (flagNames_checked isInt isFloat isDouble isFloatArray isIntArray isBlob).1.2

theorem flagNames_distinct :
    Distinct (flagNames isInt isFloat isDouble isFloatArray isIntArray isBlob) :=
  (flagNames_checked isInt isFloat isDouble isFloatArray isIntArray isBlob).2.1.1

theorem unionOf_flagNames_ne_zero
    (h : flagNames isInt isFloat isDouble isFloatArray isIntArray isBlob ≠ []) :
    unionOf (flagNames isInt isFloat isDouble isFloatArray isIntArray isBlob) ≠ 0 :=
  (flagNames_checked isInt isFloat isDouble isFloatArray isIntArray isBlob).2.2.1 h

theorem flagNames_nul :
    0 ∉ [typeSeparator].intercalate
      (flagNames isInt isFloat isDouble isFloatArray isIntArray isBlob) :=
  (flagNames_checked isInt isFloat isDouble isFloatArray isIntArray isBlob).2.1.2

theorem unionOf_flagNames :
    unionOf (flagNames isInt isFloat isDouble isFloatArray isIntArray isBlob) =
      (if isInt then xplmTypeInt else 0) ||| (if isFloat then xplmTypeFloat else 0) |||
        (if isDouble then xplmTypeDouble else 0) ||| (if isFloatArray then
          xplmTypeFloatArray else 0) |||
        (if isIntArray then xplmTypeIntArray else 0) ||| (if isBlob then xplmTypeData else 0) :=
  (flagNames_checked isInt isFloat isDouble isFloatArray isIntArray isBlob).2.2.2

end

section

variable {types : BitVec 32}

/-- A single bit of a set of types -/
theorem and_bit (types : BitVec 32) (i : ℕ) :
    (if types &&& BitVec.twoPow 32 i != 0 then BitVec.twoPow 32 i else 0) =
      types &&& BitVec.twoPow 32 i := by
  rw [BitVec.and_twoPow]
  by_cases hbit : types.getLsbD i = true
  · rw [if_pos hbit]
    split_ifs with hne
    · rfl
    · exact (show BitVec.twoPow 32 i = 0 by simpa using hne).symm
  · rw [if_neg hbit]
    rfl

/-- The types of the names are those that were asked for. -/
theorem unionOf_encodedNames (types : BitVec 32) :
    unionOf (encodedNames types) = types &&& supportedTypes := by
  have hbits : supportedTypes = BitVec.twoPow 32 0 ||| BitVec.twoPow 32 1 ||| BitVec.twoPow 32 2 |||
      BitVec.twoPow 32 3 ||| BitVec.twoPow 32 4 ||| BitVec.twoPow 32 5 := by decide
  rw [encodedNames, unionOf_flagNames, hbits]
  rw [BitVec.and_or_distrib_left, BitVec.and_or_distrib_left, BitVec.and_or_distrib_left,
    BitVec.and_or_distrib_left, BitVec.and_or_distrib_left, ← and_bit types 0, ← and_bit types 1,
    ← and_bit types 2, ← and_bit types 3, ← and_bit types 4, ← and_bit types 5]
  rfl

theorem encodeTypes_eq (types : BitVec 32) : encodeTypes true types = some
    (if encodedNames types = [] then none else some (encodedText types ++ [0])) :=
  encodeTypeFlags_eq _ _ _ _ _ _

/-- Something is written exactly for a set with types of the protocol. -/
theorem encodedNames_eq_nil_iff (types : BitVec 32) :
    encodedNames types = [] ↔ types &&& supportedTypes = 0 := by
  rw [← unionOf_encodedNames]
  refine ⟨fun hnil => by rw [hnil]; rfl, fun hzero => ?_⟩
  by_contra hne
  exact unionOf_flagNames_ne_zero _ _ _ _ _ _ hne hzero

theorem encodedNames_ne_nil (h : types &&& supportedTypes ≠ 0) : encodedNames types ≠ [] :=
  fun hnil => h ((encodedNames_eq_nil_iff types).1 hnil)

theorem encodeTypes_of_supported (h : types &&& supportedTypes ≠ 0) :
    encodeTypes true types = some (some (encodedText types ++ [0])) := by
  rw [encodeTypes_eq, if_neg (encodedNames_ne_nil h)]

/-- The items of the text are the names. -/
theorem splitOn_encodedText (hnames : encodedNames types ≠ []) :
    ∃ earlier last, (encodedText types).splitOn typeSeparator = earlier ++ [last] ∧ last ≠ [] ∧
      earlier ++ [last] = encodedNames types := by
  have hdistinct : Distinct (encodedNames types) := flagNames_distinct _ _ _ _ _ _
  have hsplit : (encodedText types).splitOn typeSeparator = encodedNames types :=
    List.splitOn_intercalate typeSeparator
      (fun name hname => (typeNames_free name (hdistinct.1 name hname)).1)
      hnames
  obtain ⟨earlier, last, hlast⟩ := (List.eq_nil_or_concat (encodedNames types)).resolve_left hnames
  rw [List.concat_eq_append] at hlast
  refine ⟨earlier, last, hsplit.trans hlast, ?_, hlast.symm⟩
  rintro rfl
  exact nil_not_mem_typeNames (hdistinct.1 [] (by rw [hlast]; simp))

theorem encodedText_length_pos (hnames : encodedNames types ≠ []) : 0 <
    (encodedText types).length := by
  obtain ⟨earlier, last, hsplit, hne, -⟩ := splitOn_encodedText hnames
  refine List.length_pos_of_ne_nil fun hnil => hne ?_
  rw [hnil] at hsplit
  cases earlier with
  | nil => simpa using hsplit.symm
  | cons item earlier => simp at hsplit

/-- A text with no comma behind it is read as the types that were written. -/
theorem parseTypes_encodedText (hnames : encodedNames types ≠ []) {rest : List UInt8} (h : 0 ∉ rest)
    (hfree : typeSeparator ∉ rest) :
    parseTypes (encodedText types ++ rest) (encodedText types).length =
      types &&& supportedTypes := by
  have hnul : 0 ∉ encodedText types := flagNames_nul _ _ _ _ _ _
  have hdistinct : Distinct (encodedNames types) := flagNames_distinct _ _ _ _ _ _
  obtain ⟨earlier, last, hsplit, hne, hall⟩ := splitOn_encodedText hnames
  rw [parseTypes_eq (by simp [hnul, h]) hsplit, if_neg hne, readBehind, if_neg hfree,
    List.append_nil, hall, if_pos hdistinct, unionOf_encodedNames]

/-- With a comma somewhere behind it, what comes before this comma belongs to the last name. -/
theorem parseTypes_encodedText_comma (hnames : encodedNames types ≠ []) {rest : List UInt8}
    (h : 0 ∉ rest) (hcolon : rest.head? = some 58) (hcomma : typeSeparator ∈ rest) :
    parseTypes (encodedText types ++ rest) (encodedText types).length = xplmTypeUnknown := by
  have hnul : 0 ∉ encodedText types := flagNames_nul _ _ _ _ _ _
  obtain ⟨earlier, last, hsplit, hne, -⟩ := splitOn_encodedText hnames
  obtain ⟨more, rfl⟩ : ∃ more, rest = 58 :: more := by
    cases rest with
    | nil => cases hcolon
    | cons ch more => exact ⟨more, by simpa using hcolon⟩
  rw [parseTypes_eq (by simp only [List.mem_append, not_or]; exact ⟨hnul, h⟩) hsplit,
    if_neg hne, readBehind, if_pos hcomma]
  refine if_neg fun hdistinct => ?_
  -- there is no colon in the name of a type
  refine typeNames_colon _ (hdistinct.1 _ (List.mem_append_right _ (List.mem_singleton_self _))) ?_
  rw [List.takeWhile_cons, if_pos (by decide)]
  simp

/-- **The types that are written are read back**, and the memory is filled exactly.  Nothing is
written exactly if there is no memory, or no type of the protocol in the set. -/
theorem parseTypes_encodeTypes (alloc : Bool) (types : BitVec 32) :
    (encodeTypes alloc types = some none ↔ alloc = false ∨ types &&& supportedTypes = 0) ∧
      (encodeTypes alloc types = some none ∨
        ∃ text, encodeTypes alloc types = some (some (text ++ [0])) ∧ 0 ∉ text ∧
          parseTypes text text.length = types &&& supportedTypes) := by
  cases alloc with
  | false =>
    have hencode : encodeTypes false types = some none := encodeTypeFlags_unallocated _ _ _ _ _ _
    exact ⟨iff_of_true hencode (.inl rfl), .inl hencode⟩
  | true =>
    have hencode := encodeTypes_eq types
    by_cases hnames : encodedNames types = []
    · rw [if_pos hnames] at hencode
      exact ⟨iff_of_true hencode (.inr ((encodedNames_eq_nil_iff types).1 hnames)), .inl hencode⟩
    · rw [if_neg hnames] at hencode
      have hparse := @parseTypes_encodedText _ hnames [] List.not_mem_nil List.not_mem_nil
      rw [List.append_nil] at hparse
      refine ⟨iff_of_false (by rw [hencode]; simp) ?_,
        .inr ⟨encodedText types, hencode, flagNames_nul _ _ _ _ _ _, hparse⟩⟩
      rintro (himpossible | hzero)
      · cases himpossible
      · exact hnames ((encodedNames_eq_nil_iff types).2 hzero)

end

end XprcServer
