import XprcServer.Commands.Cmrg
import XprcServer.Protocol.Texts

/-!
# Parameters of DRMU

`command_drmu.c`: a parameter of DRMU says which dataref to set to which values.  It is its type,
its name, an index into an array, the values to set and the values to start from; the separators are
searched in the whole parameter, but for those that are escaped.

* `strposUnescaped_eq` : where the next separator is found, from the texts in front of it;
* `parseDataref_weakens` : an allocation that fails leads to an error and to nothing else;
* `parseDataref_text` : a parameter is split into what it was put together from.
-/

namespace XprcServer

/-! ### Escaping -/

/-- `ESCAPE_CHAR`, `\` -/
def escapeChar : UInt8 := 92

/-- One pass of the loop of `is_escaped`. -/
def escapes (escaped : Bool) (ch : UInt8) : Bool := !escaped && ch == escapeChar

/-- `is_escaped` -/
def isEscaped (s : List UInt8) (pos : ℕ) : Bool :=
  if pos < 1 then false else (s.take pos).foldl escapes false

/-- The loop of `_strpos` with `skip_escapes`, for a needle of one character. -/
def strposLoop (haystack : List UInt8) (needle : UInt8) : List UInt8 → ℕ → ℤ
  | [], _ => -1
  | ch :: rest, i =>
    if ch = needle then
      if isEscaped haystack i then strposLoop haystack needle rest (i + 1) else i
    else strposLoop haystack needle rest (i + 1)

/-- `strpos_unescaped` -/
def strposUnescaped (haystack : List UInt8) (needle : UInt8) (start : ℕ) : ℤ :=
  if needle = escapeChar then -2
  else strposLoop haystack needle ((cString haystack).drop start) start

/-- `copy_partial_unescaped_string` -/
def copyPartialUnescapedString (alloc : Bool) (s : List UInt8) (maxLength : ℤ) :
    Option (List UInt8) :=
  if alloc then unescapeLoop false (s.take maxLength.toNat) else none

/-! ### A parameter -/

/-- `drmu_method_t`, without the one that is not supported -/
inductive DrmuMethod where
  | immediate
  | linear
  deriving DecidableEq, Repr

/-- The values of a dataref: an array, with one item for an `int` or a `float`, or a `double`. -/
inductive DrmuValues where
  | array (arr : DynamicArray)
  | double (bits : BitVec 64)
  deriving DecidableEq, Repr

/-- `length` of the array -/
def DrmuValues.length : DrmuValues → ℕ
  | array arr => arr.items.length
  | double _ => 1

/-- An array of the same size, with zeros. -/
def DrmuValues.cleared : DrmuValues → DrmuValues
  | array arr => array ⟨arr.itemSize, List.replicate arr.items.length 0⟩
  | double _ => double 0

/-- `drmu_dataref_t`, as far as it is set from a parameter -/
structure DrmuDataref where
  type : BitVec 32
  targetArrayOffset : ℤ
  name : List UInt8
  targetValues : DrmuValues
  bufferValues : DrmuValues
  baseValues : Option DrmuValues
  baseOnDataref : Bool
  deriving DecidableEq, Repr

/-- Which allocations succeed while a parameter is parsed. -/
structure DrmuAllocations where
  index : Bool
  dataref : Bool
  name : Bool
  target : Bool
  buffer : Bool
  base : Bool
  deriving DecidableEq, Repr

/-- All of them do. -/
def DrmuAllocations.all : DrmuAllocations := ⟨true, true, true, true, true, true⟩

/-- The message on the channel and what is returned. -/
abbrev DrmuError := String × ErrorCode

section

variable (lib : Library) (floats : FloatText) (doubles : List UInt8 → BitVec 64)

/-- The part of `drmu_create` that reads the array index. -/
def parseArrayOffset (alloc : Bool) (parameter : List UInt8)
    (offsetIndexSeparator offsetNameSeparator : ℤ) : Access (Except DrmuError ℤ) := do
  let offsetIndexClose := strpos parameter 93 (offsetIndexSeparator + 1).toNat
  if offsetIndexClose < 0 ∨ offsetNameSeparator ≤ offsetIndexClose then
    return .error ("dataref array offset not closed", .unspecific)
  if offsetIndexClose < offsetNameSeparator - 1 then
    return .error ("trailing input after array offset", .unspecific)
  let indexLength := offsetIndexClose - offsetIndexSeparator - 1
  if indexLength < 1 then return .error ("dataref array offset is empty", .unspecific)
  if !alloc then return .error ("dataref array offset failed to parse", .unspecific)
  let tmp ← substring parameter (offsetIndexSeparator + 1).toNat indexLength.toNat
  let arrayOffset := atoi lib (cString tmp)
  if arrayOffset < 0 then return .error ("invalid dataref array offset", .unspecific)
  return .ok arrayOffset

/-- The parts of `drmu_create` that read values: the `length` characters from `start` on. -/
def parseDrmuValues (alloc : Bool) (parameter : List UInt8) (start length : ℤ)
    (type : BitVec 32) : Access (Option DrmuValues) := do
  if type &&& arrayTypes ≠ 0 then
    let arr ← parseArray lib floats alloc (parameter.drop start.toNat) length type
    return arr.map .array
  else if !alloc then return none
  else
    let text ← substring parameter start.toNat length.toNat
    if type = xplmTypeDouble then return some (.double (doubles (cString text)))
    else return (parseValue lib floats alloc text length type 4).map fun value =>
      .array ⟨4, [value]⟩

/-- The part of `drmu_create` that parses a parameter. -/
def parseDataref (allocs : DrmuAllocations) (method : DrmuMethod) (parameter : List UInt8) :
    Access (Except DrmuError DrmuDataref) := do
  let length : ℤ := strlen parameter
  let offsetTypeSeparator := strpos parameter 58 0
  if offsetTypeSeparator < 1 then
    return .error ("datarefs must be specified with type", .unspecific)
  let offsetNameSeparator := strposUnescaped parameter 58 (offsetTypeSeparator + 1).toNat
  if offsetNameSeparator < 0 then
    return .error ("incomplete dataref specification", .unspecific)
  let offsetIndexSeparator := strposUnescaped parameter 91 (offsetTypeSeparator + 1).toNat
  let hasArrayIndex :=
    decide (0 ≤ offsetIndexSeparator ∧ offsetIndexSeparator < offsetNameSeparator)
  let nameLengthEscaped :=
    (if hasArrayIndex then offsetIndexSeparator else offsetNameSeparator) - offsetTypeSeparator - 1
  if nameLengthEscaped < 1 then return .error ("dataref name is missing", .unspecific)
  let nameLength := length - offsetTypeSeparator - 1
  if nameLength < 1 then return .error ("dataref name is missing", .unspecific)
  match ← (if hasArrayIndex then
      parseArrayOffset lib allocs.index parameter offsetIndexSeparator offsetNameSeparator
    else return .ok (-1)) with
  | .error e => return .error e
  | .ok arrayOffset =>
    let wantedType := parseType parameter offsetTypeSeparator
    if wantedType = xplmTypeUnknown then return .error ("unknown type", .unspecific)
    let isArrayType := decide (arrayTypes &&& wantedType ≠ 0)
    -- by default, array types always write to offset 0
    let arrayOffset := if isArrayType ∧ arrayOffset < 0 then 0 else arrayOffset
    if !isArrayType ∧ 0 ≤ arrayOffset then
      return .error ("array offset is only permitted for array types", .unspecific)
    let offsetSetSeparator := strposUnescaped parameter 58 (offsetNameSeparator + 1).toNat
    let definesBaseValues := decide (0 ≤ offsetSetSeparator)
    let setLength := (if definesBaseValues then offsetSetSeparator else length) -
      offsetNameSeparator - 1
    if setLength < 1 then return .error ("missing target values to be set", .unspecific)
    let baseLength := if definesBaseValues then length - offsetSetSeparator - 1 else 0
    if definesBaseValues ∧ baseLength < 1 then
      return .error ("base values indicated but not provided", .unspecific)
    if !allocs.dataref then
      return .error ("internal dataref could not be allocated", .memoryAllocation)
    match copyPartialUnescapedString allocs.name
      (parameter.drop (offsetTypeSeparator + 1).toNat) nameLengthEscaped with
    | none => return .error ("dataref name could not be copied", .memoryAllocation)
    | some name =>
      match ← parseDrmuValues lib floats doubles allocs.target parameter (offsetNameSeparator + 1)
        setLength wantedType with
      | none => return .error ("failed to parse target values", .unspecific)
      | some targetValues =>
        if targetValues.length < 1 then return .error ("empty array of target values", .unspecific)
        if !allocs.buffer then
          return .error ("failed to allocate buffer values", .memoryAllocation)
        let dataref : DrmuDataref :=
          ⟨wantedType, arrayOffset, name, targetValues, targetValues.cleared, none, false⟩
        if definesBaseValues then
          match ← parseDrmuValues lib floats doubles allocs.base parameter (offsetSetSeparator + 1)
            baseLength wantedType with
          | none => return .error ("failed to parse base values", .unspecific)
          | some baseValues =>
            if baseValues.length ≠ targetValues.length then
              return .error ("number of base and target values does not match", .unspecific)
            return .ok { dataref with baseValues := some baseValues }
        else if method ≠ .immediate then
          -- the base values are fetched from the dataref later on
          if !allocs.base then return .error ("failed to allocate base values", .unspecific)
          return .ok { dataref with baseValues := some targetValues.cleared, baseOnDataref := true }
        else return .ok dataref

end

example : parseDataref .calm .blank (fun _ => 0) .all .immediate
    (bytes "blob:a\\[[7]:2,0aFF:2,0102") =
    some (.ok ⟨xplmTypeData, 7, bytes "a[", .array ⟨1, [10, 255]⟩, .array ⟨1, [0, 0]⟩,
      some (.array ⟨1, [1, 2]⟩), false⟩) := by
  decide +kernel

/-! ### Finding separators -/

/-- The needle stands somewhere in the text and is not escaped there; `escaped` says that an escape
is open in front of the text. -/
def unescapedIn (needle : UInt8) : Bool → List UInt8 → Bool
  | _, [] => false
  | escaped, ch :: rest =>
    ch == needle && !escaped || unescapedIn needle (escapes escaped ch) rest

theorem unescapedIn_append (needle : UInt8) (escaped : Bool) (a b : List UInt8) :
    unescapedIn needle escaped (a ++ b) =
      (unescapedIn needle escaped a || unescapedIn needle (a.foldl escapes escaped) b) := by
  induction a generalizing escaped with
  | nil => simp [unescapedIn]
  | cons ch a ih => simp [unescapedIn, ih, Bool.or_assoc]

/-- A text that is searched in vain, and leaves no escape open. -/
structure Passed (needle : UInt8) (text : List UInt8) : Prop where
  nowhere : unescapedIn needle false text = false
  closed : text.foldl escapes false = false

theorem Passed.nil (needle : UInt8) : Passed needle [] := ⟨rfl, rfl⟩

theorem Passed.append {needle : UInt8} {a b : List UInt8} (ha : Passed needle a)
    (hb : Passed needle b) : Passed needle (a ++ b) := by
  constructor
  · rw [unescapedIn_append, ha.nowhere, ha.closed, hb.nowhere]
    rfl
  · rw [List.foldl_append, ha.closed, hb.closed]

theorem Passed.of_not_mem {needle : UInt8} {text : List UInt8} (h : needle ∉ text)
    (hescape : escapeChar ∉ text) : Passed needle text := by
  induction text with
  | nil => exact Passed.nil needle
  | cons ch text ih =>
    simp only [List.mem_cons, not_or] at h hescape
    obtain ⟨hnowhere, hclosed⟩ := ih h.2 hescape.2
    have hch : escapes false ch = false := by simp [escapes, Ne.symm hescape.1]
    have hne : (ch == needle) = false := beq_false_of_ne (Ne.symm h.1)
    constructor
    · rw [unescapedIn, hch, hnowhere, hne]
      rfl
    · rw [List.foldl_cons, hch, hclosed]

theorem Passed.escaped (needle ch : UInt8) (h : needle ≠ escapeChar) :
    Passed needle [escapeChar, ch] := by
  constructor
  · simp [unescapedIn, escapes, Ne.symm h]
  · simp [escapes]

theorem isEscaped_length (done rest : List UInt8) :
    isEscaped (done ++ rest) done.length = done.foldl escapes false := by
  rw [isEscaped, List.take_left' rfl]
  cases done with
  | nil => rfl
  | cons ch done => rw [if_neg (by simp)]

/-- The search goes on behind a text in which the needle does not stand unescaped. -/
theorem strposLoop_skip {needle : UInt8} (done text rest : List UInt8)
    (h : unescapedIn needle (done.foldl escapes false) text = false) :
    strposLoop (done ++ (text ++ rest)) needle (text ++ rest) done.length =
      strposLoop (done ++ (text ++ rest)) needle rest (done.length + text.length) := by
  induction text generalizing done with
  | nil => simp
  | cons ch text ih =>
    rw [unescapedIn, Bool.or_eq_false_iff] at h
    have hgo := ih (done ++ [ch]) (by rw [List.foldl_append]; exact h.2)
    have hwhole : done ++ [ch] ++ (text ++ rest) = done ++ (ch :: text ++ rest) := by simp
    rw [hwhole, List.length_append, List.length_singleton] at hgo
    have hstep : strposLoop (done ++ (ch :: text ++ rest)) needle (ch :: text ++ rest) done.length =
        strposLoop (done ++ (ch :: text ++ rest)) needle (text ++ rest) (done.length + 1) := by
      rw [List.cons_append, strposLoop]
      by_cases hch : ch = needle
      · have hescaped : done.foldl escapes false = true := by simpa [hch] using h.1
        rw [if_pos hch, isEscaped_length, if_pos hescaped]
      · rw [if_neg hch]
    rw [hstep, hgo, List.length_cons]
    congr 1
    omega

/-- **Where the next separator is found**: behind texts that are passed. -/
theorem strposUnescaped_eq {needle : UInt8} (hneedle : needle ≠ escapeChar) {s : List UInt8}
    (hs : 0 ∉ s) {done text behind : List UInt8} (heq : s = done ++ (text ++ needle :: behind))
    (hdone : done.foldl escapes false = false) (htext : Passed needle text) :
    strposUnescaped s needle done.length = (done.length + text.length : ℕ) := by
  have hpast : (done ++ text).foldl escapes false = false := by
    rw [List.foldl_append, hdone, htext.closed]
  have hescaped := isEscaped_length (done ++ text) (needle :: behind)
  rw [List.append_assoc, hpast, List.length_append] at hescaped
  rw [strposUnescaped, if_neg hneedle, cString_eq_self hs, heq, List.drop_left' rfl,
    strposLoop_skip done text _ (by rw [hdone]; exact htext.nowhere), strposLoop, if_pos rfl,
    if_neg (by rw [hescaped]; simp)]

theorem strposUnescaped_eq_neg_one {needle : UInt8} (hneedle : needle ≠ escapeChar) {s : List UInt8}
    (hs : 0 ∉ s) {done text : List UInt8} (heq : s = done ++ text)
    (hdone : done.foldl escapes false = false) (htext : Passed needle text) :
    strposUnescaped s needle done.length = -1 := by
  have hgo := strposLoop_skip done text [] (by rw [hdone]; exact htext.nowhere)
  rw [List.append_nil] at hgo
  rw [strposUnescaped, if_neg hneedle, cString_eq_self hs, heq, List.drop_left' rfl,
    hgo, strposLoop]

/-! ### Names -/

/-- A name as it is written in a parameter. -/
def escapeName (name : List UInt8) : List UInt8 :=
  name.flatMap fun ch => if ch = escapeChar ∨ ch = 58 ∨ ch = 91 then [escapeChar, ch] else [ch]

theorem unescapeLoop_escapeName (name : List UInt8) :
    unescapeLoop false (escapeName name) = some name := by
  induction name with
  | nil => rfl
  | cons ch name ih =>
    rw [escapeName] at ih
    rw [escapeName, List.flatMap_cons]
    split_ifs with hch
    · rw [List.cons_append, List.cons_append, unescapeLoop, if_pos (show escapeChar = 92 from rfl),
        unescapeLoop, List.nil_append, ih]
      rfl
    · have hne : ch ≠ 92 := fun heq => hch (.inl heq)
      rw [List.cons_append, List.nil_append, unescapeLoop, if_neg hne, ih]
      rfl

/-- Neither of the separators is found in a name. -/
theorem passed_escapeName {needle : UInt8} (h : needle = 58 ∨ needle = 91) (name : List UInt8) :
    Passed needle (escapeName name) := by
  have hneedle : needle ≠ escapeChar := by rcases h with rfl | rfl <;> decide
  induction name with
  | nil => exact Passed.nil needle
  | cons ch name ih =>
    rw [escapeName, List.flatMap_cons]
    refine Passed.append ?_ ih
    split_ifs with hch
    · exact Passed.escaped needle ch hneedle
    · refine Passed.of_not_mem ?_ ?_
      · rw [List.mem_singleton]
        rintro rfl
        exact hch (.inr h)
      · rw [List.mem_singleton]
        exact fun heq => hch (.inl heq.symm)

theorem zero_not_mem_escapeName {name : List UInt8} (h : 0 ∉ name) : 0 ∉ escapeName name := by
  rw [escapeName, List.mem_flatMap]
  rintro ⟨ch, hch, hmem⟩
  have hne : (0 : UInt8) ≠ ch := fun heq => h (heq ▸ hch)
  split_ifs at hmem
  · simp [hne, show (0 : UInt8) ≠ escapeChar by decide] at hmem
  · simp [hne] at hmem

/-- Values of a type: one integer, or as many as there are, or bytes. -/
structure ValuesOf (type : BitVec 32) (values : List (BitVec 32)) : Prop where
  known : type = xplmTypeInt ∨ type = xplmTypeIntArray ∨ type = xplmTypeData
  ne_nil : values ≠ []
  single : type = xplmTypeInt → values.length = 1
  bytes : type = xplmTypeData → ∀ value ∈ values, value.toNat < 256

/-- How values are written. -/
def valuesText (floats : FloatText) (type : BitVec 32) (values : List (BitVec 32)) : List UInt8 :=
  if type = xplmTypeInt then values.flatMap fun value => decimalInt value.toInt
  else arrayText floats type values

/-- The values in memory. -/
def drmuValues (type : BitVec 32) (values : List (BitVec 32)) : DrmuValues :=
  .array ⟨if type = xplmTypeData then 1 else 4, values⟩

section

variable (lib : Library) (floats : FloatText) (doubles : List UInt8 → BitVec 64)
  {values : List (BitVec 32)} {rest : List UInt8}

end

/-! ### Parameters -/

/-- How a type is written. -/
def drmuTypeName (type : BitVec 32) : List UInt8 :=
  if type = xplmTypeInt then bytes "int"
  else if type = xplmTypeIntArray then bytes "int[]"
  else bytes "blob"

/-- What a parameter of DRMU asks for. -/
structure DatarefUpdate where
  name : List UInt8
  type : BitVec 32
  index : Option ℕ
  values : List (BitVec 32)
  base : Option (List (BitVec 32))
  name_ne_nil : name ≠ []
  name_free : 0 ∉ name
  index_lt : ∀ i ∈ index, i < 2 ^ 31
  index_array : index ≠ none → type ≠ xplmTypeInt
  values_of : ValuesOf type values
  base_of : ∀ w ∈ base, ValuesOf type w ∧ w.length = values.length

namespace DatarefUpdate

variable (u : DatarefUpdate) (floats : FloatText)

/-- The text of the index. -/
def indexText : List UInt8 :=
  match u.index with
  | none => []
  | some i => 91 :: decimal i ++ [93]

/-- The text of the base values. -/
def baseText : List UInt8 :=
  match u.base with
  | none => []
  | some w => 58 :: valuesText floats u.type w

/-- The parameter, put together. -/
def text : List UInt8 :=
  drmuTypeName u.type ++ 58 :: (escapeName u.name ++ u.indexText ++
    58 :: (valuesText floats u.type u.values ++ u.baseText floats))

/-- What the parameter says about the dataref. -/
def dataref (method : DrmuMethod) : DrmuDataref where
  type := u.type
  targetArrayOffset := if u.type = xplmTypeInt then -1 else u.index.getD 0
  name := u.name
  targetValues := drmuValues u.type u.values
  bufferValues := drmuValues u.type (List.replicate u.values.length 0)
  baseValues :=
    match u.base with
    | some w => some (drmuValues u.type w)
    | none => if method = .immediate then none
      else some (drmuValues u.type (List.replicate u.values.length 0))
  baseOnDataref := u.base = none ∧ method ≠ .immediate

/-- Where the name starts. -/
def nameStart : ℕ := (drmuTypeName u.type ++ [58]).length

variable {u}

end DatarefUpdate

/-! ### Failing allocations -/

/-- The first outcome is the second one, or an error. -/
def Weakens {α : Type} (x y : Access (Except DrmuError α)) : Prop :=
  x = y ∨ ∃ e, x = some (.error e)

namespace Weakens

variable {α β : Type} {x y z : Access (Except DrmuError α)}

theorem refl (x : Access (Except DrmuError α)) : Weakens x x := .inl rfl

theorem error (e : DrmuError) : Weakens (some (.error e)) y := .inr ⟨e, rfl⟩

theorem alloc {b : Bool} {e : DrmuError} (h : Weakens x y) :
    Weakens (if (!b) = true then some (.error e) else x)
      (if (!true) = true then some (.error e) else y) := by
  cases b with
  | false => exact error e
  | true => exact h

theorem ite {c : Prop} [Decidable c] {x' y' : Access (Except DrmuError α)} (h : Weakens x y)
    (h' : Weakens x' y') : Weakens (if c then x else x') (if c then y else y') := by
  split_ifs
  · exact h
  · exact h'

theorem guard {c : Prop} [Decidable c] (h : Weakens x y) :
    Weakens (if c then z else x) (if c then z else y) := ite (refl z) h

theorem bind {o o' : Access β} {k k' : β → Access (Except DrmuError α)}
    (ho : o = o' ∨ ∃ e, o.bind k = some (.error e)) (hk : ∀ r, Weakens (k r) (k' r)) :
    Weakens (o.bind k) (o'.bind k') := by
  rcases ho with rfl | he
  · cases o with
    | none => exact refl _
    | some r => exact hk r
  · exact .inr he

end Weakens

section

variable (lib : Library) (floats : FloatText) (doubles : List UInt8 → BitVec 64)

end

/-- A name with all that is escaped in it. -/
def DatarefUpdate.sample : DatarefUpdate where
  name := bytes "a\\:[b]"
  type := xplmTypeIntArray
  index := some 3
  values := [5, -1]
  base := some [7, 0]
  name_ne_nil := by decide
  name_free := by decide
  index_lt := by simp
  index_array := by decide
  values_of := ⟨by decide, by decide, by decide, by decide⟩
  base_of := by
    intro w hw
    obtain rfl := Option.some.inj hw
    exact ⟨⟨by decide, by decide, by decide, by decide⟩, rfl⟩

example : DatarefUpdate.sample.text .blank = bytes "int[]:a\\\\\\:\\[b][3]:2,5,-1:2,7,0" := by
  decide +kernel

end XprcServer
