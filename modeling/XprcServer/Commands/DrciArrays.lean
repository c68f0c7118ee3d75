import XprcServer.Arrays
import XprcServer.Decimal
import XprcServer.Lib.Refinement
import XprcServer.Protocol.Arrays

/-!
# Arrays hosted by DRCI

`command_drci.c`: X-Plane and other sessions read and write the arrays of a hosted dataref through
`drci_array_get` and `drci_array_update`.  Both cut the number of items at the end of the array,
the one by the length of the array itself, the other by the length that was requested when the
command was created.  The size of what `drci_array_get` copies is a product of two `int`s, which
wraps around from `2 ^ 29` integers on.

* `drciArrays_follow_spec` : in calls that do not copy that many integers, every access is within
  the arrays and buffers, and each call does what `DrciArrayCall.Spec` says of it;
* `drciArrays_follow_spec_iff` : so it is for all calls on a command iff it hosts fewer integers
  than that, or a blob.
-/

namespace XprcServer

open Lib

/-- `drci_echo_mode_t` -/
inductive DrciEchoMode where
  | none
  | xplane
  | other
  | all
  deriving DecidableEq, Repr

/-- `drci_intconv_mode_t` -/
inductive DrciIntconvMode where
  | notSet
  | round
  | floor
  | ceil
  deriving DecidableEq, Repr

/-- How the machine converts numbers; a floating-point number is the word of its bits. -/
structure NumberConversion where
  intToFloat : BitVec 32 → BitVec 32
  intToDouble : BitVec 32 → BitVec 64
  floatToDouble : BitVec 32 → BitVec 64
  doubleToFloat : BitVec 64 → BitVec 32
  /-- `float2int` -/
  float2int : BitVec 32 → DrciIntconvMode → BitVec 32
  /-- `double2int` -/
  double2int : BitVec 64 → DrciIntconvMode → BitVec 32

/-- A number that is set, with its type -/
inductive XpNumber where
  | int (value : BitVec 32)
  | float (value : BitVec 32)
  | double (value : BitVec 64)
  deriving DecidableEq, Repr

/-- What the three pointers of `apply_value` point to; NULL is `none`. -/
structure StoredNumbers where
  int : Option (BitVec 32)
  float : Option (BitVec 32)
  double : Option (BitVec 64)
  deriving DecidableEq, Repr

/-- `command_drci_t`, with what the calls on its arrays use -/
structure CommandDrciArrays where
  session : ℕ
  types : BitVec 32
  echoMode : DrciEchoMode
  intconvMode : DrciIntconvMode
  arrayLength : ℤ
  valuesInt : Option DynamicArray
  valuesFloat : Option DynamicArray
  blob : Option DynamicArray
  deriving DecidableEq, Repr

namespace CommandDrciArrays

variable (c : CommandDrciArrays)

/-- `create_dynamic_array` and `dynamic_array_set_length` in `drci_create`, if the type is hosted;
the items are zero.  Nothing if there is no memory. -/
def createArray (types type : BitVec 32) (itemSize : ℕ) (arrayLength : ℤ) (allocated : Bool) :
    Option (Option DynamicArray) :=
  if types &&& type ≠ 0 then
    if allocated then some (some ⟨itemSize, List.replicate arrayLength.toNat 0⟩) else none
  else some none

/-- The arrays that `drci_create` sets up for a command. -/
def create (session : ℕ) (types : BitVec 32) (echoMode : DrciEchoMode)
    (intconvMode : DrciIntconvMode)
    (arrayLength : ℤ) (allocated : Bool) : Option CommandDrciArrays := do
  let valuesInt ← createArray types xplmTypeIntArray 4 arrayLength allocated
  let valuesFloat ← createArray types xplmTypeFloatArray 4 arrayLength allocated
  let blob ← createArray types xplmTypeData 1 arrayLength allocated
  return ⟨session, types, echoMode, intconvMode, arrayLength, valuesInt, valuesFloat, blob⟩

/-- `should_echo` -/
def shouldEcho (sourceSession : Option ℕ) : Bool :=
  if c.echoMode = .none then false
  else if c.echoMode = .other then sourceSession ≠ some c.session
  else sourceSession = none || c.echoMode = .all

end CommandDrciArrays

/-- `apply_value` -/
def applyValue (conv : NumberConversion) (value : XpNumber) (stored : StoredNumbers)
    (intconvMode : DrciIntconvMode) : StoredNumbers :=
  match value with
  | .int v =>
    ⟨stored.int.map fun _ => v, stored.float.map fun _ => conv.intToFloat v,
      stored.double.map fun _ => conv.intToDouble v⟩
  | .float v =>
    ⟨stored.int.map fun _ => conv.float2int v intconvMode, stored.float.map fun _ => v,
      stored.double.map fun _ => conv.floatToDouble v⟩
  | .double v =>
    ⟨stored.int.map fun _ => conv.double2int v intconvMode,
      stored.float.map fun _ => conv.doubleToFloat v, stored.double.map fun _ => v⟩

/-- `get_actual_count` -/
def getActualCount (length offset count : ℤ) : ErrorCode × ℤ :=
  let available := length - offset
  let outErr := if available < 1 then ErrorCode.unspecific else .none
  let actualCount := if available < count then available else count
  (outErr, if actualCount < 0 then 0 else actualCount)

namespace DynamicArray

/-- `dynamic_array_get_pointer`: the place of the item -/
def pointer (arr : DynamicArray) (index : ℤ) : Option ℕ :=
  if index < 0 ∨ index ≥ arr.items.length then none else some index.toNat

/-- What is at the place of an item of an array that may be missing -/
def itemAt (arr : Option DynamicArray) (index : ℤ) : Option (BitVec 32) := do
  let arr ← arr
  arr.items[← arr.pointer index]?

/-- An item is stored at its place, if there is one. -/
def storeAt (arr : Option DynamicArray) (index : ℤ) (item : Option (BitVec 32)) :
    Option DynamicArray :=
  match arr, item with
  | some arr, some item => some { arr with items := arr.items.set index.toNat item }
  | arr, _ => arr

end DynamicArray

namespace CommandDrciArrays

variable (c : CommandDrciArrays)

/-- The array of a type -/
def arrayOf (type : BitVec 32) : Option DynamicArray :=
  if type = xplmTypeIntArray then c.valuesInt
  else if type = xplmTypeFloatArray then c.valuesFloat
  else if type = xplmTypeData then c.blob
  else none

/-- The `type_size` of `drci_array_get` -/
def typeSize (type : BitVec 32) : ℕ :=
  if type = xplmTypeData then 1 else 4

/-- The number of items that `memcpy` copies in `drci_array_get`.  The size is the product of two
`int`s, which `memcpy` gets as a `size_t`. -/
def copiedItems (type : BitVec 32) (actualCount : ℤ) : ℕ :=
  (toInt32 (actualCount * typeSize type) % 2 ^ 64).toNat / typeSize type

/-- `drci_array_get`, with the lock of the command granted or refused.  `dest` is the memory at the
pointer and `numCopied` the number of items that is returned; the result are the error and these
two. -/
def arrayGet (locked : Bool) (type : BitVec 32) (dest : List (BitVec 32))
    (numCopied offset count : ℤ) :
    Access (ErrorCode × List (BitVec 32) × ℤ) :=
  if c.types &&& type = 0 ∨ offset < 0 ∨ count < 0 then some (.unspecific, dest, numCopied)
  else if count = 0 then some (.none, dest, 0)
  else if ¬ locked then some (.mutexFailed, dest, numCopied)
  else
    match c.arrayOf type with
    | none => some (.unspecific, dest, numCopied)
    | some arr =>
      let (outErr, actualCount) := getActualCount arr.items.length offset count
      match arr.pointer offset with
      | none => some (outErr, dest, 0)
      | some src =>
        if outErr = .none ∧ 0 < actualCount then do
          let dest ← Arrays.memcpyItems dest 0 arr.items src (copiedItems type actualCount)
          return (outErr, dest, actualCount)
        else some (outErr, dest, 0)

/-- The loop of `drci_array_update` with `n` items left, the next one from the place `k` of the
values. -/
def updateLoop (conv : NumberConversion) (srcType : BitVec 32) (values : List (BitVec 32)) :
    ℕ → ℤ → ℕ → CommandDrciArrays → Access CommandDrciArrays
  | 0, _, _, c => some c
  | n + 1, i, k, c => do
    let src ← values[k]?
    let value := if srcType = xplmTypeFloat then XpNumber.float src else .int src
    let stored := applyValue conv value
      ⟨DynamicArray.itemAt c.valuesInt i, DynamicArray.itemAt c.valuesFloat i, none⟩ c.intconvMode
    updateLoop conv srcType values n (i + 1) (k + 1)
      { c with
        valuesInt := DynamicArray.storeAt c.valuesInt i stored.int
        valuesFloat := DynamicArray.storeAt c.valuesFloat i stored.float }

/-- The `memcpy` of `drci_array_update` to a blob; the pointer is not checked. -/
def updateBlob (values : List (BitVec 32)) (offset actualCount : ℤ) : Access CommandDrciArrays := do
  let arr ← c.blob
  let dest ← arr.pointer offset
  let items ← Arrays.memcpyItems arr.items dest values 0 actualCount.toNat
  return { c with blob := some { arr with items := items } }

/-- The part of `drci_array_update` that stores the values -/
def storeValues (conv : NumberConversion) (type : BitVec 32) (values : List (BitVec 32))
    (offset actualCount : ℤ) : Access CommandDrciArrays :=
  if type = xplmTypeData then c.updateBlob values offset actualCount
  else
    let srcType := if type = xplmTypeFloatArray then xplmTypeFloat else xplmTypeInt
    updateLoop conv srcType values actualCount.toNat offset 0 c

/-- `drci_array_update`, with the lock of the command granted or refused.  The last part of the
result says whether the owner of the dataref is sent what `dump_values` writes of the values. -/
def arrayUpdate (conv : NumberConversion) (locked : Bool) (type : BitVec 32)
    (values : List (BitVec 32))
    (offset count : ℤ) (sourceSession : Option ℕ) : Access (ErrorCode × CommandDrciArrays × Bool) :=
  if c.types &&& type = 0 ∨ c.arrayLength < 0 ∨ offset < 0 ∨ count < 0 then
    some (.unspecific, c, false)
  else if count = 0 then some (.none, c, false)
  else if ¬ locked then some (.mutexFailed, c, false)
  else
    let (outErr, actualCount) := getActualCount c.arrayLength offset count
    if outErr ≠ .none ∨ actualCount ≤ 0 then some (outErr, c, false)
    else do
      let c ← c.storeValues conv type values offset actualCount
      return (outErr, c, c.shouldEcho sourceSession)

end CommandDrciArrays

/-! ### Calls -/

/-- A call on the arrays; `locked` says whether the lock of the command is granted. -/
inductive DrciArrayCall where
  | update (locked : Bool) (values : List (BitVec 32)) (offset count : ℤ) (sourceSession : Option ℕ)
  | get (locked : Bool) (dest : List (BitVec 32)) (numCopied offset count : ℤ)
  deriving DecidableEq, Repr

/-- What a call returns, and what is at its pointers then. -/
inductive DrciArrayReply where
  | updated (err : ErrorCode) (echoed : Bool)
  | got (err : ErrorCode) (dest : List (BitVec 32)) (numCopied : ℤ)
  deriving DecidableEq, Repr

namespace DrciArrayCall

/-- The call is made with a type. -/
def perform (conv : NumberConversion) (type : BitVec 32) (c : CommandDrciArrays) :
    DrciArrayCall → Access (DrciArrayReply × CommandDrciArrays)
  | .update locked values offset count sourceSession => do
    let (err, c, echoed) ← c.arrayUpdate conv locked type values offset count sourceSession
    return (.updated err echoed, c)
  | .get locked dest numCopied offset count => do
    let (err, dest, numCopied) ← c.arrayGet locked type dest numCopied offset count
    return (.got err dest numCopied, c)

/-- There are as many items at the pointer as the call says. -/
def Buffered : DrciArrayCall → Prop
  | .update _ values _ count _ => count ≤ values.length
  | .get _ dest _ _ count => count ≤ dest.length

instance (call : DrciArrayCall) : Decidable call.Buffered :=
  match call with
  | .update _ values _ count _ => inferInstanceAs (Decidable (count ≤ values.length))
  | .get _ dest _ _ count => inferInstanceAs (Decidable (count ≤ dest.length))

/-- The number of items a `get` is to copy -/
def numToCopy (locked : Bool) (len offset count : ℤ) : ℤ :=
  if locked ∧ 0 ≤ offset ∧ 0 < count ∧ offset < len then min count (len - offset) else 0

/-- The size of what a `get` copies from an array of a length is an `int`. -/
def Fits (type : BitVec 32) (len : ℕ) : DrciArrayCall → Prop
  | .update .. => True
  | .get locked _ _ offset count =>
    numToCopy locked len offset count * CommandDrciArrays.typeSize type < 2 ^ 31

/-- What a call does with the items of the hosted array.

* An update without an error has changed the items from `offset` on, `count` of them as far as there
  are that many, to the given values, and no others; one with an error has changed nothing.  There
  is an error iff items are to be changed from behind the end on, or the lock is refused.
* A `get` changes nothing in the array, and copies the items from `offset` on, `count` of them as
  far as there are that many, and nothing else. -/
def Spec (items : List (BitVec 32)) : DrciArrayCall → DrciArrayReply → List (BitVec 32) → Prop
  | .update locked values offset count _, .updated err _, items' =>
    items'.length = items.length ∧ (err ≠ .none → items' = items) ∧
      (err = .none → ∀ i : ℕ, items'[i]? =
        if offset ≤ i ∧ i < min (offset + count) items.length then values[i - offset.toNat]?
        else items[i]?) ∧
      (0 ≤ offset → 0 ≤ count →
        (err ≠ .none ↔ 0 < count ∧ (locked = false ∨ items.length ≤ offset)))
  | .get locked dest _ offset count, .got err dest' numCopied, items' =>
    items' = items ∧ dest'.length = dest.length ∧
      (∀ i : ℕ, dest'[i]? =
        if i < numToCopy locked items.length offset count then items[offset.toNat + i]? else
          dest[i]?) ∧
      (locked = true → 0 ≤ offset → 0 ≤ count →
        numCopied = numToCopy locked items.length offset count) ∧
      (0 ≤ offset → 0 ≤ count →
        (err ≠ .none ↔ 0 < count ∧ (locked = false ∨ items.length ≤ offset)))
  | _, _, _ => False

end DrciArrayCall

/-- The command hosts these items and nothing else, and the length that was requested is theirs. -/
inductive CommandDrciArrays.Hosts (c : CommandDrciArrays) : BitVec 32 → List (BitVec 32) → Prop
  | int (items : List (BitVec 32)) (types : c.types = xplmTypeIntArray)
      (length : c.arrayLength = items.length) (valuesInt : c.valuesInt = some ⟨4, items⟩)
      (valuesFloat : c.valuesFloat = none) : c.Hosts xplmTypeIntArray items
  | blob (items : List (BitVec 32)) (types : c.types = xplmTypeData)
      (length : c.arrayLength = items.length) (blob : c.blob = some ⟨1, items⟩) :
      c.Hosts xplmTypeData items

namespace CommandDrciArrays

variable {c : CommandDrciArrays} {type : BitVec 32} {items : List (BitVec 32)}

/-- What `drci_create` sets up for integers or a blob alone -/
theorem hosts_create {session : ℕ} {echoMode : DrciEchoMode} {intconvMode : DrciIntconvMode}
    {len : ℕ} {allocated : Bool} (htype : type = xplmTypeIntArray ∨ type = xplmTypeData)
    (h : create session type echoMode intconvMode len allocated = some c) :
    c.Hosts type (List.replicate len 0) := by
  cases allocated with
  | false => rcases htype with rfl | rfl <;> cases h
  | true =>
    rcases htype with rfl | rfl
    · obtain rfl := Option.some.inj h
      exact .int _ rfl (by simp) rfl rfl
    · obtain rfl := Option.some.inj h
      exact .blob _ rfl (by simp) rfl

theorem getActualCount_spec (length : ℤ) {offset count : ℤ} (hcount : 0 < count) :
    getActualCount length offset count =
      if offset < length then (.none, min count (length - offset)) else (.unspecific, 0) := by
  unfold getActualCount
  dsimp only
  split_ifs <;> simp <;> omega

theorem Hosts.arrayOf (h : c.Hosts type items) :
    c.types &&& type ≠ 0 ∧ c.arrayLength = items.length ∧ ∃ itemSize, c.arrayOf type =
      some ⟨itemSize, items⟩ := by
  cases h with
  | int _ types length valuesInt valuesFloat =>
    exact ⟨by rw [types]; decide, length, 4,
      by rw [CommandDrciArrays.arrayOf, if_pos rfl, valuesInt]⟩
  | blob _ types length blob =>
    exact ⟨by rw [types]; decide, length, 1, by
      rw [CommandDrciArrays.arrayOf, if_neg (by decide), if_neg (by decide), if_pos rfl, blob]⟩

theorem pointer_eq {arr : DynamicArray} {offset : ℤ} (hoffset : 0 ≤ offset) :
    arr.pointer offset = if offset < arr.items.length then some offset.toNat else none := by
  unfold DynamicArray.pointer
  split_ifs <;> first | rfl | omega

theorem spec_got_nothing {locked : Bool} {dest : List (BitVec 32)}
    {numCopied numCopied' offset count : ℤ}
    {err : ErrorCode} (hnone : DrciArrayCall.numToCopy locked items.length offset count = 0)
    (hnum : locked = true → 0 ≤ offset → 0 ≤ count → numCopied' = 0)
    (herr : 0 ≤ offset → 0 ≤ count →
      (err ≠ .none ↔ 0 < count ∧ (locked = false ∨ items.length ≤ offset))) :
    (DrciArrayCall.get locked dest numCopied offset count).Spec items
      (.got err dest numCopied') items := by
  refine ⟨rfl, rfl, fun i => ?_, fun hlocked hoffset hcount => ?_, herr⟩
  · rw [hnone, if_neg (by omega)]
  · rw [hnone, hnum hlocked hoffset hcount]

theorem copiedItems_of_lt {n : ℤ} (hn : 0 ≤ n) (h : n * typeSize type < 2 ^ 31) :
    copiedItems type n = n.toNat := by
  obtain ⟨n, rfl⟩ := Int.eq_ofNat_of_zero_le hn
  have hnonneg : 0 ≤ (n : ℤ) * typeSize type := Int.mul_nonneg hn (Int.natCast_nonneg _)
  rw [copiedItems, toInt32_of_lt (by omega) h]
  rw [typeSize] at h ⊢
  split_ifs at h ⊢ <;> omega

/-- **What a `get` does**, for every offset and count with which the size is an `int`. -/
theorem Hosts.arrayGet (h : c.Hosts type items) (locked : Bool) {dest : List (BitVec 32)}
    (numCopied offset : ℤ) {count : ℤ} (hbuffer : count ≤ dest.length)
    (hfits : (DrciArrayCall.get locked dest numCopied offset count).Fits type items.length) :
    ∃ err dest' numCopied', c.arrayGet locked type dest numCopied offset count =
        some (err, dest', numCopied') ∧
      (DrciArrayCall.get locked dest numCopied offset count).Spec items (.got err dest' numCopied')
        items := by
  obtain ⟨htypes, -, itemSize, harray⟩ := h.arrayOf
  have hnone : ¬ (locked = true ∧ 0 ≤ offset ∧ 0 < count ∧ offset < items.length) →
      DrciArrayCall.numToCopy locked items.length offset count = 0 := fun hnot => if_neg hnot
  unfold CommandDrciArrays.arrayGet
  by_cases hargs : offset < 0 ∨ count < 0
  · rw [if_pos (by tauto)]
    exact ⟨_, _, _, rfl, spec_got_nothing (hnone (by omega)) (fun _ _ _ => by omega) fun _ _ =>
      by omega⟩
  rw [if_neg (by tauto)]
  by_cases hzero : count = 0
  · rw [if_pos hzero]
    exact ⟨_, _, _, rfl, spec_got_nothing (hnone (by omega)) (fun _ _ _ => rfl)
      fun _ _ => by simp [hzero]⟩
  rw [if_neg hzero]
  cases locked with
  | false =>
    rw [if_pos (by decide)]
    exact ⟨_, _, _, rfl, spec_got_nothing (hnone (by simp)) (fun hlocked => nomatch hlocked)
      fun _ _ => by simp; omega⟩
  | true =>
    rw [if_neg (by decide), harray]
    dsimp only
    rw [getActualCount_spec _ (by omega), pointer_eq (by omega)]
    dsimp only
    by_cases hin : offset < items.length
    swap
    · rw [if_neg hin, if_neg hin]
      exact ⟨_, _, _, rfl, spec_got_nothing (hnone (by omega)) (fun _ _ _ => rfl)
        fun _ _ => by simp; omega⟩
    rw [if_pos hin, if_pos hin]
    dsimp only
    have hcopy : DrciArrayCall.numToCopy true items.length offset count =
        min count (items.length - offset) := if_pos (by simp; omega)
    obtain ⟨dest', hmemcpy, hlength, hcopied, hrest⟩ := Arrays.memcpyItems_spec
      (show 0 + (min count (items.length - offset)).toNat ≤ dest.length by omega)
      (show offset.toNat + (min count (items.length - offset)).toNat ≤ items.length by omega)
    have hsize : min count (items.length - offset) * typeSize type < 2 ^ 31 := by
      rw [DrciArrayCall.Fits, hcopy] at hfits
      exact hfits
    rw [if_pos ⟨rfl, by omega⟩, copiedItems_of_lt (by omega) hsize, hmemcpy]
    refine ⟨_, _, _, rfl, rfl, hlength, fun i => ?_, fun _ _ _ => hcopy.symm, fun _ _ => ?_⟩
    · rw [hcopy]
      by_cases hi : (i : ℤ) < min count (items.length - offset)
      · have hat := hcopied i (by omega) (by omega)
        rw [Int.natCast_zero, Int.zero_add, entry_natCast, ← Int.natCast_add, entry_natCast] at hat
        rw [if_pos hi, hat]
      · have hat := hrest i (by omega)
        rw [entry_natCast, entry_natCast] at hat
        rw [if_neg hi, hat]
    · simp
      omega

theorem itemAt_some {arr : DynamicArray} {j : ℕ} (h : j < arr.items.length) :
    DynamicArray.itemAt (some arr) j = some arr.items[j] := by
  rw [DynamicArray.itemAt, Option.bind_eq_bind, Option.bind_some, pointer_eq (Int.natCast_nonneg j),
    if_pos (by omega), Option.bind_eq_bind, Option.bind_some, Int.toNat_natCast,
    List.getElem?_eq_getElem h]

/-- The items `values[k], values[k + 1], ...` are stored from the place `j` on, `n` of them. -/
theorem updateLoop_eq (conv : NumberConversion) {values xs : List (BitVec 32)} {n j k : ℕ}
    (hint : c.valuesInt = some ⟨4, xs⟩) (hfloat : c.valuesFloat = none) (hxs : j + n ≤ xs.length)
    (hvalues : k + n ≤ values.length) :
    ∃ xs', updateLoop conv xplmTypeInt values n j k c = some { c with valuesInt := some ⟨4, xs'⟩ } ∧
      xs'.length = xs.length ∧
      ∀ m, xs'[m]? = if j ≤ m ∧ m < j + n then values[k + (m - j)]? else xs[m]? := by
  induction n generalizing c xs j k with
  | zero =>
    refine ⟨xs, ?_, rfl, fun m => ?_⟩
    · rw [updateLoop, ← hint]
    · rw [if_neg (by omega)]
  | succ n ih =>
    obtain ⟨xs', hloop, hlength, hxs'⟩ :=
      ih (c := { c with valuesInt := some ⟨4, xs.set j values[k]⟩ })
      rfl hfloat (show j + 1 + n ≤ (xs.set j values[k]).length by rw [List.length_set]; omega)
      (show k + 1 + n ≤ values.length by omega)
    refine ⟨xs', ?_, by rw [hlength, List.length_set], fun m => ?_⟩
    · rw [← hloop, updateLoop, List.getElem?_eq_getElem (by omega), Option.bind_eq_bind,
        Option.bind_some, hint, hfloat,
        itemAt_some (show j < (⟨4, xs⟩ : DynamicArray).items.length by dsimp only; omega)]
      rfl
    · rw [hxs']
      by_cases hm : m = j
      · subst hm
        rw [if_neg (by omega), if_pos (by omega), List.getElem?_set_self (by omega), Nat.sub_self,
          Nat.add_zero, List.getElem?_eq_getElem (by omega)]
      · rw [List.getElem?_set_ne (Ne.symm hm)]
        by_cases hin : j ≤ m ∧ m < j + (n + 1)
        · rw [if_pos (by omega), if_pos hin]
          congr 1
          omega
        · rw [if_neg (by omega), if_neg hin]

theorem Hosts.storeValues (h : c.Hosts type items) (conv : NumberConversion)
    {values : List (BitVec 32)}
    {offset actualCount : ℤ} (hoffset : 0 ≤ offset) (hcount : 0 < actualCount)
    (hroom : offset + actualCount ≤ items.length) (hvalues : actualCount ≤ values.length) :
    ∃ c' items', c.storeValues conv type values offset actualCount = some c' ∧
      c'.Hosts type items' ∧
      items'.length = items.length ∧
      ∀ i : ℕ, items'[i]? =
        if offset ≤ i ∧ i < offset + actualCount then values[i - offset.toNat]? else items[i]? := by
  cases h with
  | int _ types length valuesInt valuesFloat =>
    obtain ⟨j, rfl⟩ := Int.eq_ofNat_of_zero_le hoffset
    obtain ⟨n, rfl⟩ := Int.eq_ofNat_of_zero_le (Int.le_of_lt hcount)
    obtain ⟨items', hloop, hlength, hitems'⟩ := updateLoop_eq conv valuesInt valuesFloat
      (show j + n ≤ items.length by omega) (show 0 + n ≤ values.length by omega)
    refine ⟨{ c with valuesInt := some ⟨4, items'⟩ }, items', ?_,
      .int items' types (by rw [hlength]; exact length)
      rfl valuesFloat, hlength, fun i => ?_⟩
    · rw [CommandDrciArrays.storeValues, if_neg (by decide), if_neg (by decide), Int.toNat_natCast]
      exact hloop
    · rw [hitems', Nat.zero_add, Int.toNat_natCast]
      by_cases hi : j ≤ i ∧ i < j + n
      · rw [if_pos hi, if_pos (by omega)]
      · rw [if_neg hi, if_neg (by omega)]
  | blob _ types length blob =>
    obtain ⟨items', hmemcpy, hlength, hcopied, hrest⟩ := Arrays.memcpyItems_spec
      (show offset.toNat + actualCount.toNat ≤ items.length by omega)
      (show 0 + actualCount.toNat ≤ values.length by omega)
    refine ⟨{ c with blob := some ⟨1, items'⟩ }, items', ?_, .blob items' types
      (by rw [hlength]; exact length) rfl, hlength, fun i => ?_⟩
    · rw [CommandDrciArrays.storeValues, if_pos rfl, updateBlob, blob, Option.bind_eq_bind,
        Option.bind_some, pointer_eq hoffset, if_pos (by dsimp only; omega), Option.bind_eq_bind,
        Option.bind_some, hmemcpy]
      rfl
    · by_cases hi : offset ≤ i ∧ i < offset + actualCount
      · have hat := hcopied (i - offset.toNat : ℕ) (by omega) (by omega)
        rw [← Int.natCast_add, entry_natCast, Int.natCast_zero, Int.zero_add, entry_natCast] at hat
        rw [if_pos hi, ← hat]
        congr 1
        omega
      · have hat := hrest i (by omega)
        rw [entry_natCast, entry_natCast] at hat
        rw [if_neg hi, hat]

theorem spec_updated_nothing {locked : Bool} {values : List (BitVec 32)} {offset count : ℤ}
    {source : Option ℕ} {err : ErrorCode} {echoed : Bool} (hnone : err = .none → count ≤ 0)
    (herr : 0 ≤ offset → 0 ≤ count →
      (err ≠ .none ↔ 0 < count ∧ (locked = false ∨ items.length ≤ offset))) :
    (DrciArrayCall.update locked values offset count source).Spec items
      (.updated err echoed) items := by
  refine ⟨rfl, fun _ => rfl, fun hok i => ?_, herr⟩
  have hcount := hnone hok
  rw [if_neg (by omega)]

/-- **What an update does**, for every offset and count. -/
theorem Hosts.arrayUpdate (h : c.Hosts type items) (conv : NumberConversion) (locked : Bool)
    {values : List (BitVec 32)} (offset : ℤ) {count : ℤ} (source : Option ℕ)
    (hbuffer : count ≤ values.length) :
    ∃ err c' echoed items', c.arrayUpdate conv locked type values offset count source =
        some (err, c', echoed) ∧ c'.Hosts type items' ∧
      (DrciArrayCall.update locked values offset count source).Spec items
        (.updated err echoed) items' := by
  obtain ⟨htypes, hlength, -⟩ := h.arrayOf
  unfold CommandDrciArrays.arrayUpdate
  by_cases hargs : offset < 0 ∨ count < 0
  · rw [if_pos (by tauto)]
    exact ⟨_, c, _, items, rfl, h, spec_updated_nothing (fun hok => nomatch hok) fun _ _ =>
      by omega⟩
  rw [if_neg (by rw [not_or, not_or]; exact ⟨htypes, by omega, hargs⟩)]
  by_cases hzero : count = 0
  · rw [if_pos hzero]
    exact ⟨_, c, _, items, rfl, h, spec_updated_nothing (fun _ => by omega) fun _ _ =>
      by simp [hzero]⟩
  rw [if_neg hzero]
  cases locked with
  | false =>
    rw [if_pos (by decide)]
    exact ⟨_, c, _, items, rfl, h, spec_updated_nothing (fun hok => nomatch hok)
      fun _ _ => by simp; omega⟩
  | true =>
    rw [if_neg (by decide), getActualCount_spec _ (by omega), hlength]
    by_cases hin : offset < items.length
    swap
    · rw [if_neg hin]
      exact ⟨_, c, _, items, rfl, h, spec_updated_nothing (fun hok => nomatch hok)
        fun _ _ => by simp; omega⟩
    rw [if_pos hin]
    dsimp only
    obtain ⟨c', items', hstore, hhosts, hlength', hitems'⟩ := h.storeValues conv
      (show 0 ≤ offset by omega) (show 0 < min count (items.length - offset) by omega) (by omega)
      (show _ ≤ (values.length : ℤ) by omega)
    rw [if_neg (by simp; omega), hstore]
    refine ⟨_, c', _, items', rfl, hhosts, hlength', fun herr => absurd rfl herr, fun _ i => ?_,
      fun _ _ => ?_⟩
    · rw [hitems']
      by_cases hi : offset ≤ i ∧ i < offset + min count (items.length - offset)
      · rw [if_pos hi, if_pos (by omega)]
      · rw [if_neg hi, if_neg (by omega)]
    · simp
      omega

end CommandDrciArrays

/-- No access of the calls fails, and each does what is said of it on the items that the calls
before it have left, `len` zeros at first. -/
def DrciArrayCall.FollowSpec (conv : NumberConversion) (type : BitVec 32) (len : ℕ)
    (c : CommandDrciArrays) (calls : List DrciArrayCall) : Prop :=
  ∃ replies c' items,
    performAll (fun c call => DrciArrayCall.perform conv type c call) c calls =
      some (replies, c') ∧
    Steps (fun items call => DrciArrayCall.Spec items call) (List.replicate len 0) calls replies
      items ∧
    c'.Hosts type items ∧ items.length = len

/-- **Calls that do not copy too much do what is said of them.** For a command that hosts only
integers or only a blob, of any length, and for every sequence of calls whose buffers are large
enough. -/
theorem drciArrays_follow_spec {session : ℕ} {type : BitVec 32} {echoMode : DrciEchoMode}
    {intconvMode : DrciIntconvMode} {len : ℕ} {allocated : Bool} {c : CommandDrciArrays}
    (htype : type = xplmTypeIntArray ∨ type = xplmTypeData)
    (hcreate : CommandDrciArrays.create session type echoMode intconvMode len allocated = some c)
    (conv : NumberConversion) {calls : List DrciArrayCall}
    (hcalls : ∀ call ∈ calls, call.Buffered ∧ call.Fits type len) :
    DrciArrayCall.FollowSpec conv type len c calls := by
  have hstep : ∀ (c : CommandDrciArrays) items (call : DrciArrayCall),
      call.Buffered ∧ call.Fits type len → c.Hosts type items ∧ items.length = len →
      ∃ reply c' items', call.perform conv type c = some (reply, c') ∧
        call.Spec items reply items' ∧ c'.Hosts type items' ∧ items'.length = len := by
    rintro c items call ⟨hbuffer, hfits⟩ ⟨h, rfl⟩
    cases call with
    | update locked values offset count source =>
      obtain ⟨err, c', echoed, items', hupdate, h', hspec⟩ :=
        h.arrayUpdate conv locked offset source hbuffer
      exact ⟨_, c', items', by rw [DrciArrayCall.perform, hupdate]; rfl, hspec, h', hspec.1⟩
    | get locked dest numCopied offset count =>
      obtain ⟨err, dest', numCopied', hget, hspec⟩ :=
        h.arrayGet locked numCopied offset hbuffer hfits
      exact ⟨_, c, items, by rw [DrciArrayCall.perform, hget]; rfl, hspec, h, rfl⟩
  have hops : AdmissibleRun (fun _ (call : DrciArrayCall) => call.Buffered ∧ call.Fits type len)
      (fun c call => call.perform conv type c) c calls := admissibleRun_of_forall hcalls
  exact performAll_simulates hstep hops
    ⟨CommandDrciArrays.hosts_create htype hcreate, List.length_replicate⟩

/-- A call on fewer than `2 ^ 29` integers, or on a blob, copies nothing that does not fit. -/
theorem DrciArrayCall.fits_of_lt {type : BitVec 32} {len : ℕ}
    (htype : type = xplmTypeIntArray ∨ type = xplmTypeData) (hlen : len < 2 ^ 31)
    (hint : type = xplmTypeIntArray → len < 2 ^ 29)
    (call : DrciArrayCall) : call.Fits type len := by
  cases call with
  | update locked values offset count source => trivial
  | get locked dest numCopied offset count =>
    have hcopy : numToCopy locked len offset count ≤ len := by
      unfold numToCopy
      split_ifs <;> omega
    rcases htype with rfl | rfl
    · have hsize : CommandDrciArrays.typeSize xplmTypeIntArray = 4 := rfl
      have hlt := hint rfl
      rw [Fits, hsize]
      omega
    · have hsize : CommandDrciArrays.typeSize xplmTypeData = 1 := rfl
      rw [Fits, hsize]
      omega

/-! ### Too many integers -/

/-- The size of `2 ^ 29` integers or more is no `int`: `memcpy` is told to copy more than there is,
or fewer items than the caller is told. -/
theorem CommandDrciArrays.copiedItems_wraps {len : ℕ} (h : 2 ^ 29 ≤ len)
    (hlen : len < 2 ^ 31) :
    copiedItems xplmTypeIntArray len ≠ len := by
  have hbounds := toInt32_bounds (len * (4 : ℕ))
  rw [copiedItems, show typeSize xplmTypeIntArray = 4 from rfl]
  omega

/-- The `get` of everything: the memory at the pointer is full of ones. -/
def DrciArrayCall.getAll (len : ℕ) : DrciArrayCall :=
  .get true (List.replicate len 1) 0 0 len

theorem DrciArrayCall.buffered_getAll (len : ℕ) : (getAll len).Buffered := by
  rw [getAll, Buffered, List.length_replicate]

theorem CommandDrciArrays.Hosts.perform_getAll {c : CommandDrciArrays} {len : ℕ}
    (h : c.Hosts xplmTypeIntArray (List.replicate len 0)) (hlen : 0 < len)
    (conv : NumberConversion) :
    (DrciArrayCall.getAll len).perform conv xplmTypeIntArray c =
      (Arrays.memcpyItems (List.replicate len 1) 0 (List.replicate len 0) 0
        (copiedItems xplmTypeIntArray len)).bind fun dest => some (.got .none dest len, c) := by
  obtain ⟨htypes, -, itemSize, harray⟩ := h.arrayOf
  have hzeros : (List.replicate len (0 : BitVec 32)).length = len := List.length_replicate
  rw [DrciArrayCall.getAll, DrciArrayCall.perform, CommandDrciArrays.arrayGet,
    if_neg (by rw [not_or, not_or]; exact ⟨htypes, by omega, by omega⟩), if_neg (by omega),
    if_neg (by decide), harray]
  dsimp only
  rw [getActualCount_spec _ (by omega), pointer_eq le_rfl, hzeros, if_pos (by omega),
    if_pos (by omega), sub_zero, min_self]
  dsimp only
  rw [if_pos ⟨rfl, by omega⟩, Int.toNat_zero]
  cases Arrays.memcpyItems (List.replicate len (1 : BitVec 32)) 0 (List.replicate len 0) 0
      (copiedItems xplmTypeIntArray len) with
  | none => rfl
  | some dest => rfl

/-- From `2 ^ 29` integers on, a `get` of all of them fails, or leaves some of the caller's memory
as it was. -/
theorem CommandDrciArrays.Hosts.getAll_not_spec {c : CommandDrciArrays} {len : ℕ}
    (h : c.Hosts xplmTypeIntArray (List.replicate len 0)) (hlow : 2 ^ 29 ≤ len)
    (hlen : len < 2 ^ 31)
    (conv : NumberConversion) {reply : DrciArrayReply} {c' : CommandDrciArrays}
    {items : List (BitVec 32)}
    (hget : (DrciArrayCall.getAll len).perform conv xplmTypeIntArray c = some (reply, c')) :
    ¬ (DrciArrayCall.getAll len).Spec (List.replicate len 0) reply items := by
  have hzeros : (List.replicate len (0 : BitVec 32)).length = len := List.length_replicate
  have hones : (List.replicate len (1 : BitVec 32)).length = len := List.length_replicate
  have hwraps := copiedItems_wraps hlow hlen
  rw [h.perform_getAll (by omega)] at hget
  by_cases hfew : copiedItems xplmTypeIntArray len ≤ len
  swap
  · -- more than there is at either pointer
    rw [Arrays.memcpyItems, if_neg (by omega)] at hget
    cases hget
  -- the last item of the caller is not copied
  obtain ⟨dest, hmemcpy, -, -, hrest⟩ := Arrays.memcpyItems_spec
    (show 0 + copiedItems xplmTypeIntArray len ≤
      (List.replicate len (1 : BitVec 32)).length by omega)
    (show 0 + copiedItems xplmTypeIntArray len ≤
      (List.replicate len (0 : BitVec 32)).length by omega)
  rw [hmemcpy] at hget
  obtain ⟨rfl, rfl⟩ := Prod.mk.inj (Option.some.inj hget)
  rintro ⟨-, -, hcopied, -⟩
  have hlast := hcopied (len - 1)
  have hkept := hrest ((len - 1 : ℕ) : ℤ) (by omega)
  have hcopy : DrciArrayCall.numToCopy true len 0 len = len := by
    rw [DrciArrayCall.numToCopy, if_pos ⟨rfl, le_rfl, by omega, by omega⟩, sub_zero, min_self]
  rw [entry_natCast, entry_natCast] at hkept
  rw [hkept, hzeros, hcopy, if_pos (by omega), Int.toNat_zero, Nat.zero_add,
    List.getElem?_replicate, List.getElem?_replicate, if_pos (by omega), if_pos (by omega)] at hlast
  cases hlast

/-- **The calls on a hosted array do what is said of them iff it is a blob or has fewer than
`2 ^ 29` integers.** -/
theorem drciArrays_follow_spec_iff {session : ℕ} {type : BitVec 32} {echoMode : DrciEchoMode}
    {intconvMode : DrciIntconvMode} {len : ℕ} {allocated : Bool} {c : CommandDrciArrays}
    (htype : type = xplmTypeIntArray ∨ type = xplmTypeData) (hlen : len < 2 ^ 31)
    (hcreate : CommandDrciArrays.create session type echoMode intconvMode len allocated = some c)
    (conv : NumberConversion) :
    (∀ calls : List DrciArrayCall, (∀ call ∈ calls, call.Buffered) →
      DrciArrayCall.FollowSpec conv type len c calls) ↔
      (type = xplmTypeIntArray → len < 2 ^ 29) := by
  constructor
  · rintro h rfl
    by_contra hlow
    obtain ⟨replies, c', items, hall, hsteps, -⟩ :=
      h [DrciArrayCall.getAll len] fun call hcall => by
      rw [List.mem_singleton.1 hcall]
      exact DrciArrayCall.buffered_getAll len
    have hhosts := CommandDrciArrays.hosts_create htype hcreate
    rw [performAll] at hall
    cases hget : (DrciArrayCall.getAll len).perform conv xplmTypeIntArray c with
    | none =>
      rw [hget] at hall
      cases hall
    | some result =>
      obtain ⟨reply, c'⟩ := result
      rw [hget] at hall
      obtain ⟨rfl, -⟩ := Prod.mk.inj (Option.some.inj hall)
      cases hsteps with
      | cons hspec hrest => exact hhosts.getAll_not_spec (by omega) hlen conv hget hspec
  · intro hint calls hcalls
    exact drciArrays_follow_spec htype hcreate conv fun call hcall =>
      ⟨hcalls call hcall, call.fits_of_lt htype hlen hint⟩

/-- A conversion that is not asked for -/
def noConversion : NumberConversion :=
  ⟨id, fun _ => 0, fun _ => 0, fun _ => 0, fun v _ => v, fun _ _ => 0⟩

/-- A command that hosts two integers -/
def twoHosted : CommandDrciArrays :=
  ⟨0, xplmTypeIntArray, .none, .round, 2, some ⟨4, [0, 0]⟩, none, none⟩

theorem drciArrays_follow_spec_two :
    DrciArrayCall.FollowSpec noConversion xplmTypeIntArray 2 twoHosted
      [.update true [5, 6, 7] 1 3 none, .get true [8, 8] 0 0 2] :=
  (drciArrays_follow_spec_iff (.inl rfl) (by decide)
    (show CommandDrciArrays.create 0 xplmTypeIntArray .none .round (2 : ℕ) true = some twoHosted
      from rfl) noConversion).2 (fun _ => by decide) _ (by decide)

/-- A command can be created that hosts `2 ^ 29` integers, and a `get` of all of them then leaves
the arrays. -/
theorem drciArrays_leave_array :
    ∃ c, CommandDrciArrays.create 0 xplmTypeIntArray .none .round (2 ^ 29 : ℕ) true = some c ∧
      (DrciArrayCall.getAll (2 ^ 29)).Buffered ∧
      performAll (fun c call => DrciArrayCall.perform noConversion xplmTypeIntArray c call) c
        [DrciArrayCall.getAll (2 ^ 29)] = none := by
  refine ⟨_, rfl, DrciArrayCall.buffered_getAll _, ?_⟩
  have hhosts := CommandDrciArrays.hosts_create (.inl rfl)
    (show CommandDrciArrays.create 0 xplmTypeIntArray .none .round (2 ^ 29 : ℕ) true = some _ from
      rfl)
  have hmemcpy : Arrays.memcpyItems (List.replicate (2 ^ 29) (1 : BitVec 32)) 0
      (List.replicate (2 ^ 29) 0) 0 (CommandDrciArrays.copiedItems xplmTypeIntArray (2 ^ 29 : ℕ)) =
      none := by
    rw [Arrays.memcpyItems, List.length_replicate, if_neg (by decide)]
  rw [performAll, hhosts.perform_getAll (by decide), hmemcpy]
  rfl

end XprcServer
