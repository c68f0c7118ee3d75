import XprcServer.Channels.Basic
import XprcServer.Decimal
import XprcServer.Lib.Rearrange

/-!
# Dynamic arrays

`arrays.c`: the items of a dynamic array are in one piece of memory, of which some are in use.  An
access outside of that memory fails.  Items are values of a type `α` here, all of one size, and
memory is counted in items, so that no product of a number of items and their size overflows; new
memory is filled with zeros.

`copyFromOther_spec` : a copy fails and changes nothing, or copies the items and changes as much of
the array as its flags allow; and when it does which.
-/

namespace XprcServer

namespace Arrays

open Lib

variable {α : Type}

/-- `dynamic_array_t` -/
structure DynamicArray (α : Type) where
  length : ℤ
  capacity : ℤ
  itemSize : ℕ
  data : List α
  deriving DecidableEq

/-- `DYNAMIC_ARRAY_COPY_ALL` -/
def copyAll : ℤ := -12836

/-- `memcpy` of `count` items from the place `j` of the one piece of memory to the place `i` of the
other -/
def memcpyItems (dest : List α) (i : ℕ) (src : List α) (j count : ℕ) : Access (List α) :=
  if i + count ≤ dest.length ∧ j + count ≤ src.length then
    some (dest.take i ++ ((src.drop j).take count ++ dest.drop (i + count)))
  else none

/-- `dynamic_array_get_pointer`: the place of the item -/
def getPointer (arr : DynamicArray α) (index : ℤ) : Option ℕ :=
  if index < 0 ∨ index ≥ arr.length then none else some index.toNat

section

variable (zero : α) (allocated : Bool)

/-- `dynamic_array_ensure_capacity`; `allocated` says whether there is memory. -/
def ensureCapacity (arr : DynamicArray α) (capacity : ℤ) : Access (Bool × DynamicArray α) :=
  if capacity < 0 then some (false, arr)
  else if capacity ≤ arr.capacity then some (true, arr)
  else if ¬ allocated then some (false, arr)
  else do
    let newData := List.replicate capacity.toNat zero
    -- where there was no capacity, nothing is copied
    let newData ← memcpyItems newData 0 arr.data 0 arr.capacity.toNat
    return (true, { arr with data := newData, capacity := capacity })

/-- `dynamic_array_set_length` -/
def setLength (arr : DynamicArray α) (length : ℤ) : Access (Bool × DynamicArray α) := do
  let (ensured, arr) ← ensureCapacity zero allocated arr length
  if ensured then return (true, { arr with length := length }) else return (false, arr)

/-- `create_dynamic_array`; `container` says whether there is memory for the container. -/
def createDynamicArray (container : Bool) (itemSize : ℕ) (initialCapacity : ℤ) :
    Access (Option (DynamicArray α)) :=
  if itemSize < 1 ∨ initialCapacity < 0 then some none
  else if ¬ container then some none
  else do
    let (ensured, arr) ← ensureCapacity zero allocated ⟨0, 0, itemSize, []⟩ initialCapacity
    return if ensured then some arr else none

/-- The end of `dynamic_array_copy_from_other`: the items are copied. -/
def copyItems (destArr : DynamicArray α) (destIndex : ℤ) (srcArr : DynamicArray α)
    (srcIndex count : ℤ) : Access (Bool × DynamicArray α) :=
  match getPointer destArr destIndex, getPointer srcArr srcIndex with
  | some destPtr, some srcPtr => do
    let data ← memcpyItems destArr.data destPtr srcArr.data srcPtr count.toNat
    return (true, { destArr with data := data })
  | _, _ => some (false, destArr)

/-- `dynamic_array_copy_from_other`.  The sum of an index and a number of items is an `int`. -/
def copyFromOther (destArr : DynamicArray α) (destIndex : ℤ) (srcArr : DynamicArray α)
    (srcIndex count : ℤ) (allowCapacityChange allowLengthChange : Bool) :
    Access (Bool × DynamicArray α) :=
  if destIndex < 0 ∨ srcIndex < 0 ∨ destArr.itemSize ≠ srcArr.itemSize then some (false, destArr)
  else
    let availableSrcItems := srcArr.length - srcIndex
    let count := if count = copyAll then availableSrcItems else count
    if count = 0 then some (true, destArr)
    else if count < 0 ∨ availableSrcItems < count then some (false, destArr)
    else
      let availableDestLength := destArr.length - destIndex
      if availableDestLength < count ∧ allowLengthChange = false then some (false, destArr)
      else
        let availableDestCapacity := destArr.capacity - destIndex
        if availableDestCapacity < count ∧ allowCapacityChange = false then some (false, destArr)
        else if availableDestLength < count then do
          let (resized, destArr) ← setLength zero allocated destArr (toInt32 (destIndex + count))
          if resized then copyItems destArr destIndex srcArr srcIndex count else
            return (false, destArr)
        else copyItems destArr destIndex srcArr srcIndex count

end

/-! ### Arrays in memory -/

namespace DynamicArray

/-- The memory has the capacity, and the items in use are in it. -/
structure WF (arr : DynamicArray α) : Prop where
  length_nonneg : 0 ≤ arr.length
  length_le : arr.length ≤ arr.capacity
  capacity_lt : arr.capacity < 2 ^ 31
  data : arr.data.length = arr.capacity

/-- An item in use -/
def item (arr : DynamicArray α) (k : ℤ) : Option α :=
  if k < arr.length then entry arr.data k else none

end DynamicArray

section

variable {zero : α} {allocated : Bool} {arr dest src : DynamicArray α}

/-- A sum of two numbers of an `int` has wrapped unless it is not negative. -/
theorem toInt32_of_nonneg {value : ℤ} (h : 0 ≤ toInt32 value) (hnonneg : 0 ≤ value)
    (hlt : value < 2 ^ 32) : toInt32 value = value := by
  by_cases hint : value < 2 ^ 31
  · exact toInt32_of_lt (by omega) hint
  · have hmod : value % (2 ^ 32 : ℕ) = value := Int.emod_eq_of_lt hnonneg (by omega)
    rw [toInt32, Int.bmod, hmod, if_neg (by omega)] at h
    omega

/-- What `memcpy` does: the part is that of the other piece of memory, and the rest is as it was. -/
theorem memcpyItems_spec {dst src : List α} {i j count : ℕ} (hdst : i + count ≤ dst.length)
    (hsrc : j + count ≤ src.length) :
    ∃ data, memcpyItems dst i src j count = some data ∧ data.length = dst.length ∧
      (∀ k : ℤ, 0 ≤ k → k < count → entry data (i + k) = entry src (j + k)) ∧
      ∀ k : ℤ, ¬ (i ≤ k ∧ k < i + count) → entry data k = entry dst k := by
  have htake : (dst.take i).length = i := by rw [List.length_take]; omega
  have hslice : ((src.drop j).take count).length = count := by
    rw [List.length_take, List.length_drop]
    omega
  refine ⟨_, if_pos ⟨hdst, hsrc⟩, ?_, fun k hk hlt => ?_, fun k hk => ?_⟩
  · rw [List.length_append, List.length_append, htake, hslice, List.length_drop]
    omega
  · obtain ⟨k, rfl⟩ := Int.eq_ofNat_of_zero_le hk
    rw [← Int.natCast_add, ← Int.natCast_add, entry_natCast, entry_natCast,
      List.getElem?_append_right (by omega), htake, List.getElem?_append_left (by omega),
      List.getElem?_take_of_lt (by omega), List.getElem?_drop]
    congr 1
    omega
  · by_cases hneg : k < 0
    · rw [entry, entry, if_neg (by omega), if_neg (by omega)]
    obtain ⟨k, rfl⟩ := Int.eq_ofNat_of_zero_le (Int.not_lt.1 hneg)
    rw [entry_natCast, entry_natCast]
    by_cases hfront : k < i
    · rw [List.getElem?_append_left (by omega), List.getElem?_take_of_lt hfront]
    · rw [List.getElem?_append_right (by omega), htake, List.getElem?_append_right (by omega),
        hslice, List.getElem?_drop]
      congr 1
      omega

variable (zero allocated) in
/-- What `dynamic_array_ensure_capacity` does: nothing, or the array is larger and has the same
items. -/
theorem ensureCapacity_spec (h : arr.WF) {capacity : ℤ} (hlt : capacity < 2 ^ 31) :
    ensureCapacity zero allocated arr capacity = some (false, arr) ∨
    0 ≤ capacity ∧ ∃ arr' : DynamicArray α, ensureCapacity zero allocated arr capacity =
      some (true, arr') ∧
      arr'.WF ∧ arr'.length = arr.length ∧ arr'.capacity = max arr.capacity capacity ∧
      ∀ k, k < arr.capacity → entry arr'.data k = entry arr.data k := by
  unfold ensureCapacity
  have hcapacity := h.data
  have hlength := h.length_le
  have hnonneg := h.length_nonneg
  by_cases hneg : capacity < 0
  · exact .inl (if_pos hneg)
  rw [if_neg hneg]
  by_cases hcovered : capacity ≤ arr.capacity
  · exact .inr ⟨by omega, arr, if_pos hcovered, h, rfl, by omega, fun _ _ => rfl⟩
  rw [if_neg hcovered]
  by_cases hallocated : allocated = true
  swap
  · exact .inl (if_pos hallocated)
  obtain ⟨data, hcopy, hdata, hcopied, -⟩ := memcpyItems_spec
    (show 0 + arr.capacity.toNat ≤ (List.replicate capacity.toNat zero).length by
      rw [List.length_replicate]; omega)
    (show 0 + arr.capacity.toNat ≤ arr.data.length by omega)
  rw [List.length_replicate] at hdata
  refine .inr ⟨by omega, ⟨arr.length, capacity, arr.itemSize, data⟩, ?_,
    ⟨h.length_nonneg, by dsimp only; omega, hlt, by dsimp only; omega⟩, rfl, by dsimp only; omega,
    fun k hk => ?_⟩
  · rw [if_neg (by simpa using hallocated)]
    dsimp only
    rw [hcopy]
    rfl
  · by_cases hkneg : k < 0
    · rw [entry, entry, if_neg (by omega), if_neg (by omega)]
    · have hk' := hcopied k (by omega) (by omega)
      rwa [Int.natCast_zero, Int.zero_add] at hk'

variable (zero allocated) in
theorem setLength_spec (h : arr.WF) {length : ℤ} (hlt : length < 2 ^ 31) :
    setLength zero allocated arr length = some (false, arr) ∨
    0 ≤ length ∧ ∃ arr' : DynamicArray α, setLength zero allocated arr length = some (true, arr') ∧
      arr'.WF ∧ arr'.length = length ∧ arr'.capacity = max arr.capacity length ∧
      ∀ k, k < arr.capacity → entry arr'.data k = entry arr.data k := by
  rcases ensureCapacity_spec zero allocated h hlt with
    hfailed | ⟨hnonneg, arr', hensured, hwf, -, hcapacity, hentries⟩
  · exact .inl (by rw [setLength, hfailed]; rfl)
  · refine .inr ⟨hnonneg, { arr' with length := length }, by rw [setLength, hensured]; rfl,
      ⟨hnonneg, ?_, hwf.capacity_lt, hwf.data⟩, rfl, hcapacity, hentries⟩
    dsimp only
    omega

theorem memcpyItems_front {data : List α} {n : ℕ} (h : data.length ≤ n) (zero : α) :
    memcpyItems (List.replicate n zero) 0 data 0 data.length =
      some (data ++ List.replicate (n - data.length) zero) := by
  simp [memcpyItems, h]

theorem setLength_of_le {length : ℤ} (hnonneg : 0 ≤ length) (hle : length ≤ arr.capacity) :
    setLength zero allocated arr length = some (true, { arr with length := length }) := by
  rw [setLength, ensureCapacity, if_neg (by omega), if_pos hle]
  rfl

/-- Without memory the array cannot become longer than its capacity. -/
theorem setLength_false {length : ℤ} (hnonneg : 0 ≤ length) (hlt : arr.capacity < length) :
    setLength zero false arr length = some (false, arr) := by
  rw [setLength, ensureCapacity, if_neg (by omega), if_neg (by omega), if_pos (by simp)]
  rfl

theorem setLength_of_lt {length : ℤ} (hdata : arr.data.length = arr.capacity)
    (hlt : arr.capacity < length) :
    setLength zero true arr length = some (true, ⟨length, length, arr.itemSize,
      arr.data ++ List.replicate (length.toNat - arr.data.length) zero⟩) := by
  have hcopy := memcpyItems_front (show arr.data.length ≤ length.toNat by omega) zero
  rw [setLength, ensureCapacity, if_neg (by omega), if_neg (by omega), if_neg (by simp), ← hdata,
    Int.toNat_natCast]
  dsimp only
  rw [hcopy]
  rfl

theorem createDynamicArray_of_pos {itemSize : ℕ} {initialCapacity : ℤ} (hsize : 1 ≤ itemSize)
    (hpos : 0 < initialCapacity) :
    createDynamicArray zero true true itemSize initialCapacity = some (some
      ⟨0, initialCapacity, itemSize, List.replicate initialCapacity.toNat zero⟩) := by
  have hcopy := memcpyItems_front
    (show ([] : List α).length ≤ initialCapacity.toNat from Nat.zero_le _) zero
  rw [createDynamicArray, if_neg (by omega), if_neg (by simp), ensureCapacity, if_neg (by omega),
    if_neg (by dsimp only; omega), if_neg (by simp)]
  dsimp only
  rw [Int.toNat_zero]
  rw [List.length_nil] at hcopy
  rw [hcopy]
  rfl

theorem copyItems_spec (hdest : dest.WF) (hsrc : src.WF) {destIndex srcIndex count : ℤ}
    (hdestIndex : 0 ≤ destIndex) (hsrcIndex : 0 ≤ srcIndex) (hcount : 0 < count)
    (hroom : destIndex + count ≤ dest.length) (hitems : srcIndex + count ≤ src.length) :
    ∃ data, copyItems dest destIndex src srcIndex count = some (true, { dest with data := data }) ∧
      data.length = dest.data.length ∧
      (∀ k : ℤ, 0 ≤ k → k < count → entry data (destIndex + k) = entry src.data (srcIndex + k)) ∧
      ∀ k : ℤ, ¬ (destIndex ≤ k ∧ k < destIndex + count) → entry data k = entry dest.data k := by
  have hdestData := hdest.data
  have hsrcData := hsrc.data
  have hdestLength := hdest.length_le
  have hsrcLength := hsrc.length_le
  obtain ⟨data, hcopy, hdata, hslice, hrest⟩ := memcpyItems_spec
    (show destIndex.toNat + count.toNat ≤ dest.data.length by omega)
    (show srcIndex.toNat + count.toNat ≤ src.data.length by omega)
  refine ⟨data, ?_, hdata, fun k hk hlt => ?_, fun k hk => ?_⟩
  · rw [copyItems, getPointer, getPointer, if_neg (by omega), if_neg (by omega)]
    dsimp only
    rw [hcopy]
    rfl
  · have hk' := hslice k hk (by omega)
    rwa [Int.toNat_of_nonneg hdestIndex, Int.toNat_of_nonneg hsrcIndex] at hk'
  · exact hrest k (by omega)

/-- The items were copied: the slice is that of the source, all else is as it was, and length and
capacity have changed only as far as they had to and were allowed to. -/
structure Copied (dest : DynamicArray α) (destIndex : ℤ) (src : DynamicArray α) (srcIndex n : ℤ)
    (allowCapacityChange allowLengthChange : Bool) (dest' : DynamicArray α) : Prop where
  slice : ∀ k, 0 ≤ k → k < n → dest'.item (destIndex + k) ≠ none ∧
    dest'.item (destIndex + k) = src.item (srcIndex + k)
  rest : ∀ k, k < dest.length → ¬ (destIndex ≤ k ∧ k < destIndex + n) → dest'.item k = dest.item k
  length : dest'.length = if n = 0 then dest.length else max dest.length (destIndex + n)
  length_allowed : dest'.length ≠ dest.length → allowLengthChange = true
  capacity_allowed : dest'.capacity ≠ dest.capacity → allowCapacityChange = true

/-- Nothing is copied. -/
theorem copied_zero (destIndex srcIndex : ℤ) (allowCapacityChange allowLengthChange : Bool) :
    Copied dest destIndex src srcIndex 0 allowCapacityChange allowLengthChange dest :=
  ⟨fun k hk hlt => by omega, fun _ _ _ => rfl, rfl, fun hne => absurd rfl hne,
    fun hne => absurd rfl hne⟩

/-- The slice is copied to an array that has room for it, and has the items of the destination. -/
theorem copied_of_copyItems (dest : DynamicArray α) (hsrc : src.WF) {grown : DynamicArray α}
    (hgrown : grown.WF) (destIndex srcIndex n : ℤ) (allowCapacityChange allowLengthChange : Bool)
    (hdestIndex : 0 ≤ destIndex)
    (hsrcIndex : 0 ≤ srcIndex) (hn : 0 < n) (hitems : srcIndex + n ≤ src.length)
    (hlength : grown.length = max dest.length (destIndex + n))
    (hentries : ∀ k, k < dest.length → entry grown.data k = entry dest.data k)
    (hlengthAllowed : dest.length < destIndex + n → allowLengthChange = true)
    (hcapacityAllowed : grown.capacity ≠ dest.capacity → allowCapacityChange = true) :
    ∃ dest', copyItems grown destIndex src srcIndex n = some (true, dest') ∧ dest'.WF ∧
      Copied dest destIndex src srcIndex n allowCapacityChange allowLengthChange dest' := by
  have hroom : destIndex + n ≤ grown.length := by omega
  obtain ⟨data, hcopy, hdata, hslice, hrest⟩ :=
    copyItems_spec hgrown hsrc hdestIndex hsrcIndex hn hroom hitems
  refine ⟨_, hcopy, ⟨hgrown.length_nonneg, hgrown.length_le, hgrown.capacity_lt,
    by rw [hdata, hgrown.data]⟩, ?_, fun k hk hout => ?_, ?_, fun hne => ?_, hcapacityAllowed⟩
  · intro k hk hlt
    have hsrcData := hsrc.data
    have hsrcLength := hsrc.length_le
    obtain ⟨a, ha⟩ := exists_entry (show 0 ≤ srcIndex + k by omega)
      (show srcIndex + k < src.data.length by omega)
    have hcopied : entry data (destIndex + k) = some a := by rw [hslice k hk hlt, ha]
    rw [DynamicArray.item, DynamicArray.item, if_pos (show destIndex + k < grown.length by omega),
      if_pos (show srcIndex + k < src.length by omega), hcopied, ha]
    exact ⟨Option.some_ne_none a, rfl⟩
  · rw [DynamicArray.item, DynamicArray.item, if_pos hk, if_pos (show k < grown.length by omega),
      hrest k hout, hentries k hk]
  · rw [if_neg (by omega)]
    exact hlength
  · refine hlengthAllowed ?_
    rw [hlength] at hne
    omega

/-- What it takes to copy `n` items: they are there, and the destination may become as large as it
has to, for which there is memory if it has to be moved. -/
structure Copyable (allocated : Bool) (dest : DynamicArray α) (destIndex : ℤ) (src : DynamicArray α)
    (srcIndex n : ℤ) (allowCapacityChange allowLengthChange : Bool) : Prop where
  destIndex_nonneg : 0 ≤ destIndex
  srcIndex_nonneg : 0 ≤ srcIndex
  itemSize : dest.itemSize = src.itemSize
  nonneg : 0 ≤ n
  items : n ≠ 0 → srcIndex + n ≤ src.length
  length_allowed : n ≠ 0 → dest.length < destIndex + n → allowLengthChange = true
  capacity_allowed : n ≠ 0 → dest.capacity < destIndex + n →
    allowCapacityChange = true ∧ allocated = true ∧ destIndex + n < 2 ^ 31

/-- The length can be set as far as there is memory. -/
theorem not_copyable_of_setLength (hdest : dest.WF) {destIndex srcIndex n : ℤ} (hn : n ≠ 0)
    {allowCapacityChange allowLengthChange : Bool}
    (hfailed : setLength zero allocated dest (toInt32 (destIndex + n)) = some (false, dest)) :
    ¬ Copyable allocated dest destIndex src srcIndex n allowCapacityChange allowLengthChange := by
  intro h
  have hcapacity := hdest.capacity_lt
  have hdestIndex := h.destIndex_nonneg
  have hnonneg := h.nonneg
  by_cases hcovered : destIndex + n ≤ dest.capacity
  · rw [toInt32_of_lt (by omega) (by omega), setLength_of_le (by omega) hcovered] at hfailed
    cases hfailed
  · obtain ⟨-, hallocated, hint⟩ := h.capacity_allowed hn (Int.not_le.1 hcovered)
    subst hallocated
    rw [toInt32_of_lt (by omega) hint, setLength_of_lt hdest.data (Int.not_le.1 hcovered)]
      at hfailed
    cases hfailed

/-- A destination that is too short is made longer, if that is possible, and copied to. -/
theorem copied_of_setLength (hdest : dest.WF) (hsrc : src.WF) {destIndex srcIndex n : ℤ}
    (hint : destIndex < 2 ^ 31) (hdestIndex : 0 ≤ destIndex) (hsrcIndex : 0 ≤ srcIndex)
    (hitems : srcIndex + n ≤ src.length) (hgrow : dest.length < destIndex + n) (hn : 0 < n)
    {allowCapacityChange allowLengthChange : Bool} (hlengthAllowed : allowLengthChange = true)
    (hcapacityAllowed : dest.capacity < destIndex + n → allowCapacityChange = true) :
    setLength zero allocated dest (toInt32 (destIndex + n)) = some (false, dest) ∨
      ∃ grown dest', setLength zero allocated dest (toInt32 (destIndex + n)) = some (true, grown) ∧
        copyItems grown destIndex src srcIndex n = some (true, dest') ∧ dest'.WF ∧
        Copied dest destIndex src srcIndex n allowCapacityChange allowLengthChange dest' ∧
        (dest.capacity < destIndex + n → allocated = true ∧ destIndex + n < 2 ^ 31) := by
  have hdestLength := hdest.length_le
  have hsrcLength := hsrc.length_le
  have hsrcCapacity := hsrc.capacity_lt
  have hsum := toInt32_bounds (destIndex + n)
  rcases setLength_spec zero allocated hdest hsum.2 with
    hfailed | ⟨hnonneg, grown, hset, hgrown, hlength, hcapacity, hentries⟩
  · exact .inl hfailed
  -- a sum that is no `int` would have been negative
  have hexact : toInt32 (destIndex + n) = destIndex + n :=
    toInt32_of_nonneg hnonneg (by omega) (by omega)
  rw [hexact] at hlength hcapacity hset
  obtain ⟨dest', hcopy, hwf, hcopied⟩ := copied_of_copyItems dest hsrc hgrown destIndex srcIndex n
    allowCapacityChange allowLengthChange (by omega) (by omega) (by omega) (by omega) (by omega)
    (fun k hk => hentries k (by omega)) (fun _ => hlengthAllowed)
    fun hne => hcapacityAllowed (by omega)
  refine .inr ⟨grown, dest', by rw [hexact, hset], hcopy, hwf, hcopied, fun hlt => ⟨?_, by omega⟩⟩
  cases allocated with
  | true => rfl
  | false =>
    rw [setLength_false (by omega) hlt] at hset
    cases hset

/-- **A copy is made completely or not at all**, and it is made if there is enough to copy, as much
room as is needed, and memory.  For every two arrays, indices and numbers of items, flags and
outcomes of the allocation. -/
theorem copyFromOther_spec (hdest : dest.WF) (hsrc : src.WF) {destIndex : ℤ}
    (hint : destIndex < 2 ^ 31) (srcIndex count : ℤ)
    (allowCapacityChange allowLengthChange : Bool) :
    let n := if count = copyAll then src.length - srcIndex else count
    ∃ copied dest', copyFromOther zero allocated dest destIndex src srcIndex count
        allowCapacityChange allowLengthChange = some (copied, dest') ∧ dest'.WF ∧
      (copied = false → dest' = dest) ∧
      (copied = true →
        Copied dest destIndex src srcIndex n allowCapacityChange allowLengthChange dest') ∧
      (copied = true ↔
        Copyable allocated dest destIndex src srcIndex n allowCapacityChange
          allowLengthChange) := by
  intro n
  have hdestLength := hdest.length_le
  have hrefused : ∀ {r : Access (Bool × DynamicArray α)}, r = some (false, dest) →
      ¬ Copyable allocated dest destIndex src srcIndex n allowCapacityChange allowLengthChange →
      ∃ copied dest', r = some (copied, dest') ∧ dest'.WF ∧ (copied = false → dest' = dest) ∧
        (copied = true →
          Copied dest destIndex src srcIndex n allowCapacityChange allowLengthChange dest') ∧
        (copied = true ↔
          Copyable allocated dest destIndex src srcIndex n allowCapacityChange allowLengthChange) :=
    fun hr hno => ⟨false, dest, hr, hdest, fun _ => rfl, (fun h => nomatch h),
      iff_of_false Bool.false_ne_true hno⟩
  unfold copyFromOther
  by_cases hargs : destIndex < 0 ∨ srcIndex < 0 ∨ dest.itemSize ≠ src.itemSize
  · refine hrefused (if_pos hargs) fun h => ?_
    have hdestIndex := h.destIndex_nonneg
    have hsrcIndex := h.srcIndex_nonneg
    rcases hargs with hlt | hlt | hsize
    · omega
    · omega
    · exact hsize h.itemSize
  rw [if_neg hargs]
  obtain ⟨hdestIndex, hsrcIndex, hsize⟩ : 0 ≤ destIndex ∧ 0 ≤ srcIndex ∧
      dest.itemSize = src.itemSize := by
    rw [not_or, not_or, not_not] at hargs
    exact ⟨by omega, by omega, hargs.2.2⟩
  dsimp only
  change ∃ copied dest', (if n = 0 then _ else _) = _ ∧ _
  by_cases hzero : n = 0
  · rw [if_pos hzero]
    refine ⟨true, dest, rfl, hdest, (fun h => nomatch h), fun _ => ?_, iff_of_true rfl
      ⟨hdestIndex, hsrcIndex, hsize, by omega, fun hne => absurd hzero hne,
        fun hne => absurd hzero hne, fun hne => absurd hzero hne⟩⟩
    rw [hzero]
    exact copied_zero ..
  rw [if_neg hzero]
  by_cases hcount : n < 0 ∨ src.length - srcIndex < n
  · refine hrefused (if_pos hcount) fun h => ?_
    have hnonneg := h.nonneg
    have hitems := h.items hzero
    omega
  rw [if_neg hcount]
  by_cases hdenied : dest.length - destIndex < n ∧ allowLengthChange = false
  · refine hrefused (if_pos hdenied) fun h => ?_
    have hallowed := h.length_allowed hzero (by omega)
    rw [hdenied.2] at hallowed
    cases hallowed
  rw [if_neg hdenied]
  by_cases hfull : dest.capacity - destIndex < n ∧ allowCapacityChange = false
  · refine hrefused (if_pos hfull) fun h => ?_
    have hallowed := (h.capacity_allowed hzero (by omega)).1
    rw [hfull.2] at hallowed
    cases hallowed
  rw [if_neg hfull]
  have hlengthAllowed : dest.length < destIndex + n → allowLengthChange = true := by
    intro hlt
    by_contra hdeny
    exact hdenied ⟨by omega, by simpa using hdeny⟩
  have hcapacityAllowed : dest.capacity < destIndex + n → allowCapacityChange = true := by
    intro hlt
    by_contra hdeny
    exact hfull ⟨by omega, by simpa using hdeny⟩
  by_cases hgrow : dest.length - destIndex < n
  swap
  · -- the items fit into the length
    rw [if_neg hgrow]
    obtain ⟨dest', hcopy, hwf, hcopied⟩ := copied_of_copyItems dest hsrc hdest destIndex srcIndex
      n allowCapacityChange allowLengthChange (by omega) (by omega) (by omega) (by omega) (by omega)
      (fun _ _ => rfl) hlengthAllowed fun hne => absurd rfl hne
    exact ⟨true, dest', hcopy, hwf, (fun h => nomatch h), fun _ => hcopied, iff_of_true rfl
      ⟨hdestIndex, hsrcIndex, hsize, by omega, fun _ => by omega, fun _ => hlengthAllowed,
        fun _ hlt => by omega⟩⟩
  rw [if_pos hgrow]
  rcases copied_of_setLength hdest hsrc hint hdestIndex hsrcIndex (by omega) (by omega) (by omega)
    (hlengthAllowed (by omega)) hcapacityAllowed with
    hfailed | ⟨grown, dest', hset, hcopy, hwf, hcopied, hallocated⟩
  · rw [hfailed]
    exact hrefused rfl (not_copyable_of_setLength hdest hzero hfailed)
  · rw [hset]
    exact ⟨true, dest', hcopy, hwf, (fun h => nomatch h), fun _ => hcopied, iff_of_true rfl
      ⟨hdestIndex, hsrcIndex, hsize, by omega, fun _ => by omega, fun _ => hlengthAllowed,
        fun _ hlt => ⟨hcapacityAllowed hlt, hallocated hlt⟩⟩⟩

end

/-- An array of two places of which one is in use -/
def oneItem : DynamicArray ℕ := ⟨1, 2, 4, [7, 0]⟩

/-- An array of two items -/
def twoItems : DynamicArray ℕ := ⟨2, 2, 4, [5, 6]⟩

/-- Both items are copied behind the one that is in use, for which the array has to grow. -/
theorem copyFromOther_spec_grown :
    ∃ dest', copyFromOther 0 true oneItem 1 twoItems 0 copyAll true true = some (true, dest') ∧
      dest'.WF ∧ dest'.length = 3 ∧ dest'.item 0 = some 7 ∧ dest'.item 1 = some 5 ∧
      dest'.item 2 = some 6 := by
  have hone : oneItem.WF := ⟨by decide, by decide, by decide, rfl⟩
  have htwo : twoItems.WF := ⟨by decide, by decide, by decide, rfl⟩
  obtain ⟨copied, dest', hrun, hwf, -, hcopied, hcopyable⟩ :=
    @copyFromOther_spec ℕ 0 true oneItem twoItems hone htwo 1 (by decide) 0 copyAll true true
  obtain rfl : copied = true := hcopyable.2
    ⟨by decide, by decide, rfl, by decide, fun _ => by decide, fun _ _ => rfl, fun _ _ => by decide⟩
  obtain ⟨hslice, hrest, hlength, -, -⟩ := hcopied rfl
  refine ⟨dest', hrun, hwf, hlength, hrest 0 (by decide) (by decide), ?_, ?_⟩
  · exact (hslice 0 (by decide) (by decide)).2
  · exact (hslice 1 (by decide) (by decide)).2

end Arrays

end XprcServer
