import XprcServer.Basic
import XprcServer.Lib.Buckets

/-!
# Hash maps

`hashmap.c`: maps from C strings to values, in one linked list of items for each hash of two bytes.
Keys are compared by `strcmp`, so that only the part before the first NUL counts.
-/

namespace XprcServer

open Lib

/-- `ror8` -/
def ror8 (value : UInt8) (num : ℕ) : UInt8 := ⟨value.toBitVec.rotateRight num⟩

/-- The loop of `compute_hash` over the characters of the key from index `k` on. -/
def computeHashLoop (hash : ℕ → UInt8) : ℕ → List UInt8 → ℕ → UInt8
  | _, [] => hash
  | k, keyByte :: key =>
    computeHashLoop (Function.update hash (k % 2) (keyByte ^^^ ror8 (hash (k % 2)) 1)) (k + 1) key

/-- `compute_hash` with `HASH_BYTES` 2 -/
def computeHash (key : List UInt8) : UInt16 :=
  let hash := computeHashLoop (fun _ => 0) 0 key
  ((hash 0).toUInt16 <<< 8) + (hash 1).toUInt16

example : computeHash (bytes "ab") = 24930 ∧ computeHash (bytes "aba") = 53602 := by decide

/-- `hashmap_t` -/
abbrev Hashmap (ν : Type) := Buckets UInt16 (List UInt8) ν

namespace Hashmap

variable {ν : Type}

/-- `hashmap_get` -/
def get (map : Hashmap ν) (key : List UInt8) : Option ν :=
  Buckets.get computeHash map (cString key)

/-- `hashmap_put` when the allocations for a new item succeed -/
def put (map : Hashmap ν) (key : List UInt8) (value : ν) : Hashmap ν :=
  Buckets.put computeHash map (cString key) value

/-- The values in the order of the root items. -/
def toList (map : Hashmap ν) : List ν :=
  map.values ((List.range (2 ^ 16)).map UInt16.ofNat)

theorem get_put_self (map : Hashmap ν) (key : List UInt8) (value : ν) :
    (map.put key value).get key = some value :=
  Buckets.get_put_self computeHash map _ value

theorem get_put_of_ne (map : Hashmap ν) {key key' : List UInt8} (h : cString key' ≠ cString key)
    (value : ν) : (map.put key value).get key' = map.get key' :=
  Buckets.get_put_of_ne computeHash map h value

theorem get_congr (map : Hashmap ν) {key key' : List UInt8} (h : cString key' = cString key) :
    map.get key' = map.get key := by
  rw [get, get, h]

theorem mem_toList_put {map : Hashmap ν} {key : List UInt8} (h : map.get key = none) (value v : ν) :
    v ∈ (map.put key value).toList ↔ v = value ∨ v ∈ map.toList := by
  refine Buckets.mem_values_put computeHash (List.mem_map.2 ?_) h
  exact ⟨_, List.mem_range.2 (UInt16.toNat_lt _), UInt16.ofNat_toNat⟩

theorem mem_toList {map : Hashmap ν} {key : List UInt8} {value : ν} (h : map.get key = some value) :
    value ∈ map.toList := by
  refine Buckets.mem_values_of_get computeHash (List.mem_map.2 ?_) h
  exact ⟨_, List.mem_range.2 (UInt16.toNat_lt _), UInt16.ofNat_toNat⟩

/-- The keys of a map in the order of their hash values, if these differ -/
theorem keys_eq_of_hashes {map : Hashmap ν} {names : List (List UInt8)}
    (hmap : map.Proper computeHash)
    (hnames : names.Pairwise fun name name' => computeHash name < computeHash name')
    (hmem : ∀ name, name ∈ names ↔ (Buckets.get computeHash map name).isSome) :
    map.keys ((List.range (2 ^ 16)).map UInt16.ofNat) = names := by
  refine hmap.keys_eq (r := (· < ·)) (fun hash => ?_) ?_ (fun _ => UInt16.lt_irrefl _)
    (fun _ _ => UInt16.lt_asymm) hnames hmem
  · exact List.mem_map.2 ⟨hash.toNat, List.mem_range.2 hash.toNat_lt, UInt16.ofNat_toNat⟩
  · rw [List.pairwise_map]
    refine List.pairwise_lt_range.imp_of_mem ?_
    intro i j hi hj hlt
    rw [UInt16.lt_iff_toNat_lt, UInt16.toNat_ofNat_of_lt' (List.mem_range.1 hi),
      UInt16.toNat_ofNat_of_lt' (List.mem_range.1 hj)]
    exact hlt

end Hashmap

end XprcServer
