import Mathlib.Data.List.AList

/-! Caches of limited size that drop the entry that was used the longest time ago. The entry that
was used last stands in front.
-/

set_option autoImplicit false

namespace Forserino.Foundation

universe u v

variable {K : Type u} {V : Type v}

structure LruCache (K : Type u) (V : Type v) (maxSize : Nat) where
  entries : AList fun _ : K => V
  bounded : entries.keys.length ≤ maxSize

namespace LruCache

variable {maxSize : Nat}

def empty (maxSize : Nat) : LruCache K V maxSize := ⟨∅, Nat.zero_le maxSize⟩

def size (cache : LruCache K V maxSize) : Nat := cache.entries.keys.length

/-- The keys and their values, the last one used in front. -/
def toList (cache : LruCache K V maxSize) : List (K × V) :=
  cache.entries.entries.map fun entry => (entry.1, entry.2)

instance : Membership K (LruCache K V maxSize) := ⟨fun cache key => key ∈ cache.entries⟩

theorem length_toList (cache : LruCache K V maxSize) : cache.toList.length = cache.size := by
  rw [toList, List.length_map, size, AList.keys, List.keys, List.length_map]

theorem size_le (cache : LruCache K V maxSize) : cache.size ≤ maxSize := cache.bounded

/-- Distinct keys that are all in the cache are no more than its size. -/
theorem length_le_size {cache : LruCache K V maxSize} {keys : List K} (distinct : keys.Nodup) (present : ∀ key ∈ keys, key ∈ cache) :
    keys.length ≤ cache.size :=
  (List.subperm_of_subset distinct present).length_le

/-- The cache is not larger than a list that has all of its keys. -/
theorem size_le_length {cache : LruCache K V maxSize} {keys : List K} (listed : ∀ key ∈ cache, key ∈ keys) : cache.size ≤ keys.length :=
  (List.subperm_of_subset cache.entries.keys_nodup listed).length_le

variable [DecidableEq K]

instance (key : K) (cache : LruCache K V maxSize) : Decidable (key ∈ cache) :=
  inferInstanceAs (Decidable (key ∈ cache.entries))

def lookup (cache : LruCache K V maxSize) (key : K) : Option V := cache.entries.lookup key

theorem length_keys_insert_le (entries : AList fun _ : K => V) (key : K) (value : V) :
    (entries.insert key value).keys.length ≤ entries.keys.length + 1 := by
  rw [AList.keys_insert, List.length_cons]
  exact Nat.succ_le_succ List.length_erase_le

/-- The entry comes to the front; if there are too many then, the last one is dropped. -/
def put (cache : LruCache K V maxSize) (key : K) (value : V) : LruCache K V maxSize :=
  let entries := cache.entries.insert key value
  if fits : entries.keys.length ≤ maxSize then ⟨entries, fits⟩
  else
    { entries := ⟨entries.entries.dropLast, entries.nodupKeys.sublist (List.dropLast_sublist _)⟩
      bounded := by
        have longer := Nat.le_trans (length_keys_insert_le cache.entries key value) (Nat.succ_le_succ cache.bounded)
        rw [AList.keys, List.keys, List.length_map] at longer ⊢
        rw [List.length_dropLast]
        exact Nat.sub_le_of_le_add longer }

/-- The value of the key, whose entry comes to the front. -/
def get (cache : LruCache K V maxSize) (key : K) : Option (V × LruCache K V maxSize) :=
  match found : cache.lookup key with
  | none => none
  | some value => some (value, {
      entries := cache.entries.insert key value
      bounded := by
        have member : key ∈ cache.entries.keys :=
          AList.lookup_isSome.mp (Option.isSome_iff_exists.mpr ⟨value, found⟩)
        rw [AList.keys_insert, List.length_cons, List.length_erase_of_mem member,
          Nat.sub_add_cancel (List.length_pos_of_mem member)]
        exact cache.bounded })

variable {cache : LruCache K V maxSize} {key other : K} {value found : V}

theorem mem_iff : key ∈ cache ↔ ∃ value, cache.lookup key = some value :=
  AList.lookup_isSome.symm.trans Option.isSome_iff_exists

theorem mem_toList_iff {entry : K × V} : entry ∈ cache.toList ↔ cache.lookup entry.1 = some entry.2 := by
  refine Iff.trans ?_ AList.mem_lookup_iff.symm
  constructor
  · intro listed
    obtain ⟨pair, member, rfl⟩ := List.mem_map.mp listed
    exact member
  · exact fun member => List.mem_map.mpr ⟨_, member, rfl⟩

theorem lookup_empty (key : K) : (empty maxSize : LruCache K V maxSize).lookup key = none :=
  AList.lookup_empty key

theorem lookup_insert_eq (entries : AList fun _ : K => V) (key other : K) (value : V) :
    (entries.insert key value).lookup other = if other = key then some value else entries.lookup other := by
  split
  case isTrue same => rw [same, AList.lookup_insert]
  case isFalse different => exact AList.lookup_insert_ne different

/-- Where there is room left, nothing is dropped. -/
theorem lookup_put (room : cache.size < maxSize) (key : K) (value : V) (other : K) :
    (cache.put key value).lookup other = if other = key then some value else cache.lookup other := by
  have fits := Nat.le_trans (length_keys_insert_le cache.entries key value) room
  rw [put, dif_pos fits]
  exact lookup_insert_eq cache.entries key other value

/-- What is in the cache then was put into it or was there before. -/
theorem lookup_put_some (present : (cache.put key value).lookup other = some found) :
    other = key ∧ found = value ∨ cache.lookup other = some found := by
  have inserted : (cache.entries.insert key value).lookup other = some found := by
    rw [put] at present
    split at present
    · exact present
    · have member := AList.mem_lookup_iff.mp (Option.mem_def.mpr present)
      exact Option.mem_def.mp (AList.mem_lookup_iff.mpr ((List.dropLast_sublist _).subset member))
  rw [lookup_insert_eq] at inserted
  split at inserted
  case isTrue same => exact .inl ⟨same, (Option.some.inj inserted).symm⟩
  case isFalse => exact .inr inserted

/-- To get a value changes the order at most. -/
theorem get_eq (cache : LruCache K V maxSize) (key : K) :
    (cache.lookup key = none ∧ cache.get key = none) ∨
      ∃ value used, cache.lookup key = some value ∧ cache.get key = some (value, used) ∧ used.lookup = cache.lookup := by
  rw [get]
  split
  case h_1 absent => exact .inl ⟨absent, rfl⟩
  case h_2 value found =>
    refine .inr ⟨value, _, found, rfl, ?_⟩
    funext other
    refine (lookup_insert_eq cache.entries key other value).trans ?_
    split
    case isTrue same => rw [same, found]
    case isFalse => rfl

end LruCache

end Forserino.Foundation
