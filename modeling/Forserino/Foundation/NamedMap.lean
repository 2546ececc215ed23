import Mathlib.Data.List.AList
import Mathlib.Data.List.Induction

/-! Maps in which every value has a name, under which it is kept, and an id.

Values are looked up by name; the search for an id goes through the entries. The order
of the entries stands for the order in which the map is iterated.
-/

set_option autoImplicit false

namespace Forserino.Foundation

universe u v w

variable {Name : Type u} {Id : Type v} {Value : Type w} [DecidableEq Name]

abbrev NamedMap (Name : Type u) (Value : Type w) := AList fun _ : Name => Value

namespace NamedMap

section
variable [DecidableEq Id] (id : Value → Id)

/-- The first entry whose value has the id. -/
def findId (m : NamedMap Name Value) (wanted : Id) : Option (Name × Value) :=
  (m.entries.find? fun entry => id entry.2 = wanted).map fun entry => (entry.1, entry.2)

variable {id} {m : NamedMap Name Value} {wanted : Id}

theorem findId_some {key : Name} {value : Value} (found : m.findId id wanted = some (key, value)) :
    m.lookup key = some value ∧ id value = wanted := by
  obtain ⟨⟨name, held⟩, first, same⟩ := Option.map_eq_some_iff.mp found
  obtain ⟨rfl, rfl⟩ := Prod.mk.inj same
  constructor
  · exact AList.mem_lookup_iff.mpr (List.mem_of_find?_eq_some first)
  · simpa using List.find?_some first

theorem findId_none (missing : m.findId id wanted = none) {key : Name} {value : Value}
    (held : m.lookup key = some value) : id value ≠ wanted := by
  have search := List.find?_eq_none.mp (Option.map_eq_none_iff.mp missing)
  intro same
  exact search ⟨key, value⟩ (AList.mem_lookup_iff.mp held) (decide_eq_true same)

end

section
variable (name : Value → Name) (id : Value → Id)

/-- Every value is kept under its own name, and no id is held twice. -/
structure WellKeyed (m : NamedMap Name Value) : Prop where
  keyed : ∀ key value, m.lookup key = some value → name value = key
  single : ∀ key value other held, m.lookup key = some value → m.lookup other = some held → id value = id held →
    key = other

/-- Keep the value under its name, instead of what was there. -/
def put (m : NamedMap Name Value) (value : Value) : NamedMap Name Value := m.insert (name value) value

variable {name id} {m : NamedMap Name Value}

theorem lookup_put (m : NamedMap Name Value) (value : Value) (key : Name) :
    (m.put name value).lookup key = if key = name value then some value else m.lookup key := by
  unfold put
  split
  · next same => rw [same, AList.lookup_insert]
  · next differ => rw [AList.lookup_insert_ne differ]

theorem lookup_erase (m : NamedMap Name Value) (gone key : Name) :
    (m.erase gone).lookup key = if key = gone then none else m.lookup key := by
  split
  · next same => rw [same, AList.lookup_erase]
  · next differ => rw [AList.lookup_erase_ne differ]

theorem wellKeyed_empty : WellKeyed name id (∅ : NamedMap Name Value) := by
  constructor
  · intro key value held
    cases held
  · intro key value other held first
    cases first

theorem WellKeyed.erase (well : m.WellKeyed name id) (gone : Name) : WellKeyed name id (m.erase gone) := by
  have still {key : Name} {value : Value} (held : (m.erase gone).lookup key = some value) :
      m.lookup key = some value := by
    rw [lookup_erase] at held
    split at held
    · cases held
    · exact held
  constructor
  · exact fun key value held => well.keyed key value (still held)
  · exact fun key value other kept first second => well.single key value other kept (still first) (still second)

/-- A value may be put where no other name holds its id. -/
def Fresh (name : Value → Name) (id : Value → Id) (m : NamedMap Name Value) (value : Value) : Prop :=
  ∀ key held, m.lookup key = some held → id held = id value → key = name value

theorem WellKeyed.put (well : m.WellKeyed name id) {value : Value} (fresh : m.Fresh name id value) :
    WellKeyed name id (m.put name value) := by
  constructor
  · intro key held found
    rw [lookup_put] at found
    split at found
    · next same => rw [← Option.some.inj found, same]
    · exact well.keyed key held found
  · intro key held other kept first second same
    rw [lookup_put] at first second
    split at first
    · next here =>
      obtain rfl := Option.some.inj first
      split at second
      · next there => exact here.trans there.symm
      · exact here.trans (fresh other kept second same.symm).symm
    · split at second
      · next there =>
        obtain rfl := Option.some.inj second
        exact (fresh key held first same).trans there.symm
      · exact well.single key held other kept first second same

/-- A value whose id another name holds makes the id occur twice. -/
theorem not_wellKeyed_put {value : Value} (stale : ¬ m.Fresh name id value) :
    ¬ WellKeyed name id (m.put name value) := by
  intro well
  apply stale
  intro key held found same
  by_contra differ
  have there : (m.put name value).lookup key = some held := by rw [lookup_put, if_neg differ, found]
  have here : (m.put name value).lookup (name value) = some value := by rw [lookup_put, if_pos rfl]
  exact differ (well.single key held (name value) value there here same)

/-- Without the entry of an id no entry has the id. -/
theorem WellKeyed.erase_absent (well : m.WellKeyed name id) {gone : Name} {value : Value}
    (held : m.lookup gone = some value) {key : Name} {kept : Value} (found : (m.erase gone).lookup key = some kept) :
    id kept ≠ id value := by
  rw [lookup_erase] at found
  split at found
  · cases found
  · next differ => exact fun same => differ (well.single key kept gone value found held same)

end

/-! ## Filling a map -/

section
variable (name : Value → Name)

def load (values : List Value) : NamedMap Name Value := values.foldl (put name) ∅

/-- The last of the values with the name. -/
def latest (values : List Value) (key : Name) : Option Value := values.reverse.find? fun value => name value = key

variable {name}

theorem load_append (values : List Value) (value : Value) : load name (values ++ [value]) = (load name values).put name value :=
  List.foldl_concat _ _ value values

/-- A name holds the value that was put under it last. -/
theorem lookup_load (values : List Value) (key : Name) : (load name values).lookup key = latest name values key := by
  induction values using List.reverseRecOn with
  | nil => rfl
  | append_singleton values value ih =>
    rw [load_append, lookup_put, ih, latest, latest, List.reverse_concat, List.find?_cons]
    by_cases same : key = name value
    · simp [same]
    · have differ : ¬ name value = key := fun equal => same equal.symm
      simp [same, differ]

theorem latest_append (front back : List Value) (key : Name) :
    latest name (front ++ back) key = (latest name back key).or (latest name front key) := by
  unfold latest
  rw [List.reverse_append, List.find?_append]

theorem latest_middle (front : List Value) (value : Value) (back : List Value) (key : Name) :
    latest name (front ++ value :: back) key =
      (latest name back key).or (if name value = key then some value else latest name front key) := by
  rw [List.append_cons, latest_append, latest_append front]
  congr 1
  by_cases same : name value = key
  · simp [latest, same]
  · simp [latest, same]

theorem latest_eq_none {values : List Value} {key : Name} : latest name values key = none ↔ ∀ value ∈ values, name value ≠ key := by
  simp [latest]

theorem latest_some {values : List Value} {key : Name} {value : Value} (found : latest name values key = some value) :
    value ∈ values ∧ name value = key :=
  ⟨List.mem_reverse.mp (List.mem_of_find?_eq_some found), by simpa using List.find?_some found⟩

theorem latest_map {Source : Type*} (make : Source → Value) (sources : List Source) (key : Name) :
    latest name (sources.map make) key = (latest (name ∘ make) sources key).map make := by
  unfold latest
  rw [← List.map_reverse, List.find?_map]
  rfl

end

end NamedMap

end Forserino.Foundation
