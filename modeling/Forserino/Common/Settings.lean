import Forserino.Qt.Utf8
import Mathlib.Data.List.Dedup
import Mathlib.Data.List.Perm.Basic

/-! The tree that the settings are kept in, as far as it is read and written by the paths of its values.
-/

set_option autoImplicit false

namespace Forserino.Common

open Qt

/-- A value, as far as one is read or written here. -/
inductive Setting where
  | string (text : StdString)
  | strings (texts : List StdString)
  deriving DecidableEq

/-- The keys on the way from the root, with an empty one in front. -/
def segments (path : StdString) : List StdString := path.splitOn '/'

/-- Neither path leads to the other. -/
def Apart (path other : StdString) : Prop := ¬ segments path <+: segments other ∧ ¬ segments other <+: segments path

/-- pajlada::Settings, for which a path is the keys on the way with slashes between them: what it does
with a path says nothing of the paths that are apart from it. -/
structure SettingManager (S : Type) where
  set : S → StdString → Setting → S
  /-- set with a value of kObjectType -/
  setObject : S → StdString → S
  get : S → StdString → Option Setting
  getObjectKeys : S → StdString → List StdString
  get_set : ∀ tree path value, get (set tree path value) path = some value
  get_set_apart : ∀ tree path other value, Apart path other → get (set tree path value) other = get tree other
  get_set_above : ∀ tree path above value, segments above <+: segments path → segments above ≠ segments path →
    get tree above = none → get (set tree path value) above = none
  get_setObject : ∀ tree path, get (setObject tree path) path = none
  keys_setObject : ∀ tree path, getObjectKeys (setObject tree path) path = []
  keys_set : ∀ tree path above value key rest, segments path = segments above ++ key :: rest → get tree above = none →
    (getObjectKeys (set tree path value) above).Perm ((getObjectKeys tree above).insert key)

theorem segments_append (front back : StdString) : segments (front ++ '/' :: back) = segments front ++ segments back :=
  List.splitOn_append_cons_self front back

theorem segments_plain {key : StdString} (plain : '/' ∉ key) : segments key = [key] := List.splitOn_eq_singleton plain

theorem segments_ne_nil (path : StdString) : segments path ≠ [] := List.splitOn_ne_nil '/' path

theorem slash_notMem_segments (path : StdString) : ∀ key ∈ segments path, '/' ∉ key := notMem_of_mem_splitOn '/' path

theorem Apart.symm {path other : StdString} (apart : Apart path other) : Apart other path := And.symm apart

/-- Of paths of one depth, no two lead to one another. -/
theorem apart_of_length {path other : StdString} (depth : (segments path).length = (segments other).length)
    (different : segments path ≠ segments other) : Apart path other :=
  ⟨fun leads => different (leads.eq_of_length depth), fun leads => different (leads.eq_of_length depth.symm).symm⟩

namespace SettingManager

variable {S : Type} (manager : SettingManager S)

/-- Setting<QString>::set -/
def setString (tree : S) (path : StdString) (text : QString) : S := manager.set tree path (.string (toUtf8 text))

/-- Setting<std::vector<QString>>::set -/
def setStrings (tree : S) (path : StdString) (texts : List QString) : S :=
  manager.set tree path (.strings (texts.map toUtf8))

/-- Setting<QString>::get -/
def getString (tree : S) (path : StdString) : QString :=
  match manager.get tree path with
  | some (.string text) => fromUtf8 text
  | _ => []

/-- Setting<std::vector<QString>>::get -/
def getStrings (tree : S) (path : StdString) : List QString :=
  match manager.get tree path with
  | some (.strings texts) => texts.map fromUtf8
  | _ => []

theorem wellFormed_getString (tree : S) (path : StdString) : WellFormed (manager.getString tree path) := by
  unfold getString
  split
  next text _ => exact ⟨text, rfl⟩
  next => exact ⟨[], rfl⟩

theorem wellFormed_getStrings (tree : S) (path : StdString) :
    ∀ text ∈ manager.getStrings tree path, WellFormed text := by
  unfold getStrings
  split
  next texts _ =>
    intro text member
    obtain ⟨stored, _, rfl⟩ := List.mem_map.mp member
    exact ⟨stored, rfl⟩
  next => simp

variable {manager} in
/-- A text without lone surrogates is read as it was written. -/
theorem getString_eq {tree : S} {path : StdString} {text : QString} (wellFormed : WellFormed text)
    (written : manager.get tree path = some (.string (toUtf8 text))) : manager.getString tree path = text := by
  rw [getString, written]
  exact fromUtf8_toUtf8 wellFormed

variable {manager} in
theorem getStrings_eq {tree : S} {path : StdString} {texts : List QString}
    (wellFormed : ∀ text ∈ texts, WellFormed text)
    (written : manager.get tree path = some (.strings (texts.map toUtf8))) : manager.getStrings tree path = texts := by
  rw [getStrings, written]
  exact map_fromUtf8_toUtf8 wellFormed

/-- The settings after several values are written. -/
def setAll (tree : S) (writes : List (StdString × Setting)) : S :=
  writes.foldl (fun tree write => manager.set tree write.1 write.2) tree

variable {manager} {tree : S} {writes : List (StdString × Setting)}

theorem setAll_flatMap {α : Type} (f : α → List (StdString × Setting)) (l : List α) :
    manager.setAll tree (l.flatMap f) = l.foldl (fun tree a => manager.setAll tree (f a)) tree := by
  induction l generalizing tree with
  | nil => rfl
  | cons a l ih =>
    rw [List.flatMap_cons, List.foldl_cons, ← ih]
    exact List.foldl_append

theorem get_setAll_apart {other : StdString} (apart : ∀ write ∈ writes, Apart write.1 other) :
    manager.get (manager.setAll tree writes) other = manager.get tree other := by
  induction writes generalizing tree with
  | nil => rfl
  | cons write writes ih =>
    rw [List.forall_mem_cons] at apart
    exact (ih apart.2).trans (manager.get_set_apart tree _ _ _ apart.1)

/-- What is written to paths that are apart can all be read. -/
theorem get_setAll (apart : writes.Pairwise fun write other => Apart write.1 other.1) {write : StdString × Setting}
    (member : write ∈ writes) : manager.get (manager.setAll tree writes) write.1 = some write.2 := by
  induction writes generalizing tree with
  | nil => cases member
  | cons first writes ih =>
    rw [List.pairwise_cons] at apart
    rcases List.mem_cons.mp member with rfl | member
    · have later : manager.get (manager.setAll (manager.set tree write.1 write.2) writes) write.1 =
          manager.get (manager.set tree write.1 write.2) write.1 :=
        get_setAll_apart fun other behind => (apart.1 other behind).symm
      exact later.trans (manager.get_set tree _ _)
    · exact ih apart.2 member

section Keys

variable {above : StdString} {key : StdString × Setting → StdString}

theorem get_set_below {path : StdString} {value : Setting} {first : StdString} {rest : List StdString}
    (below : segments path = segments above ++ first :: rest) (object : manager.get tree above = none) :
    manager.get (manager.set tree path value) above = none := by
  refine manager.get_set_above tree path above value (below ▸ List.prefix_append _ _) ?_ object
  intro same
  rw [below] at same
  simp at same

/-- A write below a path lists one more key there. -/
theorem mem_keys_setAll (below : ∀ write ∈ writes, ∃ rest, segments write.1 = segments above ++ key write :: rest)
    (object : manager.get tree above = none) {k : StdString} :
    k ∈ manager.getObjectKeys (manager.setAll tree writes) above ↔
      k ∈ manager.getObjectKeys tree above ∨ ∃ write ∈ writes, key write = k := by
  induction writes generalizing tree with
  | nil => simp [setAll]
  | cons write writes ih =>
    rw [List.forall_mem_cons] at below
    obtain ⟨⟨rest, shape⟩, below⟩ := below
    have stays : manager.get (manager.set tree write.1 write.2) above = none := get_set_below shape object
    have listed := (manager.keys_set tree write.1 above write.2 (key write) rest shape object).mem_iff (a := k)
    rw [setAll, List.foldl_cons, ← setAll, ih below stays, listed, List.mem_insert_iff, List.exists_mem_cons_iff,
      or_comm (a := k = key write), or_assoc, eq_comm (a := k)]

theorem nodup_keys_setAll (below : ∀ write ∈ writes, ∃ rest, segments write.1 = segments above ++ key write :: rest)
    (object : manager.get tree above = none) (distinct : (manager.getObjectKeys tree above).Nodup) :
    (manager.getObjectKeys (manager.setAll tree writes) above).Nodup := by
  induction writes generalizing tree with
  | nil => exact distinct
  | cons write writes ih =>
    rw [List.forall_mem_cons] at below
    obtain ⟨⟨rest, shape⟩, below⟩ := below
    refine ih below (get_set_below shape object) ?_
    exact (manager.keys_set tree write.1 above write.2 (key write) rest shape object).nodup_iff.mpr
      (List.Nodup.insert distinct)

end Keys

end SettingManager

/-! ## Settings that are kept in a list -/

/-- The values with the keys on the way to them. -/
abbrev Stored := List (List StdString × Setting)

namespace Stored

/-- The values that a path does not lead to or past. -/
def without (tree : Stored) (path : StdString) : Stored :=
  tree.filter fun entry => ¬ (segments path <+: entry.1 ∨ entry.1 <+: segments path)

def set (tree : Stored) (path : StdString) (value : Setting) : Stored := (segments path, value) :: tree.without path

def get (tree : Stored) (path : StdString) : Option Setting :=
  (tree.find? fun entry => entry.1 == segments path).map Prod.snd

/-- The next key on the way to a value below the path. -/
def nextKey (path : StdString) (entry : List StdString × Setting) : Option StdString :=
  if segments path <+: entry.1 then entry.1[(segments path).length]? else none

def getObjectKeys (tree : Stored) (path : StdString) : List StdString := (tree.filterMap (nextKey path)).dedup

variable {tree : Stored} {path other : StdString} {value : Setting}

theorem nextKey_eq_some {entry : List StdString × Setting} {key : StdString} :
    nextKey path entry = some key ↔ ∃ rest, entry.1 = segments path ++ key :: rest := by
  unfold nextKey
  constructor
  · intro found
    split at found
    next leads =>
      obtain ⟨behind, shape⟩ := leads
      rw [← shape, List.getElem?_append_right (Nat.le_refl _), Nat.sub_self, ← List.head?_eq_getElem?,
        List.head?_eq_some_iff] at found
      obtain ⟨rest, rfl⟩ := found
      exact ⟨rest, shape.symm⟩
    next => cases found
  · rintro ⟨rest, shape⟩
    rw [if_pos (shape ▸ List.prefix_append _ _), shape, List.getElem?_append_right (Nat.le_refl _), Nat.sub_self]
    rfl

theorem mem_getObjectKeys {key : StdString} :
    key ∈ tree.getObjectKeys path ↔ ∃ entry ∈ tree, ∃ rest, entry.1 = segments path ++ key :: rest := by
  simp only [getObjectKeys, List.mem_dedup, List.mem_filterMap, nextKey_eq_some]

theorem mem_without {entry : List StdString × Setting} :
    entry ∈ tree.without path ↔ entry ∈ tree ∧ ¬ segments path <+: entry.1 ∧ ¬ entry.1 <+: segments path := by
  simp [without]

theorem get_eq_none : tree.get path = none ↔ ∀ entry ∈ tree, entry.1 ≠ segments path := by
  simp [get]

theorem get_set_apart (apart : Apart path other) : (tree.set path value).get other = tree.get other := by
  have differ : (segments path == segments other) = false :=
    beq_eq_false_iff_ne.mpr fun same => apart.1 (same ▸ List.prefix_rfl)
  unfold get set without
  rw [List.find?_cons, differ]
  dsimp only
  rw [List.find?_filter]
  congr 2
  funext entry
  by_cases same : entry.1 = segments other
  · simp [same, apart.1, apart.2]
  · have absent : (entry.1 == segments other) = false := beq_eq_false_iff_ne.mpr same
    simp [absent]

/-- The key stays listed, or is listed by the new value, and the others are not touched. -/
theorem mem_getObjectKeys_set {key : StdString} {rest : List StdString}
    (below : segments path = segments other ++ key :: rest) {k : StdString} :
    k ∈ (tree.set path value).getObjectKeys other ↔ k = key ∨ k ∈ tree.getObjectKeys other := by
  simp only [mem_getObjectKeys, set, List.exists_mem_cons_iff, mem_without]
  constructor
  · rintro (⟨_, shape⟩ | ⟨entry, ⟨member, _⟩, listed⟩)
    · rw [below, List.append_cancel_left_eq, List.cons.injEq] at shape
      exact Or.inl shape.1.symm
    · exact Or.inr ⟨entry, member, listed⟩
  · rintro (rfl | ⟨entry, member, rest', shape⟩)
    · exact Or.inl ⟨rest, below⟩
    · by_cases same : k = key
      · exact Or.inl ⟨rest, same ▸ below⟩
      · refine Or.inr ⟨entry, ⟨member, ?_, ?_⟩, rest', shape⟩
        · rw [below, shape, List.prefix_append_right_inj, List.cons_prefix_cons]
          exact fun leads => same leads.1.symm
        · rw [below, shape, List.prefix_append_right_inj, List.cons_prefix_cons]
          exact fun leads => same leads.1

end Stored

/-- A list keeps the settings as the library does. -/
def stored : SettingManager Stored where
  set := Stored.set
  setObject := Stored.without
  get := Stored.get
  getObjectKeys := Stored.getObjectKeys
  get_set tree path value := by simp [Stored.set, Stored.get]
  get_set_apart _ _ _ _ apart := Stored.get_set_apart apart
  get_set_above tree path above value leads different object := by
    rw [Stored.get_eq_none] at object ⊢
    intro entry member
    rcases List.mem_cons.mp member with rfl | member
    · exact different.symm
    · exact object entry (Stored.mem_without.mp member).1
  get_setObject tree path := by
    rw [Stored.get_eq_none]
    intro entry member same
    exact (Stored.mem_without.mp member).2.1 (same ▸ List.prefix_rfl)
  keys_setObject tree path := by
    rw [List.eq_nil_iff_forall_not_mem]
    intro key listed
    obtain ⟨entry, member, rest, shape⟩ := Stored.mem_getObjectKeys.mp listed
    exact (Stored.mem_without.mp member).2.1 (shape ▸ List.prefix_append _ _)
  keys_set tree path above value key rest below _ := by
    refine (List.perm_ext_iff_of_nodup (List.nodup_dedup _) (List.Nodup.insert (List.nodup_dedup _))).mpr fun k => ?_
    rw [List.mem_insert_iff]
    exact Stored.mem_getObjectKeys_set below

end Forserino.Common
