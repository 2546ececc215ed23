import Forserino.Common.Settings
import Forserino.Common.SignalVectorModel
import Forserino.Hotkeys.Hotkey

/-! How the hotkeys are written to the settings and read from them, and which of them come back.
-/

set_option autoImplicit false

namespace Forserino.Hotkeys

open Common Foundation Qt

variable {S K : Type} (manager : SettingManager S) (keys : KeySequences K)

/-- SignalVector::append of the vector that is kept sorted. -/
def append (hotkeys_ : List (Hotkey K)) (hotkey : Hotkey K) : List (Hotkey K) :=
  hotkeys_.insertIdx (SignalVector.lowerBound hotkeySortCompare_ hotkeys_ hotkey) hotkey

/-- The hotkeys and the names of the defaults that were added. -/
def tryAddDefault (state : List (Hotkey K) × List QString) (hotkey : Hotkey K) : List (Hotkey K) × List QString :=
  if hotkey.name ∈ state.2 then state
  else (append state.1 hotkey, setInsert nameLess hotkey.name state.2)

def addDefaults (state : List (Hotkey K) × List QString) : List (Hotkey K) × List QString :=
  (defaults keys).foldl tryAddDefault state

/-- What the loop of saveHotkeys writes for a hotkey. -/
def saveHotkey (settings : S) (hotkey : Hotkey K) : S :=
  let path := "/hotkeys/".toList ++ toUtf8 hotkey.name
  let settings := manager.setString settings (path ++ "/action".toList) hotkey.action
  let settings := manager.setString settings (path ++ "/keySequence".toList) (keys.toString hotkey.keySequence)
  let settings := manager.setString settings (path ++ "/category".toList) (hotkeyCategoryName hotkey.category)
  manager.setStrings settings (path ++ "/arguments".toList) hotkey.arguments

def saveHotkeys (hotkeys_ : List (Hotkey K)) (settings : S) : S :=
  let defaultHotkeysAdded := manager.getStrings settings "/hotkeys/addedDefaults".toList
  -- the names that were just read are gone then
  let settings := manager.setObject settings "/hotkeys".toList
  let settings := manager.setStrings settings "/hotkeys/addedDefaults".toList defaultHotkeysAdded
  hotkeys_.foldl (saveHotkey manager keys) settings

/-- The hotkey that the loop of loadHotkeys makes of a key, if it makes one. -/
def loadHotkey (settings : S) (key : StdString) : Option (Hotkey K) :=
  if key = "addedDefaults".toList then none
  else
    let path := "/hotkeys/".toList ++ key
    let categoryName := manager.getString settings (path ++ "/category".toList)
    let keySequence := manager.getString settings (path ++ "/keySequence".toList)
    let action := manager.getString settings (path ++ "/action".toList)
    let arguments := manager.getStrings settings (path ++ "/arguments".toList)
    if categoryName.isEmpty || keySequence.isEmpty || action.isEmpty then none
    else
      (hotkeyCategoryFromName categoryName).map fun category =>
        ⟨category, keys.ofString keySequence, action, arguments, fromUtf8 key⟩

/-- The hotkeys of the controller, and the settings behind it. -/
def loadHotkeys (hotkeys_ : List (Hotkey K)) (settings : S) : List (Hotkey K) × S :=
  let defaultHotkeysAdded := manager.getStrings settings "/hotkeys/addedDefaults".toList
  let set := sortedSet nameLess defaultHotkeysAdded
  let numDefaultsFromSettings := set.length
  let objectKeys := manager.getObjectKeys settings "/hotkeys".toList
  let (hotkeys_, set) := addDefaults keys (hotkeys_, set)
  let numCombinedDefaults := set.length
  let settings := manager.setStrings settings "/hotkeys/addedDefaults".toList set
  let hotkeys_ := (objectKeys.filterMap (loadHotkey manager keys settings)).foldl append hotkeys_
  if numDefaultsFromSettings ≠ numCombinedDefaults then (hotkeys_, saveHotkeys manager keys hotkeys_ settings)
  else (hotkeys_, settings)

/-- The first hotkey that is equal in everything goes. -/
def tryRemoveDefault [DecidableEq K] (hotkeys_ : List (Hotkey K)) (hotkey : Hotkey K) : List (Hotkey K) :=
  hotkeys_.eraseP fun other => other.category == hotkey.category && other.keySequence == hotkey.keySequence &&
    other.action == hotkey.action && other.arguments == hotkey.arguments && other.name == hotkey.name

/-- The default that there is no more. -/
def toggleLiveTabs : Hotkey K :=
  ⟨.Window, keys.ofString (qs "Ctrl+Shift+L"), qs "setTabVisibility", [qs "toggleLiveOnly"],
    qs "toggle live tabs only"⟩

def clearRemovedDefaults [DecidableEq K] (hotkeys_ : List (Hotkey K)) : List (Hotkey K) :=
  tryRemoveDefault hotkeys_ (toggleLiveTabs keys)

/-- The constructor, which removes this hotkey after it has loaded all, leaves every other one. -/
theorem mem_clearRemovedDefaults [DecidableEq K] {hotkeys_ : List (Hotkey K)} {hotkey : Hotkey K}
    (other : hotkey ≠ toggleLiveTabs keys) : hotkey ∈ clearRemovedDefaults keys hotkeys_ ↔ hotkey ∈ hotkeys_ := by
  refine List.mem_eraseP_of_neg fun equal => other ?_
  simp only [Bool.and_eq_true, beq_iff_eq] at equal
  obtain ⟨⟨⟨⟨category, keySequence⟩, action⟩, arguments⟩, name⟩ := equal
  exact Hotkey.ext category keySequence action arguments name

/-- Every hotkey that was saved is loaded, and no other one but a default that was not recorded. -/
structure Survives (added : List QString) (saved loaded : List (Hotkey K)) : Prop where
  kept : ∀ hotkey ∈ saved, hotkey ∈ loaded
  others : ∀ hotkey ∈ loaded, hotkey ∈ saved ∨ hotkey ∈ defaults keys ∧ hotkey.name ∉ added

/-! ## What is written -/

/-- The paths that a hotkey is written to, with what is written there. -/
def writes (hotkey : Hotkey K) : List (StdString × Setting) :=
  let path := "/hotkeys/".toList ++ toUtf8 hotkey.name
  [(path ++ "/action".toList, .string (toUtf8 hotkey.action)),
    (path ++ "/keySequence".toList, .string (toUtf8 (keys.toString hotkey.keySequence))),
    (path ++ "/category".toList, .string (toUtf8 (hotkeyCategoryName hotkey.category))),
    (path ++ "/arguments".toList, .strings (hotkey.arguments.map toUtf8))]

/-- Everything that is written once the old hotkeys are gone. -/
def saveWrites (added : List QString) (hotkeys_ : List (Hotkey K)) : List (StdString × Setting) :=
  ("/hotkeys/addedDefaults".toList, .strings (added.map toUtf8)) :: hotkeys_.flatMap (writes keys)

variable {manager keys}

theorem saveHotkeys_eq (hotkeys_ : List (Hotkey K)) (settings : S) : saveHotkeys manager keys hotkeys_ settings =
    manager.setAll (manager.setObject settings "/hotkeys".toList)
      (saveWrites keys (manager.getStrings settings "/hotkeys/addedDefaults".toList) hotkeys_) := by
  rw [saveWrites, SettingManager.setAll, List.foldl_cons, ← SettingManager.setAll, SettingManager.setAll_flatMap]
  rfl

def fields : List StdString := ["action".toList, "keySequence".toList, "category".toList, "arguments".toList]

theorem segments_hotkeys : segments "/hotkeys".toList = [[], "hotkeys".toList] := by decide

theorem segments_addedDefaults :
    segments "/hotkeys/addedDefaults".toList = [[], "hotkeys".toList, "addedDefaults".toList] := by decide

theorem segments_below (key : StdString) :
    segments ("/hotkeys/".toList ++ key) = [] :: "hotkeys".toList :: segments key := by
  have parts : "/hotkeys/".toList ++ key = [] ++ '/' :: ("hotkeys".toList ++ '/' :: key) := rfl
  have hotkeys : segments "hotkeys".toList = ["hotkeys".toList] := segments_plain (by decide)
  rw [parts, segments_append, segments_append, hotkeys]
  rfl

/-- The name of a hotkey may be any number of keys. -/
theorem segments_writes (hotkey : Hotkey K) : (writes keys hotkey).map (fun write => segments write.1) =
    fields.map fun field => [] :: "hotkeys".toList :: (segments (toUtf8 hotkey.name) ++ [field]) := by
  have segments_field (field : StdString) (plain : '/' ∉ field) :
      segments (("/hotkeys/".toList ++ toUtf8 hotkey.name) ++ '/' :: field) =
        [] :: "hotkeys".toList :: (segments (toUtf8 hotkey.name) ++ [field]) := by
    rw [segments_append, segments_below, segments_plain plain]
    rfl
  have action := segments_field "action".toList (by decide)
  have keySequence := segments_field "keySequence".toList (by decide)
  have category := segments_field "category".toList (by decide)
  have arguments := segments_field "arguments".toList (by decide)
  simp only [writes, fields, List.map_cons, List.map_nil, ← action, ← keySequence, ← category, ← arguments]
  rfl

theorem segments_of_mem_writes {hotkey : Hotkey K} {write : StdString × Setting} (member : write ∈ writes keys hotkey) :
    ∃ field ∈ fields, segments write.1 = [] :: "hotkeys".toList :: (segments (toUtf8 hotkey.name) ++ [field]) := by
  have listed := List.mem_map_of_mem (f := fun write : StdString × Setting => segments write.1) member
  rw [segments_writes, List.mem_map] at listed
  obtain ⟨field, member, same⟩ := listed
  exact ⟨field, member, same.symm⟩

/-- The key below the hotkeys that a write belongs to. -/
def keyOf (write : StdString × Setting) : StdString := ((segments write.1).drop 2).headD []

theorem keyOf_eq {write : StdString × Setting} {key : StdString} {rest : List StdString}
    (shape : segments write.1 = [] :: "hotkeys".toList :: key :: rest) : keyOf write = key := by
  rw [keyOf, shape]
  rfl

theorem below_hotkeys {added : List QString} {hotkeys_ : List (Hotkey K)} : ∀ write ∈ saveWrites keys added hotkeys_,
    ∃ rest, segments write.1 = segments "/hotkeys".toList ++ keyOf write :: rest := by
  intro write member
  rw [segments_hotkeys]
  suffices ∃ key rest, segments write.1 = [] :: "hotkeys".toList :: key :: rest by
    obtain ⟨key, rest, shape⟩ := this
    exact ⟨rest, by rw [keyOf_eq shape, shape]; rfl⟩
  rcases List.mem_cons.mp member with rfl | member
  · exact ⟨"addedDefaults".toList, [], segments_addedDefaults⟩
  · obtain ⟨hotkey, _, member⟩ := List.mem_flatMap.mp member
    obtain ⟨field, _, shape⟩ := segments_of_mem_writes member
    obtain ⟨key, rest, parts⟩ := List.exists_cons_of_ne_nil (segments_ne_nil (toUtf8 hotkey.name))
    exact ⟨key, rest ++ [field], by rw [shape, parts]; rfl⟩

/-- The keys that are listed after the hotkeys were saved. -/
theorem mem_keys_saved {hotkeys_ : List (Hotkey K)} {settings : S} {key : StdString} :
    key ∈ manager.getObjectKeys (saveHotkeys manager keys hotkeys_ settings) "/hotkeys".toList ↔
      ∃ write ∈ saveWrites keys (manager.getStrings settings "/hotkeys/addedDefaults".toList) hotkeys_,
        keyOf write = key := by
  rw [saveHotkeys_eq, SettingManager.mem_keys_setAll below_hotkeys (manager.get_setObject _ _), manager.keys_setObject]
  simp

theorem nodup_keys_saved (hotkeys_ : List (Hotkey K)) (settings : S) :
    (manager.getObjectKeys (saveHotkeys manager keys hotkeys_ settings) "/hotkeys".toList).Nodup := by
  rw [saveHotkeys_eq]
  refine SettingManager.nodup_keys_setAll below_hotkeys (manager.get_setObject _ _) ?_
  rw [manager.keys_setObject]
  exact List.nodup_nil

/-- No listed key has a slash, whatever the names of the hotkeys are. -/
theorem plain_of_saved {hotkeys_ : List (Hotkey K)} {settings : S} {key : StdString}
    (listed : key ∈ manager.getObjectKeys (saveHotkeys manager keys hotkeys_ settings) "/hotkeys".toList) :
    '/' ∉ key := by
  obtain ⟨write, member, rfl⟩ := mem_keys_saved.mp listed
  obtain ⟨rest, shape⟩ := below_hotkeys write member
  exact slash_notMem_segments write.1 _ (by rw [shape]; simp)

/-! ## What is loaded -/

theorem append_perm (hotkeys_ : List (Hotkey K)) (hotkey : Hotkey K) :
    (append hotkeys_ hotkey).Perm (hotkey :: hotkeys_) :=
  List.perm_insertIdx hotkey hotkeys_ (List.takeWhile_sublist _).length_le

theorem foldl_append_perm (hotkeys_ others : List (Hotkey K)) :
    (others.foldl append hotkeys_).Perm (hotkeys_ ++ others) := by
  induction others generalizing hotkeys_ with
  | nil => rw [List.append_nil]; exact List.Perm.refl hotkeys_
  | cons hotkey others ih =>
    exact (ih _).trans (((append_perm hotkeys_ hotkey).append_right others).trans List.perm_middle.symm)

/-- Only names that are equal are equivalent. -/
theorem eq_of_nameLess (a b : QString) (notBefore : nameLess a b = false) (notBehind : nameLess b a = false) :
    a = b :=
  map_toNat_inj.mp (le_antisymm (lessBy_eq_false.mp notBehind) (lessBy_eq_false.mp notBefore))

/-- Of the defaults with one name the first one is added, if the name was not recorded. -/
theorem tryAddDefault_perm (hotkeys : List (Hotkey K)) {hotkeys_ : List (Hotkey K)} {set seen : List QString}
    (known : ∀ name, name ∈ seen ↔ name ∈ set) :
    (hotkeys.foldl tryAddDefault (hotkeys_, set)).1.Perm (hotkeys_ ++ firsts Hotkey.name seen hotkeys) := by
  induction hotkeys generalizing hotkeys_ set seen with
  | nil => rw [firsts, List.append_nil]; exact List.Perm.refl hotkeys_
  | cons hotkey hotkeys ih =>
    rw [List.foldl_cons, firsts, tryAddDefault]
    by_cases recorded : hotkey.name ∈ set
    · rw [if_pos recorded, if_pos ((known _).mpr recorded)]
      exact ih known
    · rw [if_neg recorded, if_neg fun member => recorded ((known _).mp member)]
      have knownBehind : ∀ name, name ∈ hotkey.name :: seen ↔ name ∈ setInsert nameLess hotkey.name set := by
        intro name
        rw [mem_setInsert_iff eq_of_nameLess, List.mem_cons, known]
      exact (ih knownBehind).trans (((append_perm hotkeys_ hotkey).append_right _).trans List.perm_middle.symm)

/-- The settings that the hotkeys are loaded from: the names of all defaults are recorded by then. -/
def recorded (manager : SettingManager S) (keys : KeySequences K) (hotkeys_ : List (Hotkey K)) (settings : S) : S :=
  manager.setStrings settings "/hotkeys/addedDefaults".toList
    (addDefaults keys (hotkeys_, sortedSet nameLess (manager.getStrings settings "/hotkeys/addedDefaults".toList))).2

theorem loadHotkeys_perm (manager : SettingManager S) (keys : KeySequences K) (hotkeys_ : List (Hotkey K))
    (settings : S) :
    (loadHotkeys manager keys hotkeys_ settings).1.Perm
      (hotkeys_ ++ firsts Hotkey.name (manager.getStrings settings "/hotkeys/addedDefaults".toList) (defaults keys) ++
        (manager.getObjectKeys settings "/hotkeys".toList).filterMap
          (loadHotkey manager keys (recorded manager keys hotkeys_ settings))) := by
  have known (name : QString) := (mem_sortedSet eq_of_nameLess
    (l := manager.getStrings settings "/hotkeys/addedDefaults".toList) (x := name)).symm
  have added : (addDefaults keys (hotkeys_,
      sortedSet nameLess (manager.getStrings settings "/hotkeys/addedDefaults".toList))).1.Perm (hotkeys_ ++ firsts
        Hotkey.name (manager.getStrings settings "/hotkeys/addedDefaults".toList) (defaults keys)) :=
    tryAddDefault_perm (defaults keys) known
  have loaded : (loadHotkeys manager keys hotkeys_ settings).1 =
      ((manager.getObjectKeys settings "/hotkeys".toList).filterMap
        (loadHotkey manager keys (recorded manager keys hotkeys_ settings))).foldl append
        (addDefaults keys (hotkeys_,
          sortedSet nameLess (manager.getStrings settings "/hotkeys/addedDefaults".toList))).1 := by
    unfold loadHotkeys
    dsimp only
    split <;> rfl
  rw [loaded]
  exact (foldl_append_perm _ _).trans (added.append_right _)

theorem fromUtf8_addedDefaults : fromUtf8 "addedDefaults".toList = qs "addedDefaults" := by decide

/-- What is made of a key can be stored. -/
theorem loadHotkey_storable {settings : S} {key : StdString} (plain : '/' ∉ key) {hotkey : Hotkey K}
    (loaded : loadHotkey manager keys settings key = some hotkey) : Storable hotkey := by
  unfold loadHotkey at loaded
  split at loaded
  next => cases loaded
  next other =>
    dsimp only at loaded
    split at loaded
    next => cases loaded
    next =>
      obtain ⟨category, _, rfl⟩ := Option.map_eq_some_iff.mp loaded
      constructor
      · exact fun slash => plain ((unit_mem_fromUtf8 (by decide)).mp slash)
      · intro same
        have written := congrArg toUtf8 (same.trans fromUtf8_addedDefaults.symm)
        rw [toUtf8_fromUtf8, toUtf8_fromUtf8] at written
        exact other written
      · exact ⟨key, rfl⟩
      · exact manager.wellFormed_getString _ _
      · exact manager.wellFormed_getStrings _ _

theorem loaded_storable {hotkeys_ : List (Hotkey K)} {settings : S} {hotkey : Hotkey K}
    (loaded : hotkey ∈ (loadHotkeys manager keys [] (saveHotkeys manager keys hotkeys_ settings)).1) :
    Storable hotkey := by
  rw [(loadHotkeys_perm _ _ _ _).mem_iff, List.nil_append, List.mem_append] at loaded
  rcases loaded with default | loaded
  -- a default that was added just now, or what a listed key was made into
  · exact defaults_storable (firsts_subset _ _ default)
  · obtain ⟨key, listed, made⟩ := List.mem_filterMap.mp loaded
    exact loadHotkey_storable (plain_of_saved listed) made

/-! ## What comes back -/

section Storable

variable {added : List QString} {hotkeys_ : List (Hotkey K)}

/-- The key that a name is written as. -/
theorem Storable.segments_name {hotkey : Hotkey K} (storable : Storable hotkey) :
    segments (toUtf8 hotkey.name) = [toUtf8 hotkey.name] := by
  refine segments_plain fun slash => storable.plain ?_
  rw [← fromUtf8_toUtf8 storable.name]
  exact (unit_mem_fromUtf8 (by decide)).mpr slash

theorem Storable.segments_write {hotkey : Hotkey K} (storable : Storable hotkey) {write : StdString × Setting}
    (member : write ∈ writes keys hotkey) :
    ∃ field ∈ fields, segments write.1 = [[], "hotkeys".toList, toUtf8 hotkey.name, field] := by
  obtain ⟨field, member, shape⟩ := segments_of_mem_writes member
  rw [storable.segments_name] at shape
  exact ⟨field, member, shape⟩

theorem Storable.key_ne {hotkey : Hotkey K} (storable : Storable hotkey) :
    toUtf8 hotkey.name ≠ "addedDefaults".toList := by
  intro same
  exact storable.unreserved (by rw [← fromUtf8_toUtf8 storable.name, same, fromUtf8_addedDefaults])

theorem Storable.apart_addedDefaults {hotkey : Hotkey K} (storable : Storable hotkey) {write : StdString × Setting}
    (member : write ∈ writes keys hotkey) : Apart "/hotkeys/addedDefaults".toList write.1 := by
  obtain ⟨field, _, shape⟩ := storable.segments_write member
  rw [Apart, segments_addedDefaults, shape]
  simpa [List.cons_prefix_cons] using storable.key_ne.symm

/-- What is written for a hotkey does not touch the rest of it. -/
theorem Storable.writes_apart {hotkey : Hotkey K} (storable : Storable hotkey) :
    (writes keys hotkey).Pairwise fun write other => Apart write.1 other.1 := by
  have distinct : ((writes keys hotkey).map fun write => segments write.1).Nodup := by
    rw [segments_writes]
    refine List.Nodup.map ?_ (by decide)
    intro field other same
    simpa using same
  refine (List.pairwise_map.mp distinct).imp_of_mem fun first second different => ?_
  obtain ⟨field, _, shape⟩ := storable.segments_write first
  obtain ⟨other, _, shape'⟩ := storable.segments_write second
  exact apart_of_length (by rw [shape, shape']; rfl) different

theorem saveWrites_apart (storable : ∀ hotkey ∈ hotkeys_, Storable hotkey)
    (distinct : (hotkeys_.map Hotkey.name).Nodup) :
    (saveWrites keys added hotkeys_).Pairwise fun write other => Apart write.1 other.1 := by
  rw [saveWrites, List.pairwise_cons, List.pairwise_flatMap]
  refine ⟨?_, fun hotkey member => (storable hotkey member).writes_apart, ?_⟩
  · intro write member
    obtain ⟨hotkey, saved, member⟩ := List.mem_flatMap.mp member
    exact (storable hotkey saved).apart_addedDefaults member
  · refine (List.pairwise_map.mp distinct).imp_of_mem fun {first second} saved savedToo different => ?_
    intro write member other memberToo
    obtain ⟨field, _, shape⟩ := (storable first saved).segments_write member
    obtain ⟨field', _, shape'⟩ := (storable second savedToo).segments_write memberToo
    refine apart_of_length (by rw [shape, shape']; rfl) fun same => different ?_
    rw [shape, shape'] at same
    simp only [List.cons.injEq] at same
    exact (toUtf8_inj (storable first saved).name (storable second savedToo).name).mp same.2.2.1

theorem keyOf_mem_writes {hotkey : Hotkey K} (storable : Storable hotkey) {write : StdString × Setting}
    (member : write ∈ writes keys hotkey) : keyOf write = toUtf8 hotkey.name := by
  obtain ⟨field, _, shape⟩ := storable.segments_write member
  exact keyOf_eq shape

/-- The names are listed as the hotkeys were saved, and with them the recorded defaults. -/
theorem keys_saved_perm (storable : ∀ hotkey ∈ hotkeys_, Storable hotkey)
    (distinct : (hotkeys_.map Hotkey.name).Nodup) (settings : S) :
    (manager.getObjectKeys (saveHotkeys manager keys hotkeys_ settings) "/hotkeys".toList).Perm
      ("addedDefaults".toList :: hotkeys_.map fun hotkey => toUtf8 hotkey.name) := by
  have distinctKeys : ("addedDefaults".toList :: hotkeys_.map fun hotkey => toUtf8 hotkey.name).Nodup := by
    rw [List.nodup_cons, List.mem_map]
    constructor
    · rintro ⟨hotkey, member, same⟩
      exact (storable hotkey member).key_ne same
    · refine List.pairwise_map.mpr ((List.pairwise_map.mp distinct).imp_of_mem fun first second different => ?_)
      exact (toUtf8_inj (storable _ first).name (storable _ second).name).not.mpr different
  refine (List.perm_ext_iff_of_nodup (nodup_keys_saved _ _) distinctKeys).mpr fun key => ?_
  rw [mem_keys_saved, saveWrites, List.exists_mem_cons_iff, List.mem_cons, List.mem_map, keyOf_eq segments_addedDefaults]
  refine or_congr eq_comm ?_
  constructor
  · rintro ⟨write, member, rfl⟩
    obtain ⟨hotkey, saved, member⟩ := List.mem_flatMap.mp member
    exact ⟨hotkey, saved, (keyOf_mem_writes (storable hotkey saved) member).symm⟩
  · rintro ⟨hotkey, saved, rfl⟩
    have first : _ ∈ writes keys hotkey := List.mem_cons_self
    exact ⟨_, List.mem_flatMap.mpr ⟨hotkey, saved, first⟩, keyOf_mem_writes (storable hotkey saved) first⟩

/-- Every value of a saved hotkey is there when the hotkeys are loaded. -/
theorem get_recorded (storable : ∀ hotkey ∈ hotkeys_, Storable hotkey) (distinct : (hotkeys_.map Hotkey.name).Nodup)
    {settings : S} {hotkey : Hotkey K} (saved : hotkey ∈ hotkeys_) {write : StdString × Setting}
    (member : write ∈ writes keys hotkey) :
    manager.get (recorded manager keys [] (saveHotkeys manager keys hotkeys_ settings)) write.1 = some write.2 := by
  rw [recorded, SettingManager.setStrings,
    manager.get_set_apart _ _ _ _ ((storable hotkey saved).apart_addedDefaults member), saveHotkeys_eq]
  refine SettingManager.get_setAll (saveWrites_apart storable distinct) ?_
  exact List.mem_cons_of_mem _ (List.mem_flatMap.mpr ⟨hotkey, saved, member⟩)

theorem wellFormed_categoryName (category : HotkeyCategory) : WellFormed (hotkeyCategoryName category) := by
  refine Ascii.wellFormed ?_
  cases category <;> decide

/-- What was written for a hotkey is read as that hotkey. -/
theorem loadHotkey_of_writes {settings : S} {hotkey : Hotkey K} (storable : Storable hotkey)
    (sequence : hotkey.keySequence ≠ keys.ofString []) (action : hotkey.action ≠ [])
    (written : ∀ write ∈ writes keys hotkey, manager.get settings write.1 = some write.2) :
    loadHotkey manager keys settings (toUtf8 hotkey.name) = some hotkey := by
  simp only [writes, List.forall_mem_cons] at written
  obtain ⟨actionWritten, sequenceWritten, categoryWritten, argumentsWritten, -⟩ := written
  have actionRead := SettingManager.getString_eq storable.action actionWritten
  have sequenceRead := SettingManager.getString_eq (keys.wellFormed_toString _) sequenceWritten
  have categoryRead := SettingManager.getString_eq (wellFormed_categoryName _) categoryWritten
  have argumentsRead := SettingManager.getStrings_eq storable.arguments argumentsWritten
  have sequenceSome : keys.toString hotkey.keySequence ≠ [] := by
    intro none
    exact sequence (by rw [← none, keys.ofString_toString])
  rw [loadHotkey, if_neg storable.key_ne]
  dsimp only
  rw [actionRead, sequenceRead, categoryRead, argumentsRead, if_neg, hotkeyCategoryFromName_name, keys.ofString_toString,
    fromUtf8_toUtf8 storable.name]
  · rfl
  · simp [hotkeyCategoryName_ne_nil, sequenceSome, action]

/-- The loaded hotkeys are the saved ones and the defaults whose names were not recorded. -/
theorem loadHotkeys_saved_perm (manager : SettingManager S) (settings : S)
    (storable : ∀ hotkey ∈ hotkeys_, Storable hotkey) (distinct : (hotkeys_.map Hotkey.name).Nodup)
    (filled : ∀ hotkey ∈ hotkeys_, hotkey.keySequence ≠ keys.ofString [] ∧ hotkey.action ≠ []) :
    (loadHotkeys manager keys [] (saveHotkeys manager keys hotkeys_ settings)).1.Perm
      (firsts Hotkey.name (manager.getStrings settings "/hotkeys/addedDefaults".toList) (defaults keys) ++
        hotkeys_) := by
  have added : manager.getStrings (saveHotkeys manager keys hotkeys_ settings) "/hotkeys/addedDefaults".toList =
      manager.getStrings settings "/hotkeys/addedDefaults".toList := by
    refine SettingManager.getStrings_eq (manager.wellFormed_getStrings _ _) ?_
    rw [saveHotkeys_eq]
    exact SettingManager.get_setAll (saveWrites_apart storable distinct) List.mem_cons_self
  have loaded := loadHotkeys_perm manager keys [] (saveHotkeys manager keys hotkeys_ settings)
  rw [added, List.nil_append] at loaded
  -- nothing is made of the key of the recorded defaults, and of every other one its hotkey
  refine loaded.trans (List.Perm.append_left _ (((keys_saved_perm storable distinct settings).filterMap _).trans ?_))
  rw [List.filterMap_cons, loadHotkey, if_pos rfl, List.filterMap_map]
  dsimp only
  refine List.Perm.of_eq ((List.filterMap_congr fun hotkey saved => ?_).trans List.filterMap_some)
  exact loadHotkey_of_writes (storable hotkey saved) (filled hotkey saved).1 (filled hotkey saved).2
    fun write member => get_recorded storable distinct saved member

end Storable

/-- Key sequences that are nothing but their texts. -/
def texts : KeySequences StdString where
  ofString := toUtf8
  toString := fromUtf8
  ZoomIn := "Ctrl++".toList
  ZoomOut := "Ctrl+-".toList
  ofString_toString := toUtf8_fromUtf8
  wellFormed_toString text := ⟨text, rfl⟩

/-- One default was added, and removed again. -/
def removedDefault : Stored := Stored.set [] "/hotkeys/addedDefaults".toList (.strings ["close popup window".toList])

def ownHotkeys : List (Hotkey StdString) := [
  ⟨.Split, "Ctrl+J".toList, qs "focus", [qs "left"], qs "my focus"⟩,
  ⟨.Window, "Ctrl+M".toList, qs "newTab", [], qs "my tab"⟩]

end Forserino.Hotkeys
