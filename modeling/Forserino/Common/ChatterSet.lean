import Forserino.Foundation.LruCache
import Forserino.Qt.Text

/-! The chatters of a channel, of which the most recent ones are kept. QString::toLower is a parameter.
-/

set_option autoImplicit false

namespace Forserino.Common

open Foundation Qt

def CHATTER_LIMIT : Nat := 2000

/-- user name in lower case -> user name in normal case -/
structure ChatterSet where
  items : LruCache QString QString CHATTER_LIMIT

/-- An unordered set of names in lower case. The list has them in the order in which they are iterated. -/
structure LowerCaseUsernames (toLower : QString → QString) where
  names : List QString
  distinct : names.Nodup
  lower : ∀ name ∈ names, toLower name = name

namespace ChatterSet

def empty : ChatterSet := ⟨.empty CHATTER_LIMIT⟩

/-- One turn of the loop: items may change its order, and the entries are put into tmp. -/
def keepChatter (size : Nat) (state : LruCache QString QString CHATTER_LIMIT × LruCache QString QString CHATTER_LIMIT)
    (chatter : QString) : LruCache QString QString CHATTER_LIMIT × LruCache QString QString CHATTER_LIMIT :=
  match state.1.get chatter with
  | some (name, items) => (items, state.2.put chatter name)
  | none => if size < CHATTER_LIMIT then (state.1, state.2.put chatter chatter) else state

variable (toLower : QString → QString)

def addRecentChatter (set : ChatterSet) (userName : QString) : ChatterSet :=
  ⟨set.items.put (toLower userName) userName⟩

def updateOnlineChatters (set : ChatterSet) (lowerCaseUsernames : LowerCaseUsernames toLower) : ChatterSet :=
  ⟨(lowerCaseUsernames.names.foldl (keepChatter lowerCaseUsernames.names.length)
    (set.items, .empty CHATTER_LIMIT)).2⟩

def contains (set : ChatterSet) (userName : QString) : Prop := toLower userName ∈ set.items

instance (set : ChatterSet) (userName : QString) : Decidable (set.contains toLower userName) :=
  inferInstanceAs (Decidable (_ ∈ set.items))

def filterByPrefix (set : ChatterSet) (typed : QString) : List QString :=
  (set.items.toList.filter fun item => item.1.startsWith (toLower typed)).map Prod.snd

def all (set : ChatterSet) : List (QString × QString) := set.items.toList

/-- The name that is shown for the user. -/
def displayName (set : ChatterSet) (userName : QString) : Option QString := set.items.lookup (toLower userName)

inductive Event where
  | addRecentChatter (userName : QString)
  | updateOnlineChatters (lowerCaseUsernames : LowerCaseUsernames toLower)

def step (set : ChatterSet) : Event toLower → ChatterSet
  | .addRecentChatter userName => set.addRecentChatter toLower userName
  | .updateOnlineChatters lowerCaseUsernames => set.updateOnlineChatters toLower lowerCaseUsernames

/-- Every key is its name in lower case. -/
def KeyedByName (set : ChatterSet) : Prop :=
  ∀ key name, set.items.lookup key = some name → toLower name = key

variable {toLower} {set : ChatterSet} {size : Nat}

/-! ## The rebuilt cache -/

/-- What the rebuilt cache has for a chatter that is online. -/
def keptName (set : ChatterSet) (size : Nat) (chatter : QString) : Option QString :=
  (set.items.lookup chatter).or (if size < CHATTER_LIMIT then some chatter else none)

/-- The caches of the loop behind these chatters. -/
structure Rebuilding (set : ChatterSet) (size : Nat) (done : List QString)
    (state : LruCache QString QString CHATTER_LIMIT × LruCache QString QString CHATTER_LIMIT) : Prop where
  items : state.1.lookup = set.items.lookup
  tmp : ∀ key, state.2.lookup key = if key ∈ done then set.keptName size key else none

variable {done rest : List QString} {chatter : QString}
  {state : LruCache QString QString CHATTER_LIMIT × LruCache QString QString CHATTER_LIMIT}

theorem keptName_large (large : ¬ size < CHATTER_LIMIT) : set.keptName size chatter = set.items.lookup chatter := by
  rw [keptName, if_neg large, Option.or_none]

theorem Rebuilding.of_mem (rebuilding : Rebuilding set size done state) {key : QString} (present : key ∈ state.2) :
    key ∈ done ∧ set.keptName size key ≠ none := by
  obtain ⟨name, found⟩ := LruCache.mem_iff.mp present
  rw [rebuilding.tmp] at found
  split at found
  case isTrue member => exact ⟨member, by rw [found]; exact Option.some_ne_none name⟩
  case isFalse => cases found

/-- There is room for a chatter that is new in tmp. -/
theorem Rebuilding.room (rebuilding : Rebuilding set size done state) (distinct : (done ++ chatter :: rest).Nodup)
    (online : size = (done ++ chatter :: rest).length) (kept : set.keptName size chatter ≠ none) :
    state.2.size < CHATTER_LIMIT := by
  have new : chatter ∉ done := by
    intro member
    exact (List.nodup_append.mp distinct).2.2 chatter member chatter List.mem_cons_self rfl
  by_cases small : size < CHATTER_LIMIT
  · -- at most all chatters before this one are in tmp
    have few := LruCache.size_le_length fun key present => (rebuilding.of_mem present).1
    rw [List.length_append, List.length_cons] at online
    omega
  · -- tmp has only chatters of the old set, and this one is not among them yet
    rw [Ne, keptName_large small] at kept
    have old : ∀ key ∈ chatter :: state.2.entries.keys, key ∈ set.items := by
      intro key member
      rcases List.mem_cons.mp member with rfl | present
      · exact LruCache.mem_iff.mpr (Option.ne_none_iff_exists'.mp kept)
      · have keptKey := (rebuilding.of_mem present).2
        rw [Ne, keptName_large small] at keptKey
        exact LruCache.mem_iff.mpr (Option.ne_none_iff_exists'.mp keptKey)
    have newKey : chatter ∉ state.2.entries.keys := fun present => new (rebuilding.of_mem present).1
    have fewer := LruCache.length_le_size (List.nodup_cons.mpr ⟨newKey, state.2.entries.keys_nodup⟩) old
    exact Nat.lt_of_lt_of_le (Nat.lt_of_succ_le fewer) set.items.size_le

/-- One turn of the loop as it is without an eviction. -/
theorem Rebuilding.next (rebuilding : Rebuilding set size done state) (distinct : (done ++ chatter :: rest).Nodup)
    (online : size = (done ++ chatter :: rest).length) :
    Rebuilding set size (done ++ [chatter]) (keepChatter size state chatter) := by
  have put (name : QString) (kept : set.keptName size chatter = some name) (key : QString) :
      (state.2.put chatter name).lookup key = if key ∈ done ++ [chatter] then set.keptName size key else none := by
    have room := rebuilding.room distinct online (by rw [kept]; exact Option.some_ne_none name)
    rw [LruCache.lookup_put room, rebuilding.tmp]
    by_cases same : key = chatter
    · simp [same, kept]
    · simp [same]
  have lookup : state.1.lookup chatter = set.items.lookup chatter := congrFun rebuilding.items chatter
  rw [keepChatter]
  rcases state.1.get_eq chatter with ⟨absent, got⟩ | ⟨name, used, found, got, sameItems⟩
  · rw [lookup] at absent
    rw [got]
    dsimp only
    split
    case isTrue small => exact ⟨rebuilding.items, put chatter (by rw [keptName, absent, if_pos small, Option.none_or])⟩
    case isFalse large =>
      refine ⟨rebuilding.items, fun key => ?_⟩
      rw [rebuilding.tmp]
      by_cases same : key = chatter
      · simp [same, keptName_large large, absent]
      · simp [same]
  · rw [lookup] at found
    rw [got]
    exact ⟨sameItems.trans rebuilding.items, put name (by rw [keptName, found, Option.some_or])⟩

theorem Rebuilding.foldl (rebuilding : Rebuilding set size done state) (distinct : (done ++ rest).Nodup)
    (online : size = (done ++ rest).length) :
    Rebuilding set size (done ++ rest) (rest.foldl (keepChatter size) state) := by
  induction rest generalizing done state with
  | nil => rwa [List.append_nil]
  | cons chatter rest ih =>
    have assoc : done ++ chatter :: rest = done ++ [chatter] ++ rest := by simp
    have next := rebuilding.next distinct online
    rw [assoc] at distinct online ⊢
    exact ih next distinct online

theorem lookup_updateOnlineChatters (set : ChatterSet) (online : LowerCaseUsernames toLower) (key : QString) :
    (set.updateOnlineChatters toLower online).items.lookup key =
      if key ∈ online.names then set.keptName online.names.length key else none := by
  have start : Rebuilding set online.names.length [] (set.items, .empty CHATTER_LIMIT) :=
    ⟨rfl, fun key => LruCache.lookup_empty key⟩
  exact (start.foldl online.distinct rfl).tmp key

/-! ## Runs -/

theorem KeyedByName.addRecentChatter (keyed : set.KeyedByName toLower) (userName : QString) :
    (set.addRecentChatter toLower userName).KeyedByName toLower := by
  intro key name found
  rcases LruCache.lookup_put_some found with ⟨rfl, rfl⟩ | before
  · rfl
  · exact keyed key name before

theorem KeyedByName.updateOnlineChatters (keyed : set.KeyedByName toLower) (online : LowerCaseUsernames toLower) :
    (set.updateOnlineChatters toLower online).KeyedByName toLower := by
  intro key name found
  rw [lookup_updateOnlineChatters] at found
  split at found
  case isFalse => cases found
  case isTrue member =>
    rcases Option.or_eq_some_iff.mp found with before | ⟨-, added⟩
    · exact keyed key name before
    · split at added
      case isTrue => exact Option.some.inj added ▸ online.lower key member
      case isFalse => cases added

theorem KeyedByName.run (keyed : set.KeyedByName toLower) (events : List (Event toLower)) :
    (events.foldl (step toLower) set).KeyedByName toLower := by
  induction events generalizing set with
  | nil => exact keyed
  | cons event events ih =>
    apply ih
    cases event with
    | addRecentChatter userName => exact keyed.addRecentChatter userName
    | updateOnlineChatters online => exact keyed.updateOnlineChatters online

theorem keyedByName_empty : empty.KeyedByName toLower := by
  intro key name found
  rw [empty, LruCache.lookup_empty] at found
  cases found

theorem contains_iff {userName : QString} :
    set.contains toLower userName ↔ ∃ name, set.displayName toLower userName = some name :=
  LruCache.mem_iff

theorem contains_updateOnlineChatters (set : ChatterSet) (online : LowerCaseUsernames toLower) (userName : QString) :
    (set.updateOnlineChatters toLower online).contains toLower userName ↔
      toLower userName ∈ online.names ∧
        (set.contains toLower userName ∨ online.names.length < CHATTER_LIMIT) := by
  rw [contains_iff, contains_iff, displayName, lookup_updateOnlineChatters, displayName, keptName]
  by_cases member : toLower userName ∈ online.names
  · by_cases small : online.names.length < CHATTER_LIMIT <;> cases set.items.lookup (toLower userName) <;>
      simp [member, small]
  · simp [member]

/-- The names that are completed have the prefix, whatever its case. -/
theorem KeyedByName.filterByPrefix (keyed : set.KeyedByName toLower) {typed name : QString}
    (completed : name ∈ set.filterByPrefix toLower typed) : (toLower name).startsWith (toLower typed) = true := by
  obtain ⟨item, listed, rfl⟩ := List.mem_map.mp completed
  obtain ⟨listed, prefixed⟩ := List.mem_filter.mp listed
  rwa [keyed item.1 item.2 (LruCache.mem_toList_iff.mp listed)]

/-- Behind every run the keys are the names in lower case and the limit is kept, and an update keeps
exactly the chatters that are online, with their names, as long as there is room for all of them. -/
theorem chatters_online (toLower : QString → QString) (events : List (Event toLower)) :
    let set := events.foldl (step toLower) empty
    (∀ item ∈ set.all, item.1 = toLower item.2) ∧ set.all.length ≤ CHATTER_LIMIT ∧
      ∀ online : LowerCaseUsernames toLower,
        (∀ userName, (set.updateOnlineChatters toLower online).contains toLower userName ↔
          toLower userName ∈ online.names ∧
            (set.contains toLower userName ∨ online.names.length < CHATTER_LIMIT)) ∧
        ∀ userName name, set.displayName toLower userName = some name →
          (set.updateOnlineChatters toLower online).contains toLower userName →
          (set.updateOnlineChatters toLower online).displayName toLower userName = some name := by
  intro set
  have keyed : set.KeyedByName toLower := keyedByName_empty.run events
  refine ⟨?_, ?_, fun online => ⟨contains_updateOnlineChatters set online, ?_⟩⟩
  · intro item listed
    exact (keyed item.1 item.2 (LruCache.mem_toList_iff.mp listed)).symm
  · rw [all, LruCache.length_toList]
    exact set.items.size_le
  · intro userName name stored stays
    have isOnline := ((contains_updateOnlineChatters set online userName).mp stays).1
    rw [displayName] at stored
    rw [displayName, lookup_updateOnlineChatters, if_pos isOnline, keptName, stored, Option.some_or]

end ChatterSet

end Forserino.Common
