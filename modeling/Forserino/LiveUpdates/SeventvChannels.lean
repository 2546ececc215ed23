import Forserino.LiveUpdates.Wanted

/-! The 7TV users and emote sets of the open channels, and the subscriptions that are kept
for them. No references are counted: whether an id is still used is looked up in the channels.
-/

set_option autoImplicit false

namespace Forserino.Seventv

open LiveUpdates Foundation Qt

/-- What a TwitchChannel keeps of its 7TV user. -/
structure ChannelInfo where
  seventvUserID : QString := []
  seventvEmoteSetID : QString := []
  seventvUserTwitchConnectionIndex : Nat := 0
  deriving DecidableEq, Repr

structure UserConnectionUpdateDispatch where
  userID : QString
  emoteSetID : QString
  connectionIndex : Nat
  deriving DecidableEq, Repr

/-- An id that was given up, unless it is empty or still the same. -/
def makeConditionedOptional (condition : Bool) (value : QString) : Option QString := if condition then some value else none

def givenUp (old new : QString) : Option QString := makeConditionedOptional (!old.isEmpty && old ≠ new) old

/-- What updateSeventvData leaves to the GUI thread, for the channel at an index. -/
structure Posted where
  i : Nat
  oldUserID : Option QString
  oldEmoteSetID : Option QString
  deriving DecidableEq, Repr

namespace ChannelInfo

/-- The ids, and the ones that were given up if anything changed. -/
def updateSeventvData (channel : ChannelInfo) (newUserID newEmoteSetID : QString) :
    ChannelInfo × Option (Option QString × Option QString) :=
  if channel.seventvUserID = newUserID ∧ channel.seventvEmoteSetID = newEmoteSetID then (channel, none)
  else
    ({ channel with seventvUserID := newUserID, seventvEmoteSetID := newEmoteSetID },
      some (givenUp channel.seventvUserID newUserID, givenUp channel.seventvEmoteSetID newEmoteSetID))

/-- Another connection of the user is ignored. -/
def updateSeventvUser (channel : ChannelInfo) (dispatch : UserConnectionUpdateDispatch) :
    ChannelInfo × Option (Option QString × Option QString) :=
  if dispatch.connectionIndex ≠ channel.seventvUserTwitchConnectionIndex then (channel, none)
  else channel.updateSeventvData channel.seventvUserID dispatch.emoteSetID

end ChannelInfo

/-- The open channels, and the event API. -/
structure Channels where
  channels : List ChannelInfo := []
  api : SeventvEventAPI := {}
  deriving DecidableEq

namespace Channels

/-- The loop ends where both ids are found, so it looks whether any channel has them. -/
def dropSeventvChannel (s : Channels) (userID emoteSetID : QString) : Channels :=
  let foundUser := userID.isEmpty || s.channels.any fun channel => channel.seventvUserID == userID
  let foundSet := emoteSetID.isEmpty || s.channels.any fun channel => channel.seventvEmoteSetID == emoteSetID
  let api := if !foundUser then s.api.unsubscribeUser userID else s.api
  let api := if !foundSet then api.unsubscribeEmoteSet emoteSetID else api
  { s with api }

/-- The part of updateSeventvData that runs in the GUI thread, with the ids that the channel has then. -/
def runPosted (connects : Bool) (s : Channels) (posted : Posted) : Channels :=
  match s.channels[posted.i]? with
  | none => s
  | some channel =>
      let s := { s with api := s.api.subscribeUser channel.seventvUserID channel.seventvEmoteSetID connects }
      if posted.oldUserID.isSome || posted.oldEmoteSetID.isSome then
        s.dropSeventvChannel (posted.oldUserID.getD []) (posted.oldEmoteSetID.getD [])
      else s

/-- A channel is changed at once, and the rest is posted. -/
def updateAt (update : ChannelInfo → ChannelInfo × Option (Option QString × Option QString))
    (s : List ChannelInfo × List Posted) (i : Nat) : List ChannelInfo × List Posted :=
  match s.1[i]? with
  | none => s
  | some channel =>
      let (channel, changed) := update channel
      (s.1.set i channel, s.2 ++ changed.toList.map fun (oldUserID, oldEmoteSetID) => ⟨i, oldUserID, oldEmoteSetID⟩)

/-- The dispatch as the channels of its user take it. -/
def forUser (dispatch : UserConnectionUpdateDispatch) (channel : ChannelInfo) :
    ChannelInfo × Option (Option QString × Option QString) :=
  if channel.seventvUserID = dispatch.userID then channel.updateSeventvUser dispatch else (channel, none)

/-- The response to loadChannelEmotes for a channel. -/
def loaded (channelInfo : ChannelInfo) (channel : ChannelInfo) :
    ChannelInfo × Option (Option QString × Option QString) :=
  let (channel, changed) := channel.updateSeventvData channelInfo.seventvUserID channelInfo.seventvEmoteSetID
  ({ channel with seventvUserTwitchConnectionIndex := channelInfo.seventvUserTwitchConnectionIndex }, changed)

/-- The channels at the indices are changed one after the other; then the GUI thread runs what they post. -/
def update (s : Channels) (update : ChannelInfo → ChannelInfo × Option (Option QString × Option QString))
    (indices : List Nat) (connects : Bool) : Channels :=
  let (channels, posted) := indices.foldl (updateAt update) (s.channels, [])
  posted.foldl (runPosted connects) { s with channels }

inductive Event where
  | opened
  | closed (i : Nat)
  | loaded (i : Nat) (channelInfo : ChannelInfo) (connects : Bool)
  | userUpdated (dispatch : UserConnectionUpdateDispatch) (connects : Bool)
  deriving DecidableEq, Repr

/-- There is none where no channel is open at the index. -/
def step (s : Channels) : Event → Option Channels
  | .opened => some { s with channels := s.channels ++ [{}] }
  | .closed i => s.channels[i]?.map fun channel =>
      dropSeventvChannel { s with channels := s.channels.eraseIdx i } channel.seventvUserID channel.seventvEmoteSetID
  | .loaded i channelInfo connects => s.channels[i]?.map fun _ => s.update (loaded channelInfo) [i] connects
  | .userUpdated dispatch connects => some (s.update (forUser dispatch) (List.range s.channels.length) connects)

/-! ## Ids and what is subscribed for them -/

/-- Every subscribed id is held by a channel or given up by a change that waits, and every id that is
held is subscribed, unless a change of its channel waits. -/
structure Follows (ids : List QString) (waiting : List Nat) (olds : List QString) (subscribed : Finset QString) : Prop where
  known : ∀ id ∈ subscribed, id ≠ [] ∧ (id ∈ ids ∨ id ∈ olds)
  kept : ∀ (i : Nat) (id : QString), ids[i]? = some id → id ≠ [] → id ∈ subscribed ∨ i ∈ waiting

namespace Follows

variable {ids olds : List QString} {waiting : List Nat} {subscribed : Finset QString}

/-- A channel changes its id. -/
theorem set (follows : Follows ids waiting olds subscribed) {i : Nat} {old : QString} (held : ids[i]? = some old)
    (new : QString) :
    Follows (ids.set i new) (waiting ++ [i]) (olds ++ [(givenUp old new).getD []]) subscribed := by
  obtain ⟨inside, isOld⟩ := List.getElem?_eq_some_iff.mp held
  constructor
  · intro id member
    obtain ⟨nonempty, place⟩ := follows.known id member
    refine ⟨nonempty, ?_⟩
    rcases place with among | waits
    · obtain ⟨j, there⟩ := List.mem_iff_getElem?.mp among
      by_cases here : i = j
      · subst here
        obtain rfl := Option.some.inj (held.symm.trans there)
        by_cases same : old = new
        · exact .inl (same ▸ List.mem_set inside new)
        · have given : givenUp old new = some old := by simp [givenUp, makeConditionedOptional, nonempty, same]
          exact .inr (by simp [given])
      · exact .inl (List.mem_iff_getElem?.mpr ⟨j, by rw [List.getElem?_set_ne here, there]⟩)
    · exact .inr (List.mem_append_left _ waits)
  · intro j id there nonempty
    by_cases here : i = j
    · exact .inr (List.mem_append_right _ (List.mem_singleton.mpr here.symm))
    · rw [List.getElem?_set_ne here] at there
      exact (follows.kept j id there nonempty).imp_right (List.mem_append_left _)

/-- The id of a channel whose change waits is subscribed. -/
theorem subscribe {i : Nat} (follows : Follows ids (i :: waiting) olds subscribed) {id : QString} (held : ids[i]? = some id) :
    Follows ids waiting olds (if !id.isEmpty && id ∉ subscribed then insert id subscribed else subscribed) := by
  have more : ∀ other, other ∈ (if !id.isEmpty && id ∉ subscribed then insert id subscribed else subscribed) ↔
      (other = id ∧ id ≠ []) ∨ other ∈ subscribed := by
    intro other
    split
    · next fresh =>
      simp only [Bool.and_eq_true, Bool.not_eq_true', List.isEmpty_eq_false_iff] at fresh
      simp [fresh.1]
    · next old =>
      simp only [Bool.and_eq_true, Bool.not_eq_true', List.isEmpty_eq_false_iff, decide_eq_true_eq, not_and,
        Decidable.not_not] at old
      constructor
      · exact .inr
      · rintro (⟨rfl, nonempty⟩ | member)
        · exact old nonempty
        · exact member
  constructor
  · intro other member
    rcases (more other).mp member with ⟨rfl, nonempty⟩ | old
    · exact ⟨nonempty, .inl (List.mem_of_getElem? held)⟩
    · exact follows.known other old
  · intro j other there nonempty
    rcases follows.kept j other there nonempty with old | waits
    · exact .inl ((more other).mpr (.inr old))
    · rcases List.mem_cons.mp waits with rfl | later
      · obtain rfl := Option.some.inj (held.symm.trans there)
        exact .inl ((more id).mpr (.inl ⟨rfl, nonempty⟩))
      · exact .inr later

/-- An id that was given up goes if no channel has it. -/
theorem drop {old : QString} (follows : Follows ids waiting (old :: olds) subscribed) :
    Follows ids waiting olds (if old = [] ∨ old ∈ ids then subscribed else subscribed.erase old) := by
  split
  · next needed =>
    refine ⟨fun id member => ?_, follows.kept⟩
    obtain ⟨nonempty, place⟩ := follows.known id member
    refine ⟨nonempty, ?_⟩
    rcases place with among | waits
    · exact .inl among
    · rcases List.mem_cons.mp waits with rfl | later
      · exact .inl (needed.resolve_left nonempty)
      · exact .inr later
  · next unused =>
    rw [not_or] at unused
    constructor
    · intro id member
      obtain ⟨other, old⟩ := Finset.mem_erase.mp member
      obtain ⟨nonempty, place⟩ := follows.known id old
      exact ⟨nonempty, place.imp_right fun waits => (List.mem_cons.mp waits).resolve_left other⟩
    · intro i id there nonempty
      refine (follows.kept i id there nonempty).imp_left fun member => Finset.mem_erase.mpr ⟨?_, member⟩
      rintro rfl
      exact unused.2 (List.mem_of_getElem? there)

/-- Where nothing waits, the subscribed ids are those of the channels. -/
theorem exact_ (follows : Follows ids [] [] subscribed) (id : QString) : id ∈ subscribed ↔ id ≠ [] ∧ id ∈ ids := by
  constructor
  · intro member
    obtain ⟨nonempty, place⟩ := follows.known id member
    exact ⟨nonempty, place.resolve_right List.not_mem_nil⟩
  · rintro ⟨nonempty, among⟩
    obtain ⟨i, there⟩ := List.mem_iff_getElem?.mp among
    exact (follows.kept i id there nonempty).resolve_right List.not_mem_nil

end Follows

end Channels

/-! ## The event API -/

namespace SeventvEventAPI

theorem subscribeUser_users (api : SeventvEventAPI) (userID emoteSetID : QString) (connects : Bool) :
    (api.subscribeUser userID emoteSetID connects).subscribedUsers =
      if !userID.isEmpty && userID ∉ api.subscribedUsers then insert userID api.subscribedUsers else api.subscribedUsers := by
  unfold subscribeUser
  split <;> dsimp only <;> split <;> rfl

theorem subscribeUser_sets (api : SeventvEventAPI) (userID emoteSetID : QString) (connects : Bool) :
    (api.subscribeUser userID emoteSetID connects).subscribedEmoteSets =
      if !emoteSetID.isEmpty && emoteSetID ∉ api.subscribedEmoteSets then insert emoteSetID api.subscribedEmoteSets
      else api.subscribedEmoteSets := by
  unfold subscribeUser
  split <;> dsimp only <;> split <;> rfl

theorem unsubscribeUser_users (api : SeventvEventAPI) (id : QString) :
    (api.unsubscribeUser id).subscribedUsers = api.subscribedUsers.erase id ∧
      (api.unsubscribeUser id).subscribedEmoteSets = api.subscribedEmoteSets := by
  unfold unsubscribeUser
  split
  · exact ⟨rfl, rfl⟩
  · next absent => exact ⟨(Finset.erase_eq_of_notMem absent).symm, rfl⟩

theorem unsubscribeEmoteSet_sets (api : SeventvEventAPI) (id : QString) :
    (api.unsubscribeEmoteSet id).subscribedEmoteSets = api.subscribedEmoteSets.erase id ∧
      (api.unsubscribeEmoteSet id).subscribedUsers = api.subscribedUsers := by
  unfold unsubscribeEmoteSet
  split
  · exact ⟨rfl, rfl⟩
  · next absent => exact ⟨(Finset.erase_eq_of_notMem absent).symm, rfl⟩

end SeventvEventAPI

namespace Channels

def users (channels : List ChannelInfo) : List QString := channels.map ChannelInfo.seventvUserID

def emoteSets (channels : List ChannelInfo) : List QString := channels.map ChannelInfo.seventvEmoteSetID

theorem users_of_held {channels : List ChannelInfo} {i : Nat} {channel : ChannelInfo}
    (held : channels[i]? = some channel) : (users channels)[i]? = some channel.seventvUserID := by
  rw [users, List.getElem?_map, held]
  rfl

theorem emoteSets_of_held {channels : List ChannelInfo} {i : Nat} {channel : ChannelInfo}
    (held : channels[i]? = some channel) : (emoteSets channels)[i]? = some channel.seventvEmoteSetID := by
  rw [emoteSets, List.getElem?_map, held]
  rfl

/-- Both sets follow the channels, with what is posted still to be run. -/
structure Behind (s : Channels) (posted : List Posted) : Prop where
  inside : ∀ p ∈ posted, p.i < s.channels.length
  users : Follows (users s.channels) (posted.map Posted.i) (posted.map fun p => p.oldUserID.getD []) s.api.subscribedUsers
  emoteSets : Follows (emoteSets s.channels) (posted.map Posted.i) (posted.map fun p => p.oldEmoteSetID.getD [])
    s.api.subscribedEmoteSets

theorem any_iff_mem {α : Type} {field : α → QString} {id : QString} {items : List α} :
    (items.any fun item => field item == id) = true ↔ id ∈ items.map field := by
  simp [List.any_eq_true, List.mem_map]

/-- What the loops of dropSeventvChannel look up. -/
theorem unused_iff (channels : List ChannelInfo) (idOf : ChannelInfo → QString) (id : QString) :
    (!(id.isEmpty || channels.any fun channel => idOf channel == id)) = true ↔ ¬ (id = [] ∨ id ∈ channels.map idOf) := by
  rw [Bool.not_eq_true', ← Bool.not_eq_true, Bool.or_eq_true, any_iff_mem, List.isEmpty_iff]

/-- What dropSeventvChannel leaves of the sets. -/
theorem dropSeventvChannel_sets (s : Channels) (userID emoteSetID : QString) :
    (s.dropSeventvChannel userID emoteSetID).channels = s.channels ∧
    (s.dropSeventvChannel userID emoteSetID).api.subscribedUsers =
      (if userID = [] ∨ userID ∈ users s.channels then s.api.subscribedUsers else s.api.subscribedUsers.erase userID) ∧
    (s.dropSeventvChannel userID emoteSetID).api.subscribedEmoteSets =
      (if emoteSetID = [] ∨ emoteSetID ∈ Channels.emoteSets s.channels then s.api.subscribedEmoteSets
        else s.api.subscribedEmoteSets.erase emoteSetID) := by
  have foundUser : _ ↔ ¬ (userID = [] ∨ userID ∈ users s.channels) := unused_iff s.channels ChannelInfo.seventvUserID userID
  have foundSet : _ ↔ ¬ (emoteSetID = [] ∨ emoteSetID ∈ Channels.emoteSets s.channels) :=
    unused_iff s.channels ChannelInfo.seventvEmoteSetID emoteSetID
  unfold dropSeventvChannel
  simp only [foundUser, foundSet]
  by_cases user : userID = [] ∨ userID ∈ users s.channels
  · by_cases set : emoteSetID = [] ∨ emoteSetID ∈ Channels.emoteSets s.channels
    · simp [user, set]
    · simp [user, set, SeventvEventAPI.unsubscribeEmoteSet_sets]
  · by_cases set : emoteSetID = [] ∨ emoteSetID ∈ Channels.emoteSets s.channels
    · simp [user, set, SeventvEventAPI.unsubscribeUser_users]
    · simp [user, set, SeventvEventAPI.unsubscribeUser_users, SeventvEventAPI.unsubscribeEmoteSet_sets]

/-- One part that was posted is run. -/
theorem Behind.runPosted {s : Channels} {p : Posted} {posted : List Posted} (behind : Behind s (p :: posted))
    (connects : Bool) : Behind (runPosted connects s p) posted ∧ (Channels.runPosted connects s p).channels = s.channels := by
  obtain ⟨inside, later⟩ := List.forall_mem_cons.mp behind.inside
  have held := List.getElem?_eq_getElem inside
  unfold Channels.runPosted
  rw [held]
  simp only
  generalize s.channels[p.i] = channel at held
  have userFollows := behind.users.subscribe (users_of_held held)
  have setFollows := behind.emoteSets.subscribe (emoteSets_of_held held)
  rw [← SeventvEventAPI.subscribeUser_users s.api _ channel.seventvEmoteSetID connects] at userFollows
  rw [← SeventvEventAPI.subscribeUser_sets s.api channel.seventvUserID _ connects] at setFollows
  split
  · obtain ⟨channels, usersDropped, setsDropped⟩ := dropSeventvChannel_sets
      { s with api := s.api.subscribeUser channel.seventvUserID channel.seventvEmoteSetID connects }
      (p.oldUserID.getD []) (p.oldEmoteSetID.getD [])
    refine ⟨⟨?_, ?_, ?_⟩, channels⟩
    · rw [channels]
      exact later
    · rw [channels, usersDropped]
      exact userFollows.drop
    · rw [channels, setsDropped]
      exact setFollows.drop
  · next nothing =>
    -- no id was given up, and an empty one is not subscribed
    rw [Bool.or_eq_true, not_or, Bool.not_eq_true, Bool.not_eq_true, Option.isSome_eq_false_iff,
      Option.isSome_eq_false_iff, Option.isNone_iff_eq_none, Option.isNone_iff_eq_none] at nothing
    rw [List.map_cons, nothing.1] at userFollows
    rw [List.map_cons, nothing.2] at setFollows
    refine ⟨⟨later, ?_, ?_⟩, rfl⟩
    · simpa using userFollows.drop
    · simpa using setFollows.drop

theorem Behind.run {posted : List Posted} {s : Channels} (behind : Behind s posted) (connects : Bool) :
    Behind (posted.foldl (Channels.runPosted connects) s) [] := by
  induction posted generalizing s with
  | nil => exact behind
  | cons p posted ih => exact ih (behind.runPosted connects).1

/-- A change of a channel says which ids it gives up. -/
def Announced (channel : ChannelInfo) : ChannelInfo × Option (Option QString × Option QString) → Prop
  | (changed, none) =>
      changed.seventvUserID = channel.seventvUserID ∧ changed.seventvEmoteSetID = channel.seventvEmoteSetID
  | (changed, some (oldUserID, oldEmoteSetID)) =>
      oldUserID = givenUp channel.seventvUserID changed.seventvUserID ∧
        oldEmoteSetID = givenUp channel.seventvEmoteSetID changed.seventvEmoteSetID

theorem updateSeventvData_announced (channel : ChannelInfo) (newUserID newEmoteSetID : QString) :
    Announced channel (channel.updateSeventvData newUserID newEmoteSetID) := by
  unfold ChannelInfo.updateSeventvData
  split
  · exact ⟨rfl, rfl⟩
  · exact ⟨rfl, rfl⟩

theorem loaded_announced (channelInfo channel : ChannelInfo) : Announced channel (loaded channelInfo channel) := by
  have announced := updateSeventvData_announced channel channelInfo.seventvUserID channelInfo.seventvEmoteSetID
  unfold loaded
  generalize channel.updateSeventvData channelInfo.seventvUserID channelInfo.seventvEmoteSetID = result at announced
  obtain ⟨changed, olds⟩ := result
  cases olds with
  | none => exact announced
  | some olds => exact announced

theorem forUser_announced (dispatch : UserConnectionUpdateDispatch) (channel : ChannelInfo) :
    Announced channel (forUser dispatch channel) := by
  unfold forUser ChannelInfo.updateSeventvUser
  split
  · split
    · exact ⟨rfl, rfl⟩
    · exact updateSeventvData_announced channel _ _
  · exact ⟨rfl, rfl⟩

variable {change : ChannelInfo → ChannelInfo × Option (Option QString × Option QString)}

theorem set_same {α : Type} {items : List α} {i : Nat} {item : α} (held : items[i]? = some item) : items.set i item = items := by
  obtain ⟨inside, rfl⟩ := List.getElem?_eq_some_iff.mp held
  exact List.set_getElem_self inside

/-- One channel is changed, and what it gives up is posted. -/
theorem Behind.updateAt (announced : ∀ channel, Announced channel (change channel)) {channels : List ChannelInfo}
    {posted : List Posted} {api : SeventvEventAPI} (behind : Behind ⟨channels, api⟩ posted) (i : Nat) :
    Behind ⟨(Channels.updateAt change (channels, posted) i).1, api⟩ (Channels.updateAt change (channels, posted) i).2 := by
  unfold Channels.updateAt
  simp only
  cases held : channels[i]? with
  | none => exact behind
  | some channel =>
    obtain ⟨inside, -⟩ := List.getElem?_eq_some_iff.mp held
    have userHeld := users_of_held held
    have setHeld := emoteSets_of_held held
    have told := announced channel
    simp only
    generalize change channel = result at told
    obtain ⟨changed, olds⟩ := result
    have users : Channels.users (channels.set i changed) = (Channels.users channels).set i changed.seventvUserID := List.map_set
    have sets : Channels.emoteSets (channels.set i changed) = (Channels.emoteSets channels).set i changed.seventvEmoteSetID :=
      List.map_set
    cases olds with
    | none =>
      obtain ⟨sameUser, sameSet⟩ := told
      rw [sameUser, set_same userHeld] at users
      rw [sameSet, set_same setHeld] at sets
      simp only [Option.toList_none, List.map_nil, List.append_nil]
      refine ⟨?_, ?_, ?_⟩
      · simpa using behind.inside
      · rw [users]
        exact behind.users
      · rw [sets]
        exact behind.emoteSets
    | some olds =>
      obtain ⟨oldUserID, oldEmoteSetID⟩ := olds
      obtain ⟨rfl, rfl⟩ := told
      simp only [Option.toList_some, List.map_cons, List.map_nil]
      refine ⟨?_, ?_, ?_⟩
      · intro p among
        rw [List.length_set]
        rcases List.mem_append.mp among with old | new
        · exact behind.inside p old
        · rw [List.mem_singleton.mp new]
          exact inside
      · rw [users, List.map_append, List.map_append]
        exact behind.users.set userHeld changed.seventvUserID
      · rw [sets, List.map_append, List.map_append]
        exact behind.emoteSets.set setHeld changed.seventvEmoteSetID

theorem Behind.update (announced : ∀ channel, Announced channel (change channel)) {s : Channels} (behind : Behind s [])
    (indices : List Nat) (connects : Bool) : Behind (s.update change indices connects) [] := by
  have folded : ∀ (indices : List Nat) (channels : List ChannelInfo) (posted : List Posted),
      Behind ⟨channels, s.api⟩ posted →
      Behind ⟨(indices.foldl (Channels.updateAt change) (channels, posted)).1, s.api⟩
        (indices.foldl (Channels.updateAt change) (channels, posted)).2 := by
    intro indices
    induction indices with
    | nil => exact fun _ _ behind => behind
    | cons i indices ih => exact fun channels posted behind => ih _ _ (behind.updateAt announced i)
  exact (folded indices s.channels [] behind).run connects

theorem step_behind {s next : Channels} {e : Event} (behind : Behind s []) (stepped : s.step e = some next) :
    Behind next [] := by
  cases e with
  | opened =>
    rw [← Option.some.inj stepped]
    -- a new channel has no ids yet
    have opens : ∀ {ids : List QString} {subscribed : Finset QString}, Follows ids [] [] subscribed →
        Follows (ids ++ [[]]) [] [] subscribed := by
      intro ids subscribed follows
      constructor
      · intro id member
        exact (follows.known id member).imp_right (Or.imp_left (List.mem_append_left _))
      · intro i id there nonempty
        by_cases inside : i < ids.length
        · rw [List.getElem?_append_left inside] at there
          exact follows.kept i id there nonempty
        · rw [List.getElem?_append_right (Nat.le_of_not_lt inside)] at there
          exact absurd (List.mem_singleton.mp (List.mem_of_getElem? there)) nonempty
    refine ⟨fun _ among => (List.not_mem_nil among).elim, ?_, ?_⟩
    · rw [Channels.users, List.map_append]
      exact opens behind.users
    · rw [Channels.emoteSets, List.map_append]
      exact opens behind.emoteSets
  | closed i =>
    obtain ⟨channel, held, rfl⟩ := Option.map_eq_some_iff.mp stepped
    -- the ids of the closed channel may be left over until it is dropped
    have closes : ∀ {field : ChannelInfo → QString} {subscribed : Finset QString},
        Follows (s.channels.map field) [] [] subscribed →
        Follows ((s.channels.eraseIdx i).map field) [] [field channel] subscribed := by
      intro field subscribed follows
      obtain ⟨inside, isChannel⟩ := List.getElem?_eq_some_iff.mp held
      constructor
      · intro id member
        obtain ⟨nonempty, place⟩ := follows.known id member
        refine ⟨nonempty, ?_⟩
        obtain ⟨other, among, rfl⟩ := List.mem_map.mp (place.resolve_right List.not_mem_nil)
        obtain ⟨j, there⟩ := List.mem_iff_getElem?.mp among
        by_cases here : j = i
        · subst here
          obtain rfl := Option.some.inj (held.symm.trans there)
          exact .inr List.mem_cons_self
        · exact .inl (List.mem_map_of_mem (List.mem_eraseIdx_iff_getElem?.mpr ⟨j, here, there⟩))
      · intro j id there nonempty
        left
        have among := List.mem_of_getElem? there
        rw [← List.eraseIdx_map] at among
        exact (follows.exact_ id).mpr ⟨nonempty, List.mem_of_mem_eraseIdx among⟩
    obtain ⟨channels, usersDropped, setsDropped⟩ := dropSeventvChannel_sets { s with channels := s.channels.eraseIdx i }
      channel.seventvUserID channel.seventvEmoteSetID
    refine ⟨fun _ among => (List.not_mem_nil among).elim, ?_, ?_⟩
    · rw [channels, usersDropped]
      exact (closes behind.users).drop
    · rw [channels, setsDropped]
      exact (closes behind.emoteSets).drop
  | loaded i channelInfo connects =>
    obtain ⟨channel, held, rfl⟩ := Option.map_eq_some_iff.mp stepped
    exact behind.update (loaded_announced channelInfo) [i] connects
  | userUpdated dispatch connects =>
    rw [← Option.some.inj stepped]
    exact behind.update (forUser_announced dispatch) _ connects

end Channels

end Forserino.Seventv
