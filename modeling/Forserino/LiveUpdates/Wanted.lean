import Forserino.LiveUpdates.Conservation
import Forserino.Qt.Text

/-! providers/seventv/SeventvEventAPI.cpp and providers/bttv/BttvLiveUpdates.cpp: the sets
of what is subscribed, and the subscriptions that their managers hold for them.
-/

set_option autoImplicit false

namespace Forserino.LiveUpdates

open Foundation Qt

namespace Manager

variable {Subscription : Type} [DecidableEq Subscription] {m m' : Manager Subscription} {wanted : Set Subscription}

/-- Only what is wanted is held, and at most once over all clients and the pending subscriptions. -/
structure Matches (m : Manager Subscription) (wanted : Set Subscription) : Prop where
  wanted : ∀ subscription, 0 < m.copies subscription → subscription ∈ wanted
  once : ∀ subscription, m.copies subscription ≤ 1

namespace Matches

theorem mono (matching : m.Matches wanted) {more : Set Subscription} (included : wanted ⊆ more) : m.Matches more :=
  ⟨fun subscription held => included (matching.wanted subscription held), matching.once⟩

theorem moves (matching : m.Matches wanted) (moves : Moves m m') : m'.Matches wanted := by
  have least (subscription : Subscription) := (moves subscription).2
  exact ⟨fun subscription held => matching.wanted subscription (held.trans_le (least subscription)),
    fun subscription => (least subscription).trans (matching.once subscription)⟩

theorem subscribe (matching : m.Matches wanted) {subscription : Subscription} (fresh : subscription ∉ wanted)
    (connects : Bool) : (m.subscribe connects subscription).Matches (insert subscription wanted) := by
  have subscribed := subscribe_subscribed m connects subscription
  have none : m.copies subscription = 0 := by
    by_contra some
    exact fresh (matching.wanted subscription (Nat.pos_of_ne_zero some))
  constructor
  · intro other held
    by_cases same : other = subscription
    · exact .inl same
    · exact .inr (matching.wanted other (subscribed.copies_other same ▸ held))
  · intro other
    by_cases same : other = subscription
    · rw [same]
      have more := subscribed.copies_self.2
      rwa [none] at more
    · rw [subscribed.copies_other same]
      exact matching.once other

/-- A subscription that does not wait is gone behind unsubscribe. -/
theorem unsubscribe (matching : m.Matches wanted) {subscription : Subscription}
    (taken : subscription ∉ m.pendingSubscriptions) : (m.unsubscribe subscription).Matches (wanted \ {subscription}) := by
  have gone : (m.unsubscribe subscription).copies subscription = 0 := by
    have once := matching.once subscription
    rw [copies, List.count_eq_zero.mpr taken] at once
    rw [unsubscribe_copies_self, List.count_eq_zero.mpr taken]
    omega
  constructor
  · intro other held
    have apart : other ≠ subscription := by
      rintro rfl
      exact absurd gone (Nat.ne_of_gt held)
    rw [unsubscribe_copies_other m apart] at held
    exact ⟨matching.wanted other held, apart⟩
  · intro other
    by_cases same : other = subscription
    · rw [same, gone]
      exact Nat.zero_le 1
    · rw [unsubscribe_copies_other m same]
      exact matching.once other

theorem initial (wanted : Set Subscription) : ({} : Manager Subscription).Matches wanted :=
  ⟨fun _ held => absurd held (Nat.lt_irrefl 0), fun _ => Nat.zero_le 1⟩

end Matches

@[simp] theorem unsubscribe_pending (m : Manager Subscription) (subscription : Subscription) :
    (m.unsubscribe subscription).pendingSubscriptions = m.pendingSubscriptions := by
  unfold Manager.unsubscribe
  split <;> rfl

theorem copies_of_pending {subscription : Subscription} (waits : subscription ∈ m.pendingSubscriptions) :
    0 < m.copies subscription :=
  copies_pos.mpr (.inr waits)

end Manager

end Forserino.LiveUpdates

namespace Forserino.Seventv

open LiveUpdates Foundation Qt

inductive SubscriptionType where
  | AnyEmoteSet
  | CreateEmoteSet
  | UpdateEmoteSet
  | UpdateUser
  | AnyCosmetic
  | CreateCosmetic
  | UpdateCosmetic
  | DeleteCosmetic
  | AnyEntitlement
  | CreateEntitlement
  | UpdateEntitlement
  | DeleteEntitlement
  | ResetEntitlement
  deriving DecidableEq, Repr

inductive Condition where
  | ObjectIDCondition (objectID : QString)
  | ChannelCondition (twitchID : QString)
  deriving DecidableEq, Repr

structure Subscription where
  condition : Condition
  type : SubscriptionType
  deriving DecidableEq, Repr

structure SeventvEventAPI where
  manager : Manager Subscription := {}
  subscribedEmoteSets : Finset QString := ∅
  subscribedUsers : Finset QString := ∅
  subscribedTwitchChannels : Finset QString := ∅
  deriving DecidableEq

namespace SeventvEventAPI

def updateUser (id : QString) : Subscription := ⟨.ObjectIDCondition id, .UpdateUser⟩

def updateEmoteSet (id : QString) : Subscription := ⟨.ObjectIDCondition id, .UpdateEmoteSet⟩

def inChannel (id : QString) (type : SubscriptionType) : Subscription := ⟨.ChannelCondition id, type⟩

def subscribeUser (api : SeventvEventAPI) (userID emoteSetID : QString) (connects : Bool) : SeventvEventAPI :=
  let api :=
    if !userID.isEmpty && userID ∉ api.subscribedUsers then
      { api with
        subscribedUsers := insert userID api.subscribedUsers
        manager := api.manager.subscribe connects (updateUser userID) }
    else api
  if !emoteSetID.isEmpty && emoteSetID ∉ api.subscribedEmoteSets then
    { api with
      subscribedEmoteSets := insert emoteSetID api.subscribedEmoteSets
      manager := api.manager.subscribe connects (updateEmoteSet emoteSetID) }
  else api

def subscribeTwitchChannel (api : SeventvEventAPI) (id : QString) (connects : Bool) : SeventvEventAPI :=
  if id ∉ api.subscribedTwitchChannels then
    { api with
      subscribedTwitchChannels := insert id api.subscribedTwitchChannels
      manager := ((api.manager.subscribe connects (inChannel id .CreateCosmetic)).subscribe connects
        (inChannel id .CreateEntitlement)).subscribe connects (inChannel id .DeleteEntitlement) }
  else api

def unsubscribeEmoteSet (api : SeventvEventAPI) (id : QString) : SeventvEventAPI :=
  if id ∈ api.subscribedEmoteSets then
    { api with
      subscribedEmoteSets := api.subscribedEmoteSets.erase id
      manager := api.manager.unsubscribe (updateEmoteSet id) }
  else api

def unsubscribeUser (api : SeventvEventAPI) (id : QString) : SeventvEventAPI :=
  if id ∈ api.subscribedUsers then
    { api with
      subscribedUsers := api.subscribedUsers.erase id
      manager := api.manager.unsubscribe (updateUser id) }
  else api

def unsubscribeTwitchChannel (api : SeventvEventAPI) (id : QString) : SeventvEventAPI :=
  if id ∈ api.subscribedTwitchChannels then
    { api with
      subscribedTwitchChannels := api.subscribedTwitchChannels.erase id
      manager := ((api.manager.unsubscribe (inChannel id .CreateCosmetic)).unsubscribe
        (inChannel id .CreateEntitlement)).unsubscribe (inChannel id .DeleteEntitlement) }
  else api

end SeventvEventAPI

/-- What can come to the 7TV event API. -/
inductive Event where
  | subscribeUser (userID emoteSetID : QString) (connects : Bool)
  | subscribeTwitchChannel (id : QString) (connects : Bool)
  | unsubscribeEmoteSet (id : QString)
  | unsubscribeUser (id : QString)
  | unsubscribeTwitchChannel (id : QString)
  | network (e : LiveUpdates.Event Subscription)
  deriving DecidableEq, Repr

namespace SeventvEventAPI

def step (api : SeventvEventAPI) : Event → Option SeventvEventAPI
  | .subscribeUser userID emoteSetID connects => some (api.subscribeUser userID emoteSetID connects)
  | .subscribeTwitchChannel id connects => some (api.subscribeTwitchChannel id connects)
  | .unsubscribeEmoteSet id => some (api.unsubscribeEmoteSet id)
  | .unsubscribeUser id => some (api.unsubscribeUser id)
  | .unsubscribeTwitchChannel id => some (api.unsubscribeTwitchChannel id)
  | .network e => if e.isNetwork then (api.manager.step e).map fun manager => { api with manager } else none

/-- The subscriptions that the subscribed sets stand for. -/
def wanted (api : SeventvEventAPI) : Set Subscription :=
  { subscription |
    (∃ id ∈ api.subscribedUsers, subscription = updateUser id) ∨
    (∃ id ∈ api.subscribedEmoteSets, subscription = updateEmoteSet id) ∨
    ∃ id ∈ api.subscribedTwitchChannels, ∃ type ∈ [.CreateCosmetic, .CreateEntitlement, .DeleteEntitlement],
      subscription = inChannel id type }

/-- The event does not unsubscribe from what is still pending. -/
def Settled (api : SeventvEventAPI) : Event → Prop
  | .unsubscribeEmoteSet id =>
      id ∈ api.subscribedEmoteSets → updateEmoteSet id ∉ api.manager.pendingSubscriptions
  | .unsubscribeUser id => id ∈ api.subscribedUsers → updateUser id ∉ api.manager.pendingSubscriptions
  | .unsubscribeTwitchChannel id => id ∈ api.subscribedTwitchChannels →
      ∀ type ∈ [.CreateCosmetic, .CreateEntitlement, .DeleteEntitlement],
        inChannel id type ∉ api.manager.pendingSubscriptions
  | _ => True

instance (api : SeventvEventAPI) : ∀ e, Decidable (api.Settled e)
  | .unsubscribeEmoteSet _ | .unsubscribeUser _ => inferInstanceAs (Decidable (_ → _))
  | .unsubscribeTwitchChannel _ => inferInstanceAs (Decidable (_ → ∀ _ ∈ _, _))
  | .subscribeUser _ _ _ | .subscribeTwitchChannel _ _ | .network _ => isTrue trivial

/-- The manager matches the subscribed sets. -/
def Matches (api : SeventvEventAPI) : Prop := api.manager.Matches api.wanted

theorem mem_wanted_user {api : SeventvEventAPI} {id : QString} :
    updateUser id ∈ api.wanted ↔ id ∈ api.subscribedUsers := by
  simp [wanted, updateUser, updateEmoteSet, inChannel]

theorem mem_wanted_emoteSet {api : SeventvEventAPI} {id : QString} :
    updateEmoteSet id ∈ api.wanted ↔ id ∈ api.subscribedEmoteSets := by
  simp [wanted, updateUser, updateEmoteSet, inChannel]

theorem mem_wanted_channel {api : SeventvEventAPI} {id : QString} {type : SubscriptionType} :
    inChannel id type ∈ api.wanted ↔ id ∈ api.subscribedTwitchChannels ∧
      type ∈ [.CreateCosmetic, .CreateEntitlement, .DeleteEntitlement] := by
  constructor
  · rintro (⟨_, _, impossible⟩ | ⟨_, _, impossible⟩ | ⟨_, known, _, member, same⟩)
    · cases impossible
    · cases impossible
    · cases same
      exact ⟨known, member⟩
  · rintro ⟨known, member⟩
    exact .inr (.inr ⟨id, known, type, member, rfl⟩)

theorem subscribeUser_matches {api : SeventvEventAPI} (matching : api.Matches) (userID emoteSetID : QString)
    (connects : Bool) : (api.subscribeUser userID emoteSetID connects).Matches := by
  unfold subscribeUser
  generalize user : (if !userID.isEmpty && userID ∉ api.subscribedUsers then _ else api) = behind
  have first : behind.Matches := by
    subst user
    split
    · next fresh =>
      simp only [Bool.and_eq_true, decide_eq_true_eq] at fresh
      refine (Manager.Matches.subscribe matching (fun member => fresh.2 (mem_wanted_user.mp member)) connects).mono ?_
      rintro subscription (rfl | member)
      · exact mem_wanted_user.mpr (Finset.mem_insert_self _ _)
      · exact member.imp_left fun ⟨id, known, same⟩ => ⟨id, Finset.mem_insert_of_mem known, same⟩
    · exact matching
  dsimp only
  split
  · next fresh =>
    simp only [Bool.and_eq_true, decide_eq_true_eq] at fresh
    refine (Manager.Matches.subscribe first (fun member => fresh.2 (mem_wanted_emoteSet.mp member)) connects).mono ?_
    rintro subscription (rfl | member)
    · exact mem_wanted_emoteSet.mpr (Finset.mem_insert_self _ _)
    · exact member.imp_right (Or.imp_left fun ⟨id, known, same⟩ => ⟨id, Finset.mem_insert_of_mem known, same⟩)
  · exact first

theorem subscribeTwitchChannel_matches {api : SeventvEventAPI} (matching : api.Matches) (id : QString)
    (connects : Bool) : (api.subscribeTwitchChannel id connects).Matches := by
  unfold subscribeTwitchChannel
  split
  · next fresh =>
    have absent (type : SubscriptionType) : inChannel id type ∉ api.wanted := fun member =>
      fresh (mem_wanted_channel.mp member).1
    have first := Manager.Matches.subscribe matching (absent .CreateCosmetic) connects
    have second := first.subscribe
      (show inChannel id .CreateEntitlement ∉ _ by simpa [inChannel] using absent .CreateEntitlement) connects
    have third := second.subscribe
      (show inChannel id .DeleteEntitlement ∉ _ by simpa [inChannel] using absent .DeleteEntitlement) connects
    refine third.mono ?_
    rintro subscription (rfl | rfl | rfl | member)
    · exact mem_wanted_channel.mpr ⟨Finset.mem_insert_self _ _, by decide⟩
    · exact mem_wanted_channel.mpr ⟨Finset.mem_insert_self _ _, by decide⟩
    · exact mem_wanted_channel.mpr ⟨Finset.mem_insert_self _ _, by decide⟩
    · exact member.imp_right (Or.imp_right fun ⟨id, known, rest⟩ => ⟨id, Finset.mem_insert_of_mem known, rest⟩)
  · exact matching

theorem unsubscribeEmoteSet_matches {api : SeventvEventAPI} (matching : api.Matches) {id : QString}
    (settled : api.Settled (.unsubscribeEmoteSet id)) : (api.unsubscribeEmoteSet id).Matches := by
  unfold unsubscribeEmoteSet
  split
  · next subscribed =>
    refine (Manager.Matches.unsubscribe matching (settled subscribed)).mono ?_
    rintro subscription ⟨user | ⟨other, known, rfl⟩ | channel, apart⟩
    · exact .inl user
    · exact .inr (.inl ⟨other, Finset.mem_erase.mpr ⟨fun same => apart (congrArg updateEmoteSet same), known⟩, rfl⟩)
    · exact .inr (.inr channel)
  · exact matching

theorem unsubscribeUser_matches {api : SeventvEventAPI} (matching : api.Matches) {id : QString}
    (settled : api.Settled (.unsubscribeUser id)) : (api.unsubscribeUser id).Matches := by
  unfold unsubscribeUser
  split
  · next subscribed =>
    refine (Manager.Matches.unsubscribe matching (settled subscribed)).mono ?_
    rintro subscription ⟨⟨other, known, rfl⟩ | rest, apart⟩
    · exact .inl ⟨other, Finset.mem_erase.mpr ⟨fun same => apart (congrArg updateUser same), known⟩, rfl⟩
    · exact .inr rest
  · exact matching

theorem unsubscribeTwitchChannel_matches {api : SeventvEventAPI} (matching : api.Matches) {id : QString}
    (settled : api.Settled (.unsubscribeTwitchChannel id)) : (api.unsubscribeTwitchChannel id).Matches := by
  unfold unsubscribeTwitchChannel
  split
  · next subscribed =>
    have taken := settled subscribed
    have first := Manager.Matches.unsubscribe matching (taken .CreateCosmetic (by decide))
    have second := first.unsubscribe (show inChannel id .CreateEntitlement ∉ _ by
      rw [Manager.unsubscribe_pending]; exact taken .CreateEntitlement (by decide))
    have third := second.unsubscribe (show inChannel id .DeleteEntitlement ∉ _ by
      simp only [Manager.unsubscribe_pending]; exact taken .DeleteEntitlement (by decide))
    refine third.mono ?_
    rintro subscription ⟨⟨⟨rest, notFirst⟩, notSecond⟩, notThird⟩
    rcases rest with user | emoteSet | ⟨other, known, type, member, rfl⟩
    · exact .inl user
    · exact .inr (.inl emoteSet)
    · refine .inr (.inr ⟨other, Finset.mem_erase.mpr ⟨?_, known⟩, type, member, rfl⟩)
      rintro rfl
      simp only [List.mem_cons, List.not_mem_nil, or_false] at member
      rcases member with rfl | rfl | rfl
      · exact notFirst rfl
      · exact notSecond rfl
      · exact notThird rfl
  · exact matching

theorem Matches.step {api next : SeventvEventAPI} {e : Event} (matching : api.Matches) (settled : api.Settled e)
    (taken : api.step e = some next) : next.Matches := by
  cases e with
  | subscribeUser userID emoteSetID connects =>
    exact Option.some.inj taken ▸ subscribeUser_matches matching userID emoteSetID connects
  | subscribeTwitchChannel id connects =>
    exact Option.some.inj taken ▸ subscribeTwitchChannel_matches matching id connects
  | unsubscribeEmoteSet id => exact Option.some.inj taken ▸ unsubscribeEmoteSet_matches matching settled
  | unsubscribeUser id => exact Option.some.inj taken ▸ unsubscribeUser_matches matching settled
  | unsubscribeTwitchChannel id => exact Option.some.inj taken ▸ unsubscribeTwitchChannel_matches matching settled
  | network e =>
    obtain ⟨network, same⟩ := Option.ite_none_right_eq_some.mp taken
    obtain ⟨manager, moved, rfl⟩ := Option.map_eq_some_iff.mp same
    exact Manager.Matches.moves matching (Manager.moves_of_network network moved)

/-- What is unsubscribed from while it is pending stays pending, and is wanted no more. -/
theorem not_matches_of_pending {api next : SeventvEventAPI} {e : Event} (unsettled : ¬ api.Settled e)
    (taken : api.step e = some next) : ¬ next.Matches := by
  intro matching
  cases e with
  | subscribeUser userID emoteSetID connects => exact unsettled trivial
  | subscribeTwitchChannel id connects => exact unsettled trivial
  | network e => exact unsettled trivial
  | unsubscribeEmoteSet id =>
    simp only [Settled, Classical.not_imp, Decidable.not_not] at unsettled
    obtain ⟨subscribed, waits⟩ := unsettled
    obtain rfl : { api with
      subscribedEmoteSets := api.subscribedEmoteSets.erase id
      manager := api.manager.unsubscribe (updateEmoteSet id) } = next := by
        simpa [step, unsubscribeEmoteSet, subscribed] using taken
    have held := matching.wanted _ (Manager.copies_of_pending (by rwa [Manager.unsubscribe_pending]))
    exact Finset.notMem_erase id _ (mem_wanted_emoteSet.mp held)
  | unsubscribeUser id =>
    simp only [Settled, Classical.not_imp, Decidable.not_not] at unsettled
    obtain ⟨subscribed, waits⟩ := unsettled
    obtain rfl : { api with
      subscribedUsers := api.subscribedUsers.erase id
      manager := api.manager.unsubscribe (updateUser id) } = next := by
        simpa [step, unsubscribeUser, subscribed] using taken
    have held := matching.wanted _ (Manager.copies_of_pending (by rwa [Manager.unsubscribe_pending]))
    exact Finset.notMem_erase id _ (mem_wanted_user.mp held)
  | unsubscribeTwitchChannel id =>
    simp only [Settled, Classical.not_imp, not_forall, Decidable.not_not] at unsettled
    obtain ⟨subscribed, type, member, waits⟩ := unsettled
    have next_eq : api.unsubscribeTwitchChannel id = next := Option.some.inj taken
    rw [unsubscribeTwitchChannel, if_pos subscribed] at next_eq
    subst next_eq
    have held := matching.wanted _ (Manager.copies_of_pending (by simpa only [Manager.unsubscribe_pending] using waits))
    exact Finset.notMem_erase id _ (mem_wanted_channel.mp held).1

end SeventvEventAPI

end Forserino.Seventv

namespace Forserino.Bttv

open LiveUpdates Foundation Qt

/-- BttvLiveUpdateSubscription, a BttvLiveUpdateSubscriptionChannel or a BttvLiveUpdateBroadcastMe. -/
inductive Subscription where
  | Channel (twitchID : QString)
  | BroadcastMe (twitchID userName : QString)
  deriving DecidableEq, Repr

structure BttvLiveUpdates where
  manager : Manager Subscription := {}
  joinedChannels : Finset QString := ∅
  deriving DecidableEq

inductive Event where
  | joinChannel (channelID userName : QString) (connects : Bool)
  | partChannel (id : QString)
  | network (e : LiveUpdates.Event Subscription)
  deriving DecidableEq, Repr

namespace BttvLiveUpdates

def joinChannel (api : BttvLiveUpdates) (channelID userName : QString) (connects : Bool) : BttvLiveUpdates :=
  if channelID ∉ api.joinedChannels then
    { api with
      joinedChannels := insert channelID api.joinedChannels
      manager := (api.manager.subscribe connects (.Channel channelID)).subscribe connects
        (.BroadcastMe channelID userName) }
  else api

def partChannel (api : BttvLiveUpdates) (id : QString) : BttvLiveUpdates :=
  if id ∈ api.joinedChannels then
    { api with
      joinedChannels := api.joinedChannels.erase id
      manager := api.manager.unsubscribe (.Channel id) }
  else api

def step (api : BttvLiveUpdates) : Event → Option BttvLiveUpdates
  | .joinChannel channelID userName connects => some (api.joinChannel channelID userName connects)
  | .partChannel id => some (api.partChannel id)
  | .network e => if e.isNetwork then (api.manager.step e).map fun manager => { api with manager } else none

/-- The subscriptions that a joined channel stands for. -/
def wanted (api : BttvLiveUpdates) : Set Subscription :=
  { subscription | ∃ id ∈ api.joinedChannels,
    subscription = .Channel id ∨ ∃ userName, subscription = .BroadcastMe id userName }

/-- The event does not part a joined channel. -/
def Stays (api : BttvLiveUpdates) : Event → Prop
  | .partChannel id => id ∉ api.joinedChannels
  | _ => True

instance (api : BttvLiveUpdates) : ∀ e, Decidable (api.Stays e)
  | .partChannel _ => inferInstanceAs (Decidable (¬ _))
  | .joinChannel _ _ _ | .network _ => isTrue trivial

/-- The manager matches the joined channels. -/
def Matches (api : BttvLiveUpdates) : Prop := api.manager.Matches api.wanted

/-- A joined channel broadcasts somebody. -/
structure Joined (api : BttvLiveUpdates) : Prop where
  matching : api.Matches
  broadcasts : ∀ id ∈ api.joinedChannels, ∃ userName, 0 < api.manager.copies (.BroadcastMe id userName)

theorem Joined.step {api next : BttvLiveUpdates} {e : Event} (joined : api.Joined) (stays : api.Stays e)
    (taken : api.step e = some next) : next.Joined := by
  cases e with
  | joinChannel channelID userName connects =>
    obtain rfl := Option.some.inj taken
    unfold joinChannel
    split
    · next fresh =>
      have noChannel : .Channel channelID ∉ api.wanted := by
        rintro ⟨id, known, same | ⟨_, impossible⟩⟩
        · cases same
          exact fresh known
        · cases impossible
      have noBroadcast : .BroadcastMe channelID userName ∉ api.wanted := by
        rintro ⟨id, known, impossible | ⟨_, same⟩⟩
        · cases impossible
        · cases same
          exact fresh known
      have first := Manager.Matches.subscribe joined.matching noChannel connects
      have second := first.subscribe (show .BroadcastMe channelID userName ∉ _ by simpa using noBroadcast) connects
      constructor
      · refine second.mono ?_
        rintro subscription (rfl | rfl | ⟨id, known, rest⟩)
        · exact ⟨channelID, Finset.mem_insert_self _ _, .inr ⟨userName, rfl⟩⟩
        · exact ⟨channelID, Finset.mem_insert_self _ _, .inl rfl⟩
        · exact ⟨id, Finset.mem_insert_of_mem known, rest⟩
      · intro id member
        have kept {m : Manager Subscription} {e : LiveUpdates.Event Subscription} {subscription : Subscription}
            (other : e ≠ .unsubscribe subscription) {next : Manager Subscription} (taken : m.step e = some next)
            (held : 0 < m.copies subscription) : 0 < next.copies subscription := Manager.held_of_step taken other held
        rcases Finset.mem_insert.mp member with rfl | known
        · exact ⟨userName, (Manager.subscribe_subscribed _ connects _).copies_self.1⟩
        · obtain ⟨other, held⟩ := joined.broadcasts id known
          have held := kept (e := .subscribe (.Channel channelID) connects) (by simp) rfl held
          exact ⟨other, kept (e := .subscribe (.BroadcastMe channelID userName) connects) (by simp) rfl held⟩
    · exact joined
  | partChannel id =>
    obtain rfl := Option.some.inj taken
    rw [partChannel, if_neg stays]
    exact joined
  | network e =>
    obtain ⟨network, same⟩ := Option.ite_none_right_eq_some.mp taken
    obtain ⟨manager, moved, rfl⟩ := Option.map_eq_some_iff.mp same
    have moves := Manager.moves_of_network network moved
    refine ⟨Manager.Matches.moves joined.matching moves, fun id known => ?_⟩
    obtain ⟨userName, held⟩ := joined.broadcasts id known
    exact ⟨userName, (moves _).1 held⟩

/-- The broadcast of a parted channel stays. -/
theorem Joined.not_matches {api next : BttvLiveUpdates} {e : Event} (joined : api.Joined) (parts : ¬ api.Stays e)
    (taken : api.step e = some next) : ¬ next.Matches := by
  intro matching
  cases e with
  | joinChannel channelID userName connects => exact parts trivial
  | network e => exact parts trivial
  | partChannel id =>
    have known : id ∈ api.joinedChannels := Decidable.not_not.mp parts
    obtain rfl := Option.some.inj taken
    rw [partChannel, if_pos known] at matching
    obtain ⟨userName, held⟩ := joined.broadcasts id known
    have still : 0 < (api.manager.unsubscribe (.Channel id)).copies (.BroadcastMe id userName) := by
      rwa [Manager.unsubscribe_copies_other _ (by simp)]
    obtain ⟨other, member, impossible | ⟨_, same⟩⟩ := matching.wanted _ still
    · cases impossible
    · cases same
      exact Finset.notMem_erase id _ member

end BttvLiveUpdates

end Forserino.Bttv

namespace Forserino.LiveUpdates

open Foundation Qt

/-- The managers of a run match what is wanted in all of its states exactly when the 7TV event
API never unsubscribes from something pending, and no joined BTTV channel is ever parted. -/
theorem live_updates_match_iff {events : List Seventv.Event} {api : Seventv.SeventvEventAPI}
    {bttvEvents : List Bttv.Event} {bttv : Bttv.BttvLiveUpdates}
    (ran : run Seventv.SeventvEventAPI.step {} events = some api)
    (bttvRan : run Bttv.BttvLiveUpdates.step {} bttvEvents = some bttv) :
    (Along Seventv.SeventvEventAPI.step Seventv.SeventvEventAPI.Settled {} events ↔ ∀ before, before <+: events →
      ∀ state, run Seventv.SeventvEventAPI.step {} before = some state → state.manager.Matches state.wanted) ∧
    (Along Bttv.BttvLiveUpdates.step Bttv.BttvLiveUpdates.Stays {} bttvEvents ↔ ∀ before, before <+: bttvEvents →
      ∀ state, run Bttv.BttvLiveUpdates.step {} before = some state → state.manager.Matches state.wanted) := by
  constructor
  · exact along_iff (fun _ _ _ (matching : Seventv.SeventvEventAPI.Matches _) settled taken => matching.step settled taken)
      (fun _ _ _ _ unsettled taken => Seventv.SeventvEventAPI.not_matches_of_pending unsettled taken)
      (fun _ matching => matching) ran (Manager.Matches.initial _)
  · exact along_iff (fun _ _ _ (joined : Bttv.BttvLiveUpdates.Joined _) stays taken => joined.step stays taken)
      (fun _ _ _ joined parts taken => joined.not_matches parts taken) (fun _ joined => joined.matching) bttvRan
      ⟨Manager.Matches.initial _, fun _ known => absurd known (Finset.notMem_empty _)⟩

/-- A user that is unsubscribed from behind the connection, and a joined channel. -/
theorem live_updates_match_opened :
    (∀ before, before <+: [.subscribeUser (qs "u") (qs "e") true, .network (.opened 0 100 true), .unsubscribeUser (qs "u")] →
      ∀ state, run Seventv.SeventvEventAPI.step {} before = some state → state.manager.Matches state.wanted) ∧
    ∀ before, before <+: [.joinChannel (qs "11") (qs "me") true, .network (.opened 0 100 true)] →
      ∀ state, run Bttv.BttvLiveUpdates.step {} before = some state → state.manager.Matches state.wanted := by
  have both := @live_updates_match_iff
    [.subscribeUser (qs "u") (qs "e") true, .network (.opened 0 100 true), .unsubscribeUser (qs "u")] _
    [.joinChannel (qs "11") (qs "me") true, .network (.opened 0 100 true)] _ rfl rfl
  exact ⟨both.1.mp (by decide), both.2.mp (by decide)⟩

/-- A user that is unsubscribed from while it is pending, and a channel that is parted. -/
theorem unwanted_held :
    (¬ ∀ events api, run Seventv.SeventvEventAPI.step {} events = some api → api.manager.Matches api.wanted) ∧
      ¬ ∀ events api, run Bttv.BttvLiveUpdates.step {} events = some api → api.manager.Matches api.wanted := by
  constructor
  · intro holds
    have matching := holds [.subscribeUser (qs "u") [] true, .unsubscribeUser (qs "u")] _ rfl
    have held := matching.wanted (Seventv.SeventvEventAPI.updateUser (qs "u")) (by decide)
    exact absurd (Seventv.SeventvEventAPI.mem_wanted_user.mp held) (by decide)
  · intro holds
    have matching := holds [.joinChannel (qs "11") (qs "me") true, .partChannel (qs "11")] _ rfl
    obtain ⟨id, known, _⟩ := matching.wanted (.BroadcastMe (qs "11") (qs "me")) (by decide)
    exact absurd known (Finset.notMem_empty id)

end Forserino.LiveUpdates
