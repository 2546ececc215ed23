import Forserino.Foundation.Histories
import Forserino.Foundation.Runs
import Forserino.Qt.Text
import Mathlib.Data.List.AList

/-! Which channels are live. All channels are asked for in batches, and new ones soon; the answers arrive in any
order, and may find that a channel is gone or has been replaced.

A channel object is numbered when it is made.
-/

set_option autoImplicit false

namespace Forserino.Twitch

open Foundation Qt

/-! ## Batches -/

section
variable {α : Type} (batchSize : Nat)

/-- The loop over the batches. -/
def takeBatches : Nat → List α → List (List α)
  | 0, _ => []
  | batchCount + 1, list =>
    let batch := list.take batchSize
    if batch.isEmpty then [] else batch :: takeBatches batchCount (list.drop batchSize)

def splitListIntoBatches (list : List α) : List (List α) :=
  takeBatches batchSize ((list.length + batchSize - 1) / batchSize) list

variable {batchSize} {list : List α}

theorem takeBatches_flatten {batchCount : Nat} (enough : list.length ≤ batchCount * batchSize) :
    (takeBatches batchSize batchCount list).flatten = list := by
  induction batchCount generalizing list with
  | zero =>
    rw [Nat.zero_mul, Nat.le_zero, List.length_eq_zero_iff] at enough
    rw [enough]
    rfl
  | succ batchCount ih =>
    rw [takeBatches]
    split
    · next none =>
      rw [List.isEmpty_iff, List.take_eq_nil_iff] at none
      rcases none with empty | rfl
      · rw [empty, Nat.mul_zero, Nat.le_zero, List.length_eq_zero_iff] at enough
        rw [enough]
        rfl
      · rfl
    · have rest : (list.drop batchSize).length ≤ batchCount * batchSize := by
        rw [List.length_drop]
        rw [Nat.succ_mul] at enough
        omega
      rw [List.flatten_cons, ih rest, List.take_append_drop]

theorem takeBatches_length {batchCount : Nat} : ∀ batch ∈ takeBatches batchSize batchCount list, batch.length ≤ batchSize := by
  induction batchCount generalizing list with
  | zero => exact fun _ none => absurd none List.not_mem_nil
  | succ batchCount ih =>
    intro batch member
    rw [takeBatches] at member
    split at member
    · cases member
    · rcases List.mem_cons.mp member with rfl | later
      · exact List.length_take_le batchSize list
      · exact ih batch later

/-- The batches are the list, cut into pieces. -/
theorem splitListIntoBatches_flatten (some_ : 0 < batchSize) (list : List α) :
    (splitListIntoBatches batchSize list).flatten = list := by
  apply takeBatches_flatten
  have division := Nat.div_add_mod (list.length + batchSize - 1) batchSize
  have remainder := Nat.mod_lt (list.length + batchSize - 1) some_
  rw [Nat.mul_comm] at division
  omega

end

/-! ## The controller -/

def BATCH_SIZE : Nat := 100

/-- What is read of a live stream. -/
structure HelixStream where
  userId : QString
  userName : QString
  title : QString
  deriving DecidableEq, Repr

/-- A channel, as far as its stream goes. -/
structure StreamChannel where
  roomId : QString
  title : QString
  live : Bool
  alive : Bool
  deriving DecidableEq, Repr

structure ChannelEntry where
  ptr : Nat
  wasChecked : Bool
  deriving DecidableEq, Repr

inductive Entry where
  | added (object : Nat) (id : QString)
  | updated (id : QString) (object : Nat) (isLive isInitialUpdate : Bool)
  | announced (object : Nat) (isLive isInitialUpdate : Bool)
  deriving DecidableEq, Repr

structure TwitchLiveController where
  objects : List StreamChannel
  channels : AList fun _ : QString => ChannelEntry
  immediateRequests : List QString
  /-- The batches of which no answer has arrived yet. -/
  fetchedStreams : List (List QString)
  fetchedChannels : List (List QString)
  history : List Entry

namespace TwitchLiveController

def new : TwitchLiveController := ⟨[], ∅, [], [], [], []⟩

def log (controller : TwitchLiveController) (entry : Entry) : TwitchLiveController :=
  { controller with history := controller.history ++ [entry] }

def lock (controller : TwitchLiveController) (object : Nat) : Option StreamChannel :=
  controller.objects[object]?.filter StreamChannel.alive

def add (controller : TwitchLiveController) (object : Nat) (channelID : QString) : TwitchLiveController :=
  { controller with
    channels := controller.channels.insert channelID ⟨object, false⟩
    immediateRequests :=
      if channelID ∈ controller.immediateRequests then controller.immediateRequests
      else controller.immediateRequests ++ [channelID] }.log (.added object channelID)

def request (controller : TwitchLiveController) (channelIDs : List QString) : TwitchLiveController :=
  let batches := splitListIntoBatches BATCH_SIZE channelIDs
  { controller with
    fetchedStreams := controller.fetchedStreams ++ batches
    fetchedChannels := controller.fetchedChannels ++ batches }

/-- TwitchChannel::updateStreamStatus, and onLiveStatusChanged when setLive has changed something. -/
def updateStreamStatus (controller : TwitchLiveController) (object : Nat) (channel : StreamChannel)
    (helixStream : Option HelixStream) (isInitialUpdate : Bool) : TwitchLiveController :=
  let isLive := helixStream.isSome
  let title := (helixStream.map HelixStream.title).getD channel.title
  let updated := { controller with objects := controller.objects.set object { channel with title, live := isLive } }
  if channel.live = isLive then updated else updated.log (.announced object isLive isInitialUpdate)

/-- The streams by the ids that were asked for. -/
def results (batch : List QString) (streams : List HelixStream) : AList fun _ : QString => Option HelixStream :=
  streams.foldl (fun results stream => results.insert stream.userId (some stream))
    (batch.foldl (fun results channelID => results.insert channelID none) ∅)

def updateChannel (controller : TwitchLiveController) (channelID : QString) (entry : ChannelEntry) (channel : StreamChannel)
    (stream : Option HelixStream) : TwitchLiveController :=
  let isInitialUpdate := !entry.wasChecked
  let updated := (controller.log (.updated channelID entry.ptr stream.isSome isInitialUpdate)).updateStreamStatus entry.ptr
    channel stream isInitialUpdate
  { updated with channels := updated.channels.insert channelID { entry with wasChecked := true } }

/-- One of the results, with the channels that turn out to be dead. -/
def applyResult (state : TwitchLiveController × List QString) (channelID : QString) (stream : Option HelixStream) :
    TwitchLiveController × List QString :=
  match state.1.channels.lookup channelID with
  | none => state
  | some entry =>
    match state.1.lock entry.ptr with
    | none => (state.1, state.2 ++ [channelID])
    | some channel => (state.1.updateChannel channelID entry channel stream, state.2)

def eraseDead (controller : TwitchLiveController) (deadChannels : List QString) : TwitchLiveController :=
  { controller with channels := deadChannels.foldl (fun channels deadChannel => channels.erase deadChannel) controller.channels }

def streamsFetched (controller : TwitchLiveController) (batch : List QString) (streams : List HelixStream) :
    TwitchLiveController :=
  let (updated, deadChannels) := (results batch streams).entries.foldl
    (fun state result => applyResult state result.1 result.2) (controller, [])
  updated.eraseDead deadChannels

/-- One channel of an answer, with its id and title. -/
def applyTitle (state : TwitchLiveController × List QString) (helixChannel : QString × QString) :
    TwitchLiveController × List QString :=
  match state.1.channels.lookup helixChannel.1 with
  | none => state
  | some entry =>
    match state.1.lock entry.ptr with
    | none => (state.1, state.2 ++ [helixChannel.1])
    | some channel =>
      ({ state.1 with objects := state.1.objects.set entry.ptr { channel with title := helixChannel.2 } }, state.2)

def channelsFetched (controller : TwitchLiveController) (helixChannels : List (QString × QString)) : TwitchLiveController :=
  let (updated, deadChannels) := helixChannels.foldl applyTitle (controller, [])
  updated.eraseDead deadChannels

/-- An answer is empty when the request has failed. -/
inductive Event where
  | created
  | destroyed (object : Nat)
  | roomIdChanged (object : Nat) (id : QString)
  | refreshTimer
  | immediateRequestTimer
  | streams (batch : List QString) (answer : Option (List HelixStream))
  | channels (batch : List QString) (answer : Option (List (QString × QString)))
  deriving DecidableEq, Repr

def step (controller : TwitchLiveController) : Event → Option TwitchLiveController
  | .created => some { controller with objects := controller.objects ++ [⟨[], [], false, true⟩] }
  | .destroyed object => (controller.lock object).map fun channel =>
      { controller with objects := controller.objects.set object { channel with alive := false } }
  | .roomIdChanged object id => (controller.lock object).bind fun channel =>
      if id = [] ∨ channel.roomId = id then none
      else some (add { controller with objects := controller.objects.set object { channel with roomId := id } } object id)
  | .refreshTimer => some (controller.request controller.channels.keys)
  | .immediateRequestTimer =>
      some ({ controller with immediateRequests := [] }.request controller.immediateRequests)
  | .streams batch answer =>
      if batch ∈ controller.fetchedStreams then
        let controller := { controller with fetchedStreams := controller.fetchedStreams.erase batch }
        some (match answer with
          | some streams => controller.streamsFetched batch streams
          | none => controller)
      else none
  | .channels batch answer =>
      if batch ∈ controller.fetchedChannels then
        let controller := { controller with fetchedChannels := controller.fetchedChannels.erase batch }
        some (match answer with
          | some helixChannels => controller.channelsFetched helixChannels
          | none => controller)
      else none

/-! ## What the history says -/

def lastAdded (history : List Entry) (id : QString) : Option Nat :=
  history.reverse.findSome? fun
    | .added object added => if added = id then some object else none
    | _ => none

def lastAnnounced (history : List Entry) (object : Nat) : Bool :=
  (history.reverse.findSome? fun
    | .announced announced isLive _ => if announced = object then some isLive else none
    | _ => none).getD false

/-- There was an update for the id since a channel was added for it. -/
def wasUpdated (history : List Entry) (id : QString) : Bool :=
  (history.reverse.findSome? fun
    | .added _ added => if added = id then some false else none
    | .updated updated _ _ _ => if updated = id then some true else none
    | _ => none).getD false

/-- Only the first update is an initial one, and what is announced is new and comes from an update. -/
def Suits (before : List Entry) : Entry → Prop
  | .added _ _ => True
  | .updated id _ _ isInitialUpdate => isInitialUpdate = !wasUpdated before id
  | .announced object isLive isInitialUpdate => isLive = !lastAnnounced before object ∧
      ∃ id, before.getLast? = some (.updated id object isLive isInitialUpdate)

section
variable {history : List Entry}

theorem lastAdded_added (object : Nat) (added id : QString) :
    lastAdded (history ++ [.added object added]) id = if added = id then some object else lastAdded history id := by
  unfold lastAdded
  rw [List.reverse_concat, List.findSome?_cons]
  split <;> simp_all

theorem lastAdded_other {entry : Entry} (other : ∀ object id, entry ≠ .added object id) (id : QString) :
    lastAdded (history ++ [entry]) id = lastAdded history id := by
  unfold lastAdded
  rw [List.reverse_concat, List.findSome?_cons]
  cases entry with
  | added object added => exact absurd rfl (other object added)
  | _ => rfl

theorem lastAnnounced_announced (announced : Nat) (isLive isInitialUpdate : Bool) (object : Nat) :
    lastAnnounced (history ++ [.announced announced isLive isInitialUpdate]) object =
      if announced = object then isLive else lastAnnounced history object := by
  unfold lastAnnounced
  rw [List.reverse_concat, List.findSome?_cons]
  split <;> simp_all

theorem lastAnnounced_other {entry : Entry} (other : ∀ object isLive isInitialUpdate,
    entry ≠ .announced object isLive isInitialUpdate) (object : Nat) :
    lastAnnounced (history ++ [entry]) object = lastAnnounced history object := by
  unfold lastAnnounced
  rw [List.reverse_concat, List.findSome?_cons]
  cases entry with
  | announced announced isLive isInitialUpdate => exact absurd rfl (other announced isLive isInitialUpdate)
  | _ => rfl

theorem wasUpdated_added (object : Nat) (added id : QString) :
    wasUpdated (history ++ [.added object added]) id = if added = id then false else wasUpdated history id := by
  unfold wasUpdated
  rw [List.reverse_concat, List.findSome?_cons]
  split <;> simp_all

theorem wasUpdated_updated (updated : QString) (object : Nat) (isLive isInitialUpdate : Bool) (id : QString) :
    wasUpdated (history ++ [.updated updated object isLive isInitialUpdate]) id =
      if updated = id then true else wasUpdated history id := by
  unfold wasUpdated
  rw [List.reverse_concat, List.findSome?_cons]
  split <;> simp_all

theorem wasUpdated_announced (object : Nat) (isLive isInitialUpdate : Bool) (id : QString) :
    wasUpdated (history ++ [.announced object isLive isInitialUpdate]) id = wasUpdated history id := by
  unfold wasUpdated
  rw [List.reverse_concat, List.findSome?_cons]

end

structure Sound (controller : TwitchLiveController) : Prop where
  checked : ∀ id entry, controller.channels.lookup id = some entry → entry.wasChecked = wasUpdated controller.history id
  live : ∀ (object : Nat) channel, controller.objects[object]? = some channel →
    channel.live = lastAnnounced controller.history object
  made : ∀ object, controller.objects.length ≤ object → lastAnnounced controller.history object = false
  latest : ∀ id object channel, lastAdded controller.history id = some object → controller.lock object = some channel →
    ∃ wasChecked, controller.channels.lookup id = some ⟨object, wasChecked⟩
  real : ∀ id object, lastAdded controller.history id = some object → object < controller.objects.length
  suits : Throughout Suits controller.history

variable {controller : TwitchLiveController} {object : Nat} {channel changed : StreamChannel}

theorem sound_new : Sound new where
  checked := fun id entry none => by rw [new, AList.lookup_empty] at none; cases none
  live := fun _ _ none => by cases none
  made := fun _ _ => rfl
  latest := fun _ _ _ none => by cases none
  real := fun _ _ none => by cases none
  suits := throughout_nil

theorem get_set {objects : List StreamChannel} (inside : object < objects.length) (other : Nat) :
    (objects.set object changed)[other]? = if other = object then some changed else objects[other]? := by
  by_cases same : other = object
  · rw [same, List.getElem?_set_self inside, if_pos rfl]
  · rw [List.getElem?_set_ne (Ne.symm same), if_neg same]

theorem lock_some (held : controller.lock object = some channel) :
    controller.objects[object]? = some channel ∧ object < controller.objects.length ∧ channel.alive = true := by
  obtain ⟨here, alive⟩ := Option.filter_eq_some_iff.mp held
  exact ⟨here, (List.getElem?_eq_some_iff.mp here).1, alive⟩

theorem lock_set (inside : object < controller.objects.length) (alive : changed.alive = true) (other : Nat) :
    ({ controller with objects := controller.objects.set object changed } : TwitchLiveController).lock other =
      if other = object then some changed else controller.lock other := by
  unfold lock
  rw [get_set inside]
  by_cases same : other = object
  · rw [if_pos same, if_pos same, Option.filter_some, if_pos alive]
  · rw [if_neg same, if_neg same]

/-- The channel is as live as before. -/
theorem Sound.set (sound : Sound controller) (held : controller.lock object = some channel) (alive : changed.alive = true)
    (live : changed.live = channel.live) : Sound { controller with objects := controller.objects.set object changed } := by
  obtain ⟨here, inside, _⟩ := lock_some held
  refine ⟨sound.checked, ?_, ?_, ?_, ?_, sound.suits⟩
  · intro other there at_
    dsimp only at at_
    rw [get_set inside] at at_
    split at at_
    · next same =>
      obtain rfl := Option.some.inj at_
      rw [same, live]
      exact sound.live object channel here
    · exact sound.live other there at_
  · intro other beyond
    exact sound.made other (List.length_set ▸ beyond)
  · intro id other there added locked
    rw [lock_set inside alive] at locked
    split at locked
    · next same => exact sound.latest id other channel added (same ▸ held)
    · exact sound.latest id other there added locked
  · intro id other added
    exact (sound.real id other added).trans_eq List.length_set.symm

theorem Sound.created (sound : Sound controller) :
    Sound { controller with objects := controller.objects ++ [⟨[], [], false, true⟩] } := by
  have split : ∀ other there, (controller.objects ++ [⟨[], [], false, true⟩])[other]? = some there →
      controller.objects[other]? = some there ∨ other = controller.objects.length ∧ there = ⟨[], [], false, true⟩ := by
    intro other there at_
    rcases Nat.lt_or_ge other controller.objects.length with less | more
    · exact .inl (List.getElem?_append_left less ▸ at_)
    · rw [List.getElem?_append_right more, List.getElem?_singleton] at at_
      obtain ⟨zero, rfl⟩ := Option.ite_none_right_eq_some.mp at_ |>.imp_right Option.some.inj
      exact .inr ⟨by omega, rfl⟩
  refine ⟨sound.checked, ?_, ?_, ?_, ?_, sound.suits⟩
  · intro other there at_
    rcases split other there at_ with old | ⟨rfl, rfl⟩
    · exact sound.live other there old
    · exact (sound.made _ le_rfl).symm
  · intro other beyond
    rw [List.length_append] at beyond
    exact sound.made other (Nat.le_of_succ_le beyond)
  · intro id other there added locked
    obtain ⟨at_, alive⟩ := Option.filter_eq_some_iff.mp locked
    rcases split other there at_ with old | ⟨rfl, rfl⟩
    · exact sound.latest id other there added (Option.filter_eq_some_iff.mpr ⟨old, alive⟩)
    · exact absurd (sound.real id _ added) (Nat.lt_irrefl _)
  · intro id other added
    rw [List.length_append]
    exact Nat.lt_succ_of_lt (sound.real id other added)

theorem Sound.destroyed (sound : Sound controller) (held : controller.lock object = some channel) :
    Sound { controller with objects := controller.objects.set object { channel with alive := false } } := by
  obtain ⟨here, inside, _⟩ := lock_some held
  refine ⟨sound.checked, ?_, ?_, ?_, ?_, sound.suits⟩
  · intro other there at_
    dsimp only at at_
    rw [get_set inside] at at_
    split at at_
    · next same =>
      obtain rfl := Option.some.inj at_
      rw [same]
      exact sound.live object channel here
    · exact sound.live other there at_
  · intro other beyond
    exact sound.made other (List.length_set ▸ beyond)
  · intro id other there added locked
    obtain ⟨at_, alive⟩ := Option.filter_eq_some_iff.mp locked
    dsimp only at at_
    rw [get_set inside] at at_
    split at at_
    · obtain rfl := Option.some.inj at_
      cases alive
    · exact sound.latest id other there added (Option.filter_eq_some_iff.mpr ⟨at_, alive⟩)
  · intro id other added
    exact (sound.real id other added).trans_eq List.length_set.symm

theorem Sound.add (sound : Sound controller) (held : controller.lock object = some channel) (id : QString) :
    Sound (controller.add object id) := by
  obtain ⟨here, inside, _⟩ := lock_some held
  unfold TwitchLiveController.add log
  constructor
  case checked =>
    intro other entry found
    dsimp only at found ⊢
    rw [wasUpdated_added]
    -- a channel that is added again has not been checked, whatever was there under its id
    by_cases same : id = other
    · subst same
      rw [AList.lookup_insert] at found
      rw [if_pos rfl, ← Option.some.inj found]
    · rw [AList.lookup_insert_ne (Ne.symm same)] at found
      rw [if_neg same]
      exact sound.checked other entry found
  case live =>
    intro other there at_
    rw [lastAnnounced_other (fun _ _ _ same => by cases same)]
    exact sound.live other there at_
  case made =>
    intro other beyond
    rw [lastAnnounced_other (fun _ _ _ same => by cases same)]
    exact sound.made other beyond
  case latest =>
    intro other latest there added locked
    dsimp only at added ⊢
    rw [lastAdded_added] at added
    split at added
    · next same =>
      obtain rfl := Option.some.inj added
      rw [← same, AList.lookup_insert]
      exact ⟨false, rfl⟩
    · next differ =>
      rw [AList.lookup_insert_ne (Ne.symm differ)]
      exact sound.latest other latest there added locked
  case real =>
    intro other latest added
    dsimp only at added
    rw [lastAdded_added] at added
    split at added
    · exact Option.some.inj added ▸ inside
    · exact sound.real other latest added
  case suits => exact sound.suits.concat trivial

/-- What a request or its answer does besides. -/
theorem Sound.asked (sound : Sound controller) {immediateRequests : List QString} {fetchedStreams fetchedChannels : List (List QString)} :
    Sound { controller with immediateRequests, fetchedStreams, fetchedChannels } :=
  ⟨sound.checked, sound.live, sound.made, sound.latest, sound.real, sound.suits⟩

/-- The entry is checked with the update that is logged. -/
theorem Sound.marked (sound : Sound controller) {id : QString} {entry : ChannelEntry}
    (found : controller.channels.lookup id = some entry) (isLive : Bool) :
    Sound (log { controller with channels := controller.channels.insert id { entry with wasChecked := true } }
      (.updated id entry.ptr isLive !entry.wasChecked)) := by
  constructor
  case checked =>
    intro other there looked
    dsimp only [log] at looked ⊢
    rw [wasUpdated_updated]
    by_cases same : id = other
    · subst same
      rw [AList.lookup_insert] at looked
      rw [if_pos rfl, ← Option.some.inj looked]
    · rw [AList.lookup_insert_ne (Ne.symm same)] at looked
      rw [if_neg same]
      exact sound.checked other there looked
  case live =>
    intro other there at_
    dsimp only [log]
    rw [lastAnnounced_other (fun _ _ _ same => by cases same)]
    exact sound.live other there at_
  case made =>
    intro other beyond
    dsimp only [log]
    rw [lastAnnounced_other (fun _ _ _ same => by cases same)]
    exact sound.made other beyond
  case latest =>
    intro other object there added locked
    dsimp only [log] at added ⊢
    rw [lastAdded_other (fun _ _ same => by cases same)] at added
    -- the entry keeps its object
    obtain ⟨wasChecked, looked⟩ := sound.latest other object there added locked
    by_cases same : id = other
    · subst same
      rw [AList.lookup_insert]
      obtain rfl := Option.some.inj (found.symm.trans looked)
      exact ⟨true, rfl⟩
    · rw [AList.lookup_insert_ne (Ne.symm same)]
      exact ⟨wasChecked, looked⟩
  case real =>
    intro other object added
    dsimp only [log] at added
    rw [lastAdded_other (fun _ _ same => by cases same)] at added
    exact sound.real other object added
  case suits =>
    refine sound.suits.concat ?_
    rw [Suits, sound.checked id entry found]

theorem Sound.announce (sound : Sound controller) (held : controller.lock object = some channel)
    (alive : changed.alive = true) (changes : changed.live = !channel.live) {isInitialUpdate : Bool} {id : QString}
    (last : controller.history.getLast? = some (.updated id object changed.live isInitialUpdate)) :
    Sound (log { controller with objects := controller.objects.set object changed }
      (.announced object changed.live isInitialUpdate)) := by
  obtain ⟨here, inside, _⟩ := lock_some held
  constructor
  case checked =>
    intro other entry looked
    dsimp only [log]
    rw [wasUpdated_announced]
    exact sound.checked other entry looked
  case live =>
    intro other there at_
    dsimp only [log] at at_ ⊢
    rw [lastAnnounced_announced]
    rw [get_set inside] at at_
    by_cases same : other = object
    · rw [if_pos same] at at_
      rw [if_pos same.symm, ← Option.some.inj at_]
    · rw [if_neg same] at at_
      rw [if_neg (Ne.symm same)]
      exact sound.live other there at_
  case made =>
    intro other beyond
    dsimp only [log] at beyond ⊢
    rw [List.length_set] at beyond
    rw [lastAnnounced_announced, if_neg (Nat.ne_of_lt (inside.trans_le beyond))]
    exact sound.made other beyond
  case latest =>
    intro id other there added locked
    dsimp only [log] at added ⊢
    rw [lastAdded_other (fun _ _ same => by cases same)] at added
    have locked := (lock_set inside alive other).symm.trans locked
    split at locked
    · next same => exact sound.latest id other channel added (same ▸ held)
    · exact sound.latest id other there added locked
  case real =>
    intro id other added
    dsimp only [log] at added ⊢
    rw [lastAdded_other (fun _ _ same => by cases same)] at added
    exact (sound.real id other added).trans_eq List.length_set.symm
  case suits =>
    refine sound.suits.concat ⟨?_, id, last⟩
    -- the status of the object is the last one announced, and this one is the other
    rw [changes, sound.live object channel here]

theorem Sound.updateChannel (sound : Sound controller) {id : QString} {entry : ChannelEntry}
    (found : controller.channels.lookup id = some entry) (held : controller.lock entry.ptr = some channel)
    (stream : Option HelixStream) : Sound (controller.updateChannel id entry channel stream) := by
  have alive := (Option.filter_eq_some_iff.mp held).2
  have marked := sound.marked found stream.isSome
  unfold TwitchLiveController.updateChannel updateStreamStatus
  dsimp only
  split
  · next same => exact marked.set held alive same.symm
  · next changes =>
    refine marked.announce held ?_ ?_ List.getLast?_concat
    · exact alive
    · exact Bool.eq_not.mpr (Ne.symm changes)

theorem updateChannel_lock (id : QString) {entry : ChannelEntry} (held : controller.lock entry.ptr = some channel)
    (stream : Option HelixStream) (other : Nat) : (controller.updateChannel id entry channel stream).lock other =
      if other = entry.ptr then some { channel with
        title := (stream.map HelixStream.title).getD channel.title, live := stream.isSome }
      else controller.lock other := by
  obtain ⟨_, inside, alive⟩ := lock_some held
  rw [← lock_set inside (by exact alive)]
  unfold TwitchLiveController.updateChannel updateStreamStatus
  dsimp only
  split <;> rfl

theorem updateChannel_channels (id : QString) (entry : ChannelEntry) (channel : StreamChannel)
    (stream : Option HelixStream) : (controller.updateChannel id entry channel stream).channels =
      controller.channels.insert id { entry with wasChecked := true } := by
  unfold TwitchLiveController.updateChannel updateStreamStatus
  dsimp only
  split <;> rfl

theorem updateChannel_history (id : QString) (entry : ChannelEntry) (channel : StreamChannel)
    (stream : Option HelixStream) : (controller.updateChannel id entry channel stream).history =
      controller.history ++ .updated id entry.ptr stream.isSome (!entry.wasChecked) ::
        if channel.live = stream.isSome then [] else [.announced entry.ptr stream.isSome (!entry.wasChecked)] := by
  unfold TwitchLiveController.updateChannel updateStreamStatus
  dsimp only
  split
  · rfl
  · rw [log, log, List.append_assoc]
    rfl

theorem updateChannel_frame (id : QString) {entry : ChannelEntry} (held : controller.lock entry.ptr = some channel)
    (stream : Option HelixStream) :
    (controller.updateChannel id entry channel stream).channels =
      controller.channels.insert id { entry with wasChecked := true } ∧
    ∀ other, controller.lock other = none → (controller.updateChannel id entry channel stream).lock other = none := by
  refine ⟨updateChannel_channels id entry channel stream, fun other gone => ?_⟩
  rw [updateChannel_lock id held]
  split
  · next same =>
    rw [same, held] at gone
    cases gone
  · exact gone

/-- The ids are those of channels that are gone. -/
def Dead (controller : TwitchLiveController) (deadChannels : List QString) : Prop :=
  ∀ id ∈ deadChannels, ∀ entry, controller.channels.lookup id = some entry → controller.lock entry.ptr = none

theorem Dead.found {deadChannels : List QString} (dead : Dead controller deadChannels) {id : QString} {entry : ChannelEntry}
    (found : controller.channels.lookup id = some entry) (gone : controller.lock entry.ptr = none) :
    Dead controller (deadChannels ++ [id]) := by
  intro other member there looked
  rcases List.mem_append.mp member with old | last
  · exact dead other old there looked
  · obtain rfl := List.mem_singleton.mp last
    obtain rfl := Option.some.inj (found.symm.trans looked)
    exact gone

theorem Sound.applyResult {state : TwitchLiveController × List QString} (sound : Sound state.1) (dead : Dead state.1 state.2)
    (id : QString) (stream : Option HelixStream) :
    Sound (applyResult state id stream).1 ∧ Dead (applyResult state id stream).1 (applyResult state id stream).2 := by
  unfold TwitchLiveController.applyResult
  split
  · exact ⟨sound, dead⟩
  · next entry found =>
    split
    · next gone => exact ⟨sound, dead.found found gone⟩
    · next channel held =>
      refine ⟨sound.updateChannel found held stream, fun other member there looked => ?_⟩
      obtain ⟨channels, stays⟩ := updateChannel_frame id held stream
      rw [channels] at looked
      by_cases same : other = id
      · subst same
        rw [dead other member entry found] at held
        cases held
      · rw [AList.lookup_insert_ne same] at looked
        exact stays _ (dead other member there looked)

theorem Sound.applyTitle {state : TwitchLiveController × List QString} (sound : Sound state.1) (dead : Dead state.1 state.2)
    (helixChannel : QString × QString) :
    Sound (applyTitle state helixChannel).1 ∧ Dead (applyTitle state helixChannel).1 (applyTitle state helixChannel).2 := by
  unfold TwitchLiveController.applyTitle
  split
  · exact ⟨sound, dead⟩
  · next entry found =>
    split
    · next gone => exact ⟨sound, dead.found found gone⟩
    · next channel held =>
      obtain ⟨_, inside, alive⟩ := lock_some held
      refine ⟨sound.set held alive rfl, fun other member there looked => ?_⟩
      have gone := dead other member there looked
      refine (lock_set inside (by exact alive) there.ptr).trans ?_
      rw [if_neg, gone]
      intro same
      rw [same, held] at gone
      cases gone

/-- Entries of channels that are gone are not missed. -/
theorem Sound.eraseDead {deadChannels : List QString} (sound : Sound controller) (dead : Dead controller deadChannels) :
    Sound (controller.eraseDead deadChannels) := by
  induction deadChannels generalizing controller with
  | nil => exact sound
  | cons gone deadChannels ih =>
    have kept : ∀ id entry, (controller.channels.erase gone).lookup id = some entry →
        id ≠ gone ∧ controller.channels.lookup id = some entry := by
      intro id entry looked
      by_cases same : id = gone
      · rw [same, AList.lookup_erase] at looked
        cases looked
      · exact ⟨same, AList.lookup_erase_ne same ▸ looked⟩
    have erased : Sound { controller with channels := controller.channels.erase gone } := by
      refine ⟨?_, sound.live, sound.made, ?_, sound.real, sound.suits⟩
      · exact fun id entry looked => sound.checked id entry (kept id entry looked).2
      · intro id object channel added held
        obtain ⟨wasChecked, looked⟩ := sound.latest id object channel added held
        refine ⟨wasChecked, ?_⟩
        rw [AList.lookup_erase_ne, looked]
        intro same
        have none := dead gone List.mem_cons_self ⟨object, wasChecked⟩ (same ▸ looked)
        rw [show controller.lock object = some channel from held] at none
        cases none
    refine ih erased fun id member entry looked => ?_
    exact dead id (List.mem_cons_of_mem gone member) entry (kept id entry looked).2

theorem Sound.streamsFetched (sound : Sound controller) (batch : List QString) (streams : List HelixStream) :
    Sound (controller.streamsFetched batch streams) := by
  suffices folded : ∀ (entries : List (Sigma fun _ : QString => Option HelixStream)) (state : TwitchLiveController × List QString),
      Sound state.1 → Dead state.1 state.2 →
      let final := entries.foldl (fun state result => TwitchLiveController.applyResult state result.1 result.2) state
      Sound final.1 ∧ Dead final.1 final.2 by
    obtain ⟨done, dead⟩ := folded (results batch streams).entries (controller, []) sound fun _ none =>
      absurd none List.not_mem_nil
    exact done.eraseDead dead
  intro entries
  induction entries with
  | nil => exact fun _ sound dead => ⟨sound, dead⟩
  | cons result entries ih =>
    intro state sound dead
    obtain ⟨sound, dead⟩ := sound.applyResult dead result.1 result.2
    exact ih _ sound dead

theorem Sound.channelsFetched (sound : Sound controller) (helixChannels : List (QString × QString)) :
    Sound (controller.channelsFetched helixChannels) := by
  suffices folded : ∀ (helixChannels : List (QString × QString)) (state : TwitchLiveController × List QString),
      Sound state.1 → Dead state.1 state.2 →
      let final := helixChannels.foldl TwitchLiveController.applyTitle state
      Sound final.1 ∧ Dead final.1 final.2 by
    obtain ⟨done, dead⟩ := folded helixChannels (controller, []) sound fun _ none => absurd none List.not_mem_nil
    exact done.eraseDead dead
  intro helixChannels
  induction helixChannels with
  | nil => exact fun _ sound dead => ⟨sound, dead⟩
  | cons helixChannel helixChannels ih =>
    intro state sound dead
    obtain ⟨sound, dead⟩ := sound.applyTitle dead helixChannel
    exact ih _ sound dead

theorem Sound.step {event : Event} {next : TwitchLiveController} (sound : Sound controller)
    (taken : controller.step event = some next) : Sound next := by
  cases event with
  | created =>
    obtain rfl := Option.some.inj taken
    exact sound.created
  | destroyed object =>
    obtain ⟨channel, held, rfl⟩ := Option.map_eq_some_iff.mp taken
    exact sound.destroyed held
  | roomIdChanged object id =>
    obtain ⟨channel, held, taken⟩ := Option.bind_eq_some_iff.mp taken
    obtain ⟨_, taken⟩ := Option.ite_none_left_eq_some.mp taken
    obtain rfl := Option.some.inj taken
    obtain ⟨_, inside, alive⟩ := lock_some held
    have renamed : Sound { controller with objects := controller.objects.set object { channel with roomId := id } } :=
      sound.set held alive rfl
    have holds : ({ controller with objects := controller.objects.set object { channel with roomId := id } } :
        TwitchLiveController).lock object = some { channel with roomId := id } := by
      rw [lock_set inside (by exact alive), if_pos rfl]
    exact renamed.add holds id
  | refreshTimer =>
    obtain rfl := Option.some.inj taken
    exact sound.asked
  | immediateRequestTimer =>
    obtain rfl := Option.some.inj taken
    exact sound.asked
  | streams batch answer =>
    obtain ⟨_, taken⟩ := Option.ite_none_right_eq_some.mp taken
    obtain rfl := Option.some.inj taken
    have asked : Sound { controller with fetchedStreams := controller.fetchedStreams.erase batch } := sound.asked
    cases answer with
    | none => exact asked
    | some streams => exact asked.streamsFetched batch streams
  | channels batch answer =>
    obtain ⟨_, taken⟩ := Option.ite_none_right_eq_some.mp taken
    obtain rfl := Option.some.inj taken
    have asked : Sound { controller with fetchedChannels := controller.fetchedChannels.erase batch } := sound.asked
    cases answer with
    | none => exact asked
    | some helixChannels => exact asked.channelsFetched helixChannels

/-- Whatever becomes of the channels and in whatever order the answers arrive: a channel is announced as live and as
offline in turn, each time from an update, and an update is initial when it is the first one since the channel was added. -/
theorem announcements_in_turn {events : List Event} {final : TwitchLiveController} (ran : run step new events = some final) :
    Throughout Suits final.history :=
  (run_keeps (fun _ _ _ sound => sound.step) ran sound_new).suits

theorem announcements_in_turn_online : ∃ final, run step new [.created, .roomIdChanged 0 [0x31], .immediateRequestTimer,
    .streams [[0x31]] (some [⟨[0x31], [], []⟩]), .refreshTimer, .streams [[0x31]] (some [])] = some final ∧
    Throughout Suits final.history := by
  obtain ⟨final, ran⟩ : ∃ final, run step new [.created, .roomIdChanged 0 [0x31], .immediateRequestTimer,
    .streams [[0x31]] (some [⟨[0x31], [], []⟩]), .refreshTimer, .streams [[0x31]] (some [])] = some final := ⟨_, rfl⟩
  exact ⟨final, ran, announcements_in_turn ran⟩

/-- A refresh asks for every channel that is alive and was the last one to be added for its id, in one batch of those that
may be asked for at once. -/
theorem refresh_asks_all {events : List Event} {final refreshed : TwitchLiveController} (ran : run step new events = some final)
    (refreshes : final.step .refreshTimer = some refreshed) :
    ∃ batches, refreshed.fetchedStreams = final.fetchedStreams ++ batches ∧
      refreshed.fetchedChannels = final.fetchedChannels ++ batches ∧ batches.flatten.Nodup ∧
      (∀ batch ∈ batches, batch.length ≤ BATCH_SIZE) ∧
      ∀ id object channel, lastAdded final.history id = some object → final.lock object = some channel →
        id ∈ batches.flatten := by
  have sound := run_keeps (fun _ _ _ sound => sound.step) ran sound_new
  obtain rfl := Option.some.inj refreshes
  refine ⟨splitListIntoBatches BATCH_SIZE final.channels.keys, rfl, rfl, ?_, takeBatches_length, ?_⟩
  · rw [splitListIntoBatches_flatten (by decide)]
    exact final.channels.keys_nodup
  · intro id object channel added held
    obtain ⟨wasChecked, looked⟩ := sound.latest id object channel added held
    rw [splitListIntoBatches_flatten (by decide)]
    apply AList.lookup_isSome.mp
    rw [looked]
    rfl

theorem refresh_asks_all_one : ∃ final refreshed : TwitchLiveController, run step new [.created, .roomIdChanged 0 [0x31]] = some final ∧
    ∃ batches, refreshed.fetchedStreams = final.fetchedStreams ++ batches ∧
      refreshed.fetchedChannels = final.fetchedChannels ++ batches ∧ batches.flatten.Nodup ∧
      (∀ batch ∈ batches, batch.length ≤ BATCH_SIZE) ∧
      ∀ id object channel, lastAdded final.history id = some object → final.lock object = some channel →
        id ∈ batches.flatten := by
  obtain ⟨final, ran⟩ : ∃ final, run step new [.created, .roomIdChanged 0 [0x31]] = some final := ⟨_, rfl⟩
  exact ⟨final, final.request final.channels.keys, ran, refresh_asks_all ran rfl⟩

end TwitchLiveController

end Forserino.Twitch
