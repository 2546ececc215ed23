import Forserino.Foundation.Runs
import Forserino.Messages.BoundedList
import Forserino.Qt.Text
import Mathlib.Data.List.AList

/-! Redemptions of channel points: the chat message and the notification of the reward come over two
connections, in either order. A message whose reward is not known yet is shown without it, and replaced
when the reward becomes known.

Messages are objects, numbered in the order in which they are built.
-/

set_option autoImplicit false

namespace Forserino.Twitch

open Foundation Qt Messages

def MAX_QUEUED_REDEMPTIONS : Nat := 16

structure ChannelPointReward where
  id : QString
  title : QString
  cost : Int
  isUserInputRequired : Bool
  deriving DecidableEq, Repr

/-- A chat message with the tags that are read here. -/
structure IrcMessage where
  id : QString
  customRewardId : Option QString
  msgId : Option QString
  deriving DecidableEq, Repr

/-- A message that was built, with the reward that it shows. -/
structure Message where
  object : Nat
  id : QString
  rewardId : QString
  reward : Option ChannelPointReward
  deriving DecidableEq, Repr

structure QueuedRedemption where
  rewardID : QString
  message : IrcMessage
  deriving DecidableEq, Repr

namespace IrcMessage

/-- Power-ups that were paid with bits are treated as redemptions. -/
def rewardId (message : IrcMessage) : QString :=
  match message.customRewardId with
  | some id => id
  | none =>
    match message.msgId with
    | some id => if id = qs "animated-message" ∨ id = qs "gigantified-emote-message" then id else []
    | none => []

end IrcMessage

/-- The channel, with the ids of the messages that no reward is awaited for any more. -/
structure RewardChannel where
  messages : List Message
  channelPointRewards : AList fun _ : QString => ChannelPointReward
  waitingRedemptions : CircularBuffer QueuedRedemption MAX_QUEUED_REDEMPTIONS
  built : Nat
  givenUp : List QString

namespace RewardChannel

def empty : RewardChannel := ⟨[], ∅, .empty MAX_QUEUED_REDEMPTIONS, 0, []⟩

variable (limit : Nat)

def addMessage (channel : RewardChannel) (message : Message) : RewardChannel :=
  { channel with messages := (BoundedList.pushBack limit channel.messages message).1 }

/-- The last message with the id. -/
def findMessageByID (channel : RewardChannel) (messageID : QString) : Option Message :=
  channel.messages.reverse.find? fun message => message.id == messageID

def replaceMessage (channel : RewardChannel) (message replacement : Message) : RewardChannel :=
  { channel with
    messages := (BoundedList.replaceFirst (fun other => other.object == message.object) channel.messages replacement).1 }

def isChannelPointRewardKnown (channel : RewardChannel) (rewardId : QString) : Bool :=
  (channel.channelPointRewards.lookup rewardId).isSome

/-- The first redemption that waits is overwritten when there is no room. -/
def addQueuedRedemption (channel : RewardChannel) (rewardId : QString) (message : IrcMessage) : RewardChannel :=
  { channel with
    waitingRedemptions := channel.waitingRedemptions.push_back ⟨rewardId, message⟩
    givenUp := channel.givenUp ++
      if channel.waitingRedemptions.full then (channel.waitingRedemptions.items.take 1).map fun queued => queued.message.id
      else [] }

/-- Nothing is built of a message that is ignored. -/
def makeIrcMessage (channel : RewardChannel) (ignored : IrcMessage → Bool) (message : IrcMessage) :
    Option Message :=
  if ignored message then none
  else some {
    object := channel.built
    id := message.id
    rewardId := message.rewardId
    reward := if message.rewardId = [] then none else channel.channelPointRewards.lookup message.rewardId }

/-- The channel with what is built of the message. -/
def build (channel : RewardChannel) (ignored : IrcMessage → Bool) (message : IrcMessage) : RewardChannel :=
  match channel.makeIrcMessage ignored message with
  | some msg => { channel with built := channel.built + 1 }.addMessage limit msg
  | none => channel

/-- IrcMessageHandler::addMessage, with the channel as the sink. -/
def handleMessage (channel : RewardChannel) (ignored : IrcMessage → Bool) (message : IrcMessage) : RewardChannel :=
  let rewardId := message.rewardId
  if rewardId ≠ [] ∧ !channel.isChannelPointRewardKnown rewardId then
    (channel.addQueuedRedemption rewardId message).build limit ignored message
  else channel.build limit ignored message

/-- What is done with a redemption whose reward has become known, before it is removed from the queue. -/
def redeem (ignored : IrcMessage → Bool) (channel : RewardChannel) (msg : QueuedRedemption) : RewardChannel :=
  match channel.makeIrcMessage ignored msg.message with
  | none => { channel with givenUp := channel.givenUp ++ [msg.message.id] }
  | some next =>
      let channel := { channel with built := channel.built + 1 }
      match channel.findMessageByID next.id with
      | none => channel.addMessage limit next
      | some prev => channel.replaceMessage prev next

def removeWaiting (channel : RewardChannel) (rewardID : QString) : RewardChannel :=
  { channel with waitingRedemptions :=
      ⟨channel.waitingRedemptions.items.filter fun msg => msg.rewardID ≠ rewardID,
        (List.length_filter_le _ _).trans channel.waitingRedemptions.size_le⟩ }

def addChannelPointReward (channel : RewardChannel) (ignored : IrcMessage → Bool) (reward : ChannelPointReward) :
    RewardChannel :=
  if !reward.isUserInputRequired then
    -- a message of its own, which no user has sent
    { channel with built := channel.built + 1 }.addMessage limit ⟨channel.built, [], [], some reward⟩
  else
    match channel.channelPointRewards.lookup reward.id with
    | some _ => channel
    | none =>
        let channel := { channel with channelPointRewards := channel.channelPointRewards.insert reward.id reward }
        ((channel.waitingRedemptions.items.filter fun msg => msg.rewardID = reward.id).foldl (redeem limit ignored)
          channel).removeWaiting reward.id

/-- What is ignored depends on the settings when an event happens. -/
inductive Event where
  | privMsg (message : IrcMessage) (ignored : IrcMessage → Bool)
  | redeemed (reward : ChannelPointReward) (ignored : IrcMessage → Bool)
  | clearMessages

def Event.id? : Event → Option QString
  | .privMsg message _ => some message.id
  | _ => none

def step (channel : RewardChannel) : Event → Option RewardChannel
  | .privMsg message ignored => some (channel.handleMessage limit ignored message)
  | .redeemed reward ignored => some (channel.addChannelPointReward limit ignored reward)
  | .clearMessages => some { channel with messages := [] }

/-! ## What holds of the messages -/

/-- What holds while the redemptions of the list wait; the ids of the messages that were received are seen. -/
structure Kept (seen : List QString) (waiting : List QueuedRedemption) (channel : RewardChannel) : Prop where
  numbered : ∀ m ∈ channel.messages, m.object < channel.built
  distinct : (channel.messages.map Message.object).Nodup
  single : ((channel.messages.map Message.id).filter (· ≠ [])).Nodup
  origin : ∀ m ∈ channel.messages, m.id = [] ∧ m.rewardId = [] ∨ m.id ∈ seen
  queued : ∀ q ∈ waiting, q.message.id ∈ seen ∧ q.rewardID = q.message.rewardId ∧ q.rewardID ≠ []
  honest : ∀ m ∈ channel.messages, m.rewardId ≠ [] → ∀ reward, m.reward = some reward →
    channel.channelPointRewards.lookup m.rewardId = some reward
  settled : ∀ m ∈ channel.messages, m.rewardId ≠ [] → m.id ∈ channel.givenUp ∨ m.reward.isSome = true ∨
    ∃ q ∈ waiting, q.message.id = m.id ∧ q.rewardID = m.rewardId

section
variable {limit : Nat} {seen : List QString} {waiting : List QueuedRedemption} {channel : RewardChannel}

theorem kept_empty : Kept [] [] empty where
  numbered := fun _ impossible => absurd impossible List.not_mem_nil
  distinct := List.nodup_nil
  single := List.nodup_nil
  origin := fun _ impossible => absurd impossible List.not_mem_nil
  queued := fun _ impossible => absurd impossible List.not_mem_nil
  honest := fun _ impossible => absurd impossible List.not_mem_nil
  settled := fun _ impossible => absurd impossible List.not_mem_nil

/-- Messages may leave the channel. -/
theorem Kept.fewer (kept : Kept seen waiting channel) {messages : List Message} (fewer : messages.Sublist channel.messages) :
    Kept seen waiting { channel with messages } where
  numbered := fun m member => kept.numbered m (fewer.subset member)
  distinct := kept.distinct.sublist (fewer.map _)
  single := kept.single.sublist ((fewer.map _).filter _)
  origin := fun m member => kept.origin m (fewer.subset member)
  queued := kept.queued
  honest := fun m member => kept.honest m (fewer.subset member)
  settled := fun m member => kept.settled m (fewer.subset member)

/-- A message that has just been built, of which the channel has none yet. -/
structure Addable (seen : List QString) (waiting : List QueuedRedemption) (channel : RewardChannel) (message : Message) :
    Prop where
  object : message.object = channel.built
  fresh : message.id = [] ∨ ∀ m ∈ channel.messages, m.id ≠ message.id
  origin : message.id = [] ∧ message.rewardId = [] ∨ message.id ∈ seen
  honest : message.rewardId ≠ [] → ∀ reward, message.reward = some reward →
    channel.channelPointRewards.lookup message.rewardId = some reward
  settled : message.rewardId ≠ [] → message.id ∈ channel.givenUp ∨ message.reward.isSome = true ∨
    ∃ q ∈ waiting, q.message.id = message.id ∧ q.rewardID = message.rewardId

theorem pushBack_suffix (limit : Nat) (messages : List Message) (message : Message) :
    (BoundedList.pushBack limit messages message).1 <:+ messages ++ [message] := by
  unfold BoundedList.pushBack
  split
  · exact List.suffix_rfl
  · exact List.tail_suffix _

theorem Kept.added (kept : Kept seen waiting channel) {message : Message} (addable : Addable seen waiting channel message)
    (limit : Nat) : Kept seen waiting ({ channel with built := channel.built + 1 }.addMessage limit message) := by
  have longer : Kept seen waiting
      { channel with built := channel.built + 1, messages := channel.messages ++ [message] } := by
    have either : ∀ m, m ∈ channel.messages ++ [message] → m ∈ channel.messages ∨ m = message := by
      intro m member
      rwa [List.mem_append, List.mem_singleton] at member
    constructor
    case numbered =>
      intro m member
      rcases either m member with old | rfl
      · exact Nat.lt_succ_of_lt (kept.numbered m old)
      · rw [addable.object]
        exact Nat.lt_succ_self channel.built
    case distinct =>
      rw [List.map_append, List.nodup_append]
      refine ⟨kept.distinct, List.nodup_singleton _, ?_⟩
      intro object old last isLast same
      obtain ⟨m, inside, rfl⟩ := List.mem_map.mp old
      have smaller := kept.numbered m inside
      rw [same, List.mem_singleton.mp isLast, addable.object] at smaller
      exact Nat.lt_irrefl _ smaller
    case single =>
      rw [List.map_append, List.filter_append, List.nodup_append]
      refine ⟨kept.single, (List.nodup_singleton message.id).filter _, ?_⟩
      intro id old last isLast same
      obtain ⟨inside, nonempty⟩ := List.mem_filter.mp old
      obtain ⟨m, member, rfl⟩ := List.mem_map.mp inside
      have isMessage := List.mem_singleton.mp (List.mem_filter.mp isLast).1
      rw [isMessage] at same
      rcases addable.fresh with blank | fresh
      · exact of_decide_eq_true nonempty (same.trans blank)
      · exact fresh m member same
    case origin =>
      intro m member
      rcases either m member with old | rfl
      · exact kept.origin m old
      · exact addable.origin
    case queued => exact kept.queued
    case honest =>
      intro m member
      rcases either m member with old | rfl
      · exact kept.honest m old
      · exact addable.honest
    case settled =>
      intro m member
      rcases either m member with old | rfl
      · exact kept.settled m old
      · exact addable.settled
  -- a full buffer drops messages from the front, which breaks nothing
  exact longer.fewer (pushBack_suffix limit channel.messages message).sublist

/-- Messages with an id are told apart by it. -/
theorem Kept.id_unique (kept : Kept seen waiting channel) {m other : Message} (first : m ∈ channel.messages)
    (second : other ∈ channel.messages) (same : m.id = other.id) (nonempty : m.id ≠ []) : m = other := by
  have distinct := kept.single
  rw [List.filter_map] at distinct
  exact List.inj_on_of_nodup_map distinct (List.mem_filter.mpr ⟨first, decide_eq_true nonempty⟩)
    (List.mem_filter.mpr ⟨second, decide_eq_true (same ▸ nonempty)⟩) same

/-- The message takes the place of the only one with its id. -/
theorem Kept.replaced (kept : Kept seen waiting channel) {prev : Message} (next : Message) (inside : prev ∈ channel.messages)
    (sameId : prev.id = next.id) (nonempty : next.id ≠ []) (object : next.object = channel.built) (origin : next.id ∈ seen)
    (honest : next.rewardId ≠ [] → ∀ reward, next.reward = some reward →
      channel.channelPointRewards.lookup next.rewardId = some reward)
    (shows : next.rewardId ≠ [] → next.reward.isSome = true) :
    Kept seen waiting ({ channel with built := channel.built + 1 }.replaceMessage prev next) ∧
      ∀ m ∈ ({ channel with built := channel.built + 1 }.replaceMessage prev next).messages, m.id = next.id → m = next := by
  have found : (channel.messages.findIdx? fun other => other.object == prev.object).isSome = true := by
    rw [List.findIdx?_isSome, List.any_eq_true]
    exact ⟨prev, inside, beq_self_eq_true _⟩
  -- the object is searched for, not the id: it stands at the place of the old message only
  obtain ⟨place, at_⟩ := Option.isSome_iff_exists.mp found
  obtain ⟨front, old, back, shape, count, isPrev, -⟩ := split_findIdx at_
  have member : old ∈ channel.messages := by
    rw [shape]
    exact List.mem_append_right front List.mem_cons_self
  obtain rfl : old = prev := List.inj_on_of_nodup_map kept.distinct member inside (beq_iff_eq.mp isPrev)
  have same : replaceMessage { channel with built := channel.built + 1 } old next =
      { channel with built := channel.built + 1, messages := front ++ next :: back } := by
    unfold RewardChannel.replaceMessage BoundedList.replaceFirst
    simp only [at_]
    rw [shape, ← count, set_append]
  rw [same]
  have either : ∀ m, m ∈ front ++ next :: back → m ∈ channel.messages ∨ m = next := by
    intro m inside
    rw [List.mem_append, List.mem_cons] at inside
    rw [shape, List.mem_append, List.mem_cons]
    rcases inside with ahead | rfl | behind
    · exact .inl (.inl ahead)
    · exact .inr rfl
    · exact .inl (.inr (.inr behind))
  have distinct := kept.distinct
  have single := kept.single
  rw [shape, List.map_append, List.map_cons] at distinct single
  suffices keeps : Kept seen waiting { channel with built := channel.built + 1, messages := front ++ next :: back } from
    ⟨keeps, fun m inside equal =>
      keeps.id_unique inside (List.mem_append_right front List.mem_cons_self) equal (equal ▸ nonempty)⟩
  constructor
  case numbered =>
    intro m inside
    rcases either m inside with there | rfl
    · exact Nat.lt_succ_of_lt (kept.numbered m there)
    · rw [object]
      exact Nat.lt_succ_self channel.built
  case distinct =>
    rw [List.map_append, List.map_cons]
    -- the new message has a number that was never given out
    have others : next.object ∉ (front ++ back).map Message.object := by
      intro impossible
      obtain ⟨m, there, equal⟩ := List.mem_map.mp impossible
      have smaller := kept.numbered m (by
        rw [shape]
        rcases List.mem_append.mp there with ahead | behind
        · exact List.mem_append_left _ ahead
        · exact List.mem_append_right _ (List.mem_cons_of_mem _ behind))
      rw [equal, object] at smaller
      exact Nat.lt_irrefl _ smaller
    have without := (List.perm_middle.nodup_iff.mp distinct)
    rw [List.nodup_cons] at without
    rw [List.map_append] at others
    exact List.perm_middle.nodup_iff.mpr (List.nodup_cons.mpr ⟨others, without.2⟩)
  case single =>
    rw [List.map_append, List.map_cons, ← sameId]
    exact single
  case origin =>
    intro m inside
    rcases either m inside with there | rfl
    · exact kept.origin m there
    · exact .inr origin
  case queued => exact kept.queued
  case honest =>
    intro m inside
    rcases either m inside with there | rfl
    · exact kept.honest m there
    · exact honest
  case settled =>
    intro m inside
    rcases either m inside with there | rfl
    · exact kept.settled m there
    · exact fun redeems => .inr (.inl (shows redeems))

theorem findMessageByID_some {id : QString} {message : Message} (found : channel.findMessageByID id = some message) :
    message ∈ channel.messages ∧ message.id = id :=
  ⟨List.mem_reverse.mp (List.mem_of_find?_eq_some found), by simpa using List.find?_some found⟩

theorem findMessageByID_none {id : QString} (missing : channel.findMessageByID id = none) :
    ∀ m ∈ channel.messages, m.id ≠ id := by
  intro m member same
  have search := List.find?_eq_none.mp missing m (List.mem_reverse.mpr member)
  exact search (beq_iff_eq.mpr same)

/-- A redemption is done with: no message waits for it any more. -/
theorem Kept.dropped {q : QueuedRedemption} (kept : Kept seen (q :: waiting) channel)
    (done : ∀ m ∈ channel.messages, m.id = q.message.id → m.rewardId ≠ [] →
      m.id ∈ channel.givenUp ∨ m.reward.isSome = true) :
    Kept seen waiting channel :=
  { kept with
    queued := fun other member => kept.queued other (List.mem_cons_of_mem q member)
    settled := by
      intro m member redeems
      rcases kept.settled m member redeems with given | shown | ⟨other, waits, same, reward⟩
      · exact .inl given
      · exact .inr (.inl shown)
      · rcases List.mem_cons.mp waits with rfl | later
        · exact (done m member same.symm redeems).imp_right .inl
        · exact .inr (.inr ⟨other, later, same, reward⟩) }

theorem makeIrcMessage_cases (channel : RewardChannel) (ignored : IrcMessage → Bool) (message : IrcMessage) :
    channel.makeIrcMessage ignored message = none ∨
      channel.makeIrcMessage ignored message = some ⟨channel.built, message.id, message.rewardId,
        if message.rewardId = [] then none else channel.channelPointRewards.lookup message.rewardId⟩ := by
  unfold makeIrcMessage
  split
  · exact .inl rfl
  · exact .inr rfl

/-- What a redemption leaves as it is. -/
structure Redeemed (channel next : RewardChannel) : Prop where
  rewards : next.channelPointRewards = channel.channelPointRewards
  waiting : next.waitingRedemptions = channel.waitingRedemptions

theorem Kept.redeem (limit : Nat) {q : QueuedRedemption} (kept : Kept seen (q :: waiting) channel) (blank : [] ∉ seen)
    (isKnown : (channel.channelPointRewards.lookup q.rewardID).isSome = true) (ignored : IrcMessage → Bool) :
    Kept seen waiting (RewardChannel.redeem limit ignored channel q) ∧
      Redeemed channel (RewardChannel.redeem limit ignored channel q) := by
  obtain ⟨isSeen, reward, redeems⟩ := kept.queued q List.mem_cons_self
  have nonempty : q.message.id ≠ [] := fun same => blank (same ▸ isSeen)
  -- an ignored message is not built; one that was shown already is replaced, any other added
  unfold RewardChannel.redeem
  rcases channel.makeIrcMessage_cases ignored q.message with nothing | builds
  · rw [nothing]
    refine ⟨Kept.dropped (q := q) { kept with
      settled := fun m member isRedeemed =>
        (kept.settled m member isRedeemed).imp_left fun given => List.mem_append_left _ given } ?_, rfl, rfl⟩
    intro m _ same _
    exact .inl (List.mem_append_right _ (List.mem_singleton.mpr same))
  · rw [builds, if_neg (reward ▸ redeems), ← reward]
    dsimp only
    split
    · next missing =>
      have absent := findMessageByID_none missing
      have addable : Addable seen (q :: waiting) channel
          ⟨channel.built, q.message.id, q.rewardID, channel.channelPointRewards.lookup q.rewardID⟩ := by
        refine ⟨rfl, .inr absent, .inr isSeen, fun _ _ shows => shows, fun _ => .inr (.inl isKnown)⟩
      refine ⟨(kept.added addable limit).dropped ?_, rfl, rfl⟩
      intro m member same _
      rcases List.mem_append.mp ((pushBack_suffix limit channel.messages _).subset member) with old | last
      · exact absurd same (absent m old)
      · rw [List.mem_singleton.mp last]
        exact .inr isKnown
    · next prev found =>
      obtain ⟨inside, same⟩ := findMessageByID_some found
      obtain ⟨replaced, only⟩ := kept.replaced ⟨channel.built, q.message.id, q.rewardID,
        channel.channelPointRewards.lookup q.rewardID⟩ inside same nonempty rfl isSeen (fun _ _ shows => shows)
        fun _ => isKnown
      refine ⟨replaced.dropped ?_, rfl, rfl⟩
      intro m member sameToo _
      rw [only m member sameToo]
      exact .inr isKnown

theorem Kept.redeem_all (limit : Nat) {ready : List QueuedRedemption} (kept : Kept seen (ready ++ waiting) channel) (blank : [] ∉ seen)
    (isKnown : ∀ q ∈ ready, (channel.channelPointRewards.lookup q.rewardID).isSome = true)
    (ignored : IrcMessage → Bool) :
    Kept seen waiting (ready.foldl (RewardChannel.redeem limit ignored) channel) ∧
      Redeemed channel (ready.foldl (RewardChannel.redeem limit ignored) channel) := by
  induction ready generalizing channel with
  | nil => exact ⟨kept, rfl, rfl⟩
  | cons q ready ih =>
    obtain ⟨keeps, rewards, waits⟩ := Kept.redeem limit kept blank (isKnown q List.mem_cons_self) ignored
    obtain ⟨keepsAll, rewardsAll, waitsAll⟩ := ih keeps (by
      rw [rewards]
      exact fun other member => isKnown other (List.mem_cons_of_mem q member))
    exact ⟨keepsAll, rewardsAll.trans rewards, waitsAll.trans waits⟩

/-- What holds between two events. -/
structure Settled (seen : List QString) (channel : RewardChannel) : Prop where
  kept : Kept seen channel.waitingRedemptions.items channel
  unknown : ∀ q ∈ channel.waitingRedemptions.items, channel.channelPointRewards.lookup q.rewardID = none

theorem mem_push_back {capacity : Nat} {T : Type} (some_ : 0 < capacity) (buffer : CircularBuffer T capacity) (item q : T) :
    (q ∈ (buffer.push_back item).items → q ∈ buffer.items ∨ q = item) ∧ item ∈ (buffer.push_back item).items ∧
      (q ∈ buffer.items → q ∈ (buffer.push_back item).items ∨ buffer.full = true ∧ q ∈ buffer.items.take 1) := by
  unfold CircularBuffer.push_back
  dsimp only
  split
  · next full =>
    have size := CircularBuffer.full_iff.mp full
    cases shape : buffer.items with
    | nil =>
      rw [shape] at size
      exact absurd size.symm some_.ne'
    | cons first others =>
      rw [List.cons_append, List.tail_cons, List.mem_append, List.mem_singleton]
      refine ⟨Or.imp_left (List.mem_cons_of_mem first), by simp, fun member => ?_⟩
      rcases List.mem_cons.mp member with rfl | later
      · exact .inr ⟨full, List.mem_cons_self⟩
      · exact .inl (.inl later)
  · rw [List.mem_append, List.mem_singleton]
    exact ⟨id, by simp, fun member => .inl (.inl member)⟩

/-- A redemption that has to wait for its reward. -/
theorem Settled.queued (settled : Settled seen channel) {message : IrcMessage}
    (redeems : message.rewardId ≠ []) (isUnknown : channel.isChannelPointRewardKnown message.rewardId = false) :
    Settled (message.id :: seen) (channel.addQueuedRedemption message.rewardId message) := by
  have either := fun q => (mem_push_back (by decide) channel.waitingRedemptions ⟨message.rewardId, message⟩ q)
  have kept := settled.kept
  refine ⟨⟨kept.numbered, kept.distinct, kept.single, ?_, ?_, kept.honest, ?_⟩, ?_⟩
  · exact fun m member => (kept.origin m member).imp_right (List.mem_cons_of_mem message.id)
  · intro q waits
    rcases (either q).1 waits with old | rfl
    · obtain ⟨isSeen, same, nonempty⟩ := kept.queued q old
      exact ⟨List.mem_cons_of_mem message.id isSeen, same, nonempty⟩
    · exact ⟨List.mem_cons_self, rfl, redeems⟩
  · intro m member isRedeemed
    rcases kept.settled m member isRedeemed with given | shown | ⟨q, waits, same, reward⟩
    · exact .inl (List.mem_append_left _ given)
    · exact .inr (.inl shown)
    · rcases (either q).2.2 waits with still | ⟨full, first⟩
      · exact .inr (.inr ⟨q, still, same, reward⟩)
      · left
        apply List.mem_append_right
        rw [if_pos full]
        exact List.mem_map.mpr ⟨q, first, same⟩
  · intro q waits
    rcases (either q).1 waits with old | rfl
    · exact settled.unknown q old
    · exact Option.not_isSome_iff_eq_none.mp (Bool.eq_false_iff.mp isUnknown)

theorem Settled.seenMore (settled : Settled seen channel) (id : QString) : Settled (id :: seen) channel where
  kept := { settled.kept with
    origin := fun m member => (settled.kept.origin m member).imp_right (List.mem_cons_of_mem id)
    queued := fun q waits => (settled.kept.queued q waits).imp_left (List.mem_cons_of_mem id) }
  unknown := settled.unknown

/-- What is built of a message goes to the end, whether its reward is known or awaited. -/
theorem Settled.built (settled : Settled seen channel) (ignored : IrcMessage → Bool) {message : IrcMessage}
    (isSeen : message.id ∈ seen) (absent : ∀ m ∈ channel.messages, m.id ≠ message.id)
    (covered : message.rewardId ≠ [] → (channel.channelPointRewards.lookup message.rewardId).isSome = true ∨
      ∃ q ∈ channel.waitingRedemptions.items, q.message.id = message.id ∧ q.rewardID = message.rewardId) :
    Settled seen (channel.build limit ignored message) := by
  unfold build
  rcases channel.makeIrcMessage_cases ignored message with nothing | builds
  · rw [nothing]
    exact settled
  · rw [builds]
    refine ⟨settled.kept.added ⟨rfl, .inr absent, .inr isSeen, ?_, ?_⟩ limit, settled.unknown⟩
    · intro redeems reward shows
      rwa [if_neg redeems] at shows
    · intro redeems
      rw [if_neg redeems]
      exact .inr (covered redeems)

theorem Settled.handled (settled : Settled seen channel) (ignored : IrcMessage → Bool) {message : IrcMessage}
    (fresh : message.id ∉ seen) (nonempty : message.id ≠ []) :
    Settled (message.id :: seen) (channel.handleMessage limit ignored message) := by
  have absent : ∀ m ∈ channel.messages, m.id ≠ message.id := by
    intro m member same
    rcases settled.kept.origin m member with ⟨blank, _⟩ | isSeen
    · exact nonempty (same.symm.trans blank)
    · exact fresh (same ▸ isSeen)
  unfold handleMessage
  dsimp only
  split
  · next waits =>
    obtain ⟨redeems, isUnknown⟩ := waits
    rw [Bool.not_eq_true'] at isUnknown
    refine (settled.queued redeems isUnknown).built ignored List.mem_cons_self absent fun _ =>
      .inr ⟨⟨message.rewardId, message⟩, ?_, rfl, rfl⟩
    exact (mem_push_back (by decide) channel.waitingRedemptions ⟨message.rewardId, message⟩ ⟨message.rewardId, message⟩).2.1
  · next shows =>
    refine (settled.seenMore message.id).built ignored List.mem_cons_self absent fun redeems => .inl ?_
    by_contra isUnknown
    rw [Bool.not_eq_true] at isUnknown
    exact shows ⟨redeems, by rw [isChannelPointRewardKnown, isUnknown]; rfl⟩

theorem removeWaiting_items (channel : RewardChannel) (rewardID : QString) :
    (channel.removeWaiting rewardID).waitingRedemptions.items =
      channel.waitingRedemptions.items.filter fun msg => msg.rewardID ≠ rewardID := rfl

theorem Settled.rewarded (settled : Settled seen channel) (blank : [] ∉ seen) (ignored : IrcMessage → Bool)
    (reward : ChannelPointReward) : Settled seen (channel.addChannelPointReward limit ignored reward) := by
  unfold addChannelPointReward
  split
  · have addable : Addable seen channel.waitingRedemptions.items channel ⟨channel.built, [], [], some reward⟩ :=
      ⟨rfl, .inl rfl, .inl ⟨rfl, rfl⟩, fun impossible => absurd rfl impossible, fun impossible => absurd rfl impossible⟩
    exact ⟨settled.kept.added addable limit, settled.unknown⟩
  · cases isKnown : channel.channelPointRewards.lookup reward.id with
    | some known => exact settled
    | none =>
      have kept := settled.kept
      have inserted : Kept seen (channel.waitingRedemptions.items.filter (fun msg => msg.rewardID = reward.id) ++
          channel.waitingRedemptions.items.filter fun msg => msg.rewardID ≠ reward.id)
          { channel with channelPointRewards := channel.channelPointRewards.insert reward.id reward } := by
        -- those of the new reward come first, and are redeemed one by one
        have members : ∀ q, q ∈ channel.waitingRedemptions.items.filter (fun msg => msg.rewardID = reward.id) ++
            channel.waitingRedemptions.items.filter (fun msg => msg.rewardID ≠ reward.id) ↔
              q ∈ channel.waitingRedemptions.items := by
          intro q
          rw [List.mem_append, List.mem_filter, List.mem_filter, decide_eq_true_iff, decide_eq_true_iff,
            ← and_or_left, and_iff_left (em _)]
        refine ⟨kept.numbered, kept.distinct, kept.single, kept.origin, ?_, ?_, ?_⟩
        · exact fun q waits => kept.queued q ((members q).mp waits)
        · intro m member redeems shown shows
          have before := kept.honest m member redeems shown shows
          -- a message can show no reward of this id yet, since the id was unknown
          have other : m.rewardId ≠ reward.id := by
            intro same
            rw [same, isKnown] at before
            cases before
          rw [AList.lookup_insert_ne other]
          exact before
        · intro m member redeems
          rcases kept.settled m member redeems with given | shown | ⟨q, waits, same⟩
          · exact .inl given
          · exact .inr (.inl shown)
          · exact .inr (.inr ⟨q, (members q).mpr waits, same⟩)
      obtain ⟨keeps, rewards, waits⟩ := inserted.redeem_all limit blank (by
        intro q ready
        rw [of_decide_eq_true (List.mem_filter.mp ready).2, AList.lookup_insert]
        rfl) ignored
      have items := (removeWaiting_items _ reward.id).trans (congrArg (fun buffer => buffer.items.filter
        fun msg => msg.rewardID ≠ reward.id) waits)
      refine ⟨?_, ?_⟩
      · rw [items]
        exact { keeps with }
      · rw [items]
        intro q member
        obtain ⟨inside, other⟩ := List.mem_filter.mp member
        have unchanged := congrArg (fun rewards => rewards.lookup q.rewardID) rewards
        refine unchanged.trans ?_
        rw [AList.lookup_insert_ne (of_decide_eq_true other)]
        exact settled.unknown q inside

theorem Settled.step {next : RewardChannel} {event : Event} (settled : Settled seen channel)
    (taken : channel.step limit event = some next) (blank : [] ∉ event.id?.toList ++ seen)
    (fresh : (event.id?.toList ++ seen).Nodup) : Settled (event.id?.toList ++ seen) next := by
  cases event with
  | privMsg message ignored =>
    obtain rfl := Option.some.inj taken
    have new : message.id ∉ seen := (List.nodup_cons.mp fresh).1
    have nonempty : message.id ≠ [] := fun same => blank (same ▸ List.mem_cons_self)
    exact settled.handled ignored new nonempty
  | redeemed reward ignored =>
    obtain rfl := Option.some.inj taken
    exact settled.rewarded blank ignored reward
  | clearMessages =>
    obtain rfl := Option.some.inj taken
    exact ⟨settled.kept.fewer (List.nil_sublist _), settled.unknown⟩

theorem Settled.run {events : List Event} {final : RewardChannel} (settled : Settled seen channel)
    (ran : Foundation.run (RewardChannel.step limit) channel events = some final)
    (blank : [] ∉ (events.filterMap Event.id?).reverse ++ seen)
    (fresh : ((events.filterMap Event.id?).reverse ++ seen).Nodup) :
    Settled ((events.filterMap Event.id?).reverse ++ seen) final := by
  induction events generalizing channel seen with
  | nil => exact Option.some.inj ran ▸ settled
  | cons event events ih =>
    obtain ⟨next, taken, rest⟩ := run_cons ran
    have ids : ((event :: events).filterMap Event.id?).reverse ++ seen =
        (events.filterMap Event.id?).reverse ++ (event.id?.toList ++ seen) := by
      cases id : event.id? with
      | none => rw [List.filterMap_cons_none id]; rfl
      | some name => rw [List.filterMap_cons_some id, List.reverse_cons, List.append_assoc]; rfl
    rw [ids] at blank fresh ⊢
    have now := settled.step taken (fun inside => blank (List.mem_append_right _ inside))
      (fresh.sublist (List.sublist_append_right _ _))
    exact ih now rest blank fresh

end

end RewardChannel

end Forserino.Twitch
