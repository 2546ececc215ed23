import Forserino.Messages.Replacement
import Forserino.Qt.Numerals
import Mathlib.Data.List.Chain

/-! The messages of a Twitch channel that tell of emotes which are added or removed.

Emotes are put into the last of these messages if they belong to it. Times count milliseconds.
-/

set_option autoImplicit false

namespace Forserino.Twitch

open Foundation Messages Qt

/-- A call of addOrReplaceLiveUpdatesAddRemove, and when it is made. -/
structure Update where
  isEmoteAdd : Bool
  platform : QString
  actor : QString
  emoteName : QString
  now : Int
  deriving DecidableEq

/-! ## The texts -/

/-- The loop over the names, which counts them from one. -/
def appendNames (size : Nat) : Nat → List QString → QString → QString
  | _, [], text => text
  | i, emoteName :: rest, text =>
      let text := if i + 1 > 1 then text ++ if i + 1 = size then qs " and " else qs ", " else text
      appendNames size (i + 1) rest (text ++ emoteName)

def formatUpdatedEmoteList (platform : QString) (emoteNames : List QString) (isAdd isFirstWord : Bool) : QString :=
  let text :=
    if isAdd then if isFirstWord then qs "Added" else qs "added"
    else if isFirstWord then qs "Removed" else qs "removed"
  let text :=
    if emoteNames.length = 1 then text ++ qs " " ++ platform ++ qs " emote "
    else text ++ qs " " ++ number emoteNames.length ++ qs " " ++ platform ++ qs " emotes "
  appendNames emoteNames.length 0 emoteNames text ++ qs "."

/-- The flag of the message says whether emotes were added. A name is kept with the call that brought it. -/
structure LiveUpdateMessage where
  address : Nat
  isEmoteAdd : Bool
  platform : QString
  loginName : QString
  parseTime : Int
  updates : List Update
  deriving DecidableEq

def LiveUpdateMessage.messageText (message : LiveUpdateMessage) : QString :=
  let text := formatUpdatedEmoteList message.platform (message.updates.map Update.emoteName) message.isEmoteAdd
    message.loginName.isEmpty
  if message.loginName.isEmpty then text else message.loginName ++ qs " " ++ text

theorem infix_appendNames (size : Nat) (names : List QString) (i : Nat) (text : QString) :
    text <:+: appendNames size i names text := by
  induction names generalizing i text with
  | nil => exact List.infix_refl text
  | cons emoteName rest ih =>
    refine List.IsInfix.trans ?_ (ih (i + 1) _)
    split
    · rw [List.append_assoc]
      exact (List.prefix_append text _).isInfix
    · exact (List.prefix_append text emoteName).isInfix

theorem name_infix_appendNames (size : Nat) {names : List QString} {emoteName : QString} (member : emoteName ∈ names)
    (i : Nat) (text : QString) : emoteName <:+: appendNames size i names text := by
  induction names generalizing i text with
  | nil => cases member
  | cons first rest ih =>
    rcases List.mem_cons.mp member with rfl | later
    · exact (List.suffix_append _ emoteName).isInfix.trans (infix_appendNames size rest (i + 1) _)
    · exact ih later (i + 1) _

/-- Every name stands in the text. -/
theorem name_infix_messageText {message : LiveUpdateMessage} {update : Update} (member : update ∈ message.updates) :
    update.emoteName <:+: message.messageText := by
  have listed : update.emoteName <:+: formatUpdatedEmoteList message.platform (message.updates.map Update.emoteName)
      message.isEmoteAdd message.loginName.isEmpty := by
    apply List.infix_append_of_infix_left
    exact name_infix_appendNames _ (List.mem_map_of_mem member) 0 _
  unfold LiveUpdateMessage.messageText
  dsimp only
  split
  · exact listed
  · exact List.infix_append_of_infix_right listed

/-! ## The channel -/

/-- A message of the channel, of which the other ones are only told apart. -/
inductive Item where
  | update (message : LiveUpdateMessage)
  | other (address : Nat)
  deriving DecidableEq

def Item.updates : Item → List Update
  | .update message => message.updates
  | .other _ => []

def MSECS_PER_DAY : Int := 86400000

/-- QTime::currentTime -/
def currentTime (now utcOffset : Int) : Int := (now + utcOffset) % MSECS_PER_DAY

/-- QTime::addSecs, which goes past midnight. -/
def addSecs (time secs : Int) : Int := (time + secs * 1000) % MSECS_PER_DAY

/-- What TwitchChannel knows of the updates. The weak pointer is none when the message is gone. Beside it stand
the messages that were evicted, and the calls that were made. -/
structure LiveUpdates where
  channel : Channel Item
  lastLiveUpdateEmotePlatform_ : QString
  lastLiveUpdateEmoteActor_ : QString
  lastLiveUpdateMessage_ : Option LiveUpdateMessage
  lastLiveUpdateEmoteNames_ : List Update
  made : Nat
  evicted : List Item
  reported : List Update

namespace LiveUpdates

def new (limit : Nat) : LiveUpdates := ⟨⟨.new limit, 0⟩, [], [], none, [], 0, [], []⟩

/-- The last message, if the update is put into it. -/
def last (s : LiveUpdates) (update : Update) (utcOffset : Int) : Option LiveUpdateMessage :=
  if s.lastLiveUpdateEmotePlatform_ ≠ update.platform then none
  else s.lastLiveUpdateMessage_.filter fun last =>
    !(last.isEmoteAdd != update.isEmoteAdd ||
      decide (last.parseTime < addSecs (currentTime update.now utcOffset) (-5)) || last.loginName != update.actor)

/-- The last message with the name of the update behind its names. -/
def makeReplacement (s : LiveUpdates) (last : LiveUpdateMessage) (update : Update) (utcOffset : Int) :
    LiveUpdateMessage :=
  { address := s.made
    isEmoteAdd := last.isEmoteAdd
    platform := update.platform
    loginName := last.loginName
    parseTime := currentTime update.now utcOffset
    updates := s.lastLiveUpdateEmoteNames_ ++ [update] }

/-- A replacement that is put nowhere is gone at once. -/
def replaceLast (s : LiveUpdates) (last : LiveUpdateMessage) (update : Update) (utcOffset : Int) : LiveUpdates :=
  let msg := s.makeReplacement last update utcOffset
  { s with
    channel := (s.channel.replaceByMessage (.update last) (.update msg)).1
    lastLiveUpdateMessage_ := if .update last ∈ s.channel.getMessageSnapshot then some msg else none
    lastLiveUpdateEmoteNames_ := s.lastLiveUpdateEmoteNames_ ++ [update]
    made := s.made + 1 }

def tryReplaceLastLiveUpdateAddOrRemove (s : LiveUpdates) (update : Update) (utcOffset : Int) : Option LiveUpdates :=
  (s.last update utcOffset).map fun last => s.replaceLast last update utcOffset

/-- A message for the update alone. -/
def makeMessage (s : LiveUpdates) (update : Update) (utcOffset : Int) : LiveUpdateMessage :=
  { address := s.made
    isEmoteAdd := update.isEmoteAdd
    platform := update.platform
    loginName := update.actor
    parseTime := currentTime update.now utcOffset
    updates := [update] }

def remember (s : LiveUpdates) (msg : LiveUpdateMessage) (update : Update) : LiveUpdates :=
  { s with
    lastLiveUpdateEmoteNames_ := [update]
    lastLiveUpdateEmotePlatform_ := update.platform
    lastLiveUpdateMessage_ := some msg
    lastLiveUpdateEmoteActor_ := update.actor
    made := s.made + 1 }

def addMessage (s : LiveUpdates) (message : Item) : Option LiveUpdates :=
  (s.channel.messages.pushBackDeleted message).map fun (messages, _, deleted) =>
    { s with channel := { s.channel with messages }, evicted := s.evicted ++ deleted.toList }

def addOrReplaceLiveUpdatesAddRemove (s : LiveUpdates) (update : Update) (utcOffset : Int) : Option LiveUpdates :=
  match s.tryReplaceLastLiveUpdateAddOrRemove update utcOffset with
  | some next => some next
  | none =>
    let msg := s.makeMessage update utcOffset
    (s.remember msg update).addMessage (.update msg)

inductive Event where
  | update (update : Update) (utcOffset : Int)
  | addMessage (address : Nat)
  | addMessagesAtStart (addresses : List Nat)
  | clearMessages
  /-- Nobody holds the last message any more. -/
  | expire

def step (s : LiveUpdates) : Event → Option LiveUpdates
  | .update update utcOffset =>
      (s.addOrReplaceLiveUpdatesAddRemove update utcOffset).map fun next =>
        { next with reported := next.reported ++ [update] }
  | .addMessage address => s.addMessage (.other address)
  | .addMessagesAtStart addresses =>
      (s.channel.addMessagesAtStart (addresses.map .other)).map fun (channel, _) => { s with channel }
  | .clearMessages =>
      some { s with
        channel := { s.channel with messages := s.channel.messages.clear }
        evicted := s.evicted ++ s.channel.getMessageSnapshot }
  | .expire =>
      match s.lastLiveUpdateMessage_ with
      | some last =>
          if .update last ∈ s.channel.getMessageSnapshot then none else some { s with lastLiveUpdateMessage_ := none }
      | none => none

/-- The later one comes at most five seconds after the other. -/
def Follows (previous later : Update) : Prop := later.now ≤ previous.now + 5000

instance (previous later : Update) : Decidable (Follows previous later) := inferInstanceAs (Decidable (_ ≤ _))

/-- The updates of a message are of one kind, platform and actor, and each follows the one before. -/
structure Grouped (message : LiveUpdateMessage) : Prop where
  alike : ∀ update ∈ message.updates, update.isEmoteAdd = message.isEmoteAdd ∧ update.platform = message.platform ∧
    update.actor = message.loginName
  follows : message.updates.IsChain Follows

/-- Every call is shown by one message of the channel, or was by one that is evicted, and the messages are grouped. -/
structure Reported (s : LiveUpdates) : Prop where
  shown : ((s.channel.getMessageSnapshot ++ s.evicted).flatMap Item.updates).Perm s.reported
  grouped : ∀ message, .update message ∈ s.channel.getMessageSnapshot → Grouped message

/-- The message that the update is put into is in the channel, and was last changed at most five seconds ago. -/
def Timely (s : LiveUpdates) : Event → Prop
  | .update update utcOffset => ∀ last, s.last update utcOffset = some last →
      .update last ∈ s.channel.getMessageSnapshot ∧ ∀ previous ∈ last.updates.getLast?, Follows previous update
  | _ => True

/-- What is remembered of the last message is right. -/
structure Kept (s : LiveUpdates) : Prop where
  reported : Reported s
  names : ∀ last, s.lastLiveUpdateMessage_ = some last → s.lastLiveUpdateEmoteNames_ = last.updates
  platform : ∀ last, s.lastLiveUpdateMessage_ = some last → last.platform = s.lastLiveUpdateEmotePlatform_
  some_ : ∀ last, s.lastLiveUpdateMessage_ = some last → last.updates ≠ []

variable {s next : LiveUpdates}

theorem new_kept (limit : Nat) : Kept (new limit) := by
  constructor
  · exact ⟨List.Perm.nil, fun _ member => absurd member List.not_mem_nil⟩
  all_goals
    intro last held
    cases held

theorem last_some {update : Update} {utcOffset : Int} {last : LiveUpdateMessage}
    (found : s.last update utcOffset = some last) : s.lastLiveUpdateMessage_ = some last ∧
      s.lastLiveUpdateEmotePlatform_ = update.platform ∧ last.isEmoteAdd = update.isEmoteAdd ∧
      last.loginName = update.actor := by
  obtain ⟨platform, filtered⟩ := Option.ite_none_left_eq_some.mp found
  obtain ⟨held, checked⟩ := Option.filter_eq_some_iff.mp filtered
  simp only [Bool.not_eq_true', Bool.or_eq_false_iff, bne_eq_false_iff_eq] at checked
  exact ⟨held, Decidable.not_not.mp platform, checked.1.1, checked.2⟩

/-- A message that is added takes the place of the one that is evicted. -/
theorem addMessage_spec {item : Item} (added : s.addMessage item = some next) :
    ∃ messages deleted, next = { s with
        channel := { s.channel with messages }
        evicted := s.evicted ++ deleted } ∧
      (messages.getSnapshot ++ deleted).Perm (s.channel.getMessageSnapshot ++ [item]) := by
  obtain ⟨⟨messages, full, deleted⟩, pushed, rfl⟩ := Option.map_eq_some_iff.mp added
  refine ⟨messages, deleted.toList, rfl, ?_⟩
  unfold LimitedQueue.pushBackDeleted at pushed
  cases isFull : s.channel.messages.buffer.full with
  | false =>
    simp only [isFull, Bool.false_eq_true, if_false, Option.some.injEq, Prod.mk.injEq] at pushed
    obtain ⟨rfl, _, rfl⟩ := pushed
    simp [LimitedQueue.getSnapshot, CircularBuffer.push_back, isFull, Channel.getMessageSnapshot]
  | true =>
    cases items : s.channel.messages.buffer.items with
    | nil =>
      simp only [isFull, items, if_true] at pushed
      cases pushed
    | cons front rest =>
      simp only [isFull, items, if_true, Option.some.injEq, Prod.mk.injEq] at pushed
      obtain ⟨rfl, _, rfl⟩ := pushed
      simp only [LimitedQueue.getSnapshot, CircularBuffer.push_back, isFull, Channel.getMessageSnapshot, items, if_true]
      exact List.perm_append_singleton front (rest ++ [item])

/-- What is shown or was, behind a message that is added. -/
theorem addMessage_shown {item : Item} (added : s.addMessage item = some next) :
    ((next.channel.getMessageSnapshot ++ next.evicted).flatMap Item.updates).Perm
      ((s.channel.getMessageSnapshot ++ s.evicted).flatMap Item.updates ++ item.updates) := by
  obtain ⟨messages, deleted, rfl, moved⟩ := addMessage_spec added
  have one : ([item] : List Item).flatMap Item.updates = item.updates := List.flatMap_singleton _ item
  rw [← one, ← List.flatMap_append]
  apply List.Perm.flatMap_right
  have exchanged : (messages.getSnapshot ++ (s.evicted ++ deleted)).Perm
      (messages.getSnapshot ++ deleted ++ s.evicted) := by
    rw [List.append_assoc]
    exact List.perm_append_comm.append_left _
  have back : (s.channel.getMessageSnapshot ++ [item] ++ s.evicted).Perm
      (s.channel.getMessageSnapshot ++ s.evicted ++ [item]) := by
    rw [List.append_assoc, List.append_assoc]
    exact List.perm_append_comm.append_left _
  exact exchanged.trans ((moved.append_right s.evicted).trans back)

theorem mem_addMessage {item other : Item} (added : s.addMessage item = some next)
    (member : other ∈ next.channel.getMessageSnapshot) : other ∈ s.channel.getMessageSnapshot ∨ other = item := by
  obtain ⟨messages, deleted, rfl, moved⟩ := addMessage_spec added
  have among := moved.subset (List.mem_append_left deleted member)
  rcases List.mem_append.mp among with old | latest
  · exact Or.inl old
  · exact Or.inr (List.mem_singleton.mp latest)

theorem flatMap_set_perm {items : List Item} {i : Nat} {old new : Item} (at_ : items[i]? = some old) {update : Update}
    (more : new.updates = old.updates ++ [update]) :
    ((items.set i new).flatMap Item.updates).Perm (items.flatMap Item.updates ++ [update]) := by
  induction items generalizing i with
  | nil => cases at_
  | cons first rest ih =>
    cases i with
    | zero =>
      obtain rfl := Option.some.inj at_
      rw [List.set_cons_zero, List.flatMap_cons, List.flatMap_cons, more, List.append_assoc, List.append_assoc]
      exact List.perm_append_comm.append_left _
    | succ i =>
      rw [List.set_cons_succ, List.flatMap_cons, List.flatMap_cons, List.append_assoc]
      exact (ih at_).append_left _

/-- An update is put into the last message, or into a message of its own. -/
theorem update_cases {update : Update} {utcOffset : Int} (taken : s.step (.update update utcOffset) = some next) :
    (∃ last, s.last update utcOffset = some last ∧
      next = { s.replaceLast last update utcOffset with reported := s.reported ++ [update] }) ∨
    s.last update utcOffset = none ∧ ∃ added, (s.remember (s.makeMessage update utcOffset) update).addMessage
      (.update (s.makeMessage update utcOffset)) = some added ∧
        next = { added with reported := added.reported ++ [update] } := by
  obtain ⟨added, done, rfl⟩ := Option.map_eq_some_iff.mp taken
  unfold addOrReplaceLiveUpdatesAddRemove tryReplaceLastLiveUpdateAddOrRemove at done
  cases found : s.last update utcOffset with
  | some last =>
    rw [found] at done
    obtain rfl := Option.some.inj done
    exact Or.inl ⟨last, rfl, rfl⟩
  | none =>
    rw [found] at done
    exact Or.inr ⟨rfl, added, done, rfl⟩

/-- In the channel, the last message is replaced where it stands. -/
theorem replaceLast_set {last : LiveUpdateMessage} (member : .update last ∈ s.channel.getMessageSnapshot)
    (update : Update) (utcOffset : Int) : ∃ i, s.channel.getMessageSnapshot[i]? = some (.update last) ∧
      (s.replaceLast last update utcOffset).channel.getMessageSnapshot =
        s.channel.getMessageSnapshot.set i (.update (s.makeReplacement last update utcOffset)) := by
  cases found : s.channel.getMessageSnapshot.findIdx? fun other => other == .update last with
  | none => exact absurd member (not_mem_of_findIdx found)
  | some i => exact ⟨i, (getElem_of_findIdx found).1, (replaceByMessage_found _ found).1⟩

/-- Elsewhere, nothing is. -/
theorem replaceLast_missing {last : LiveUpdateMessage} (missing : .update last ∉ s.channel.getMessageSnapshot)
    (update : Update) (utcOffset : Int) : (s.replaceLast last update utcOffset).channel = s.channel := by
  cases found : s.channel.getMessageSnapshot.findIdx? fun other => other == .update last with
  | none => exact congrArg Prod.fst (replaceByMessage_missing _ found)
  | some i => exact absurd (List.mem_of_getElem? (getElem_of_findIdx found).1) missing

theorem Grouped.single (s : LiveUpdates) (update : Update) (utcOffset : Int) :
    Grouped (s.makeMessage update utcOffset) where
  alike := by
    intro other member
    obtain rfl := List.mem_singleton.mp member
    exact ⟨rfl, rfl, rfl⟩
  follows := .singleton update

theorem Grouped.replacement {last : LiveUpdateMessage} {update : Update} {utcOffset : Int} (kept : Kept s)
    (grouped : Grouped last) (found : s.last update utcOffset = some last)
    (timely : ∀ previous ∈ last.updates.getLast?, Follows previous update) :
    Grouped (s.makeReplacement last update utcOffset) := by
  obtain ⟨held, platform, isEmoteAdd, actor⟩ := last_some found
  have names := kept.names last held
  constructor
  · intro other member
    rw [makeReplacement, names] at member
    rcases List.mem_append.mp member with old | latest
    · obtain ⟨kind, samePlatform, sameActor⟩ := grouped.alike other old
      exact ⟨kind, (samePlatform.trans (kept.platform last held)).trans platform, sameActor⟩
    · obtain rfl := List.mem_singleton.mp latest
      exact ⟨isEmoteAdd.symm, rfl, actor.symm⟩
  · rw [makeReplacement, names]
    apply grouped.follows.append (.singleton update)
    intro previous latest first member
    obtain rfl := Option.some.inj member
    exact timely previous latest

theorem makeReplacement_updates {last : LiveUpdateMessage} {update : Update} {utcOffset : Int} (kept : Kept s)
    (found : s.last update utcOffset = some last) :
    (Item.update (s.makeReplacement last update utcOffset)).updates = last.updates ++ [update] := by
  rw [Item.updates, makeReplacement, kept.names last (last_some found).1]

/-- An update that is put into a message of the channel is shown there. -/
theorem replaceLast_shown {last : LiveUpdateMessage} {update : Update} {utcOffset : Int} (kept : Kept s)
    (found : s.last update utcOffset = some last) (member : .update last ∈ s.channel.getMessageSnapshot) :
    (((s.replaceLast last update utcOffset).channel.getMessageSnapshot ++ s.evicted).flatMap Item.updates).Perm
      (s.reported ++ [update]) := by
  obtain ⟨i, at_, replaced⟩ := replaceLast_set member update utcOffset
  have grown := flatMap_set_perm at_ (makeReplacement_updates kept found)
  have shown := kept.reported.shown
  rw [List.flatMap_append] at shown
  rw [replaced, List.flatMap_append]
  have exchanged : (s.channel.getMessageSnapshot.flatMap Item.updates ++ [update] ++
      s.evicted.flatMap Item.updates).Perm (s.channel.getMessageSnapshot.flatMap Item.updates ++
        s.evicted.flatMap Item.updates ++ [update]) := by
    rw [List.append_assoc, List.append_assoc]
    exact List.perm_append_comm.append_left _
  exact (grown.append_right _).trans (exchanged.trans (shown.append_right [update]))

/-- In the channel and in time, an update is put into the group. -/
theorem Kept.replaceLast {last : LiveUpdateMessage} {update : Update} {utcOffset : Int} (kept : Kept s)
    (found : s.last update utcOffset = some last) (member : .update last ∈ s.channel.getMessageSnapshot)
    (follows : ∀ previous ∈ last.updates.getLast?, Follows previous update) :
    Kept { s.replaceLast last update utcOffset with reported := s.reported ++ [update] } := by
  obtain ⟨held, platform, _, _⟩ := last_some found
  obtain ⟨i, at_, replaced⟩ := replaceLast_set member update utcOffset
  have now : (s.replaceLast last update utcOffset).lastLiveUpdateMessage_ =
      some (s.makeReplacement last update utcOffset) := if_pos member
  refine ⟨⟨replaceLast_shown kept found member, ?_⟩, ?_, ?_, ?_⟩
  · intro message among
    change Item.update message ∈ (s.replaceLast last update utcOffset).channel.getMessageSnapshot at among
    rw [replaced] at among
    rcases List.mem_or_eq_of_mem_set among with old | same
    · exact kept.reported.grouped message old
    · rw [Item.update.inj same]
      exact .replacement kept (kept.reported.grouped last member) found follows
  · intro other held
    rw [← Option.some.inj (now.symm.trans held)]
    rfl
  · intro other held
    rw [← Option.some.inj (now.symm.trans held)]
    exact platform.symm
  · intro other held
    rw [← Option.some.inj (now.symm.trans held)]
    exact List.append_ne_nil_of_right_ne_nil _ (List.cons_ne_nil update [])

theorem Kept.makeMessage {update : Update} {utcOffset : Int} (kept : Kept s)
    (done : (s.remember (s.makeMessage update utcOffset) update).addMessage (.update (s.makeMessage update utcOffset)) =
      some next) : Kept { next with reported := next.reported ++ [update] } := by
  have shown := addMessage_shown done
  have among : ∀ other ∈ next.channel.getMessageSnapshot, other ∈ s.channel.getMessageSnapshot ∨
      other = .update (s.makeMessage update utcOffset) :=
    fun _ => @mem_addMessage (s.remember (s.makeMessage update utcOffset) update) next _ _ done
  obtain ⟨messages, deleted, rfl, _⟩ := addMessage_spec done
  refine ⟨⟨shown.trans (kept.reported.shown.append_right [update]), ?_⟩, ?_, ?_, ?_⟩
  · intro message member
    rcases among _ member with old | latest
    · exact kept.reported.grouped message old
    · rw [Item.update.inj latest]
      exact .single s update utcOffset
  all_goals
    intro last held
    obtain rfl := Option.some.inj held
  · rfl
  · rfl
  · exact List.cons_ne_nil update []

theorem Kept.addMessage {address : Nat} (kept : Kept s) (added : s.addMessage (.other address) = some next) :
    Kept next := by
  have shown := addMessage_shown added
  have among : ∀ other ∈ next.channel.getMessageSnapshot, other ∈ s.channel.getMessageSnapshot ∨
      other = .other address := fun _ => mem_addMessage added
  obtain ⟨messages, deleted, rfl, _⟩ := addMessage_spec added
  refine ⟨⟨?_, ?_⟩, kept.names, kept.platform, kept.some_⟩
  · rw [Item.updates, List.append_nil] at shown
    exact shown.trans kept.reported.shown
  · intro message member
    rcases among _ member with old | latest
    · exact kept.reported.grouped message old
    · cases latest

theorem Kept.addMessagesAtStart {addresses : List Nat} (kept : Kept s)
    (taken : s.step (.addMessagesAtStart addresses) = some next) : Kept next := by
  obtain ⟨⟨channel, pushed⟩, added, rfl⟩ := Option.map_eq_some_iff.mp taken
  obtain ⟨⟨messages, pushed'⟩, pushing, same⟩ := Option.map_eq_some_iff.mp added
  obtain ⟨rfl, rfl⟩ := Prod.mk.inj same
  obtain ⟨behind, put, items⟩ := s.channel.messages.pushFront_pushed (addresses.map Item.other)
  obtain ⟨rfl, _⟩ := Prod.mk.inj (Option.some.inj (put.symm.trans pushing))
  -- the messages in front are other ones
  have others : ∀ item ∈ (addresses.map Item.other).drop
      ((addresses.map Item.other).length - min (addresses.map Item.other).length s.channel.messages.space),
      ∃ address, item = Item.other address := by
    intro item member
    obtain ⟨address, _, rfl⟩ := List.mem_map.mp (List.mem_of_mem_drop member)
    exact ⟨address, rfl⟩
  have snapshot : ∀ channel : Channel Item, channel.getMessageSnapshot = channel.messages.buffer.items := fun _ => rfl
  refine ⟨⟨?_, ?_⟩, kept.names, kept.platform, kept.some_⟩
  · rw [snapshot, items, List.append_assoc, List.flatMap_append]
    have nothing : ((addresses.map Item.other).drop ((addresses.map Item.other).length -
        min (addresses.map Item.other).length s.channel.messages.space)).flatMap Item.updates = [] := by
      apply List.flatMap_eq_nil_iff.mpr
      intro item member
      obtain ⟨address, rfl⟩ := others item member
      rfl
    rw [nothing]
    exact kept.reported.shown
  · intro message member
    rw [snapshot, items] at member
    rcases List.mem_append.mp member with front | old
    · obtain ⟨address, same⟩ := others _ front
      cases same
    · exact kept.reported.grouped message old

theorem Kept.clearMessages (kept : Kept s) : Kept { s with
    channel := { s.channel with messages := s.channel.messages.clear }
    evicted := s.evicted ++ s.channel.getMessageSnapshot } := by
  refine ⟨⟨?_, fun _ member => absurd member List.not_mem_nil⟩, kept.names, kept.platform, kept.some_⟩
  have swapped : ((s.evicted ++ s.channel.getMessageSnapshot).flatMap Item.updates).Perm s.reported :=
    (List.perm_append_comm.flatMap_right _).trans kept.reported.shown
  exact swapped

theorem Kept.expire (kept : Kept s) : Kept { s with lastLiveUpdateMessage_ := none } := by
  refine ⟨⟨kept.reported.shown, kept.reported.grouped⟩, ?_, ?_, ?_⟩
  all_goals
    intro last held
    cases held

theorem Kept.step {e : Event} (kept : Kept s) (timely : Timely s e) (taken : s.step e = some next) : Kept next := by
  cases e with
  | update update utcOffset =>
    rcases update_cases taken with ⟨last, found, rfl⟩ | ⟨_, added, done, rfl⟩
    · obtain ⟨member, follows⟩ := timely last found
      exact kept.replaceLast found member follows
    · exact kept.makeMessage done
  | addMessage address => exact kept.addMessage taken
  | addMessagesAtStart addresses => exact kept.addMessagesAtStart taken
  | clearMessages => exact Option.some.inj taken ▸ kept.clearMessages
  | expire =>
    rw [LiveUpdates.step] at taken
    cases held : s.lastLiveUpdateMessage_ with
    | none =>
      rw [held] at taken
      cases taken
    | some last =>
      rw [held] at taken
      obtain ⟨_, same⟩ := Option.ite_none_left_eq_some.mp taken
      exact Option.some.inj same ▸ kept.expire

/-- An update that is put into a message outside of the channel is not shown, and one that comes too late is
grouped wrongly. -/
theorem Kept.not_reported {e : Event} (kept : Kept s) (untimely : ¬ Timely s e) (taken : s.step e = some next) :
    ¬ Reported next := by
  cases e with
  | update update utcOffset =>
    rcases update_cases taken with ⟨last, found, rfl⟩ | ⟨apart, _⟩
    · intro reported
      by_cases member : .update last ∈ s.channel.getMessageSnapshot
      · apply untimely
        intro other again
        obtain rfl := Option.some.inj (found.symm.trans again)
        refine ⟨member, ?_⟩
        obtain ⟨i, at_, replaced⟩ := replaceLast_set member update utcOffset
        have grown := makeReplacement_updates kept found
        have present : Item.update (s.makeReplacement last update utcOffset) ∈
            (s.replaceLast last update utcOffset).channel.getMessageSnapshot := by
          rw [replaced]
          exact List.mem_set (List.getElem?_eq_some_iff.mp at_).1 _
        have follows := (reported.grouped _ present).follows
        rw [show (s.makeReplacement last update utcOffset).updates = _ from grown, List.isChain_append] at follows
        exact fun previous latest => follows.2.2 previous latest update rfl
      · have count := reported.shown.length_eq
        have before := kept.reported.shown.length_eq
        rw [replaceLast_missing member, List.length_append, List.length_singleton] at count
        exact absurd (before.symm.trans count) (Nat.ne_of_lt (Nat.lt_succ_self _))
    · refine absurd (fun last found => ?_) untimely
      rw [apart] at found
      cases found
  | addMessage _ | addMessagesAtStart _ | clearMessages | expire => exact absurd trivial untimely

/-- In every run, the updates are reported and grouped in every state exactly when every update that is put into a
message finds it in the channel and in time. -/
theorem run_reported_iff (limit : Nat) (events : List Event) (final : LiveUpdates)
    (ran : run step (new limit) events = some final) : Along step Timely (new limit) events ↔
      ∀ before, before <+: events → ∀ s, run step (new limit) before = some s → Reported s := by
  have preserves : ∀ s e next, Kept s → Timely s e → step s e = some next → Kept next :=
    fun _ _ _ kept timely taken => kept.step timely taken
  have breaks : ∀ s e next, Kept s → ¬ Timely s e → step s e = some next → ¬ Reported next :=
    fun _ _ _ kept untimely taken => kept.not_reported untimely taken
  exact along_iff preserves breaks (fun _ kept => kept.reported) ran (new_kept limit)

/-- An emote that is added to a channel of 7TV. -/
def added (emoteName : QString) (now : Int) : Event := .update ⟨true, qs "7TV", qs "a", emoteName, now⟩ 0

/-- Two emotes within five seconds, and a third one later. -/
theorem run_reported_iff_grouped : Along step Timely (new 2)
    [added (qs "b") 0, .addMessage 7, added (qs "c") 4000, added (qs "d") 9500] ↔
      ∀ before, before <+: [added (qs "b") 0, .addMessage 7, added (qs "c") 4000, added (qs "d") 9500] →
        ∀ s, run step (new 2) before = some s → Reported s :=
  run_reported_iff 2 [added (qs "b") 0, .addMessage 7, added (qs "c") 4000, added (qs "d") 9500] _ rfl

/-- Ten minutes before midnight and ten minutes behind it. -/
theorem not_reported_midnight : ¬ ∀ (limit : Nat) (events : List Event) (final : LiveUpdates),
    run step (new limit) events = some final → Reported final := by
  intro holds
  have reported := holds 2 [added (qs "b") 85800000, added (qs "c") 87000000] _ rfl
  have follows := (reported.grouped _ List.mem_cons_self).follows
  have late := List.isChain_cons_cons.mp follows
  exact absurd late.1 (by decide)

end LiveUpdates

end Forserino.Twitch
