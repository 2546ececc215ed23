import Forserino.Messages.Replacement
import Forserino.Messages.ViewMirror
import Forserino.Qt.PlaceMarkers

/-! Timeouts and cleared chats that are stacked onto an earlier message (util/ChannelHelpers.hpp,
and the two sinks of it, Channel and VectorMessageSink).
-/

set_option autoImplicit false

namespace Forserino.Messages

open Forserino.Qt

/-- The flags that are used here. Two of them share a bit. -/
inductive MessageFlag where
  | system | timeout | doNotTriggerNotification | disabled | untimeout | pubSub | whisper | sharedMessage
  | webchatDetected | clearChat
  deriving DecidableEq, Repr

def MessageFlag.bit : MessageFlag → Nat
  | .system => 0
  | .timeout => 1
  | .doNotTriggerNotification => 3
  | .disabled => 5
  | .untimeout => 10
  | .pubSub => 11
  | .whisper => 16
  | .sharedMessage => 37
  | .webchatDetected => 39
  | .clearChat => 39

/-- FlagsEnum over an int64. -/
abbrev MessageFlags := BitVec 64

namespace MessageFlags

def has (flags : MessageFlags) (flag : MessageFlag) : Bool := flags.getLsbD flag.bit

def hasNone (flags : MessageFlags) (others : List MessageFlag) : Bool := others.all fun flag => !has flags flag

def set (flags : MessageFlags) (flag : MessageFlag) : MessageFlags := flags ||| BitVec.twoPow 64 flag.bit

def of (flags : List MessageFlag) : MessageFlags := flags.foldl set 0

/-- A message in which a web chat was detected is taken for a cleared chat. -/
theorem has_webchatDetected (flags : MessageFlags) : has flags .webchatDetected = has flags .clearChat := rfl

end MessageFlags

/-- Two messages that are alike are told apart by their address. A time counts milliseconds. -/
structure Message where
  address : Nat
  flags : MessageFlags
  searchText : QString
  loginName : QString
  timeoutUser : QString
  channelName : QString
  serverReceivedTime : Int
  count : UInt32
  deriving DecidableEq

inductive TimeoutStackStyle where
  | stackHard | dontStackBeyondUserMessage | dontStack
  deriving DecidableEq, Repr

/-! ## The messages that are built -/

/-- QString::indexOf -/
def indexOf (s text : QString) : Option Nat :=
  (List.range (s.length + 1)).find? fun position => (s.mid position).startsWith text

/-- The rest of the text and the text so far, once a name in the rest is passed. -/
def appendUser (name : QString) (texts : QString × QString) : QString × QString :=
  match indexOf texts.1 name with
  | none | some 0 => texts
  | some (pos + 1) =>
      let remainder := texts.1.mid (pos + 1 + name.length)
      let messageText := texts.2 ++ texts.1.midN 0 pos ++ [u ' '] ++ name ++ [u ' ']
      if remainder.startsWith [u ' '] then (remainder.drop 1, messageText) else (remainder, messageText.dropLast)

/-- MessageBuilder(timeoutMessage, ...), at a new address. -/
def timeoutMessage (address : Nat) (timeoutUser sourceUser channel systemMessageText : QString) (times : UInt32)
    (time : Int) : Message :=
  let usernameText := ((systemMessageText.split (u ' ')).head?).getD []
  let timeoutUserIsFirst := usernameText == qs "You" || timeoutUser == usernameText
  let texts := (systemMessageText.mid (usernameText.length + 1), usernameText ++ [u ' '])
  let texts :=
    if sourceUser.isEmpty then texts else appendUser (if timeoutUserIsFirst then sourceUser else timeoutUser) texts
  let texts := if channel.isEmpty then texts else appendUser channel texts
  { address
    flags := 0
    searchText := texts.2 ++ (((qs "%1 (%2 times)").arg (trimmed texts.1)).arg (number times.toNat)) ++ [u ' ']
    loginName := []
    timeoutUser := []
    channelName := []
    serverReceivedTime := time
    count := 1 }

def makeClearChatMessage (address : Nat) (now : Int) (actor : QString) (count : UInt32) : Message :=
  let flags := MessageFlags.of [.system, .doNotTriggerNotification, .clearChat]
  let messageText :=
    if actor.isEmpty then qs "Chat has been cleared by a moderator. " else actor ++ qs " cleared the chat. "
  { address
    flags := if actor.isEmpty then flags else flags.set .pubSub
    searchText := if 1 < count then messageText ++ qs "(" ++ number count.toNat ++ qs " times) " else messageText
    loginName := []
    timeoutUser := actor
    channelName := []
    serverReceivedTime := now
    count }

/-! ## The loops -/

/-- A call of one of the callbacks, or of a message that is disabled. -/
inductive SinkCall where
  | replaceMessage (index : Nat) (toReplace replacement : Message)
  | setDisabled (message : Message)
  | addMessage (message : Message)
  deriving DecidableEq

/-- The loop from the message in front of a position back to the end. A round goes on, or breaks with the
replacement of its message and whether the new message should be added. -/
def scan (round : Message → Option (Option Message × Bool)) (buffer : List Message) (stop : Nat) :
    Nat → Option SinkCall × Bool
  | 0 => (none, true)
  | i + 1 =>
      if i < stop then (none, true)
      else
        match buffer[i]? with
        | none => (none, true)
        | some s =>
            match round s with
            | none => scan round buffer stop i
            | some (replacement, shouldAddMessage) => (replacement.map (.replaceMessage i s), shouldAddMessage)

section
variable (timeoutStackStyle : TimeoutStackStyle) (address : Nat) (message : Message)

def timeoutRound (minimumTime : Int) (s : Message) : Option (Option Message × Bool) :=
  if s.serverReceivedTime < minimumTime then some (none, true)
  else if s.flags.has .untimeout && s.timeoutUser == message.timeoutUser then some (none, true)
  else if timeoutStackStyle == .dontStackBeyondUserMessage && s.loginName == message.timeoutUser &&
      s.flags.hasNone [.disabled, .timeout, .untimeout] then some (none, true)
  else
    let newIsShared := message.flags.has .sharedMessage
    let oldIsShared := s.flags.has .sharedMessage
    if newIsShared != oldIsShared || newIsShared && message.channelName != s.channelName then none
    else if s.flags.has .timeout && s.timeoutUser == message.timeoutUser then
      if message.flags.has .pubSub && !s.flags.has .pubSub then some (some message, false)
      else if !message.flags.has .pubSub && s.flags.has .pubSub then some (none, timeoutStackStyle == .dontStack)
      else
        let count := s.count + 1
        let replacement := timeoutMessage address message.timeoutUser message.loginName message.channelName
          message.searchText count message.serverReceivedTime
        some (some { replacement with
          timeoutUser := message.timeoutUser
          channelName := message.channelName
          count
          flags := message.flags }, false)
    else none

/-- The calls of the callbacks, in their order. -/
def addOrReplaceChannelTimeout (buffer : List Message) (now : Int) (disableUserMessages : Bool) : List SinkCall :=
  let (replaced, shouldAddMessage) := scan (timeoutRound timeoutStackStyle address message (now - 5000)) buffer
    (buffer.length - 20) buffer.length
  let disabled :=
    if disableUserMessages then
      buffer.filter fun s => s.loginName == message.timeoutUser && s.flags.hasNone [.timeout, .untimeout, .whisper]
    else []
  replaced.toList ++ disabled.map .setDisabled ++ if shouldAddMessage then [.addMessage message] else []

def clearRound (minimumTime : Int) (s : Message) : Option (Option Message × Bool) :=
  if s.serverReceivedTime < minimumTime then some (none, true)
  else
    let isClearChat := s.flags.has .clearChat
    if timeoutStackStyle == .dontStackBeyondUserMessage && !isClearChat then some (none, true)
    else if !isClearChat || message.flags.has .pubSub != s.flags.has .pubSub then none
    else if timeoutStackStyle == .dontStackBeyondUserMessage && s.flags.has .pubSub &&
        s.timeoutUser != message.timeoutUser then some (none, true)
    else
      let count := s.count + 1
      let replacement := makeClearChatMessage address message.serverReceivedTime message.timeoutUser count
      some (some { replacement with flags := message.flags }, false)

def addOrReplaceChannelClear (buffer : List Message) (now : Int) : List SinkCall :=
  if timeoutStackStyle == .dontStack then [.addMessage message]
  else
    let (replaced, shouldAddMessage) := scan (clearRound timeoutStackStyle address message (now - 5000)) buffer
      (buffer.length - 20) buffer.length
    replaced.toList ++ if shouldAddMessage then [.addMessage message] else []

end

/-! ## The sinks -/

def Message.disable (message : Message) : Message := { message with flags := message.flags.set .disabled }

/-- A sink that keeps every message, as VectorMessageSink does. Its replacements get flags of its own. -/
def bufferPerforms (additionalFlags : MessageFlags) (messages : List Message) : SinkCall → List Message
  | .replaceMessage index _ replacement =>
      messages.set index { replacement with flags := replacement.flags ||| additionalFlags }
  | .setDisabled message =>
      messages.map fun other => if other.address = message.address then other.disable else other
  | .addMessage message => messages ++ [message]

def VectorMessageSink.addOrReplaceTimeout (additionalFlags : MessageFlags) (style : TimeoutStackStyle) (address : Nat)
    (messages : List Message) (clearchatMessage : Message) (now : Int) : List Message :=
  (addOrReplaceChannelTimeout style address clearchatMessage messages now false).foldl (bufferPerforms additionalFlags)
    messages

def VectorMessageSink.addOrReplaceClearChat (additionalFlags : MessageFlags) (style : TimeoutStackStyle) (address : Nat)
    (messages : List Message) (clearchatMessage : Message) (now : Int) : List Message :=
  (addOrReplaceChannelClear style address clearchatMessage messages now).foldl (bufferPerforms additionalFlags) messages

namespace Channel

def mapMessages {T : Type} (channel : Channel T) (f : T → T) : Channel T :=
  { channel with messages := { channel.messages with buffer := {
      items := channel.messages.buffer.items.map f
      size_le := by rw [List.length_map]; exact channel.messages.buffer.size_le } } }

def performs (channel : Channel Message) : SinkCall → Option (Channel Message)
  | .replaceMessage _ toReplace replacement => some (channel.replaceByMessage toReplace replacement).1
  | .setDisabled message =>
      some (channel.mapMessages fun other => if other.address = message.address then other.disable else other)
  | .addMessage message => channel.addMessage message

def addOrReplaceTimeout (style : TimeoutStackStyle) (address : Nat) (channel : Channel Message) (message : Message)
    (now : Int) : Option (Channel Message) :=
  (addOrReplaceChannelTimeout style address message channel.getMessageSnapshot now true).foldlM performs channel

def addOrReplaceClearChat (style : TimeoutStackStyle) (address : Nat) (channel : Channel Message) (message : Message)
    (now : Int) : Option (Channel Message) :=
  (addOrReplaceChannelClear style address message channel.getMessageSnapshot now).foldlM performs channel

end Channel

/-! ## What should happen -/

inductive Moderation where
  | timeout (disableUserMessages : Bool)
  | clearChat
  deriving DecidableEq, Repr

/-- A message as it comes in: it is counted once. -/
structure Incoming where
  kind : Moderation
  message : Message
  now : Int
  once : message.count = 1

def SinkCall.changes : SinkCall → Bool
  | .setDisabled _ => false
  | .replaceMessage .. | .addMessage _ => true

def SinkCall.produced : SinkCall → Option Message
  | .replaceMessage _ _ replacement => some replacement
  | .setDisabled _ => none
  | .addMessage message => some message

def counts (messages : List Message) : Nat := (messages.map fun message => message.count.toNat).sum

/-- The last messages of a buffer, the newest first. -/
def recent (buffer : List Message) : List Message := (buffer.drop (buffer.length - 20)).reverse

namespace Incoming

variable (incoming : Incoming) (style : TimeoutStackStyle)

def calls (address : Nat) (buffer : List Message) : List SinkCall :=
  match incoming.kind with
  | .timeout disableUserMessages =>
      addOrReplaceChannelTimeout style address incoming.message buffer incoming.now disableUserMessages
  | .clearChat => addOrReplaceChannelClear style address incoming.message buffer incoming.now

/-- Beyond such a message nothing is looked for. -/
def stops (s : Message) : Bool :=
  match incoming.kind with
  | .timeout _ =>
      s.serverReceivedTime < incoming.now - 5000 ||
        s.flags.has .untimeout && s.timeoutUser == incoming.message.timeoutUser ||
        style == .dontStackBeyondUserMessage && s.loginName == incoming.message.timeoutUser &&
          s.flags.hasNone [.disabled, .timeout, .untimeout]
  | .clearChat =>
      style == .dontStack || s.serverReceivedTime < incoming.now - 5000 ||
        style == .dontStackBeyondUserMessage && (!s.flags.has .clearChat ||
          incoming.message.flags.has .pubSub == s.flags.has .pubSub && s.flags.has .pubSub &&
            s.timeoutUser != incoming.message.timeoutUser)

/-- Whether a message tells of the same. Cleared chats are compared within one source only. -/
def resembles (s : Message) : Bool :=
  match incoming.kind with
  | .timeout _ =>
      incoming.message.flags.has .sharedMessage == s.flags.has .sharedMessage &&
        (!incoming.message.flags.has .sharedMessage || incoming.message.channelName == s.channelName) &&
        s.flags.has .timeout && s.timeoutUser == incoming.message.timeoutUser
  | .clearChat => s.flags.has .clearChat && incoming.message.flags.has .pubSub == s.flags.has .pubSub

/-- The message that the new one belongs to. -/
def partner (buffer : List Message) : Option Message :=
  ((recent buffer).takeWhile fun s => !incoming.stops style s).find? incoming.resembles

/-- The other source has told of the same event, and events are not shown one by one. -/
def repeats (s : Message) : Bool :=
  incoming.message.flags.has .pubSub && !s.flags.has .pubSub ||
    !incoming.message.flags.has .pubSub && s.flags.has .pubSub && style != .dontStack

def duplicate (buffer : List Message) : Bool := (incoming.partner style buffer).any (incoming.repeats style)

/-- How many events the message tells of that were not counted yet. -/
def events (buffer : List Message) : Nat := if incoming.duplicate style buffer then 0 else 1

/-- One message is replaced by one with the combined count, or the new one is added, or it is the
duplicate of one that is shown; the counts grow by the events, and nothing is stacked that should not. -/
structure Settled (address : Nat) (buffer : List Message) : Prop where
  one : (incoming.calls style address buffer).filter SinkCall.changes = [.addMessage incoming.message] ∨
    (∃ i s replacement, (incoming.calls style address buffer).filter SinkCall.changes = [.replaceMessage i s replacement] ∧
      buffer[i]? = some s ∧ replacement.count.toNat = s.count.toNat + incoming.events style buffer) ∨
    (incoming.calls style address buffer).filter SinkCall.changes = [] ∧ ¬ incoming.message.flags.has .pubSub ∧
      ∃ s ∈ buffer, s.flags.has .pubSub ∧ s.flags.has .timeout ∧ s.timeoutUser = incoming.message.timeoutUser
  sum : ∀ additionalFlags, counts ((incoming.calls style address buffer).foldl (bufferPerforms additionalFlags) buffer) =
    counts buffer + incoming.events style buffer
  unstacked : style = .dontStack → ∀ call ∈ incoming.calls style address buffer, ∀ message ∈ call.produced,
    message.count ≤ 1

/-- Where the message replaces that of the other source, that one was counted once. Otherwise there
has to be room in the count, and the style has to allow to stack. -/
def Stackable (s : Message) : Prop :=
  if incoming.message.flags.has .pubSub = s.flags.has .pubSub then
    s.count.toNat + 1 < 2 ^ 32 ∧ (style = .dontStack → s.count = 0)
  else incoming.message.flags.has .pubSub → s.count = 1

end Incoming

/-! ## What the loops find -/

/-- The loop stops at the first message that it may not pass, and decides at the first one that fits. -/
theorem scan_found {stops fits : Message → Bool} {decision : Message → Option Message × Bool}
    {round : Message → Option (Option Message × Bool)}
    (rounds : ∀ s, round s = if stops s then some (none, true) else if fits s then some (decision s) else none)
    {buffer : List Message} (stop : Nat) {i : Nat} (inside : i ≤ buffer.length) :
    ((((buffer.take i).drop stop).reverse.takeWhile fun s => !stops s).find? fits = none →
        scan round buffer stop i = (none, true)) ∧
      ∀ s, (((buffer.take i).drop stop).reverse.takeWhile fun s => !stops s).find? fits = some s →
        ∃ j, buffer[j]? = some s ∧
          scan round buffer stop i = ((decision s).1.map (.replaceMessage j s), (decision s).2) := by
  induction i with
  | zero => simp [scan]
  | succ i ih =>
    have looped : scan round buffer stop (i + 1) = if i < stop then (none, true) else
        match round buffer[i] with
        | none => scan round buffer stop i
        | some (replacement, shouldAddMessage) =>
            (replacement.map (.replaceMessage i buffer[i]), shouldAddMessage) := by
      rw [scan, List.getElem?_eq_getElem inside]
    rw [looped]
    by_cases ended : i < stop
    -- the loop ends behind the last twenty messages
    · have nothing : (buffer.take (i + 1)).drop stop = [] := by
        rw [List.drop_eq_nil_iff, List.length_take]
        omega
      rw [if_pos ended, nothing]
      simp
    -- the message at i is the newest one that is left
    · have more : ((buffer.take (i + 1)).drop stop).reverse = buffer[i] :: ((buffer.take i).drop stop).reverse := by
        rw [List.take_succ_eq_append_getElem inside, List.drop_append_of_le_length, List.reverse_concat]
        rw [List.length_take]
        omega
      rw [if_neg ended, more, rounds]
      cases stopped : stops buffer[i] with
      | true => simp [stopped]
      | false =>
        have taken : (buffer[i] :: ((buffer.take i).drop stop).reverse).takeWhile (fun s => !stops s) =
            buffer[i] :: (((buffer.take i).drop stop).reverse.takeWhile fun s => !stops s) :=
          List.takeWhile_cons_of_pos (by rw [stopped]; rfl)
        rw [taken, if_neg Bool.false_ne_true]
        cases fit : fits buffer[i] with
        | true =>
          rw [List.find?_cons_of_pos fit, if_pos rfl]
          refine ⟨nofun, ?_⟩
          rintro s ⟨⟩
          exact ⟨i, List.getElem?_eq_getElem inside, rfl⟩
        | false =>
          rw [List.find?_cons_of_neg (Bool.eq_false_iff.mp fit), if_neg Bool.false_ne_true]
          exact ih (Nat.le_of_succ_le inside)

namespace Incoming

variable {incoming : Incoming} {style : TimeoutStackStyle} {buffer : List Message}

/-- What replaces the message that is found, and whether the new one is added nevertheless. -/
def decision (incoming : Incoming) (style : TimeoutStackStyle) (address : Nat) (s : Message) : Option Message × Bool :=
  let message := incoming.message
  match incoming.kind with
  | .timeout _ =>
      if message.flags.has .pubSub && !s.flags.has .pubSub then (some message, false)
      else if !message.flags.has .pubSub && s.flags.has .pubSub then (none, style == .dontStack)
      else
        let replacement := timeoutMessage address message.timeoutUser message.loginName message.channelName
          message.searchText (s.count + 1) message.serverReceivedTime
        (some { replacement with
          timeoutUser := message.timeoutUser
          channelName := message.channelName
          count := s.count + 1
          flags := message.flags }, false)
  | .clearChat =>
      let replacement := makeClearChatMessage address message.serverReceivedTime message.timeoutUser (s.count + 1)
      (some { replacement with flags := message.flags }, false)

theorem timeoutRound_eq (style : TimeoutStackStyle) {disableUserMessages : Bool}
    (kind : incoming.kind = .timeout disableUserMessages) (address : Nat) (s : Message) :
    timeoutRound style address incoming.message (incoming.now - 5000) s =
      if incoming.stops style s then some (none, true)
      else if incoming.resembles s then some (incoming.decision style address s) else none := by
  unfold timeoutRound stops resembles decision
  rw [kind]
  grind

theorem clearRound_eq (kind : incoming.kind = .clearChat) (together : style ≠ .dontStack) (address : Nat)
    (s : Message) : clearRound style address incoming.message (incoming.now - 5000) s =
      if incoming.stops style s then some (none, true)
      else if incoming.resembles s then some (incoming.decision style address s) else none := by
  unfold clearRound stops resembles decision
  rw [kind]
  grind

/-- Both functions look for the message that the new one belongs to, and disabled messages come before
the new one is added. -/
theorem calls_found (incoming : Incoming) (style : TimeoutStackStyle) (address : Nat) (buffer : List Message) :
    ∃ disabled : List Message,
      (incoming.partner style buffer = none →
        incoming.calls style address buffer = disabled.map .setDisabled ++ [.addMessage incoming.message]) ∧
      ∀ s, incoming.partner style buffer = some s → ∃ i, buffer[i]? = some s ∧
        incoming.calls style address buffer =
          ((incoming.decision style address s).1.map (.replaceMessage i s)).toList ++ disabled.map .setDisabled ++
            if (incoming.decision style address s).2 then [.addMessage incoming.message] else [] := by
  have whole : (buffer.take buffer.length).drop (buffer.length - 20) = buffer.drop (buffer.length - 20) := by
    rw [List.take_length]
  cases kind : incoming.kind with
  | timeout disableUserMessages =>
    obtain ⟨nothing, found⟩ := scan_found (timeoutRound_eq style kind address) (buffer.length - 20)
      (Nat.le_refl buffer.length)
    rw [whole] at nothing found
    refine ⟨if disableUserMessages then buffer.filter fun s => s.loginName == incoming.message.timeoutUser &&
      s.flags.hasNone [.timeout, .untimeout, .whisper] else [], ?_, ?_⟩
    · intro isNone
      unfold calls addOrReplaceChannelTimeout
      rw [kind]
      dsimp only
      rw [nothing isNone]
      rfl
    · intro s isFound
      obtain ⟨i, there, scanned⟩ := found s isFound
      refine ⟨i, there, ?_⟩
      unfold calls addOrReplaceChannelTimeout
      rw [kind]
      dsimp only
      rw [scanned]
  | clearChat =>
    refine ⟨[], ?_⟩
    -- in this style the function adds the message before its loop, and every message stops the search
    by_cases apart : style = .dontStack
    · subst apart
      have stopped : ∀ s, incoming.stops .dontStack s = true := by
        intro s
        unfold stops
        rw [kind]
        rfl
      have alone : incoming.partner .dontStack buffer = none := by
        unfold partner
        cases recent buffer with
        | nil => rfl
        | cons s rest =>
          rw [List.takeWhile_cons_of_neg (by rw [stopped]; exact Bool.false_ne_true)]
          rfl
      refine ⟨fun _ => ?_, fun s isFound => absurd (alone.symm.trans isFound) (by simp)⟩
      unfold calls addOrReplaceChannelClear
      rw [kind]
      rfl
    · obtain ⟨nothing, found⟩ := scan_found (clearRound_eq kind apart address) (buffer.length - 20)
        (Nat.le_refl buffer.length)
      rw [whole] at nothing found
      have looked : incoming.calls style address buffer =
          (scan (clearRound style address incoming.message (incoming.now - 5000)) buffer (buffer.length - 20)
              buffer.length).1.toList ++
            if (scan (clearRound style address incoming.message (incoming.now - 5000)) buffer (buffer.length - 20)
              buffer.length).2 then [.addMessage incoming.message] else [] := by
        unfold calls addOrReplaceChannelClear
        rw [kind]
        exact if_neg (by simpa using apart)
      constructor
      · intro isNone
        rw [looked, nothing isNone]
        rfl
      · intro s isFound
        obtain ⟨i, there, scanned⟩ := found s isFound
        refine ⟨i, there, ?_⟩
        rw [looked, scanned, List.map_nil, List.append_nil]

/-- Either the same source has told of the same, or one source tells of what the other has told. -/
theorem decision_cases (style : TimeoutStackStyle) (address : Nat) {s : Message} (resembles : incoming.resembles s = true) :
    (incoming.message.flags.has .pubSub = s.flags.has .pubSub ∧ ∃ replacement,
        incoming.decision style address s = (some replacement, false) ∧ replacement.count = s.count + 1) ∨
      (incoming.message.flags.has .pubSub = true ∧ s.flags.has .pubSub = false ∧
        incoming.decision style address s = (some incoming.message, false)) ∨
      (incoming.message.flags.has .pubSub = false ∧ s.flags.has .pubSub = true ∧
        incoming.decision style address s = (none, style == .dontStack) ∧ s.flags.has .timeout = true ∧
        s.timeoutUser = incoming.message.timeoutUser) := by
  unfold Incoming.resembles at resembles
  unfold decision
  cases kind : incoming.kind with
  | timeout disableUserMessages =>
    simp only [kind, Bool.and_eq_true, beq_iff_eq] at resembles
    obtain ⟨⟨-, isTimeout⟩, sameUser⟩ := resembles
    dsimp only
    cases incoming.message.flags.has .pubSub with
    | true =>
      cases s.flags.has .pubSub with
      | true => exact .inl ⟨rfl, _, rfl, rfl⟩
      | false => exact .inr (.inl ⟨rfl, rfl, rfl⟩)
    | false =>
      cases s.flags.has .pubSub with
      | true => exact .inr (.inr ⟨rfl, rfl, rfl, isTimeout, sameUser⟩)
      | false => exact .inl ⟨rfl, _, rfl, rfl⟩
  | clearChat =>
    simp only [kind, Bool.and_eq_true, beq_iff_eq] at resembles
    exact .inl ⟨resembles.2, _, rfl, rfl⟩

end Incoming

/-! ## Counting -/

theorem counts_set {messages : List Message} {i : Nat} {s : Message} (there : messages[i]? = some s)
    (replacement : Message) :
    counts (messages.set i replacement) + s.count.toNat = counts messages + replacement.count.toNat := by
  unfold counts
  induction messages generalizing i with
  | nil => cases there
  | cons first rest ih =>
    cases i with
    | zero =>
      obtain rfl := Option.some.inj there
      simp only [List.set_cons_zero, List.map_cons, List.sum_cons]
      omega
    | succ i =>
      have behind := ih there
      simp only [List.set_cons_succ, List.map_cons, List.sum_cons]
      omega

theorem counts_disabled (additionalFlags : MessageFlags) (disabled messages : List Message) :
    counts ((disabled.map SinkCall.setDisabled).foldl (bufferPerforms additionalFlags) messages) = counts messages := by
  induction disabled generalizing messages with
  | nil => rfl
  | cons message disabled ih =>
    rw [List.map_cons, List.foldl_cons, ih]
    unfold counts bufferPerforms
    dsimp only
    rw [List.map_map]
    congr 1
    apply List.map_congr_left
    intro other _
    show (if other.address = message.address then other.disable else other).count.toNat = _
    split <;> rfl

theorem counts_append (messages others : List Message) : counts (messages ++ others) = counts messages + counts others := by
  unfold counts
  rw [List.map_append, List.sum_append]

theorem counts_singleton (message : Message) : counts [message] = message.count.toNat := Nat.add_zero _

/-- The count has room for one more, and is a single one only behind nothing. -/
theorem count_next (count : UInt32) :
    (count + 1).toNat = count.toNat + 1 ↔ count.toNat + 1 < 2 ^ 32 := by
  rw [UInt32.toNat_add]
  have size := count.toNat_lt
  show (count.toNat + 1) % 2 ^ 32 = _ ↔ _
  omega

theorem count_single {count : UInt32} (room : count.toNat + 1 < 2 ^ 32) : count + 1 ≤ 1 ↔ count = 0 := by
  rw [UInt32.le_iff_toNat_le, (count_next count).mpr room, ← UInt32.toNat_inj]
  show _ ≤ 1 ↔ _ = 0
  omega

theorem changes_disabled (disabled : List Message) : (disabled.map SinkCall.setDisabled).filter SinkCall.changes = [] := by
  rw [List.filter_map]
  exact List.map_eq_nil_iff.mpr (List.filter_eq_nil_iff.mpr fun _ _ => Bool.false_ne_true)

namespace Incoming

variable {incoming : Incoming} {style : TimeoutStackStyle} {buffer : List Message}

theorem partner_found {s : Message} (found : incoming.partner style buffer = some s) :
    s ∈ buffer ∧ incoming.resembles s = true := by
  constructor
  · have member := List.mem_of_find?_eq_some found
    -- the search only leaves messages out
    have recently : s ∈ recent buffer := (List.takeWhile_subset _) member
    exact List.mem_of_mem_drop (List.mem_reverse.mp recently)
  · exact List.find?_some found

theorem produced_disabled {disabled : List Message} {call : SinkCall} (member : call ∈ disabled.map SinkCall.setDisabled) :
    call.produced = none := by
  obtain ⟨message, -, rfl⟩ := List.mem_map.mp member
  rfl

/-- The new message is added. -/
theorem settled_added {address : Nat} (one : incoming.events style buffer = 1) {disabled : List Message}
    (isCalls : incoming.calls style address buffer = disabled.map .setDisabled ++ [.addMessage incoming.message]) :
    incoming.Settled style address buffer := by
  have once := incoming.once
  constructor
  case one =>
    left
    rw [isCalls, List.filter_append, changes_disabled]
    rfl
  case sum =>
    intro additionalFlags
    rw [isCalls, List.foldl_append, one]
    show counts ((disabled.map SinkCall.setDisabled).foldl (bufferPerforms additionalFlags) buffer ++ [incoming.message]) = _
    rw [counts_append, counts_disabled, counts_singleton, once]
    rfl
  case unstacked =>
    intro _ call member message produced
    rw [isCalls] at member
    rcases List.mem_append.mp member with disabledCall | added
    · rw [produced_disabled disabledCall] at produced
      cases produced
    · obtain rfl := List.mem_singleton.mp added
      obtain rfl := Option.some.inj produced
      rw [once]
      exact UInt32.le_refl 1

/-- Nothing but that messages are disabled. -/
theorem settled_dropped {address : Nat} {s : Message} (shown : s ∈ buffer) (none_ : incoming.events style buffer = 0)
    (other : ¬ incoming.message.flags.has .pubSub) (pubSub : s.flags.has .pubSub) (timeout : s.flags.has .timeout)
    (sameUser : s.timeoutUser = incoming.message.timeoutUser) {disabled : List Message}
    (isCalls : incoming.calls style address buffer = disabled.map .setDisabled) :
    incoming.Settled style address buffer := by
  constructor
  case one =>
    right
    right
    refine ⟨?_, other, s, shown, pubSub, timeout, sameUser⟩
    rw [isCalls, changes_disabled]
  case sum =>
    intro additionalFlags
    rw [isCalls, counts_disabled, none_]
    rfl
  case unstacked =>
    intro _ call member message produced
    rw [isCalls] at member
    rw [produced_disabled member] at produced
    cases produced

/-- Where a message is replaced, everything depends on the count of its replacement. -/
theorem settled_replaced {address i : Nat} {s replacement : Message} (there : buffer[i]? = some s) {disabled : List Message}
    (isCalls : incoming.calls style address buffer =
      .replaceMessage i s replacement :: disabled.map .setDisabled) :
    incoming.Settled style address buffer ↔
      replacement.count.toNat = s.count.toNat + incoming.events style buffer ∧
        (style = .dontStack → replacement.count ≤ 1) := by
  have changes : (incoming.calls style address buffer).filter SinkCall.changes = [.replaceMessage i s replacement] := by
    rw [isCalls, List.filter_cons_of_pos rfl, changes_disabled]
  constructor
  · intro settled
    constructor
    · rcases settled.one with added | ⟨j, t, r, replaced, -, combined⟩ | ⟨nothing, -⟩
      · rw [changes] at added
        simp at added
      · rw [changes] at replaced
        simp only [List.cons.injEq, SinkCall.replaceMessage.injEq, and_true] at replaced
        obtain ⟨rfl, rfl, rfl⟩ := replaced
        exact combined
      · rw [changes] at nothing
        cases nothing
    · intro single
      refine settled.unstacked single (.replaceMessage i s replacement) ?_ replacement rfl
      rw [isCalls]
      exact List.mem_cons_self
  · rintro ⟨combined, single⟩
    constructor
    case one => exact .inr (.inl ⟨i, s, replacement, changes, there, combined⟩)
    case sum =>
      intro additionalFlags
      rw [isCalls, List.foldl_cons, counts_disabled]
      -- the flags of the sink do not change the count
      have replaced := counts_set there { replacement with flags := replacement.flags ||| additionalFlags }
      show counts (buffer.set i _) = _
      dsimp only at replaced
      omega
    case unstacked =>
      intro isSingle call member message produced
      rw [isCalls] at member
      rcases List.mem_cons.mp member with rfl | disabledCall
      · obtain rfl := Option.some.inj produced
        exact single isSingle
      · rw [produced_disabled disabledCall] at produced
        cases produced

/-- A message is settled if and only if the one that it belongs to, if there is one, can be stacked. -/
theorem settled_iff (incoming : Incoming) (style : TimeoutStackStyle) (address : Nat) (buffer : List Message) :
    incoming.Settled style address buffer ↔ ∀ s, incoming.partner style buffer = some s → incoming.Stackable style s := by
  obtain ⟨disabled, alone, together⟩ := incoming.calls_found style address buffer
  cases found : incoming.partner style buffer with
  | none =>
    have events : incoming.events style buffer = 1 := by
      unfold Incoming.events duplicate
      rw [found]
      rfl
    exact iff_of_true (settled_added events (alone found)) (fun s isSome => by cases isSome)
  | some s =>
    obtain ⟨i, there, isCalls⟩ := together s found
    obtain ⟨member, resembles⟩ := partner_found found
    have events : incoming.events style buffer = if incoming.repeats style s then 0 else 1 := by
      unfold Incoming.events duplicate
      rw [found]
      rfl
    have single : (∀ t, some s = some t → incoming.Stackable style t) ↔ incoming.Stackable style s :=
      ⟨fun holds => holds s rfl, fun holds t same => Option.some.inj same ▸ holds⟩
    rw [single]
    unfold Stackable
    -- the same source, PubSub behind IRC, and IRC behind PubSub
    rcases decision_cases style address resembles with
      ⟨same, replacement, decided, count⟩ | ⟨isPubSub, isIrc, decided⟩ | ⟨isIrc, isPubSub, decided, timeout, sameUser⟩
    · have new : incoming.repeats style s = false := by
        unfold repeats
        rw [same]
        cases s.flags.has .pubSub <;> rfl
      rw [decided] at isCalls
      rw [if_pos same, settled_replaced there (by simpa using isCalls), events, new, count]
      show (s.count + 1).toNat = s.count.toNat + 1 ∧ _ ↔ _
      rw [count_next]
      exact and_congr_right fun room => imp_congr_right fun _ => count_single room
    · have again : incoming.repeats style s = true := by
        unfold repeats
        rw [isPubSub, isIrc]
        rfl
      have differ : incoming.message.flags.has .pubSub ≠ s.flags.has .pubSub := by
        rw [isPubSub, isIrc]
        exact nofun
      have once := incoming.once
      rw [decided] at isCalls
      rw [if_neg differ, settled_replaced there (by simpa using isCalls), events, again, once, ← UInt32.toNat_inj]
      constructor
      · rintro ⟨combined, -⟩ _
        exact combined.symm
      · intro counted
        exact ⟨(counted isPubSub).symm, fun _ => UInt32.le_refl 1⟩
    · have differ : incoming.message.flags.has .pubSub ≠ s.flags.has .pubSub := by
        rw [isPubSub, isIrc]
        exact nofun
      rw [if_neg differ]
      refine iff_of_true ?_ fun pubSub => absurd (isIrc.symm.trans pubSub) Bool.false_ne_true
      rw [decided] at isCalls
      -- only where every event is shown by itself, the message is added beside that of PubSub
      by_cases single : style = .dontStack
      · subst single
        apply settled_added
        · rw [events]
          unfold repeats
          rw [isPubSub, isIrc]
          rfl
        · simpa using isCalls
      · have again : incoming.repeats style s = true := by
          unfold repeats
          rw [isPubSub, isIrc]
          simpa using single
        apply settled_dropped member _ (by rw [isIrc]; exact Bool.false_ne_true) isPubSub timeout sameUser
        · simpa [single] using isCalls
        · rw [events, again]
          rfl

/-- A timeout that PubSub tells of. -/
def pubSubTimeout (address : Nat) (time : Int) : Message where
  address
  flags := .of [.system, .timeout, .pubSub]
  searchText := qs "forsen timed out pajlada for 1s. "
  loginName := qs "forsen"
  timeoutUser := qs "pajlada"
  channelName := []
  serverReceivedTime := time
  count := 1

/-- Two timeouts of one user within five seconds become one message, though nothing should be stacked. -/
theorem stacked_nevertheless :
    ¬ Settled ⟨.timeout true, pubSubTimeout 1 1000, 1000, rfl⟩ .dontStack 2 [pubSubTimeout 0 0] := by
  intro settled
  have single : (calls ⟨.timeout true, pubSubTimeout 1 1000, 1000, rfl⟩ .dontStack 2 [pubSubTimeout 0 0]).all
      (fun call => call.produced.all fun message => message.count ≤ 1) = true := by
    rw [List.all_eq_true]
    intro call member
    rw [Option.all_eq_true]
    intro message produced
    exact decide_eq_true (settled.unstacked rfl call member message produced)
  exact absurd single (by decide)

end Incoming

/-! ## The sinks and the calls -/

def VectorMessageSink.receive (additionalFlags : MessageFlags) (style : TimeoutStackStyle) (address : Nat)
    (messages : List Message) (incoming : Incoming) : List Message :=
  match incoming.kind with
  | .timeout _ =>
      VectorMessageSink.addOrReplaceTimeout additionalFlags style address messages incoming.message incoming.now
  | .clearChat =>
      VectorMessageSink.addOrReplaceClearChat additionalFlags style address messages incoming.message incoming.now

def Channel.receive (style : TimeoutStackStyle) (address : Nat) (channel : Channel Message) (incoming : Incoming) :
    Option (Channel Message) :=
  match incoming.kind with
  | .timeout _ => channel.addOrReplaceTimeout style address incoming.message incoming.now
  | .clearChat => channel.addOrReplaceClearChat style address incoming.message incoming.now

/-- A message that the channel has once is replaced where it is. -/
theorem replaced_channel {channel : Channel Message} (distinct : channel.getMessageSnapshot.Nodup) {i : Nat} {s : Message}
    (there : channel.getMessageSnapshot[i]? = some s) (replacement : Message) :
    (channel.replaceByMessage s replacement).1.getMessageSnapshot = channel.getMessageSnapshot.set i replacement ∧
      (channel.replaceByMessage s replacement).1.messages.limit = channel.messages.limit := by
  cases found : channel.getMessageSnapshot.findIdx? (fun other => other == s) with
  | none => exact absurd (List.mem_of_getElem? there) (not_mem_of_findIdx found)
  | some j =>
    obtain ⟨thereToo, -⟩ := getElem_of_findIdx found
    obtain ⟨behind, -⟩ := replaceByMessage_found replacement found
    obtain ⟨inside, _⟩ := List.getElem?_eq_some_iff.mp there
    obtain rfl : i = j := (List.getElem?_inj inside distinct).mp (there.trans thereToo.symm)
    refine ⟨behind, ?_⟩
    have index : channel.messages.buffer.items.findIdx? (fun other => other == s) = some i := found
    unfold Channel.replaceByMessage LimitedQueue.replaceItem
    rw [index]

theorem disabled_channel (disabled : List Message) (channel : Channel Message) :
    ∃ after, (disabled.map SinkCall.setDisabled).foldlM Channel.performs channel = some after ∧
      after.getMessageSnapshot = (disabled.map SinkCall.setDisabled).foldl (bufferPerforms 0) channel.getMessageSnapshot ∧
      after.messages.limit = channel.messages.limit := by
  induction disabled generalizing channel with
  | nil => exact ⟨channel, rfl, rfl, rfl⟩
  | cons message disabled ih =>
    obtain ⟨after, performed, shown, limit⟩ := ih (channel.mapMessages fun other =>
      if other.address = message.address then other.disable else other)
    exact ⟨after, performed, shown, limit⟩

theorem added_channel (channel : Channel Message) (positive : 0 < channel.messages.limit) (message : Message) :
    ∃ after, channel.addMessage message = some after ∧
      after.getMessageSnapshot = (channel.getMessageSnapshot ++ [message]).drop
        ((channel.getMessageSnapshot ++ [message]).length - channel.messages.limit) := by
  obtain ⟨behind, full, deleted, pushed, -, items⟩ := pushBackDeleted_items message positive
  refine ⟨_, by rw [Channel.addMessage, pushed]; rfl, ?_⟩
  have size : channel.getMessageSnapshot.length ≤ channel.messages.limit := channel.messages.buffer.size_le
  -- the queue is over its limit by one message, if it was full
  have few : overflow channel.messages =
      (channel.getMessageSnapshot ++ [message]).length - channel.messages.limit := by
    rw [overflow_eq, List.length_append, List.length_singleton]
    show (if channel.getMessageSnapshot.length = channel.messages.limit then 1 else 0) = _
    split <;> omega
  rw [← few]
  exact items

/-- Whatever comes first, messages are disabled behind it, and then the new one is added or not. -/
theorem performed_channel {channel replaced : Channel Message} {first : List SinkCall}
    (positive : 0 < channel.messages.limit) (performed : first.foldlM Channel.performs channel = some replaced)
    (shown : replaced.getMessageSnapshot = first.foldl (bufferPerforms 0) channel.getMessageSnapshot)
    (limit : replaced.messages.limit = channel.messages.limit) (disabled : List Message) (added : Option Message) :
    let calls := first ++ disabled.map .setDisabled ++ (added.map SinkCall.addMessage).toList
    let kept := calls.foldl (bufferPerforms 0) channel.getMessageSnapshot
    ∃ after, calls.foldlM Channel.performs channel = some after ∧
      after.getMessageSnapshot = kept.drop (kept.length - channel.messages.limit) := by
  obtain ⟨behind, disabledToo, shownBehind, limitBehind⟩ := disabled_channel disabled replaced
  have both : (first ++ disabled.map SinkCall.setDisabled).foldlM Channel.performs channel = some behind := by
    rw [List.foldlM_append, performed]
    exact disabledToo
  have keeps : behind.getMessageSnapshot =
      (first ++ disabled.map SinkCall.setDisabled).foldl (bufferPerforms 0) channel.getMessageSnapshot := by
    rw [List.foldl_append, shownBehind, shown]
  have size : behind.getMessageSnapshot.length ≤ channel.messages.limit :=
    limit ▸ limitBehind ▸ behind.messages.buffer.size_le
  dsimp only
  rw [List.foldlM_append, both, List.foldl_append, ← keeps]
  cases added with
  | none =>
    refine ⟨behind, rfl, ?_⟩
    show _ = behind.getMessageSnapshot.drop (behind.getMessageSnapshot.length - channel.messages.limit)
    rw [Nat.sub_eq_zero_of_le size, List.drop_zero]
  | some message =>
    obtain ⟨after, isAdded, shownAfter⟩ := added_channel behind (by omega) message
    refine ⟨after, ?_, ?_⟩
    · show (behind.addMessage message).bind some = _
      rw [isAdded]
      rfl
    · rw [shownAfter, limitBehind, limit]
      rfl

/-- VectorMessageSink keeps what the calls make of its messages. -/
theorem VectorMessageSink.receive_calls (additionalFlags : MessageFlags) (style : TimeoutStackStyle) (address : Nat)
    (messages : List Message) {incoming : Incoming} (enabled : incoming.kind ≠ .timeout true) :
    VectorMessageSink.receive additionalFlags style address messages incoming =
      (incoming.calls style address messages).foldl (bufferPerforms additionalFlags) messages := by
  unfold VectorMessageSink.receive Incoming.calls
  cases kind : incoming.kind with
  | clearChat => rfl
  | timeout disableUserMessages =>
    cases disableUserMessages with
    | true => exact absurd kind enabled
    | false => rfl

theorem Channel.receive_calls (style : TimeoutStackStyle) (address : Nat) (channel : Channel Message) {incoming : Incoming}
    (disabling : incoming.kind ≠ .timeout false) :
    channel.receive style address incoming =
      (incoming.calls style address channel.getMessageSnapshot).foldlM Channel.performs channel := by
  unfold Channel.receive Incoming.calls
  cases kind : incoming.kind with
  | clearChat => rfl
  | timeout disableUserMessages =>
    cases disableUserMessages with
    | true => rfl
    | false => exact absurd kind disabling

/-- The channel shows the last messages of what a sink without a limit would keep. -/
theorem channel_shows {incoming : Incoming} (disabling : incoming.kind ≠ .timeout false) (style : TimeoutStackStyle)
    (address : Nat) {channel : Channel Message} (positive : 0 < channel.messages.limit)
    (distinct : channel.getMessageSnapshot.Nodup) :
    let kept := (incoming.calls style address channel.getMessageSnapshot).foldl (bufferPerforms 0) channel.getMessageSnapshot
    ∃ after, channel.receive style address incoming = some after ∧
      after.getMessageSnapshot = kept.drop (kept.length - channel.messages.limit) := by
  obtain ⟨disabled, alone, together⟩ := incoming.calls_found style address channel.getMessageSnapshot
  dsimp only
  rw [Channel.receive_calls style address channel disabling]
  cases found : incoming.partner style channel.getMessageSnapshot with
  | none =>
    rw [alone found]
    exact @performed_channel channel channel [] positive rfl rfl rfl disabled (some incoming.message)
  | some s =>
    obtain ⟨i, there, isCalls⟩ := together s found
    rw [isCalls]
    -- at most one message is added behind the replacement
    have lastly : (if (incoming.decision style address s).2 then [SinkCall.addMessage incoming.message] else []) =
        ((if (incoming.decision style address s).2 then some incoming.message else none).map
          SinkCall.addMessage).toList := by
      split <;> rfl
    rw [lastly]
    cases (incoming.decision style address s).1 with
    | none => exact @performed_channel channel channel [] positive rfl rfl rfl disabled _
    | some replacement =>
      obtain ⟨shown, limit⟩ := replaced_channel distinct there replacement
      have same : channel.getMessageSnapshot.set i replacement =
          [SinkCall.replaceMessage i s replacement].foldl (bufferPerforms 0) channel.getMessageSnapshot := by
        show _ = channel.getMessageSnapshot.set i { replacement with flags := replacement.flags ||| 0 }
        rw [show replacement.flags ||| 0 = replacement.flags from BitVec.or_zero]
      exact performed_channel positive rfl (shown.trans same) limit disabled _

end Forserino.Messages
