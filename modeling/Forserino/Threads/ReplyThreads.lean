import Forserino.Foundation.Runs
import Forserino.Qt.Text

/-! The reply threads of a Twitch channel (messages/MessageThread.cpp, providers/twitch/TwitchChannel.cpp,
providers/twitch/IrcMessageHandler.cpp).

Messages and threads are shared objects. A message is alive as long as the channel or another part of
the program holds it, and a thread as long as a message that is alive or an open window holds it; the
channel knows its threads by weak pointers only.
-/

set_option autoImplicit false

namespace Forserino.Threads

open Forserino.Foundation Forserino.Qt

/-- A message with the thread that it holds. -/
structure Message where
  id : QString
  replyThread : Option Nat
  deriving DecidableEq, Repr

/-- The replies are weak pointers. -/
structure MessageThread where
  rootMessageId : QString
  replies : List Nat
  deriving DecidableEq, Repr

def MessageThread.addToThread (thread : MessageThread) (message : Nat) : MessageThread :=
  { thread with replies := thread.replies ++ [message] }

/-- The channel, all messages and threads that there have been, and who holds them. -/
structure TwitchChannel where
  messageObjects : List Message
  threadObjects : List MessageThread
  threads : QString → Option Nat
  messages : List Nat
  /-- What other channels, views, user cards and sinks hold. -/
  elsewhere : List Nat
  /-- The threads that open windows hold. -/
  openThreads : List Nat

namespace TwitchChannel

def new : TwitchChannel := ⟨[], [], fun _ => none, [], [], []⟩

def alive (s : TwitchChannel) (message : Nat) : Bool := s.messages.contains message || s.elsewhere.contains message

def replyThread (s : TwitchChannel) (message : Nat) : Option Nat := s.messageObjects[message]?.bind Message.replyThread

def held (s : TwitchChannel) (thread : Nat) : Bool :=
  s.openThreads.contains thread || (s.messages ++ s.elsewhere).any fun message => s.replyThread message == some thread

def rootId (s : TwitchChannel) (thread : Nat) : Option QString := s.threadObjects[thread]?.map MessageThread.rootMessageId

def replies (s : TwitchChannel) (thread : Nat) : List Nat := (s.threadObjects[thread]?.map MessageThread.replies).getD []

def liveCount (s : TwitchChannel) (thread : Nat) : Nat := ((s.replies thread).filter s.alive).length

def liveCountExcluding (s : TwitchChannel) (thread exclude : Nat) : Nat :=
  ((s.replies thread).filter fun reply => s.alive reply && reply != exclude).length

/-! ## Threads are made -/

/-- make_shared<MessageThread>(root) -/
def makeThread (s : TwitchChannel) (root : Message) : TwitchChannel × Nat :=
  ({ s with threadObjects := s.threadObjects ++ [⟨root.id, []⟩] }, s.threadObjects.length)

def addReplyThread (s : TwitchChannel) (thread : Nat) : TwitchChannel :=
  match s.rootId thread with
  | some rootId => { s with threads := Function.update s.threads rootId (some thread) }
  | none => s

/-- The thread that is known by an id, unless its pointer has expired. -/
def findThread (s : TwitchChannel) (id : QString) : Option Nat := (s.threads id).filter s.held

def getOrCreateThread (s : TwitchChannel) (message : Message) : TwitchChannel × Nat :=
  match s.findThread message.id with
  | some thread => (s, thread)
  | none =>
      let (s, thread) := s.makeThread message
      (s.addReplyThread thread, thread)

/-- The thread of an incoming message, whose root the sink has found or not. -/
def populateReply (s : TwitchChannel) (replyID : QString) (root : Option Message) : TwitchChannel × Option Nat :=
  match s.findThread replyID with
  | some thread => (s, some thread)
  | none =>
      match root with
      | some root =>
          let (s, newThread) := s.makeThread root
          (s.addReplyThread newThread, some newThread)
      | none => (s, none)

/-- A message is built, added to its thread and held by the sink. -/
def makeIrcMessage (s : TwitchChannel) (id : QString) (thread : Option Nat) (intoChannel : Bool) : TwitchChannel :=
  let message := s.messageObjects.length
  { s with
    messageObjects := s.messageObjects ++ [⟨id, thread⟩]
    threadObjects :=
      match thread with
      | some thread => s.threadObjects.modify thread fun t => t.addToThread message
      | none => s.threadObjects
    messages := if intoChannel then s.messages ++ [message] else s.messages
    elsewhere := if intoChannel then s.elsewhere else s.elsewhere ++ [message] }

/-! ## Threads are forgotten -/

def messageRemovedFromStart (s : TwitchChannel) (message : Nat) : TwitchChannel :=
  match s.replyThread message with
  | some thread =>
      if s.liveCountExcluding thread message = 0 then
        match s.rootId thread with
        | some rootId => { s with threads := Function.update s.threads rootId none }
        | none => s
      else s
  | none => s

def cleanUpReplyThreads (s : TwitchChannel) : TwitchChannel :=
  { s with threads := fun id => (s.findThread id).filter fun thread => s.liveCount thread != 0 }

/-- The channel lets a message go that was its first one. -/
def evict (s : TwitchChannel) (message : Nat) : TwitchChannel :=
  ({ s with messages := s.messages.erase message } : TwitchChannel).messageRemovedFromStart message

end TwitchChannel

/-- What can happen. In an incoming message, replyID is the tag of a reply, and root the message that the
sink finds by it; a message of an ignored user is not built. -/
inductive Event where
  | incoming (id : QString) (replyID : Option QString) (root : Option Nat) (ignored intoChannel : Bool)
  | getOrCreateThread (message : Nat) (kept : Bool)
  | showReplyThreadPopup (message : Nat)
  | closePopup (thread : Nat)
  | hold (message : Nat)
  | letGo (message : Nat)
  | addToChannel (message : Nat)
  | removeFromChannel (message : Nat)
  | evict (message : Nat)
  | cleanUpReplyThreads
  | replyCommand (message : Nat)
  deriving DecidableEq, Repr

namespace TwitchChannel

/-- There is no step where a message is used that is not there. -/
def step (s : TwitchChannel) : Event → Option TwitchChannel
  | .incoming id none _ ignored intoChannel =>
      some (if ignored then s else s.makeIrcMessage id none intoChannel)
  | .incoming id (some replyID) root ignored intoChannel =>
      if root.all fun root => s.alive root && s.messageObjects[root]?.any fun message => message.id == replyID then
        let (s, thread) := s.populateReply replyID (root.bind fun root => s.messageObjects[root]?)
        some (if ignored then s else s.makeIrcMessage id thread intoChannel)
      else none
  | .getOrCreateThread message kept =>
      if s.alive message then
        s.messageObjects[message]?.map fun object =>
          let (s, thread) := s.getOrCreateThread object
          -- setInputReply does not keep the thread
          if kept then { s with openThreads := s.openThreads ++ [thread] } else s
      else none
  | .showReplyThreadPopup message =>
      if s.alive message then
        (s.replyThread message).map fun thread => { s with openThreads := s.openThreads ++ [thread] }
      else none
  | .closePopup thread => some { s with openThreads := s.openThreads.erase thread }
  | .hold message => if s.alive message then some { s with elsewhere := s.elsewhere ++ [message] } else none
  | .letGo message => some { s with elsewhere := s.elsewhere.erase message }
  | .addToChannel message => if s.alive message then some { s with messages := s.messages ++ [message] } else none
  | .removeFromChannel message => some { s with messages := s.messages.erase message }
  | .evict message => if s.messages.contains message then some (s.evict message) else none
  | .cleanUpReplyThreads => some s.cleanUpReplyThreads
  | .replyCommand message =>
      if s.messages.contains message && s.replyThread message == none then
        s.messageObjects[message]?.map fun object =>
          let (s, thread) := s.makeThread object
          s.addReplyThread thread
      else none

/-- There is one object for each thread that something holds, the channel knows it, and it has every
reply once. -/
structure OneObject (s : TwitchChannel) : Prop where
  same : ∀ thread other id, s.held thread → s.held other → s.rootId thread = some id → s.rootId other = some id →
    thread = other
  known : ∀ thread, s.held thread → ∃ id, s.rootId thread = some id ∧ s.threads id = some thread
  once : ∀ message thread, s.replyThread message = some thread → (s.replies thread).count message = 1

/-- Where the map lets a thread go, nothing holds it any more: not the message itself when it is
evicted, and no window whose thread has no replies left. The command does not look for a thread. -/
def Forgotten (s : TwitchChannel) : Event → Prop
  | .evict message => ∀ thread ∈ s.replyThread message, s.liveCountExcluding thread message = 0 →
      ¬ ({ s with messages := s.messages.erase message } : TwitchChannel).held thread
  | .cleanUpReplyThreads => ∀ thread ∈ s.openThreads, s.liveCount thread ≠ 0
  | .replyCommand message => ∀ thread < s.threadObjects.length, s.held thread →
      s.rootId thread ≠ s.messageObjects[message]?.map Message.id
  | _ => True

instance : ∀ (s : TwitchChannel) (event : Event), Decidable (s.Forgotten event)
  | s, .evict message => inferInstanceAs (Decidable (∀ thread ∈ s.replyThread message, _))
  | s, .cleanUpReplyThreads => inferInstanceAs (Decidable (∀ thread ∈ s.openThreads, _))
  | s, .replyCommand message => inferInstanceAs (Decidable (∀ thread < s.threadObjects.length, s.held thread →
      s.rootId thread ≠ s.messageObjects[message]?.map Message.id))
  | _, .incoming _ _ _ _ _ | _, .getOrCreateThread _ _ | _, .showReplyThreadPopup _ | _, .closePopup _ | _, .hold _
  | _, .letGo _ | _, .addToChannel _ | _, .removeFromChannel _ => isTrue trivial

/-! ## Holders -/

variable {s next : TwitchChannel}

theorem alive_iff {message : Nat} : s.alive message = true ↔ message ∈ s.messages ∨ message ∈ s.elsewhere := by
  rw [alive, Bool.or_eq_true, List.contains_iff_mem, List.contains_iff_mem]

theorem held_iff {thread : Nat} : s.held thread = true ↔
    thread ∈ s.openThreads ∨ ∃ message, s.alive message = true ∧ s.replyThread message = some thread := by
  simp only [held, Bool.or_eq_true, List.contains_iff_mem, List.any_eq_true, List.mem_append, beq_iff_eq, alive_iff]

/-- The map knows the thread by its root. -/
def Known (s : TwitchChannel) (thread : Nat) : Prop :=
  ∃ id, s.rootId thread = some id ∧ s.threads id = some thread

/-- With what is needed of the objects. -/
structure Sound (s : TwitchChannel) : Prop where
  known : ∀ thread, s.held thread → s.Known thread
  once : ∀ message thread, s.replyThread message = some thread → (s.replies thread).count message = 1
  built : ∀ message, s.alive message → message < s.messageObjects.length
  replied : ∀ thread, ∀ reply ∈ s.replies thread, reply < s.messageObjects.length

theorem Sound.oneObject (sound : s.Sound) : s.OneObject where
  same := by
    intro thread other id isHeld otherHeld isRoot sameRoot
    obtain ⟨first, isFirst, knows⟩ := sound.known thread isHeld
    obtain ⟨second, isSecond, knowsOther⟩ := sound.known other otherHeld
    obtain rfl := Option.some.inj (isFirst.symm.trans isRoot)
    obtain rfl := Option.some.inj (isSecond.symm.trans sameRoot)
    exact Option.some.inj (knows.symm.trans knowsOther)
  known := sound.known
  once := sound.once

theorem new_sound : new.Sound where
  known _ nothing := by cases nothing
  once _ _ nothing := by cases nothing
  built _ nothing := by cases nothing
  replied _ _ nothing := by cases nothing

/-- The objects stay, and the map still knows every thread that is held behind the step. -/
theorem Sound.kept (sound : s.Sound) (messageObjects : next.messageObjects = s.messageObjects)
    (threadObjects : next.threadObjects = s.threadObjects)
    (alive : ∀ message, next.alive message → s.alive message) (known : ∀ thread, next.held thread → next.Known thread) :
    next.Sound := by
  have sameReplies : ∀ thread, next.replies thread = s.replies thread := by
    intro thread
    rw [replies, replies, threadObjects]
  have sameThread : ∀ message, next.replyThread message = s.replyThread message := by
    intro message
    rw [replyThread, replyThread, messageObjects]
  constructor
  case known => exact known
  case once =>
    intro message thread holds
    rw [sameReplies]
    exact sound.once message thread ((sameThread message).symm.trans holds)
  case built =>
    intro message lives
    rw [messageObjects]
    exact sound.built message (alive message lives)
  case replied =>
    intro thread reply member
    rw [messageObjects]
    rw [sameReplies] at member
    exact sound.replied thread reply member

/-- The map stays as well, and nothing else is held. -/
theorem Sound.fewer (sound : s.Sound) (messageObjects : next.messageObjects = s.messageObjects)
    (threadObjects : next.threadObjects = s.threadObjects) (threads : next.threads = s.threads)
    (alive : ∀ message, next.alive message → s.alive message)
    (opened : ∀ thread ∈ next.openThreads, thread ∈ s.openThreads ∨ s.Known thread) : next.Sound := by
  have sameKnown : ∀ thread, s.Known thread → next.Known thread := by
    intro thread known
    rwa [Known, rootId, threads, threadObjects]
  apply sound.kept messageObjects threadObjects alive
  intro thread isHeld
  rcases held_iff.mp isHeld with isOpen | ⟨message, lives, holds⟩
  · rcases opened thread isOpen with wasOpen | known
    · exact sameKnown thread (sound.known thread (held_iff.mpr (.inl wasOpen)))
    · exact sameKnown thread known
  · apply sameKnown thread
    rw [replyThread, messageObjects] at holds
    exact sound.known thread (held_iff.mpr (.inr ⟨message, alive message lives, holds⟩))

/-! ## New threads and messages -/

theorem findThread_known {id : QString} {thread : Nat} (sound : s.Sound) (found : s.findThread id = some thread) :
    s.Known thread :=
  sound.known thread (Option.filter_eq_some_iff.mp found).2

/-- Where the map knows no thread that is held, nothing holds one. -/
theorem findThread_none {id : QString} (sound : s.Sound) (missing : s.findThread id = none) {thread : Nat}
    (isHeld : s.held thread) : s.rootId thread ≠ some id := by
  intro isRoot
  obtain ⟨rootId, isRootToo, knows⟩ := sound.known thread isHeld
  obtain rfl := Option.some.inj (isRoot.symm.trans isRootToo)
  have found : s.findThread id = some thread := Option.filter_eq_some_iff.mpr ⟨knows, isHeld⟩
  rw [missing] at found
  cases found

theorem rootId_inside {thread : Nat} {id : QString} (isRoot : s.rootId thread = some id) :
    thread < s.threadObjects.length := by
  obtain ⟨object, there, -⟩ := Option.map_eq_some_iff.mp isRoot
  exact (List.getElem?_eq_some_iff.mp there).1

theorem replies_inside {thread reply : Nat} (member : reply ∈ s.replies thread) : thread < s.threadObjects.length := by
  by_contra outside
  unfold replies at member
  rw [List.getElem?_eq_none (Nat.le_of_not_lt outside)] at member
  cases member

theorem Sound.replied_once (sound : s.Sound) {message thread : Nat} (holds : s.replyThread message = some thread) :
    message ∈ s.replies thread := by
  apply List.count_pos_iff.mp
  rw [sound.once message thread holds]
  exact Nat.one_pos

theorem makeThread_added (s : TwitchChannel) (object : Message) :
    (s.makeThread object).1.addReplyThread (s.makeThread object).2 = { s with
      threadObjects := s.threadObjects ++ [⟨object.id, []⟩]
      threads := Function.update s.threads object.id (some s.threadObjects.length) } := by
  have isRoot : (s.makeThread object).1.rootId (s.makeThread object).2 = some object.id := by
    simp [makeThread, rootId]
  unfold addReplyThread
  rw [isRoot]
  rfl

/-- A thread is made of a root for which nothing holds one. -/
theorem makeThread_sound (sound : s.Sound) (object : Message)
    (unheld : ∀ thread, s.held thread → s.rootId thread ≠ some object.id) :
    ((s.makeThread object).1.addReplyThread (s.makeThread object).2).Sound ∧
      ((s.makeThread object).1.addReplyThread (s.makeThread object).2).Known (s.makeThread object).2 := by
  rw [makeThread_added]
  have inside : ∀ thread, s.held thread → thread < s.threadObjects.length := by
    intro thread isHeld
    obtain ⟨id, isRoot, -⟩ := sound.known thread isHeld
    exact rootId_inside isRoot
  constructor
  · constructor
    case known =>
      intro thread isHeld
      obtain ⟨id, isRoot, knows⟩ := sound.known thread isHeld
      refine ⟨id, ?_, ?_⟩
      · show (s.threadObjects ++ _)[thread]?.map _ = _
        rw [List.getElem?_append_left (inside thread isHeld)]
        exact isRoot
      · show Function.update s.threads object.id _ id = _
        rw [Function.update_of_ne]
        · exact knows
        · rintro rfl
          exact unheld thread isHeld isRoot
    case once =>
      intro message thread holds
      have there := replies_inside (sound.replied_once holds)
      show (((s.threadObjects ++ _)[thread]?.map _).getD []).count message = 1
      rw [List.getElem?_append_left there]
      exact sound.once message thread holds
    case built => exact sound.built
    case replied =>
      intro thread reply member
      apply sound.replied thread reply
      have other : reply ∈ (((s.threadObjects ++ [⟨object.id, []⟩])[thread]?.map MessageThread.replies).getD []) := member
      by_cases old : thread < s.threadObjects.length
      · rw [List.getElem?_append_left old] at other
        exact other
      -- the new thread has no replies
      · exfalso
        rw [List.getElem?_append_right (Nat.le_of_not_lt old)] at other
        cases position : thread - s.threadObjects.length with
        | zero =>
          rw [position] at other
          cases other
        | succ =>
          rw [position] at other
          cases other
  · refine ⟨object.id, ?_, Function.update_self _ _ _⟩
    show (s.threadObjects ++ _)[s.threadObjects.length]?.map _ = _
    rw [List.getElem?_concat_length]
    rfl

theorem getOrCreateThread_sound (sound : s.Sound) (object : Message) :
    (s.getOrCreateThread object).1.Sound ∧ (s.getOrCreateThread object).1.Known (s.getOrCreateThread object).2 := by
  unfold getOrCreateThread
  cases found : s.findThread object.id with
  | some thread => exact ⟨sound, findThread_known sound found⟩
  | none => exact makeThread_sound sound object fun thread isHeld => findThread_none sound found isHeld

theorem populateReply_sound (sound : s.Sound) {replyID : QString} {root : Option Message}
    (fits : ∀ object ∈ root, object.id = replyID) :
    (s.populateReply replyID root).1.Sound ∧
      ∀ thread, (s.populateReply replyID root).2 = some thread → (s.populateReply replyID root).1.Known thread := by
  unfold populateReply
  cases found : s.findThread replyID with
  | some thread =>
    refine ⟨sound, ?_⟩
    rintro _ ⟨⟩
    exact findThread_known sound found
  | none =>
    cases root with
    | none => exact ⟨sound, nofun⟩
    | some object =>
      obtain ⟨made, known⟩ := makeThread_sound sound object (by
        rw [fits object rfl]
        exact fun thread isHeld => findThread_none sound found isHeld)
      refine ⟨made, ?_⟩
      rintro _ ⟨⟩
      exact known

section
variable (id : QString) (thread : Option Nat) (intoChannel : Bool)

theorem makeIrcMessage_alive (s : TwitchChannel) (message : Nat) :
    (s.makeIrcMessage id thread intoChannel).alive message = true ↔
      s.alive message = true ∨ message = s.messageObjects.length := by
  rw [alive_iff, alive_iff]
  cases intoChannel with
  | true =>
    show message ∈ s.messages ++ [_] ∨ message ∈ s.elsewhere ↔ _
    rw [List.mem_append, List.mem_singleton]
    exact or_right_comm
  | false =>
    show message ∈ s.messages ∨ message ∈ s.elsewhere ++ [_] ↔ _
    rw [List.mem_append, List.mem_singleton, or_assoc]

theorem makeIrcMessage_replyThread (s : TwitchChannel) {message : Nat} (before : message < s.messageObjects.length) :
    (s.makeIrcMessage id thread intoChannel).replyThread message = s.replyThread message := by
  show (s.messageObjects ++ [_])[message]?.bind _ = _
  rw [List.getElem?_append_left before]
  rfl

theorem makeIrcMessage_newThread (s : TwitchChannel) :
    (s.makeIrcMessage id thread intoChannel).replyThread s.messageObjects.length = thread := by
  show (s.messageObjects ++ [_])[s.messageObjects.length]?.bind _ = _
  rw [List.getElem?_concat_length]
  rfl

theorem makeIrcMessage_object (s : TwitchChannel) (other : Nat) :
    (s.makeIrcMessage id thread intoChannel).threadObjects[other]? = s.threadObjects[other]?.map fun t =>
      if thread = some other then t.addToThread s.messageObjects.length else t := by
  cases thread with
  | none =>
    show s.threadObjects[other]? = _
    simp
  | some thread =>
    show (s.threadObjects.modify thread _)[other]? = _
    rw [List.getElem?_modify]
    by_cases same : thread = other
    · simp [same]
    · simp [same]

theorem makeIrcMessage_length (s : TwitchChannel) :
    (s.makeIrcMessage id thread intoChannel).threadObjects.length = s.threadObjects.length := by
  cases thread with
  | none => rfl
  | some thread => exact List.length_modify _ _ _

theorem makeIrcMessage_rootId (s : TwitchChannel) (other : Nat) :
    (s.makeIrcMessage id thread intoChannel).rootId other = s.rootId other := by
  unfold rootId
  rw [makeIrcMessage_object, Option.map_map]
  congr 1
  funext t
  show (if _ then _ else _ : MessageThread).rootMessageId = _
  split <;> rfl

/-- Only the new message is added, and only to its own thread. -/
theorem makeIrcMessage_count (s : TwitchChannel) {other : Nat} (inside : other < s.threadObjects.length) (message : Nat) :
    ((s.makeIrcMessage id thread intoChannel).replies other).count message = (s.replies other).count message +
      if thread = some other ∧ message = s.messageObjects.length then 1 else 0 := by
  unfold replies
  rw [makeIrcMessage_object, List.getElem?_eq_getElem inside]
  by_cases own : thread = some other
  · by_cases newest : message = s.messageObjects.length
    · simp [own, newest, MessageThread.addToThread]
    · simp [own, newest, MessageThread.addToThread, Ne.symm newest]
  · simp [own]

end

/-- A message is built for a thread that the channel knows. -/
theorem makeIrcMessage_sound (sound : s.Sound) (id : QString) {thread : Option Nat} (intoChannel : Bool)
    (known : ∀ own, thread = some own → s.Known own) : (s.makeIrcMessage id thread intoChannel).Sound := by
  have sameKnown : ∀ other, s.Known other → (s.makeIrcMessage id thread intoChannel).Known other := by
    intro other isKnown
    rwa [Known, makeIrcMessage_rootId]
  have inside : ∀ other, s.Known other → other < s.threadObjects.length := by
    rintro other ⟨rootId, isRoot, -⟩
    exact rootId_inside isRoot
  constructor
  case known =>
    intro other isHeld
    rcases held_iff.mp isHeld with isOpen | ⟨message, lives, holds⟩
    · exact sameKnown other (sound.known other (held_iff.mpr (.inl isOpen)))
    · rcases (makeIrcMessage_alive id thread intoChannel s message).mp lives with lived | rfl
      · rw [makeIrcMessage_replyThread id thread intoChannel s (sound.built message lived)] at holds
        exact sameKnown other (sound.known other (held_iff.mpr (.inr ⟨message, lived, holds⟩)))
      · rw [makeIrcMessage_newThread] at holds
        exact sameKnown other (known other holds)
  case once =>
    intro message own holds
    by_cases before : message < s.messageObjects.length
    · rw [makeIrcMessage_replyThread id thread intoChannel s before] at holds
      have there := replies_inside (sound.replied_once holds)
      rw [makeIrcMessage_count id thread intoChannel s there, sound.once message own holds, if_neg (by omega)]
    -- the message that holds it is the new one, which no list had before
    · have built : message < (s.messageObjects ++ [(⟨id, thread⟩ : Message)]).length := by
        obtain ⟨object, isObject, -⟩ := Option.bind_eq_some_iff.mp holds
        exact (List.getElem?_eq_some_iff.mp isObject).1
      obtain rfl : message = s.messageObjects.length := by
        rw [List.length_append, List.length_singleton] at built
        omega
      rw [makeIrcMessage_newThread] at holds
      have fresh : s.messageObjects.length ∉ s.replies own := by
        intro member
        exact absurd (sound.replied own _ member) (Nat.lt_irrefl _)
      rw [makeIrcMessage_count id thread intoChannel s (inside own (known own holds)),
        List.count_eq_zero_of_not_mem fresh, if_pos ⟨holds, rfl⟩]
  case built =>
    intro message lives
    show message < (s.messageObjects ++ [_]).length
    rw [List.length_append]
    rcases (makeIrcMessage_alive id thread intoChannel s message).mp lives with lived | rfl
    · have built := sound.built message lived
      exact Nat.lt_add_right _ built
    · exact Nat.lt_succ_self _
  case replied =>
    intro other reply member
    show reply < (s.messageObjects ++ [_]).length
    rw [List.length_append]
    by_cases newest : reply = s.messageObjects.length
    · rw [newest]
      exact Nat.lt_succ_self _
    · apply Nat.lt_add_right
      apply sound.replied other
      have there : other < s.threadObjects.length := by
        rw [← makeIrcMessage_length id thread intoChannel s]
        exact replies_inside member
      -- an older reply was counted before the message was added
      have counted := List.count_pos_iff.mpr member
      rw [makeIrcMessage_count id thread intoChannel s there, if_neg (by simp [newest])] at counted
      exact List.count_pos_iff.mp counted

/-! ## Steps -/

/-- Where the channel lets a message go without more ado, the map stays. -/
theorem Sound.removed (sound : s.Sound) (message : Nat) :
    ({ s with messages := s.messages.erase message } : TwitchChannel).Sound := by
  refine sound.fewer rfl rfl rfl ?_ fun thread isOpen => .inl isOpen
  intro other lives
  exact alive_iff.mpr ((alive_iff.mp lives).imp_left List.mem_of_mem_erase)

theorem liveCountExcluding_erased (s : TwitchChannel) (thread message : Nat) :
    ({ s with messages := s.messages.erase message } : TwitchChannel).liveCountExcluding thread message =
      s.liveCountExcluding thread message := by
  unfold liveCountExcluding
  congr 1
  apply List.filter_congr
  intro reply _
  by_cases same : reply = message
  · simp [same]
  · have still : ({ s with messages := s.messages.erase message } : TwitchChannel).alive reply = s.alive reply := by
      rw [Bool.eq_iff_iff, alive_iff, alive_iff, List.mem_erase_of_ne same]
    rw [still]

/-- The last reply of a thread takes the thread out of the map. -/
theorem evict_last {message thread : Nat} {id : QString} (holds : s.replyThread message = some thread)
    (last : s.liveCountExcluding thread message = 0) (isRoot : s.rootId thread = some id) :
    s.evict message = { s with
      messages := s.messages.erase message
      threads := Function.update s.threads id none } := by
  let behind : TwitchChannel := { s with messages := s.messages.erase message }
  have holdsBehind : behind.replyThread message = some thread := holds
  have isRootBehind : behind.rootId thread = some id := isRoot
  have lastBehind : behind.liveCountExcluding thread message = 0 := (liveCountExcluding_erased s thread message).trans last
  show behind.messageRemovedFromStart message = _
  unfold messageRemovedFromStart
  rw [holdsBehind]
  dsimp only
  rw [if_pos lastBehind, isRootBehind]

theorem evict_other {message : Nat}
    (stays : ∀ thread, s.replyThread message = some thread → s.liveCountExcluding thread message ≠ 0) :
    s.evict message = { s with messages := s.messages.erase message } := by
  let behind : TwitchChannel := { s with messages := s.messages.erase message }
  show behind.messageRemovedFromStart message = behind
  unfold messageRemovedFromStart
  cases holds : behind.replyThread message with
  | none => rfl
  | some thread =>
    have more : behind.liveCountExcluding thread message ≠ 0 := by
      rw [liveCountExcluding_erased s thread message]
      exact stays thread holds
    dsimp only
    rw [if_neg more]

/-- A thread that is held behind the eviction is known as before: only the thread of the message is
forgotten, and nothing may hold that one. -/
theorem evict_sound (sound : s.Sound) {message : Nat} (member : message ∈ s.messages)
    (forgotten : s.Forgotten (.evict message)) : (s.evict message).Sound := by
  by_cases last : ∃ thread, s.replyThread message = some thread ∧ s.liveCountExcluding thread message = 0
  · obtain ⟨thread, holds, last⟩ := last
    -- the message was the last reply, so its thread leaves the map
    have gone := forgotten thread holds last
    obtain ⟨id, isRoot, knows⟩ := sound.known thread (held_iff.mpr (.inr ⟨message, alive_iff.mpr (.inl member), holds⟩))
    have removed := sound.removed message
    rw [evict_last holds last isRoot]
    refine removed.kept rfl rfl (fun m lives => lives) ?_
    intro other isHeld
    obtain ⟨otherId, isRootOther, knowsOther⟩ := removed.known other isHeld
    refine ⟨otherId, isRootOther, ?_⟩
    show Function.update s.threads id none otherId = some other
    rw [Function.update_of_ne]
    · exact knowsOther
    · rintro rfl
      -- the map knew both by the same id
      obtain rfl : thread = other := Option.some.inj (knows.symm.trans knowsOther)
      exact gone isHeld
  · rw [evict_other fun thread holds none => last ⟨thread, holds, none⟩]
    exact sound.removed message

theorem cleanUpReplyThreads_sound (sound : s.Sound) (forgotten : s.Forgotten .cleanUpReplyThreads) :
    s.cleanUpReplyThreads.Sound := by
  refine @Sound.kept s s.cleanUpReplyThreads sound rfl rfl (fun message lives => lives) ?_
  intro thread isHeld
  obtain ⟨id, isRoot, knows⟩ := sound.known thread isHeld
  refine ⟨id, isRoot, ?_⟩
  have found : s.findThread id = some thread := Option.filter_eq_some_iff.mpr ⟨knows, isHeld⟩
  show (s.findThread id).filter _ = _
  rw [found, Option.filter_eq_some_iff]
  refine ⟨rfl, ?_⟩
  rw [bne_iff_ne]
  rcases held_iff.mp isHeld with isOpen | ⟨message, lives, holds⟩
  · exact forgotten thread isOpen
  -- the message that holds the thread is one of its live replies
  · have counted : 0 < s.liveCount thread :=
      List.length_pos_of_mem (List.mem_filter.mpr ⟨sound.replied_once holds, lives⟩)
    omega

theorem step_sound {event : Event} (sound : s.Sound) (forgotten : s.Forgotten event) (taken : s.step event = some next) :
    next.Sound := by
  cases event with
  | incoming id replyID root ignored intoChannel =>
    cases replyID with
    | none =>
      obtain rfl := Option.some.inj taken
      cases ignored with
      | true => exact sound
      | false => exact makeIrcMessage_sound sound id intoChannel nofun
    | some replyID =>
      simp only [step, Option.ite_none_right_eq_some] at taken
      obtain ⟨found, taken⟩ := taken
      obtain rfl := Option.some.inj taken
      -- the sink looked the root up by the id of the reply's tag
      have fits : ∀ object ∈ root.bind fun root => s.messageObjects[root]?, object.id = replyID := by
        intro object isObject
        obtain ⟨place, rfl, there⟩ := Option.bind_eq_some_iff.mp isObject
        simp only [Option.all_some, there, Option.any_some, Bool.and_eq_true, beq_iff_eq] at found
        exact found.2
      obtain ⟨populated, known⟩ := populateReply_sound sound fits
      cases ignored with
      | true => exact populated
      | false => exact makeIrcMessage_sound populated id intoChannel known
  | getOrCreateThread message kept =>
    simp only [step, Option.ite_none_right_eq_some] at taken
    obtain ⟨-, taken⟩ := taken
    obtain ⟨object, -, rfl⟩ := Option.map_eq_some_iff.mp taken
    obtain ⟨created, known⟩ := getOrCreateThread_sound sound object
    cases kept with
    | false => exact created
    | true =>
      refine created.fewer rfl rfl rfl (fun message lives => lives) ?_
      intro thread isOpen
      rcases List.mem_append.mp isOpen with wasOpen | same
      · exact .inl wasOpen
      · obtain rfl := List.mem_singleton.mp same
        exact .inr known
  | showReplyThreadPopup message =>
    simp only [step, Option.ite_none_right_eq_some] at taken
    obtain ⟨lives, taken⟩ := taken
    obtain ⟨thread, holds, rfl⟩ := Option.map_eq_some_iff.mp taken
    refine sound.fewer rfl rfl rfl (fun message lives => lives) ?_
    intro other isOpen
    rcases List.mem_append.mp isOpen with wasOpen | same
    · exact .inl wasOpen
    · obtain rfl := List.mem_singleton.mp same
      exact .inr (sound.known other (held_iff.mpr (.inr ⟨message, lives, holds⟩)))
  | closePopup thread =>
    obtain rfl := Option.some.inj taken
    exact sound.fewer rfl rfl rfl (fun message lives => lives) fun other isOpen => .inl (List.mem_of_mem_erase isOpen)
  | hold message =>
    simp only [step, Option.ite_none_right_eq_some] at taken
    obtain ⟨lives, taken⟩ := taken
    obtain rfl := Option.some.inj taken
    refine sound.fewer rfl rfl rfl ?_ fun thread isOpen => .inl isOpen
    intro other otherLives
    rcases alive_iff.mp otherLives with shown | elsewhere
    · exact alive_iff.mpr (.inl shown)
    · rcases List.mem_append.mp elsewhere with before | same
      · exact alive_iff.mpr (.inr before)
      · exact List.mem_singleton.mp same ▸ lives
  | letGo message =>
    obtain rfl := Option.some.inj taken
    refine sound.fewer rfl rfl rfl ?_ fun thread isOpen => .inl isOpen
    intro other lives
    exact alive_iff.mpr ((alive_iff.mp lives).imp_right List.mem_of_mem_erase)
  | addToChannel message =>
    simp only [step, Option.ite_none_right_eq_some] at taken
    obtain ⟨lives, taken⟩ := taken
    obtain rfl := Option.some.inj taken
    refine sound.fewer rfl rfl rfl ?_ fun thread isOpen => .inl isOpen
    intro other otherLives
    rcases alive_iff.mp otherLives with shown | elsewhere
    · rcases List.mem_append.mp shown with before | same
      · exact alive_iff.mpr (.inl before)
      · exact List.mem_singleton.mp same ▸ lives
    · exact alive_iff.mpr (.inr elsewhere)
  | removeFromChannel message =>
    obtain rfl := Option.some.inj taken
    exact sound.removed message
  | evict message =>
    simp only [step, Option.ite_none_right_eq_some] at taken
    obtain ⟨member, taken⟩ := taken
    obtain rfl := Option.some.inj taken
    exact evict_sound sound (List.contains_iff_mem.mp member) forgotten
  | cleanUpReplyThreads =>
    obtain rfl := Option.some.inj taken
    exact cleanUpReplyThreads_sound sound forgotten
  | replyCommand message =>
    simp only [step, Option.ite_none_right_eq_some] at taken
    obtain ⟨-, taken⟩ := taken
    obtain ⟨object, isObject, rfl⟩ := Option.map_eq_some_iff.mp taken
    refine (makeThread_sound sound object ?_).1
    intro thread isHeld
    obtain ⟨id, isRoot, -⟩ := sound.known thread isHeld
    have other := forgotten thread (rootId_inside isRoot) isHeld
    rwa [isObject] at other

/-- What the map lets go while something holds it is not known any more. -/
theorem step_breaks {event : Event} (sound : s.Sound) (remembered : ¬ s.Forgotten event)
    (taken : s.step event = some next) : ¬ next.OneObject := by
  intro one
  cases event with
  | evict message =>
    simp only [step, Option.ite_none_right_eq_some] at taken
    obtain ⟨member, taken⟩ := taken
    obtain rfl := Option.some.inj taken
    apply remembered
    intro thread holds last isHeld
    have lives : s.alive message := alive_iff.mpr (.inl (List.contains_iff_mem.mp member))
    obtain ⟨id, isRoot, -⟩ := sound.known thread (held_iff.mpr (.inr ⟨message, lives, holds⟩))
    rw [evict_last holds last isRoot] at one
    obtain ⟨rootId, isRootToo, knows⟩ := one.known thread isHeld
    obtain rfl : id = rootId := Option.some.inj (isRoot.symm.trans isRootToo)
    have erased : Function.update s.threads id none id = some thread := knows
    rw [Function.update_self] at erased
    cases erased
  | cleanUpReplyThreads =>
    obtain rfl := Option.some.inj taken
    apply remembered
    intro thread isOpen empty
    obtain ⟨id, isRoot, knows⟩ := one.known thread (held_iff.mpr (.inl isOpen))
    have kept : (s.findThread id).filter (fun thread => s.liveCount thread != 0) = some thread := knows
    obtain ⟨-, notEmpty⟩ := Option.filter_eq_some_iff.mp kept
    exact (bne_iff_ne.mp notEmpty) empty
  | replyCommand message =>
    simp only [step, Option.ite_none_right_eq_some] at taken
    obtain ⟨-, taken⟩ := taken
    obtain ⟨object, isObject, rfl⟩ := Option.map_eq_some_iff.mp taken
    apply remembered
    intro thread inside isHeld isRoot
    rw [isObject, Option.map_some] at isRoot
    have isOne : (s.makeThread object).1.addReplyThread (s.makeThread object).2 |>.OneObject := one
    rw [makeThread_added] at isOne
    obtain ⟨rootId, isRootToo, knows⟩ := isOne.known thread isHeld
    have kept : (s.threadObjects ++ [⟨object.id, []⟩])[thread]?.map MessageThread.rootMessageId = some rootId := isRootToo
    rw [List.getElem?_append_left inside] at kept
    obtain rfl : object.id = rootId := Option.some.inj (isRoot.symm.trans kept)
    -- the new thread has taken the place of the one that is held
    have replaced : Function.update s.threads object.id (some s.threadObjects.length) object.id = some thread := knows
    rw [Function.update_self] at replaced
    have newest := Option.some.inj replaced
    omega
  | incoming | getOrCreateThread | showReplyThreadPopup | closePopup | hold | letGo | addToChannel | removeFromChannel =>
    exact remembered trivial

/-- From an empty channel on, there is one object for each thread if and only if the map lets no
thread go that is held. -/
theorem one_object_iff {events : List Event} {final : TwitchChannel} (ran : run step new events = some final) :
    Along step Forgotten new events ↔
      ∀ before, before <+: events → ∀ s, run step new before = some s → s.OneObject :=
  along_iff (fun _ _ _ sound forgotten taken => step_sound sound forgotten taken)
    (fun _ _ _ sound remembered taken => step_breaks sound remembered taken) (fun _ sound => sound.oneObject) ran new_sound

/-- A message and two replies leave the channel one after the other, and a window on their thread is
closed before the last reply goes. -/
theorem one_object_evicted : ∃ events final,
    events = [.incoming (qs "a") none none false true, .incoming (qs "b") (some (qs "a")) (some 0) false true,
      .getOrCreateThread 0 false, .showReplyThreadPopup 1, .incoming (qs "c") (some (qs "a")) none false true, .evict 0,
      .evict 1, .cleanUpReplyThreads, .closePopup 0, .evict 2] ∧
    run step new events = some final ∧
    ∀ before, before <+: events → ∀ s, run step new before = some s → s.OneObject :=
  ⟨_, _, rfl, rfl, (one_object_iff rfl).mp (by decide)⟩

/-- The only reply of a thread is evicted while a window holds it and the thread; the next reply of the
same thread gets another object. -/
theorem thread_twice : ∃ s,
    run step new [.incoming (qs "a") none none false true, .incoming (qs "b") (some (qs "a")) (some 0) false true,
      .showReplyThreadPopup 1, .hold 1, .evict 0, .evict 1, .incoming (qs "a") none none false false,
      .incoming (qs "c") (some (qs "a")) (some 2) false false] = some s ∧ ¬ s.OneObject :=
  ⟨_, rfl, fun one => absurd (one.same 0 1 (qs "a") (by decide) (by decide) (by decide) (by decide)) (by decide)⟩

end TwitchChannel

end Forserino.Threads
