import Forserino.Messages.Channel

/-! The messages that a channel view shows of its underlying channel.

The view keeps the messages that pass its filters in a proxy channel of its own and one
layout for each of them. The handlers of the underlying channel work on the proxy, and the
handlers of the proxy on the layouts.
-/

set_option autoImplicit false

namespace Forserino.Messages

open Forserino.Qt

universe u

/-- A message of the proxy channel: one of the underlying channel, or a day-change message
that the view has added itself. -/
inductive Item (M : Type u) where
  | message (m : M)
  | dayChange (date : Int)
  deriving DecidableEq, Repr

def Item.message? {M : Type u} : Item M → Option M
  | .message m => some m
  | .dayChange _ => none

def Item.info {M : Type u} (info : M → MessageInfo) : Item M → MessageInfo
  | .message m => info m
  | .dayChange _ => ⟨true, [], 0⟩

@[simp] theorem Item.info_message {M : Type u} (info : M → MessageInfo) (m : M) :
    Item.info info (.message m) = info m := rfl

@[simp] theorem Item.info_dayChange {M : Type u} (info : M → MessageInfo) (date : Int) :
    Item.info info (.dayChange date) = ⟨true, [], 0⟩ := rfl

structure MessageLayout (M : Type u) where
  message : Item M
  alternateBackground : Bool
  ignoreHighlights : Bool
  deriving DecidableEq, Repr

structure ChannelView (M : Type u) where
  /-- The proxy channel, channel_ of the source. -/
  channel : Channel (Item M)
  messages : LimitedQueue (MessageLayout M)
  lastMessageHasAlternateBackground : Bool
  lastMessageHasAlternateBackgroundReverse : Bool

/-- The filters of a view, and the setting that lets the messages of the user pass. -/
structure Filters (M : Type u) where
  channelFilters : Option (M → Bool)
  excludeUserMessagesFromFilter : Bool
  isFromCurrentUser : M → Bool

def Filters.shouldIncludeMessage {M : Type u} (filters : Filters M) (m : M) : Bool :=
  match filters.channelFilters with
  | some filter => filters.excludeUserMessagesFromFilter && filters.isFromCurrentUser m || filter m
  | none => true

namespace ChannelView

variable {M : Type u}

/-! ## What the proxy channel signals -/

section
variable (ignoresHighlights : Bool)

def messageAppended (view : ChannelView M) (message : Item M) : ChannelView M :=
  { view with
    messages := (view.messages.pushBack
      ⟨message, view.lastMessageHasAlternateBackground, ignoresHighlights⟩).1
    lastMessageHasAlternateBackground := !view.lastMessageHasAlternateBackground }

/-- The layouts of the messages, whose background alternates. -/
def startLayouts (alternateBackgroundReverse : Bool) : List (Item M) → List (MessageLayout M)
  | [] => []
  | message :: rest =>
      ⟨message, !alternateBackgroundReverse, false⟩ :: startLayouts (!alternateBackgroundReverse) rest

def messageAddedAtStart (view : ChannelView M) (messages : List (Item M)) : Option (ChannelView M) :=
  (view.messages.pushFront
    (startLayouts view.lastMessageHasAlternateBackgroundReverse messages)).map fun (layouts, _) =>
      { view with
        messages := layouts
        lastMessageHasAlternateBackgroundReverse :=
          if messages.length % 2 = 0 then view.lastMessageHasAlternateBackgroundReverse
          else !view.lastMessageHasAlternateBackgroundReverse }

variable [DecidableEq M]

def messageReplaced (view : ChannelView M) (hint : Nat) (prev replacement : Item M) : ChannelView M :=
  match view.messages.findHint hint fun layout => layout.message == prev with
  | none => view
  | some (index, oldItem) =>
      { view with
        messages := (view.messages.replaceItemAt index
          ⟨replacement, oldItem.alternateBackground, false⟩).1 }

/-- The layouts are made anew from the proxy channel. -/
def messagesUpdated (view : ChannelView M) : ChannelView M :=
  view.channel.getMessageSnapshot.foldl (messageAppended ignoresHighlights)
    { view with
      messages := view.messages.clear
      lastMessageHasAlternateBackground := false
      lastMessageHasAlternateBackgroundReverse := true }

/-- Only the layouts are cleared. -/
def clearMessages (view : ChannelView M) : ChannelView M :=
  { view with
    messages := view.messages.clear
    lastMessageHasAlternateBackground := false
    lastMessageHasAlternateBackgroundReverse := true }

/-! ## What the underlying channel signals -/

/-- The proxy channel adds a message and signals it. -/
def addMessage (view : ChannelView M) (message : Item M) : Option (ChannelView M) :=
  (view.channel.addMessage message).map fun channel =>
    ({ view with channel } : ChannelView M).messageAppended ignoresHighlights message

variable (filters : Filters M)

def onMessageAppended (view : ChannelView M) (currentDate : Int) (message : M) : Option (ChannelView M) :=
  if filters.shouldIncludeMessage message then do
    let view ←
      if view.channel.lastDate = currentDate then some view
      else
        ({ view with channel := { view.channel with lastDate := currentDate } } : ChannelView M).addMessage
          ignoresHighlights (.dayChange currentDate)
    view.addMessage ignoresHighlights (.message message)
  else some view

def onMessagesAddedAtStart (view : ChannelView M) (messages : List M) : Option (ChannelView M) :=
  let filtered := messages.filter filters.shouldIncludeMessage
  if filtered.isEmpty then some view
  else do
    let (channel, addedMessages) ← view.channel.addMessagesAtStart (filtered.map Item.message)
    let view : ChannelView M := { view with channel }
    if addedMessages.isEmpty then some view else view.messageAddedAtStart addedMessages

def onMessageReplaced (view : ChannelView M) (index : Nat) (prev replacement : M) : ChannelView M :=
  if filters.shouldIncludeMessage replacement then
    let (channel, replaced) := view.channel.replaceMessage index (.message prev) (.message replacement)
    let view : ChannelView M := { view with channel }
    if replaced then view.messageReplaced index (.message prev) (.message replacement) else view
  else view

def onFilledInMessages (info : M → MessageInfo) (view : ChannelView M) (messages : List M) :
    Option (ChannelView M) :=
  let filtered := messages.filter filters.shouldIncludeMessage
  (view.channel.fillInMissingMessages (Item.info info) (filtered.map Item.message)).map
    fun (channel, filledIn) =>
      let view : ChannelView M := { view with channel }
      if filledIn then view.messagesUpdated ignoresHighlights else view

/-- A message of the underlying channel is copied. The layout list is filled here, as the signals
of the proxy channel are not connected yet. -/
def copyMessage (view : ChannelView M) (message : M) : Option (ChannelView M) :=
  if filters.shouldIncludeMessage message then view.addMessage ignoresHighlights (.message message)
  else some view

/-- The view of a channel with these messages; the limits are those of the proxy channel and of
the layouts. -/
def setChannel (scrollbackSplitLimit messagesLimit : Nat) (currentDate : Int) (snapshot : List M) :
    Option (ChannelView M) :=
  snapshot.foldlM (copyMessage ignoresHighlights filters)
    ⟨⟨.new scrollbackSplitLimit, currentDate⟩, .new messagesLimit, false, true⟩

end

end ChannelView

/-! ## Signals and what is signalled -/

inductive Signal (M : Type u) where
  | messageAppended (message : M) (currentDate : Int)
  | messagesAddedAtStart (messages : List M)
  | messageReplaced (index : Nat) (prev replacement : M)
  | filledInMessages (messages : List M)
  | messagesCleared
  deriving DecidableEq, Repr

/-- A view, together with the messages that were signalled since the last clear, in the order of
an underlying channel that never lets one go. -/
structure Watched (M : Type u) where
  signalled : List M
  view : ChannelView M

section
variable {M : Type u} [DecidableEq M] (info : M → MessageInfo)

def Signal.behind (signalled : List M) : Signal M → List M
  | .messageAppended message _ => signalled ++ [message]
  | .messagesAddedAtStart messages => messages ++ signalled
  | .messageReplaced _ prev replacement => signalled.replace prev replacement
  | .filledInMessages messages => Messages.filledIn info signalled messages
  | .messagesCleared => []

variable (ignoresHighlights : Bool) (filters : Filters M)

def ChannelView.receive (view : ChannelView M) : Signal M → Option (ChannelView M)
  | .messageAppended message currentDate =>
      view.onMessageAppended ignoresHighlights filters currentDate message
  | .messagesAddedAtStart messages => view.onMessagesAddedAtStart filters messages
  | .messageReplaced index prev replacement => some (view.onMessageReplaced filters index prev replacement)
  | .filledInMessages messages => view.onFilledInMessages ignoresHighlights filters info messages
  | .messagesCleared => some view.clearMessages

def Watched.step (watched : Watched M) (signal : Signal M) : Option (Watched M) :=
  (watched.view.receive info ignoresHighlights filters signal).map fun view =>
    ⟨signal.behind info watched.signalled, view⟩

end

end Forserino.Messages
