import Forserino.Messages.LimitedQueue
import Forserino.Qt.Text

/-! The messages of a channel, and how missing ones are filled in.

A message is a pointer, compared as one; what a channel reads of it is given by a function.
The loop that fills in works on any store, so that the same loop also says what a channel
without a limit would hold.
-/

set_option autoImplicit false

namespace Forserino.Messages

open Forserino.Qt

universe u

structure MessageInfo where
  system : Bool
  id : QString
  serverReceivedTime : Int
  deriving DecidableEq, Repr

structure Channel (T : Type u) where
  messages : LimitedQueue T
  lastDate : Int

section
variable {T : Type u} (info : T → MessageInfo)

/-- The message of the channel before which the message belongs. -/
def comesLater (msg snapshotMsg : T) : Bool :=
  !(info snapshotMsg).system &&
    decide ((info msg).serverReceivedTime < (info snapshotMsg).serverReceivedTime)

def existingMessageIds (snapshot : List T) : List QString :=
  (snapshot.filter fun msg => !((info msg).system || (info msg).id.isEmpty)).map fun msg => (info msg).id

/-- The loop over the messages that are filled in, with the last message of the channel and
whether anything was inserted. -/
def fillLoop {S : Type u} (insertBefore insertAfter : T → T → S → S) (snapshot : List T) :
    List T → T → S → Bool → S × Bool
  | [], _, store, anyInserted => (store, anyInserted)
  | msg :: rest, lastMsg, store, anyInserted =>
      if (existingMessageIds info snapshot).contains (info msg).id then
        fillLoop insertBefore insertAfter snapshot rest lastMsg store anyInserted
      else
        match snapshot.find? (comesLater info msg) with
        | some snapshotMsg =>
            fillLoop insertBefore insertAfter snapshot rest lastMsg (insertBefore snapshotMsg msg store) true
        | none => fillLoop insertBefore insertAfter snapshot rest msg (insertAfter lastMsg msg store) true

section
variable [DecidableEq T]

def queueBefore (needle item : T) (queue : LimitedQueue T) : LimitedQueue T :=
  (queue.insertBefore (fun a b => a == b) needle item).1

def queueAfter (needle item : T) (queue : LimitedQueue T) : LimitedQueue T :=
  (queue.insertAfter (fun a b => a == b) needle item).1

end

namespace Channel

def getMessageSnapshot (channel : Channel T) : List T := channel.messages.getSnapshot

/-- There is none where the front of an empty queue is read, which only a limit of 0 leads to. -/
def addMessage (channel : Channel T) (message : T) : Option (Channel T) :=
  (channel.messages.pushBackDeleted message).map fun (messages, _, _) => { channel with messages }

/-- The messages that were added are signalled, unless there are none. -/
def addMessagesAtStart (channel : Channel T) (messages : List T) : Option (Channel T × List T) :=
  (channel.messages.pushFront messages).map fun (messages, addedMessages) =>
    ({ channel with messages }, addedMessages)

variable [DecidableEq T]

/-- The flag says whether filledInMessages is invoked. -/
def fillInMissingMessages (channel : Channel T) (messages : List T) : Option (Channel T × Bool) :=
  if messages.isEmpty then some (channel, false)
  else
    match channel.getMessageSnapshot.getLast? with
    | none =>
        -- There are no messages yet, so they are inserted at the front in order.
        (channel.messages.pushFront messages).map fun (messages, _) => ({ channel with messages }, true)
    | some lastMsg =>
        let filled := fillLoop info queueBefore queueAfter channel.getMessageSnapshot messages lastMsg
          channel.messages false
        some ({ channel with messages := filled.1 }, filled.2)

/-- The flag says whether messageReplaced is invoked, with the hint as its index. -/
def replaceMessage (channel : Channel T) (hint : Nat) (message replacement : T) : Channel T × Bool :=
  let replaced := channel.messages.replaceItemHint hint message replacement
  ({ channel with messages := replaced.1 }, decide (0 ≤ replaced.2))

end Channel

/-! ## A channel without a limit -/

variable [DecidableEq T]

def putBefore (needle item : T) (items : List T) : List T :=
  match items.findIdx? (fun other => other == needle) with
  | some i => items.take i ++ item :: items.drop i
  | none => items

def putAfter (needle item : T) (items : List T) : List T :=
  match items.findIdx? (fun other => other == needle) with
  | some i => items.take (i + 1) ++ item :: items.drop (i + 1)
  | none => items

/-- What a channel without a limit would hold when the messages are filled in. -/
def filledIn (snapshot messages : List T) : List T :=
  match snapshot.getLast? with
  | none => messages
  | some lastMsg => (fillLoop info putBefore putAfter snapshot messages lastMsg snapshot false).1

end

end Forserino.Messages
