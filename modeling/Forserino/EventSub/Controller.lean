import Mathlib.Data.Finset.Basic
import Mathlib.Data.Finset.Dedup
import Mathlib.Logic.Function.Basic
import Forserino.Qt.Text

/-! providers/twitch/eventsub: Controller.cpp, the Connection objects that it gives to
its sessions, and the event loop around them.

Every callback is one step. What a callback posts, arms or sends is outstanding work
of its request until the event loop or Helix gets to it. The controller is not quitting.
-/

set_option autoImplicit false

namespace Forserino.EventSub

open Forserino.Qt

structure SubscriptionRequest where
  subscriptionType : QString
  subscriptionVersion : QString
  conditions : List (QString × QString)
  deriving DecidableEq, Repr

inductive State where
  | unsubscribed | failed | subscribing | retrying | subscribed | unsubscribing
  deriving DecidableEq, Repr

/-- A deadline_timer in wait for its delay in milliseconds, or one that has passed
while its handler is still queued. -/
inductive RetryTimer where
  | armed (delay : Nat)
  | passed
  deriving DecidableEq, Repr

structure Subscription where
  state : State := .unsubscribed
  refCount : Int := 0
  /-- The session that the weak_ptr refers to. -/
  connection : Option Nat := none
  subscriptionID : QString := []
  retryTimer : Option RetryTimer := none
  retryAttempts : Int := 0
  deriving DecidableEq, Repr

/-- The listener of a session. The object moves to another session on a reconnect
URL, so it has an identity of its own. -/
structure Connection where
  object : Nat
  sessionID : QString := []
  subscriptions : Finset SubscriptionRequest := ∅
  deriving DecidableEq

inductive CreateError where
  | badRequest | unauthorized | forbidden | conflict | ratelimited | forwarded
  deriving DecidableEq, Repr

/-- Outstanding work of a request. -/
inductive Work where
  /-- subscribe(request, false) is posted. -/
  | subscribe
  /-- retrySubscription is posted. -/
  | retry (delay : Nat) (maxAttempts : Int)
  /-- The handler of a passed retry timer is queued. -/
  | fired
  /-- createEventSubSubscription is sent, with the session ID of this connection object. -/
  | create (session object : Nat) (sessionID : QString)
  /-- deleteEventSubSubscription is sent. -/
  | delete (subscriptionID : QString)
  deriving DecidableEq, Repr

/-- The asserts of Controller.cpp, in the order of the source. -/
inductive Assertion where
  | contains
  | referencesLeft
  | references
  | unsubscribedUnreferenced
  | newWithoutTimer
  | retryHasTimer
  | timerCleared
  | listener
  | attempts
  | newRetryState
  | retryState
  | timerNotSet
  | subscribedState
  | unsubscribedState
  | unsubscribedTimer
  deriving DecidableEq, Repr

def check (assertion : Assertion) (holds : Bool) : List Assertion :=
  if holds then [] else [assertion]

/-- What a callback leaves behind when it has dealt with the entry of its request. -/
structure Outcome where
  subscription : Subscription
  work : List Work := []
  failed : List Assertion := []

namespace Subscription

/-! ## The sections under subscriptionsMutex -/

def removeRef (s : Subscription) : Outcome :=
  let s := { s with refCount := s.refCount - 1 }
  let failed := check .referencesLeft (0 ≤ s.refCount)
  if s.refCount ≤ 0 then
    let s := { s with retryTimer := none }
    if s.subscriptionID.isEmpty then { subscription := s, failed }
    else
      { subscription := { s with state := .unsubscribing, subscriptionID := [] }
        work := [.delete s.subscriptionID]
        failed }
  else { subscription := s, failed }

def subscribe (s : Subscription) : Outcome :=
  let failed := check .references (0 ≤ s.refCount)
  let fresh (failed : List Assertion) : Outcome :=
    { subscription := { s with state := .subscribing, retryAttempts := 0, refCount := s.refCount + 1 }
      work := [.subscribe]
      failed := failed ++ check .newWithoutTimer s.retryTimer.isNone }
  match s.state with
  | .unsubscribed => fresh (failed ++ check .unsubscribedUnreferenced (s.refCount = 0))
  | .failed => fresh failed
  | .subscribing | .retrying | .subscribed | .unsubscribing =>
      { subscription := { s with refCount := s.refCount + 1 }, failed }

/-- The entry as reconnectConnection resets it. -/
def reset (s : Subscription) : Subscription :=
  { s with connection := none, retryAttempts := 0, state := .subscribing }

/-- The first scope of subscribe(request, isRetry). -/
def startSubscribe (isRetry : Bool) (s : Subscription) : Outcome :=
  let failed := if isRetry then check .retryHasTimer s.retryTimer.isSome else []
  let s := if isRetry then { s with retryTimer := none } else s
  { subscription := s, failed := failed ++ check .timerCleared s.retryTimer.isNone }

def armTimer (delay : Nat) (failed : List Assertion) (s : Subscription) : Outcome :=
  { subscription := { s with state := .retrying, retryTimer := some (.armed delay) }
    failed := failed ++ check .timerNotSet s.retryTimer.isNone }

def retrySubscription (delay : Nat) (maxAttempts : Int) (s : Subscription) : Outcome :=
  let failed := check .attempts (0 ≤ s.retryAttempts)
  if s.refCount = 0 then { subscription := { s with state := .unsubscribed }, failed }
  else if s.retryAttempts = 0 ∨ maxAttempts < s.retryAttempts then
    armTimer delay (failed ++ check .newRetryState (s.state = .subscribing ∨ s.state = .retrying))
      { s with retryAttempts := maxAttempts }
  else
    let failed := failed ++ check .retryState (s.state = .retrying)
    let s := { s with retryAttempts := s.retryAttempts - 1 }
    if s.retryAttempts = 0 then { subscription := { s with state := .failed }, failed }
    else armTimer delay failed s

def markRequestSubscribed (connection : Nat) (subscriptionID : QString) (s : Subscription) : Outcome :=
  { subscription := { s with connection := some connection, subscriptionID, state := .subscribed }
    failed := check .subscribedState (s.state = .subscribing ∨ s.state = .retrying) }

def markRequestFailed (s : Subscription) : Outcome := { subscription := { s with state := .failed } }

def markRequestUnsubscribed (s : Subscription) : Outcome :=
  { subscription := { s with state := .unsubscribed, retryAttempts := 0, connection := none }
    failed := check .unsubscribedState (s.state = .unsubscribing ∨ s.state = .retrying) ++
      check .unsubscribedTimer s.retryTimer.isNone }

end Subscription

/-- An ID that a successful create returned, and the connection object it was for. -/
structure Created where
  request : SubscriptionRequest
  subscriptionID : QString
  object : Nat
  deriving DecidableEq, Repr

/-- The controller with what surrounds it: the sessions with their listeners, the
outstanding work, the live handles, and what has happened so far. -/
structure Controller where
  subscriptions : SubscriptionRequest → Option Subscription := fun _ => none
  connections : List Nat := []
  sessions : List (Option Connection) := []
  objects : Nat := 0
  work : SubscriptionRequest → List Work := fun _ => []
  handles : SubscriptionRequest → Nat := fun _ => 0
  created : List Created := []
  deleted : List QString := []
  failed : List Assertion := []

namespace Controller

/-- this->subscriptions[request] -/
def subscription (c : Controller) (request : SubscriptionRequest) : Subscription :=
  (c.subscriptions request).getD {}

/-- The listener of a session, null once it was moved away. -/
def getListener (c : Controller) (session : Nat) : Option Connection := c.sessions.getD session none

def setListener (c : Controller) (session : Nat) (listener : Option Connection) : Controller :=
  { c with sessions := c.sessions.set session listener }

def deletedID : Work → Option QString
  | .delete subscriptionID => some subscriptionID
  | _ => none

/-- Deal with the entry of a request. -/
def perform (c : Controller) (request : SubscriptionRequest) (section' : Subscription → Outcome) : Controller :=
  let outcome := section' (c.subscription request)
  { c with
    subscriptions := Function.update c.subscriptions request (some outcome.subscription)
    work := Function.update c.work request (c.work request ++ outcome.work)
    deleted := c.deleted ++ outcome.work.filterMap deletedID
    failed := c.failed ++ outcome.failed }

def assert (c : Controller) (failed : List Assertion) : Controller := { c with failed := c.failed ++ failed }

/-- Post or send work of a request. -/
def post (c : Controller) (request : SubscriptionRequest) (work : Work) : Controller :=
  { c with work := Function.update c.work request (c.work request ++ [work]) }

/-- The event loop or Helix has got to the work. -/
def take (c : Controller) (request : SubscriptionRequest) (work : Work) : Controller :=
  { c with work := Function.update c.work request ((c.work request).erase work) }

def addHandles (c : Controller) (request : SubscriptionRequest) (handles : Nat) : Controller :=
  { c with handles := Function.update c.handles request handles }

def addCreated (c : Controller) (created : Created) : Controller := { c with created := c.created ++ [created] }

/-! ## Connections -/

/-- getViableConnection, with the open connections that are not ready so far. -/
def viableAmong (c : Controller) : List Nat → Nat → Option Nat × Nat
  | [], openButNotReady => (none, openButNotReady)
  | session :: rest, openButNotReady =>
      match c.getListener session with
      | none => viableAmong c rest openButNotReady
      | some listener =>
          if listener.sessionID.isEmpty then viableAmong c rest (openButNotReady + 1)
          else (some session, openButNotReady)

def getViableConnection (c : Controller) : Option Nat × Nat := c.viableAmong c.connections 0

/-- createConnection with a listener; where it throws, the listener is lost. -/
def createConnectionWith (c : Controller) (listener : Connection) (throws : Bool) : Controller :=
  if throws then c
  else
    { c with
      sessions := c.sessions ++ [some listener]
      connections := c.connections ++ [c.sessions.length] }

def createConnection (c : Controller) (throws : Bool) : Controller :=
  { c with objects := c.objects + 1 }.createConnectionWith { object := c.objects } throws

def clearConnections (c : Controller) : Controller :=
  { c with connections := c.connections.filter fun session => (c.getListener session).isSome }

/-! ## The callbacks -/

/-- The public subscribe, which returns one more handle. -/
def subscribe (c : Controller) (request : SubscriptionRequest) : Controller :=
  (c.perform request Subscription.subscribe).addHandles request (c.handles request + 1)

/-- The destructor of a handle. -/
def removeRef (c : Controller) (request : SubscriptionRequest) : Controller :=
  ((c.assert (check .contains (c.subscriptions request).isSome)).perform request
    Subscription.removeRef).addHandles request (c.handles request - 1)

/-- The end of subscribe(request, isRetry), behind its first scope. -/
def requestSubscription (c : Controller) (request : SubscriptionRequest) (throws : Bool) : Controller :=
  match c.getViableConnection with
  | (some session, _) =>
      match c.getListener session with
      | some listener => c.post request (.create session listener.object listener.sessionID)
      | none => c.assert [.listener]
  | (none, 0) => (c.createConnection throws).perform request (Subscription.retrySubscription 500 10)
  | (none, _ + 1) => c.perform request (Subscription.retrySubscription 250 10)

/-- subscribe(request, isRetry) -/
def subscribeWith (c : Controller) (request : SubscriptionRequest) (isRetry throws : Bool) : Controller :=
  (c.perform request (Subscription.startSubscribe isRetry)).requestSubscription request throws

def resetRequests (c : Controller) (subs : List SubscriptionRequest) : Controller :=
  { c with
    subscriptions := fun request =>
      if request ∈ subs then (c.subscriptions request).map Subscription.reset else c.subscriptions request }

/-- The loop over the lost subscriptions, each with whether its createConnection throws. -/
def subscribeAll : Controller → List (SubscriptionRequest × Bool) → Controller
  | c, [] => c
  | c, (request, throws) :: rest => subscribeAll (c.subscribeWith request false throws) rest

/-- reconnectConnection, with the order in which it goes through the subscriptions. -/
def reconnectConnection (c : Controller) (connection : Connection) (reconnectURL : Option QString)
    (order : List (SubscriptionRequest × Bool)) (throws : Bool) : Controller :=
  let c := c.clearConnections
  if connection.subscriptions = ∅ then c
  else
    match reconnectURL with
    | some _ => c.createConnectionWith connection throws
    | none => (c.resetRequests (order.map Prod.fst)).subscribeAll order

def markRequestSubscribed (c : Controller) (request : SubscriptionRequest) (session : Nat)
    (subscriptionID : QString) : Controller :=
  match c.getListener session with
  | none => c
  | some listener =>
      (c.setListener session
        (some { listener with subscriptions := insert request listener.subscriptions })).perform request
          (Subscription.markRequestSubscribed session subscriptionID)

/-- The error callback of a create. -/
def createFailed (c : Controller) (request : SubscriptionRequest) : CreateError → Controller
  | .forbidden => c.post request (.retry 2000 2)
  | .forwarded => c.post request (.retry 2000 5)
  | .badRequest | .unauthorized | .conflict | .ratelimited => c.perform request Subscription.markRequestFailed

/-- The request leaves the set of its connection, if that still has a listener. -/
def forget (c : Controller) (request : SubscriptionRequest) (connection : Option Nat) : Controller :=
  match connection with
  | none => c
  | some session =>
      match c.getListener session with
      | none => c
      | some listener =>
          c.setListener session (some { listener with subscriptions := listener.subscriptions.erase request })

def markRequestUnsubscribed (c : Controller) (request : SubscriptionRequest) : Controller :=
  (c.perform request Subscription.markRequestUnsubscribed).forget request (c.subscription request).connection

end Controller

/-! ## The event loop -/

inductive Event where
  | subscribe (request : SubscriptionRequest)
  | removeRef (request : SubscriptionRequest)
  /-- A posted subscribe runs. -/
  | posted (request : SubscriptionRequest) (throws : Bool)
  /-- The delay of a retry timer passes. -/
  | passes (request : SubscriptionRequest)
  /-- The handler of a passed timer runs. -/
  | fired (request : SubscriptionRequest) (throws : Bool)
  /-- A posted retrySubscription runs. -/
  | retry (request : SubscriptionRequest) (delay : Nat) (maxAttempts : Int)
  /-- A create succeeds. -/
  | created (request : SubscriptionRequest) (session object : Nat) (sessionID subscriptionID : QString)
  /-- A create fails. -/
  | refused (request : SubscriptionRequest) (session object : Nat) (sessionID : QString) (error : CreateError)
  /-- A delete is answered, with success or an error. -/
  | deleted (request : SubscriptionRequest) (subscriptionID : QString)
  | welcome (session : Nat) (sessionID : QString)
  /-- A session loses its connection or is told to reconnect. -/
  | closed (session : Nat) (reconnectURL : Option QString) (order : List (SubscriptionRequest × Bool))
      (throws : Bool)
  deriving DecidableEq, Repr

/-- Take outstanding work of a request, if there is such work, and deal with it. -/
def Controller.deliver (c : Controller) (request : SubscriptionRequest) (work : Work)
    (callback : Controller → Controller) : Option Controller :=
  if work ∈ c.work request then some (callback (c.take request work)) else none

/-- An event, if it can happen: a handle is destroyed once, and work is dealt with
once. The subscriptions of a lost connection are a set, in an order of its own. -/
def Controller.step (c : Controller) : Event → Option Controller
  | .subscribe request => some (c.subscribe request)
  | .removeRef request => if 0 < c.handles request then some (c.removeRef request) else none
  | .posted request throws => c.deliver request .subscribe (·.subscribeWith request false throws)
  | .passes request =>
      match (c.subscription request).retryTimer with
      | some (.armed _) =>
          some (c.perform request fun s => { subscription := { s with retryTimer := some .passed }, work := [.fired] })
      | _ => none
  | .fired request throws => c.deliver request .fired (·.subscribeWith request true throws)
  | .retry request delay maxAttempts =>
      c.deliver request (.retry delay maxAttempts) (·.perform request (Subscription.retrySubscription delay maxAttempts))
  | .created request session object sessionID subscriptionID =>
      c.deliver request (.create session object sessionID) fun c =>
        (c.addCreated ⟨request, subscriptionID, object⟩).markRequestSubscribed request session subscriptionID
  | .refused request session object sessionID error =>
      c.deliver request (.create session object sessionID) (·.createFailed request error)
  | .deleted request subscriptionID =>
      c.deliver request (.delete subscriptionID) (·.markRequestUnsubscribed request)
  | .welcome session sessionID =>
      (c.getListener session).map fun listener => c.setListener session (some { listener with sessionID })
  | .closed session reconnectURL order throws =>
      match c.getListener session with
      | none => none
      | some listener =>
          if (order.map Prod.fst).Nodup ∧ (order.map Prod.fst).toFinset = listener.subscriptions then
            some ((c.setListener session none).reconnectConnection listener reconnectURL order throws)
          else none

/-! ### A run -/

def moderation : SubscriptionRequest := ⟨qs "channel.moderate", qs "2", []⟩

/-- The first connection is created and gets its welcome, and the retry sends the create. -/
def untilCreate : List Event :=
  [.subscribe moderation, .posted moderation false, .passes moderation, .welcome 0 (qs "session"),
    .fired moderation false]

/-- The answer to that create. -/
def createAnswer : Event := .created moderation 0 0 (qs "session") (qs "id")

end Forserino.EventSub
