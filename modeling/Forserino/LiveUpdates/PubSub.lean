import Mathlib.Algebra.Group.Nat.Defs
import Mathlib.Data.Finset.Card
import Forserino.Foundation.Runs

/-! providers/liveupdates: BasicPubSubClient.hpp, BasicPubSubManager.hpp and the
ExponentialBackoff of util.

The manager fills its clients one after the other. What finds no place waits in
pendingSubscriptions_ for the next connection. The manager is not stopping.
-/

set_option autoImplicit false

namespace Forserino.LiveUpdates

/-- ExponentialBackoff, with times in milliseconds. -/
structure ExponentialBackoff where
  maxSteps : Nat
  start : Nat
  step : Nat := 1
  deriving DecidableEq, Repr

namespace ExponentialBackoff

def next (b : ExponentialBackoff) : Nat × ExponentialBackoff :=
  (b.start * 2 ^ (b.step - 1),
    { b with step := if b.maxSteps ≤ b.step + 1 then b.maxSteps else b.step + 1 })

def reset (b : ExponentialBackoff) : ExponentialBackoff := { b with step := 1 }

end ExponentialBackoff

variable {Subscription : Type} [DecidableEq Subscription]

structure Client (Subscription : Type) where
  maxSubscriptions : Nat := 100
  subscriptions : Finset Subscription := ∅
  deriving DecidableEq

namespace Client

/-- The client with the subscription, unless it is full. -/
def subscribe (client : Client Subscription) (subscription : Subscription) : Option (Client Subscription) :=
  if client.maxSubscriptions ≤ client.subscriptions.card then none
  else some { client with subscriptions := insert subscription client.subscriptions }

/-- The client without the subscription, if it had it. -/
def unsubscribe (client : Client Subscription) (subscription : Subscription) : Option (Client Subscription) :=
  if subscription ∈ client.subscriptions then
    some { client with subscriptions := client.subscriptions.erase subscription }
  else none

end Client

/-- The manager, with the connection attempts in flight and the delays of the
reconnect timers. The back of pendingSubscriptions is the end of the list. -/
structure Manager (Subscription : Type) where
  clients : List (Client Subscription) := []
  pendingSubscriptions : List Subscription := []
  addingClient : Bool := false
  connectBackoff : ExponentialBackoff := { maxSteps := 5, start := 1000 }
  attempts : Nat := 0
  timers : List Nat := []
  deriving DecidableEq

namespace Manager

/-- The first client that answers true, changed as it is. -/
def firstClient (change : Client Subscription → Option (Client Subscription)) :
    List (Client Subscription) → Option (List (Client Subscription))
  | [] => none
  | client :: rest =>
      match change client with
      | some changed => some (changed :: rest)
      | none => (firstClient change rest).map (client :: ·)

def trySubscribe (m : Manager Subscription) (subscription : Subscription) : Option (Manager Subscription) :=
  (firstClient (·.subscribe subscription) m.clients).map fun clients => { m with clients }

def unsubscribe (m : Manager Subscription) (subscription : Subscription) : Manager Subscription :=
  match firstClient (·.unsubscribe subscription) m.clients with
  | some clients => { m with clients }
  | none => m

/-- addClient; connects says whether get_connection gives a connection. -/
def addClient (m : Manager Subscription) (connects : Bool) : Manager Subscription :=
  if m.addingClient then m
  else if connects then { m with addingClient := true, attempts := m.attempts + 1 }
  else { m with addingClient := true }

def subscribe (m : Manager Subscription) (connects : Bool) (subscription : Subscription) : Manager Subscription :=
  match m.trySubscribe subscription with
  | some subscribed => subscribed
  | none =>
      let m := m.addClient connects
      { m with pendingSubscriptions := m.pendingSubscriptions ++ [subscription] }

/-- The loop of onConnectionOpen: the client with what it took from the back of the
pending subscriptions, what is left, and whether the client took all it should. -/
def takePending : Nat → Client Subscription → List Subscription → Client Subscription × List Subscription × Bool
  | 0, client, pending => (client, pending, true)
  | pendingSubsToTake + 1, client, pending =>
      match pending.getLast? with
      | none => (client, pending, true)
      | some last =>
          match client.subscribe last with
          | none => (client, pending.dropLast, false)
          | some subscribed => takePending pendingSubsToTake subscribed pending.dropLast

/-- onConnectionOpen, with the place that the new handle has in the order of clients_. -/
def onConnectionOpen (m : Manager Subscription) (place maxSubscriptions : Nat) (connects : Bool) :
    Manager Subscription :=
  let (client, pending, complete) := takePending (min m.pendingSubscriptions.length maxSubscriptions)
    { maxSubscriptions } m.pendingSubscriptions
  let m := { m with
    addingClient := false
    connectBackoff := m.connectBackoff.reset
    clients := m.clients.take place ++ client :: m.clients.drop place
    pendingSubscriptions := pending }
  if complete && !pending.isEmpty then m.addClient connects else m

def onConnectionFail (m : Manager Subscription) : Manager Subscription :=
  let m := { m with addingClient := false }
  if m.pendingSubscriptions.isEmpty then m
  else
    { m with
      timers := m.timers ++ [m.connectBackoff.next.1]
      connectBackoff := m.connectBackoff.next.2 }

/-- The loop of onConnectionClose over the subscriptions of the closed client. -/
def subscribeAll (connects : Bool) : Manager Subscription → List Subscription → Manager Subscription :=
  List.foldl (fun m subscription => m.subscribe connects subscription)

def onConnectionClose (m : Manager Subscription) (place : Nat) (order : List Subscription) (connects : Bool) :
    Manager Subscription :=
  { m with clients := m.clients.eraseIdx place }.subscribeAll connects order

end Manager

/-- What can come to the manager. Every connects is what get_connection would give. -/
inductive Event (Subscription : Type) where
  | subscribe (subscription : Subscription) (connects : Bool)
  | unsubscribe (subscription : Subscription)
  /-- A connection attempt succeeds. -/
  | opened (place maxSubscriptions : Nat) (connects : Bool)
  /-- A connection attempt fails. -/
  | failed
  /-- The connection of a client closes; its subscriptions are a set, in this order. -/
  | closed (place : Nat) (order : List Subscription) (connects : Bool)
  /-- A reconnect timer passes. -/
  | reconnect (timer : Nat) (connects : Bool)
  deriving DecidableEq, Repr

def Manager.step (m : Manager Subscription) : Event Subscription → Option (Manager Subscription)
  | .subscribe subscription connects => some (m.subscribe connects subscription)
  | .unsubscribe subscription => some (m.unsubscribe subscription)
  | .opened place maxSubscriptions connects =>
      if 0 < m.attempts then
        some ({ m with attempts := m.attempts - 1 }.onConnectionOpen place maxSubscriptions connects)
      else none
  | .failed => if 0 < m.attempts then some { m with attempts := m.attempts - 1 }.onConnectionFail else none
  | .closed place order connects =>
      match m.clients[place]? with
      | none => none
      | some client =>
          if order.Nodup ∧ order.toFinset = client.subscriptions then some (m.onConnectionClose place order connects)
          else none
  | .reconnect timer connects =>
      if timer < m.timers.length then some ({ m with timers := m.timers.eraseIdx timer }.addClient connects) else none

end Forserino.LiveUpdates
