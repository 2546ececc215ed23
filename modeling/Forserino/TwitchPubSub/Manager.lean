import Forserino.LiveUpdates.PubSub
import Forserino.Qt.Text

/-! providers/twitch: PubSubClient.cpp and the topics of PubSubManager.cpp.

Topics are in the listeners of the clients or in the requests that wait for the next
connection. The frames that are sent are kept in the order of their sending.
-/

set_option autoImplicit false

namespace Forserino.TwitchPubSub

open Qt LiveUpdates

/-- A frame that is sent to the server: PubSubListenMessage or PubSubUnlistenMessage. -/
inductive Frame where
  | LISTEN (topics : List QString) (token : QString)
  | UNLISTEN (topics : List QString)
  deriving DecidableEq, Repr

/-- The topics that a frame asks for. -/
def Frame.listens : Frame → List QString
  | .LISTEN topics _ => topics
  | .UNLISTEN _ => []

def MAX_LISTENS : Nat := 50

/-- PubSubClient, with the topics of its listeners. -/
structure PubSubClient where
  numListens : UInt16 := 0
  listeners : List QString := []
  deriving DecidableEq, Repr

namespace PubSubClient

/-- The client that listens to the topics too, unless that is too many. -/
def listen (client : PubSubClient) (topics : List QString) : Option PubSubClient :=
  if client.numListens.toNat + topics.length > MAX_LISTENS then none
  else
    some { numListens := client.numListens + UInt16.ofNat topics.length
           listeners := client.listeners ++ topics }

/-- The client without the topics that start with the prefix, and these topics. -/
def unlistenPrefix (client : PubSubClient) (start : QString) : PubSubClient × List QString :=
  let topics := client.listeners.filter (·.startsWith start)
  if topics.isEmpty then (client, [])
  else
    ({ numListens := client.numListens - UInt16.ofNat topics.length
       listeners := client.listeners.filter (!·.startsWith start) }, topics)

def isListeningToTopic (client : PubSubClient) (topic : QString) : Bool := client.listeners.contains topic

end PubSubClient

/-- The manager, with its connection attempts in flight, the delays of its reconnect
timers and the frames that it has sent. -/
structure PubSub where
  token : QString := []
  userID : QString := []
  requests : List QString := []
  addingClient : Bool := false
  connectBackoff : ExponentialBackoff := { maxSteps := 5, start := 1000 }
  clients : List PubSubClient := []
  attempts : Nat := 0
  timers : List Nat := []
  sent : List Frame := []
  deriving DecidableEq, Repr

namespace PubSub

def addClient (ps : PubSub) (connects : Bool) : PubSub :=
  if ps.addingClient then ps
  else if connects then { ps with addingClient := true, attempts := ps.attempts + 1 }
  else { ps with addingClient := true }

def isListeningToTopic (ps : PubSub) (topic : QString) : Bool := ps.clients.any (·.isListeningToTopic topic)

/-- The loop of tryListen over the clients. -/
def tryListenAmong (topics : List QString) : List PubSubClient → Option (List PubSubClient)
  | [] => none
  | client :: rest =>
      match client.listen topics with
      | some listening => some (listening :: rest)
      | none => (tryListenAmong topics rest).map (client :: ·)

def tryListen (ps : PubSub) (topics : List QString) (token : QString) : Option PubSub :=
  (tryListenAmong topics ps.clients).map fun clients => { ps with clients, sent := ps.sent ++ [.LISTEN topics token] }

def listen (ps : PubSub) (topics : List QString) (token : QString) (connects : Bool) : PubSub :=
  match ps.tryListen topics token with
  | some listening => listening
  | none =>
      let ps := ps.addClient connects
      { ps with requests := ps.requests ++ topics }

def communityPoints : QString := qs "community-points-channel-v1."

def listenToTopic (connects : Bool) (ps : PubSub) (topic : QString) : PubSub :=
  ps.listen [topic] (if topic.startsWith communityPoints then [] else ps.token) connects

/-- The listenTo functions whose topic names the user, up to the prefix of the topic. -/
def listenToUserTopic (start : QString) (ps : PubSub) (channelID : QString) (enableExperimentalEventSub connects : Bool) :
    PubSub :=
  if enableExperimentalEventSub then ps
  else if ps.userID.isEmpty then ps
  else
    let topic := start ++ ps.userID ++ qs "." ++ channelID
    if ps.isListeningToTopic topic then ps else ps.listenToTopic connects topic

def moderatorActions : QString := qs "chat_moderator_actions."

def automodQueue : QString := qs "automod-queue."

def lowTrustUsers : QString := qs "low-trust-users."

def listenToChannelModerationActions : PubSub → QString → Bool → Bool → PubSub := listenToUserTopic moderatorActions

def listenToAutomod : PubSub → QString → Bool → Bool → PubSub := listenToUserTopic automodQueue

def listenToLowTrustUsers : PubSub → QString → Bool → Bool → PubSub := listenToUserTopic lowTrustUsers

def listenToChannelPointRewards (ps : PubSub) (channelID : QString) (connects : Bool) : PubSub :=
  let topic := communityPoints ++ channelID
  if ps.isListeningToTopic topic then ps else ps.listenToTopic connects topic

def unlistenPrefix (ps : PubSub) (start : QString) : PubSub :=
  { ps with
    clients := ps.clients.map fun client => (client.unlistenPrefix start).1
    sent := ps.sent ++ (ps.clients.filterMap fun client =>
      let topics := (client.unlistenPrefix start).2
      if topics.isEmpty then none else some (.UNLISTEN topics)) }

def unlistenChannelModerationActions (ps : PubSub) : PubSub := ps.unlistenPrefix moderatorActions

def unlistenAutomod (ps : PubSub) : PubSub := ps.unlistenPrefix automodQueue

def unlistenLowTrustUsers (ps : PubSub) : PubSub := ps.unlistenPrefix lowTrustUsers

def unlistenChannelPointRewards (ps : PubSub) : PubSub := ps.unlistenPrefix communityPoints

def setAccount (ps : PubSub) (token userID : QString) : PubSub := { ps with token, userID }

/-- What initialize does when the current user changes. -/
def currentUserChanged (ps : PubSub) (token userID : QString) : PubSub :=
  ps.unlistenChannelModerationActions.unlistenAutomod.unlistenLowTrustUsers.unlistenChannelPointRewards.setAccount
    token userID

/-- onConnectionOpen, with the place that the new handle has in the order of clients. -/
def onConnectionOpen (ps : PubSub) (place : Nat) (connects : Bool) : PubSub :=
  let topicsToTake := min ps.requests.length MAX_LISTENS
  let newTopics := ps.requests.take topicsToTake
  let ps := { ps with
    addingClient := false
    connectBackoff := ps.connectBackoff.reset
    requests := ps.requests.drop topicsToTake }
  let addTo (client : PubSubClient) := ps.clients.take place ++ client :: ps.clients.drop place
  match PubSubClient.listen {} newTopics with
  | none => { ps with clients := addTo {} }
  | some client =>
      let ps := { ps with clients := addTo client, sent := ps.sent ++ [.LISTEN newTopics ps.token] }
      if ps.requests.isEmpty then ps else ps.addClient connects

def onConnectionFail (ps : PubSub) : PubSub :=
  let ps := { ps with addingClient := false }
  if ps.requests.isEmpty then ps
  else
    { ps with
      timers := ps.timers ++ [ps.connectBackoff.next.1]
      connectBackoff := ps.connectBackoff.next.2 }

/-- onConnectionClose of the given client; the manager is not stopping. -/
def onConnectionClose (ps : PubSub) (place : Nat) (client : PubSubClient) (connects : Bool) : PubSub :=
  client.listeners.foldl (listenToTopic connects) { ps with clients := ps.clients.eraseIdx place }

end PubSub

/-- A topic that the application asks for, by the function that does it. -/
inductive Request where
  | channelModerationActions
  | automod
  | lowTrustUsers
  | channelPointRewards
  deriving DecidableEq, Repr

/-- What can come to the manager. Every connects is what get_connection would give. -/
inductive Event where
  | listenTo (request : Request) (channelID : QString) (enableExperimentalEventSub connects : Bool)
  | unlistenPrefix (start : QString)
  | currentUserChanged (token userID : QString)
  | opened (place : Nat) (connects : Bool)
  | failed
  | closed (place : Nat) (connects : Bool)
  /-- A reconnect timer passes. -/
  | reconnect (timer : Nat) (connects : Bool)
  deriving DecidableEq, Repr

namespace PubSub

def listenTo (ps : PubSub) : Request → QString → Bool → Bool → PubSub
  | .channelModerationActions => ps.listenToChannelModerationActions
  | .automod => ps.listenToAutomod
  | .lowTrustUsers => ps.listenToLowTrustUsers
  | .channelPointRewards => fun channelID _ => ps.listenToChannelPointRewards channelID

def step (ps : PubSub) : Event → Option PubSub
  | .listenTo request channelID enableExperimentalEventSub connects =>
      some (ps.listenTo request channelID enableExperimentalEventSub connects)
  | .unlistenPrefix start => some (ps.unlistenPrefix start)
  | .currentUserChanged token userID => some (ps.currentUserChanged token userID)
  | .opened place connects =>
      if 0 < ps.attempts then some ({ ps with attempts := ps.attempts - 1 }.onConnectionOpen place connects) else none
  | .failed => if 0 < ps.attempts then some { ps with attempts := ps.attempts - 1 }.onConnectionFail else none
  | .closed place connects =>
      match ps.clients[place]? with
      | none => none
      | some client => some (ps.onConnectionClose place client connects)
  | .reconnect timer connects =>
      if timer < ps.timers.length then some ({ ps with timers := ps.timers.eraseIdx timer }.addClient connects) else none

end PubSub

end Forserino.TwitchPubSub
