import Mathlib.Logic.Function.Basic
import Forserino.Foundation.Runs
import Forserino.Qt.Json
import Forserino.TwitchPubSub.Manager

/-! The frames that a PubSub server sends, the pings of the clients, and the asserts of
PubSubClient.cpp and PubSubManager.cpp that they come to.

The network library opens a connection once and closes it once, and delivers frames in between.
How a text is read as JSON is a parameter.
-/

set_option autoImplicit false

namespace Forserino.TwitchPubSub.Frames

open Qt Foundation

/-- The asserts by the functions that they are in. -/
inductive Assertion where
  | start | stop | handlePong | ping
  | onMessage | onConnectionClose
  | moderatorTopic | automodTopic
  deriving DecidableEq, Repr

def check (assertion : Assertion) (holds : Bool) : List Assertion := if holds then [] else [assertion]

/-! ## PubSubClient -/

/-- The flags of a PubSubClient, and whether a wait of its timer is outstanding. -/
structure Heartbeat where
  started : Bool := false
  awaitingPong : Bool := false
  heartbeatTimer : Bool := false
  deriving DecidableEq, Repr

namespace Heartbeat

/-- Without a pong a close is posted. Without a ping that is sent there is no further one. -/
def ping (sends : Bool) (client : Heartbeat) : Heartbeat × List Assertion :=
  let failed := check .ping client.started
  if client.awaitingPong then (client, failed)
  else if sends then ({ client with awaitingPong := true, heartbeatTimer := true }, failed)
  else (client, failed)

def start (sends : Bool) (client : Heartbeat) : Heartbeat × List Assertion :=
  let pinged := ping sends { client with started := true }
  (pinged.1, check .start (!client.started) ++ pinged.2)

def stop (client : Heartbeat) : Heartbeat × List Assertion :=
  ({ client with started := false }, check .stop client.started)

def handlePong (client : Heartbeat) : Heartbeat × List Assertion :=
  ({ client with awaitingPong := false }, check .handlePong client.awaitingPong)

/-- The callback of the timer. -/
def fire (sends : Bool) (client : Heartbeat) : Heartbeat × List Assertion :=
  let client := { client with heartbeatTimer := false }
  if client.started then client.ping sends else (client, [])

end Heartbeat

/-! ## Messages -/

inductive MessageType where
  | Pong | Response | Message | INVALID
  deriving DecidableEq, Repr

structure PubSubMessage where
  object : QJsonObject
  type : MessageType

/-- The type is not initialized, so a type string that names none leaves an indeterminate value. -/
def PubSubMessage.ofObject (object : QJsonObject) (indeterminate : MessageType) : PubSubMessage where
  object := object
  type :=
    let typeString := QJsonValue.toString (object.value (qs "type"))
    if typeString = qs "PONG" then .Pong
    else if typeString = qs "RESPONSE" then .Response
    else if typeString = qs "MESSAGE" then .Message
    else if typeString = qs "INVALID" then .INVALID
    else indeterminate

structure PubSubMessageMessage where
  topic : QString
  messageObject : QJsonObject

section
variable (fromJson : QString → Option QJsonValue)

def parsePubSubBaseMessage (blob : QString) (indeterminate : MessageType) : Option PubSubMessage :=
  (fromJson blob).map fun jsonDoc => .ofObject (QJsonValue.toObject (some jsonDoc)) indeterminate

/-- toInner for a MESSAGE, whose message is JSON once more. -/
def PubSubMessage.toInner (message : PubSubMessage) : Option PubSubMessageMessage :=
  match message.object.value (qs "data") with
  | some (.object data) =>
      some
        { topic := QJsonValue.toString (QJsonObject.value data (qs "topic"))
          messageObject :=
            QJsonValue.toObject (fromJson (QJsonValue.toString (QJsonObject.value data (qs "message")))) }
  | _ => none

end

/-- The asserts of handleMessageResponse. An empty message object has no inner message. -/
def handleMessageResponse (message : PubSubMessageMessage) : List Assertion :=
  if message.topic.startsWith PubSub.moderatorActions then
    if message.messageObject.isEmpty then []
    else check .moderatorTopic ((message.topic.split (u '.')).length = 3)
  else if message.topic.startsWith PubSub.communityPoints then []
  else if message.topic.startsWith PubSub.automodQueue then
    if message.messageObject.isEmpty then []
    else check .automodTopic ((message.topic.split (u '.')).length = 3)
  else []

/-! ## The manager and its connections -/

/-- The connections that are open, the handles in the map of clients, and the clients. A client
that was stopped is still held by its timer. -/
structure Connections where
  connected : List Nat := []
  clients : List Nat := []
  flags : Nat → Option Heartbeat := fun _ => none
  failed : List Assertion := []

inductive Event where
  | opened (hdl : Nat) (sends : Bool)
  | message (hdl : Nat) (payload : QString) (indeterminate : MessageType)
  | heartbeat (hdl : Nat) (sends : Bool)
  | closed (hdl : Nat)
  deriving DecidableEq, Repr

namespace Connections

def assert (c : Connections) (failed : List Assertion) : Connections := { c with failed := c.failed ++ failed }

/-- Call a function of the client. -/
def call (c : Connections) (hdl : Nat) (function : Heartbeat → Heartbeat × List Assertion) : Connections :=
  match c.flags hdl with
  | none => c
  | some client =>
      { c with
        flags := Function.update c.flags hdl (some (function client).1)
        failed := c.failed ++ (function client).2 }

/-- onConnectionOpen; the topics that it listens to are in the model of the manager. -/
def onConnectionOpen (c : Connections) (hdl : Nat) (sends : Bool) : Connections :=
  let client := Heartbeat.start sends {}
  { c with
    clients := hdl :: c.clients
    flags := Function.update c.flags hdl (some client.1)
    failed := c.failed ++ client.2 }

def onConnectionClose (c : Connections) (hdl : Nat) : Connections :=
  if hdl ∈ c.clients then { c with clients := c.clients.erase hdl }.call hdl Heartbeat.stop
  else c.assert [.onConnectionClose]

variable (fromJson : QString → Option QJsonValue)

/-- A RESPONSE changes counters only. -/
def onMessage (c : Connections) (hdl : Nat) (payload : QString) (indeterminate : MessageType) : Connections :=
  match parsePubSubBaseMessage fromJson payload indeterminate with
  | none => c
  | some message =>
      match message.type with
      | .Pong => if hdl ∈ c.clients then c.call hdl Heartbeat.handlePong else c.assert [.onMessage]
      | .Response => c
      | .Message =>
          match message.toInner fromJson with
          | none => c
          | some inner => c.assert (handleMessageResponse inner)
      | .INVALID => c

/-- An event, if it can happen. -/
def step (c : Connections) : Event → Option Connections
  | .opened hdl sends =>
      if c.flags hdl = none then some ({ c with connected := hdl :: c.connected }.onConnectionOpen hdl sends) else none
  | .message hdl payload indeterminate =>
      if hdl ∈ c.connected then some (c.onMessage fromJson hdl payload indeterminate) else none
  | .heartbeat hdl sends =>
      if (c.flags hdl).any (·.heartbeatTimer) then some (c.call hdl (Heartbeat.fire sends)) else none
  | .closed hdl =>
      if hdl ∈ c.connected then
        some ({ c with connected := c.connected.filter (· ≠ hdl) }.onConnectionClose hdl)
      else none

/-! ## The exact condition -/

/-- A topic of moderator actions or of the automod queue has a user and a channel. -/
def HasChannel (inner : PubSubMessageMessage) : Prop :=
  inner.topic.startsWith PubSub.moderatorActions = true ∨ inner.topic.startsWith PubSub.automodQueue = true →
    inner.messageObject ≠ [] → (inner.topic.split (u '.')).length = 3

/-- A frame that is taken for a pong answers a ping, and one that is taken for a message has its channel. -/
def Expected (c : Connections) : Event → Prop
  | .message hdl payload indeterminate =>
      ∀ message ∈ parsePubSubBaseMessage fromJson payload indeterminate,
        (message.type = .Pong → ∃ client ∈ c.flags hdl, client.awaitingPong = true) ∧
        (message.type = .Message → ∀ inner ∈ message.toInner fromJson, HasChannel inner)
  | _ => True

theorem handleMessageResponse_iff (inner : PubSubMessageMessage) :
    handleMessageResponse inner = [] ↔ HasChannel inner := by
  have apart : inner.topic.startsWith PubSub.automodQueue = true →
      inner.topic.startsWith PubSub.communityPoints = false := by
    intro automod
    obtain ⟨rest, shape⟩ := List.isPrefixOf_iff_prefix.mp automod
    rw [← shape]
    rfl
  unfold handleMessageResponse HasChannel check
  by_cases moderator : inner.topic.startsWith PubSub.moderatorActions = true
  · rw [if_pos moderator]
    cases inner.messageObject with
    | nil => simp
    | cons member members => simp [moderator]
  · rw [if_neg moderator]
    by_cases automod : inner.topic.startsWith PubSub.automodQueue = true
    · rw [if_neg (by rw [apart automod]; decide), if_pos automod]
      cases inner.messageObject with
      | nil => simp
      | cons member members => simp [automod]
    · simp [moderator, automod]

/-- Every open connection has a client in the map, which was started, and no assert has failed. -/
structure Sound (c : Connections) : Prop where
  known : ∀ hdl ∈ c.connected, hdl ∈ c.clients ∧ ∃ client, c.flags hdl = some client ∧ client.started = true
  clean : c.failed = []

variable {fromJson} {c next : Connections}

/-- A call that fails no assert and leaves the client started. -/
theorem Sound.call (sound : c.Sound) {hdl : Nat} {function : Heartbeat → Heartbeat × List Assertion}
    (keeps : ∀ client, c.flags hdl = some client → (function client).2 = [] ∧
      (function client).1.started = client.started) : (c.call hdl function).Sound := by
  unfold Connections.call
  split
  · exact sound
  · next client found =>
    obtain ⟨noneFailed, started⟩ := keeps client found
    refine ⟨fun other open_ => ?_, by rw [sound.clean, noneFailed]; rfl⟩
    obtain ⟨inMap, flags, there, wasStarted⟩ := sound.known other open_
    refine ⟨inMap, ?_⟩
    by_cases same : other = hdl
    · subst same
      obtain rfl := Option.some.inj (found.symm.trans there)
      exact ⟨_, Function.update_self .., started.trans wasStarted⟩
    · exact ⟨flags, (Function.update_of_ne same ..).trans there, wasStarted⟩

theorem ping_started {client : Heartbeat} (sends : Bool) (started : client.started = true) :
    (client.ping sends).2 = [] ∧ (client.ping sends).1.started = true := by
  have noneFailed : check .ping client.started = [] := if_pos started
  unfold Heartbeat.ping
  rw [noneFailed]
  dsimp only
  split
  · exact ⟨rfl, started⟩
  · split
    · exact ⟨rfl, started⟩
    · exact ⟨rfl, started⟩

theorem fire_keeps (sends : Bool) (client : Heartbeat) :
    (client.fire sends).2 = [] ∧ (client.fire sends).1.started = client.started := by
  unfold Heartbeat.fire
  dsimp only
  split
  · next started =>
    have pinged := @ping_started { client with heartbeatTimer := false } sends started
    exact ⟨pinged.1, pinged.2.trans started.symm⟩
  · exact ⟨rfl, rfl⟩

theorem Sound.opened (sound : c.Sound) {hdl : Nat} (fresh : c.flags hdl = none) (sends : Bool) :
    ({ c with connected := hdl :: c.connected }.onConnectionOpen hdl sends).Sound := by
  have pinged := @ping_started { ({} : Heartbeat) with started := true } sends rfl
  constructor
  case known =>
    intro other open_
    by_cases same : other = hdl
    · subst same
      exact ⟨List.mem_cons_self, _, Function.update_self .., pinged.2⟩
    · have before := (List.mem_cons.mp open_).resolve_left same
      obtain ⟨inMap, flags, there, started⟩ := sound.known other before
      exact ⟨List.mem_cons_of_mem _ inMap, flags, (Function.update_of_ne same ..).trans there, started⟩
  case clean =>
    change c.failed ++ (check .start true ++ (Heartbeat.ping sends { ({} : Heartbeat) with started := true }).2) = []
    rw [sound.clean, pinged.1]
    rfl

theorem Sound.closed (sound : c.Sound) {hdl : Nat} (open_ : hdl ∈ c.connected) :
    ({ c with connected := c.connected.filter (· ≠ hdl) }.onConnectionClose hdl).Sound := by
  obtain ⟨inMap, client, found, started⟩ := sound.known hdl open_
  have stopped : (Heartbeat.stop client).2 = [] := by
    unfold Heartbeat.stop check
    exact if_pos started
  unfold onConnectionClose Connections.call
  rw [if_pos inMap]
  simp only [found, stopped, List.append_nil]
  refine ⟨fun other still => ?_, sound.clean⟩
  obtain ⟨before, differs⟩ := List.mem_filter.mp still
  have other_ : other ≠ hdl := of_decide_eq_true differs
  obtain ⟨otherInMap, flags, there, wasStarted⟩ := sound.known other before
  refine ⟨(List.mem_erase_of_ne other_).mpr otherInMap, flags, ?_, wasStarted⟩
  exact (Function.update_of_ne other_ ..).trans there

/-- An expected event fails no assert. -/
theorem Sound.step (sound : c.Sound) {e : Event} (expected : c.Expected fromJson e)
    (taken : c.step fromJson e = some next) : next.Sound := by
  unfold Connections.step at taken
  cases e with
  | opened hdl sends =>
    obtain ⟨fresh, same⟩ := Option.ite_none_right_eq_some.mp taken
    obtain rfl := Option.some.inj same
    exact sound.opened fresh sends
  | message hdl payload indeterminate =>
    obtain ⟨open_, same⟩ := Option.ite_none_right_eq_some.mp taken
    obtain rfl := Option.some.inj same
    unfold onMessage
    split
    · exact sound
    · next message parsed =>
      obtain ⟨pong, response⟩ := expected message parsed
      split
      · next type =>
        obtain ⟨client, found, awaiting⟩ := pong type
        rw [if_pos (sound.known hdl open_).1]
        apply sound.call
        intro other same
        obtain rfl := Option.some.inj (Option.mem_def.mp found |>.symm.trans same)
        exact ⟨by rw [Heartbeat.handlePong, check, if_pos awaiting], rfl⟩
      · exact sound
      · next type =>
        split
        · exact sound
        · next inner found =>
          have channel := (handleMessageResponse_iff inner).mpr (response type inner found)
          refine ⟨sound.known, ?_⟩
          change c.failed ++ handleMessageResponse inner = []
          rw [sound.clean, channel]
          rfl
      · exact sound
  | heartbeat hdl sends =>
    obtain ⟨-, same⟩ := Option.ite_none_right_eq_some.mp taken
    obtain rfl := Option.some.inj same
    exact sound.call fun client _ => fire_keeps sends client
  | closed hdl =>
    obtain ⟨open_, same⟩ := Option.ite_none_right_eq_some.mp taken
    obtain rfl := Option.some.inj same
    exact sound.closed open_

/-- An event that is not expected fails an assert. -/
theorem Sound.breaks (sound : c.Sound) {e : Event} (unexpected : ¬ c.Expected fromJson e)
    (taken : c.step fromJson e = some next) : next.failed ≠ [] := by
  unfold Connections.step at taken
  cases e with
  | opened hdl sends => exact absurd trivial unexpected
  | heartbeat hdl sends => exact absurd trivial unexpected
  | closed hdl => exact absurd trivial unexpected
  | message hdl payload indeterminate =>
    obtain ⟨open_, same⟩ := Option.ite_none_right_eq_some.mp taken
    obtain rfl := Option.some.inj same
    intro clean
    apply unexpected
    intro message parsed
    obtain ⟨inMap, client, found, started⟩ := sound.known hdl open_
    rw [onMessage, Option.mem_def.mp parsed] at clean
    refine ⟨fun type => ?_, fun type inner innerFound => ?_⟩
    · simp only [type, inMap, if_true, Connections.call, found, sound.clean, List.nil_append] at clean
      refine ⟨client, found, ?_⟩
      by_contra idle
      rw [Heartbeat.handlePong, check, if_neg idle] at clean
      cases clean
    · simp only [type, Option.mem_def.mp innerFound, Connections.assert, sound.clean, List.nil_append] at clean
      exact (handleMessageResponse_iff inner).mp clean

/-- In a run no assert fails if and only if every frame that is taken for a pong answers a ping, and
every message about moderator actions or the automod queue has its channel. -/
theorem no_assert_iff {events : List Event} {final : Connections} (ran : run (step fromJson) {} events = some final) :
    Along (step fromJson) (Expected fromJson) {} events ↔
      ∀ before, before <+: events → ∀ state, run (step fromJson) {} before = some state → state.failed = [] :=
  along_iff (fun _ _ _ sound expected taken => Sound.step sound expected taken)
    (fun _ _ _ sound unexpected taken => Sound.breaks sound unexpected taken) (fun _ sound => sound.clean) ran
    ⟨fun _ impossible => (nomatch impossible), rfl⟩

/-! ### Runs -/

/-- The text {"type":"PONG"}. -/
def pongText : QString := qs "\x7b\"type\":\"PONG\"\x7d"

/-- The text {"a":1}. -/
def innerText : QString := qs "\x7b\"a\":1\x7d"

/-- A frame of type MESSAGE with a topic of plain characters, whose message is the text above. -/
def messageText (topic : QString) : QString :=
  qs "\x7b\"type\":\"MESSAGE\",\"data\":\x7b\"topic\":\"" ++ topic ++
    qs "\",\"message\":\"\x7b\\\"a\\\":1\x7d\"\x7d\x7d"

/-- What these texts are read as. -/
def readText (topics : List QString) (text : QString) : Option QJsonValue :=
  if text = pongText then some (.object [(qs "type", .string (qs "PONG"))])
  else if text = innerText then some (.object [(qs "a", .double 1)])
  else
    (topics.find? fun topic => text == messageText topic).map fun topic =>
      .object
        [(qs "type", .string (qs "MESSAGE")),
          (qs "data", .object [(qs "topic", .string topic), (qs "message", .string innerText)])]

/-- A ping is answered, the next one is sent, and a message of the automod queue arrives. -/
def queueRun : List Event :=
  [.opened 0 true, .message 0 pongText .INVALID, .heartbeat 0 true,
    .message 0 (messageText (qs "automod-queue.1.2")) .INVALID, .closed 0]

theorem no_assert_queue : ∃ final, run (step (readText [qs "automod-queue.1.2"])) {} queueRun = some final ∧
    final.failed = [] ∧
    (Along (step (readText [qs "automod-queue.1.2"])) (Expected (readText [qs "automod-queue.1.2"])) {} queueRun ↔
      ∀ before, before <+: queueRun →
        ∀ state, run (step (readText [qs "automod-queue.1.2"])) {} before = some state → state.failed = []) :=
  ⟨_, rfl, rfl, no_assert_iff rfl⟩

/-- A second pong that nothing asked for, and a topic of two parts. -/
theorem asserts_fail :
    (∃ final, run (step (readText [])) {}
      [.opened 0 true, .message 0 pongText .INVALID, .message 0 pongText .INVALID] = some final ∧
        final.failed = [.handlePong]) ∧
      ∃ final, run (step (readText [qs "automod-queue.1"])) {}
        [.opened 0 true, .message 0 (messageText (qs "automod-queue.1")) .INVALID] = some final ∧
          final.failed = [.automodTopic] :=
  ⟨⟨_, rfl, rfl⟩, _, rfl, rfl⟩

end Connections

end Forserino.TwitchPubSub.Frames
