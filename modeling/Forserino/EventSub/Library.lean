import Forserino.Foundation.Histories
import Forserino.Foundation.Runs

/-! A session of the EventSub library: the chain of asynchronous operations that opens a connection and reads
from it, and what its listener hears. The listener is given away with the call that tells it of the end.

The JSON parser and the parsers of the payloads belong to other libraries.
-/

set_option autoImplicit false

namespace Forserino.EventSub.Lib

open Foundation

inductive Operation where
  | resolve
  | connect
  | sslHandshake
  | handshake
  | read
  | close
  deriving DecidableEq, Repr

structure Metadata where
  messageType : String
  subscriptionType : Option String
  subscriptionVersion : Option String
  deriving DecidableEq, Repr

/-- What the JSON parser makes of a message. -/
inductive Value (Payload : Type) where
  | invalid
  | other
  | object (metadata : Option (Option Metadata)) (payload : Option Payload)

inductive Error where
  | json
  | expectedObject
  | fieldMissing
  | metadata
  | payload
  | noMessageHandler
  deriving DecidableEq, Repr

inductive Call where
  | onSessionWelcome
  | onNotification
  | onEvent (subscriptionType subscriptionVersion : String)
  | onClose (reconnectURL : Option String)
  deriving DecidableEq, Repr

/-- The subscription types with their versions. -/
def NOTIFICATION_HANDLERS : List (String × String) :=
  [("channel.ban", "1"), ("stream.online", "1"), ("stream.offline", "1"), ("channel.chat.notification", "1"),
    ("channel.update", "1"), ("channel.chat.message", "1"), ("channel.moderate", "2"), ("automod.message.hold", "2"),
    ("automod.message.update", "2"), ("channel.suspicious_user.message", "1"), ("channel.suspicious_user.update", "1"),
    ("channel.chat.user_message_hold", "1"), ("channel.chat.user_message_update", "1")]

structure Handled where
  error : Option Error
  calls : List Call
  deriving DecidableEq, Repr

section
variable {Payload : Type} (parseWelcome : Payload → Option (Option String)) (parseEvent : String × String → Payload → Bool)

def notification (metadata : Metadata) (payload : Payload) : Handled :=
  match metadata.subscriptionType, metadata.subscriptionVersion with
  | some subscriptionType, some subscriptionVersion =>
      if (subscriptionType, subscriptionVersion) ∈ NOTIFICATION_HANDLERS then
        if parseEvent (subscriptionType, subscriptionVersion) payload then
          ⟨none, [.onNotification, .onEvent subscriptionType subscriptionVersion]⟩
        else ⟨some .payload, [.onNotification]⟩
      else ⟨some .noMessageHandler, [.onNotification]⟩
  | _, _ => ⟨none, [.onNotification]⟩

/-- A welcome and a request to reconnect have the same payload. -/
def handlePayload (metadata : Metadata) (payload : Payload) : Handled :=
  if metadata.messageType = "session_welcome" then
    match parseWelcome payload with
    | some _ => ⟨none, [.onSessionWelcome]⟩
    | none => ⟨some .payload, []⟩
  else if metadata.messageType = "session_keepalive" then ⟨none, []⟩
  else if metadata.messageType = "session_reconnect" then
    match parseWelcome payload with
    | some reconnectURL => ⟨none, [.onClose reconnectURL]⟩
    | none => ⟨some .payload, []⟩
  else notification parseEvent metadata payload

def MESSAGE_HANDLERS : List String := ["session_welcome", "session_keepalive", "session_reconnect", "notification"]

def handleMessage : Value Payload → Handled
  | .invalid => ⟨some .json, []⟩
  | .other => ⟨some .expectedObject, []⟩
  | .object none _ => ⟨some .fieldMissing, []⟩
  | .object (some none) _ => ⟨some .metadata, []⟩
  | .object (some (some metadata)) payload =>
      if metadata.messageType ∈ MESSAGE_HANDLERS then
        match payload with
        | some payload => handlePayload parseWelcome parseEvent metadata payload
        | none => ⟨some .fieldMissing, []⟩
      else ⟨some .noMessageHandler, []⟩

end

structure Session where
  listener : Bool
  pending : List Operation
  calls : List Call
  deriving DecidableEq, Repr

namespace Session

/-- The session behind run. -/
def start : Session := ⟨true, [.resolve], []⟩

def hear (session : Session) (calls : List Call) : Session :=
  { session with
    calls := session.calls ++ calls
    listener := session.listener && calls.all fun call => !call matches .onClose _ }

def fail (session : Session) (isOpen : Bool) : Session :=
  if !isOpen && session.listener then session.hear [.onClose none] else session

def close (session : Session) : Session := { session with pending := session.pending ++ [.close] }

def await (session : Session) (operation : Operation) : Session := { session with pending := session.pending ++ [operation] }

/-- The handlers of the operations that open the connection. -/
def onOpening (session : Session) (ec isOpen : Bool) (next : Operation) : Session :=
  if ec then session.fail isOpen else session.await next

def onResolve (session : Session) (ec isOpen : Bool) : Session := session.onOpening ec isOpen .connect

/-- The name of the host may be refused. -/
def onConnect (session : Session) (ec hostRefused isOpen : Bool) : Session :=
  if ec then session.fail isOpen else if hostRefused then session.fail isOpen else session.await .sslHandshake

def onSSLHandshake (session : Session) (ec isOpen : Bool) : Session := session.onOpening ec isOpen .handshake

def onHandshake (session : Session) (ec isOpen : Bool) : Session := session.onOpening ec isOpen .read

/-- A read that has failed has no message. -/
def onRead (session : Session) (message : Option Handled) (isOpen : Bool) : Session :=
  if !session.listener then session
  else
    match message with
    | none => session.fail isOpen
    | some handled =>
        let session := session.hear handled.calls
        let session := if handled.error.isSome then session.fail isOpen else session
        if !session.listener then session.close else session.await .read

def onClose (session : Session) (ec isOpen : Bool) : Session :=
  if ec then session.fail isOpen else if session.listener then session.hear [.onClose none] else session

/-- An operation has completed, or the owner closes the session. The stream is open or not when this happens. -/
inductive Event (Payload : Type) where
  | resolved (ec isOpen : Bool)
  | connected (ec hostRefused isOpen : Bool)
  | sslHandshaken (ec isOpen : Bool)
  | handshaken (ec isOpen : Bool)
  | read (message : Option (Value Payload)) (isOpen : Bool)
  | closed (ec isOpen : Bool)
  | close

section
variable {Payload : Type} (parseWelcome : Payload → Option (Option String)) (parseEvent : String × String → Payload → Bool)

/-- The handler of an operation that was pending. -/
def complete (session : Session) (operation : Operation) (handler : Session → Session) : Option Session :=
  if operation ∈ session.pending then some (handler { session with pending := session.pending.erase operation }) else none

def step (session : Session) : Event Payload → Option Session
  | .resolved ec isOpen => session.complete .resolve (·.onResolve ec isOpen)
  | .connected ec hostRefused isOpen => session.complete .connect (·.onConnect ec hostRefused isOpen)
  | .sslHandshaken ec isOpen => session.complete .sslHandshake (·.onSSLHandshake ec isOpen)
  | .handshaken ec isOpen => session.complete .handshake (·.onHandshake ec isOpen)
  | .read message isOpen =>
      session.complete .read (·.onRead (message.map (handleMessage parseWelcome parseEvent)) isOpen)
  | .closed ec isOpen => session.complete .close (·.onClose ec isOpen)
  | .close => some session.close

/-- What the stream documents: an operation that fails leaves it closed. -/
def Fails (_ : Session) : Event Payload → Prop
  | .resolved ec isOpen | .sslHandshaken ec isOpen | .handshaken ec isOpen | .closed ec isOpen => ec = true → isOpen = false
  | .connected ec hostRefused isOpen => ec = true ∨ hostRefused = true → isOpen = false
  | .read message isOpen => message = none → isOpen = false
  | .close => True

instance (session : Session) : ∀ event : Event Payload, Decidable (Fails session event)
  | .resolved ec isOpen | .sslHandshaken ec isOpen | .handshaken ec isOpen | .closed ec isOpen =>
      inferInstanceAs (Decidable (ec = true → isOpen = false))
  | .connected ec hostRefused isOpen => inferInstanceAs (Decidable (ec = true ∨ hostRefused = true → isOpen = false))
  | .read message isOpen => inferInstanceAs (Decidable (message = none → isOpen = false))
  | .close => inferInstanceAs (Decidable True)

end

/-! ## The listener -/

def Call.ends : Call → Bool
  | .onClose _ => true
  | _ => false

/-- Nothing is heard behind the end. -/
def Suits (before : List Call) (_ : Call) : Prop := ∀ call ∈ before, Call.ends call = false

/-- The operations but for the closing ones. -/
def opening (session : Session) : Nat := session.pending.countP (· ≠ .close)

structure Heard (session : Session) : Prop where
  suits : Throughout Suits session.calls
  held : session.listener = true ↔ ∀ call ∈ session.calls, Call.ends call = false

/-- Calls that end the session do nothing else. -/
def Whole (calls : List Call) : Prop := (∃ url, calls = [.onClose url]) ∨ ∀ call ∈ calls, Call.ends call = false

variable {session : Session}

theorem Heard.hear (heard : Heard session) (held : session.listener = true) {calls : List Call} (whole : Whole calls) :
    Heard (session.hear calls) := by
  have open_ := heard.held.mp held
  rcases whole with ⟨url, rfl⟩ | quiet
  · refine ⟨heard.suits.concat open_, ?_⟩
    constructor
    · intro still
      simp [Session.hear] at still
    · intro none
      have last := none (.onClose url) (List.mem_append_right _ List.mem_cons_self)
      cases last
  · have continues : ∀ call ∈ session.calls ++ calls, Call.ends call = false := by
      intro call member
      exact (List.mem_append.mp member).elim (open_ call) (quiet call)
    refine ⟨?_, fun _ => continues, fun _ => ?_⟩
    · intro before call behind split earlier member
      have whole : session.calls ++ calls = before ++ call :: behind := split
      exact continues earlier (whole ▸ List.mem_append_left _ member)
    · rw [Session.hear, held, Bool.true_and, List.all_eq_true]
      intro call member
      have quiet := quiet call member
      cases call with
      | onClose url => cases quiet
      | _ => rfl

theorem whole_end (url : Option String) : Whole [.onClose url] := .inl ⟨url, rfl⟩

theorem notification_quiet {Payload : Type} (parseEvent : String × String → Payload → Bool) (metadata : Metadata)
    (payload : Payload) : ∀ call ∈ (notification parseEvent metadata payload).calls, Call.ends call = false := by
  unfold notification
  split
  · split
    · split <;> simp [Call.ends]
    · simp [Call.ends]
  · simp [Call.ends]

/-- A message ends the session with its only call, or not at all. -/
theorem handleMessage_whole {Payload : Type} (parseWelcome : Payload → Option (Option String))
    (parseEvent : String × String → Payload → Bool) (value : Value Payload) :
    Whole (handleMessage parseWelcome parseEvent value).calls := by
  have nothing : Whole [] := .inr fun _ none => absurd none List.not_mem_nil
  fun_cases handleMessage parseWelcome parseEvent value with
  | case5 metadata known payload =>
    unfold handlePayload
    split
    · split
      · exact .inr (by simp [Call.ends])
      · exact nothing
    · split
      · exact nothing
      · split
        · split
          · exact whole_end _
          · exact nothing
        · exact .inr (notification_quiet parseEvent metadata payload)
  | _ => exact nothing

theorem Heard.fail (heard : Heard session) (isOpen : Bool) : Heard (session.fail isOpen) := by
  unfold Session.fail
  split
  · next told =>
    rw [Bool.and_eq_true] at told
    exact heard.hear told.2 (whole_end none)
  · exact heard

/-- The same session, as far as its listener goes. -/
theorem Heard.same (heard : Heard session) {pending : List Operation} : Heard { session with pending } :=
  ⟨heard.suits, heard.held⟩

theorem fail_pending (session : Session) (isOpen : Bool) : (session.fail isOpen).pending = session.pending := by
  unfold Session.fail
  split <;> rfl

/-- On a closed stream, a failure is the end. -/
theorem fail_closed (session : Session) : (session.fail false).listener = false := by
  unfold Session.fail
  split
  · simp [Session.hear]
  · next silent => simpa using silent

/-- A listener that is held waits for one operation, and there are never two. -/
structure Waits (session : Session) : Prop where
  held : session.listener = true → session.opening = 1
  single : session.opening ≤ 1

structure Sound (session : Session) : Prop where
  heard : Heard session
  waits : Waits session

theorem sound_start : Sound start where
  heard := ⟨throughout_nil, fun _ _ none => absurd none List.not_mem_nil, fun _ => rfl⟩
  waits := ⟨fun _ => by decide, by decide⟩

theorem opening_erase {pending : List Operation} {operation : Operation} (member : operation ∈ pending) :
    (pending.erase operation).countP (· ≠ .close) + (if operation = .close then 0 else 1) =
      pending.countP (· ≠ .close) := by
  have same := (List.perm_cons_erase member).countP_eq (· ≠ Operation.close)
  rw [same, List.countP_cons]
  congr 1
  by_cases close : operation = .close <;> simp [close]

theorem opening_await (session : Session) {operation : Operation} (other : operation ≠ .close) :
    (session.await operation).opening = session.opening + 1 := by
  simp [opening, await, other]

theorem opening_fail (session : Session) (isOpen : Bool) : (session.fail isOpen).opening = session.opening := by
  rw [opening, fail_pending, opening]

theorem Waits.over (none : session.opening ≤ 1) (told : session.listener = false) : Waits session := by
  refine ⟨fun held => ?_, none⟩
  rw [told] at held
  cases held

/-- No operation but for closing is pending: then a failure is the end, or the next operation starts. -/
theorem Sound.onOpening (heard : Heard session) (idle : session.opening = 0) {ec isOpen : Bool}
    (fails : ec = true → isOpen = false) {next : Operation} (other : next ≠ .close) : Sound (session.onOpening ec isOpen next) := by
  unfold Session.onOpening
  split
  · next failed =>
    refine ⟨heard.fail isOpen, Waits.over ?_ ?_⟩
    · rw [opening_fail, idle]
      exact Nat.zero_le 1
    · rw [fails failed]
      exact fail_closed session
  · have one : (session.await next).opening = 1 := by rw [opening_await session other, idle]
    exact ⟨heard.same, fun _ => one, one.le⟩

theorem Sound.onConnect (heard : Heard session) (idle : session.opening = 0) {ec hostRefused isOpen : Bool}
    (fails : ec = true ∨ hostRefused = true → isOpen = false) : Sound (session.onConnect ec hostRefused isOpen) := by
  have either : session.onConnect ec hostRefused isOpen = session.onOpening (ec || hostRefused) isOpen .sslHandshake := by
    cases ec <;> rfl
  rw [either]
  exact Sound.onOpening heard idle (fun failed => fails (Bool.or_eq_true_iff.mp failed)) (fun same => by cases same)

theorem Sound.onRead (heard : Heard session) (idle : session.opening = 0) {message : Option Handled} {isOpen : Bool}
    (whole : ∀ handled, message = some handled → Whole handled.calls) (fails : message = none → isOpen = false) :
    Sound (session.onRead message isOpen) := by
  unfold Session.onRead
  split
  · next told =>
    rw [Bool.not_eq_true'] at told
    exact ⟨heard, Waits.over (idle.trans_le (Nat.zero_le 1)) told⟩
  · next held =>
    rw [Bool.not_eq_true', Bool.not_eq_false] at held
    split
    · refine ⟨heard.fail isOpen, Waits.over ?_ ?_⟩
      · rw [opening_fail, idle]
        exact Nat.zero_le 1
      · rw [fails rfl]
        exact fail_closed session
    · next handled =>
      dsimp only
      -- the message is handled first, and its error ends the session behind it
      have heard' := heard.hear held (whole handled rfl)
      have after : Heard (if handled.error.isSome then (session.hear handled.calls).fail isOpen else session.hear handled.calls)
          ∧ (if handled.error.isSome then (session.hear handled.calls).fail isOpen else session.hear handled.calls).opening = 0 := by
        split
        · exact ⟨heard'.fail isOpen, (opening_fail _ _).trans idle⟩
        · exact ⟨heard', idle⟩
      generalize (if handled.error.isSome then (session.hear handled.calls).fail isOpen
        else session.hear handled.calls) = behind at after ⊢
      obtain ⟨heard', idle'⟩ := after
      split
      · next told =>
        rw [Bool.not_eq_true'] at told
        have none : behind.close.opening = 0 := by
          rw [opening, Session.close, List.countP_append]
          exact idle'
        exact ⟨heard'.same, Waits.over (none.trans_le (Nat.zero_le 1)) told⟩
      · have one : (behind.await .read).opening = 1 := by rw [opening_await behind (by decide), idle']
        exact ⟨heard'.same, fun _ => one, one.le⟩

theorem Sound.onClose (heard : Heard session) (single : session.opening ≤ 1) {ec isOpen : Bool}
    (fails : ec = true → isOpen = false) : Sound (session.onClose ec isOpen) := by
  unfold Session.onClose
  split
  · next failed =>
    refine ⟨heard.fail isOpen, Waits.over ((opening_fail _ _).trans_le single) ?_⟩
    rw [fails failed]
    exact fail_closed session
  · split
    · next held => exact ⟨heard.hear held (whole_end none), Waits.over single (by simp [Session.hear])⟩
    · next told => exact ⟨heard, Waits.over single (Bool.not_eq_true _ |>.mp told)⟩

/-- Every handler finds the session with one operation less. -/
theorem Sound.complete {next : Session} (sound : Sound session) {operation : Operation} {handler : Session → Session}
    (taken : session.complete operation handler = some next)
    (handles : ∀ session, Heard session → session.opening ≤ 1 → (operation ≠ .close → session.opening = 0) →
      Sound (handler session)) : Sound next := by
  obtain ⟨member, taken⟩ := Option.ite_none_right_eq_some.mp taken
  obtain rfl := Option.some.inj taken
  have less := opening_erase member
  have single := sound.waits.single
  rw [opening] at single
  refine handles _ sound.heard.same ((Nat.le.intro less).trans single) fun other => ?_
  rw [if_neg other] at less
  exact Nat.le_zero.mp (Nat.le_of_succ_le_succ (less.trans_le single))

section
variable {Payload : Type} {parseWelcome : Payload → Option (Option String)} {parseEvent : String × String → Payload → Bool}

theorem Sound.step {event : Event Payload} {next : Session} (sound : Sound session) (fails : Fails session event)
    (taken : session.step parseWelcome parseEvent event = some next) : Sound next := by
  cases event <;> dsimp only [Session.step] at taken
  case resolved ec isOpen =>
    exact sound.complete taken fun _ heard _ idle => Sound.onOpening heard (idle (by decide)) fails (by decide)
  case connected ec hostRefused isOpen =>
    exact sound.complete taken fun _ heard _ idle => Sound.onConnect heard (idle (by decide)) fails
  case sslHandshaken ec isOpen =>
    exact sound.complete taken fun _ heard _ idle => Sound.onOpening heard (idle (by decide)) fails (by decide)
  case handshaken ec isOpen =>
    exact sound.complete taken fun _ heard _ idle => Sound.onOpening heard (idle (by decide)) fails (by decide)
  case read message isOpen =>
    refine sound.complete taken fun _ heard _ idle => Sound.onRead heard (idle (by decide)) ?_ ?_
    · intro handled same
      obtain ⟨value, _, rfl⟩ := Option.map_eq_some_iff.mp same
      exact handleMessage_whole parseWelcome parseEvent value
    · exact fun none => fails (Option.map_eq_none_iff.mp none)
  case closed ec isOpen =>
    exact sound.complete taken fun _ heard single _ => Sound.onClose heard single fails
  case close =>
    obtain rfl := Option.some.inj taken
    have same : session.close.opening = session.opening := by
      rw [opening, Session.close, List.countP_append]
      rfl
    exact ⟨sound.heard.same, fun held => same.trans (sound.waits.held held), same.trans_le sound.waits.single⟩

end

end Session

end Forserino.EventSub.Lib
