import Forserino.Foundation.Histories
import Forserino.Foundation.Runs
import Forserino.Qt.Text
import Forserino.Util.ExponentialBackoff
import Mathlib.Tactic.IntervalCases

/-! A connection to the IRC server: it sends a PING when nothing is received, takes an answer
that does not come for a loss, and is opened again some time after it was lost.

Times are in milliseconds. A timer is running or not, and may fire whenever it is running.
-/

set_option autoImplicit false

namespace Forserino.Irc

open Foundation Qt Util

/-- The socket is connecting until the server has accepted the login. -/
inductive SocketState where
  | unconnected
  | connecting
  | connected
  deriving DecidableEq, Repr

structure IrcConnection where
  socket : SocketState
  pingTimer : Bool
  /-- The delay with which the timer was started, while it runs. -/
  reconnectTimer : Option Int
  recentlyReceivedMessage : Bool
  lastPing : Int
  reconnectBackoff : ExponentialBackoff 5
  expectConnectionLoss : Bool
  waitingForPong : Bool
  deriving DecidableEq, Repr

/-- What a connection does, as its history records it. -/
inductive Signal where
  | opened
  | received
  | sentPing
  | heartbeat
  | connectionLost (timeout : Bool)
  | reconnecting (delay : Int)
  | backoffReset
  deriving DecidableEq, Repr

namespace IrcConnection

def new (now : Int) : IrcConnection where
  socket := .unconnected
  pingTimer := true
  reconnectTimer := none
  recentlyReceivedMessage := true
  lastPing := now
  reconnectBackoff := .new 1000
  expectConnectionLoss := false
  waitingForPong := false

def isConnected (connection : IrcConnection) : Bool := connection.socket = .connected

def smartReconnect (connection : IrcConnection) : IrcConnection × List Signal :=
  match connection.reconnectTimer with
  | some _ => (connection, [])
  | none =>
      let (delay, reconnectBackoff) := connection.reconnectBackoff.next
      ({ connection with reconnectBackoff, reconnectTimer := some delay }, [.reconnecting delay])

/-- A socket that is connecting or connected stays as it is. -/
def «open» (connection : IrcConnection) : IrcConnection × List Signal :=
  ({ connection with
      expectConnectionLoss := false
      waitingForPong := false
      recentlyReceivedMessage := false
      socket := if connection.socket = .unconnected then .connecting else connection.socket }, [.opened])

/-- The handler of socketStateChanged, when the socket has become unconnected. -/
def socketUnconnected (connection : IrcConnection) : IrcConnection × List Signal :=
  let connection := { connection with socket := .unconnected, pingTimer := false }
  if connection.expectConnectionLoss then (connection, []) else (connection, [.connectionLost false])

/-- The socket is closed at once. -/
def close (connection : IrcConnection) : IrcConnection × List Signal :=
  let connection := { connection with expectConnectionLoss := true }
  if connection.socket = .unconnected then (connection, []) else connection.socketUnconnected

def pingTimeout (connection : IrcConnection) (now : Int) : IrcConnection × List Signal :=
  if connection.isConnected then
    if connection.recentlyReceivedMessage then
      let elapsed := now - connection.lastPing
      ({ connection with recentlyReceivedMessage := false, waitingForPong := false, lastPing := now },
        if elapsed < 3 * 5000 then [.heartbeat] else [])
    else if connection.waitingForPong then
      let (connection, signals) := connection.close
      (connection, signals ++ [.connectionLost true])
    else ({ connection with waitingForPong := true }, [.sentPing])
  else (connection, [])

/-- The timer is a single shot. -/
def reconnectTimeout (connection : IrcConnection) : IrcConnection × List Signal :=
  let connection := { connection with reconnectTimer := none }
  if connection.isConnected then (connection, []) else connection.open

def connected (connection : IrcConnection) : IrcConnection :=
  { connection with socket := .connected, pingTimer := true }

/-- The handlers of pongMessageReceived and messageReceived. -/
def messageReceived (payload : QString) (connection : IrcConnection) (command argument : QString) :
    IrcConnection × List Signal :=
  let connection :=
    if command = qs "PONG" ∧ argument = payload then { connection with waitingForPong := false } else connection
  let connection := { connection with recentlyReceivedMessage := true }
  -- the message of the day
  if command = qs "372" then
    ({ connection with reconnectBackoff := connection.reconnectBackoff.reset }, [.received, .backoffReset])
  else (connection, [.received])

/-- The four things that the timer can do. -/
theorem pingTimeout_cases (connection : IrcConnection) (now : Int) :
    connection.socket ≠ .connected ∧ connection.pingTimeout now = (connection, []) ∨
      connection.socket = .connected ∧ connection.recentlyReceivedMessage = true ∧
        (∃ signals, (signals = [.heartbeat] ∨ signals = []) ∧ connection.pingTimeout now =
          ({ connection with recentlyReceivedMessage := false, waitingForPong := false, lastPing := now }, signals)) ∨
      connection.socket = .connected ∧ connection.recentlyReceivedMessage = false ∧
        connection.waitingForPong = true ∧ connection.pingTimeout now =
          ({ connection with expectConnectionLoss := true, socket := .unconnected, pingTimer := false },
            [.connectionLost true]) ∨
      connection.socket = .connected ∧ connection.recentlyReceivedMessage = false ∧
        connection.waitingForPong = false ∧
        connection.pingTimeout now = ({ connection with waitingForPong := true }, [.sentPing]) := by
  by_cases isConnected : connection.socket = .connected
  · cases recently : connection.recentlyReceivedMessage with
    | true =>
      refine .inr (.inl ⟨isConnected, rfl, _, ?_, by simp [pingTimeout, IrcConnection.isConnected, isConnected, recently]; rfl⟩)
      split
      · exact .inl rfl
      · exact .inr rfl
    | false =>
      cases waiting : connection.waitingForPong with
      | true =>
        refine .inr (.inr (.inl ⟨isConnected, rfl, rfl, ?_⟩))
        simp [pingTimeout, IrcConnection.isConnected, isConnected, recently, waiting, close, socketUnconnected]
      | false =>
        refine .inr (.inr (.inr ⟨isConnected, rfl, rfl, ?_⟩))
        simp [pingTimeout, IrcConnection.isConnected, isConnected, recently, waiting]
  · exact .inl ⟨isConnected, by simp [pingTimeout, IrcConnection.isConnected, isConnected]⟩

end IrcConnection

/-- A connection and its history. -/
structure Session where
  connection : IrcConnection
  history : List Signal
  deriving DecidableEq, Repr

namespace Session

/-- Opening and closing is up to the server that has the connection; connected, unconnected and
messageReceived come from the network. -/
inductive Event where
  | «open»
  | close
  | connected
  | unconnected
  | messageReceived (command argument : QString)
  | pingTimeout (now : Int)
  | reconnectTimeout
  deriving DecidableEq, Repr

def new (now : Int) : Session := ⟨.new now, []⟩

def did (session : Session) (result : IrcConnection × List Signal) : Session :=
  ⟨result.1, session.history ++ result.2⟩

/-- The server's handler of connectionLost, the same one for both of its connections. -/
def handleLoss (result : IrcConnection × List Signal) : IrcConnection × List Signal :=
  match result.2 with
  | [.connectionLost _] =>
      let (connection, signals) := result.1.smartReconnect
      (connection, result.2 ++ signals)
  | _ => result

def step (payload : QString) (session : Session) : Event → Option Session
  | .open => some (session.did session.connection.open)
  | .close => some (session.did session.connection.close)
  | .connected =>
      if session.connection.socket = .connecting then some (session.did (session.connection.connected, [])) else none
  | .unconnected =>
      if session.connection.socket ≠ .unconnected then
        some (session.did (handleLoss session.connection.socketUnconnected))
      else none
  | .messageReceived command argument =>
      if session.connection.socket ≠ .unconnected then
        some (session.did (session.connection.messageReceived payload command argument))
      else none
  | .pingTimeout now =>
      if session.connection.pingTimer then some (session.did (handleLoss (session.connection.pingTimeout now)))
      else none
  | .reconnectTimeout =>
      if session.connection.reconnectTimer.isSome then some (session.did session.connection.reconnectTimeout)
      else none

/-! ## What holds in every run -/

/-- Whether the server opened the connection last, or closed it. -/
def wants (wanted : Bool) : Event → Bool
  | .open => true
  | .close => false
  | _ => wanted

/-- The reconnects since the message of the day was received. -/
def attempts (history : List Signal) : Nat :=
  history.foldl (fun attempts signal => match signal with
    | .reconnecting _ => attempts + 1
    | .backoffReset => 0
    | _ => attempts) 0

/-- A PING was sent, and nothing was received since, on the same connection. -/
def awaiting (history : List Signal) : Bool :=
  history.foldl (fun awaiting signal => match signal with
    | .sentPing => true
    | .opened | .received => false
    | _ => awaiting) false

/-- What a signal owes to the signals before it. -/
def Suits (before : List Signal) : Signal → Prop
  | .reconnecting delay => delay = 1000 * 2 ^ min (attempts before) 4
  | .connectionLost true => awaiting before = true
  | _ => True

structure Sound (session : Session) : Prop where
  expected : session.connection.socket ≠ .unconnected → session.connection.expectConnectionLoss = false
  pinging : session.connection.socket = .connected → session.connection.pingTimer = true
  backoff : session.connection.reconnectBackoff = .asked 1000 (attempts session.history)
  delayed : ∀ delay ∈ session.connection.reconnectTimer, ∃ calls, delay = 1000 * 2 ^ min calls 4
  waiting : awaiting session.history =
    (session.connection.waitingForPong && !session.connection.recentlyReceivedMessage)
  suited : Throughout Suits session.history

variable {payload : QString} {session next : Session} {connection : IrcConnection}

theorem attempts_append (history signals : List Signal) :
    attempts (history ++ signals) = signals.foldl (fun attempts signal => match signal with
      | .reconnecting _ => attempts + 1
      | .backoffReset => 0
      | _ => attempts) (attempts history) :=
  List.foldl_append

theorem awaiting_append (history signals : List Signal) :
    awaiting (history ++ signals) = signals.foldl (fun awaiting signal => match signal with
      | .sentPing => true
      | .opened | .received => false
      | _ => awaiting) (awaiting history) :=
  List.foldl_append

theorem did_handleLoss (session : Session) (connection : IrcConnection) (timeout : Bool) :
    session.did (handleLoss (connection, [.connectionLost timeout])) =
      (session.did (connection, [.connectionLost timeout])).did connection.smartReconnect := by
  simp only [handleLoss, did, List.append_assoc]

theorem sound_new (now : Int) : Sound (new now) where
  expected := fun impossible => absurd rfl impossible
  pinging := fun _ => rfl
  backoff := ExponentialBackoff.new_eq_asked (by decide) 1000
  delayed := fun delay running => absurd running (Option.not_mem_none delay)
  waiting := rfl
  suited := throughout_nil

/-- Behind a loss the timer runs, whether it was started for it or ran already. -/
theorem Sound.smartReconnect (sound : session.Sound) :
    (session.did session.connection.smartReconnect).Sound ∧
      (session.did session.connection.smartReconnect).connection.socket = session.connection.socket ∧
      (session.did session.connection.smartReconnect).connection.reconnectTimer.isSome = true := by
  unfold IrcConnection.smartReconnect
  cases running : session.connection.reconnectTimer with
  | some delay =>
    have same : session.did (session.connection, []) = session := by
      rw [did, List.append_nil]
    rw [same, running]
    exact ⟨sound, rfl, rfl⟩
  | none =>
    have asked := @ExponentialBackoff.next_asked 5 (by decide) 1000 (attempts session.history)
    rw [← sound.backoff] at asked
    simp only [asked]
    refine ⟨?_, rfl, rfl⟩
    constructor
    case expected => exact sound.expected
    case pinging => exact sound.pinging
    case backoff => simp [did, attempts_append]
    case delayed => exact fun delay started => ⟨_, (Option.mem_some.mp started).symm⟩
    case waiting =>
      rw [did, awaiting_append]
      exact sound.waiting
    case suited => exact sound.suited.concat rfl

theorem Sound.opened (sound : session.Sound) :
    (session.did session.connection.open).Sound ∧
      (session.did session.connection.open).connection.socket ≠ .unconnected := by
  refine ⟨?_, ?_⟩
  · constructor
    case expected => exact fun _ => rfl
    case pinging =>
      intro isConnected
      apply sound.pinging
      unfold did IrcConnection.open at isConnected
      dsimp only at isConnected
      split at isConnected
      · cases isConnected
      · exact isConnected
    case backoff =>
      rw [did, attempts_append]
      exact sound.backoff
    case delayed => exact sound.delayed
    case waiting =>
      rw [did, awaiting_append]
      rfl
    case suited => exact sound.suited.concat trivial
  · unfold did IrcConnection.open
    dsimp only
    split
    · exact SocketState.noConfusion
    · next connecting => exact connecting

/-- A loss that was not expected starts the timer. -/
theorem Sound.lost (sound : session.Sound) {timeout : Bool} {connection : IrcConnection}
    (unconnected : connection.socket = .unconnected)
    (backoff : connection.reconnectBackoff = session.connection.reconnectBackoff)
    (timer : connection.reconnectTimer = session.connection.reconnectTimer)
    (flags : (connection.waitingForPong && !connection.recentlyReceivedMessage) =
      (session.connection.waitingForPong && !session.connection.recentlyReceivedMessage))
    (suits : Suits session.history (.connectionLost timeout)) :
    (session.did (handleLoss (connection, [.connectionLost timeout]))).Sound ∧
      (session.did (handleLoss (connection, [.connectionLost timeout]))).connection.socket = .unconnected ∧
      (session.did (handleLoss (connection, [.connectionLost timeout]))).connection.reconnectTimer.isSome = true := by
  have lost : (session.did (connection, [.connectionLost timeout])).Sound := by
    constructor
    case expected => exact fun connecting => absurd unconnected connecting
    case pinging =>
      intro isConnected
      rw [did, unconnected] at isConnected
      cases isConnected
    case backoff =>
      rw [did, attempts_append]
      exact backoff.trans sound.backoff
    case delayed =>
      rw [did, timer]
      exact sound.delayed
    case waiting =>
      rw [did, awaiting_append]
      exact sound.waiting.trans flags.symm
    case suited => exact sound.suited.concat suits
  obtain ⟨kept, socket, running⟩ := lost.smartReconnect
  rw [did_handleLoss]
  exact ⟨kept, socket.trans unconnected, running⟩

theorem Sound.closed (sound : session.Sound) : (session.did session.connection.close).Sound := by
  have kept : session.connection.close.2 = [] ∧ session.connection.close.1.socket = .unconnected ∧
      session.connection.close.1.reconnectBackoff = session.connection.reconnectBackoff ∧
      session.connection.close.1.reconnectTimer = session.connection.reconnectTimer ∧
      session.connection.close.1.waitingForPong = session.connection.waitingForPong ∧
      session.connection.close.1.recentlyReceivedMessage = session.connection.recentlyReceivedMessage := by
    unfold IrcConnection.close IrcConnection.socketUnconnected
    dsimp only
    split
    · next unconnected => exact ⟨rfl, unconnected, rfl, rfl, rfl, rfl⟩
    · exact ⟨rfl, rfl, rfl, rfl, rfl, rfl⟩
  obtain ⟨silent, unconnected, backoff, timer, pong, received⟩ := kept
  have same : session.did session.connection.close = ⟨session.connection.close.1, session.history⟩ := by
    rw [did, silent, List.append_nil]
  rw [same]
  constructor
  case expected => exact fun connecting => absurd unconnected connecting
  case pinging =>
    intro isConnected
    rw [unconnected] at isConnected
    cases isConnected
  case backoff => exact backoff.trans sound.backoff
  case delayed =>
    rw [timer]
    exact sound.delayed
  case waiting =>
    rw [pong, received]
    exact sound.waiting
  case suited => exact sound.suited

theorem Sound.received (sound : session.Sound) (payload command argument : QString) :
    (session.did (session.connection.messageReceived payload command argument)).Sound := by
  -- the branches leave the socket and the timers alone; the message of the day resets the backoff besides
  have keeps : ∀ connection : IrcConnection, connection.socket = session.connection.socket →
      connection.pingTimer = session.connection.pingTimer →
      connection.reconnectTimer = session.connection.reconnectTimer →
      connection.expectConnectionLoss = session.connection.expectConnectionLoss →
      connection.recentlyReceivedMessage = true → ∀ signals,
      signals = [] ∧ connection.reconnectBackoff = session.connection.reconnectBackoff ∨
        signals = [.backoffReset] ∧ connection.reconnectBackoff = session.connection.reconnectBackoff.reset →
      (session.did (connection, .received :: signals)).Sound := by
    intro connection socket pings timer expects recently signals either
    have waits : awaiting (session.history ++ .received :: signals) = false := by
      rw [awaiting_append]
      rcases either with ⟨rfl, _⟩ | ⟨rfl, _⟩ <;> rfl
    have asks : connection.reconnectBackoff = .asked 1000 (attempts (session.history ++ .received :: signals)) := by
      rw [attempts_append]
      rcases either with ⟨rfl, same⟩ | ⟨rfl, reset⟩
      · exact same.trans sound.backoff
      · rw [reset, sound.backoff]
        exact ExponentialBackoff.reset_asked (by decide) 1000 _
    constructor
    case expected =>
      rw [did, socket, expects]
      exact sound.expected
    case pinging =>
      rw [did, socket, pings]
      exact sound.pinging
    case backoff => exact asks
    case delayed =>
      rw [did, timer]
      exact sound.delayed
    case waiting =>
      rw [did, recently, Bool.not_true, Bool.and_false]
      exact waits
    case suited =>
      apply sound.suited.append
      intro before signal member
      rcases either with ⟨rfl, _⟩ | ⟨rfl, _⟩ <;> simp only [List.mem_cons, List.not_mem_nil, or_false] at member
      · subst member
        trivial
      · rcases member with rfl | rfl <;> trivial
  unfold IrcConnection.messageReceived
  dsimp only
  split <;> split <;> apply keeps <;> first | rfl | simp

theorem Sound.pinged (sound : session.Sound) (now : Int) :
    (session.did (handleLoss (session.connection.pingTimeout now))).Sound ∧
      ((session.did (handleLoss (session.connection.pingTimeout now))).connection.socket = .unconnected →
        session.connection.socket = .unconnected ∧
            (session.did (handleLoss (session.connection.pingTimeout now))).connection.reconnectTimer =
              session.connection.reconnectTimer ∨
          (session.did (handleLoss (session.connection.pingTimeout now))).connection.reconnectTimer.isSome = true) := by
  -- offline; something was heard; the pong is missing, and the connection is lost; a ping is sent
  rcases session.connection.pingTimeout_cases now with
    ⟨_, same⟩ | ⟨isConnected, recently, signals, either, same⟩ | ⟨_, recently, waiting, same⟩ |
      ⟨isConnected, recently, waiting, same⟩
  · have unchanged : session.did (session.connection, []) = session := by
      rw [did, List.append_nil]
    rw [same, handleLoss, unchanged]
    exact ⟨sound, fun unconnected => .inl ⟨unconnected, rfl⟩⟩
  · have handled : handleLoss (session.connection.pingTimeout now) = session.connection.pingTimeout now := by
      rw [same]
      rcases either with rfl | rfl <;> rfl
    rw [handled, same]
    refine ⟨?_, fun unconnected => ?_⟩
    · constructor
      case expected => exact sound.expected
      case pinging => exact sound.pinging
      case backoff =>
        rw [did, attempts_append]
        rcases either with rfl | rfl <;> exact sound.backoff
      case delayed => exact sound.delayed
      case waiting =>
        have waited := sound.waiting
        rw [recently, Bool.not_true, Bool.and_false] at waited
        rw [did, awaiting_append, waited]
        rcases either with rfl | rfl <;> rfl
      case suited =>
        apply sound.suited.append
        intro before signal member
        rcases either with rfl | rfl
        · rw [List.mem_singleton.mp member]
          trivial
        · cases member
    · rw [did, isConnected] at unconnected
      cases unconnected
  · have awaited : awaiting session.history = true := by
      rw [sound.waiting, recently, waiting]
      rfl
    rw [same]
    have lost := @Sound.lost session sound true { session.connection with
      expectConnectionLoss := true, socket := .unconnected, pingTimer := false } rfl rfl rfl rfl awaited
    exact ⟨lost.1, fun _ => .inr lost.2.2⟩
  · rw [same, handleLoss]
    refine ⟨?_, fun unconnected => ?_⟩
    · constructor
      case expected => exact sound.expected
      case pinging => exact sound.pinging
      case backoff =>
        rw [did, attempts_append]
        exact sound.backoff
      case delayed => exact sound.delayed
      case waiting =>
        rw [did, awaiting_append, recently]
        rfl
      case suited => exact sound.suited.concat trivial
    · rw [did, isConnected] at unconnected
      cases unconnected

/-- A connection that the server wants open is not given up. -/
def Pending (wanted : Bool) (session : Session) : Prop :=
  wanted = true → session.connection.socket = .unconnected → session.connection.reconnectTimer.isSome = true

theorem Sound.step {wanted : Bool} {e : Event} (sound : session.Sound) (pending : session.Pending wanted)
    (taken : Session.step payload session e = some next) : next.Sound ∧ next.Pending (wants wanted e) := by
  cases e with
  | «open» =>
    obtain rfl := Option.some.inj taken
    exact ⟨sound.opened.1, fun _ unconnected => absurd unconnected sound.opened.2⟩
  | close =>
    obtain rfl := Option.some.inj taken
    exact ⟨sound.closed, fun impossible => Bool.noConfusion impossible⟩
  | connected =>
    obtain ⟨connecting, same⟩ := Option.ite_none_right_eq_some.mp taken
    obtain rfl := Option.some.inj same
    refine ⟨?_, fun _ unconnected => SocketState.noConfusion unconnected⟩
    rw [did, List.append_nil]
    constructor
    case expected =>
      intro _
      exact sound.expected (by rw [connecting]; exact SocketState.noConfusion)
    case pinging => exact fun _ => rfl
    case backoff => exact sound.backoff
    case delayed => exact sound.delayed
    case waiting => exact sound.waiting
    case suited => exact sound.suited
  | unconnected =>
    obtain ⟨connecting, same⟩ := Option.ite_none_right_eq_some.mp taken
    obtain rfl := Option.some.inj same
    have unexpected : session.connection.socketUnconnected =
        ({ session.connection with socket := .unconnected, pingTimer := false }, [.connectionLost false]) := by
      rw [IrcConnection.socketUnconnected]
      simp [sound.expected connecting]
    rw [unexpected]
    have lost := @Sound.lost session sound false { session.connection with
      socket := .unconnected, pingTimer := false } rfl rfl rfl rfl trivial
    exact ⟨lost.1, fun _ _ => lost.2.2⟩
  | messageReceived command argument =>
    obtain ⟨connecting, same⟩ := Option.ite_none_right_eq_some.mp taken
    obtain rfl := Option.some.inj same
    refine ⟨sound.received payload command argument, fun _ unconnected => absurd ?_ connecting⟩
    unfold did IrcConnection.messageReceived at unconnected
    dsimp only at unconnected
    split at unconnected <;> split at unconnected <;> exact unconnected
  | pingTimeout now =>
    obtain ⟨-, same⟩ := Option.ite_none_right_eq_some.mp taken
    obtain rfl := Option.some.inj same
    obtain ⟨kept, still⟩ := sound.pinged now
    refine ⟨kept, fun isWanted unconnected => ?_⟩
    rcases still unconnected with ⟨before, timer⟩ | running
    · rw [timer]
      exact pending isWanted before
    · exact running
  | reconnectTimeout =>
    obtain ⟨-, same⟩ := Option.ite_none_right_eq_some.mp taken
    obtain rfl := Option.some.inj same
    have stopped : Sound ⟨{ session.connection with reconnectTimer := none }, session.history⟩ :=
      { sound with delayed := fun delay running => absurd running (Option.not_mem_none delay) }
    unfold IrcConnection.reconnectTimeout
    dsimp only
    split
    · next isConnected =>
      rw [did, List.append_nil]
      refine ⟨stopped, fun _ unconnected => ?_⟩
      have connected : session.connection.socket = .connected := of_decide_eq_true isConnected
      rw [connected] at unconnected
      cases unconnected
    · exact ⟨stopped.opened.1, fun _ unconnected => absurd unconnected stopped.opened.2⟩

theorem Sound.run {wanted : Bool} {events : List Event} {final : Session} (sound : session.Sound)
    (pending : session.Pending wanted) (ran : Foundation.run (Session.step payload) session events = some final) :
    final.Sound ∧ final.Pending (events.foldl wants wanted) := by
  induction events generalizing session wanted with
  | nil =>
    obtain rfl := Option.some.inj ran
    exact ⟨sound, pending⟩
  | cons e events ih =>
    obtain ⟨between, taken, rest⟩ := run_cons ran
    obtain ⟨kept, waits⟩ := sound.step pending taken
    exact ih kept waits rest

theorem handleLoss_socket (result : IrcConnection × List Signal) : (handleLoss result).1.socket = result.1.socket := by
  have kept : result.1.smartReconnect.1.socket = result.1.socket := by
    unfold IrcConnection.smartReconnect
    split <;> rfl
  unfold handleLoss
  split
  · exact kept
  · rfl

/-- Only the server's answer to the login makes a connection connected. -/
theorem connected_before {e : Event} (taken : Session.step payload session e = some next) (other : e ≠ .connected)
    (online : next.connection.isConnected = true) : session.connection.isConnected = true := by
  unfold IrcConnection.isConnected at online ⊢
  rw [decide_eq_true_iff] at online ⊢
  cases e with
  | «open» =>
    obtain rfl := Option.some.inj taken
    unfold did IrcConnection.open at online
    dsimp only at online
    split at online
    · cases online
    · exact online
  | close =>
    obtain rfl := Option.some.inj taken
    unfold did IrcConnection.close IrcConnection.socketUnconnected at online
    dsimp only at online
    split at online
    · exact online
    · split at online <;> cases online
  | connected => exact absurd rfl other
  | unconnected =>
    obtain ⟨-, same⟩ := Option.ite_none_right_eq_some.mp taken
    obtain rfl := Option.some.inj same
    rw [did, handleLoss_socket, IrcConnection.socketUnconnected] at online
    dsimp only at online
    split at online <;> cases online
  | messageReceived command argument =>
    obtain ⟨-, same⟩ := Option.ite_none_right_eq_some.mp taken
    obtain rfl := Option.some.inj same
    unfold did IrcConnection.messageReceived at online
    dsimp only at online
    split at online <;> split at online <;> exact online
  | pingTimeout now =>
    obtain ⟨-, same⟩ := Option.ite_none_right_eq_some.mp taken
    obtain rfl := Option.some.inj same
    rw [did, handleLoss_socket] at online
    -- only the first case can start offline, and it changes nothing
    rcases session.connection.pingTimeout_cases now with
      ⟨_, result⟩ | ⟨isConnected, _⟩ | ⟨isConnected, _⟩ | ⟨isConnected, _⟩
    · rw [result] at online
      exact online
    · exact isConnected
    · exact isConnected
    · exact isConnected
  | reconnectTimeout =>
    obtain ⟨-, same⟩ := Option.ite_none_right_eq_some.mp taken
    obtain rfl := Option.some.inj same
    -- opening leads to a socket that is connecting, not to one that is connected
    unfold did IrcConnection.reconnectTimeout IrcConnection.open at online
    dsimp only at online
    split at online
    · exact online
    · dsimp only at online
      split at online
      · cases online
      · exact online

theorem Sound.of_run {now : Int} {events : List Event} {final : Session}
    (ran : Foundation.run (Session.step payload) (new now) events = some final) :
    final.Sound ∧ final.Pending (events.foldl wants false) :=
  (sound_new now).run (fun impossible => Bool.noConfusion impossible) ran

/-! ## A connection is not given up -/

theorem delay_bounds (calls : Nat) : (1000 : Int) ≤ 1000 * 2 ^ min calls 4 ∧ 1000 * 2 ^ min calls 4 ≤ (16000 : Int) := by
  have capped : min calls 4 ≤ 4 := Nat.min_le_right calls 4
  generalize min calls 4 = exponent at capped
  interval_cases exponent <;> decide

/-- In every run, once the server has opened the connection and did not close it since, the socket is
connecting or connected, or the timer runs that opens it again, at the latest after sixteen seconds. -/
theorem reconnects (payload : QString) (now : Int) {events : List Event} {final : Session}
    (ran : Foundation.run (Session.step payload) (new now) events = some final)
    (wanted : events.foldl wants false = true) :
    final.connection.socket ≠ .unconnected ∨
      ∃ delay, final.connection.reconnectTimer = some delay ∧ 1000 ≤ delay ∧ delay ≤ 16000 ∧
        ∃ next, Session.step payload final .reconnectTimeout = some next ∧ next.connection.socket = .connecting := by
  obtain ⟨sound, pending⟩ := Sound.of_run ran
  by_cases unconnected : final.connection.socket = .unconnected
  · right
    have running := pending wanted unconnected
    obtain ⟨delay, started⟩ := Option.isSome_iff_exists.mp running
    obtain ⟨calls, rfl⟩ := sound.delayed delay started
    refine ⟨_, started, (delay_bounds calls).1, (delay_bounds calls).2, _, if_pos running, ?_⟩
    simp [did, IrcConnection.reconnectTimeout, IrcConnection.isConnected, IrcConnection.open, unconnected]
  · exact .inl unconnected

/-- A connection that could not be established is tried again after a second. -/
theorem reconnects_refused : ∃ final, Foundation.run (Session.step (qs "chatterino/")) (new 0) [.open, .unconnected] = some final ∧
    (final.connection.socket ≠ .unconnected ∨
      ∃ delay, final.connection.reconnectTimer = some delay ∧ 1000 ≤ delay ∧ delay ≤ 16000 ∧
        ∃ next, Session.step (qs "chatterino/") final .reconnectTimeout = some next ∧
          next.connection.socket = .connecting) := by
  obtain ⟨final, ran⟩ : ∃ final,
      Foundation.run (Session.step (qs "chatterino/")) (new 0) [.open, .unconnected] = some final := ⟨_, rfl⟩
  exact ⟨final, ran, reconnects (qs "chatterino/") 0 ran rfl⟩

/-- In every run the first reconnect after the message of the day waits for a second, and each further one
for twice as long as the one before it, up to sixteen seconds. -/
theorem delays_double (payload : QString) (now : Int) {events : List Event} {final : Session}
    (ran : Foundation.run (Session.step payload) (new now) events = some final)
    (before : List Signal) (delay : Int) (behind : List Signal)
    (started : final.history = before ++ .reconnecting delay :: behind) :
    delay = 1000 * 2 ^ min (attempts before) 4 :=
  (Sound.of_run ran).1.suited before (.reconnecting delay) behind started

theorem delays_double_refused : ∃ final,
    Foundation.run (Session.step (qs "chatterino/")) (new 0) [.open, .unconnected, .reconnectTimeout, .unconnected] =
      some final ∧ final.history = [.opened, .connectionLost false, .reconnecting 1000, .opened, .connectionLost false] ++
        [.reconnecting 2000] ∧
    (2000 : Int) = 1000 * 2 ^ min (attempts [.opened, .connectionLost false, .reconnecting 1000, .opened,
      .connectionLost false]) 4 := by
  obtain ⟨final, ran, same⟩ : ∃ final,
      Foundation.run (Session.step (qs "chatterino/")) (new 0) [.open, .unconnected, .reconnectTimeout, .unconnected] =
        some final ∧ final.history = [.opened, .connectionLost false, .reconnecting 1000, .opened,
          .connectionLost false] ++ [.reconnecting 2000] := ⟨_, rfl, rfl⟩
  exact ⟨final, ran, same, delays_double (qs "chatterino/") 0 ran _ 2000 [] same⟩

/-! ## Silence -/

section
variable (payload) (now : Int)

theorem ping_heard (pings : session.connection.pingTimer = true) (isConnected : session.connection.socket = .connected)
    (recently : session.connection.recentlyReceivedMessage = true) :
    ∃ next, Session.step payload session (.pingTimeout now) = some next ∧ next.connection.pingTimer = true ∧
      next.connection.socket = .connected ∧ next.connection.recentlyReceivedMessage = false ∧
      next.connection.waitingForPong = false := by
  refine ⟨_, if_pos pings, ?_⟩
  simp only [IrcConnection.pingTimeout, IrcConnection.isConnected, isConnected, recently, decide_true, if_true]
  split <;> exact ⟨pings, rfl, rfl, rfl⟩

theorem ping_quiet (pings : session.connection.pingTimer = true) (isConnected : session.connection.socket = .connected)
    (recently : session.connection.recentlyReceivedMessage = false)
    (waiting : session.connection.waitingForPong = false) :
    ∃ next, Session.step payload session (.pingTimeout now) = some next ∧ next.connection.pingTimer = true ∧
      next.connection.socket = .connected ∧ next.connection.recentlyReceivedMessage = false ∧
      next.connection.waitingForPong = true := by
  refine ⟨_, if_pos pings, ?_⟩
  simp [IrcConnection.pingTimeout, IrcConnection.isConnected, isConnected, recently, waiting, handleLoss, did, pings]

theorem Sound.ping_silent (sound : session.Sound) (pings : session.connection.pingTimer = true)
    (isConnected : session.connection.socket = .connected)
    (recently : session.connection.recentlyReceivedMessage = false)
    (waiting : session.connection.waitingForPong = true) :
    ∃ next, Session.step payload session (.pingTimeout now) = some next ∧ next.connection.socket = .unconnected ∧
      next.connection.reconnectTimer.isSome = true := by
  refine ⟨_, if_pos pings, ?_⟩
  have unconnected : (session.did (handleLoss (session.connection.pingTimeout now))).connection.socket = .unconnected := by
    rcases session.connection.pingTimeout_cases now with
      ⟨other, _⟩ | ⟨_, other, _⟩ | ⟨_, _, _, same⟩ | ⟨_, _, other, _⟩
    · exact absurd isConnected other
    · rw [recently] at other
      cases other
    · rw [same, did_handleLoss, did, IrcConnection.smartReconnect]
      split <;> rfl
    · rw [waiting] at other
      cases other
  refine ⟨unconnected, ?_⟩
  rcases (sound.pinged now).2 unconnected with ⟨before, _⟩ | running
  · rw [isConnected] at before
    cases before
  · exact running

/-- After a PING one more silent interval is enough. -/
theorem Sound.quiet (sound : session.Sound) (pings : session.connection.pingTimer = true)
    (isConnected : session.connection.socket = .connected)
    (recently : session.connection.recentlyReceivedMessage = false) (first second : Int) :
    ∃ ticks next, ticks <+: [first, second] ∧
      Foundation.run (Session.step payload) session (ticks.map Event.pingTimeout) = some next ∧
      next.connection.socket = .unconnected ∧ next.connection.reconnectTimer.isSome = true := by
  cases waiting : session.connection.waitingForPong with
  | true =>
    obtain ⟨closed, taken, lost⟩ := sound.ping_silent payload first pings isConnected recently waiting
    exact ⟨[first], closed, ⟨[second], rfl⟩, Option.bind_eq_some_iff.mpr ⟨closed, taken, rfl⟩, lost⟩
  | false =>
    obtain ⟨asked, taken, pings', isConnected', recently', waiting'⟩ :=
      ping_quiet payload first pings isConnected recently waiting
    have free : session.Pending false := by
      intro impossible
      cases impossible
    have kept := (sound.step free taken).1
    obtain ⟨closed, takenToo, lost⟩ := kept.ping_silent payload second pings' isConnected' recently' waiting'
    refine ⟨[first, second], closed, List.prefix_rfl, ?_, lost⟩
    exact Option.bind_eq_some_iff.mpr ⟨asked, taken, Option.bind_eq_some_iff.mpr ⟨closed, takenToo, rfl⟩⟩

end

/-- In every run a connection is taken for lost only if a PING was sent on it and nothing was received since;
and a connection on which nothing is received any more is closed when the timer has fired three times at the
latest, with a reconnect to follow. -/
theorem silence_is_noticed (payload : QString) (now : Int) {events : List Event} {final : Session}
    (ran : Foundation.run (Session.step payload) (new now) events = some final) :
    (∀ before behind, final.history = before ++ .connectionLost true :: behind → awaiting before = true) ∧
      (final.connection.socket = .connected → ∀ first second third,
        ∃ ticks next, ticks <+: [first, second, third] ∧
          Foundation.run (Session.step payload) final (ticks.map Event.pingTimeout) = some next ∧
          next.connection.socket = .unconnected ∧ next.connection.reconnectTimer.isSome = true) := by
  obtain ⟨sound, -⟩ := Sound.of_run ran
  refine ⟨fun before behind lost => sound.suited before (.connectionLost true) behind lost, ?_⟩
  intro isConnected first second third
  have pings := sound.pinging isConnected
  cases recently : final.connection.recentlyReceivedMessage with
  | false =>
    obtain ⟨ticks, next, early, rest⟩ := sound.quiet payload pings isConnected recently first second
    exact ⟨ticks, next, early.trans (List.prefix_append [first, second] [third]), rest⟩
  | true =>
    -- what was received before the first interval is forgotten
    obtain ⟨heard, taken, pings', isConnected', recently', -⟩ :=
      ping_heard payload first pings isConnected recently
    have free : final.Pending false := by
      intro impossible
      cases impossible
    have kept := (sound.step free taken).1
    obtain ⟨ticks, next, early, ranOn, lost⟩ := kept.quiet payload pings' isConnected' recently' second third
    exact ⟨first :: ticks, next, List.cons_prefix_cons.mpr ⟨rfl, early⟩,
      Option.bind_eq_some_iff.mpr ⟨heard, taken, ranOn⟩, lost⟩

theorem silence_is_noticed_ping : ∃ final,
    Foundation.run (Session.step (qs "chatterino/")) (new 0)
        [.open, .connected, .pingTimeout 5000, .pingTimeout 10000] = some final ∧
      final.history = [.opened, .sentPing] ++ [.connectionLost true, .reconnecting 1000] ∧
      awaiting [.opened, .sentPing] = true := by
  obtain ⟨final, ran, same⟩ : ∃ final,
      Foundation.run (Session.step (qs "chatterino/")) (new 0)
        [.open, .connected, .pingTimeout 5000, .pingTimeout 10000] = some final ∧
      final.history = [.opened, .sentPing] ++ [.connectionLost true, .reconnecting 1000] := ⟨_, rfl, rfl⟩
  exact ⟨final, ran, same, (silence_is_noticed (qs "chatterino/") 0 ran).1 _ _ same⟩

end Session

end Forserino.Irc
