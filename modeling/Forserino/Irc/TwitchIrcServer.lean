import Forserino.Foundation.NamedMap
import Forserino.Irc.IrcConnection
import Forserino.Util.RatelimitBucket
import Forserino.Windows.Channels

/-! The channels of the Twitch server: the objects that are handed out for a name, and the commands
that keep the IRC server informed of them, over any order of lost and new connections.

A channel object is numbered when it is made, and alive until its last owner gives it up. Names are
joined through a rate limit, which may pass them on long after they were asked for.
-/

set_option autoImplicit false

namespace Forserino.Irc

open Foundation Qt Util Windows

def JOIN_RATELIMIT_BUDGET : Int := 18

def JOIN_RATELIMIT_COOLDOWN : Int := 12500

/-- What is handed out for a name. -/
inductive ChannelPtr where
  | custom (channelName : QString)
  | twitch (object : Nat)
  deriving DecidableEq, Repr

structure TwitchIrcServer where
  readConnection : Session
  channels : NamedMap QString Nat
  /-- The objects that are alive, with the names they were created with. -/
  alive : List (Nat × QString)
  made : Nat
  joinBucket : RatelimitBucket
  clock : Int
  /-- The channels the IRC server lets this connection take part in. -/
  joined : List QString
  /-- The JOIN commands that were sent, and when. -/
  joins : List (QString × Int)

namespace TwitchIrcServer

def new (now : Int) : TwitchIrcServer :=
  ⟨.new now, ∅, [], 0, .new JOIN_RATELIMIT_BUDGET, now, [], []⟩

def isConnected (server : TwitchIrcServer) : Bool := server.readConnection.connection.isConnected

/-- weak_ptr::lock -/
def lock (server : TwitchIrcServer) (object : Nat) : Option QString :=
  (server.alive.find? fun entry => entry.1 == object).map Prod.snd

/-- A command on a connection that is not connected has no effect. -/
def sendJoin (server : TwitchIrcServer) (channelName : QString) (now : Int) : TwitchIrcServer :=
  if server.isConnected then
    { server with joined := channelName :: server.joined, joins := server.joins ++ [(channelName, now)] }
  else server

def sendPart (server : TwitchIrcServer) (channelName : QString) : TwitchIrcServer :=
  if server.isConnected then { server with joined := server.joined.filter (· ≠ channelName) } else server

def actuallyJoin (server : TwitchIrcServer) (call : QString × Int) : TwitchIrcServer :=
  match server.channels.lookup call.1 with
  | some _ => server.sendJoin call.1 call.2
  | none => server

/-- The bucket has called its callback for the channels that it has passed on. -/
def served (server : TwitchIrcServer) (joinBucket : RatelimitBucket) : TwitchIrcServer :=
  (joinBucket.calls.drop server.joinBucket.calls.length).foldl actuallyJoin { server with joinBucket }

def join (server : TwitchIrcServer) (channelName : QString) (now : Int) : TwitchIrcServer :=
  server.served (server.joinBucket.send channelName now)

def find (server : TwitchIrcServer) (channelName : QString) : Option ChannelPtr :=
  match server.channels.lookup channelName with
  | some object => (server.lock object).map fun _ => .twitch object
  | none => none

section
variable (toLower : QString → QString)

def getChannelOrEmpty (server : TwitchIrcServer) (dirtyChannelName : QString) : Option ChannelPtr :=
  let channelName := cleanChannelName toLower dirtyChannelName
  if (Windows.TwitchIrcServer.getCustomChannel channelName).isSome then some (.custom channelName)
  else server.find channelName

/-- createChannel, and what is done with the channel that it has made. -/
def createChannel (server : TwitchIrcServer) (channelName : QString) : TwitchIrcServer :=
  { server with
    alive := server.alive ++ [(server.made, channelName)]
    made := server.made + 1
    channels := server.channels.insert channelName server.made }

def getOrAddChannel (server : TwitchIrcServer) (dirtyChannelName : QString) (now : Int) : TwitchIrcServer × ChannelPtr :=
  let channelName := cleanChannelName toLower dirtyChannelName
  -- the name is cleaned once more in there
  match server.getChannelOrEmpty toLower channelName with
  | some chan => (server, chan)
  | none =>
      let created := server.createChannel channelName
      (if created.isConnected then created.join channelName now else created, .twitch server.made)

end

/-- The handler of the signal that an object sends when it is destroyed. -/
def destroyed (server : TwitchIrcServer) (object : Nat) (channelName : QString) : TwitchIrcServer :=
  let server := { server with alive := server.alive.filter fun entry => entry.1 ≠ object }
  let server := { server with channels := server.channels.erase channelName }
  server.sendPart channelName

/-- The part of onReadConnected that joins the channels, those that are visible first. -/
def onReadConnected (server : TwitchIrcServer) (visible : List QString) (now : Int) : TwitchIrcServer :=
  let activeChannels := server.channels.entries.filterMap fun entry => server.lock entry.2
  let (first, others) := activeChannels.partition fun name => visible.contains name
  (first ++ others).foldl (fun server name => server.join name now) server

/-- The visible channels of a read event are those when it happens. -/
inductive Event where
  | getOrAddChannel (dirtyChannelName : QString) (now : Int)
  | destroyed (object : Nat)
  | read (e : Session.Event) (visible : List QString) (now : Int)
  | joinTimer (started now : Int)
  deriving DecidableEq, Repr

def Event.now (clock : Int) : Event → Int
  | .getOrAddChannel _ now => now
  | .destroyed _ => clock
  | .read _ _ now => now
  | .joinTimer _ now => now

/-- A read connection that is lost takes along what the IRC server knew of it. -/
def react (toLower : QString → QString) (payload : QString) (server : TwitchIrcServer) :
    Event → Option TwitchIrcServer
  | .getOrAddChannel dirtyChannelName now => some (server.getOrAddChannel toLower dirtyChannelName now).1
  | .destroyed object => (server.lock object).map fun channelName => server.destroyed object channelName
  | .read e visible now =>
      (Session.step payload server.readConnection e).map fun readConnection =>
        let server := { server with readConnection }
        if e = .connected then server.onReadConnected visible now
        else if server.isConnected then server
        else { server with joined := [] }
  | .joinTimer started now =>
      if started ∈ server.joinBucket.timers ∧ started + JOIN_RATELIMIT_COOLDOWN ≤ now then
        some (server.served (server.joinBucket.timeout started now))
      else none

/-- Time does not go back. -/
def step (toLower : QString → QString) (payload : QString) (server : TwitchIrcServer) (e : Event) :
    Option TwitchIrcServer :=
  if server.clock ≤ e.now server.clock then
    react toLower payload { server with clock := e.now server.clock } e
  else none

/-! ## What the bucket passes on -/

/-- The calls that are joined. -/
def admitted (server : TwitchIrcServer) (calls : List (QString × Int)) : List (QString × Int) :=
  if server.isConnected then calls.filter fun call => (server.channels.lookup call.1).isSome else []

theorem mem_admitted {server : TwitchIrcServer} {calls : List (QString × Int)} {call : QString × Int} :
    call ∈ server.admitted calls ↔
      server.isConnected = true ∧ call ∈ calls ∧ (server.channels.lookup call.1).isSome = true := by
  unfold admitted
  split
  · next isConnected => rw [List.mem_filter, isConnected, eq_self_iff_true, true_and]
  · next isConnected => simp [isConnected]

theorem admitted_sublist (server : TwitchIrcServer) (calls : List (QString × Int)) :
    (server.admitted calls).Sublist calls := by
  unfold admitted
  split
  · exact List.filter_sublist
  · exact List.nil_sublist calls

theorem foldl_actuallyJoin (server : TwitchIrcServer) (calls : List (QString × Int)) :
    calls.foldl actuallyJoin server = { server with
      joined := ((server.admitted calls).map Prod.fst).reverse ++ server.joined
      joins := server.joins ++ server.admitted calls } := by
  induction calls generalizing server with
  | nil => simp [admitted]
  | cons call calls ih =>
    -- the channels and the connection stay, so the rest is admitted as before the first call
    rw [List.foldl_cons, ih]
    cases known : server.channels.lookup call.1 with
    | none =>
      have same : server.actuallyJoin call = server := by rw [actuallyJoin, known]
      rw [same]
      simp [admitted, known]
    | some object =>
      cases online : server.isConnected with
      | false =>
        have same : server.actuallyJoin call = server := by
          rw [actuallyJoin, known]
          simp [sendJoin, online]
        rw [same]
        simp [admitted, online]
      | true =>
        have joins : server.actuallyJoin call =
            { server with joined := call.1 :: server.joined, joins := server.joins ++ [call] } := by
          rw [actuallyJoin, known]
          simp [sendJoin, online]
        have unmoved : admitted { server with joined := call.1 :: server.joined, joins := server.joins ++ [call] } calls =
            server.admitted calls := rfl
        have first : server.admitted (call :: calls) = call :: server.admitted calls := by
          simp [admitted, online, known]
        rw [joins, unmoved, first]
        simp

theorem handleOne_passes (bucket : RatelimitBucket) (now : Int) :
    ∃ items : List QString, (bucket.handleOne now).calls = bucket.calls ++ items.map (·, now) ∧
      bucket.queue = items ++ (bucket.handleOne now).queue := by
  unfold RatelimitBucket.handleOne
  cases waiting : bucket.queue with
  | nil => exact ⟨[], by simp, by simp [waiting]⟩
  | cons item queue => exact ⟨[item], rfl, rfl⟩

theorem send_passes (bucket : RatelimitBucket) (channelName : QString) (now : Int) :
    ∃ items : List QString, (bucket.send channelName now).calls = bucket.calls ++ items.map (·, now) ∧
      bucket.queue ++ [channelName] = items ++ (bucket.send channelName now).queue := by
  unfold RatelimitBucket.send
  dsimp only
  split
  · exact handleOne_passes { bucket with queue := bucket.queue ++ [channelName] } now
  · exact ⟨[], by simp, rfl⟩

/-! ## What holds of the channels -/

structure Sound (toLower : QString → QString) (server : TwitchIrcServer) : Prop where
  clean : ∀ entry ∈ server.alive, cleanChannelName toLower entry.2 = entry.2 ∧
    Windows.TwitchIrcServer.getCustomChannel entry.2 = none
  numbered : ∀ entry ∈ server.alive, entry.1 < server.made
  distinct : (server.alive.map Prod.fst).Nodup
  kept : ∀ object channelName, server.channels.lookup channelName = some object ↔ (object, channelName) ∈ server.alive
  orderly : ∃ sent, RatelimitBucket.Orderly JOIN_RATELIMIT_BUDGET JOIN_RATELIMIT_COOLDOWN sent
    ⟨server.joinBucket, server.clock⟩
  waiting : server.joinBucket.Waiting
  offline : server.isConnected = false → server.joined = []
  members : ∀ channelName ∈ server.joined, ∃ object, (object, channelName) ∈ server.alive
  limited : server.joins.Sublist server.joinBucket.calls

/-- The channel is joined, or will be when its turn has come. -/
def Covered (server : TwitchIrcServer) (channelName : QString) : Prop :=
  channelName ∈ server.joined ∨ channelName ∈ server.joinBucket.queue

def Covering (server : TwitchIrcServer) : Prop :=
  server.isConnected = true → ∀ entry ∈ server.alive, server.Covered entry.2

section
variable {toLower : QString → QString} {server : TwitchIrcServer}

theorem Sound.lock_iff (sound : Sound toLower server) {object : Nat} {channelName : QString} :
    server.lock object = some channelName ↔ (object, channelName) ∈ server.alive := by
  unfold lock
  constructor
  · intro found
    obtain ⟨entry, first, rfl⟩ := Option.map_eq_some_iff.mp found
    have same : entry.1 = object := by simpa using List.find?_some first
    rw [← same]
    exact List.mem_of_find?_eq_some first
  · intro inside
    have found : (server.alive.find? fun entry => entry.1 == object).isSome := by
      rw [List.find?_isSome]
      exact ⟨_, inside, beq_self_eq_true object⟩
    obtain ⟨entry, first⟩ := Option.isSome_iff_exists.mp found
    have same : entry.1 = object := by simpa using List.find?_some first
    have unique := List.inj_on_of_nodup_map sound.distinct (List.mem_of_find?_eq_some first) inside same
    rw [first, unique]
    rfl

/-- One name, one object. -/
theorem Sound.object_unique (sound : Sound toLower server) {object other : Nat} {channelName : QString}
    (first : (object, channelName) ∈ server.alive) (second : (other, channelName) ∈ server.alive) : object = other := by
  have found := (sound.kept object channelName).mpr first
  rw [(sound.kept other channelName).mpr second] at found
  exact (Option.some.inj found).symm

variable {joinBucket : RatelimitBucket} {items added : List QString} {now : Int}

/-- A bucket that has passed on the items. -/
structure Passed (server : TwitchIrcServer) (added items : List QString) (now : Int) (joinBucket : RatelimitBucket) :
    Prop where
  calls : joinBucket.calls = server.joinBucket.calls ++ items.map (·, now)
  queue : server.joinBucket.queue ++ added = items ++ joinBucket.queue
  orderly : ∃ sent, RatelimitBucket.Orderly JOIN_RATELIMIT_BUDGET JOIN_RATELIMIT_COOLDOWN sent ⟨joinBucket, server.clock⟩
  waiting : joinBucket.Waiting

theorem Passed.served_eq (passed : server.Passed added items now joinBucket) :
    server.served joinBucket = { server with
      joinBucket
      joined := ((server.admitted (items.map (·, now))).map Prod.fst).reverse ++ server.joined
      joins := server.joins ++ server.admitted (items.map (·, now)) } := by
  rw [served, passed.calls, List.drop_left, foldl_actuallyJoin]
  rfl

theorem Passed.sound (passed : server.Passed added items now joinBucket) (sound : Sound toLower server) :
    Sound toLower (server.served joinBucket) := by
  rw [passed.served_eq]
  constructor
  case clean => exact sound.clean
  case numbered => exact sound.numbered
  case distinct => exact sound.distinct
  case kept => exact sound.kept
  case orderly => exact passed.orderly
  case waiting => exact passed.waiting
  case offline =>
    intro offline
    have unconnected : server.isConnected = false := offline
    simp [admitted, unconnected, sound.offline unconnected]
  case members =>
    intro channelName inside
    rcases List.mem_append.mp inside with fresh | old
    · obtain ⟨call, admits, rfl⟩ := List.mem_map.mp (List.mem_reverse.mp fresh)
      obtain ⟨object, found⟩ := Option.isSome_iff_exists.mp (mem_admitted.mp admits).2.2
      exact ⟨object, (sound.kept object call.1).mp found⟩
    · exact sound.members channelName old
  case limited =>
    rw [passed.calls]
    exact sound.limited.append (admitted_sublist server _)

/-- What is taken from the queue of a connected server is joined. -/
theorem Passed.covered (passed : server.Passed added items now joinBucket) (isConnected : server.isConnected = true)
    {channelName : QString} (known : (server.channels.lookup channelName).isSome = true)
    (before : server.Covered channelName ∨ channelName ∈ added) : (server.served joinBucket).Covered channelName := by
  rw [passed.served_eq]
  have waited : channelName ∈ server.joinBucket.queue ++ added →
      channelName ∈ ((server.admitted (items.map (·, now))).map Prod.fst).reverse ++ server.joined ∨
        channelName ∈ joinBucket.queue := by
    rw [passed.queue, List.mem_append]
    rintro (passes | waits)
    · left
      apply List.mem_append_left
      rw [List.mem_reverse, List.mem_map]
      refine ⟨(channelName, now), mem_admitted.mpr ⟨isConnected, List.mem_map_of_mem passes, known⟩, rfl⟩
    · exact .inr waits
  rcases before with (joined | waits) | fresh
  · exact .inl (List.mem_append_right _ joined)
  · exact waited (List.mem_append_left _ waits)
  · exact waited (List.mem_append_right _ fresh)

theorem Passed.covering (passed : server.Passed added items now joinBucket) (sound : Sound toLower server)
    (covering : server.Covering) : (server.served joinBucket).Covering := by
  have served := passed.served_eq
  intro online entry living
  have before : server.isConnected = true ∧ entry ∈ server.alive := by
    rw [served] at online living
    exact ⟨online, living⟩
  exact passed.covered before.1 (Option.isSome_of_eq_some ((sound.kept entry.1 entry.2).mpr before.2))
    (.inl (covering before.1 entry before.2))

theorem Sound.send_passed (sound : Sound toLower server) (channelName : QString) :
    ∃ items, server.Passed [channelName] items server.clock (server.joinBucket.send channelName server.clock) := by
  obtain ⟨items, calls, queue⟩ := send_passes server.joinBucket channelName server.clock
  obtain ⟨sent, orderly⟩ := sound.orderly
  obtain ⟨kept, waits⟩ := orderly.step (e := .send channelName server.clock) sound.waiting (if_pos (le_refl server.clock))
  exact ⟨items, calls, queue, ⟨_, kept⟩, waits⟩

theorem Sound.timeout_passed (sound : Sound toLower server) {started : Int}
    (outstanding : started ∈ server.joinBucket.timers) (past : started + JOIN_RATELIMIT_COOLDOWN ≤ server.clock) :
    ∃ items, server.Passed [] items server.clock (server.joinBucket.timeout started server.clock) := by
  obtain ⟨items, calls, queue⟩ := handleOne_passes
    { server.joinBucket with budget := server.joinBucket.budget + 1, timers := server.joinBucket.timers.erase started }
    server.clock
  obtain ⟨sent, orderly⟩ := sound.orderly
  obtain ⟨kept, waits⟩ := orderly.step (e := .timeout started server.clock) sound.waiting
    (if_pos ⟨le_refl server.clock, outstanding, past⟩)
  exact ⟨items, calls, by rw [List.append_nil]; exact queue, ⟨_, kept⟩, waits⟩

theorem served_keeps (server : TwitchIrcServer) (joinBucket : RatelimitBucket) :
    ∃ joined joins, server.served joinBucket = { server with joinBucket, joined, joins } :=
  ⟨_, _, foldl_actuallyJoin _ _⟩

theorem Sound.clocked (sound : Sound toLower server) (later : server.clock ≤ now) :
    Sound toLower { server with clock := now } :=
  { sound with orderly := sound.orderly.imp fun _ orderly => orderly.later later }

/-- What asking the bucket for names leads to. -/
structure Joins (toLower : QString → QString) (server : TwitchIrcServer) (names : List QString) (next : TwitchIrcServer) :
    Prop where
  sound : Sound toLower next
  keeps : ∃ joinBucket joined joins, next = { server with joinBucket, joined, joins }
  covers : server.isConnected = true → ∀ channelName, (server.channels.lookup channelName).isSome = true →
    server.Covered channelName ∨ channelName ∈ names → next.Covered channelName

theorem Sound.join (sound : Sound toLower server) (current : server.clock = now) (channelName : QString) :
    Joins toLower server [channelName] (server.join channelName now) := by
  subst current
  obtain ⟨items, passed⟩ := sound.send_passed channelName
  obtain ⟨joined, joins, same⟩ := served_keeps server (server.joinBucket.send channelName server.clock)
  exact ⟨passed.sound sound, ⟨_, joined, joins, same⟩, fun online _ known before => passed.covered online known before⟩

theorem Sound.join_all (sound : Sound toLower server) (current : server.clock = now) (names : List QString) :
    Joins toLower server names (names.foldl (fun server name => server.join name now) server) := by
  induction names generalizing server with
  | nil => exact ⟨sound, ⟨_, _, _, rfl⟩, fun _ _ _ before => before.resolve_right List.not_mem_nil⟩
  | cons name names ih =>
    have first := sound.join current name
    obtain ⟨joinBucket, joined, joins, same⟩ := first.keeps
    have others := ih first.sound (by rw [same]; exact current)
    rw [List.foldl_cons]
    refine ⟨others.sound, ?_, ?_⟩
    · obtain ⟨_, _, _, sameToo⟩ := others.keeps
      rw [sameToo, same]
      exact ⟨_, _, _, rfl⟩
    · intro online channelName known before
      have onlineToo : (server.join name now).isConnected = true := by
        rw [same]
        exact online
      have knownToo : ((server.join name now).channels.lookup channelName).isSome = true := by
        rw [same]
        exact known
      -- what the first join covers stays covered while the others are asked for
      apply others.covers onlineToo channelName knownToo
      rcases before with covered | listed
      · exact .inl (first.covers online channelName known (.inl covered))
      · rcases List.mem_cons.mp listed with rfl | later
        · exact .inl (first.covers online channelName known (.inr List.mem_cons_self))
        · exact .inr later

/-- The object under a name that needs no cleaning is found, if there is one. -/
theorem Sound.getChannelOrEmpty (sound : Sound toLower server) {channelName : QString}
    (clean : cleanChannelName toLower channelName = channelName)
    (plain : Windows.TwitchIrcServer.getCustomChannel channelName = none) (object : Nat) :
    server.getChannelOrEmpty toLower channelName = some (.twitch object) ↔ (object, channelName) ∈ server.alive := by
  have found : server.getChannelOrEmpty toLower channelName = server.find channelName := by
    unfold TwitchIrcServer.getChannelOrEmpty
    dsimp only
    rw [clean, plain]
    rfl
  rw [found, find]
  cases known : server.channels.lookup channelName with
  | none =>
    constructor
    · intro impossible
      cases impossible
    · intro inside
      rw [(sound.kept object channelName).mpr inside] at known
      cases known
  | some held =>
    have inside := (sound.kept held channelName).mp known
    simp only [sound.lock_iff.mpr inside, Option.map_some, Option.some.injEq, ChannelPtr.twitch.injEq]
    constructor
    · rintro rfl
      exact inside
    · exact sound.object_unique inside

theorem Sound.getChannelOrEmpty_none (sound : Sound toLower server) {channelName : QString}
    (clean : cleanChannelName toLower channelName = channelName)
    (missing : server.getChannelOrEmpty toLower channelName = none) :
    Windows.TwitchIrcServer.getCustomChannel channelName = none ∧ ∀ object, (object, channelName) ∉ server.alive := by
  have plain : Windows.TwitchIrcServer.getCustomChannel channelName = none := by
    cases custom : Windows.TwitchIrcServer.getCustomChannel channelName with
    | none => rfl
    | some chan => simp [TwitchIrcServer.getChannelOrEmpty, clean, custom] at missing
  refine ⟨plain, fun object inside => ?_⟩
  rw [(sound.getChannelOrEmpty clean plain object).mpr inside] at missing
  cases missing

/-! ## One event after the other -/

/-- A name that is clean once it was cleaned. -/
def Stable (toLower : QString → QString) (dirtyChannelName : QString) : Prop :=
  cleanChannelName toLower (cleanChannelName toLower dirtyChannelName) = cleanChannelName toLower dirtyChannelName

/-- The object that is made for a name of which there is none. -/
theorem Sound.created (sound : Sound toLower server) {channelName : QString}
    (clean : cleanChannelName toLower channelName = channelName)
    (plain : Windows.TwitchIrcServer.getCustomChannel channelName = none)
    (absent : ∀ object, (object, channelName) ∉ server.alive) :
    Sound toLower (server.createChannel channelName) := by
  constructor
  case clean =>
    intro entry inside
    rcases List.mem_append.mp inside with old | last
    · exact sound.clean entry old
    · rw [List.mem_singleton.mp last]
      exact ⟨clean, plain⟩
  case numbered =>
    intro entry inside
    rcases List.mem_append.mp inside with old | last
    · exact Nat.lt_succ_of_lt (sound.numbered entry old)
    · rw [List.mem_singleton.mp last]
      exact Nat.lt_succ_self server.made
  case distinct =>
    rw [createChannel, List.map_append, List.nodup_append]
    refine ⟨sound.distinct, List.nodup_singleton _, ?_⟩
    intro object old last isLast same
    -- numbers are given out once
    obtain ⟨entry, inside, rfl⟩ := List.mem_map.mp old
    have smaller := sound.numbered entry inside
    rw [same, List.mem_singleton.mp isLast] at smaller
    exact Nat.lt_irrefl _ smaller
  case kept =>
    intro object name
    rw [createChannel]
    dsimp only
    rw [List.mem_append, List.mem_singleton, Prod.mk.injEq]
    -- an old entry under the same name would be of an object that is dead
    by_cases same : name = channelName
    · rw [same, AList.lookup_insert, Option.some.injEq]
      constructor
      · rintro rfl
        exact .inr ⟨rfl, rfl⟩
      · rintro (old | ⟨rfl, _⟩)
        · exact absurd old (absent object)
        · rfl
    · rw [AList.lookup_insert_ne same, sound.kept object name]
      constructor
      · exact .inl
      · rintro (old | ⟨_, equal⟩)
        · exact old
        · exact absurd equal same
  case orderly => exact sound.orderly
  case waiting => exact sound.waiting
  case offline => exact sound.offline
  case members =>
    intro name joined
    obtain ⟨object, inside⟩ := sound.members name joined
    exact ⟨object, List.mem_append_left _ inside⟩
  case limited => exact sound.limited

theorem mem_destroyed_alive {object : Nat} {channelName : QString} {entry : Nat × QString} :
    entry ∈ (server.destroyed object channelName).alive ↔ entry ∈ server.alive ∧ entry.1 ≠ object := by
  have same : (server.destroyed object channelName).alive = server.alive.filter fun entry => entry.1 ≠ object := by
    unfold TwitchIrcServer.destroyed sendPart
    dsimp only
    split <;> rfl
  rw [same, List.mem_filter, decide_eq_true_iff]

theorem mem_destroyed_joined {object : Nat} {channelName name : QString} (sound : Sound toLower server) :
    name ∈ (server.destroyed object channelName).joined ↔ name ∈ server.joined ∧ name ≠ channelName := by
  unfold TwitchIrcServer.destroyed sendPart
  dsimp only
  split
  · rw [List.mem_filter, decide_eq_true_iff]
  · next offline =>
    have empty := sound.offline (Bool.eq_false_iff.mpr offline)
    rw [empty]
    simp

theorem destroyed_keeps (server : TwitchIrcServer) (object : Nat) (channelName : QString) :
    ∃ joined, server.destroyed object channelName = { server with
      alive := server.alive.filter fun entry => entry.1 ≠ object
      channels := server.channels.erase channelName
      joined } := by
  unfold TwitchIrcServer.destroyed sendPart
  dsimp only
  split
  · exact ⟨_, rfl⟩
  · exact ⟨server.joined, rfl⟩

theorem Sound.destroyed (sound : Sound toLower server) {object : Nat} {channelName : QString}
    (inside : (object, channelName) ∈ server.alive) : Sound toLower (server.destroyed object channelName) := by
  have alive : ∀ entry ∈ (server.destroyed object channelName).alive, entry ∈ server.alive :=
    fun entry still => (mem_destroyed_alive.mp still).1
  -- no other object has the name, and the object has no other name
  have other : ∀ entry ∈ server.alive, entry.1 = object ↔ entry.2 = channelName := by
    intro entry living
    constructor
    · intro same
      exact congrArg Prod.snd (List.inj_on_of_nodup_map sound.distinct living inside same)
    · rintro rfl
      exact sound.object_unique living inside
  have members : ∀ name ∈ (server.destroyed object channelName).joined,
      ∃ object', (object', name) ∈ (server.destroyed object channelName).alive := by
    intro name joined
    obtain ⟨before, differs⟩ := (mem_destroyed_joined sound).mp joined
    obtain ⟨object', living⟩ := sound.members name before
    exact ⟨object', mem_destroyed_alive.mpr ⟨living, fun same => differs ((other _ living).mp same)⟩⟩
  have offline : server.isConnected = false → (server.destroyed object channelName).joined = [] := by
    intro unconnected
    apply List.eq_nil_iff_forall_not_mem.mpr
    intro name joined
    have before := ((mem_destroyed_joined sound).mp joined).1
    rw [sound.offline unconnected] at before
    cases before
  obtain ⟨joined, same⟩ := destroyed_keeps server object channelName
  rw [same] at alive members offline ⊢
  constructor
  case clean => exact fun entry still => sound.clean entry (alive entry still)
  case numbered => exact fun entry still => sound.numbered entry (alive entry still)
  case distinct => exact sound.distinct.sublist (List.filter_sublist.map Prod.fst)
  case kept =>
    intro object' name
    rw [NamedMap.lookup_erase, List.mem_filter, decide_eq_true_iff]
    split
    · next here =>
      constructor
      · intro impossible
        cases impossible
      · rintro ⟨living, differs⟩
        exact absurd ((other _ living).mpr here) differs
    · next there =>
      rw [sound.kept object' name]
      exact ⟨fun living => ⟨living, fun same => there ((other _ living).mp same)⟩, And.left⟩
  case orderly => exact sound.orderly
  case waiting => exact sound.waiting
  case offline => exact offline
  case members => exact members
  case limited => exact sound.limited

/-- What is covered stays covered when another channel goes. -/
theorem Sound.destroyed_covering (sound : Sound toLower server) (covering : server.Covering) {object : Nat}
    {channelName : QString} (inside : (object, channelName) ∈ server.alive) :
    (server.destroyed object channelName).Covering := by
  intro online entry still
  obtain ⟨living, differs⟩ := mem_destroyed_alive.mp still
  obtain ⟨joined, same⟩ := destroyed_keeps server object channelName
  have onlineBefore : server.isConnected = true := by
    rw [same] at online
    exact online
  rcases covering onlineBefore entry living with isJoined | waits
  · left
    rw [mem_destroyed_joined sound]
    refine ⟨isJoined, fun equal => differs ?_⟩
    rw [← equal] at inside
    exact sound.object_unique living inside
  · right
    rw [same]
    exact waits

theorem Sound.getOrAddChannel (sound : Sound toLower server) (covering : server.Covering) (current : server.clock = now)
    {dirtyChannelName : QString} (stable : Stable toLower dirtyChannelName) :
    Sound toLower (server.getOrAddChannel toLower dirtyChannelName now).1 ∧
      (server.getOrAddChannel toLower dirtyChannelName now).1.Covering := by
  unfold TwitchIrcServer.getOrAddChannel
  dsimp only
  cases missing : server.getChannelOrEmpty toLower (cleanChannelName toLower dirtyChannelName) with
  | some chan => exact ⟨sound, covering⟩
  | none =>
    obtain ⟨plain, absent⟩ := sound.getChannelOrEmpty_none stable missing
    have created := sound.created stable plain absent
    dsimp only
    split
    · next online =>
      have joins := created.join current (cleanChannelName toLower dirtyChannelName)
      refine ⟨joins.sound, fun _ entry living => ?_⟩
      obtain ⟨_, _, _, same⟩ := joins.keeps
      rw [same] at living
      have known := (created.kept entry.1 entry.2).mpr living
      apply joins.covers online entry.2 (Option.isSome_of_eq_some known)
      rcases List.mem_append.mp living with old | last
      · exact .inl (covering online entry old)
      · rw [List.mem_singleton.mp last]
        exact .inr List.mem_cons_self
    · next offline => exact ⟨created, fun online => absurd online offline⟩

/-- When the read connection is established, every channel is asked for. -/
theorem Sound.onReadConnected (sound : Sound toLower server) (current : server.clock = now) (visible : List QString) :
    Sound toLower (server.onReadConnected visible now) ∧ (server.onReadConnected visible now).Covering := by
  unfold TwitchIrcServer.onReadConnected
  dsimp only
  rw [List.partition_eq_filter_filter]
  have joins := sound.join_all current
    (((server.channels.entries.filterMap fun entry => server.lock entry.2).filter fun name => visible.contains name) ++
      (server.channels.entries.filterMap fun entry => server.lock entry.2).filter
        (not ∘ fun name => visible.contains name))
  refine ⟨joins.sound, fun online entry living => ?_⟩
  obtain ⟨_, _, _, same⟩ := joins.keeps
  rw [same] at online living
  have known := (sound.kept entry.1 entry.2).mpr living
  apply joins.covers online entry.2 (Option.isSome_of_eq_some known)
  right
  have active : entry.2 ∈ server.channels.entries.filterMap fun entry => server.lock entry.2 :=
    List.mem_filterMap.mpr ⟨⟨entry.2, entry.1⟩, AList.mem_lookup_iff.mp known, sound.lock_iff.mpr living⟩
  rw [List.mem_append, List.mem_filter, List.mem_filter]
  cases isVisible : visible.contains entry.2 with
  | true => exact .inl ⟨active, rfl⟩
  | false => exact .inr ⟨active, by rw [Function.comp_apply, isVisible]; rfl⟩

/-- A server whose read connection has moved on. -/
theorem Sound.moved (sound : Sound toLower server) {readConnection : Session} {joined : List QString}
    (fewer : ∀ channelName ∈ joined, channelName ∈ server.joined)
    (offline : readConnection.connection.isConnected = false → joined = []) :
    Sound toLower { server with readConnection, joined } :=
  { sound with
    offline
    members := fun channelName inside => sound.members channelName (fewer channelName inside) }

variable {payload : QString} {next : TwitchIrcServer}

theorem Sound.step {e : Event} (sound : Sound toLower server) (covering : server.Covering)
    (stable : ∀ dirtyChannelName now, e = .getOrAddChannel dirtyChannelName now → Stable toLower dirtyChannelName)
    (taken : TwitchIrcServer.step toLower payload server e = some next) : Sound toLower next ∧ next.Covering := by
  obtain ⟨later, reacted⟩ := Option.ite_none_right_eq_some.mp taken
  have clocked := sound.clocked later
  cases e with
  | getOrAddChannel dirtyChannelName now =>
    obtain rfl := Option.some.inj reacted
    exact clocked.getOrAddChannel covering rfl (stable dirtyChannelName now rfl)
  | destroyed object =>
    obtain ⟨channelName, found, rfl⟩ := Option.map_eq_some_iff.mp reacted
    have inside := clocked.lock_iff.mp found
    exact ⟨clocked.destroyed inside, clocked.destroyed_covering covering inside⟩
  | read e visible now =>
    obtain ⟨readConnection, moves, rfl⟩ := Option.map_eq_some_iff.mp reacted
    dsimp only
    split
    · next isConnected =>
      have connects : Sound toLower { server with readConnection, clock := now } := by
        refine clocked.moved (fun _ inside => inside) fun offline => ?_
        subst isConnected
        obtain ⟨_, same⟩ := Option.ite_none_right_eq_some.mp moves
        obtain rfl := Option.some.inj same
        cases offline
      exact connects.onReadConnected rfl visible
    · next other =>
      split
      · next online =>
        have before := Session.connected_before moves other online
        exact ⟨clocked.moved (fun _ inside => inside) fun offline => absurd online (Bool.eq_false_iff.mp offline),
          fun _ entry living => covering before entry living⟩
      · next offline =>
        exact ⟨clocked.moved (fun _ impossible => absurd impossible List.not_mem_nil) fun _ => rfl,
          fun online => absurd online offline⟩
  | joinTimer started now =>
    obtain ⟨⟨outstanding, past⟩, same⟩ := Option.ite_none_right_eq_some.mp reacted
    obtain rfl := Option.some.inj same
    obtain ⟨items, passed⟩ := clocked.timeout_passed outstanding past
    exact ⟨passed.sound clocked, passed.covering clocked covering⟩

theorem sound_new (now : Int) : Sound toLower (new now) where
  clean := fun _ impossible => absurd impossible List.not_mem_nil
  numbered := fun _ impossible => absurd impossible List.not_mem_nil
  distinct := List.nodup_nil
  kept := by
    intro object channelName
    constructor
    · intro impossible
      cases impossible
    · exact fun impossible => absurd impossible List.not_mem_nil
  orderly := ⟨[], RatelimitBucket.orderly_new (by decide) JOIN_RATELIMIT_COOLDOWN now⟩
  waiting := fun nonempty => absurd rfl nonempty
  offline := fun _ => rfl
  members := fun _ impossible => absurd impossible List.not_mem_nil
  limited := List.Sublist.refl []

/-- No name that is asked for has to be cleaned twice. -/
def AllStable (toLower : QString → QString) (events : List Event) : Prop :=
  ∀ dirtyChannelName now, .getOrAddChannel dirtyChannelName now ∈ events → Stable toLower dirtyChannelName

theorem Sound.run {events : List Event} {final : TwitchIrcServer} (sound : Sound toLower server)
    (covering : server.Covering) (stable : AllStable toLower events)
    (ran : Foundation.run (TwitchIrcServer.step toLower payload) server events = some final) :
    Sound toLower final ∧ final.Covering := by
  induction events generalizing server with
  | nil =>
    obtain rfl := Option.some.inj ran
    exact ⟨sound, covering⟩
  | cons e events ih =>
    obtain ⟨between, taken, rest⟩ := run_cons ran
    obtain ⟨kept, covers⟩ := sound.step covering
      (fun dirtyChannelName now same => stable dirtyChannelName now (same ▸ List.mem_cons_self)) taken
    exact ih kept covers (fun dirtyChannelName now member =>
      stable dirtyChannelName now (List.mem_cons_of_mem e member)) rest

theorem Sound.of_run {events : List Event} {final : TwitchIrcServer} (stable : AllStable toLower events)
    (ran : Foundation.run (TwitchIrcServer.step toLower payload) (new now) events = some final) :
    Sound toLower final ∧ final.Covering :=
  (sound_new now).run (fun _ _ impossible => absurd impossible List.not_mem_nil) stable ran

end

/-! ## Channels are joined, and only channels -/

end TwitchIrcServer

end Forserino.Irc
