import Mathlib.Algebra.Order.Group.Int
import Mathlib.Data.List.Chain
import Mathlib.Data.List.TakeWhile
import Forserino.Foundation.Windows
import Forserino.Sending.Server

/-! How often prepareToSend accepts a message, over whole sequences of its calls. The settings and
the rights in the channels may change between two calls.
-/

set_option autoImplicit false

namespace Forserino.Sending

open Foundation Qt

namespace TwitchIrcServer

/-! ## What one call does to the queues -/

def expired (now time : Int) : Bool := decide (time + 32000 < now)

theorem expired_of_takeWhile {queue : List Int} {now t : Int} (member : t ∈ queue.takeWhile (expired now)) :
    t + 32000 < now := by
  have holds : expired now t = true := List.mem_takeWhile_imp member
  exact of_decide_eq_true holds

/-- What is left of a queue when the expired entries in front are gone. -/
def recent (queues : Bool → List Int) (high : Bool) (now : Int) : List Int := (queues high).dropWhile (expired now)

/-- The answer of prepareToSend in a channel with or without high rate limit, and the queues behind it. -/
inductive Prepared (settings : Settings) (high : Bool) (now : Int) (queues : Bool → List Int) :
    Bool → (Bool → List Int) → Prop where
  | tooFast {last : Int} (isLast : (queues high).getLast? = some last)
      (soon : now < last + minMessageOffset settings high) : Prepared settings high now queues false queues
  | tooMany (counts : settings.ignoreMaxMessageRateLimit = false)
      (full : maxMessageCount high ≤ (recent queues high now).length) :
      Prepared settings high now queues false (Function.update queues high (recent queues high now))
  | accepted (spaced : ∀ last ∈ (queues high).getLast?, last + minMessageOffset settings high ≤ now)
      (room : settings.ignoreMaxMessageRateLimit = false → (recent queues high now).length < maxMessageCount high) :
      Prepared settings high now queues true (Function.update queues high (recent queues high now ++ [now]))

theorem lastMessage_setLastMessage (server : TwitchIrcServer) (high : Bool) (times : List Int) :
    (server.setLastMessage high times).lastMessage = Function.update server.lastMessage high times := by
  funext other
  cases high <;> cases other <;> rfl

theorem prepareToSend_prepared (server : TwitchIrcServer) (channel : TwitchChannel) (now : Int) :
    Prepared server.around.settings (server.around.hasHighRateLimit channel) now server.lastMessage
      (server.prepareToSend channel now).1 (server.prepareToSend channel now).2.lastMessage := by
  dsimp only [prepareToSend]
  split
  · next soon =>
    obtain ⟨last, isLast, sooner⟩ := (Option.any_eq_true _ _).mp soon
    have early := of_decide_eq_true sooner
    split
    · exact .tooFast isLast early
    · exact .tooFast isLast early
  · next spaced =>
    have apart : ∀ last ∈ (server.lastMessage (server.around.hasHighRateLimit channel)).getLast?,
        last + minMessageOffset server.around.settings (server.around.hasHighRateLimit channel) ≤ now := by
      intro last isLast
      by_contra early
      exact spaced ((Option.any_eq_true _ _).mpr ⟨last, isLast, decide_eq_true (not_le.mp early)⟩)
    split
    · next full =>
      have counts : server.around.settings.ignoreMaxMessageRateLimit = false := by simpa using full.1
      have left := @Prepared.tooMany _ _ _ server.lastMessage counts full.2
      rw [recent, ← lastMessage_setLastMessage] at left
      split
      · exact left
      · exact left
    · next room =>
      rw [lastMessage_setLastMessage]
      refine .accepted apart fun counts => ?_
      rw [counts] at room
      exact not_le.mp fun full => room ⟨rfl, full⟩

/-! ## Sequences of calls -/

/-- A call of prepareToSend, and the settings and rights that it meets. -/
structure Call where
  around : Surroundings
  channel : TwitchChannel
  now : Int

def Call.high (call : Call) : Bool := call.around.hasHighRateLimit call.channel

/-- An accepted message, and the delay that its class had then. -/
structure Accepted where
  high : Bool
  time : Int
  offset : Int
  deriving DecidableEq, Repr

/-- A log behind a call with this answer. -/
def logged (settings : Settings) (high : Bool) (now : Int) (answer : Bool) (log : List Accepted) : List Accepted :=
  if answer then log ++ [⟨high, now, minMessageOffset settings high⟩] else log

structure Sender where
  server : TwitchIrcServer
  clock : Int
  log : List Accepted

/-- Time does not go back. -/
def Sender.step (sender : Sender) (call : Call) : Option Sender :=
  if sender.clock ≤ call.now then
    let (answer, server) := { sender.server with around := call.around }.prepareToSend call.channel call.now
    some ⟨server, call.now, logged call.around.settings call.high call.now answer sender.log⟩
  else none

def Sender.start (server : TwitchIrcServer) (clock : Int) : Sender := ⟨server, clock, []⟩

/-- The accepted messages of a class. -/
def Sender.accepted (sender : Sender) (high : Bool) : List Accepted := sender.log.filter fun entry => entry.high == high

/-- No more than 32 seconds lie between the two. -/
def near (t now : Int) : Bool := decide (now ≤ t + 32000)

def Spaced (earlier later : Accepted) : Prop := earlier.time + later.offset ≤ later.time

/-- The queue of a class against the messages of it that were accepted. -/
structure Tracked (high : Bool) (clock : Int) (queue : List Int) (log : List Accepted) : Prop where
  older : ∃ gone, log.map Accepted.time = gone ++ queue ∧ ∀ t ∈ gone, t + 32000 < clock
  last : queue.getLast? = (log.map Accepted.time).getLast?
  past : ∀ t ∈ log.map Accepted.time, t ≤ clock
  sorted : (log.map Accepted.time).Pairwise (· ≤ ·)
  spaced : log.IsChain Spaced
  limited : Limited near (maxMessageCount high) (log.map Accepted.time)

variable {high : Bool} {clock now : Int} {queue : List Int} {log : List Accepted}

theorem tracked_nil (high : Bool) (clock : Int) : Tracked high clock [] [] where
  older := ⟨[], rfl, fun _ member => absurd member List.not_mem_nil⟩
  last := rfl
  past := fun _ member => absurd member List.not_mem_nil
  sorted := .nil
  spaced := .nil
  limited := limited_nil

theorem Tracked.later (tracked : Tracked high clock queue log) (later : clock ≤ now) :
    Tracked high now queue log where
  older := by
    obtain ⟨gone, shape, expired⟩ := tracked.older
    exact ⟨gone, shape, fun t member => lt_of_lt_of_le (expired t member) later⟩
  last := tracked.last
  past := fun t member => (tracked.past t member).trans later
  sorted := tracked.sorted
  spaced := tracked.spaced
  limited := tracked.limited

/-- Whatever is taken off the queue is expired. -/
theorem Tracked.older_recent (tracked : Tracked high now queue log) :
    ∃ gone, log.map Accepted.time = gone ++ queue.dropWhile (expired now) ∧ ∀ t ∈ gone, t + 32000 < now := by
  obtain ⟨gone, shape, past⟩ := tracked.older
  refine ⟨gone ++ queue.takeWhile (expired now), ?_, ?_⟩
  · rw [shape, List.append_assoc, List.takeWhile_append_dropWhile]
  · intro t member
    rcases List.mem_append.mp member with before | dropped
    · exact past t before
    · exact expired_of_takeWhile dropped

theorem Tracked.trim (tracked : Tracked high now queue log) (left : queue.dropWhile (expired now) ≠ []) :
    Tracked high now (queue.dropWhile (expired now)) log where
  older := tracked.older_recent
  last := by
    rw [← tracked.last]
    conv_rhs => rw [← List.takeWhile_append_dropWhile (p := expired now) (l := queue)]
    rw [List.getLast?_append_of_ne_nil _ left]
  past := tracked.past
  sorted := tracked.sorted
  spaced := tracked.spaced
  limited := tracked.limited

theorem Tracked.accept (tracked : Tracked high now queue log) {offset : Int}
    (spaced : ∀ last ∈ queue.getLast?, last + offset ≤ now)
    (room : (queue.dropWhile (expired now)).length < maxMessageCount high) :
    Tracked high now (queue.dropWhile (expired now) ++ [now]) (log ++ [⟨high, now, offset⟩]) := by
  obtain ⟨gone, shape, past⟩ := tracked.older_recent
  have times : (log ++ [Accepted.mk high now offset]).map Accepted.time = log.map Accepted.time ++ [now] :=
    List.map_append
  constructor
  case older =>
    refine ⟨gone, ?_, past⟩
    rw [times, shape, List.append_assoc]
  case last => rw [times, List.getLast?_concat, List.getLast?_concat]
  case past =>
    rw [times]
    intro t member
    rcases List.mem_append.mp member with earlier | same
    · exact tracked.past t earlier
    · exact (List.mem_singleton.mp same).le
  case sorted =>
    rw [times]
    refine List.pairwise_append.mpr ⟨tracked.sorted, List.pairwise_singleton _ _, ?_⟩
    intro t earlier last same
    rw [List.mem_singleton.mp same]
    exact tracked.past t earlier
  case spaced =>
    refine tracked.spaced.append (.singleton _) ?_
    intro earlier isLast later isHead
    obtain rfl := Option.some.inj isHead
    apply spaced
    rw [tracked.last, List.getLast?_map, Option.mem_def.mp isLast]
    rfl
  case limited =>
    rw [times]
    apply tracked.limited.concat
    -- the expired messages are not near any more
    have none_ : gone.countP (near · now) = 0 := by
      apply List.countP_eq_zero.mpr
      intro t member isNear
      have since := of_decide_eq_true isNear
      have before := past t member
      omega
    have few := (List.countP_le_length : (queue.dropWhile (expired now)).countP (near · now) ≤ _)
    have one := (List.countP_le_length : [now].countP (near · now) ≤ _)
    rw [shape, List.countP_append, List.countP_append, none_]
    rw [List.length_singleton] at one
    omega

variable {settings : Settings} {queues behind : Bool → List Int} {answer : Bool}

/-- A rejected call only drops expired entries. -/
theorem Prepared.rejected (prepared : Prepared settings high now queues false behind) (other : Bool) :
    ∃ gone, (∀ t ∈ gone, t + 32000 < now) ∧ queues other = gone ++ behind other := by
  cases prepared with
  | tooFast => exact ⟨[], fun _ member => absurd member List.not_mem_nil, rfl⟩
  | tooMany =>
    by_cases same : other = high
    · subst same
      refine ⟨(queues other).takeWhile (expired now), fun t => expired_of_takeWhile, ?_⟩
      rw [Function.update_self]
      exact List.takeWhile_append_dropWhile.symm
    · refine ⟨[], fun _ member => absurd member List.not_mem_nil, ?_⟩
      rw [Function.update_of_ne same]
      rfl

theorem Prepared.tracked (prepared : Prepared settings high now queues answer behind)
    (counts : settings.ignoreMaxMessageRateLimit = false) (tracked : Tracked high now (queues high) log) :
    Tracked high now (behind high) (logged settings high now answer log) := by
  cases prepared with
  | tooFast => exact tracked
  | tooMany _ full =>
    rw [Function.update_self]
    apply tracked.trim
    intro empty
    rw [recent, empty] at full
    cases high <;> exact absurd full (by decide)
  | accepted spaced room =>
    rw [Function.update_self]
    exact tracked.accept spaced (room counts)

theorem Prepared.other (prepared : Prepared settings high now queues answer behind) {other : Bool}
    (different : other ≠ high) : behind other = queues other := by
  cases prepared with
  | tooFast => rfl
  | tooMany | accepted => exact Function.update_of_ne different _ _

theorem filter_logged (settings : Settings) (high : Bool) (now : Int) (answer : Bool) (log : List Accepted)
    (other : Bool) :
    (logged settings high now answer log).filter (fun entry => entry.high == other) =
      if other = high then logged settings high now answer (log.filter fun entry => entry.high == other)
      else log.filter fun entry => entry.high == other := by
  cases answer with
  | false => exact (ite_self _).symm
  | true =>
    simp only [logged, if_true, List.filter_append]
    split
    · next same => rw [List.filter_singleton, same, beq_self_eq_true, cond_true]
    · next different =>
      rw [List.filter_singleton, beq_eq_false_iff_ne.mpr (Ne.symm different), cond_false, List.append_nil]

/-- The queues of both classes follow their messages. -/
def Sender.Sound (sender : Sender) : Prop :=
  ∀ high, Tracked high sender.clock (sender.server.lastMessage high) (sender.accepted high)

theorem Sender.step_prepared {sender next : Sender} {call : Call} (taken : sender.step call = some next) :
    ∃ answer, sender.clock ≤ call.now ∧ next.clock = call.now ∧
      next.log = logged call.around.settings call.high call.now answer sender.log ∧
      Prepared call.around.settings call.high call.now sender.server.lastMessage answer next.server.lastMessage := by
  obtain ⟨later, same⟩ := Option.ite_none_right_eq_some.mp taken
  obtain rfl := Option.some.inj same
  exact ⟨_, later, rfl, rfl, prepareToSend_prepared { sender.server with around := call.around } call.channel call.now⟩

theorem Sender.Sound.step {sender next : Sender} {call : Call} (sound : sender.Sound)
    (counts : call.around.settings.ignoreMaxMessageRateLimit = false) (taken : sender.step call = some next) :
    next.Sound := by
  obtain ⟨answer, later, clock, log, prepared⟩ := Sender.step_prepared taken
  intro high
  have tracked := (sound high).later later
  rw [accepted, log, filter_logged, clock]
  by_cases concerned : high = call.high
  · subst concerned
    rw [if_pos rfl]
    exact prepared.tracked counts tracked
  · rw [if_neg concerned, prepared.other concerned]
    exact tracked

theorem Sender.Sound.run {calls : List Call} {sender final : Sender} (sound : sender.Sound)
    (counts : ∀ call ∈ calls, call.around.settings.ignoreMaxMessageRateLimit = false)
    (ran : Foundation.run Sender.step sender calls = some final) : final.Sound := by
  induction calls generalizing sender with
  | nil => exact Option.some.inj ran ▸ sound
  | cons call calls ih =>
    obtain ⟨next, taken, rest⟩ := run_cons ran
    obtain ⟨here, later⟩ := List.forall_mem_cons.mp counts
    exact ih (sound.step here taken) later rest

/-- However the calls follow each other: of the messages that are accepted within 32 seconds at most 19, or 99
with high rate limit, belong to one class, two of them that follow each other in a class are apart by the delay
of the class, and a rejected call takes only expired entries off the queues. -/
theorem prepareToSend_limited {server : TwitchIrcServer} (fresh : ∀ high, server.lastMessage high = []) {clock : Int}
    {calls : List Call} {sender : Sender}
    (counts : ∀ call ∈ calls, call.around.settings.ignoreMaxMessageRateLimit = false)
    (ran : run Sender.step (Sender.start server clock) calls = some sender) :
    (∀ high start, ((sender.accepted high).countP fun entry =>
        decide (start ≤ entry.time ∧ entry.time ≤ start + 32000)) ≤ if high then 99 else 19) ∧
      (∀ high, (sender.accepted high).IsChain fun earlier later => earlier.time + later.offset ≤ later.time) ∧
      ∀ around channel now, ({ sender.server with around }.prepareToSend channel now).1 = false →
        ∀ high, ∃ gone, (∀ t ∈ gone, t + 32000 < now) ∧ sender.server.lastMessage high =
          gone ++ ({ sender.server with around }.prepareToSend channel now).2.lastMessage high := by
  have sound : sender.Sound := by
    apply Sender.Sound.run _ counts ran
    intro high
    rw [Sender.start, fresh]
    exact tracked_nil high clock
  refine ⟨?_, fun high => (sound high).spaced, ?_⟩
  · intro high start
    have few := (sound high).limited.window Int.le_refl (sound high).sorted fun t =>
      decide (start ≤ t ∧ t ≤ start + 32000)
    have counted := few (by
      intro t now begins ends _
      rw [decide_eq_true_iff] at begins ends
      rw [near, decide_eq_true_iff]
      omega)
    rw [List.countP_map] at counted
    exact counted
  · intro around channel now rejected
    have prepared := prepareToSend_prepared { sender.server with around } channel now
    rw [rejected] at prepared
    exact prepared.rejected

/-- The default delays, and no channel with high rate limit. -/
def plainAround : Surroundings where
  settings := ⟨.default, false, false, false, 0, 0, 0, 0, false, [], false, [], 100, 1100, false⟩
  userId := []
  roomId := fun _ => []
  hasHighRateLimit := fun _ => false

/-- Three messages in one channel, the second of which comes too early. -/
def quickCalls : List Call := [100, 1000, 1200].map fun now => ⟨plainAround, ⟨0, qs "a"⟩, now⟩

theorem prepareToSend_limited_three :
    ∃ sender, run Sender.step (Sender.start { around := plainAround } 0) quickCalls = some sender ∧
      sender.log = [⟨false, 100, 1100⟩, ⟨false, 1200, 1100⟩] ∧
      (sender.accepted false).IsChain fun earlier later => earlier.time + later.offset ≤ later.time := by
  have fresh : ∀ high, ({ around := plainAround } : TwitchIrcServer).lastMessage high = [] := by
    intro high
    cases high <;> rfl
  have counts : ∀ call ∈ quickCalls, call.around.settings.ignoreMaxMessageRateLimit = false := by
    intro call member
    obtain ⟨now, -, rfl⟩ := List.mem_map.mp member
    rfl
  have log : (run Sender.step (Sender.start { around := plainAround } 0) quickCalls).map Sender.log =
      some [⟨false, 100, 1100⟩, ⟨false, 1200, 1100⟩] := by decide
  obtain ⟨sender, ran, logged⟩ := Option.map_eq_some_iff.mp log
  exact ⟨sender, ran, logged, (prepareToSend_limited fresh counts ran).2.1 false⟩

end TwitchIrcServer

end Forserino.Sending
