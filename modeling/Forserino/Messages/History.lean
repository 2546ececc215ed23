import Forserino.Messages.Chronology

/-! The message history of a Twitch channel: live messages, and the responses of the service
that has the recent ones.

A request that a room opens with puts its messages at the start; one after a reconnect
fills in what is missing. Only the second looks at the ids that are there already.
-/

set_option autoImplicit false

namespace Forserino.Messages

open Foundation Forserino.Qt

universe u

inductive Request where
  | loadRecentMessages
  | loadRecentMessagesReconnect
  deriving DecidableEq, Repr

/-- What a TwitchChannel keeps for its history, and its requests that are not answered yet. -/
structure TwitchChannel (T : Type u) where
  channel : Channel T
  loadingRecentMessages : Bool
  requests : List Request

/-- What happens to the channel; a system message is given as the object that is built for it. -/
inductive HistoryEvent (T : Type u) where
  | message (message : T)
  | replaceMessage (hint : Nat) (message replacement : T)
  | load (request : Request) (loadTwitchMessageHistoryOnConnect : Bool)
  | success (i : Nat) (errorCode : QString) (gap : T) (messages : List T)
  | error (i : Nat) (unavailable : T)

section
variable {T : Type u} (info : T → MessageInfo)

namespace TwitchChannel

def new (limit : Nat) : TwitchChannel T := ⟨⟨.new limit, 0⟩, false, []⟩

def load (channel : TwitchChannel T) (request : Request) (loadTwitchMessageHistoryOnConnect : Bool) : TwitchChannel T :=
  if !loadTwitchMessageHistoryOnConnect then channel
  else if channel.loadingRecentMessages then channel -- already loading
  else { channel with loadingRecentMessages := true, requests := channel.requests ++ [request] }

variable [DecidableEq T]

def onLoaded (channel : TwitchChannel T) (messages : List T) : Request → Option (TwitchChannel T)
  | .loadRecentMessages => do
      let (messages, _) ← channel.channel.addMessagesAtStart messages
      return { channel with channel := messages, loadingRecentMessages := false }
  | .loadRecentMessagesReconnect => do
      let (messages, _) ← channel.channel.fillInMissingMessages info messages
      return { channel with channel := messages, loadingRecentMessages := false }

/-- Messages of a channel that the service has not joined may have gaps. -/
def addGap (channel : Channel T) (errorCode : QString) (gap : T) (messages : List T) : Option (Channel T) :=
  if errorCode = qs "channel_not_joined" ∧ messages ≠ [] then channel.addMessage gap else some channel

/-- There is none where no such request is open, or where the queue has room for nothing. -/
def step (channel : TwitchChannel T) : HistoryEvent T → Option (TwitchChannel T)
  | .message message => do
      let messages ← channel.channel.addMessage message
      return { channel with channel := messages }
  | .replaceMessage hint message replacement =>
      some { channel with channel := (channel.channel.replaceMessage hint message replacement).1 }
  | .load request enabled => some (channel.load request enabled)
  | .success i errorCode gap messages =>
      match channel.requests[i]? with
      | none => none
      | some request => do
          let gapped ← addGap channel.channel errorCode gap messages
          onLoaded info { channel with channel := gapped, requests := channel.requests.eraseIdx i } messages request
  | .error i unavailable =>
      match channel.requests[i]? with
      | none => none
      | some _ => do
          let messages ← channel.channel.addMessage unavailable
          return { channel := messages, loadingRecentMessages := false, requests := channel.requests.eraseIdx i }

end TwitchChannel

/-! ## Ids -/

/-- No two messages have the same id, unless it is empty. -/
def UniqueIds (messages : List T) : Prop := messages.Pairwise fun a b => (info a).id = (info b).id → (info a).id = []

/-- No message of the one list has the id of one of the other. -/
def Foreign (messages others : List T) : Prop := ∀ a ∈ messages, ∀ b ∈ others, (info a).id = (info b).id → (info a).id = []

section
variable {info} {messages others : List T}

theorem UniqueIds.perm (unique : UniqueIds info messages) (same : messages.Perm others) : UniqueIds info others := by
  apply (same.pairwise_iff _).mp unique
  intro a b distinct equal
  rw [equal]
  exact distinct equal.symm

theorem UniqueIds.subperm (unique : UniqueIds info messages) (fewer : others.Subperm messages) : UniqueIds info others := by
  obtain ⟨between, same, sub⟩ := fewer
  exact UniqueIds.perm (List.Pairwise.sublist sub unique) same

theorem UniqueIds.append (first : UniqueIds info messages) (second : UniqueIds info others)
    (foreign : Foreign info messages others) : UniqueIds info (messages ++ others) :=
  List.pairwise_append.mpr ⟨first, second, foreign⟩

/-- A missing message has a new id, as far as the messages of the system have none. -/
theorem missing_foreign {snapshot : List T}
    (system : Foreign info messages (snapshot.filter fun m => (info m).system)) :
    Foreign info (missing info snapshot messages) snapshot := by
  intro a among b member same
  obtain ⟨given, new⟩ := List.mem_filter.mp among
  by_contra nonempty
  have server : (info b).system = false := by
    by_contra isSystem
    exact nonempty (system a given b (List.mem_filter.mpr ⟨member, by simpa using isSystem⟩) same)
  rw [Bool.not_eq_true', ← Bool.not_eq_true, List.contains_iff_mem] at new
  apply new
  apply List.mem_map.mpr
  refine ⟨b, List.mem_filter.mpr ⟨member, ?_⟩, same.symm⟩
  simp only [server, Bool.false_or, Bool.not_eq_true', List.isEmpty_eq_false_iff]
  rwa [← same]

end

/-! ## What one event does to the ids -/

/-- The messages that a queue keeps when it takes one more. -/
def staying (queue : LimitedQueue T) : List T := queue.getSnapshot.drop (overflow queue)

theorem addMessage_subperm {channel next : Channel T} {message : T} (added : channel.addMessage message = some next) :
    next.getMessageSnapshot.Subperm (message :: staying channel.messages) ∧ next.messages.limit = channel.messages.limit := by
  unfold Channel.addMessage at added
  obtain ⟨⟨pushed, full, deleted⟩, answered, rfl⟩ := Option.map_eq_some_iff.mp added
  have same : pushed = { channel.messages with buffer := channel.messages.buffer.push_back message } := by
    unfold LimitedQueue.pushBackDeleted at answered
    simp only at answered
    split at answered
    · split at answered
      · cases answered
      · exact (Prod.mk.inj (Option.some.inj answered)).1.symm
    · exact (Prod.mk.inj (Option.some.inj answered)).1.symm
  rw [same]
  refine ⟨?_, rfl⟩
  have shape : (staying channel.messages ++ [message]).Subperm (message :: staying channel.messages) :=
    (List.perm_append_singleton _ _).subperm
  refine List.Sublist.subperm ?_ |>.trans shape
  show (channel.messages.buffer.push_back message).items.Sublist _
  unfold CircularBuffer.push_back staying overflow LimitedQueue.getSnapshot
  by_cases isFull : channel.messages.buffer.full = true
  · simp only [isFull, if_true]
    cases channel.messages.buffer.items with
    | nil => simp
    | cons first rest => simp
  · simp [isFull]

theorem addMessage_unique {channel next : Channel T} {message : T} (added : channel.addMessage message = some next)
    (unique : UniqueIds info channel.getMessageSnapshot) (foreign : Foreign info [message] (staying channel.messages)) :
    UniqueIds info next.getMessageSnapshot := by
  have kept : UniqueIds info (staying channel.messages) := List.Pairwise.sublist (List.drop_sublist _ _) unique
  exact UniqueIds.subperm (UniqueIds.append (List.pairwise_singleton _ message) kept foreign) (addMessage_subperm added).1

/-- A message without an id is like no other. -/
theorem foreign_plain {message : T} (plain : (info message).id = []) (others : List T) : Foreign info [message] others := by
  intro a among b _ _
  rw [List.mem_singleton.mp among]
  exact plain

theorem addGap_unique {channel gapped : Channel T} {errorCode : QString} {gap : T} {messages : List T}
    (added : TwitchChannel.addGap channel errorCode gap messages = some gapped) (plain : (info gap).id = [])
    (unique : UniqueIds info channel.getMessageSnapshot) : UniqueIds info gapped.getMessageSnapshot := by
  unfold TwitchChannel.addGap at added
  split at added
  · exact addMessage_unique info added unique (foreign_plain info plain _)
  · exact Option.some.inj added ▸ unique

/-- The messages that fit in front of the others. -/
def pushedAtStart (channel : Channel T) (messages : List T) : List T :=
  messages.drop (messages.length - min messages.length channel.messages.space)

theorem addMessagesAtStart_unique {channel next : Channel T} {messages added : List T}
    (pushed : channel.addMessagesAtStart messages = some (next, added)) (unique : UniqueIds info channel.getMessageSnapshot)
    (distinct : UniqueIds info messages) (foreign : Foreign info (pushedAtStart channel messages) channel.getMessageSnapshot) :
    UniqueIds info next.getMessageSnapshot := by
  obtain ⟨behind, answered, items⟩ := channel.messages.pushFront_pushed messages
  unfold Channel.addMessagesAtStart at pushed
  rw [answered] at pushed
  obtain ⟨rfl, -⟩ := Prod.mk.inj (Option.some.inj pushed)
  show UniqueIds info behind.items
  rw [items]
  exact UniqueIds.append (List.Pairwise.sublist (List.drop_sublist _ _) distinct) unique foreign

section
variable [DecidableEq T]

theorem fillInMissingMessages_unique {channel next : Channel T} {messages : List T} {invoked : Bool}
    (filled : channel.fillInMissingMessages info messages = some (next, invoked))
    (unique : UniqueIds info channel.getMessageSnapshot) (distinct : UniqueIds info messages)
    (system : Foreign info messages (channel.getMessageSnapshot.filter fun m => (info m).system)) :
    UniqueIds info next.getMessageSnapshot := by
  unfold Channel.fillInMissingMessages at filled
  split at filled
  · obtain ⟨rfl, -⟩ := Prod.mk.inj (Option.some.inj filled)
    exact unique
  · split at filled
    · next empty =>
      have nothing : channel.getMessageSnapshot = [] := List.getLast?_eq_none_iff.mp empty
      obtain ⟨behind, answered, items⟩ := channel.messages.pushFront_pushed messages
      rw [answered] at filled
      obtain ⟨rfl, -⟩ := Prod.mk.inj (Option.some.inj filled)
      show UniqueIds info behind.items
      rw [items, show channel.messages.getSnapshot = [] from nothing, List.append_nil]
      exact List.Pairwise.sublist (List.drop_sublist _ _) distinct
    · next lastMsg last =>
      obtain ⟨rfl, -⟩ := Prod.mk.inj (Option.some.inj filled)
      have missing_ : UniqueIds info (missing info channel.getMessageSnapshot messages) :=
        List.Pairwise.sublist List.filter_sublist distinct
      exact UniqueIds.subperm (UniqueIds.append missing_ unique (missing_foreign system)) (fillLoop_subperm info _ _ _ _ _)

/-- A message may be replaced by one with its own id or with none. -/
theorem replaceMessage_unique {channel : Channel T} {message replacement : T} (hint : Nat)
    (unique : UniqueIds info channel.getMessageSnapshot)
    (same : (info replacement).id = [] ∨ (info replacement).id = (info message).id) :
    UniqueIds info (channel.replaceMessage hint message replacement).1.getMessageSnapshot := by
  have atIndex : ∀ {i : Nat}, channel.messages.buffer.items[i]? = some message →
      UniqueIds info (channel.messages.buffer.items.set i replacement) := by
    intro i there
    obtain ⟨inside, isMessage⟩ := List.getElem?_eq_some_iff.mp there
    have split : channel.messages.buffer.items =
        channel.messages.buffer.items.take i ++ message :: channel.messages.buffer.items.drop (i + 1) := by
      rw [← isMessage, ← List.drop_eq_getElem_cons inside, List.take_append_drop]
    have before : UniqueIds info
        (message :: (channel.messages.buffer.items.take i ++ channel.messages.buffer.items.drop (i + 1))) := by
      apply UniqueIds.perm _ List.perm_middle
      rw [← split]
      exact unique
    rw [List.set_eq_take_append_cons_drop, if_pos inside]
    apply UniqueIds.perm _ List.perm_middle.symm
    refine List.pairwise_cons.mpr ⟨?_, (List.pairwise_cons.mp before).2⟩
    intro other among equal
    rcases same with plain | same
    · exact plain
    · rw [same] at equal ⊢
      exact (List.pairwise_cons.mp before).1 other among equal
  show UniqueIds info (channel.messages.replaceItemHint hint message replacement).1.getSnapshot
  unfold LimitedQueue.replaceItemHint
  split
  · next hinted =>
    rw [Option.any_eq_true] at hinted
    obtain ⟨other, there, isMessage⟩ := hinted
    exact atIndex (there.trans (congrArg some (beq_iff_eq.mp isMessage)))
  · split
    · next i found =>
      obtain ⟨inside, isMessage, -⟩ := List.findIdx?_eq_some_iff_getElem.mp found
      exact atIndex (List.getElem?_eq_some_iff.mpr ⟨inside, beq_iff_eq.mp isMessage⟩)
    · exact unique

/-! ## Runs -/

/-- A response has no id twice; the messages of the system have none, and a message is replaced
by one with its own id or with none. -/
def HistoryEvent.Promised : HistoryEvent T → Prop
  | .success _ _ gap messages => (info gap).id = [] ∧ UniqueIds info messages
  | .error _ unavailable => (info unavailable).id = []
  | .replaceMessage _ replaced replacement => (info replacement).id = [] ∨ (info replacement).id = (info replaced).id
  | .message _ | .load _ _ => True

/-- The messages of a response are not there already, where nothing looks whether they are. -/
def FreshResponse (channel : Channel T) (messages : List T) : Request → Prop
  | .loadRecentMessages => Foreign info (pushedAtStart channel messages) channel.getMessageSnapshot
  | .loadRecentMessagesReconnect => Foreign info messages (channel.getMessageSnapshot.filter fun m => (info m).system)

/-- A live message is not there already, either. -/
def TwitchChannel.Fresh (channel : TwitchChannel T) : HistoryEvent T → Prop
  | .message message => Foreign info [message] (staying channel.channel.messages)
  | .success i errorCode gap messages => ∀ request ∈ channel.requests[i]?,
      ∀ gapped ∈ TwitchChannel.addGap channel.channel errorCode gap messages, FreshResponse info gapped messages request
  | .error _ _ | .replaceMessage _ _ _ | .load _ _ => True

def TwitchChannel.HasUniqueIds (channel : TwitchChannel T) : Prop := UniqueIds info channel.channel.getMessageSnapshot

/-- The flag is set as long as the one request is open. -/
def TwitchChannel.Loading (channel : TwitchChannel T) : Prop :=
  (channel.loadingRecentMessages = false ∧ channel.requests = []) ∨
    (channel.loadingRecentMessages = true ∧ ∃ request, channel.requests = [request])

section
variable {info} {channel next : TwitchChannel T}

/-- A response is answered once, and its messages come to the others. -/
theorem onLoaded_unique {messages : List T} {request : Request}
    (loaded : channel.onLoaded info messages request = some next) (unique : UniqueIds info channel.channel.getMessageSnapshot)
    (distinct : UniqueIds info messages) (fresh : FreshResponse info channel.channel messages request) :
    UniqueIds info next.channel.getMessageSnapshot := by
  cases request with
  | loadRecentMessages =>
    obtain ⟨⟨behind, added⟩, pushed, answered⟩ := Option.bind_eq_some_iff.mp loaded
    rw [← Option.some.inj answered]
    exact addMessagesAtStart_unique info pushed unique distinct fresh
  | loadRecentMessagesReconnect =>
    obtain ⟨⟨behind, invoked⟩, filled, answered⟩ := Option.bind_eq_some_iff.mp loaded
    rw [← Option.some.inj answered]
    exact fillInMissingMessages_unique info filled unique distinct fresh

theorem onLoaded_cleared {messages : List T} {request : Request}
    (loaded : channel.onLoaded info messages request = some next) :
    next.loadingRecentMessages = false ∧ next.requests = channel.requests := by
  cases request with
  | loadRecentMessages =>
    obtain ⟨_, _, answered⟩ := Option.bind_eq_some_iff.mp loaded
    rw [← Option.some.inj answered]
    exact ⟨rfl, rfl⟩
  | loadRecentMessagesReconnect =>
    obtain ⟨_, _, answered⟩ := Option.bind_eq_some_iff.mp loaded
    rw [← Option.some.inj answered]
    exact ⟨rfl, rfl⟩

theorem step_unique {e : HistoryEvent T} (unique : channel.HasUniqueIds info)
    (allowed : e.Promised info ∧ channel.Fresh info e) (stepped : channel.step info e = some next) :
    next.HasUniqueIds info := by
  obtain ⟨promised, fresh⟩ := allowed
  cases e with
  | message m =>
    obtain ⟨behind, added, answered⟩ := Option.bind_eq_some_iff.mp stepped
    rw [← Option.some.inj answered]
    exact addMessage_unique info added unique fresh
  | replaceMessage hint m replacement =>
    rw [← Option.some.inj stepped]
    exact replaceMessage_unique info hint unique promised
  | load request enabled =>
    rw [← Option.some.inj stepped, TwitchChannel.load]
    split
    · exact unique
    · split <;> exact unique
  | success i errorCode gap messages =>
    rw [TwitchChannel.step] at stepped
    split at stepped
    · cases stepped
    · next request opened =>
      obtain ⟨gapped, added, loaded⟩ := Option.bind_eq_some_iff.mp stepped
      exact onLoaded_unique loaded (addGap_unique info added promised.1 unique) promised.2 (fresh request opened gapped added)
  | error i unavailable =>
    rw [TwitchChannel.step] at stepped
    split at stepped
    · cases stepped
    · obtain ⟨behind, added, answered⟩ := Option.bind_eq_some_iff.mp stepped
      rw [← Option.some.inj answered]
      exact addMessage_unique info added unique (foreign_plain info promised _)

/-- A response or an error. -/
def HistoryEvent.IsAnswer : HistoryEvent T → Prop
  | .success _ _ _ _ | .error _ _ => True
  | .message _ | .replaceMessage _ _ _ | .load _ _ => False

/-- Behind the answer to the only request nothing is loading. -/
theorem step_cleared {e : HistoryEvent T} (answer : e.IsAnswer) (loading : channel.Loading)
    (stepped : channel.step info e = some next) : next.loadingRecentMessages = false ∧ next.requests = [] := by
  have answered : ∀ {i : Nat} {request : Request}, channel.requests[i]? = some request → channel.requests.eraseIdx i = [] := by
    intro i request opened
    obtain ⟨inside, -⟩ := List.getElem?_eq_some_iff.mp opened
    rcases loading with ⟨-, none_⟩ | ⟨-, only, single⟩
    · rw [none_] at inside
      cases inside
    · rw [single] at inside ⊢
      rw [Nat.lt_one_iff.mp inside]
      rfl
  cases e with
  | success i errorCode gap messages =>
    rw [TwitchChannel.step] at stepped
    split at stepped
    · cases stepped
    · next request opened =>
      obtain ⟨gapped, added, loaded⟩ := Option.bind_eq_some_iff.mp stepped
      obtain ⟨cleared, requests⟩ := onLoaded_cleared loaded
      exact ⟨cleared, requests.trans (answered opened)⟩
  | error i unavailable =>
    rw [TwitchChannel.step] at stepped
    split at stepped
    · cases stepped
    · next request opened =>
      obtain ⟨behind, added, result⟩ := Option.bind_eq_some_iff.mp stepped
      rw [← Option.some.inj result]
      exact ⟨rfl, answered opened⟩
  | message m => exact answer.elim
  | replaceMessage hint m replacement => exact answer.elim
  | load request enabled => exact answer.elim

theorem step_loading {e : HistoryEvent T} (loading : channel.Loading) (stepped : channel.step info e = some next) :
    next.Loading := by
  cases e with
  | message m =>
    obtain ⟨behind, added, answered⟩ := Option.bind_eq_some_iff.mp stepped
    rw [← Option.some.inj answered]
    exact loading
  | replaceMessage hint m replacement =>
    rw [← Option.some.inj stepped]
    exact loading
  | load request enabled =>
    rw [← Option.some.inj stepped, TwitchChannel.load]
    split
    · exact loading
    · split
      · exact loading
      · next notLoading =>
        rcases loading with ⟨-, none_⟩ | ⟨isLoading, -⟩
        · exact .inr ⟨rfl, request, by simp [none_]⟩
        · exact absurd isLoading notLoading
  | success i errorCode gap messages => exact .inl (step_cleared (e := .success i errorCode gap messages) trivial loading stepped)
  | error i unavailable => exact .inl (step_cleared (e := .error i unavailable) trivial loading stepped)

/-- In a run whose live messages and responses bring nothing that is there already, no id is
there twice; and in any run the flag is cleared by every answer, so that the next load asks again. -/
theorem history_unique {limit : Nat} {events : List (HistoryEvent T)} {final : TwitchChannel T}
    (ran : run (TwitchChannel.step info) (.new limit) events = some final) :
    (Along (TwitchChannel.step info) (fun channel e => e.Promised info ∧ channel.Fresh info e) (.new limit) events →
      final.HasUniqueIds info) ∧ final.Loading ∧
      ∀ e next, e.IsAnswer → final.step info e = some next → next.loadingRecentMessages = false ∧ next.requests = [] ∧
        ∀ request, next.load request true = { next with loadingRecentMessages := true, requests := [request] } := by
  have loading : final.Loading :=
    run_keeps (fun _ _ _ loading stepped => step_loading loading stepped) ran (.inl ⟨rfl, rfl⟩)
  refine ⟨fun along => ?_, loading, ?_⟩
  · exact run_invariant (fun _ _ _ => step_unique) along ran List.Pairwise.nil
  · intro e next answer stepped
    obtain ⟨cleared, requests⟩ := step_cleared answer loading stepped
    refine ⟨cleared, requests, fun request => ?_⟩
    simp [TwitchChannel.load, cleared, requests]

end

/-- The live messages of a run. -/
def liveMessages (events : List (HistoryEvent T)) : List T :=
  events.filterMap fun
    | .message message => some message
    | _ => none

instance (messages others : List T) : Decidable (Foreign info messages others) :=
  inferInstanceAs (Decidable (∀ a ∈ messages, ∀ b ∈ others, _ → _))

instance (messages : List T) : Decidable (UniqueIds info messages) := inferInstanceAs (Decidable (List.Pairwise _ _))

instance (channel : TwitchChannel T) : Decidable (channel.HasUniqueIds info) := inferInstanceAs (Decidable (UniqueIds _ _))

instance : ∀ e : HistoryEvent T, Decidable (e.Promised info)
  | .success _ _ _ _ => inferInstanceAs (Decidable (_ ∧ _))
  | .error _ _ => inferInstanceAs (Decidable (_ = _))
  | .replaceMessage _ _ _ => inferInstanceAs (Decidable (_ ∨ _))
  | .message _ | .load _ _ => isTrue trivial

instance (channel : Channel T) (messages : List T) : ∀ request, Decidable (FreshResponse info channel messages request)
  | .loadRecentMessages | .loadRecentMessagesReconnect => inferInstanceAs (Decidable (Foreign _ _ _))

instance (channel : TwitchChannel T) : ∀ e, Decidable (channel.Fresh info e)
  | .message _ => inferInstanceAs (Decidable (Foreign _ _ _))
  | .success _ _ _ _ => inferInstanceAs (Decidable (∀ request ∈ _, ∀ gapped ∈ _, FreshResponse _ _ _ _))
  | .error _ _ | .replaceMessage _ _ _ | .load _ _ => isTrue trivial

/-- Numbers as messages: one hundred of them have the same id and time, and the first hundred are
of the system. -/
def hundreds (n : Nat) : MessageInfo := ⟨decide (n < 100), if n < 100 then [] else [UInt16.ofNat (n / 100)], n / 100⟩

/-- A live message that arrives while the room opens comes again with the first response. -/
theorem history_duplicated : ¬ ∀ (limit : Nat) (events : List (HistoryEvent Nat)) (final : TwitchChannel Nat),
    (∀ e ∈ events, e.Promised hundreds) → UniqueIds hundreds (liveMessages events) →
    run (TwitchChannel.step hundreds) (.new limit) events = some final → final.HasUniqueIds hundreds := by
  intro unique
  have duplicated := unique 10
    [.load .loadRecentMessages true, .message 200, .success 0 [] 0 [100, 201]] _ (by decide) (by decide) rfl
  revert duplicated
  decide

theorem history_unique_reconnect :
    UniqueIds hundreds [1, 101, 200, 300] ∧
      (⟨⟨LimitedQueue.mk 10 ⟨[1, 101, 200, 300], by decide⟩, 0⟩, false, []⟩ : TwitchChannel Nat).Loading := by
  have history := @history_unique _ hundreds _ 10
    [.load .loadRecentMessages true, .error 0 1, .message 200, .load .loadRecentMessagesReconnect true, .message 300,
      .success 0 [] 0 [101, 201, 301]] ⟨⟨LimitedQueue.mk 10 ⟨[1, 101, 200, 300], by decide⟩, 0⟩, false, []⟩ rfl
  exact ⟨history.1 (by decide), history.2.1⟩

end

end

end Forserino.Messages
