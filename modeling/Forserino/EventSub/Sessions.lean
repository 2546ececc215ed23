import Forserino.EventSub.Requests

/-! The connection objects of the sessions, and which requests they carry. -/

set_option autoImplicit false

namespace Forserino.EventSub

open Forserino.Qt

theorem Attempt.known {isRetry : Bool} {l l' : RequestState} {failed : List Assertion}
    (attempt : Attempt isRetry l l' failed) : l'.known = true := by
  cases attempt <;> rfl

theorem RequestStep.known {listens : Nat → Bool} {l l' : RequestState} {e : Event} {failed : List Assertion}
    (step : RequestStep listens l e l' failed) (known : l.known = true) : l'.known = true := by
  cases step with
  | createdLate => exact known
  | posted | fired | closed => exact Attempt.known ‹_›
  | refused request session object sessionID error => cases error <;> first | exact known | rfl
  | subscribe | removeRef | passes | retry | created | deleted => rfl

namespace Controller

variable {c c' : Controller} {r : SubscriptionRequest}

/-- A connection that is not lost carries the subscription of the request. -/
def Carries (c : Controller) (r : SubscriptionRequest) : Prop :=
  ∃ listener, some listener ∈ c.sessions ∧ r ∈ listener.subscriptions

instance (c : Controller) (r : SubscriptionRequest) : Decidable (c.Carries r) :=
  decidable_of_iff (c.sessions.any fun
    | some listener => decide (r ∈ listener.subscriptions)
    | none => false) (by
    rw [List.any_eq_true]
    constructor
    · rintro ⟨entry, member, carried⟩
      cases entry with
      | none => cases carried
      | some listener => exact ⟨listener, member, of_decide_eq_true carried⟩
    · rintro ⟨listener, member, carried⟩
      exact ⟨some listener, member, decide_eq_true carried⟩)

/-- The connection object still belongs to a session. -/
def Alive (c : Controller) (object : Nat) : Prop :=
  ∃ listener, some listener ∈ c.sessions ∧ listener.object = object

theorem getListener_eq_some {session : Nat} {listener : Connection} :
    c.getListener session = some listener ↔ c.sessions[session]? = some (some listener) := by
  rw [getListener, List.getD_eq_getElem?_getD]
  cases c.sessions[session]? with
  | none => simp
  | some entry => simp

theorem mem_of_getListener {session : Nat} {listener : Connection}
    (found : c.getListener session = some listener) : some listener ∈ c.sessions :=
  List.mem_of_getElem? (getListener_eq_some.mp found)

instance (c : Controller) (object : Nat) : Decidable (c.Alive object) :=
  decidable_of_iff (c.sessions.any fun
    | some listener => listener.object == object
    | none => false) (by
    rw [List.any_eq_true]
    constructor
    · rintro ⟨entry, member, same⟩
      cases entry with
      | none => cases same
      | some listener => exact ⟨listener, member, beq_iff_eq.mp same⟩
    · rintro ⟨listener, member, same⟩
      exact ⟨some listener, member, beq_iff_eq.mpr same⟩)

/-! ## New connections -/

/-- Connections are only added, and those carry nothing. -/
structure Grows (c c' : Controller) : Prop where
  kept : ∀ listener, some listener ∈ c.sessions → some listener ∈ c'.sessions
  new : ∀ listener, some listener ∈ c'.sessions → some listener ∈ c.sessions ∨
    (c.objects ≤ listener.object ∧ listener.object < c'.objects ∧ listener.subscriptions = ∅)
  objects : c.objects ≤ c'.objects

theorem Grows.of_same (sessions : c'.sessions = c.sessions) (objects : c'.objects = c.objects) : Grows c c' :=
  ⟨fun _ member => sessions ▸ member, fun _ member => .inl (sessions ▸ member), Nat.le_of_eq objects.symm⟩

theorem Grows.trans {c c' c'' : Controller} (first : Grows c c') (second : Grows c' c'') : Grows c c'' := by
  refine ⟨fun listener member => second.kept listener (first.kept listener member), ?_,
    Nat.le_trans first.objects second.objects⟩
  intro listener member
  rcases second.new listener member with before | ⟨low, high, empty⟩
  · rcases first.new listener before with old | ⟨low, high, empty⟩
    · exact .inl old
    · exact .inr ⟨low, Nat.lt_of_lt_of_le high second.objects, empty⟩
  · exact .inr ⟨Nat.le_trans first.objects low, high, empty⟩

theorem Grows.createConnection (c : Controller) (throws : Bool) : Grows c (c.createConnection throws) := by
  cases throws with
  | true => exact ⟨fun _ member => member, fun _ member => .inl member, Nat.le_succ _⟩
  | false =>
    refine ⟨fun listener member => List.mem_append_left _ member, ?_, Nat.le_succ _⟩
    intro listener member
    rcases List.mem_append.mp member with old | new
    · exact .inl old
    · obtain rfl := Option.some.inj (List.mem_singleton.mp new)
      exact .inr ⟨Nat.le_refl _, Nat.lt_succ_self _, rfl⟩

theorem Grows.subscribeWith (c : Controller) (r : SubscriptionRequest) (isRetry throws : Bool) :
    Grows c (c.subscribeWith r isRetry throws) := by
  unfold Controller.subscribeWith requestSubscription
  split
  · split <;> exact .of_same rfl rfl
  · have created := Grows.createConnection (c.perform r (Subscription.startSubscribe isRetry)) throws
    exact ⟨created.kept, created.new, created.objects⟩
  · exact .of_same rfl rfl

theorem Grows.subscribeAll (order : List (SubscriptionRequest × Bool)) (c : Controller) :
    Grows c (c.subscribeAll order) := by
  induction order generalizing c with
  | nil => exact .of_same rfl rfl
  | cons entry rest ih => exact (Grows.subscribeWith c entry.1 false entry.2).trans (ih _)

theorem Grows.carries (grows : Grows c c') : c'.Carries r ↔ c.Carries r := by
  constructor
  · rintro ⟨listener, member, carried⟩
    rcases grows.new listener member with old | ⟨_, _, empty⟩
    · exact ⟨listener, old, carried⟩
    · rw [empty] at carried
      exact absurd carried (Finset.notMem_empty r)
  · rintro ⟨listener, member, carried⟩
    exact ⟨listener, grows.kept listener member, carried⟩

theorem Grows.alive {object : Nat} (grows : Grows c c') (alive : c'.Alive object) :
    c.Alive object ∨ (c.objects ≤ object ∧ object < c'.objects) := by
  obtain ⟨listener, member, rfl⟩ := alive
  rcases grows.new listener member with before | ⟨low, high, _⟩
  · exact .inl ⟨listener, before, rfl⟩
  · exact .inr ⟨low, high⟩

/-! ## Listeners that change -/

section

variable {session : Nat} {listener listener' : Connection}

theorem mem_setListener {entry : Option Connection} (other : some listener' ∈ (c.setListener session entry).sessions) :
    some listener' = entry ∨ some listener' ∈ c.sessions :=
  (List.mem_or_eq_of_mem_set other).symm

/-- A connection that is not the one at the session stays. -/
theorem mem_setListener_of_ne {entry : Option Connection} (found : c.getListener session = some listener)
    (member : some listener' ∈ c.sessions) (other : listener' ≠ listener) :
    some listener' ∈ (c.setListener session entry).sessions := by
  obtain ⟨session', at'⟩ := List.mem_iff_getElem?.mp member
  have apart : session ≠ session' := by
    rintro rfl
    rw [getListener_eq_some] at found
    exact other (Option.some.inj (Option.some.inj (at'.symm.trans found)))
  apply List.mem_of_getElem?
  change (c.sessions.set session entry)[session']? = some (some listener')
  rw [List.getElem?_set_ne apart, at']

theorem mem_setListener_self {entry : Option Connection} (found : c.getListener session = some listener) :
    entry ∈ (c.setListener session entry).sessions := by
  have inside : session < c.sessions.length := (List.getElem?_eq_some_iff.mp (getListener_eq_some.mp found)).1
  exact List.mem_set inside entry

/-- A connection that is replaced by one of the same object. -/
theorem alive_setListener {object : Nat} (found : c.getListener session = some listener)
    (same : listener'.object = listener.object) :
    (c.setListener session (some listener')).Alive object → c.Alive object := by
  rintro ⟨other, member, rfl⟩
  rcases mem_setListener member with here | old
  · obtain rfl := Option.some.inj here
    exact ⟨listener, mem_of_getListener found, same.symm⟩
  · exact ⟨other, old, rfl⟩

theorem carries_setListener (found : c.getListener session = some listener)
    (kept : r ∈ listener.subscriptions → r ∈ listener'.subscriptions) :
    c.Carries r → (c.setListener session (some listener')).Carries r := by
  rintro ⟨other, member, carried⟩
  by_cases same : other = listener
  · subst same
    exact ⟨listener', mem_setListener_self found, kept carried⟩
  · exact ⟨other, mem_setListener_of_ne found member same, carried⟩

theorem carries_of_setListener (found : c.getListener session = some listener)
    (kept : r ∈ listener'.subscriptions → r ∈ listener.subscriptions) :
    (c.setListener session (some listener')).Carries r → c.Carries r := by
  rintro ⟨other, member, carried⟩
  rcases mem_setListener member with here | old
  · obtain rfl := Option.some.inj here
    exact ⟨listener, mem_of_getListener found, kept carried⟩
  · exact ⟨other, old, carried⟩

end

/-! ## Steps -/

/-- What an event does to the connections. -/
inductive SessionStep (c c' : Controller) : Event → Prop where
  | grows (e : Event) (grows : Grows c c') : SessionStep c c' e
  | joins (request : SubscriptionRequest) (session object : Nat) (sessionID subscriptionID : QString)
      {listener : Connection} (found : c.getListener session = some listener)
      (grows : Grows (c.setListener session
        (some { listener with subscriptions := insert request listener.subscriptions })) c') :
      SessionStep c c' (.created request session object sessionID subscriptionID)
  | leaves (request : SubscriptionRequest) (subscriptionID : QString) {session : Nat} {listener : Connection}
      (found : c.getListener session = some listener)
      (grows : Grows (c.setListener session
        (some { listener with subscriptions := listener.subscriptions.erase request })) c') :
      SessionStep c c' (.deleted request subscriptionID)
  | welcomed (session : Nat) (sessionID : QString) {listener : Connection}
      (found : c.getListener session = some listener)
      (grows : Grows (c.setListener session (some { listener with sessionID })) c') :
      SessionStep c c' (.welcome session sessionID)
  | lost (session : Nat) (order : List (SubscriptionRequest × Bool)) (throws : Bool) {listener : Connection}
      (found : c.getListener session = some listener)
      (all : (order.map Prod.fst).toFinset = listener.subscriptions)
      (grows : Grows (c.setListener session none) c') :
      SessionStep c c' (.closed session none order throws)
  | moved (session : Nat) (reconnectURL : QString) (order : List (SubscriptionRequest × Bool))
      {listener : Connection} (found : c.getListener session = some listener)
      (sessions : c'.sessions = (c.setListener session none).sessions ++ [some listener])
      (objects : c'.objects = c.objects) :
      SessionStep c c' (.closed session (some reconnectURL) order false)
  | dropped (session : Nat) (reconnectURL : QString) (order : List (SubscriptionRequest × Bool)) (throws : Bool)
      {listener : Connection} (found : c.getListener session = some listener)
      (noReconnect : throws = true ∨ listener.subscriptions = ∅)
      (grows : Grows (c.setListener session none) c') :
      SessionStep c c' (.closed session (some reconnectURL) order throws)

/-- Work that is dealt with leaves the connections as they are. -/
theorem Grows.take {work : Work} (grows : Grows (c.take r work) c') : Grows c c' :=
  ⟨grows.kept, grows.new, grows.objects⟩

theorem forget_step (request : SubscriptionRequest) (subscriptionID : QString) {connection : Option Nat}
    (same : c'.sessions = c.sessions) (objects : c'.objects = c.objects) :
    SessionStep c (c'.forget request connection) (.deleted request subscriptionID) := by
  have listeners (session : Nat) : c'.getListener session = c.getListener session := by
    rw [getListener, same]
    rfl
  unfold forget
  split
  · exact .grows _ (.of_same same objects)
  · next session =>
    rw [listeners]
    split
    · exact .grows _ (.of_same same objects)
    · next listener found =>
      refine .leaves request subscriptionID found (.of_same ?_ objects)
      change c'.sessions.set session _ = c.sessions.set session _
      rw [same]

theorem closed_step {session : Nat} {reconnectURL : Option QString} {order : List (SubscriptionRequest × Bool)}
    {throws : Bool} {listener : Connection} (found : c.getListener session = some listener)
    (all : (order.map Prod.fst).toFinset = listener.subscriptions) :
    SessionStep c ((c.setListener session none).reconnectConnection listener reconnectURL order throws)
      (.closed session reconnectURL order throws) := by
  unfold reconnectConnection
  dsimp only
  have cleared : Grows (c.setListener session none) (c.setListener session none).clearConnections := .of_same rfl rfl
  split
  · next empty =>
    cases reconnectURL with
    | none => exact .lost session order throws found all cleared
    | some url => exact .dropped session url order throws found (.inr empty) cleared
  · split
    · next url =>
      cases throws with
      | true => exact .dropped session url order true found (.inl rfl) cleared
      | false => exact .moved session url order found rfl rfl
    · have subscribed := Grows.subscribeAll order
        ((c.setListener session none).clearConnections.resetRequests (order.map Prod.fst))
      exact .lost session order throws found all ⟨subscribed.kept, subscribed.new, subscribed.objects⟩

theorem step_sessions {e : Event} (taken : c.step e = some c') : SessionStep c c' e := by
  unfold step at taken
  cases e with
  | subscribe request =>
    obtain rfl := Option.some.inj taken
    exact .grows _ (.of_same rfl rfl)
  | removeRef request =>
    obtain ⟨_, same⟩ := Option.ite_none_right_eq_some.mp taken
    obtain rfl := Option.some.inj same
    exact .grows _ (.of_same rfl rfl)
  | posted request throws =>
    obtain ⟨_, rfl⟩ := deliver_some taken
    exact .grows _ (Grows.subscribeWith _ request false throws).take
  | passes request =>
    dsimp only at taken
    split at taken
    · obtain rfl := Option.some.inj taken
      exact .grows _ (.of_same rfl rfl)
    · cases taken
  | fired request throws =>
    obtain ⟨_, rfl⟩ := deliver_some taken
    exact .grows _ (Grows.subscribeWith _ request true throws).take
  | retry request delay maxAttempts =>
    obtain ⟨_, rfl⟩ := deliver_some taken
    exact .grows _ (.of_same rfl rfl)
  | created request session object sessionID subscriptionID =>
    obtain ⟨_, rfl⟩ := deliver_some taken
    unfold markRequestSubscribed
    split
    · exact .grows _ (.of_same rfl rfl)
    · next listener found =>
      exact .joins request session object sessionID subscriptionID (c := c) found (.of_same rfl rfl)
  | refused request session object sessionID error =>
    obtain ⟨_, rfl⟩ := deliver_some taken
    cases error <;> exact .grows _ (.of_same rfl rfl)
  | deleted request subscriptionID =>
    obtain ⟨_, rfl⟩ := deliver_some taken
    exact forget_step request subscriptionID rfl rfl
  | welcome session sessionID =>
    obtain ⟨listener, found, rfl⟩ := Option.map_eq_some_iff.mp taken
    exact .welcomed session sessionID found (.of_same rfl rfl)
  | closed session reconnectURL order throws =>
    dsimp only at taken
    split at taken
    · cases taken
    · next listener found =>
      obtain ⟨⟨_, all⟩, same⟩ := Option.ite_none_right_eq_some.mp taken
      obtain rfl := Option.some.inj same
      exact closed_step found all

theorem closed_listener {session : Nat} {reconnectURL : Option QString} {order : List (SubscriptionRequest × Bool)}
    {throws : Bool} (taken : c.step (.closed session reconnectURL order throws) = some c') :
    ∃ listener, c.getListener session = some listener ∧ (order.map Prod.fst).toFinset = listener.subscriptions := by
  unfold step at taken
  dsimp only at taken
  split at taken
  · cases taken
  · next listener found =>
    obtain ⟨⟨_, all⟩, _⟩ := Option.ite_none_right_eq_some.mp taken
    exact ⟨listener, found, all⟩

/-- Only a create makes a connection carry a request. -/
theorem SessionStep.carries_of {e : Event} (step : SessionStep c c' e) (carried : c'.Carries r) :
    c.Carries r ∨ ∃ session object sessionID subscriptionID,
      e = .created r session object sessionID subscriptionID ∧ (c.getListener session).isSome := by
  have dropped {session : Nat} : (c.setListener session none).Carries r → c.Carries r := by
    rintro ⟨other, member, inside⟩
    rcases mem_setListener member with here | old
    · cases here
    · exact ⟨other, old, inside⟩
  cases step with
  | grows e grows => exact .inl (grows.carries.mp carried)
  | joins request session object sessionID subscriptionID found grows =>
    by_cases same : request = r
    · subst same
      exact .inr ⟨session, object, sessionID, subscriptionID, rfl, by rw [found]; rfl⟩
    · refine .inl (carries_of_setListener found (fun inside => ?_) (grows.carries.mp carried))
      exact Finset.mem_of_mem_insert_of_ne inside (Ne.symm same)
  | leaves request subscriptionID found grows =>
    exact .inl (carries_of_setListener found Finset.mem_of_mem_erase (grows.carries.mp carried))
  | welcomed session sessionID found grows =>
    refine .inl (carries_of_setListener found ?_ (grows.carries.mp carried))
    exact fun inside => inside
  | lost session order throws found all grows => exact .inl (dropped (grows.carries.mp carried))
  | dropped session url order throws found noReconnect grows => exact .inl (dropped (grows.carries.mp carried))
  | moved session url order found sessions objects =>
    obtain ⟨other, member, inside⟩ := carried
    rw [sessions] at member
    rcases List.mem_append.mp member with old | moved
    · exact .inl (dropped ⟨other, old, inside⟩)
    · obtain rfl := Option.some.inj (List.mem_singleton.mp moved)
      exact .inl ⟨other, mem_of_getListener found, inside⟩

/-- How a request can lose the connection that carries it. -/
theorem SessionStep.carries {e : Event} (step : SessionStep c c' e) (carried : c.Carries r) :
    c'.Carries r ∨ (∃ subscriptionID, e = .deleted r subscriptionID) ∨
      (∃ session order throws, e = .closed session none order throws ∧ r ∈ order.map Prod.fst) ∨
      ∃ session url order listener, e = .closed session (some url) order true ∧
        c.getListener session = some listener ∧ r ∈ listener.subscriptions ∧ ¬ (c.setListener session none).Carries r := by
  obtain ⟨other, member, inside⟩ := carried
  cases step with
  | grows e grows => exact .inl (grows.carries.mpr ⟨other, member, inside⟩)
  | joins request session object sessionID subscriptionID found grows =>
    exact .inl (grows.carries.mpr (carries_setListener found Finset.mem_insert_of_mem ⟨other, member, inside⟩))
  | leaves request subscriptionID found grows =>
    by_cases same : request = r
    · subst same
      exact .inr (.inl ⟨subscriptionID, rfl⟩)
    · refine .inl (grows.carries.mpr (carries_setListener found ?_ ⟨other, member, inside⟩))
      exact Finset.mem_erase_of_ne_of_mem (Ne.symm same)
  | welcomed session sessionID found grows =>
    refine .inl (grows.carries.mpr (carries_setListener found ?_ ⟨other, member, inside⟩))
    exact fun here => here
  | @lost session order throws listener found all grows =>
    by_cases same : other = listener
    · subst same
      rw [← all, List.mem_toFinset] at inside
      exact .inr (.inr (.inl ⟨session, order, throws, rfl, inside⟩))
    · exact .inl (grows.carries.mpr ⟨other, mem_setListener_of_ne found member same, inside⟩)
  | @moved session url order listener found sessions objects =>
    refine .inl ⟨other, ?_, inside⟩
    rw [sessions, List.mem_append]
    by_cases same : other = listener
    · exact .inr (List.mem_singleton.mpr (congrArg some same))
    · exact .inl (mem_setListener_of_ne found member same)
  | @dropped session url order throws listener found noReconnect grows =>
    by_cases elsewhere : (c.setListener session none).Carries r
    · exact .inl (grows.carries.mpr elsewhere)
    · have same : other = listener := by
        by_contra apart
        exact elsewhere ⟨other, mem_setListener_of_ne found member apart, inside⟩
      subst same
      rcases noReconnect with rfl | empty
      · exact .inr (.inr (.inr ⟨session, url, order, other, rfl, found, inside, elsewhere⟩))
      · rw [empty] at inside
        exact absurd inside (Finset.notMem_empty r)

/-- No lost connection comes back: the only other ones are new. -/
theorem SessionStep.alive {e : Event} {object : Nat} (step : SessionStep c c' e) (alive : c'.Alive object) :
    c.Alive object ∨ (c.objects ≤ object ∧ object < c'.objects) := by
  have dropped {session : Nat} : (c.setListener session none).Alive object → c.Alive object := by
    rintro ⟨other, member, same⟩
    rcases mem_setListener member with here | before
    · cases here
    · exact ⟨other, before, same⟩
  cases step with
  | grows e grows => exact grows.alive alive
  | joins request session object sessionID subscriptionID found grows =>
    refine (grows.alive alive).imp (alive_setListener found ?_) id
    rfl
  | leaves request subscriptionID found grows =>
    refine (grows.alive alive).imp (alive_setListener found ?_) id
    rfl
  | welcomed session sessionID found grows =>
    refine (grows.alive alive).imp (alive_setListener found ?_) id
    rfl
  | lost session order throws found all grows => exact (grows.alive alive).imp dropped id
  | dropped session url order throws found noReconnect grows => exact (grows.alive alive).imp dropped id
  | moved session url order found sessions objects =>
    obtain ⟨other, member, same⟩ := alive
    rw [sessions] at member
    rcases List.mem_append.mp member with before | moved
    · exact .inl (dropped ⟨other, before, same⟩)
    · obtain rfl := Option.some.inj (List.mem_singleton.mp moved)
      exact .inl ⟨other, mem_of_getListener found, same⟩

theorem SessionStep.objects {e : Event} (step : SessionStep c c' e) : c.objects ≤ c'.objects := by
  cases step with
  | grows _ grows | joins _ _ _ _ _ _ grows | leaves _ _ _ grows | welcomed _ _ _ grows | lost _ _ _ _ _ grows
  | dropped _ _ _ _ _ _ grows => exact grows.objects
  | moved _ _ _ _ _ objects => exact Nat.le_of_eq objects.symm

theorem created_carries {session object : Nat} {sessionID subscriptionID : QString}
    (taken : c.step (.created r session object sessionID subscriptionID) = some c') (listening : c.listens session = true) :
    c'.Carries r := by
  unfold step at taken
  obtain ⟨_, rfl⟩ := deliver_some taken
  obtain ⟨listener, found⟩ := Option.isSome_iff_exists.mp listening
  have found' : ((c.take r (.create session object sessionID)).addCreated
    ⟨r, subscriptionID, object⟩).getListener session = some listener := found
  simp only [markRequestSubscribed, found']
  exact ⟨_, mem_setListener_self found', Finset.mem_insert_self r _⟩

/-- A request that a connection has come to carry has an entry. -/
theorem created_known {c c' : Controller} {r : SubscriptionRequest} {session object : Nat}
    {sessionID subscriptionID : QString} (taken : c.step (.created r session object sessionID subscriptionID) = some c')
    (listens : (c.getListener session).isSome) : (c'.request r).known = true := by
  unfold step at taken
  obtain ⟨_, rfl⟩ := deliver_some taken
  obtain ⟨listener, found⟩ := Option.isSome_iff_exists.mp listens
  have found' : ((c.take r (.create session object sessionID)).addCreated
    ⟨r, subscriptionID, object⟩).getListener session = some listener := found
  simp only [markRequestSubscribed, found', request_perform]
  rfl

/-- A request that a connection carries has an entry. -/
def CarriesKnown (c : Controller) : Prop := ∀ r, c.Carries r → (c.request r).known = true

theorem CarriesKnown.initial : ({} : Controller).CarriesKnown := by
  rintro r ⟨listener, impossible, _⟩
  cases impossible

theorem CarriesKnown.step {e : Event} (carriesKnown : c.CarriesKnown) (taken : c.step e = some c') :
    c'.CarriesKnown := by
  intro r carried
  obtain ⟨failed, refines⟩ := step_refines taken
  rcases (step_sessions taken).carries_of carried with before | ⟨session, object, sessionID, subscriptionID, rfl, listens⟩
  · by_cases concerned : e.Concerns r
    · exact (refines.concerned r concerned).known (carriesKnown r before)
    · rw [refines.others r concerned]
      exact carriesKnown r before
  · exact created_known taken listens

end Controller

end Forserino.EventSub
