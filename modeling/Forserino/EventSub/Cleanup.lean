import Forserino.EventSub.Sessions
import Forserino.Foundation.Runs

/-! Subscription IDs that Helix returned, and the deletes for them.

A request holds one ID. It is deleted with the last handle, so an ID is leaked where
it arrives after that, replaces another one, or is not stored at all.
-/

set_option autoImplicit false

namespace Forserino.EventSub

open Forserino.Qt Foundation

/-- The ID and the references stay, apart from the ends of a subscription. -/
theorem kept_of_attempt {isRetry : Bool} {l l' : RequestState} {failed : List Assertion}
    (attempt : Attempt isRetry l l' failed) :
    l'.subscription.subscriptionID = l.subscription.subscriptionID ∧
      l'.subscription.refCount = l.subscription.refCount := by
  have started : (Subscription.startSubscribe isRetry l.subscription).subscription.subscriptionID =
      l.subscription.subscriptionID ∧
      (Subscription.startSubscribe isRetry l.subscription).subscription.refCount = l.subscription.refCount := by
    cases isRetry <;> exact ⟨rfl, rfl⟩
  cases attempt with
  | create session object sessionID => exact started
  | retry delay start =>
    subst start
    obtain ⟨references, subscriptionID, _⟩ := Subscription.retrySubscription_kept delay 10
      (l.perform (Subscription.startSubscribe isRetry)).subscription
    exact ⟨subscriptionID.trans started.1, references.trans started.2⟩

theorem subscribe_kept (s : Subscription) : s.subscribe.subscription.subscriptionID = s.subscriptionID ∧
    s.subscribe.subscription.refCount = s.refCount + 1 := by
  unfold Subscription.subscribe
  dsimp only
  split <;> exact ⟨rfl, rfl⟩

/-- What a step does to the ID and the references of a request. -/
inductive Held (listens : Nat → Bool) (s s' : Subscription) (e : Event) : Prop where
  | kept (subscriptionID : s'.subscriptionID = s.subscriptionID) (references : s.refCount ≤ s'.refCount)
  | released (request : SubscriptionRequest) (same : e = .removeRef request)
      (left : s'.subscriptionID = s.subscriptionID ∧ 0 < s'.refCount ∨ s.refCount - 1 ≤ 0)
  | stored (request : SubscriptionRequest) (session object : Nat) (sessionID subscriptionID : QString)
      (same : e = .created request session object sessionID subscriptionID) (listening : listens session = true)
      (store : s'.subscriptionID = subscriptionID) (references : s'.refCount = s.refCount)

theorem RequestStep.held {listens : Nat → Bool} {l l' : RequestState} {e : Event} {failed : List Assertion}
    (step : RequestStep listens l e l' failed) : Held listens l.subscription l'.subscription e := by
  cases step with
  | subscribe request =>
    obtain ⟨subscriptionID, references⟩ := subscribe_kept l.subscription
    exact .kept subscriptionID (references ▸ Int.le_add_one (Int.le_refl _))
  | removeRef request held =>
    refine .released request rfl ?_
    by_cases last : l.subscription.refCount - 1 ≤ 0
    · exact .inr last
    · left
      simp only [RequestState.addHandles, RequestState.perform, Subscription.removeRef, if_neg last]
      exact ⟨trivial, Int.not_le.mp last⟩
  | posted request throws outstanding attempt | fired request throws outstanding attempt =>
    obtain ⟨subscriptionID, references⟩ := kept_of_attempt attempt
    exact .kept subscriptionID (Int.le_of_eq references.symm)
  | passes request armed => exact .kept rfl (Int.le_refl _)
  | retry request delay maxAttempts outstanding =>
    obtain ⟨references, subscriptionID, _⟩ :=
      Subscription.retrySubscription_kept delay maxAttempts l.subscription
    exact .kept subscriptionID (Int.le_of_eq references.symm)
  | created request session object sessionID subscriptionID outstanding listening =>
    exact .stored request session object sessionID subscriptionID rfl listening rfl rfl
  | createdLate => exact .kept rfl (Int.le_refl _)
  | refused request session object sessionID error outstanding => cases error <;> exact .kept rfl (Int.le_refl _)
  | deleted => exact .kept rfl (Int.le_refl _)
  | closed session order throws attempt =>
    obtain ⟨subscriptionID, references⟩ := kept_of_attempt attempt
    have reset : l.reset.subscription.subscriptionID = l.subscription.subscriptionID ∧
        l.reset.subscription.refCount = l.subscription.refCount := by
      unfold RequestState.reset
      split <;> exact ⟨rfl, rfl⟩
    exact .kept (subscriptionID.trans reset.1) (Int.le_of_eq (references.trans reset.2).symm)

namespace Controller

variable {c c' : Controller} {r : SubscriptionRequest}

/-! ## What has been created and deleted -/

/-- No create has been answered, and no delete is taken back. -/
structure Extends (c c' : Controller) : Prop where
  created : c'.created = c.created
  deleted : ∀ subscriptionID ∈ c.deleted, subscriptionID ∈ c'.deleted

theorem Extends.trans {c c' c'' : Controller} (first : Extends c c') (second : Extends c' c'') : Extends c c'' :=
  ⟨second.created.trans first.created, fun id member => second.deleted id (first.deleted id member)⟩

/-- Where neither list has changed. -/
theorem Extends.of_same (created : c'.created = c.created) (deleted : c'.deleted = c.deleted) : Extends c c' :=
  ⟨created, fun _ member => deleted ▸ member⟩

theorem Extends.perform (c : Controller) (r : SubscriptionRequest) (section' : Subscription → Outcome) :
    Extends c (c.perform r section') :=
  ⟨rfl, fun _ member => List.mem_append_left _ member⟩

theorem Extends.subscribeWith (c : Controller) (r : SubscriptionRequest) (isRetry throws : Bool) :
    Extends c (c.subscribeWith r isRetry throws) := by
  unfold Controller.subscribeWith requestSubscription
  refine (Extends.perform c r (Subscription.startSubscribe isRetry)).trans ?_
  split
  · split <;> exact .of_same rfl rfl
  · have created : Extends (c.perform r (Subscription.startSubscribe isRetry))
        ((c.perform r (Subscription.startSubscribe isRetry)).createConnection throws) := by
      cases throws <;> exact .of_same rfl rfl
    exact created.trans (.perform _ r _)
  · exact .perform _ r _

theorem Extends.subscribeAll (order : List (SubscriptionRequest × Bool)) (c : Controller) :
    Extends c (c.subscribeAll order) := by
  induction order generalizing c with
  | nil => exact .of_same rfl rfl
  | cons entry rest ih => exact (Extends.subscribeWith c entry.1 false entry.2).trans (ih _)

theorem Extends.forget (c : Controller) (r : SubscriptionRequest) (connection : Option Nat) :
    Extends c (c.forget r connection) := by
  unfold Controller.forget
  split
  · exact .of_same rfl rfl
  · split <;> exact .of_same rfl rfl

theorem Extends.reconnectConnection (c : Controller) (connection : Connection) (reconnectURL : Option QString)
    (order : List (SubscriptionRequest × Bool)) (throws : Bool) :
    Extends c (c.reconnectConnection connection reconnectURL order throws) := by
  unfold Controller.reconnectConnection
  dsimp only
  split
  · exact .of_same rfl rfl
  · split
    · cases throws <;> exact .of_same rfl rfl
    · have subscribed := Extends.subscribeAll order (c.clearConnections.resetRequests (order.map Prod.fst))
      exact ⟨subscribed.created, subscribed.deleted⟩

/-- The list of creates grows with every successful one. -/
inductive Records (c c' : Controller) : Event → Prop where
  | unchanged (e : Event) (grown : Extends c c') : Records c c' e
  | created (request : SubscriptionRequest) (session object : Nat) (sessionID subscriptionID : QString)
      (outstanding : .create session object sessionID ∈ c.work request)
      (created : c'.created = c.created ++ [⟨request, subscriptionID, object⟩])
      (deleted : ∀ id ∈ c.deleted, id ∈ c'.deleted) :
      Records c c' (.created request session object sessionID subscriptionID)

theorem step_records {e : Event} (taken : c.step e = some c') : Records c c' e := by
  unfold step at taken
  cases e with
  | subscribe request =>
    obtain rfl := Option.some.inj taken
    have performed := Extends.perform c request Subscription.subscribe
    exact .unchanged _ ⟨performed.created, performed.deleted⟩
  | removeRef request =>
    obtain ⟨_, same⟩ := Option.ite_none_right_eq_some.mp taken
    obtain rfl := Option.some.inj same
    have performed := Extends.perform (c.assert (check .contains (c.subscriptions request).isSome)) request
      Subscription.removeRef
    exact .unchanged _ ⟨performed.created, performed.deleted⟩
  | posted request throws =>
    obtain ⟨_, rfl⟩ := deliver_some taken
    have subscribed := Extends.subscribeWith (c.take request .subscribe) request false throws
    exact .unchanged _ ⟨subscribed.created, subscribed.deleted⟩
  | passes request =>
    dsimp only at taken
    split at taken
    · obtain rfl := Option.some.inj taken
      exact .unchanged _ (.perform c request _)
    · cases taken
  | fired request throws =>
    obtain ⟨_, rfl⟩ := deliver_some taken
    have subscribed := Extends.subscribeWith (c.take request .fired) request true throws
    exact .unchanged _ ⟨subscribed.created, subscribed.deleted⟩
  | retry request delay maxAttempts =>
    obtain ⟨_, rfl⟩ := deliver_some taken
    have performed := Extends.perform (c.take request (.retry delay maxAttempts)) request
      (Subscription.retrySubscription delay maxAttempts)
    exact .unchanged _ ⟨performed.created, performed.deleted⟩
  | created request session object sessionID subscriptionID =>
    obtain ⟨outstanding, rfl⟩ := deliver_some taken
    have marked : Extends ((c.take request (.create session object sessionID)).addCreated
        ⟨request, subscriptionID, object⟩) (((c.take request (.create session object sessionID)).addCreated
          ⟨request, subscriptionID, object⟩).markRequestSubscribed request session subscriptionID) := by
      unfold markRequestSubscribed
      split
      · exact .of_same rfl rfl
      · next listener found =>
        have performed := Extends.perform (((c.take request (.create session object sessionID)).addCreated
          ⟨request, subscriptionID, object⟩).setListener session
            (some { listener with subscriptions := insert request listener.subscriptions })) request
          (Subscription.markRequestSubscribed session subscriptionID)
        exact ⟨performed.created, performed.deleted⟩
    exact .created request session object sessionID subscriptionID outstanding marked.created marked.deleted
  | refused request session object sessionID error =>
    obtain ⟨_, rfl⟩ := deliver_some taken
    have performed := Extends.perform (c.take request (.create session object sessionID)) request
      Subscription.markRequestFailed
    cases error
    case forbidden | forwarded => exact .unchanged _ (.of_same rfl rfl)
    all_goals exact .unchanged _ ⟨performed.created, performed.deleted⟩
  | deleted request subscriptionID =>
    obtain ⟨_, rfl⟩ := deliver_some taken
    have performed := Extends.perform (c.take request (.delete subscriptionID)) request
      Subscription.markRequestUnsubscribed
    have forgotten := performed.trans
      (.forget _ request ((c.take request (.delete subscriptionID)).subscription request).connection)
    exact .unchanged _ ⟨forgotten.created, forgotten.deleted⟩
  | welcome session sessionID =>
    obtain ⟨listener, _, rfl⟩ := Option.map_eq_some_iff.mp taken
    exact .unchanged _ (.of_same rfl rfl)
  | closed session reconnectURL order throws =>
    dsimp only at taken
    split at taken
    · cases taken
    · next listener found =>
      obtain ⟨_, same⟩ := Option.ite_none_right_eq_some.mp taken
      obtain rfl := Option.some.inj same
      have reconnected := Extends.reconnectConnection (c.setListener session none) listener reconnectURL order throws
      exact .unchanged _ ⟨reconnected.created, reconnected.deleted⟩

/-- The last handle takes the ID along. -/
theorem removeRef_deleted (taken : c.step (.removeRef r) = some c') (last : (c.subscription r).refCount - 1 ≤ 0)
    (held : (c.subscription r).subscriptionID ≠ []) : (c.subscription r).subscriptionID ∈ c'.deleted := by
  unfold step at taken
  obtain ⟨_, same⟩ := Option.ite_none_right_eq_some.mp taken
  obtain rfl := Option.some.inj same
  have outcome : ((c.subscription r).removeRef).work = [.delete (c.subscription r).subscriptionID] := by
    have nonempty : ¬ (c.subscription r).subscriptionID.isEmpty := fun empty => held (List.isEmpty_iff.mp empty)
    simp only [Subscription.removeRef, if_pos last, if_neg nonempty]
  change _ ∈ c.deleted ++ ((c.subscription r).removeRef).work.filterMap deletedID
  rw [outcome]
  exact List.mem_append_right _ (List.mem_singleton.mpr rfl)

/-! ## Connection objects -/

/-- The numbers of all connection objects, also of those that a create was sent for,
have been given out. -/
structure Numbered (c : Controller) : Prop where
  alive : ∀ object, c.Alive object → object < c.objects
  creates : ∀ r session object sessionID, .create session object sessionID ∈ c.work r → object < c.objects

theorem Numbered.of_work (numbered : c.Numbered) (alive : ∀ object, c'.Alive object → object < c'.objects)
    (objects : c.objects ≤ c'.objects)
    (work : ∀ r session object sessionID, .create session object sessionID ∈ c'.work r →
      .create session object sessionID ∈ c.work r ∨ object < c'.objects) : c'.Numbered := by
  refine ⟨alive, fun r session object sessionID member => ?_⟩
  rcases work r session object sessionID member with old | new
  · exact Nat.lt_of_lt_of_le (numbered.creates r session object sessionID old) objects
  · exact new

theorem mem_perform {section' : Subscription → Outcome} {work : Work} {r' : SubscriptionRequest}
    (member : work ∈ (c.perform r section').work r') :
    work ∈ c.work r' ∨ work ∈ (section' (c.subscription r)).work := by
  unfold perform at member
  dsimp only at member
  by_cases same : r' = r
  · subst same
    rw [Function.update_self] at member
    exact List.mem_append.mp member
  · rw [Function.update_of_ne same] at member
    exact .inl member

theorem mem_take {work work' : Work} {r' : SubscriptionRequest} (member : work ∈ (c.take r work').work r') :
    work ∈ c.work r' := by
  unfold take at member
  dsimp only at member
  by_cases same : r' = r
  · subst same
    rw [Function.update_self] at member
    exact List.mem_of_mem_erase member
  · rwa [Function.update_of_ne same] at member

theorem mem_post {work work' : Work} {r' : SubscriptionRequest} (member : work ∈ (c.post r work').work r') :
    work ∈ c.work r' ∨ work = work' := by
  unfold post at member
  dsimp only at member
  by_cases same : r' = r
  · subst same
    rw [Function.update_self] at member
    rcases List.mem_append.mp member with old | new
    · exact .inl old
    · exact .inr (List.mem_singleton.mp new)
  · rw [Function.update_of_ne same] at member
    exact .inl member

/-- A section that sends no create. -/
theorem Numbered.perform (numbered : c.Numbered) (r : SubscriptionRequest) {section' : Subscription → Outcome}
    (noCreate : ∀ session object sessionID, .create session object sessionID ∉ (section' (c.subscription r)).work) :
    (c.perform r section').Numbered := by
  refine numbered.of_work numbered.alive (Nat.le_refl _) fun r' session object sessionID member => ?_
  rcases mem_perform member with old | new
  · exact .inl old
  · exact absurd new (noCreate session object sessionID)

theorem Numbered.take (numbered : c.Numbered) (r : SubscriptionRequest) (work : Work) : (c.take r work).Numbered :=
  numbered.of_work numbered.alive (Nat.le_refl _) fun _ _ _ _ member => .inl (mem_take member)

theorem Numbered.createConnection (numbered : c.Numbered) (throws : Bool) : (c.createConnection throws).Numbered := by
  refine numbered.of_work ?_ (Grows.createConnection c throws).objects fun _ _ _ _ member => ?_
  · rintro object ⟨listener, member, rfl⟩
    rcases (Grows.createConnection c throws).new listener member with old | ⟨_, high, _⟩
    · exact Nat.lt_of_lt_of_le (numbered.alive _ ⟨listener, old, rfl⟩) (Grows.createConnection c throws).objects
    · exact high
  · left
    cases throws <;> exact member

theorem Numbered.retry (numbered : c.Numbered) (r : SubscriptionRequest) (delay : Nat) (maxAttempts : Int) :
    (c.perform r (Subscription.retrySubscription delay maxAttempts)).Numbered := by
  refine numbered.perform r fun session object sessionID member => ?_
  rw [(Subscription.retrySubscription_kept delay maxAttempts (c.subscription r)).2.2] at member
  cases member

theorem Numbered.subscribeWith (numbered : c.Numbered) (r : SubscriptionRequest) (isRetry throws : Bool) :
    (c.subscribeWith r isRetry throws).Numbered := by
  have started : (c.perform r (Subscription.startSubscribe isRetry)).Numbered :=
    numbered.perform r fun _ _ _ impossible => nomatch impossible
  unfold Controller.subscribeWith requestSubscription
  split
  · split
    · next session open' viable listener found =>
      refine started.of_work started.alive (Nat.le_refl _) fun r' session' object sessionID member => ?_
      rcases mem_post member with old | new
      · exact .inl old
      · cases new
        exact .inr (started.alive _ ⟨listener, mem_of_getListener found, rfl⟩)
    · exact ⟨started.alive, started.creates⟩
  · exact (started.createConnection throws).retry r 500 10
  · exact started.retry r 250 10

theorem Numbered.subscribeAll (numbered : c.Numbered) (order : List (SubscriptionRequest × Bool)) :
    (c.subscribeAll order).Numbered := by
  induction order generalizing c with
  | nil => exact numbered
  | cons entry rest ih => exact ih (numbered.subscribeWith entry.1 false entry.2)

theorem Numbered.setListener (numbered : c.Numbered) (session : Nat) : (c.setListener session none).Numbered := by
  refine ⟨?_, numbered.creates⟩
  rintro object ⟨listener, member, rfl⟩
  rcases mem_setListener member with impossible | old
  · cases impossible
  · exact numbered.alive _ ⟨listener, old, rfl⟩

theorem Numbered.step {e : Event} (numbered : c.Numbered) (taken : c.step e = some c') : c'.Numbered := by
  have sessions := step_sessions taken
  -- the sessions step bounds the connections that are left, so only the work remains
  have alive (object : Nat) (alive' : c'.Alive object) : object < c'.objects := by
    rcases sessions.alive alive' with old | ⟨_, high⟩
    · exact Nat.lt_of_lt_of_le (numbered.alive object old) sessions.objects
    · exact high
  refine numbered.of_work alive sessions.objects fun r session object sessionID member => ?_
  unfold Controller.step at taken
  cases e with
  | subscribe request =>
    obtain rfl := Option.some.inj taken
    left
    rcases mem_perform member with old | new
    · exact old
    · unfold Subscription.subscribe at new
      dsimp only at new
      split at new
      all_goals simp at new
  | removeRef request =>
    obtain ⟨_, same⟩ := Option.ite_none_right_eq_some.mp taken
    obtain rfl := Option.some.inj same
    left
    rcases mem_perform member with old | new
    · exact old
    · unfold Subscription.removeRef at new
      dsimp only at new
      split at new
      · split at new <;> simp at new
      · simp at new
  | posted request throws =>
    obtain ⟨_, rfl⟩ := deliver_some taken
    exact .inr (((numbered.take request .subscribe).subscribeWith request false throws).creates r _ _ _ member)
  | passes request =>
    dsimp only at taken
    split at taken
    · obtain rfl := Option.some.inj taken
      left
      rcases mem_perform member with old | new
      · exact old
      · simp at new
    · cases taken
  | fired request throws =>
    obtain ⟨_, rfl⟩ := deliver_some taken
    exact .inr (((numbered.take request .fired).subscribeWith request true throws).creates r _ _ _ member)
  | retry request delay maxAttempts =>
    obtain ⟨_, rfl⟩ := deliver_some taken
    exact .inr (((numbered.take request (.retry delay maxAttempts)).retry request delay maxAttempts).creates r _ _ _ member)
  | created request session' object' sessionID' subscriptionID =>
    obtain ⟨_, rfl⟩ := deliver_some taken
    left
    unfold markRequestSubscribed at member
    split at member
    · exact mem_take member
    · rcases mem_perform member with old | new
      · exact mem_take old
      · cases new
  | refused request session' object' sessionID' error =>
    obtain ⟨_, rfl⟩ := deliver_some taken
    left
    cases error
    case forbidden | forwarded =>
      rcases mem_post member with old | new
      · exact mem_take old
      · cases new
    all_goals
      rcases mem_perform member with old | new
      · exact mem_take old
      · cases new
  | deleted request subscriptionID =>
    obtain ⟨_, rfl⟩ := deliver_some taken
    left
    have same : ((c.take request (.delete subscriptionID)).markRequestUnsubscribed request).work r =
        ((c.take request (.delete subscriptionID)).perform request Subscription.markRequestUnsubscribed).work r :=
      congrArg RequestState.work (request_forget _ request _ r)
    rw [same] at member
    rcases mem_perform member with old | new
    · exact mem_take old
    · cases new
  | welcome session' sessionID' =>
    obtain ⟨listener, _, rfl⟩ := Option.map_eq_some_iff.mp taken
    exact .inl member
  | closed session' reconnectURL order throws =>
    dsimp only at taken
    split at taken
    · cases taken
    · next listener found =>
      obtain ⟨_, same⟩ := Option.ite_none_right_eq_some.mp taken
      obtain rfl := Option.some.inj same
      unfold Controller.reconnectConnection at member ⊢
      dsimp only at member ⊢
      split at member
      · exact .inl member
      · next nonempty =>
        split at member
        · left
          cases throws <;> exact member
        · have reset : ((c.setListener session' none).clearConnections.resetRequests (order.map Prod.fst)).Numbered :=
            ⟨(numbered.setListener session').alive, (numbered.setListener session').creates⟩
          rw [if_neg nonempty]
          exact .inr ((reset.subscribeAll order).creates r _ _ _ member)

/-! ## Every ID is deleted or held -/

/-- A create is answered for a request that is wanted, with an ID, and while no other
ID of the request is left; and its connection has not moved to another session. -/
def Tidy (c : Controller) : Event → Prop
  | .created request session object _ subscriptionID =>
      if c.listens session then
        0 < (c.subscription request).refCount ∧ subscriptionID ≠ [] ∧
          ∀ created ∈ c.created, created.request = request → c.Alive created.object →
            created.subscriptionID ∈ c.deleted
      else ¬ c.Alive object
  | _ => True

instance (c : Controller) : ∀ e, Decidable (c.Tidy e)
  | .created request session object _ subscriptionID =>
    inferInstanceAs (Decidable (if c.listens session then
      0 < (c.subscription request).refCount ∧ subscriptionID ≠ [] ∧
        ∀ created ∈ c.created, created.request = request → c.Alive created.object →
          created.subscriptionID ∈ c.deleted
      else ¬ c.Alive object))
  | .subscribe _ | .removeRef _ | .posted _ _ | .passes _ | .fired _ _ | .retry _ _ _ | .refused _ _ _ _ _
  | .deleted _ _ | .welcome _ _ | .closed _ _ _ _ => isTrue trivial

theorem Tidy.listening {session object : Nat} {sessionID subscriptionID : QString}
    (tidy : c.Tidy (.created r session object sessionID subscriptionID)) (listening : c.listens session = true) :
    0 < (c.subscription r).refCount ∧ subscriptionID ≠ [] ∧
      ∀ created ∈ c.created, created.request = r → c.Alive created.object → created.subscriptionID ∈ c.deleted := by
  change if c.listens session then _ else _ at tidy
  rwa [if_pos listening] at tidy

theorem Tidy.silent {session object : Nat} {sessionID subscriptionID : QString}
    (tidy : c.Tidy (.created r session object sessionID subscriptionID)) (silent : c.listens session = false) :
    ¬ c.Alive object := by
  change if c.listens session then _ else _ at tidy
  rwa [if_neg (by rw [silent]; decide)] at tidy

theorem created_stored {session object : Nat} {sessionID subscriptionID : QString}
    (taken : c.step (.created r session object sessionID subscriptionID) = some c')
    (listening : c.listens session = true) : (c'.subscription r).subscriptionID = subscriptionID ∧
      (c'.subscription r).refCount = (c.subscription r).refCount := by
  obtain ⟨failed, refines⟩ := step_refines taken
  have step := refines.concerned r rfl
  generalize failed r = asserts at step
  generalize same : c'.request r = l at step
  have subscription : c'.subscription r = l.subscription := congrArg RequestState.subscription same
  rw [subscription]
  cases step with
  | created => exact ⟨rfl, rfl⟩
  | createdLate _ _ _ _ _ _ silent =>
    rw [listening] at silent
    cases silent

/-- The ID is deleted, or it is the one that the wanted request holds. -/
def Accounted (c : Controller) (created : Created) : Prop :=
  created.subscriptionID ∈ c.deleted ∨
    ((c.subscription created.request).subscriptionID = created.subscriptionID ∧ created.subscriptionID ≠ [] ∧
      0 < (c.subscription created.request).refCount)

structure Clean (c : Controller) : Prop where
  accounted : ∀ created ∈ c.created, c.Alive created.object → c.Accounted created
  objects : ∀ created ∈ c.created, created.object < c.objects
  numbered : c.Numbered

theorem Clean.initial : ({} : Controller).Clean := by
  refine ⟨(fun _ impossible => nomatch impossible), (fun _ impossible => nomatch impossible), ⟨?_, ?_⟩⟩
  · rintro object ⟨listener, impossible, _⟩
    cases impossible
  · exact fun _ _ _ _ impossible => nomatch impossible

/-- An ID stays accounted for by every event but a create that replaces it. -/
theorem Accounted.step {e : Event} {created : Created} (accounted : c.Accounted created)
    (taken : c.step e = some c') (deleted : ∀ id ∈ c.deleted, id ∈ c'.deleted)
    (replaced : ∀ session object sessionID subscriptionID,
      e = .created created.request session object sessionID subscriptionID → c.listens session = true →
        created.subscriptionID ∈ c.deleted) : c'.Accounted created := by
  rcases accounted with gone | ⟨held, nonempty, wanted⟩
  · exact .inl (deleted _ gone)
  · obtain ⟨failed, refines⟩ := step_refines taken
    by_cases concerned : e.Concerns created.request
    · cases (refines.concerned created.request concerned).held with
      | kept subscriptionID references =>
        exact .inr ⟨subscriptionID.trans held, nonempty, Int.lt_of_lt_of_le wanted references⟩
      | released request same left =>
        subst same
        obtain rfl : request = created.request := concerned
        rcases left with ⟨subscriptionID, stillWanted⟩ | last
        · exact .inr ⟨subscriptionID.trans held, nonempty, stillWanted⟩
        · left
          have gone := removeRef_deleted taken last (by rw [held]; exact nonempty)
          rwa [held] at gone
      | stored request session object sessionID subscriptionID same listening store references =>
        subst same
        obtain rfl : request = created.request := concerned
        exact .inl (deleted _ (replaced session object sessionID subscriptionID rfl listening))
    · have same : c'.subscription created.request = c.subscription created.request :=
        congrArg RequestState.subscription (refines.others created.request concerned)
      rw [← same] at held wanted
      exact .inr ⟨held, nonempty, wanted⟩

theorem Clean.step {e : Event} (clean : c.Clean) (tidy : c.Tidy e) (taken : c.step e = some c') : c'.Clean := by
  have sessions := step_sessions taken
  have objects (created : Created) (member : created ∈ c.created) : created.object < c'.objects :=
    Nat.lt_of_lt_of_le (clean.objects created member) sessions.objects
  have alive (created : Created) (member : created ∈ c.created) (alive' : c'.Alive created.object) :
      c.Alive created.object := by
    rcases sessions.alive alive' with old | ⟨low, _⟩
    · exact old
    · exact absurd (clean.objects created member) (Nat.not_lt.mpr low)
  -- an ID is only replaced by a tidy create, which comes when it has been deleted
  have kept (deleted : ∀ id ∈ c.deleted, id ∈ c'.deleted) (created : Created) (member : created ∈ c.created)
      (alive' : c'.Alive created.object) : c'.Accounted created := by
    apply (clean.accounted created member (alive created member alive')).step taken deleted
    rintro session object sessionID subscriptionID rfl listening
    exact (tidy.listening listening).2.2 created member rfl (alive created member alive')
  cases step_records taken with
  | unchanged _ grown =>
    refine ⟨fun created member => ?_, fun created member => ?_, clean.numbered.step taken⟩
    · rw [grown.created] at member
      exact kept grown.deleted created member
    · rw [grown.created] at member
      exact objects created member
  | created request session object sessionID subscriptionID outstanding recorded deleted =>
    have numbered := clean.numbered.creates request session object sessionID outstanding
    refine ⟨fun created member => ?_, fun created member => ?_, clean.numbered.step taken⟩
    · rw [recorded] at member
      rcases List.mem_append.mp member with old | new
      · exact kept deleted created old
      · obtain rfl := List.mem_singleton.mp new
        intro alive'
        have stillAlive : c.Alive object := by
          rcases sessions.alive alive' with before | ⟨low, _⟩
          · exact before
          · exact absurd numbered (Nat.not_lt.mpr low)
        cases listening : c.listens session with
        | true =>
          obtain ⟨wanted, nonempty, _⟩ := tidy.listening listening
          obtain ⟨stored, references⟩ := created_stored taken listening
          exact .inr ⟨stored, nonempty, references ▸ wanted⟩
        | false => exact absurd stillAlive (tidy.silent listening)
    · rw [recorded] at member
      rcases List.mem_append.mp member with old | new
      · exact objects created old
      · obtain rfl := List.mem_singleton.mp new
        exact Nat.lt_of_lt_of_le numbered sessions.objects

/-- In a run of tidy events nothing is left of a request without handles: every ID that
a create returned for it on a connection that lives has been passed to a delete. -/
theorem unwanted_deleted (events : List Event) {c : Controller} (ran : run Controller.step {} events = some c)
    (tidy : Along Controller.step Tidy {} events) (r : SubscriptionRequest)
    (unwanted : (c.subscription r).refCount = 0) :
    ∀ created ∈ c.created, created.request = r → c.Alive created.object → created.subscriptionID ∈ c.deleted := by
  have clean := run_invariant (fun _ _ _ clean tidy taken => Clean.step clean tidy taken) tidy ran Clean.initial
  rintro created member rfl alive
  rcases clean.accounted created member alive with gone | ⟨_, _, wanted⟩
  · exact gone
  · omega

theorem unwanted_deleted_unsubscribed : ∃ c, run Controller.step {} (untilCreate ++
    [createAnswer, .removeRef moderation]) = some c ∧
      ∀ created ∈ c.created, created.request = moderation → c.Alive created.object →
        created.subscriptionID ∈ c.deleted :=
  ⟨_, rfl, unwanted_deleted (untilCreate ++ [createAnswer, .removeRef moderation]) rfl (by decide) moderation rfl⟩

/-- The create is answered when the last handle is gone, and its ID is never deleted. -/
theorem created_unwanted : ∃ c, run Controller.step {} (untilCreate ++ [.removeRef moderation, createAnswer]) = some c ∧
    (c.subscription moderation).refCount = 0 ∧ c.work moderation = [] ∧
    (c.subscription moderation).retryTimer = none ∧ ∃ created ∈ c.created, created.request = moderation ∧ c.Alive created.object ∧
      created.subscriptionID ∉ c.deleted :=
  ⟨_, rfl, rfl, rfl, rfl, ⟨moderation, qs "id", 0⟩, by decide, rfl, by decide, by decide⟩

end Controller

end Forserino.EventSub
