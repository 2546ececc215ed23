import Forserino.EventSub.Sessions
import Forserino.Foundation.Runs

/-! Progress of the requests that somebody holds a handle for.

Such a request is subscribed, failed, or has work outstanding, unless the work ends
without a look at the handles that there are by then.
-/

set_option autoImplicit false

namespace Forserino.EventSub

open Forserino.Qt Foundation

def Subscription.armed (s : Subscription) : Bool :=
  match s.retryTimer with
  | some (.armed _) => true
  | _ => false

namespace RequestState

/-- Something will come back to the request. -/
def Outstanding (l : RequestState) : Prop := l.work ≠ [] ∨ l.subscription.armed = true

instance (l : RequestState) : Decidable l.Outstanding := inferInstanceAs (Decidable (_ ∨ _))

/-- Progress of a request, up to the connection that it needs when it is subscribed. -/
structure Advancing (l : RequestState) : Prop where
  wanted : 0 < l.subscription.refCount →
    l.subscription.state = .failed ∨ l.subscription.state = .subscribed ∨ l.Outstanding
  deleting : l.subscription.state = .unsubscribing → ∃ subscriptionID, .delete subscriptionID ∈ l.work

/-- The event does not end the work of a request that is wanted. -/
def Attentive (listens : Nat → Bool) (l : RequestState) : Event → Prop
  | .subscribe _ => l.subscription.state = .subscribing ∨ l.subscription.state = .retrying → l.Outstanding
  | .created _ session object sessionID _ => listens session = false → 0 < l.subscription.refCount →
      l.subscription.state = .failed ∨ l.subscription.state = .subscribed ∨
        (l.take (.create session object sessionID)).Outstanding
  | .deleted _ subscriptionID => 0 < l.subscription.refCount → (l.take (.delete subscriptionID)).Outstanding
  | _ => True

instance (listens : Nat → Bool) (l : RequestState) : ∀ e, Decidable (l.Attentive listens e)
  | .subscribe _ => inferInstanceAs (Decidable (_ → _))
  | .created _ _ _ _ _ => inferInstanceAs (Decidable (_ → _ → _))
  | .deleted _ _ => inferInstanceAs (Decidable (_ → _))
  | .removeRef _ | .posted _ _ | .passes _ | .fired _ _ | .retry _ _ _ | .refused _ _ _ _ _ | .welcome _ _
  | .closed _ _ _ _ => isTrue trivial

/-- Work that is not the one dealt with stays. -/
theorem mem_take {l : RequestState} {work other : Work} (member : other ∈ l.work) (apart : other ≠ work) :
    other ∈ (l.take work).work :=
  (List.mem_erase_of_ne apart).mpr member

theorem outstanding_append {l : RequestState} (work : Work) : (l.post work).Outstanding := by
  left
  exact List.append_ne_nil_of_right_ne_nil _ (List.cons_ne_nil _ _)

/-- A request for which retrySubscription has been called. -/
theorem Advancing.retried {l : RequestState} (delay : Nat) (maxAttempts : Int) :
    (l.perform (Subscription.retrySubscription delay maxAttempts)).Advancing := by
  obtain ⟨references, _, noWork⟩ := Subscription.retrySubscription_kept delay maxAttempts l.subscription
  have state := Subscription.retrySubscription_retried delay maxAttempts l.subscription
  cases state with
  | unwanted zero unsubscribed =>
    constructor
    · intro wanted
      exact absurd (references.trans zero) (Int.ne_of_gt wanted)
    · intro unsubscribing
      rw [perform] at unsubscribing
      rw [unsubscribed] at unsubscribing
      cases unsubscribing
  | failed failed =>
    exact ⟨fun _ => .inl failed, fun unsubscribing => absurd (failed.symm.trans unsubscribing) (by decide)⟩
  | armed retrying timer =>
    constructor
    · intro _
      right; right; right
      rw [perform, Subscription.armed, timer]
    · exact fun unsubscribing => absurd (retrying.symm.trans unsubscribing) (by decide)

theorem Advancing.attempt {isRetry : Bool} {l l' : RequestState} {failed : List Assertion}
    (attempt : Attempt isRetry l l' failed)
    (deleting : l.subscription.state = .unsubscribing → ∃ subscriptionID, .delete subscriptionID ∈ l.work) :
    l'.Advancing := by
  cases attempt with
  | create session object sessionID =>
    refine ⟨fun _ => .inr (.inr (outstanding_append _)), fun unsubscribing => ?_⟩
    have same : (Subscription.startSubscribe isRetry l.subscription).subscription.state = l.subscription.state := by
      cases isRetry <;> rfl
    obtain ⟨subscriptionID, member⟩ := deleting (same.symm.trans unsubscribing)
    exact ⟨subscriptionID, List.mem_append_left _ (List.mem_append_left _ member)⟩
  | retry delay start => exact .retried delay 10

theorem Advancing.subscribe {l : RequestState} (advancing : l.Advancing) (handles : Nat)
    (attentive : l.subscription.state = .subscribing ∨ l.subscription.state = .retrying → l.Outstanding) :
    ((l.perform Subscription.subscribe).addHandles handles).Advancing := by
  -- a handle more for a request that is dealt with already
  have another (outcome : l.subscription.subscribe =
      { subscription := { l.subscription with refCount := l.subscription.refCount + 1 }
        failed := check .references (0 ≤ l.subscription.refCount) })
      (dealt : l.subscription.state = .subscribed ∨ l.Outstanding) :
      ((l.perform Subscription.subscribe).addHandles handles).Advancing := by
    unfold perform addHandles
    rw [outcome]
    constructor
    · intro _
      rcases dealt with subscribed | outstanding
      · exact .inr (.inl subscribed)
      · right; right
        rcases outstanding with work | armed
        · exact .inl (List.append_ne_nil_of_left_ne_nil work _)
        · exact .inr armed
    · intro unsubscribing
      obtain ⟨subscriptionID, member⟩ := advancing.deleting unsubscribing
      exact ⟨subscriptionID, List.mem_append_left _ member⟩
  have fresh (work : (l.subscription.subscribe).work = [.subscribe])
      (state : (l.subscription.subscribe).subscription.state = .subscribing) :
      ((l.perform Subscription.subscribe).addHandles handles).Advancing := by
    refine ⟨fun _ => .inr (.inr (.inl ?_)), fun unsubscribing => ?_⟩
    · rw [addHandles, perform, work]
      exact List.append_ne_nil_of_right_ne_nil _ (List.cons_ne_nil _ _)
    · exact absurd (state.symm.trans unsubscribing) (by decide)
  cases state : l.subscription.state with
  | unsubscribed | failed => exact fresh (by simp only [Subscription.subscribe, state]) (by simp only [Subscription.subscribe, state])
  | subscribing => exact another (by simp only [Subscription.subscribe, state]) (.inr (attentive (.inl state)))
  | retrying => exact another (by simp only [Subscription.subscribe, state]) (.inr (attentive (.inr state)))
  | subscribed => exact another (by simp only [Subscription.subscribe, state]) (.inl state)
  | unsubscribing =>
    obtain ⟨subscriptionID, member⟩ := advancing.deleting state
    exact another (by simp only [Subscription.subscribe, state]) (.inr (.inl (List.ne_nil_of_mem member)))

theorem Advancing.removeRef {l : RequestState} (advancing : l.Advancing) (handles : Nat) :
    ((l.perform Subscription.removeRef).addHandles handles).Advancing := by
  unfold perform addHandles Subscription.removeRef
  dsimp only
  split
  · next last =>
    split
    · refine ⟨fun wanted => absurd last (Int.not_le.mpr wanted), fun unsubscribing => ?_⟩
      obtain ⟨subscriptionID, member⟩ := advancing.deleting unsubscribing
      exact ⟨subscriptionID, List.mem_append_left _ member⟩
    · exact ⟨fun wanted => absurd last (Int.not_le.mpr wanted), fun _ =>
        ⟨l.subscription.subscriptionID, List.mem_append_right _ (List.mem_singleton.mpr rfl)⟩⟩
  · have wantedBefore : 0 < l.subscription.refCount - 1 → 0 < l.subscription.refCount := by omega
    constructor
    · intro wanted
      rcases advancing.wanted (wantedBefore wanted) with failed | subscribed | work | armed
      · exact .inl failed
      · exact .inr (.inl subscribed)
      · exact .inr (.inr (.inl (List.append_ne_nil_of_left_ne_nil work _)))
      · exact .inr (.inr (.inr armed))
    · intro unsubscribing
      obtain ⟨subscriptionID, member⟩ := advancing.deleting unsubscribing
      exact ⟨subscriptionID, List.mem_append_left _ member⟩

theorem Advancing.createFailed {l : RequestState} (error : CreateError)
    (deleting : l.subscription.state = .unsubscribing → ∃ subscriptionID, .delete subscriptionID ∈ l.work) :
    (l.createFailed error).Advancing := by
  have retry (work : Work) : (l.post work).Advancing := by
    refine ⟨fun _ => .inr (.inr (outstanding_append work)), fun unsubscribing => ?_⟩
    obtain ⟨subscriptionID, member⟩ := deleting unsubscribing
    exact ⟨subscriptionID, List.mem_append_left _ member⟩
  cases error with
  | forbidden => exact retry (.retry 2000 2)
  | forwarded => exact retry (.retry 2000 5)
  | badRequest | unauthorized | conflict | ratelimited =>
    exact ⟨fun _ => .inl rfl, fun impossible => nomatch impossible⟩

/-- An attentive step keeps a request advancing. -/
theorem Advancing.step {listens : Nat → Bool} {l l' : RequestState} {e : Event} {failed : List Assertion}
    (advancing : l.Advancing) (step : RequestStep listens l e l' failed) (attentive : l.Attentive listens e) :
    l'.Advancing := by
  have deleting (work : Work) (other : ∀ subscriptionID, .delete subscriptionID ≠ work)
      (unsubscribing : l.subscription.state = .unsubscribing) :
      ∃ subscriptionID, .delete subscriptionID ∈ (l.take work).work := by
    obtain ⟨subscriptionID, member⟩ := advancing.deleting unsubscribing
    exact ⟨subscriptionID, mem_take member (other subscriptionID)⟩
  cases step with
  | subscribe request => exact advancing.subscribe _ attentive
  | removeRef request held => exact advancing.removeRef _
  | posted request throws outstanding attempt =>
    exact .attempt attempt (deleting .subscribe (fun _ impossible => nomatch impossible))
  | fired request throws outstanding attempt =>
    exact .attempt attempt (deleting .fired (fun _ impossible => nomatch impossible))
  | passes request armed =>
    refine ⟨fun _ => .inr (.inr (.inl (List.append_ne_nil_of_right_ne_nil _ (List.cons_ne_nil _ _)))), fun unsubscribing => ?_⟩
    obtain ⟨subscriptionID, member⟩ := advancing.deleting unsubscribing
    exact ⟨subscriptionID, List.mem_append_left _ member⟩
  | retry request delay maxAttempts outstanding => exact .retried delay maxAttempts
  | created request session object sessionID subscriptionID outstanding listening =>
    exact ⟨fun _ => .inr (.inl rfl), fun impossible => nomatch impossible⟩
  | createdLate request session object sessionID subscriptionID outstanding silent =>
    exact ⟨attentive silent, deleting _ (fun _ impossible => nomatch impossible)⟩
  | refused request session object sessionID error outstanding =>
    exact .createFailed error (deleting _ (fun _ impossible => nomatch impossible))
  | deleted request subscriptionID outstanding =>
    refine ⟨fun wanted => .inr (.inr ?_), fun impossible => nomatch impossible⟩
    rcases attentive wanted with work | armed
    · exact .inl (List.append_ne_nil_of_left_ne_nil work _)
    · exact .inr armed
  | closed session order throws attempt =>
    refine .attempt attempt fun unsubscribing => ?_
    unfold reset at unsubscribing
    split at unsubscribing
    · cases unsubscribing
    · exact advancing.deleting unsubscribing

theorem not_subscribed_of_retry (delay : Nat) (maxAttempts : Int) (s : Subscription) :
    (s.retrySubscription delay maxAttempts).subscription.state ≠ .subscribed := by
  cases s.retrySubscription_retried delay maxAttempts with
  | unwanted _ state | failed state | armed state _ =>
    rw [state]
    decide

theorem subscribed_of_attempt {isRetry : Bool} {l l' : RequestState} {failed : List Assertion}
    (attempt : Attempt isRetry l l' failed) (subscribed : l'.subscription.state = .subscribed) :
    l.subscription.state = .subscribed := by
  cases attempt with
  | create session object sessionID => cases isRetry <;> exact subscribed
  | retry delay start => exact absurd subscribed (not_subscribed_of_retry delay 10 _)

theorem subscribed_of_subscribe {s : Subscription} (subscribed : s.subscribe.subscription.state = .subscribed) :
    s.state = .subscribed := by
  cases state : s.state with
  | subscribed => rfl
  | unsubscribed | failed | subscribing | retrying | unsubscribing =>
    simp [Subscription.subscribe, state] at subscribed

theorem subscribed_of_removeRef {s : Subscription} (subscribed : s.removeRef.subscription.state = .subscribed) :
    s.state = .subscribed := by
  unfold Subscription.removeRef at subscribed
  dsimp only at subscribed
  split at subscribed
  · split at subscribed
    · exact subscribed
    · cases subscribed
  · exact subscribed

/-- A request becomes subscribed by a create, and is so no more when it is unsubscribed
or its connection is lost. -/
theorem subscribed_of_step {listens : Nat → Bool} {l l' : RequestState} {e : Event} {failed : List Assertion}
    (step : RequestStep listens l e l' failed)
    (known : ∀ session order throws, e = .closed session none order throws → l.known = true)
    (subscribed : l'.subscription.state = .subscribed) :
    (∃ request session object sessionID subscriptionID,
      e = .created request session object sessionID subscriptionID ∧ listens session = true) ∨
      (l.subscription.state = .subscribed ∧ (∀ request subscriptionID, e ≠ .deleted request subscriptionID) ∧
        ∀ session order throws, e ≠ .closed session none order throws) := by
  have stayed (before : l.subscription.state = .subscribed)
      (other : (∀ request subscriptionID, e ≠ .deleted request subscriptionID) ∧
        ∀ session order throws, e ≠ .closed session none order throws) :
      (∃ request session object sessionID subscriptionID,
        e = .created request session object sessionID subscriptionID ∧ listens session = true) ∨
        (l.subscription.state = .subscribed ∧ (∀ request subscriptionID, e ≠ .deleted request subscriptionID) ∧
          ∀ session order throws, e ≠ .closed session none order throws) := .inr ⟨before, other⟩
  cases step with
  | created request session object sessionID subscriptionID outstanding listening =>
    exact .inl ⟨request, session, object, sessionID, subscriptionID, rfl, listening⟩
  | subscribe request => exact stayed (subscribed_of_subscribe subscribed) (by simp)
  | removeRef request held => exact stayed (subscribed_of_removeRef subscribed) (by simp)
  | posted request throws outstanding attempt =>
    have before : (l.take .subscribe).subscription.state = .subscribed := subscribed_of_attempt attempt subscribed
    exact stayed before (by simp)
  | fired request throws outstanding attempt =>
    have before : (l.take .fired).subscription.state = .subscribed := subscribed_of_attempt attempt subscribed
    exact stayed before (by simp)
  | passes request armed => exact stayed subscribed (by simp)
  | retry request delay maxAttempts outstanding =>
    exact absurd subscribed (not_subscribed_of_retry delay maxAttempts _)
  | createdLate request session object sessionID subscriptionID outstanding silent => exact stayed subscribed (by simp)
  | refused request session object sessionID error outstanding =>
    cases error with
    | forbidden | forwarded => exact stayed subscribed (by simp)
    | badRequest | unauthorized | conflict | ratelimited => cases subscribed
  | deleted request subscriptionID outstanding => cases subscribed
  | closed session order throws attempt =>
    have before := subscribed_of_attempt attempt subscribed
    rw [reset, known session order throws rfl] at before
    cases before

end RequestState

namespace Controller

/-- The event does not end the work of a request that is wanted, and no connection that
carries a subscribed request is lost by a reconnect. -/
def Attentive (c : Controller) : Event → Prop
  | .subscribe request => (c.request request).Attentive c.listens (.subscribe request)
  | .created request session object sessionID subscriptionID =>
      (c.request request).Attentive c.listens (.created request session object sessionID subscriptionID)
  | .deleted request subscriptionID => (c.request request).Attentive c.listens (.deleted request subscriptionID)
  | .closed session (some _) _ true =>
      match c.getListener session with
      | some listener => ∀ r ∈ listener.subscriptions, (c.subscription r).state = .subscribed →
          (c.setListener session none).Carries r
      | none => True
  | _ => True

instance (c : Controller) : ∀ e, Decidable (c.Attentive e)
  | .subscribe request => inferInstanceAs (Decidable ((c.request request).Attentive c.listens (.subscribe request)))
  | .created request session object sessionID subscriptionID =>
    inferInstanceAs (Decidable ((c.request request).Attentive c.listens
      (.created request session object sessionID subscriptionID)))
  | .deleted request subscriptionID =>
    inferInstanceAs (Decidable ((c.request request).Attentive c.listens (.deleted request subscriptionID)))
  | .closed session (some _) _ true =>
    match found : c.getListener session with
    | some listener =>
      decidable_of_iff (∀ r ∈ listener.subscriptions, (c.subscription r).state = .subscribed →
        (c.setListener session none).Carries r) (by simp only [Attentive, found])
    | none => isTrue (by simp only [Attentive, found])
  | .closed _ (some _) _ false | .closed _ none _ _ | .removeRef _ | .posted _ _ | .passes _ | .fired _ _
  | .retry _ _ _ | .refused _ _ _ _ _ | .welcome _ _ => isTrue trivial

theorem Attentive.request {c : Controller} {e : Event} (attentive : c.Attentive e) {r : SubscriptionRequest}
    (concerned : e.Concerns r) : (c.request r).Attentive c.listens e := by
  cases e with
  | subscribe request | created request | deleted request =>
    obtain rfl : request = r := concerned
    exact attentive
  | removeRef | posted | passes | fired | retry | refused | welcome | closed => trivial

structure Advancing (c : Controller) : Prop where
  requests : ∀ r, (c.request r).Advancing
  subscribed : ∀ r, (c.subscription r).state = .subscribed → c.Carries r
  known : c.CarriesKnown

theorem Advancing.initial : ({} : Controller).Advancing := by
  refine ⟨fun r => ⟨?_, ?_⟩, ?_, CarriesKnown.initial⟩
  · exact fun impossible => nomatch impossible
  · exact fun impossible => nomatch impossible
  · exact fun _ impossible => nomatch impossible

theorem Advancing.step {c c' : Controller} {e : Event} (advancing : c.Advancing) (attentive : c.Attentive e)
    (taken : c.step e = some c') : c'.Advancing := by
  obtain ⟨failed, refines⟩ := step_refines taken
  have sessions := step_sessions taken
  constructor
  case requests =>
    intro r
    by_cases concerned : e.Concerns r
    · exact (advancing.requests r).step (refines.concerned r concerned) (attentive.request concerned)
    · rw [refines.others r concerned]
      exact advancing.requests r
  case subscribed =>
    intro r subscribed
    -- a subscribed request was so before, unless it has just come to be carried
    have before : (∃ request session object sessionID subscriptionID,
        e = .created request session object sessionID subscriptionID ∧ c.listens session = true ∧ request = r) ∨
        ((c.subscription r).state = .subscribed ∧ (∀ subscriptionID, e ≠ .deleted r subscriptionID) ∧
          ∀ session order throws, e = .closed session none order throws → r ∉ order.map Prod.fst) := by
      by_cases concerned : e.Concerns r
      · have known (session : Nat) (order : List (SubscriptionRequest × Bool)) (throws : Bool)
            (same : e = .closed session none order throws) : (c.request r).known = true := by
          subst same
          obtain ⟨listener, found, all⟩ := closed_listener taken
          refine advancing.known r ⟨listener, mem_of_getListener found, ?_⟩
          rw [← all, List.mem_toFinset]
          exact concerned
        rcases RequestState.subscribed_of_step (refines.concerned r concerned) known subscribed with
          ⟨request, session, object, sessionID, subscriptionID, rfl, listening⟩ | ⟨old, notDeleted, notClosed⟩
        · exact .inl ⟨request, session, object, sessionID, subscriptionID, rfl, listening, concerned⟩
        · exact .inr ⟨old, notDeleted r, fun session order throws same => absurd same (notClosed session order throws)⟩
      · have same := refines.others r concerned
        refine .inr ⟨?_, ?_, ?_⟩
        · exact (congrArg (fun l => l.subscription.state) same).symm.trans subscribed
        · rintro subscriptionID rfl
          exact concerned rfl
        · rintro session order throws rfl member
          exact concerned member
    rcases before with ⟨request, session, object, sessionID, subscriptionID, rfl, listening, rfl⟩ | ⟨old, notDeleted, notClosed⟩
    · exact created_carries taken listening
    · rcases sessions.carries (advancing.subscribed r old) with
        kept | ⟨subscriptionID, same⟩ | ⟨session, order, throws, same, member⟩ |
          ⟨session, url, order, listener, rfl, found, inside, nowhere⟩
      · exact kept
      · exact absurd same (notDeleted subscriptionID)
      · exact absurd member (notClosed session order throws same)
      · unfold Attentive at attentive
        simp only [found] at attentive
        exact absurd (attentive r inside old) nowhere
  case known => exact advancing.known.step taken

/-- In a run of attentive events every request with a handle is subscribed on a live
connection, or failed, or has work outstanding. -/
theorem wanted_advances (events : List Event) {c : Controller} (ran : run Controller.step {} events = some c)
    (attentive : Along Controller.step Attentive {} events) (r : SubscriptionRequest)
    (wanted : 0 < (c.subscription r).refCount) :
    ((c.subscription r).state = .subscribed ∧ c.Carries r) ∨ (c.subscription r).state = .failed ∨
      (c.request r).Outstanding := by
  have advancing := run_invariant (fun _ _ _ advancing attentive taken => Advancing.step advancing attentive taken)
    attentive ran Advancing.initial
  rcases (advancing.requests r).wanted wanted with failed | subscribed | outstanding
  · exact .inr (.inl failed)
  · exact .inl ⟨subscribed, advancing.subscribed r subscribed⟩
  · exact .inr (.inr outstanding)

theorem wanted_advances_subscribed : ∃ c, run Controller.step {} (untilCreate ++ [createAnswer]) = some c ∧
    (((c.subscription moderation).state = .subscribed ∧ c.Carries moderation) ∨
      (c.subscription moderation).state = .failed ∨ (c.request moderation).Outstanding) :=
  ⟨_, rfl, wanted_advances (untilCreate ++ [createAnswer]) rfl (by decide) moderation (by decide)⟩

/-- A handle that comes back while the delete is in flight is never served. -/
theorem unsubscribed_idle : ∃ c, run Controller.step {} (untilCreate ++
    [createAnswer, .removeRef moderation, .subscribe moderation, .deleted moderation (qs "id")]) = some c ∧
      (c.subscription moderation).refCount = 1 ∧ (c.subscription moderation).state = .unsubscribed ∧
      ¬ (c.request moderation).Outstanding :=
  ⟨_, rfl, rfl, rfl, by decide⟩

end Controller

end Forserino.EventSub
