import Forserino.EventSub.Controller

/-! One request on its own. The controller refines the steps of this smaller machine:
an event moves the requests that it concerns by one of them, and leaves the others.
-/

set_option autoImplicit false

namespace Forserino.EventSub

open Forserino.Qt

/-- What belongs to one request. -/
structure RequestState where
  subscription : Subscription
  known : Bool
  work : List Work
  handles : Nat

namespace RequestState

def perform (l : RequestState) (section' : Subscription → Outcome) : RequestState :=
  { l with
    subscription := (section' l.subscription).subscription
    known := true
    work := l.work ++ (section' l.subscription).work }

def post (l : RequestState) (work : Work) : RequestState := { l with work := l.work ++ [work] }

def take (l : RequestState) (work : Work) : RequestState := { l with work := l.work.erase work }

def addHandles (l : RequestState) (handles : Nat) : RequestState := { l with handles }

def reset (l : RequestState) : RequestState :=
  { l with subscription := if l.known then l.subscription.reset else l.subscription }

def createFailed (l : RequestState) : CreateError → RequestState
  | .forbidden => l.post (.retry 2000 2)
  | .forwarded => l.post (.retry 2000 5)
  | .badRequest | .unauthorized | .conflict | .ratelimited => l.perform Subscription.markRequestFailed

end RequestState

open RequestState

/-- What subscribe(request, isRetry) does: it sends a create, or goes on to retry. -/
inductive Attempt (isRetry : Bool) (l : RequestState) : RequestState → List Assertion → Prop where
  | create (session object : Nat) (sessionID : QString) :
      Attempt isRetry l ((l.perform (Subscription.startSubscribe isRetry)).post (.create session object sessionID))
        (Subscription.startSubscribe isRetry l.subscription).failed
  | retry (delay : Nat) {started : RequestState}
      (start : l.perform (Subscription.startSubscribe isRetry) = started) :
      Attempt isRetry l (started.perform (Subscription.retrySubscription delay 10))
        ((Subscription.startSubscribe isRetry l.subscription).failed ++
          (Subscription.retrySubscription delay 10 started.subscription).failed)

/-- The steps of one request, with the assertions that fail. What a successful create
does depends on whether its session still listens. -/
inductive RequestStep (listens : Nat → Bool) (l : RequestState) :
    Event → RequestState → List Assertion → Prop where
  | subscribe (request : SubscriptionRequest) :
      RequestStep listens l (.subscribe request) ((l.perform Subscription.subscribe).addHandles (l.handles + 1))
        l.subscription.subscribe.failed
  | removeRef (request : SubscriptionRequest) (held : 0 < l.handles) :
      RequestStep listens l (.removeRef request) ((l.perform Subscription.removeRef).addHandles (l.handles - 1))
        (check .contains l.known ++ l.subscription.removeRef.failed)
  | posted (request : SubscriptionRequest) (throws : Bool) {l' : RequestState} {failed : List Assertion}
      (outstanding : .subscribe ∈ l.work) (attempt : Attempt false (l.take .subscribe) l' failed) :
      RequestStep listens l (.posted request throws) l' failed
  | passes (request : SubscriptionRequest) {delay : Nat}
      (armed : l.subscription.retryTimer = some (.armed delay)) :
      RequestStep listens l (.passes request)
        (l.perform fun s => { subscription := { s with retryTimer := some .passed }, work := [.fired] }) []
  | fired (request : SubscriptionRequest) (throws : Bool) {l' : RequestState} {failed : List Assertion}
      (outstanding : .fired ∈ l.work) (attempt : Attempt true (l.take .fired) l' failed) :
      RequestStep listens l (.fired request throws) l' failed
  | retry (request : SubscriptionRequest) (delay : Nat) (maxAttempts : Int)
      (outstanding : .retry delay maxAttempts ∈ l.work) :
      RequestStep listens l (.retry request delay maxAttempts)
        ((l.take (.retry delay maxAttempts)).perform (Subscription.retrySubscription delay maxAttempts))
        (Subscription.retrySubscription delay maxAttempts l.subscription).failed
  | created (request : SubscriptionRequest) (session object : Nat) (sessionID subscriptionID : QString)
      (outstanding : .create session object sessionID ∈ l.work) (listening : listens session = true) :
      RequestStep listens l (.created request session object sessionID subscriptionID)
        ((l.take (.create session object sessionID)).perform
          (Subscription.markRequestSubscribed session subscriptionID))
        (Subscription.markRequestSubscribed session subscriptionID l.subscription).failed
  | createdLate (request : SubscriptionRequest) (session object : Nat) (sessionID subscriptionID : QString)
      (outstanding : .create session object sessionID ∈ l.work) (silent : listens session = false) :
      RequestStep listens l (.created request session object sessionID subscriptionID)
        (l.take (.create session object sessionID)) []
  | refused (request : SubscriptionRequest) (session object : Nat) (sessionID : QString) (error : CreateError)
      (outstanding : .create session object sessionID ∈ l.work) :
      RequestStep listens l (.refused request session object sessionID error)
        ((l.take (.create session object sessionID)).createFailed error) []
  | deleted (request : SubscriptionRequest) (subscriptionID : QString)
      (outstanding : .delete subscriptionID ∈ l.work) :
      RequestStep listens l (.deleted request subscriptionID)
        ((l.take (.delete subscriptionID)).perform Subscription.markRequestUnsubscribed)
        l.subscription.markRequestUnsubscribed.failed
  | closed (session : Nat) (order : List (SubscriptionRequest × Bool)) (throws : Bool) {l' : RequestState}
      {failed : List Assertion} (attempt : Attempt false l.reset l' failed) :
      RequestStep listens l (.closed session none order throws) l' failed

/-- What retrySubscription can come to: nobody is interested, the attempts are used up,
or a timer is armed. -/
inductive Retried (delay : Nat) (s : Subscription) (o : Outcome) : Prop where
  | unwanted (references : s.refCount = 0) (state : o.subscription.state = .unsubscribed)
  | failed (state : o.subscription.state = .failed)
  | armed (state : o.subscription.state = .retrying) (timer : o.subscription.retryTimer = some (.armed delay))

theorem Subscription.retrySubscription_retried (delay : Nat) (maxAttempts : Int) (s : Subscription) :
    Retried delay s (s.retrySubscription delay maxAttempts) := by
  unfold Subscription.retrySubscription
  dsimp only
  split
  · next unwanted => exact .unwanted unwanted rfl
  · split
    · exact .armed rfl rfl
    · split
      · exact .failed rfl
      · exact .armed rfl rfl

theorem Subscription.retrySubscription_kept (delay : Nat) (maxAttempts : Int) (s : Subscription) :
    (s.retrySubscription delay maxAttempts).subscription.refCount = s.refCount ∧
      (s.retrySubscription delay maxAttempts).subscription.subscriptionID = s.subscriptionID ∧
      (s.retrySubscription delay maxAttempts).work = [] := by
  unfold Subscription.retrySubscription
  dsimp only
  split
  · exact ⟨rfl, rfl, rfl⟩
  · split
    · exact ⟨rfl, rfl, rfl⟩
    · split <;> exact ⟨rfl, rfl, rfl⟩

/-- The requests that an event is about. -/
def Event.Concerns (r : SubscriptionRequest) : Event → Prop
  | .subscribe request | .removeRef request | .posted request _ | .passes request | .fired request _
  | .retry request _ _ | .created request _ _ _ _ | .refused request _ _ _ _ | .deleted request _ => request = r
  | .welcome _ _ | .closed _ (some _) _ _ => False
  | .closed _ none order _ => r ∈ order.map Prod.fst

namespace Controller

variable {c : Controller} {r r' : SubscriptionRequest}

/-- The controller as one request sees it. -/
def request (c : Controller) (r : SubscriptionRequest) : RequestState :=
  ⟨c.subscription r, (c.subscriptions r).isSome, c.work r, c.handles r⟩

/-! ## Frames -/

@[simp] theorem request_perform (c : Controller) (r : SubscriptionRequest) (section' : Subscription → Outcome) :
    (c.perform r section').request r = (c.request r).perform section' := by
  simp [request, perform, RequestState.perform, subscription]

theorem request_perform_other (section' : Subscription → Outcome) (other : r' ≠ r) :
    (c.perform r section').request r' = c.request r' := by
  simp [request, perform, subscription, Function.update_of_ne other]

@[simp] theorem request_post (c : Controller) (r : SubscriptionRequest) (work : Work) :
    (c.post r work).request r = (c.request r).post work := by
  simp [request, post, RequestState.post, subscription]

theorem request_post_other (work : Work) (other : r' ≠ r) : (c.post r work).request r' = c.request r' := by
  simp [request, post, subscription, Function.update_of_ne other]

@[simp] theorem request_take (c : Controller) (r : SubscriptionRequest) (work : Work) :
    (c.take r work).request r = (c.request r).take work := by
  simp [request, take, RequestState.take, subscription]

theorem request_take_other (work : Work) (other : r' ≠ r) : (c.take r work).request r' = c.request r' := by
  simp [request, take, subscription, Function.update_of_ne other]

@[simp] theorem request_addHandles (c : Controller) (r : SubscriptionRequest) (handles : Nat) :
    (c.addHandles r handles).request r = (c.request r).addHandles handles := by
  simp [request, addHandles, RequestState.addHandles, subscription]

theorem request_addHandles_other (handles : Nat) (other : r' ≠ r) :
    (c.addHandles r handles).request r' = c.request r' := by
  simp [request, addHandles, subscription, Function.update_of_ne other]

@[simp] theorem request_assert (c : Controller) (failed : List Assertion) (r : SubscriptionRequest) :
    (c.assert failed).request r = c.request r := rfl

@[simp] theorem request_setListener (c : Controller) (session : Nat) (listener : Option Connection)
    (r : SubscriptionRequest) : (c.setListener session listener).request r = c.request r := rfl

@[simp] theorem request_clearConnections (c : Controller) (r : SubscriptionRequest) :
    c.clearConnections.request r = c.request r := rfl

@[simp] theorem request_addCreated (c : Controller) (created : Created) (r : SubscriptionRequest) :
    (c.addCreated created).request r = c.request r := rfl

@[simp] theorem request_createConnectionWith (c : Controller) (listener : Connection) (throws : Bool)
    (r : SubscriptionRequest) : (c.createConnectionWith listener throws).request r = c.request r := by
  cases throws <;> rfl

@[simp] theorem request_createConnection (c : Controller) (throws : Bool) (r : SubscriptionRequest) :
    (c.createConnection throws).request r = c.request r := by
  cases throws <;> rfl

@[simp] theorem request_forget (c : Controller) (r : SubscriptionRequest) (connection : Option Nat)
    (r' : SubscriptionRequest) : (c.forget r connection).request r' = c.request r' := by
  unfold forget
  split
  · rfl
  · split <;> rfl

@[simp] theorem failed_createConnection (c : Controller) (throws : Bool) :
    (c.createConnection throws).failed = c.failed := by
  cases throws <;> rfl

@[simp] theorem failed_createConnectionWith (c : Controller) (listener : Connection) (throws : Bool) :
    (c.createConnectionWith listener throws).failed = c.failed := by
  cases throws <;> rfl

@[simp] theorem failed_forget (c : Controller) (r : SubscriptionRequest) (connection : Option Nat) :
    (c.forget r connection).failed = c.failed := by
  unfold forget
  split
  · rfl
  · split <;> rfl

/-- Only this request has changed, and these assertions have failed. -/
structure Changes (c : Controller) (r : SubscriptionRequest) (failed : List Assertion) (c' : Controller) : Prop where
  others : ∀ r' ≠ r, c'.request r' = c.request r'
  failed : c'.failed = c.failed ++ failed

theorem Changes.perform (c : Controller) (r : SubscriptionRequest) (section' : Subscription → Outcome) :
    Changes c r (section' (c.request r).subscription).failed (c.perform r section') :=
  ⟨fun _ other => request_perform_other section' other, rfl⟩

theorem Changes.post (c : Controller) (r : SubscriptionRequest) (work : Work) : Changes c r [] (c.post r work) :=
  ⟨fun _ other => request_post_other work other, (List.append_nil _).symm⟩

theorem Changes.take (c : Controller) (r : SubscriptionRequest) (work : Work) : Changes c r [] (c.take r work) :=
  ⟨fun _ other => request_take_other work other, (List.append_nil _).symm⟩

theorem Changes.addHandles (c : Controller) (r : SubscriptionRequest) (handles : Nat) :
    Changes c r [] (c.addHandles r handles) :=
  ⟨fun _ other => request_addHandles_other handles other, (List.append_nil _).symm⟩

/-- No request has changed, and no assertion has failed. -/
theorem Changes.none {c c' : Controller} (r : SubscriptionRequest) (requests : ∀ r, c'.request r = c.request r)
    (failed : c'.failed = c.failed) : Changes c r [] c' :=
  ⟨fun r' _ => requests r', by rw [failed, List.append_nil]⟩

theorem Changes.trans {c c' c'' : Controller} {failed failed' : List Assertion} (first : Changes c r failed c')
    (second : Changes c' r failed' c'') : Changes c r (failed ++ failed') c'' :=
  ⟨fun r' other => (second.others r' other).trans (first.others r' other),
    by rw [second.failed, first.failed, List.append_assoc]⟩

/-! ## Subscribing -/

theorem viableAmong_listener {connections : List Nat} {openButNotReady open' session : Nat}
    (viable : c.viableAmong connections openButNotReady = (some session, open')) :
    ∃ listener, c.getListener session = some listener := by
  induction connections generalizing openButNotReady with
  | nil => cases viable
  | cons first rest ih =>
    unfold viableAmong at viable
    split at viable
    · exact ih viable
    · next listener found =>
      split at viable
      · exact ih viable
      · obtain rfl : first = session := Option.some.inj (Prod.mk.inj viable).1
        exact ⟨listener, found⟩

theorem subscribeWith_attempt (c : Controller) (r : SubscriptionRequest) (isRetry throws : Bool) :
    ∃ failed, Attempt isRetry (c.request r) ((c.subscribeWith r isRetry throws).request r) failed ∧
      Changes c r failed (c.subscribeWith r isRetry throws) := by
  have start := Changes.perform c r (Subscription.startSubscribe isRetry)
  unfold subscribeWith requestSubscription
  generalize started : c.perform r (Subscription.startSubscribe isRetry) = c' at start ⊢
  have startedRequest : (c.request r).perform (Subscription.startSubscribe isRetry) = c'.request r := by
    rw [← started, request_perform]
  split
  · next session open' viable =>
    obtain ⟨listener, found⟩ := viableAmong_listener viable
    simp only [found, request_post]
    rw [← startedRequest]
    refine ⟨_, Attempt.create session listener.object listener.sessionID, ?_⟩
    have sent := start.trans (.post c' r (.create session listener.object listener.sessionID))
    rwa [List.append_nil] at sent
  · -- no connection is open, so one is created
    have created : Changes c' r [] (c'.createConnection throws) :=
      .none r (fun _ => request_createConnection c' throws _) (failed_createConnection c' throws)
    have retried := created.trans (.perform _ r (Subscription.retrySubscription 500 10))
    rw [List.nil_append] at retried
    simp only [request_perform, request_createConnection] at retried ⊢
    exact ⟨_, .retry 500 startedRequest, start.trans retried⟩
  · rw [request_perform]
    exact ⟨_, .retry 250 startedRequest, start.trans (.perform c' r _)⟩

theorem subscribeAll_attempts (order : List (SubscriptionRequest × Bool)) (c : Controller)
    (each : (order.map Prod.fst).Nodup) : ∃ failed : SubscriptionRequest → List Assertion,
      (∀ r ∈ order.map Prod.fst, Attempt false (c.request r) ((c.subscribeAll order).request r) (failed r)) ∧
      (∀ r ∉ order.map Prod.fst, (c.subscribeAll order).request r = c.request r) ∧
      ∀ a ∈ (c.subscribeAll order).failed, a ∈ c.failed ∨ ∃ r ∈ order.map Prod.fst, a ∈ failed r := by
  induction order generalizing c with
  | nil =>
    refine ⟨fun _ => [], ?_, fun _ _ => rfl, fun a member => .inl member⟩
    exact fun _ impossible => nomatch impossible
  | cons entry rest ih =>
    obtain ⟨request, throws⟩ := entry
    rw [List.map_cons, List.nodup_cons] at each
    obtain ⟨failed, attempt, first⟩ := subscribeWith_attempt c request false throws
    obtain ⟨laterFailed, attempts, others, laterFailures⟩ := ih (c.subscribeWith request false throws) each.2
    refine ⟨Function.update laterFailed request failed, ?_, ?_, ?_⟩
    · intro r member
      rcases List.mem_cons.mp member with rfl | later
      · rw [Function.update_self, subscribeAll, others r each.1]
        exact attempt
      · have other : r ≠ request := fun same => each.1 (same ▸ later)
        rw [Function.update_of_ne other, ← first.others r other]
        exact attempts r later
    · intro r absent
      rw [List.map_cons, List.mem_cons, not_or] at absent
      rw [subscribeAll, others r absent.2, first.others r absent.1]
    · intro a member
      rcases laterFailures a member with before | ⟨r, later, inLater⟩
      · rw [first.failed] at before
        rcases List.mem_append.mp before with old | here
        · exact .inl old
        · exact .inr ⟨request, List.mem_cons_self .., by rwa [Function.update_self]⟩
      · have other : r ≠ request := fun same => each.1 (same ▸ later)
        exact .inr ⟨r, List.mem_cons_of_mem _ later, by rwa [Function.update_of_ne other]⟩

/-! ## Refinement -/

def listens (c : Controller) (session : Nat) : Bool := (c.getListener session).isSome

/-- The event moves the requests that it concerns, and only these. -/
structure Refines (e : Event) (c c' : Controller) (failed : SubscriptionRequest → List Assertion) : Prop where
  concerned : ∀ r, e.Concerns r → RequestStep c.listens (c.request r) e (c'.request r) (failed r)
  others : ∀ r, ¬ e.Concerns r → c'.request r = c.request r
  failed : ∀ a ∈ c'.failed, a ∈ c.failed ∨ ∃ r, e.Concerns r ∧ a ∈ failed r

theorem Refines.single {e : Event} {c c' : Controller} {failed : List Assertion}
    (only : ∀ r', e.Concerns r' ↔ r = r') (step : RequestStep c.listens (c.request r) e (c'.request r) failed)
    (changes : Changes c r failed c') : Refines e c c' (fun _ => failed) := by
  constructor
  case concerned =>
    intro r' concerned
    obtain rfl := (only r').mp concerned
    exact step
  case others =>
    intro r' unconcerned
    exact changes.others r' fun same => unconcerned ((only r').mpr same.symm)
  case failed =>
    intro a member
    rw [changes.failed] at member
    rcases List.mem_append.mp member with old | new
    · exact .inl old
    · exact .inr ⟨r, (only r).mpr rfl, new⟩

/-- An event that concerns no request. -/
theorem Refines.none {e : Event} {c c' : Controller} (unconcerned : ∀ r, ¬ e.Concerns r)
    (requests : ∀ r, c'.request r = c.request r) (failed : c'.failed = c.failed) :
    Refines e c c' (fun _ => []) :=
  ⟨fun r concerned => absurd concerned (unconcerned r), fun r _ => requests r, fun _ member => .inl (failed ▸ member)⟩

theorem deliver_some {work : Work} {callback : Controller → Controller} {c' : Controller}
    (delivered : c.deliver r work callback = some c') : work ∈ (c.request r).work ∧ callback (c.take r work) = c' := by
  unfold deliver at delivered
  split at delivered
  · next outstanding => exact ⟨outstanding, Option.some.inj delivered⟩
  · cases delivered

theorem request_resetRequests (c : Controller) {subs : List SubscriptionRequest} (member : r ∈ subs) :
    (c.resetRequests subs).request r = (c.request r).reset := by
  unfold request resetRequests RequestState.reset subscription
  cases found : c.subscriptions r <;> simp [member, found]

theorem request_resetRequests_other (c : Controller) {subs : List SubscriptionRequest} (absent : r ∉ subs) :
    (c.resetRequests subs).request r = c.request r := by
  unfold request resetRequests subscription
  simp [absent]

theorem created_refines {session object : Nat} {sessionID subscriptionID : QString}
    (outstanding : .create session object sessionID ∈ (c.request r).work) :
    ∃ failed, Refines (.created r session object sessionID subscriptionID) c
      (((c.take r (.create session object sessionID)).addCreated
        ⟨r, subscriptionID, object⟩).markRequestSubscribed r session subscriptionID) failed := by
  have taken := (Changes.take c r (.create session object sessionID)).trans
    (.none r (fun r' => request_addCreated _ ⟨r, subscriptionID, object⟩ r') rfl)
  unfold markRequestSubscribed
  split
  · next silent =>
    refine ⟨_, .single (fun _ => Iff.rfl) ?_ taken⟩
    rw [request_addCreated, request_take]
    exact .createdLate r session object sessionID subscriptionID outstanding (Option.isSome_eq_false_iff.mpr (by
      rw [show c.getListener session = Option.none from silent]
      rfl))
  · next listener found =>
    have heard := taken.trans (.none r (fun r' => request_setListener _ session
      (some { listener with subscriptions := insert r listener.subscriptions }) r') rfl)
    refine ⟨_, .single (fun _ => Iff.rfl) ?_ (heard.trans (.perform _ r _))⟩
    simp only [request_perform, request_setListener, request_addCreated, request_take]
    exact .created r session object sessionID subscriptionID outstanding
      (Option.isSome_iff_exists.mpr ⟨listener, found⟩)

theorem closed_refines {session : Nat} {reconnectURL : Option QString} {order : List (SubscriptionRequest × Bool)}
    {throws : Bool} {listener : Connection} (each : (order.map Prod.fst).Nodup)
    (all : (order.map Prod.fst).toFinset = listener.subscriptions) :
    ∃ failed, Refines (.closed session reconnectURL order throws) c
      ((c.setListener session none).reconnectConnection listener reconnectURL order throws) failed := by
  unfold reconnectConnection
  dsimp only
  have closed (r : SubscriptionRequest) : (c.setListener session none).clearConnections.request r = c.request r := rfl
  generalize cleared : (c.setListener session none).clearConnections = c' at closed
  have failedSame : c'.failed = c.failed := by rw [← cleared]; rfl
  split
  · next empty =>
    have noOrder : order = [] := by
      rw [empty, List.toFinset_eq_empty_iff, List.map_eq_nil_iff] at all
      exact all
    subst noOrder
    exact ⟨_, .none (fun r concerned => by cases reconnectURL <;> cases concerned) closed failedSame⟩
  · split
    · exact ⟨_, .none (fun _ concerned => concerned)
        (fun r => (request_createConnectionWith c' listener throws r).trans (closed r))
        ((failed_createConnectionWith c' listener throws).trans failedSame)⟩
    · obtain ⟨failed, attempts, others, failures⟩ :=
        subscribeAll_attempts order (c'.resetRequests (order.map Prod.fst)) each
      refine ⟨failed, ⟨fun r concerned => ?_, fun r unconcerned => ?_, fun a member => ?_⟩⟩
      · have attempt := attempts r concerned
        rw [request_resetRequests c' concerned, closed] at attempt
        exact .closed session order throws attempt
      · rw [others r unconcerned, request_resetRequests_other c' unconcerned, closed]
      · rw [← failedSame]
        exact failures a member

/-- Every step of the controller is one of the requests that its event concerns. -/
theorem step_refines {e : Event} {c' : Controller} (taken : c.step e = some c') :
    ∃ failed, Refines e c c' failed := by
  unfold step at taken
  cases e with
  | subscribe request =>
    obtain rfl := Option.some.inj taken
    refine ⟨_, .single (r := request) (fun _ => Iff.rfl) ?_ ((Changes.perform c request _).trans (.addHandles _ request _))⟩
    rw [List.append_nil, Controller.subscribe, request_addHandles, request_perform]
    exact .subscribe request
  | removeRef request =>
    obtain ⟨held, same⟩ := Option.ite_none_right_eq_some.mp taken
    obtain rfl := Option.some.inj same
    -- the assertion is about this request as well
    have known : Changes c request (check .contains (c.request request).known)
        (c.assert (check .contains (c.request request).known)) := ⟨fun _ _ => rfl, rfl⟩
    refine ⟨_, .single (r := request) (fun _ => Iff.rfl) ?_
      (known.trans ((Changes.perform _ request _).trans (.addHandles _ request _)))⟩
    rw [List.append_nil, Controller.removeRef, request_addHandles, request_perform, request_assert]
    exact .removeRef request held
  | posted request throws =>
    obtain ⟨outstanding, rfl⟩ := deliver_some taken
    obtain ⟨failed, attempt, changes⟩ := subscribeWith_attempt (c.take request .subscribe) request false throws
    rw [request_take] at attempt
    exact ⟨_, .single (fun _ => Iff.rfl) (.posted request throws outstanding attempt)
      ((Changes.take c request .subscribe).trans changes)⟩
  | passes request =>
    simp only at taken
    split at taken
    · next delay armed =>
      obtain rfl := Option.some.inj taken
      refine ⟨_, .single (r := request) (fun _ => Iff.rfl) ?_ (Changes.perform c request _)⟩
      rw [request_perform]
      exact .passes request armed
    · cases taken
  | fired request throws =>
    obtain ⟨outstanding, rfl⟩ := deliver_some taken
    obtain ⟨failed, attempt, changes⟩ := subscribeWith_attempt (c.take request .fired) request true throws
    rw [request_take] at attempt
    exact ⟨_, .single (fun _ => Iff.rfl) (.fired request throws outstanding attempt)
      ((Changes.take c request .fired).trans changes)⟩
  | retry request delay maxAttempts =>
    obtain ⟨outstanding, rfl⟩ := deliver_some taken
    refine ⟨_, .single (fun _ => Iff.rfl) ?_ ((Changes.take c request _).trans (.perform _ request _))⟩
    rw [request_perform, request_take]
    exact .retry request delay maxAttempts outstanding
  | created request session object sessionID subscriptionID =>
    obtain ⟨outstanding, rfl⟩ := deliver_some taken
    exact created_refines outstanding
  | refused request session object sessionID error =>
    obtain ⟨outstanding, rfl⟩ := deliver_some taken
    have step : RequestStep c.listens _ _ _ _ := .refused request session object sessionID error outstanding
    have before := Changes.take c request (.create session object sessionID)
    rw [← request_take] at step
    cases error
    case forbidden | forwarded =>
      exact ⟨_, .single (fun _ => Iff.rfl) (by rwa [createFailed, request_post]) (before.trans (.post _ request _))⟩
    -- every other error marks the request as failed
    all_goals
      exact ⟨_, .single (fun _ => Iff.rfl) (by rwa [createFailed, request_perform])
        (before.trans (.perform _ request Subscription.markRequestFailed))⟩
  | deleted request subscriptionID =>
    obtain ⟨outstanding, rfl⟩ := deliver_some taken
    have before := (Changes.take c request (.delete subscriptionID)).trans
      (.perform _ request Subscription.markRequestUnsubscribed)
    refine ⟨_, .single (r := request) (fun _ => Iff.rfl) ?_ (before.trans
      (.none request (fun r' => request_forget _ request _ r') (failed_forget _ request _)))⟩
    rw [List.append_nil, markRequestUnsubscribed, request_forget, request_perform, request_take]
    exact .deleted request subscriptionID outstanding
  | welcome session sessionID =>
    obtain ⟨listener, _, rfl⟩ := Option.map_eq_some_iff.mp taken
    exact ⟨_, .none (fun _ concerned => concerned) (fun _ => rfl) rfl⟩
  | closed session reconnectURL order throws =>
    dsimp only at taken
    split at taken
    · cases taken
    · obtain ⟨⟨each, all⟩, same⟩ := Option.ite_none_right_eq_some.mp taken
      obtain rfl := Option.some.inj same
      exact closed_refines each all

end Controller

end Forserino.EventSub
