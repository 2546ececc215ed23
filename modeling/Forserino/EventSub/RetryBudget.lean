import Mathlib.Data.List.Pairwise
import Forserino.EventSub.Requests
import Forserino.Foundation.Runs

/-! How often a request is tried again before it is settled.

The kinds of failure have different maxima and share one counter. A failure with a smaller
maximum lowers the counter, one with a larger maximum does not raise it.
-/

set_option autoImplicit false

namespace Forserino.EventSub

open Forserino.Qt Foundation

namespace Subscription

/-- The request is Subscribed, Failed or Unsubscribed. -/
def settled (s : Subscription) : Bool := s.state = .subscribed || s.state = .failed || s.state = .unsubscribed

/-- Whether retrySubscription comes to arm a timer. -/
def arms (maxAttempts : Int) (s : Subscription) : Bool :=
  s.refCount ≠ 0 && (s.retryAttempts = 0 || maxAttempts < s.retryAttempts || s.retryAttempts - 1 ≠ 0)

/-- What an event means for the retries of a request: a timer is armed with a smaller counter than
before, or none is and the counter is left alone until the request is settled. -/
inductive Turn (s s' : Subscription) : Bool → Prop where
  | armed (timer : ∃ delay, s'.retryTimer = some (.armed delay)) (state : s'.state = .retrying)
      (some_ : 1 ≤ s'.retryAttempts) (few : s'.retryAttempts ≤ 10)
      (fewer : 0 < s.retryAttempts → s'.retryAttempts < s.retryAttempts) : Turn s s' true
  | other (timer : s'.retryTimer = s.retryTimer ∨ ∀ delay, s'.retryTimer ≠ some (.armed delay))
      (attempts : s'.retryAttempts = s.retryAttempts ∨ s'.settled = true) : Turn s s' false

theorem Turn.same {s s' : Subscription}
    (timer : s'.retryTimer = s.retryTimer ∨ ∀ delay, s'.retryTimer ≠ some (.armed delay))
    (attempts : s'.retryAttempts = s.retryAttempts) : Turn s s' false := .other timer (.inl attempts)

/-- The turn of a subscription whose timer was taken away first. -/
theorem Turn.behind {s started s' : Subscription} {armed : Bool} (turn : Turn started s' armed)
    (attempts : started.retryAttempts = s.retryAttempts)
    (timer : started.retryTimer = s.retryTimer ∨ started.retryTimer = none) : Turn s s' armed := by
  cases turn with
  | armed newTimer state some_ few fewer => exact .armed newTimer state some_ few (attempts ▸ fewer)
  | other oldTimer kept =>
    rw [attempts] at kept
    refine .other ?_ kept
    rcases oldTimer with same | gone
    · rcases timer with sameToo | none_
      · exact .inl (same.trans sameToo)
      · exact .inr fun delay armed => by rw [same, none_] at armed; cases armed
    · exact .inr gone

/-- A maximum between one and ten keeps the counter between zero and ten. -/
theorem retrySubscription_turn (delay : Nat) {maxAttempts : Int} {s : Subscription} (positive : 1 ≤ maxAttempts)
    (most : maxAttempts ≤ 10) (natural : 0 ≤ s.retryAttempts) (few : s.retryAttempts ≤ 10) :
    Turn s (s.retrySubscription delay maxAttempts).subscription (s.arms maxAttempts) ∧
      0 ≤ (s.retrySubscription delay maxAttempts).subscription.retryAttempts ∧
      (s.retrySubscription delay maxAttempts).subscription.retryAttempts ≤ 10 := by
  unfold retrySubscription
  dsimp only
  split
  · next unwanted =>
    have noTimer : s.arms maxAttempts = false := by simp [arms, unwanted]
    rw [noTimer]
    exact ⟨.same (.inl rfl) rfl, natural, few⟩
  · next wanted =>
    split
    · next fresh =>
      have timer : s.arms maxAttempts = true := by
        rcases fresh with zero | above
        · simp [arms, wanted, zero]
        · simp [arms, wanted, above]
      rw [timer]
      refine ⟨.armed ⟨delay, rfl⟩ rfl positive most fun started => ?_, by change 0 ≤ maxAttempts; omega, most⟩
      -- the counter was above the new maximum, or it was zero
      change maxAttempts < s.retryAttempts
      omega
    · next going =>
      rw [not_or] at going
      split
      · next last =>
        have noTimer : s.arms maxAttempts = false := by
          simp only [arms, Bool.and_eq_false_iff, Bool.or_eq_false_iff, decide_eq_false_iff_not]
          omega
        rw [noTimer]
        exact ⟨.other (.inl rfl) (.inr rfl), by dsimp only; omega, by dsimp only; omega⟩
      · next left =>
        have timer : s.arms maxAttempts = true := by
          simp only [arms, Bool.and_eq_true, Bool.or_eq_true, decide_eq_true_eq]
          exact ⟨wanted, .inr left⟩
        rw [timer]
        refine ⟨.armed ⟨delay, rfl⟩ rfl ?_ ?_ fun _ => ?_, ?_, ?_⟩
        all_goals
          simp only [armTimer]
          omega

/-- Only a settled request starts again, and then from zero. -/
theorem subscribe_kept (s : Subscription) :
    (s.subscribe.subscription.retryAttempts = s.retryAttempts ∨
      s.settled = true ∧ s.subscribe.subscription.retryAttempts = 0) ∧
      s.subscribe.subscription.retryTimer = s.retryTimer ∧ ∀ work ∈ s.subscribe.work, work = .subscribe := by
  unfold subscribe
  dsimp only
  cases state : s.state
  case unsubscribed | failed =>
    refine ⟨.inr ⟨?_, rfl⟩, rfl, fun work among => List.mem_singleton.mp among⟩
    simp [settled, state]
  case subscribing | retrying | subscribed | unsubscribing => exact ⟨.inl rfl, rfl, fun work among => nomatch among⟩

theorem removeRef_kept (s : Subscription) :
    s.removeRef.subscription.retryAttempts = s.retryAttempts ∧
      (s.removeRef.subscription.retryTimer = s.retryTimer ∨ s.removeRef.subscription.retryTimer = none) ∧
      ∀ work ∈ s.removeRef.work, ∃ subscriptionID, work = .delete subscriptionID := by
  unfold removeRef
  dsimp only
  split
  · split
    · exact ⟨rfl, .inr rfl, fun work among => nomatch among⟩
    · exact ⟨rfl, .inr rfl, fun work among => ⟨_, List.mem_singleton.mp among⟩⟩
  · exact ⟨rfl, .inl rfl, fun work among => nomatch among⟩

end Subscription

/-! ## The counter in every run -/

namespace RequestState

structure Budget (l : RequestState) : Prop where
  natural : 0 ≤ l.subscription.retryAttempts
  few : l.subscription.retryAttempts ≤ 10
  outstanding : ∀ delay maxAttempts, .retry delay maxAttempts ∈ l.work → maxAttempts = 2 ∨ maxAttempts = 5

theorem Budget.perform {l : RequestState} (budget : l.Budget) {section' : Subscription → Outcome}
    (natural : 0 ≤ (section' l.subscription).subscription.retryAttempts)
    (few : (section' l.subscription).subscription.retryAttempts ≤ 10)
    (none_ : ∀ delay maxAttempts, .retry delay maxAttempts ∉ (section' l.subscription).work) :
    (l.perform section').Budget := by
  refine ⟨natural, few, fun delay maxAttempts among => ?_⟩
  rcases List.mem_append.mp among with old | new
  · exact budget.outstanding delay maxAttempts old
  · exact absurd new (none_ delay maxAttempts)

/-- A section that leaves the counter alone. -/
theorem Budget.keeps {l : RequestState} (budget : l.Budget) {section' : Subscription → Outcome}
    (same : (section' l.subscription).subscription.retryAttempts = l.subscription.retryAttempts)
    (none_ : ∀ delay maxAttempts, .retry delay maxAttempts ∉ (section' l.subscription).work) :
    (l.perform section').Budget :=
  budget.perform (by rw [same]; exact budget.natural) (by rw [same]; exact budget.few) none_

theorem Budget.post {l : RequestState} (budget : l.Budget) {work : Work}
    (allowed : ∀ delay maxAttempts, work = .retry delay maxAttempts → maxAttempts = 2 ∨ maxAttempts = 5) :
    (l.post work).Budget := by
  refine ⟨budget.natural, budget.few, fun delay maxAttempts among => ?_⟩
  rcases List.mem_append.mp among with old | new
  · exact budget.outstanding delay maxAttempts old
  · exact allowed delay maxAttempts (List.mem_singleton.mp new).symm

theorem Budget.take {l : RequestState} (budget : l.Budget) (work : Work) : (l.take work).Budget :=
  ⟨budget.natural, budget.few, fun delay maxAttempts among =>
    budget.outstanding delay maxAttempts (List.mem_of_mem_erase among)⟩

theorem Budget.retry {l : RequestState} (budget : l.Budget) (delay : Nat) {maxAttempts : Int}
    (positive : 1 ≤ maxAttempts) (most : maxAttempts ≤ 10) :
    (l.perform (Subscription.retrySubscription delay maxAttempts)).Budget := by
  have turned := Subscription.retrySubscription_turn delay positive most budget.natural budget.few
  apply budget.perform turned.2.1 turned.2.2
  rw [(Subscription.retrySubscription_kept delay maxAttempts l.subscription).2.2]
  exact fun _ _ => List.not_mem_nil

theorem Budget.attempt {l l' : RequestState} {isRetry : Bool} {failed : List Assertion} (budget : l.Budget)
    (attempt : Attempt isRetry l l' failed) : l'.Budget := by
  have started : (l.perform (Subscription.startSubscribe isRetry)).Budget := by
    apply budget.keeps
    · cases isRetry <;> rfl
    · exact fun _ _ => List.not_mem_nil
  cases attempt with
  | create session object sessionID => exact started.post nofun
  | retry delay start => exact (start ▸ started).retry delay (by decide) (by decide)

theorem Budget.reset {l : RequestState} (budget : l.Budget) : l.reset.Budget := by
  have attempts : l.reset.subscription.retryAttempts = 0 ∨
      l.reset.subscription.retryAttempts = l.subscription.retryAttempts := by
    unfold RequestState.reset
    cases l.known with
    | true => exact .inl rfl
    | false => exact .inr rfl
  have natural := budget.natural
  have few := budget.few
  exact ⟨by omega, by omega, budget.outstanding⟩

theorem Budget.step {listens : Nat → Bool} {l l' : RequestState} {e : Event} {failed : List Assertion}
    (budget : l.Budget) (taken : RequestStep listens l e l' failed) : l'.Budget := by
  have nothing : ∀ (delay : Nat) (maxAttempts : Int), Work.retry delay maxAttempts ∉ ([] : List Work) :=
    fun _ _ => List.not_mem_nil
  cases taken with
  | subscribe request =>
    obtain ⟨attempts, -, posts⟩ := l.subscription.subscribe_kept
    have natural := budget.natural
    have few := budget.few
    have performed : (l.perform Subscription.subscribe).Budget := by
      apply budget.perform (by omega) (by omega)
      intro delay maxAttempts among
      cases posts _ among
    exact ⟨performed.natural, performed.few, performed.outstanding⟩
  | removeRef request held =>
    obtain ⟨attempts, -, sends⟩ := l.subscription.removeRef_kept
    have performed : (l.perform Subscription.removeRef).Budget := by
      apply budget.keeps attempts
      intro delay maxAttempts among
      obtain ⟨_, impossible⟩ := sends _ among
      cases impossible
    exact ⟨performed.natural, performed.few, performed.outstanding⟩
  | posted request throws outstanding attempt => exact (budget.take .subscribe).attempt attempt
  | passes request armed =>
    apply budget.keeps rfl
    intro delay maxAttempts among
    cases List.mem_singleton.mp among
  | fired request throws outstanding attempt => exact (budget.take .fired).attempt attempt
  | retry request delay maxAttempts outstanding =>
    rcases budget.outstanding delay maxAttempts outstanding with rfl | rfl
    · exact (budget.take _).retry delay (by decide) (by decide)
    · exact (budget.take _).retry delay (by decide) (by decide)
  | created request session object sessionID subscriptionID outstanding listening =>
    exact (budget.take _).keeps rfl nothing
  | createdLate request session object sessionID subscriptionID outstanding silent => exact budget.take _
  | refused request session object sessionID error outstanding =>
    cases error with
    | forbidden => exact (budget.take _).post (by rintro _ _ ⟨⟩; exact .inl rfl)
    | forwarded => exact (budget.take _).post (by rintro _ _ ⟨⟩; exact .inr rfl)
    | badRequest | unauthorized | conflict | ratelimited => exact (budget.take _).keeps rfl nothing
  | deleted request subscriptionID outstanding =>
    exact (budget.take _).perform (Int.le_refl 0) (by decide : (0 : Int) ≤ 10) nothing
  | closed session order throws attempt =>
    exact budget.reset.attempt attempt

end RequestState

/-! ## The timers that are armed -/

/-- The connection of the request is lost, and the request subscribed anew. -/
def Event.Reconnects (r : SubscriptionRequest) : Event → Prop
  | .closed _ none order _ => r ∈ order.map Prod.fst
  | _ => False

instance (r : SubscriptionRequest) : ∀ e : Event, Decidable (e.Reconnects r)
  | .closed _ none order _ => inferInstanceAs (Decidable (r ∈ order.map Prod.fst))
  | .closed _ (some _) _ _ | .subscribe _ | .removeRef _ | .posted _ _ | .passes _ | .fired _ _ | .retry _ _ _
  | .created _ _ _ _ _ | .refused _ _ _ _ _ | .deleted _ _ | .welcome _ _ => isFalse id

namespace Controller

variable {c next : Controller} {r : SubscriptionRequest}

/-- The maximum of the retrySubscription that an event comes to for the request. -/
def retries (c : Controller) (r : SubscriptionRequest) : Event → Option Int
  | .posted request _ | .fired request _ => if request = r ∧ c.getViableConnection.1 = none then some 10 else none
  | .retry request _ maxAttempts => if request = r then some maxAttempts else none
  | _ => none

def arms (c : Controller) (r : SubscriptionRequest) (e : Event) : Bool :=
  (c.retries r e).any fun maxAttempts => (c.subscription r).arms maxAttempts

/-- The counter of the request behind each event that arms a timer for it. -/
def armedAttempts (r : SubscriptionRequest) : Controller → List Event → List Int
  | _, [] => []
  | c, e :: es =>
      match c.step e with
      | none => []
      | some next =>
          if c.arms r e then (next.subscription r).retryAttempts :: armedAttempts r next es
          else armedAttempts r next es

/-- The request is not settled, and the event does not reconnect it. -/
def Trying (r : SubscriptionRequest) (c : Controller) (e : Event) : Prop :=
  (c.subscription r).settled = false ∧ ¬ e.Reconnects r

instance (r : SubscriptionRequest) (c : Controller) (e : Event) : Decidable (c.Trying r e) :=
  inferInstanceAs (Decidable (_ ∧ _))

/-- Every request stays within its budget, in every run. -/
theorem budget_step {e : Event} (budget : ∀ r, (c.request r).Budget) (taken : c.step e = some next) :
    ∀ r, (next.request r).Budget := by
  obtain ⟨failed, refines⟩ := step_refines taken
  intro r
  by_cases concerned : e.Concerns r
  · exact (budget r).step (refines.concerned r concerned)
  · rw [refines.others r concerned]
    exact budget r

theorem viableAmong_congr {c c' : Controller} (same : ∀ session, c.getListener session = c'.getListener session)
    (connections : List Nat) (openButNotReady : Nat) :
    c.viableAmong connections openButNotReady = c'.viableAmong connections openButNotReady := by
  induction connections generalizing openButNotReady with
  | nil => rfl
  | cons session rest ih =>
    rw [viableAmong, viableAmong, same]
    cases c'.getListener session with
    | none => exact ih openButNotReady
    | some listener => simp only [ih]

theorem viable_congr {c c' : Controller} (same : ∀ session, c.getListener session = c'.getListener session)
    (connections : c.connections = c'.connections) : c.getViableConnection = c'.getViableConnection := by
  rw [getViableConnection, getViableConnection, connections]
  exact viableAmong_congr same _ _

theorem startSubscribe_kept (isRetry : Bool) (s : Subscription) :
    (Subscription.startSubscribe isRetry s).subscription.retryAttempts = s.retryAttempts ∧
      (Subscription.startSubscribe isRetry s).subscription.refCount = s.refCount ∧
      ((Subscription.startSubscribe isRetry s).subscription.retryTimer = s.retryTimer ∨
        (Subscription.startSubscribe isRetry s).subscription.retryTimer = none) := by
  cases isRetry with
  | true => exact ⟨rfl, rfl, .inr rfl⟩
  | false => exact ⟨rfl, rfl, .inl rfl⟩

theorem subscription_perform (c : Controller) (r : SubscriptionRequest) (section' : Subscription → Outcome) :
    (c.perform r section').subscription r = (section' (c.subscription r)).subscription :=
  congrArg RequestState.subscription (request_perform c r section')

/-- Without a ready connection subscribe goes on to retry, and with one it does not. -/
theorem subscribeWith_turn (budget : (c.request r).Budget) (isRetry throws : Bool) :
    Subscription.Turn (c.subscription r) ((c.subscribeWith r isRetry throws).subscription r)
      (c.getViableConnection.1.isNone && (c.subscription r).arms 10) := by
  have viable : (c.perform r (Subscription.startSubscribe isRetry)).getViableConnection = c.getViableConnection := by
    exact viable_congr (fun _ => rfl) rfl
  obtain ⟨attempts, references, timer⟩ := startSubscribe_kept isRetry (c.subscription r)
  have started := subscription_perform c r (Subscription.startSubscribe isRetry)
  have retried : ∀ delay, Subscription.Turn (c.subscription r)
      (Subscription.retrySubscription delay 10
        (Subscription.startSubscribe isRetry (c.subscription r)).subscription).subscription
      ((c.subscription r).arms 10) := by
    intro delay
    have natural : 0 ≤ (Subscription.startSubscribe isRetry (c.subscription r)).subscription.retryAttempts := by
      rw [attempts]
      exact budget.natural
    have few : (Subscription.startSubscribe isRetry (c.subscription r)).subscription.retryAttempts ≤ 10 := by
      rw [attempts]
      exact budget.few
    have turned := (Subscription.retrySubscription_turn delay (by decide) (Int.le_refl 10) natural few).1
    have same : (Subscription.startSubscribe isRetry (c.subscription r)).subscription.arms 10 =
        (c.subscription r).arms 10 := by
      rw [Subscription.arms, Subscription.arms, attempts, references]
    rw [same] at turned
    exact turned.behind attempts timer
  have sent : Subscription.Turn (c.subscription r)
      (Subscription.startSubscribe isRetry (c.subscription r)).subscription false :=
    Subscription.Turn.behind (.same (.inl rfl) rfl) attempts timer
  unfold subscribeWith requestSubscription
  rw [viable]
  generalize c.perform r (Subscription.startSubscribe isRetry) = c' at started
  rw [← started] at retried sent
  cases found : c.getViableConnection with
  | mk first openButNotReady =>
    cases first with
    | some session =>
      simp only [Option.isNone_some, Bool.false_and]
      cases c'.getListener session with
      | none => exact sent
      | some listener => exact sent
    | none =>
      simp only [Option.isNone_none, Bool.true_and]
      cases openButNotReady with
      | zero =>
        have created : (c'.createConnection throws).subscription r = c'.subscription r :=
          congrArg RequestState.subscription (request_createConnection c' throws r)
        simp only
        rw [subscription_perform, created]
        exact retried 500
      | succ _ =>
        simp only
        rw [subscription_perform]
        exact retried 250

/-- A subscribe that was posted, or that a timer has fired. -/
theorem delivered_turn (budget : (c.request r).Budget) (work : Work) (isRetry throws : Bool) :
    Subscription.Turn (c.subscription r) (((c.take r work).subscribeWith r isRetry throws).subscription r)
      (c.getViableConnection.1.isNone && (c.subscription r).arms 10) := by
  have taken : ((c.take r work).request r).Budget := by
    rw [request_take]
    exact budget.take work
  have viable : (c.take r work).getViableConnection = c.getViableConnection := viable_congr (fun _ => rfl) rfl
  have turned := subscribeWith_turn taken isRetry throws
  rwa [viable] at turned

theorem arms_attempt {e : Event} (attempts : c.retries r e = if c.getViableConnection.1 = none then some 10 else none) :
    c.arms r e = (c.getViableConnection.1.isNone && (c.subscription r).arms 10) := by
  rw [arms, attempts]
  cases c.getViableConnection.1 <;> rfl

/-- What one event does to the retries of a request that is not settled. -/
theorem step_turn {e : Event} (budget : (c.request r).Budget) (trying : c.Trying r e) (taken : c.step e = some next) :
    Subscription.Turn (c.subscription r) (next.subscription r) (c.arms r e) := by
  obtain ⟨failed, refines⟩ := step_refines taken
  by_cases concerned : e.Concerns r
  · obtain ⟨failures, moved⟩ : ∃ failures, RequestStep c.listens (c.request r) e (next.request r) failures :=
      ⟨_, refines.concerned r concerned⟩
    change Subscription.Turn (c.request r).subscription (next.request r).subscription (c.arms r e)
    have unsettled : (c.request r).subscription.settled = false := trying.1
    cases e with
    | posted request throws =>
      obtain rfl : request = r := concerned
      unfold step at taken
      obtain ⟨-, rfl⟩ := deliver_some taken
      rw [arms_attempt (by simp [retries])]
      exact delivered_turn budget .subscribe false throws
    | fired request throws =>
      obtain rfl : request = r := concerned
      unfold step at taken
      obtain ⟨-, rfl⟩ := deliver_some taken
      rw [arms_attempt (by simp [retries])]
      exact delivered_turn budget .fired true throws
    | retry request delay maxAttempts =>
      obtain rfl : request = r := concerned
      have armed : c.arms request (.retry request delay maxAttempts) =
          (c.request request).subscription.arms maxAttempts := by
        simp [arms, retries, Controller.request]
      rw [armed]
      generalize next.request request = l' at moved ⊢
      cases moved with
      | retry _ _ _ outstanding =>
        rcases budget.outstanding delay maxAttempts outstanding with rfl | rfl
        · exact (Subscription.retrySubscription_turn delay (by decide) (by decide) budget.natural budget.few).1
        · exact (Subscription.retrySubscription_turn delay (by decide) (by decide) budget.natural budget.few).1
    | closed session reconnectURL order throws =>
      cases reconnectURL with
      | none => exact absurd concerned trying.2
      | some url => exact concerned.elim
    | welcome session sessionID => exact concerned.elim
    | subscribe request =>
      generalize next.request r = l' at moved ⊢
      cases moved with
      | subscribe =>
        obtain ⟨attempts, timer, -⟩ := (c.request r).subscription.subscribe_kept
        rcases attempts with same | ⟨settled, -⟩
        · exact .same (.inl timer) same
        · rw [unsettled] at settled
          cases settled
    | removeRef request =>
      generalize next.request r = l' at moved ⊢
      cases moved with
      | removeRef _ held =>
        obtain ⟨attempts, timer, -⟩ := (c.request r).subscription.removeRef_kept
        refine .same (timer.imp_right fun gone delay armed => ?_) attempts
        change (c.request r).subscription.removeRef.subscription.retryTimer = some (.armed delay) at armed
        rw [gone] at armed
        cases armed
    | passes request =>
      generalize next.request r = l' at moved ⊢
      cases moved with
      | passes _ armed =>
        refine .same (.inr ?_) rfl
        intro delay impossible
        cases impossible
    | created request session object sessionID subscriptionID =>
      generalize next.request r = l' at moved ⊢
      cases moved with
      | created => exact .other (.inl rfl) (.inr rfl)
      | createdLate => exact .same (.inl rfl) rfl
    | refused request session object sessionID error =>
      generalize next.request r = l' at moved ⊢
      cases moved with
      | refused =>
        cases error with
        | forbidden | forwarded => exact .same (.inl rfl) rfl
        | badRequest | unauthorized | conflict | ratelimited => exact .other (.inl rfl) (.inr rfl)
    | deleted request subscriptionID =>
      generalize next.request r = l' at moved ⊢
      cases moved with
      | deleted => exact .other (.inl rfl) (.inr rfl)
  · have same : next.subscription r = c.subscription r :=
      congrArg RequestState.subscription (refines.others r concerned)
    have noRetry : c.arms r e = false := by
      cases e with
      | posted request _ | fired request _ | retry request _ _ =>
        have other : request ≠ r := concerned
        simp [arms, retries, other]
      | _ => rfl
    rw [same, noRetry]
    exact .same (.inl rfl) rfl

theorem length_le_of_decreasing {counters : List Int} {most : Nat} (decreasing : counters.Pairwise (· > ·))
    (bounds : ∀ counter ∈ counters, 1 ≤ counter ∧ counter ≤ most) : counters.length ≤ most := by
  induction counters generalizing most with
  | nil => exact Nat.zero_le most
  | cons first rest ih =>
    rw [List.pairwise_cons] at decreasing
    have some_ := bounds first List.mem_cons_self
    have shorter : rest.length ≤ (first - 1).toNat := by
      apply ih decreasing.2
      intro counter later
      have less := decreasing.1 counter later
      have positive := (bounds counter (List.mem_cons_of_mem first later)).1
      omega
    rw [List.length_cons]
    omega

/-- Each counter behind an armed timer is smaller than every counter before it. -/
theorem armedAttempts_decreasing {final : Controller} {events : List Event} (budgets : ∀ r, (c.request r).Budget)
    (ran : run step c events = some final) (trying : Along step (Trying r) c events) :
    (armedAttempts r c events).Pairwise (· > ·) ∧ ∀ counter ∈ armedAttempts r c events,
      1 ≤ counter ∧ counter ≤ 10 ∧
        (0 < (c.subscription r).retryAttempts → counter < (c.subscription r).retryAttempts) := by
  induction events generalizing c with
  | nil => exact ⟨.nil, fun _ among => nomatch among⟩
  | cons e es ih =>
    obtain ⟨next, taken, rest⟩ := run_cons ran
    have turn := step_turn (budgets r) trying.1 taken
    have later := trying.next taken
    obtain ⟨decreasing, bounds⟩ := ih (budget_step budgets taken) rest later
    simp only [armedAttempts, taken]
    generalize c.arms r e = armed at turn
    cases turn with
    | armed timer state some_ few fewer =>
      -- the counter behind this timer is positive, so the later ones are below it
      have below : ∀ counter ∈ armedAttempts r next es, counter < (next.subscription r).retryAttempts :=
        fun counter among => (bounds counter among).2.2 (by omega)
      refine ⟨List.pairwise_cons.mpr ⟨below, decreasing⟩, fun counter among => ?_⟩
      rcases List.mem_cons.mp among with rfl | among
      · exact ⟨some_, few, fewer⟩
      · exact ⟨(bounds counter among).1, (bounds counter among).2.1,
          fun started => (below counter among).trans (fewer started)⟩
    | other timer attempts =>
      refine ⟨decreasing, fun counter among => ?_⟩
      rcases attempts with same | settled
      · rw [← same]
        exact bounds counter among
      · -- nothing is taken once the request is settled
        cases es with
        | nil => cases among
        | cons e' es =>
          have unsettled := later.1.1
          rw [settled] at unsettled
          cases unsettled

theorem budget_initial (r : SubscriptionRequest) : (request {} r).Budget :=
  ⟨Int.le_refl 0, (by decide : (0 : Int) ≤ 10), fun _ _ among => nomatch among⟩

/-- From any state that is reached, no more than ten timers are armed for a request until it is settled
or reconnected, each with a smaller counter than the ones before. -/
theorem retries_within_budget (r : SubscriptionRequest) {before events : List Event} {final : Controller}
    (reached : run step {} before = some c) (ran : run step c events = some final)
    (trying : Along step (Trying r) c events) :
    (armedAttempts r c events).Pairwise (· > ·) ∧
      (∀ counter ∈ armedAttempts r c events, 1 ≤ counter ∧ counter ≤ 10) ∧
      (armedAttempts r c events).length ≤ 10 := by
  have keeps (c : Controller) (e : Event) (next : Controller) (budgets : ∀ r, (c.request r).Budget)
      (taken : c.step e = some next) : ∀ r, (next.request r).Budget := budget_step budgets taken
  have budgets := run_keeps keeps reached budget_initial
  obtain ⟨decreasing, bounds⟩ := armedAttempts_decreasing budgets ran trying
  have within : ∀ counter ∈ armedAttempts r c events, 1 ≤ counter ∧ counter ≤ 10 :=
    fun counter among => ⟨(bounds counter among).1, (bounds counter among).2.1⟩
  exact ⟨decreasing, within, length_le_of_decreasing decreasing within⟩

/-- No connection is ready at first, and then two creates are refused, each in its own way. -/
def unlucky : List Event :=
  [.posted moderation false, .passes moderation, .fired moderation false, .passes moderation, .welcome 0 (qs "session"),
    .fired moderation false, .refused moderation 0 0 (qs "session") .forwarded, .retry moderation 2000 5,
    .passes moderation, .fired moderation false, .refused moderation 0 0 (qs "session") .forbidden,
    .retry moderation 2000 2]

theorem retries_within_budget_unlucky : ∃ c final, run step {} [.subscribe moderation] = some c ∧
    run step c unlucky = some final ∧ armedAttempts moderation c unlucky = [10, 9, 5, 2] ∧
      (armedAttempts moderation c unlucky).length ≤ 10 :=
  ⟨_, _, rfl, rfl, rfl, (retries_within_budget moderation (rfl : run step {} [.subscribe moderation] = _) rfl
    (by decide)).2.2⟩

end Controller

end Forserino.EventSub
