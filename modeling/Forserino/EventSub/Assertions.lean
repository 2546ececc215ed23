import Forserino.EventSub.Sessions
import Forserino.Foundation.Runs

/-! When the asserts of Controller.cpp hold.

They hold in every run in which no callback comes while another one is still
outstanding that the code does not reckon with; every other step leads to a failing one.
-/

set_option autoImplicit false

namespace Forserino.EventSub

open Forserino.Qt Foundation

/-- A subscription is being established. -/
def Subscription.Attempting (s : Subscription) : Prop := s.state = .subscribing ∨ s.state = .retrying

/-- The work that is outstanding, with the state and the retry timer that go with it. -/
inductive Phase (s : Subscription) : List Work → Prop where
  | idle (timer : s.retryTimer = none) (state : s.state ≠ .unsubscribing) : Phase s []
  | posted (timer : s.retryTimer = none) (state : s.state = .subscribing) : Phase s [.subscribe]
  | armed {delay : Nat} (timer : s.retryTimer = some (.armed delay)) (state : s.state = .retrying) : Phase s []
  | passed (timer : s.retryTimer = some .passed) (state : s.state = .retrying) : Phase s [.fired]
  | creating {session object : Nat} {sessionID : QString} (timer : s.retryTimer = none) (state : s.Attempting) :
      Phase s [.create session object sessionID]
  | retrying {delay : Nat} {maxAttempts : Int} (timer : s.retryTimer = none) (state : s.Attempting)
      (budget : 0 ≤ maxAttempts) : Phase s [.retry delay maxAttempts]
  | deleting {subscriptionID : QString} (timer : s.retryTimer = none) (state : s.state = .unsubscribing)
      (cleared : s.subscriptionID = []) : Phase s [.delete subscriptionID]

/-- Only the state, the timer and the ID matter for the phase. -/
theorem Phase.congr {s s' : Subscription} {work : List Work} (phase : Phase s work) (state : s'.state = s.state)
    (timer : s'.retryTimer = s.retryTimer) (subscriptionID : s'.subscriptionID = s.subscriptionID) : Phase s' work := by
  have attempting : s.Attempting → s'.Attempting := by
    unfold Subscription.Attempting
    rw [state]
    exact id
  cases phase with
  | idle none same => exact .idle (timer.trans none) (state ▸ same)
  | posted none same => exact .posted (timer.trans none) (state.trans same)
  | armed some same => exact .armed (timer.trans some) (state.trans same)
  | passed some same => exact .passed (timer.trans some) (state.trans same)
  | creating none same => exact .creating (timer.trans none) (attempting same)
  | retrying none same budget => exact .retrying (timer.trans none) (attempting same) budget
  | deleting none same cleared => exact .deleting (timer.trans none) (state.trans same) (subscriptionID.trans cleared)

/-- The phase when the retry timer is taken away. -/
theorem Phase.withoutTimer {s : Subscription} {work : List Work} {refCount : Int} (phase : Phase s work)
    (noneFired : .fired ∉ work) : Phase { s with refCount, retryTimer := none } work := by
  cases phase with
  | idle none same => exact .idle rfl same
  | posted none same => exact .posted rfl same
  | armed some same => exact .idle rfl (by rw [same]; decide)
  | passed some same => exact absurd (List.mem_singleton.mpr rfl) noneFired
  | creating none same => exact .creating rfl same
  | retrying none same budget => exact .retrying rfl same budget
  | deleting none same cleared => exact .deleting rfl same cleared

/-- In a state that is not on the way to another nothing is outstanding. -/
theorem Phase.settled {s : Subscription} {work : List Work} (phase : Phase s work) (settled : ¬ s.Attempting)
    (kept : s.state ≠ .unsubscribing) : work = [] ∧ s.retryTimer = none := by
  cases phase with
  | idle none same => exact ⟨rfl, none⟩
  | posted none same => exact absurd (.inl same) settled
  | armed some same => exact absurd (.inr same) settled
  | passed some same => exact absurd (.inr same) settled
  | creating none same => exact absurd same settled
  | retrying none same budget => exact absurd same settled
  | deleting none same cleared => exact absurd same kept

namespace RequestState

structure Orderly (l : RequestState) : Prop where
  phase : Phase l.subscription l.work
  references : l.subscription.refCount = l.handles
  known : 0 < l.handles → l.known = true
  attempts : 0 ≤ l.subscription.retryAttempts
  fresh : l.subscription.state = .subscribing → l.subscription.retryAttempts = 0
  unwanted : l.subscription.state = .unsubscribed → l.handles = 0

/-- The event does not come across work that is outstanding. -/
def Disciplined (l : RequestState) : Event → Prop
  | .removeRef _ => l.handles = 1 →
      .fired ∉ l.work ∧ (l.subscription.subscriptionID = [] ∨ l.work = [])
  | .deleted _ _ => l.handles = 0
  | .closed _ none _ _ => l.work = [] ∧ l.subscription.retryTimer = none
  | _ => True

/-- What subscribe(request, isRetry) needs: nothing else is outstanding, and there is
a retry timer exactly for a retry. -/
structure Ready (isRetry : Bool) (l : RequestState) : Prop where
  timer : l.subscription.retryTimer.isSome = isRetry
  work : l.work = []
  state : l.subscription.Attempting
  references : l.subscription.refCount = l.handles
  known : 0 < l.handles → l.known = true
  attempts : 0 ≤ l.subscription.retryAttempts
  fresh : l.subscription.state = .subscribing → l.subscription.retryAttempts = 0

theorem check_holds {assertion : Assertion} {holds : Bool} (h : holds = true) : check assertion holds = [] := by
  rw [h]
  rfl

theorem Ready.none {l : RequestState} (ready : l.Ready false) : l.subscription.retryTimer = none :=
  Option.isNone_iff_eq_none.mp (Option.isSome_eq_false_iff.mp ready.timer)

/-- A timer is armed for a request that has none. -/
theorem Ready.arm {l : RequestState} (ready : l.Ready false) (delay : Nat) {attempts : Int} (natural : 0 ≤ attempts) :
    (Subscription.armTimer delay [] { l.subscription with retryAttempts := attempts }).failed = [] ∧
      (l.perform fun s => Subscription.armTimer delay [] { s with retryAttempts := attempts }).Orderly := by
  constructor
  · exact check_holds (by rw [ready.none]; rfl)
  · constructor
    case phase =>
      rw [perform, ready.work]
      exact .armed rfl rfl
    case references => exact ready.references
    case known => exact fun _ => rfl
    case attempts => exact natural
    case fresh =>
      intro impossible
      cases impossible
    case unwanted =>
      intro impossible
      cases impossible

theorem Ready.retry {l : RequestState} (ready : l.Ready false) (delay : Nat) {maxAttempts : Int} (budget : 0 ≤ maxAttempts) :
    (Subscription.retrySubscription delay maxAttempts l.subscription).failed = [] ∧
      (l.perform (Subscription.retrySubscription delay maxAttempts)).Orderly := by
  have natural : check .attempts (decide (0 ≤ l.subscription.retryAttempts)) = [] :=
    check_holds (decide_eq_true ready.attempts)
  have attempting : check .newRetryState
      (decide (l.subscription.state = .subscribing ∨ l.subscription.state = .retrying)) = [] :=
    check_holds (decide_eq_true ready.state)
  unfold perform
  by_cases unwanted : l.subscription.refCount = 0
  · have outcome : Subscription.retrySubscription delay maxAttempts l.subscription =
        { subscription := { l.subscription with state := .unsubscribed } } := by
      simp only [Subscription.retrySubscription, if_pos unwanted, natural]
    rw [outcome]
    refine ⟨rfl, ⟨?_, ready.references, fun _ => rfl, ready.attempts, (fun impossible => nomatch impossible), ?_⟩⟩
    · rw [ready.work]
      exact .idle ready.none (fun impossible => nomatch impossible)
    · have same : (l.handles : Int) = 0 := ready.references.symm.trans unwanted
      exact fun _ => Int.ofNat_eq_zero.mp same
  · by_cases new : l.subscription.retryAttempts = 0 ∨ maxAttempts < l.subscription.retryAttempts
    · have outcome : Subscription.retrySubscription delay maxAttempts l.subscription =
          Subscription.armTimer delay [] { l.subscription with retryAttempts := maxAttempts } := by
        simp only [Subscription.retrySubscription, if_neg unwanted, if_pos new, natural, attempting, List.append_nil]
      rw [outcome]
      exact ready.arm delay budget
    · obtain ⟨started, _⟩ := not_or.mp new
      -- only a fresh attempt has no attempts left
      have again : l.subscription.state = .retrying := by
        rcases ready.state with fresh | again
        · exact absurd (ready.fresh fresh) started
        · exact again
      have retrying : check .retryState (decide (l.subscription.state = .retrying)) = [] :=
        check_holds (decide_eq_true again)
      by_cases last : l.subscription.retryAttempts - 1 = 0
      · have outcome : Subscription.retrySubscription delay maxAttempts l.subscription =
            { subscription := { l.subscription with retryAttempts := l.subscription.retryAttempts - 1, state := .failed } } := by
          simp only [Subscription.retrySubscription, if_neg unwanted, if_neg new, if_pos last, natural, retrying,
            List.append_nil]
        rw [outcome]
        refine ⟨rfl, ⟨?_, ready.references, fun _ => rfl, Int.le_of_eq last.symm,
          (fun impossible => nomatch impossible), (fun impossible => nomatch impossible)⟩⟩
        rw [ready.work]
        exact .idle ready.none (fun impossible => nomatch impossible)
      · have outcome : Subscription.retrySubscription delay maxAttempts l.subscription =
            Subscription.armTimer delay [] { l.subscription with retryAttempts := l.subscription.retryAttempts - 1 } := by
          simp only [Subscription.retrySubscription, if_neg unwanted, if_neg new, if_neg last, natural, retrying,
            List.append_nil]
        rw [outcome]
        apply ready.arm delay
        have natural := ready.attempts
        omega

theorem Ready.start {isRetry : Bool} {l : RequestState} (ready : l.Ready isRetry) :
    (Subscription.startSubscribe isRetry l.subscription).failed = [] ∧
      (l.perform (Subscription.startSubscribe isRetry)).Ready false := by
  have timer := ready.timer
  have work : l.work ++ [] = [] := by rw [ready.work]; rfl
  cases isRetry with
  | true =>
    refine ⟨?_, ⟨rfl, work, ready.state, ready.references, fun _ => rfl, ready.attempts, ready.fresh⟩⟩
    simp only [Subscription.startSubscribe, if_true, timer]
    rfl
  | false =>
    have empty : check .timerCleared l.subscription.retryTimer.isNone = [] := check_holds (by rw [ready.none]; rfl)
    exact ⟨empty, ⟨timer, work, ready.state, ready.references, fun _ => rfl, ready.attempts, ready.fresh⟩⟩

theorem Ready.create {l : RequestState} (ready : l.Ready false) (session object : Nat) (sessionID : QString) :
    (l.post (.create session object sessionID)).Orderly := by
  refine ⟨?_, ready.references, ready.known, ready.attempts, ready.fresh, ?_⟩
  · rw [post, ready.work]
    exact .creating ready.none ready.state
  · intro unsubscribed
    rcases ready.state with same | same
    all_goals exact absurd (same.symm.trans unsubscribed) (by decide)

theorem Ready.attempt {isRetry : Bool} {l l' : RequestState} {failed : List Assertion}
    (ready : l.Ready isRetry) (attempt : Attempt isRetry l l' failed) : failed = [] ∧ l'.Orderly := by
  obtain ⟨noneFailed, started⟩ := ready.start
  cases attempt with
  | create session object sessionID => exact ⟨noneFailed, started.create session object sessionID⟩
  | retry delay start =>
    subst start
    obtain ⟨noneLater, orderly⟩ := started.retry delay (show (0 : Int) ≤ 10 by decide)
    exact ⟨by rw [noneFailed, noneLater]; rfl, orderly⟩

/-! ## Steps of one request -/

theorem Orderly.subscribe {l : RequestState} (orderly : l.Orderly) :
    l.subscription.subscribe.failed = [] ∧
      ((l.perform Subscription.subscribe).addHandles (l.handles + 1)).Orderly := by
  have references := orderly.references
  have natural : check .references (decide (0 ≤ l.subscription.refCount)) = [] :=
    check_holds (decide_eq_true (by omega))
  -- the subscription is asked for anew, where nothing is outstanding
  have fresh (unwanted : List Assertion) (none' : unwanted = [])
      (settled : ¬ l.subscription.Attempting) (kept : l.subscription.state ≠ .unsubscribing)
      (outcome : l.subscription.subscribe =
        { subscription := { l.subscription with
            state := .subscribing, retryAttempts := 0, refCount := l.subscription.refCount + 1 }
          work := [.subscribe]
          failed := check .references (0 ≤ l.subscription.refCount) ++ unwanted ++
            check .newWithoutTimer l.subscription.retryTimer.isNone }) :
      l.subscription.subscribe.failed = [] ∧
        ((l.perform Subscription.subscribe).addHandles (l.handles + 1)).Orderly := by
    obtain ⟨noWork, noTimer⟩ := orderly.phase.settled settled kept
    have cleared : check .newWithoutTimer l.subscription.retryTimer.isNone = [] := check_holds (by rw [noTimer]; rfl)
    unfold perform addHandles
    rw [outcome]
    constructor
    · rw [natural, none', cleared]
      rfl
    · constructor
      case phase =>
        rw [noWork]
        exact .posted noTimer rfl
      case references =>
        change l.subscription.refCount + 1 = ((l.handles + 1 : Nat) : Int)
        omega
      case known => exact fun _ => rfl
      case attempts => exact Int.le_refl 0
      case fresh => exact fun _ => rfl
      case unwanted => exact fun impossible => nomatch impossible
  -- one more handle of a subscription that is wanted already
  have another (outcome : l.subscription.subscribe =
        { subscription := { l.subscription with refCount := l.subscription.refCount + 1 }
          failed := check .references (0 ≤ l.subscription.refCount) })
      (subscribed : l.subscription.state ≠ .unsubscribed) :
      l.subscription.subscribe.failed = [] ∧
        ((l.perform Subscription.subscribe).addHandles (l.handles + 1)).Orderly := by
    unfold perform addHandles
    rw [outcome]
    constructor
    · exact natural
    · constructor
      case phase =>
        rw [List.append_nil]
        exact orderly.phase.congr rfl rfl rfl
      case references =>
        change l.subscription.refCount + 1 = ((l.handles + 1 : Nat) : Int)
        omega
      case known => exact fun _ => rfl
      case attempts => exact orderly.attempts
      case fresh => exact orderly.fresh
      case unwanted => exact fun same => absurd same subscribed
  have attempting (state : State) (same : l.subscription.state = state) (other : state ≠ .subscribing ∧ state ≠ .retrying) :
      ¬ l.subscription.Attempting := by
    rintro (this | this)
    · exact other.1 (same.symm.trans this)
    · exact other.2 (same.symm.trans this)
  cases state : l.subscription.state with
  | unsubscribed =>
    have zero : l.subscription.refCount = 0 := by
      have none := orderly.unwanted state
      omega
    refine fresh (check .unsubscribedUnreferenced (decide (l.subscription.refCount = 0)))
      (check_holds (decide_eq_true zero)) (attempting _ state (by decide)) (by rw [state]; decide) ?_
    simp only [Subscription.subscribe, state]
  | failed =>
    refine fresh [] rfl (attempting _ state (by decide)) (by rw [state]; decide) ?_
    simp only [Subscription.subscribe, state, List.append_nil]
  | subscribing | retrying | subscribed | unsubscribing =>
    refine another ?_ (by rw [state]; decide)
    simp only [Subscription.subscribe, state]

theorem Orderly.removeRef {l : RequestState} (orderly : l.Orderly) (held : 0 < l.handles)
    (disciplined : l.handles = 1 → .fired ∉ l.work ∧ (l.subscription.subscriptionID = [] ∨ l.work = [])) :
    check .contains l.known ++ l.subscription.removeRef.failed = [] ∧
      ((l.perform Subscription.removeRef).addHandles (l.handles - 1)).Orderly := by
  have references := orderly.references
  have contained : check .contains l.known = [] := check_holds (orderly.known held)
  have left : check .referencesLeft (decide (0 ≤ l.subscription.refCount - 1)) = [] :=
    check_holds (decide_eq_true (by omega))
  have fewer : l.subscription.refCount - 1 = ((l.handles - 1 : Nat) : Int) := by omega
  have unwanted : l.subscription.state = .unsubscribed → l.handles - 1 = 0 := by
    intro same
    have none := orderly.unwanted same
    omega
  unfold perform addHandles
  rw [contained, List.nil_append]
  by_cases last : l.subscription.refCount - 1 ≤ 0
  · obtain ⟨noneFired, dealt⟩ := disciplined (by omega)
    by_cases empty : l.subscription.subscriptionID.isEmpty
    · have outcome : l.subscription.removeRef =
          { subscription := { l.subscription with refCount := l.subscription.refCount - 1, retryTimer := none } } := by
        simp only [Subscription.removeRef, if_pos last, if_pos empty, left]
      rw [outcome]
      refine ⟨rfl, ⟨?_, fewer, fun _ => rfl, orderly.attempts, orderly.fresh, unwanted⟩⟩
      rw [List.append_nil]
      exact orderly.phase.withoutTimer noneFired
    · have noWork : l.work = [] := by
        rcases dealt with none | noWork
        · rw [none] at empty
          exact absurd rfl empty
        · exact noWork
      have outcome : l.subscription.removeRef =
          { subscription := { l.subscription with
              refCount := l.subscription.refCount - 1, retryTimer := none, state := .unsubscribing, subscriptionID := [] }
            work := [.delete l.subscription.subscriptionID] } := by
        simp only [Subscription.removeRef, if_pos last, if_neg empty, left]
      rw [outcome]
      refine ⟨rfl, ⟨?_, fewer, fun _ => rfl, orderly.attempts, (fun impossible => nomatch impossible),
        (fun impossible => nomatch impossible)⟩⟩
      rw [noWork]
      exact .deleting rfl rfl rfl
  · have outcome : l.subscription.removeRef =
        { subscription := { l.subscription with refCount := l.subscription.refCount - 1 } } := by
      simp only [Subscription.removeRef, if_neg last, left]
    rw [outcome]
    refine ⟨rfl, ⟨?_, fewer, fun _ => rfl, orderly.attempts, orderly.fresh, unwanted⟩⟩
    rw [List.append_nil]
    exact orderly.phase.congr rfl rfl rfl

/-- The only work of a request is dealt with. -/
theorem Orderly.take {l : RequestState} {work : Work} (orderly : l.Orderly) (only : l.work = [work]) {isRetry : Bool}
    (timer : l.subscription.retryTimer.isSome = isRetry) (state : l.subscription.Attempting) :
    (l.take work).Ready isRetry := by
  refine ⟨timer, ?_, state, orderly.references, orderly.known, orderly.attempts, orderly.fresh⟩
  change l.work.erase work = []
  rw [only, List.erase_cons_head]

/-- An answer to a create that gives the request a settled state. -/
theorem Ready.settle {l : RequestState} (ready : l.Ready false) {section' : Subscription → Outcome}
    (noWork : (section' l.subscription).work = [])
    (timer : (section' l.subscription).subscription.retryTimer = l.subscription.retryTimer)
    (refCount : (section' l.subscription).subscription.refCount = l.subscription.refCount)
    (attempts : (section' l.subscription).subscription.retryAttempts = l.subscription.retryAttempts)
    (state : (section' l.subscription).subscription.state = .subscribed ∨
      (section' l.subscription).subscription.state = .failed) : (l.perform section').Orderly := by
  have settled (other : State) (apart : other ≠ .subscribed ∧ other ≠ .failed) :
      (section' l.subscription).subscription.state ≠ other := by
    rintro rfl
    rcases state with same | same
    · exact apart.1 same
    · exact apart.2 same
  constructor
  case phase =>
    rw [perform, ready.work, noWork]
    exact .idle (timer.trans ready.none) (settled .unsubscribing (by decide))
  case references => exact refCount.trans ready.references
  case known => exact fun _ => rfl
  case attempts => exact attempts ▸ ready.attempts
  case fresh => exact fun same => absurd same (settled .subscribing (by decide))
  case unwanted => exact fun same => absurd same (settled .unsubscribed (by decide))

theorem Ready.createFailed {l : RequestState} (ready : l.Ready false) (error : CreateError) :
    (l.createFailed error).Orderly := by
  have retry (delay : Nat) {maxAttempts : Int} (budget : 0 ≤ maxAttempts) :
      (l.post (.retry delay maxAttempts)).Orderly := by
    refine ⟨?_, ready.references, ready.known, ready.attempts, ready.fresh, ?_⟩
    · rw [post, ready.work]
      exact .retrying ready.none ready.state budget
    · intro unsubscribed
      rcases ready.state with same | same
      all_goals exact absurd (same.symm.trans unsubscribed) (by decide)
  cases error with
  | forbidden => exact retry 2000 (by decide)
  | forwarded => exact retry 2000 (by decide)
  | badRequest | unauthorized | conflict | ratelimited => exact ready.settle rfl rfl rfl rfl (.inr rfl)

/-- A create is outstanding while the request is being subscribed. -/
theorem Orderly.creating {l : RequestState} (orderly : l.Orderly) {session object : Nat} {sessionID : QString}
    (outstanding : .create session object sessionID ∈ l.work) :
    (l.take (.create session object sessionID)).Ready false := by
  have phase := orderly.phase
  cases only : l.work with
  | nil =>
    rw [only] at outstanding
    cases outstanding
  | cons first rest =>
    rw [only] at phase outstanding
    cases phase with
    | creating timer state =>
      cases List.mem_singleton.mp outstanding
      exact orderly.take only (by rw [timer]; rfl) state
    | posted | passed | retrying | deleting => cases List.mem_singleton.mp outstanding

/-- A disciplined step fails no assertion and keeps the request in order. -/
theorem Orderly.step {listens : Nat → Bool} {l l' : RequestState} {e : Event} {failed : List Assertion}
    (orderly : l.Orderly) (step : RequestStep listens l e l' failed) (disciplined : l.Disciplined e)
    (known : ∀ session url order throws, e = .closed session url order throws → l.known = true) :
    failed = [] ∧ l'.Orderly := by
  have phase := orderly.phase
  cases step with
  | subscribe request => exact orderly.subscribe
  | removeRef request held => exact orderly.removeRef held disciplined
  | posted request throws outstanding attempt =>
    generalize only : l.work = work at phase outstanding
    cases phase with
    | posted timer state => exact (orderly.take only (by rw [timer]; rfl) (.inl state)).attempt attempt
    -- in the other phases different work is outstanding, or none
    | idle | armed => cases outstanding
    | passed | creating | retrying | deleting => cases List.mem_singleton.mp outstanding
  | fired request throws outstanding attempt =>
    generalize only : l.work = work at phase outstanding
    cases phase with
    | passed timer state => exact (orderly.take only (by rw [timer]; rfl) (.inr state)).attempt attempt
    | idle | armed => cases outstanding
    | posted | creating | retrying | deleting => cases List.mem_singleton.mp outstanding
  | passes request armed =>
    refine ⟨rfl, ⟨?_, orderly.references, fun _ => rfl, orderly.attempts, orderly.fresh, orderly.unwanted⟩⟩
    change Phase _ (l.work ++ [.fired])
    generalize only : l.work = work at phase
    cases phase with
    | armed timer state => exact .passed rfl state
    | idle timer | posted timer | creating timer | retrying timer | deleting timer =>
      rw [timer] at armed
      cases armed
    | passed timer =>
      rw [timer] at armed
      cases armed
  | retry request delay maxAttempts outstanding =>
    generalize only : l.work = work at phase outstanding
    cases phase with
    | retrying timer state budget =>
      cases List.mem_singleton.mp outstanding
      exact (orderly.take only (by rw [timer]; rfl) state).retry delay budget
    | idle | armed => cases outstanding
    | posted | passed | creating | deleting => cases List.mem_singleton.mp outstanding
  | created request session object sessionID subscriptionID outstanding =>
    have ready := orderly.creating outstanding
    exact ⟨check_holds (decide_eq_true ready.state), ready.settle rfl rfl rfl rfl (.inl rfl)⟩
  | createdLate request session object sessionID subscriptionID outstanding =>
    have ready := orderly.creating outstanding
    refine ⟨rfl, ⟨?_, ready.references, ready.known, ready.attempts, ready.fresh, orderly.unwanted⟩⟩
    rw [ready.work]
    refine .idle ready.none ?_
    rcases ready.state with same | same
    all_goals
      rw [same]
      decide
  | refused request session object sessionID error outstanding =>
    exact ⟨rfl, (orderly.creating outstanding).createFailed error⟩
  | deleted request subscriptionID outstanding =>
    generalize only : l.work = work at phase outstanding
    cases phase with
    | deleting timer state cleared =>
      cases List.mem_singleton.mp outstanding
      have unsubscribing : check .unsubscribedState
          (decide (l.subscription.state = .unsubscribing ∨ l.subscription.state = .retrying)) = [] :=
        check_holds (decide_eq_true (.inl state))
      have noTimer : check .unsubscribedTimer l.subscription.retryTimer.isNone = [] := check_holds (by rw [timer]; rfl)
      refine ⟨?_, ⟨?_, orderly.references, fun _ => rfl, Int.le_refl 0, (fun impossible => nomatch impossible),
        fun _ => disciplined⟩⟩
      · simp only [Subscription.markRequestUnsubscribed, unsubscribing, noTimer, List.append_nil]
      · change Phase _ (l.work.erase _ ++ [])
        rw [only, List.erase_cons_head]
        exact .idle timer (fun impossible => nomatch impossible)
    | idle | armed => cases outstanding
    | posted | passed | creating | retrying => cases List.mem_singleton.mp outstanding
  | closed session order throws attempt =>
    obtain ⟨noWork, noTimer⟩ := disciplined
    have isKnown := known session none order throws rfl
    have reset : l.reset = { l with subscription := l.subscription.reset } := by
      rw [RequestState.reset, isKnown]
      rfl
    have ready : l.reset.Ready false := by
      rw [reset]
      refine ⟨?_, noWork, .inl rfl, orderly.references, orderly.known, Int.le_refl 0, fun _ => rfl⟩
      change l.subscription.retryTimer.isSome = false
      rw [noTimer]
      rfl
    exact ready.attempt attempt

end RequestState

namespace Controller

/-- The event does not come across outstanding work of its request: the last handle
does not go while a passed timer is queued, or with an ID while something is under
way; a delete is not answered while the request is wanted again; and no connection is
lost while something is under way for one of its subscriptions. -/
def Disciplined (c : Controller) : Event → Prop
  | .removeRef request => c.handles request = 1 →
      .fired ∉ c.work request ∧ ((c.subscription request).subscriptionID = [] ∨ c.work request = [])
  | .deleted request _ => c.handles request = 0
  | .closed _ none order _ => ∀ request ∈ order.map Prod.fst,
      c.work request = [] ∧ (c.subscription request).retryTimer = none
  | _ => True

instance (c : Controller) : ∀ e, Decidable (c.Disciplined e)
  | .removeRef request => inferInstanceAs (Decidable (c.handles request = 1 → _))
  | .deleted request _ => inferInstanceAs (Decidable (c.handles request = 0))
  | .closed _ none order _ => inferInstanceAs (Decidable (∀ request ∈ order.map Prod.fst, _))
  | .subscribe _ | .posted _ _ | .passes _ | .fired _ _ | .retry _ _ _ | .created _ _ _ _ _ | .refused _ _ _ _ _
  | .welcome _ _ | .closed _ (some _) _ _ => isTrue trivial

theorem Disciplined.request {c : Controller} {e : Event} (disciplined : c.Disciplined e) {r : SubscriptionRequest}
    (concerned : e.Concerns r) : (c.request r).Disciplined e := by
  cases e with
  | removeRef request | deleted request subscriptionID =>
    obtain rfl : request = r := concerned
    exact disciplined
  | closed session url order throws =>
    cases url with
    | none => exact disciplined r concerned
    | some url => trivial
  | subscribe | posted | passes | fired | retry | created | refused | welcome => trivial

structure Orderly (c : Controller) : Prop where
  requests : ∀ r, (c.request r).Orderly
  carried : c.CarriesKnown
  failed : c.failed = []

theorem Orderly.step {c c' : Controller} {e : Event} (orderly : c.Orderly) (disciplined : c.Disciplined e)
    (taken : c.step e = some c') : c'.Orderly := by
  obtain ⟨failed, refines⟩ := step_refines taken
  have known (r : SubscriptionRequest) (concerned : e.Concerns r) (session : Nat) (url : Option QString)
      (order : List (SubscriptionRequest × Bool)) (throws : Bool) (same : e = .closed session url order throws) :
      (c.request r).known = true := by
    subst same
    obtain ⟨listener, found, all⟩ := closed_listener taken
    cases url with
    | none =>
      refine orderly.carried r ⟨listener, mem_of_getListener found, ?_⟩
      rw [← all, List.mem_toFinset]
      exact concerned
    | some url => cases concerned
  have each (r : SubscriptionRequest) (concerned : e.Concerns r) :=
    (orderly.requests r).step (refines.concerned r concerned) (disciplined.request concerned) (known r concerned)
  constructor
  case requests =>
    intro r
    by_cases concerned : e.Concerns r
    · exact (each r concerned).2
    · rw [refines.others r concerned]
      exact orderly.requests r
  case carried => exact orderly.carried.step taken
  case failed =>
    rw [List.eq_nil_iff_forall_not_mem]
    intro a member
    rcases refines.failed a member with old | ⟨r, concerned, new⟩
    · rw [orderly.failed] at old
      cases old
    · rw [(each r concerned).1] at new
      cases new

theorem Orderly.initial : ({} : Controller).Orderly := by
  refine ⟨fun r => ?_, CarriesKnown.initial, rfl⟩
  exact ⟨.idle rfl (fun impossible => nomatch impossible), rfl, (fun impossible => nomatch impossible), Int.le_refl 0,
      (fun impossible => nomatch impossible), fun _ => rfl⟩

/-- No assert of Controller.cpp fails in a run of disciplined events. -/
theorem asserts_hold (events : List Event) {c : Controller} (ran : run Controller.step {} events = some c)
    (disciplined : Along Controller.step Disciplined {} events) : c.failed = [] := by
  have orderly := run_invariant (fun _ _ _ orderly disciplined taken => Orderly.step orderly disciplined taken)
    disciplined ran Orderly.initial
  exact orderly.failed

theorem asserts_hold_unsubscribed : ∃ c, run Controller.step {} (untilCreate ++
    [createAnswer, .removeRef moderation, .deleted moderation (qs "id"), .subscribe moderation]) = some c ∧
      c.failed = [] :=
  ⟨_, rfl, asserts_hold (untilCreate ++
    [createAnswer, .removeRef moderation, .deleted moderation (qs "id"), .subscribe moderation]) rfl (by decide)⟩

/-- A handle that comes back while the delete is in flight is counted, and then forgotten. -/
theorem unsubscribed_with_reference : ∃ c, run Controller.step {} (untilCreate ++
    [createAnswer, .removeRef moderation, .subscribe moderation, .deleted moderation (qs "id"),
      .subscribe moderation]) = some c ∧ c.failed = [.unsubscribedUnreferenced] :=
  ⟨_, rfl, rfl⟩

end Controller

end Forserino.EventSub
