import Mathlib.Algebra.Order.Group.Int
import Mathlib.Data.List.Perm.Subperm
import Forserino.Foundation.Runs
import Forserino.Foundation.Windows
import Forserino.Qt.Text

/-! The bucket that limits how often a callback is called. Its timers and the calls of its
callback are kept with the time at which they began; times are in milliseconds.
-/

set_option autoImplicit false

namespace Forserino.Util

open Foundation Qt

structure RatelimitBucket where
  budget : Int
  queue : List QString
  /-- When each timer that has not fired was started. -/
  timers : List Int
  /-- What the callback was called with, and when. -/
  calls : List (QString × Int)
  deriving DecidableEq, Repr

namespace RatelimitBucket

def new (budget : Int) : RatelimitBucket := ⟨budget, [], [], []⟩

def handleOne (bucket : RatelimitBucket) (now : Int) : RatelimitBucket :=
  match bucket.queue with
  | [] => bucket
  | item :: queue =>
      { budget := bucket.budget - 1, queue, timers := bucket.timers ++ [now], calls := bucket.calls ++ [(item, now)] }

def send (bucket : RatelimitBucket) (channel : QString) (now : Int) : RatelimitBucket :=
  let bucket := { bucket with queue := bucket.queue ++ [channel] }
  if 0 < bucket.budget then bucket.handleOne now else bucket

/-- What a timer does when it fires. -/
def timeout (bucket : RatelimitBucket) (started now : Int) : RatelimitBucket :=
  { bucket with budget := bucket.budget + 1, timers := bucket.timers.erase started }.handleOne now

/-- The bucket and the time of the last event. -/
structure Clocked where
  bucket : RatelimitBucket
  clock : Int
  deriving DecidableEq, Repr

inductive Event where
  | send (channel : QString) (now : Int)
  | timeout (started now : Int)
  deriving DecidableEq, Repr

def Event.isTimeout : Event → Bool
  | .send _ _ => false
  | .timeout _ _ => true

def Event.channel? : Event → Option QString
  | .send channel _ => some channel
  | .timeout _ _ => none

/-- Time does not go back, and no timer fires before its cooldown is over. -/
def step (cooldown : Int) (state : Clocked) : Event → Option Clocked
  | .send channel now =>
      if state.clock ≤ now then some ⟨state.bucket.send channel now, now⟩ else none
  | .timeout started now =>
      if state.clock ≤ now ∧ started ∈ state.bucket.timers ∧ started + cooldown ≤ now then
        some ⟨state.bucket.timeout started now, now⟩
      else none

def names (bucket : RatelimitBucket) : List QString := bucket.calls.map Prod.fst

def times (bucket : RatelimitBucket) : List Int := bucket.calls.map Prod.snd

/-- The second call comes before the cooldown of the first one is over. -/
def near (cooldown : Int) (t now : Int) : Bool := decide (now < t + cooldown)

/-- The bucket after these channels were sent, whether or not one of them has to be called now. -/
structure Orderly (initial cooldown : Int) (sent : List QString) (state : Clocked) : Prop where
  inOrder : state.bucket.names ++ state.bucket.queue = sent
  conserved : state.bucket.budget + state.bucket.timers.length = initial
  natural : 0 ≤ state.bucket.budget
  past : ∀ t ∈ state.bucket.times, t ≤ state.clock
  sorted : state.bucket.times.Pairwise (· ≤ ·)
  /-- Whatever was called within a cooldown still has its timer. -/
  timed : (state.bucket.times.filter fun t => near cooldown t state.clock).Subperm state.bucket.timers
  limited : Limited (near cooldown) initial.toNat state.bucket.times

/-- A channel waits only while nothing is left of the budget. -/
def Waiting (bucket : RatelimitBucket) : Prop := bucket.queue ≠ [] → bucket.budget = 0

variable {initial cooldown : Int} {sent : List QString} {state next : Clocked} {bucket : RatelimitBucket}

theorem orderly_new (natural : 0 ≤ initial) (cooldown clock : Int) :
    Orderly initial cooldown [] ⟨new initial, clock⟩ where
  inOrder := rfl
  conserved := Int.add_zero initial
  natural := natural
  past := fun _ member => absurd member List.not_mem_nil
  sorted := .nil
  timed := .refl []
  limited := limited_nil

theorem Orderly.later {clock now : Int} (orderly : Orderly initial cooldown sent ⟨bucket, clock⟩)
    (later : clock ≤ now) :
    Orderly initial cooldown sent ⟨bucket, now⟩ where
  inOrder := orderly.inOrder
  conserved := orderly.conserved
  natural := orderly.natural
  past := fun t member => (orderly.past t member).trans later
  sorted := orderly.sorted
  timed := by
    refine List.Subperm.trans (List.Sublist.subperm ?_) orderly.timed
    apply List.monotone_filter_right
    intro t isNear
    rw [near, decide_eq_true_iff] at isNear ⊢
    exact lt_of_le_of_lt later isNear
  limited := orderly.limited

theorem Orderly.append {now : Int} (orderly : Orderly initial cooldown sent ⟨bucket, now⟩) (channel : QString) :
    Orderly initial cooldown (sent ++ [channel]) ⟨{ bucket with queue := bucket.queue ++ [channel] }, now⟩ where
  inOrder := by
    rw [← orderly.inOrder]
    exact (List.append_assoc _ _ _).symm
  conserved := orderly.conserved
  natural := orderly.natural
  past := orderly.past
  sorted := orderly.sorted
  timed := orderly.timed
  limited := orderly.limited

/-- The timer of a call that is no longer within a cooldown gives its part of the budget back. -/
theorem Orderly.expire {started now : Int} (orderly : Orderly initial cooldown sent ⟨bucket, now⟩)
    (outstanding : started ∈ bucket.timers) (past : started + cooldown ≤ now) :
    Orderly initial cooldown sent
      ⟨{ bucket with budget := bucket.budget + 1, timers := bucket.timers.erase started }, now⟩ where
  inOrder := orderly.inOrder
  conserved := by
    have conserved := orderly.conserved
    have shorter := List.length_erase_add_one outstanding
    dsimp only at conserved ⊢
    omega
  natural := Int.add_nonneg orderly.natural Int.one_nonneg
  past := orderly.past
  sorted := orderly.sorted
  timed := by
    have absent : started ∉ bucket.times.filter fun t => near cooldown t now := by
      intro member
      have isNear := (List.mem_filter.mp member).2
      rw [near, decide_eq_true_iff] at isNear
      omega
    have erased := orderly.timed.erase started
    rwa [List.erase_of_not_mem absent] at erased
  limited := orderly.limited

theorem Orderly.handleOne {now : Int} (orderly : Orderly initial cooldown sent ⟨bucket, now⟩)
    (positive : 0 < bucket.budget) : Orderly initial cooldown sent ⟨bucket.handleOne now, now⟩ := by
  unfold RatelimitBucket.handleOne
  cases waiting : bucket.queue with
  | nil => exact orderly
  | cons item queue =>
    have timed : ((bucket.times ++ [now]).filter fun t => near cooldown t now).Subperm (bucket.timers ++ [now]) := by
      rw [List.filter_append]
      exact orderly.timed.append (List.filter_sublist.subperm)
    constructor
    case inOrder =>
      rw [← orderly.inOrder, waiting]
      simp [names]
    case conserved =>
      have conserved := orderly.conserved
      simp only [List.length_append, List.length_singleton]
      dsimp only at conserved
      omega
    case natural => exact Int.sub_nonneg_of_le positive
    case past =>
      intro t member
      rw [times, List.map_append] at member
      rcases List.mem_append.mp member with earlier | last
      · exact orderly.past t earlier
      · exact (List.mem_singleton.mp last).le
    case sorted =>
      rw [times, List.map_append]
      refine List.pairwise_append.mpr ⟨orderly.sorted, List.pairwise_singleton _ _, ?_⟩
      intro t earlier last isLast
      rw [List.mem_singleton.mp isLast]
      exact orderly.past t earlier
    case timed =>
      rw [times, List.map_append]
      exact timed
    case limited =>
      rw [times, List.map_append]
      apply orderly.limited.concat
      have few := timed.length_le
      have conserved := orderly.conserved
      rw [← List.countP_eq_length_filter, List.length_append, List.length_singleton] at few
      dsimp only at conserved
      refine Nat.le_trans few ?_
      omega

theorem waiting_handleOne {now : Int} (last : bucket.queue.tail ≠ [] → bucket.budget = 1) :
    (bucket.handleOne now).Waiting := by
  unfold handleOne Waiting
  cases waiting : bucket.queue with
  | nil => exact fun nonempty => absurd waiting nonempty
  | cons item queue =>
    intro nonempty
    rw [waiting] at last
    exact Int.sub_eq_zero.mpr (last nonempty)

/-- What every event keeps. -/
theorem Orderly.step {e : Event} (orderly : Orderly initial cooldown sent state) (waiting : state.bucket.Waiting)
    (taken : RatelimitBucket.step cooldown state e = some next) :
    Orderly initial cooldown (sent ++ e.channel?.toList) next ∧ next.bucket.Waiting := by
  cases e with
  | send channel now =>
    obtain ⟨later, same⟩ := Option.ite_none_right_eq_some.mp taken
    obtain rfl := Option.some.inj same
    have longer := (orderly.later later).append channel
    unfold send
    dsimp only
    split
    · next positive =>
      refine ⟨longer.handleOne positive, waiting_handleOne ?_⟩
      have empty : state.bucket.queue = [] := by
        by_contra nonempty
        exact absurd (waiting nonempty) positive.ne'
      rw [empty]
      exact absurd rfl
    · next exhausted => exact ⟨longer, fun _ => le_antisymm (not_lt.mp exhausted) longer.natural⟩
  | timeout started now =>
    obtain ⟨⟨later, outstanding, past⟩, same⟩ := Option.ite_none_right_eq_some.mp taken
    obtain rfl := Option.some.inj same
    have expired := (orderly.later later).expire outstanding past
    have positive : 0 < state.bucket.budget + 1 := Int.lt_add_one_of_le orderly.natural
    refine ⟨?_, waiting_handleOne ?_⟩
    · rw [Event.channel?, Option.toList_none, List.append_nil]
      exact expired.handleOne positive
    · intro more
      have nonempty : state.bucket.queue ≠ [] := by
        intro empty
        exact more (by rw [empty]; rfl)
      dsimp only
      rw [waiting nonempty]
      rfl

theorem Orderly.run {events : List Event} (orderly : Orderly initial cooldown sent state)
    (waiting : state.bucket.Waiting) (ran : Foundation.run (RatelimitBucket.step cooldown) state events = some next) :
    Orderly initial cooldown (sent ++ events.filterMap Event.channel?) next ∧ next.bucket.Waiting := by
  induction events generalizing state sent with
  | nil =>
    obtain rfl := Option.some.inj ran
    rw [List.filterMap_nil, List.append_nil]
    exact ⟨orderly, waiting⟩
  | cons e events ih =>
    obtain ⟨between, taken, rest⟩ := run_cons ran
    obtain ⟨kept, waits⟩ := orderly.step waiting taken
    have behind := ih kept waits rest
    rw [List.append_assoc] at behind
    cases channel : e.channel? with
    | none =>
      rw [channel] at behind
      rw [List.filterMap_cons_none channel]
      exact behind
    | some name =>
      rw [channel] at behind
      rw [List.filterMap_cons_some channel]
      exact behind

/-! ## Every channel has its turn -/

theorem names_length_handleOne (bucket : RatelimitBucket) (now : Int) :
    (bucket.handleOne now).names.length = bucket.names.length + min 1 bucket.queue.length := by
  unfold handleOne
  cases waiting : bucket.queue with
  | nil => rfl
  | cons item queue => simp [names]

theorem names_length_step {e : Event} (taken : RatelimitBucket.step cooldown state e = some next) :
    state.bucket.names.length ≤ next.bucket.names.length ∧
      (e.isTimeout → state.bucket.names.length + min 1 state.bucket.queue.length ≤ next.bucket.names.length) := by
  cases e with
  | send channel now =>
    obtain ⟨-, same⟩ := Option.ite_none_right_eq_some.mp taken
    obtain rfl := Option.some.inj same
    refine ⟨?_, fun impossible => Bool.noConfusion impossible⟩
    unfold send
    dsimp only
    split
    · rw [names_length_handleOne]
      exact Nat.le_add_right _ _
    · exact Nat.le_refl _
  | timeout started now =>
    obtain ⟨-, same⟩ := Option.ite_none_right_eq_some.mp taken
    obtain rfl := Option.some.inj same
    unfold timeout
    rw [names_length_handleOne]
    exact ⟨Nat.le_add_right _ _, fun _ => Nat.le_refl _⟩

/-- Every timer that fires passes on a channel that was sent, while there is one. -/
theorem Orderly.served {events : List Event} (orderly : Orderly initial cooldown sent state)
    (waiting : state.bucket.Waiting) (ran : Foundation.run (RatelimitBucket.step cooldown) state events = some next) :
    min (state.bucket.names.length + events.countP Event.isTimeout) sent.length ≤ next.bucket.names.length := by
  induction events generalizing state sent with
  | nil =>
    obtain rfl := Option.some.inj ran
    exact Nat.min_le_left _ _
  | cons e events ih =>
    obtain ⟨between, taken, rest⟩ := run_cons ran
    obtain ⟨kept, waits⟩ := orderly.step waiting taken
    have behind := ih kept waits rest
    obtain ⟨grows, serves⟩ := names_length_step taken
    have whole := congrArg List.length orderly.inOrder
    rw [List.length_append] at whole behind
    rw [List.countP_cons]
    split
    · next fires =>
      have served := serves fires
      omega
    · omega

/-- In every run the channels are passed on in the order in which they were sent, each of them once;
what was taken from the budget is what the timers give back, and within a cooldown no more is passed on
than the budget was at first. While a channel waits a timer runs, and as many timers as channels wait
pass all of them on. -/
theorem sends_in_order (positive : 0 < initial) (cooldown clock : Int) {events : List Event}
    (ran : Foundation.run (RatelimitBucket.step cooldown) ⟨new initial, clock⟩ events = some state) :
    state.bucket.names ++ state.bucket.queue = events.filterMap Event.channel? ∧
      state.bucket.budget + state.bucket.timers.length = initial ∧
      (∀ start, (state.bucket.times.countP fun t => decide (start ≤ t ∧ t < start + cooldown) : Nat) ≤ initial) ∧
      (state.bucket.queue ≠ [] → state.bucket.budget = 0 ∧ state.bucket.timers ≠ []) ∧
      ∀ more final, Foundation.run (RatelimitBucket.step cooldown) state more = some final →
        state.bucket.queue.length ≤ more.countP Event.isTimeout →
        state.bucket.names ++ state.bucket.queue <+: final.bucket.names := by
  obtain ⟨orderly, waiting⟩ := (orderly_new positive.le cooldown clock).run (fun nonempty => absurd rfl nonempty) ran
  rw [List.nil_append] at orderly
  refine ⟨orderly.inOrder, orderly.conserved, ?_, ?_, ?_⟩
  · intro start
    have few := orderly.limited.window Int.le_refl orderly.sorted fun t => decide (start ≤ t ∧ t < start + cooldown)
    have counted := few (by
      intro t now begins ends _
      rw [decide_eq_true_iff] at begins ends
      rw [near, decide_eq_true_iff]
      omega)
    omega
  · intro nonempty
    have exhausted := waiting nonempty
    refine ⟨exhausted, fun none_ => ?_⟩
    have conserved := orderly.conserved
    rw [exhausted, none_] at conserved
    exact absurd conserved positive.ne
  · intro more final ranOn enough
    obtain ⟨kept, -⟩ := orderly.run waiting ranOn
    have served := orderly.served waiting ranOn
    have whole := congrArg List.length orderly.inOrder
    rw [List.length_append] at whole
    -- both are parts of what was sent in the end
    refine @List.prefix_of_prefix_length_le _ _ _ (events.filterMap Event.channel? ++ more.filterMap Event.channel?)
      ?_ ?_ ?_
    · rw [orderly.inOrder]
      exact List.prefix_append _ _
    · rw [← kept.inOrder]
      exact List.prefix_append _ _
    · rw [List.length_append]
      omega

/-- A budget of one: the second channel waits for the timer of the first one. -/
theorem sends_in_order_two : ∃ state, Foundation.run (RatelimitBucket.step 10) ⟨new 1, 0⟩
      [.send (qs "a") 0, .send (qs "b") 3, .timeout 0 10] = some state ∧
    state.bucket.names ++ state.bucket.queue = [qs "a", qs "b"] ∧
    state.bucket.budget + state.bucket.timers.length = 1 := by
  have ran : Foundation.run (RatelimitBucket.step 10) ⟨new 1, 0⟩
      [.send (qs "a") 0, .send (qs "b") 3, .timeout 0 10] =
        some ⟨⟨0, [], [10], [(qs "a", 0), (qs "b", 10)]⟩, 10⟩ := by decide
  obtain ⟨inOrder, conserved, -⟩ := sends_in_order (by decide) 10 0 ran
  exact ⟨_, ran, inOrder, conserved⟩

end RatelimitBucket

end Forserino.Util
