import Mathlib.Data.List.AList
import Forserino.Foundation.Runs
import Forserino.Messages.ScrollBounds

/-! The pauses of a channel view, with their ends and the timer that all of them share.

Times are ticks of the steady clock, of which a millisecond has perMs, and an event happens at one
time. The timer counts whole milliseconds, and fires exactly when the last one of them is over.
-/

set_option autoImplicit false

namespace Forserino.Messages

open Forserino.Foundation

universe u

/-- std::max_element -/
def maxElement {α : Type u} (less : α → α → Bool) : List α → Option α
  | [] => none
  | first :: rest => some (rest.foldl (fun largest a => if less largest a then a else largest) first)

/-- Whether the first of two optional time points is greater; none is less than any of them. -/
def isLater : Option Int → Option Int → Bool
  | some a, some b => b < a
  | some _, none => true
  | none, _ => false

/-- The pauses of a view. Of pauseTimer_ it is kept when it fires, if it is active. -/
structure Pauses where
  pausable : Bool
  pauses : AList fun _ : PauseReason => Option Int
  pauseEnd : Option Int
  pauseTimer : Option Int

namespace Pauses

def new : Pauses := ⟨true, ∅, none, none⟩

def paused (s : Pauses) : Bool := s.pausable && !s.pauses.entries.isEmpty

def updatePauses (perMs : Nat) (s : Pauses) (now : Int) : Pauses :=
  if s.pauses.entries.isEmpty then { s with pauseEnd := none, pauseTimer := none }
  else if s.pauses.entries.any fun value => value.2.isNone then { s with pauseEnd := none, pauseTimer := none }
  else
    match (maxElement (fun a b => isLater a.2 b.2) s.pauses.entries).bind Sigma.snd with
    | some pauseEnd =>
        if some pauseEnd ≠ s.pauseEnd then
          let duration := (pauseEnd - now).tdiv perMs
          { s with pauseEnd := some pauseEnd, pauseTimer := some (now + max duration 0 * perMs) }
        else s
    | none => s

/-- The entry of the reason. An end is only replaced by a later one or by none. -/
def insertPause (pauses : AList fun _ : PauseReason => Option Int) (reason : PauseReason) (pauseEnd : Option Int) :
    AList fun _ : PauseReason => Option Int :=
  match pauseEnd with
  | some timePoint =>
      match pauses.lookup reason with
      | none => pauses.insert reason (some timePoint)
      | some (some previousTimePoint) =>
          if previousTimePoint < timePoint then pauses.insert reason (some timePoint) else pauses
      | some none => pauses
  | none => pauses.insert reason none

/-- The end of a pause of this length, if it has one. -/
def endOf (perMs : Nat) (now : Int) (msecs : Option Nat) : Option Int :=
  msecs.map fun msecs => now + (msecs * perMs : Nat)

def pause (perMs : Nat) (s : Pauses) (now : Int) (reason : PauseReason) (msecs : Option Nat) : Pauses :=
  updatePauses perMs { s with pauses := insertPause s.pauses reason (endOf perMs now msecs) } now

def unpause (perMs : Nat) (s : Pauses) (now : Int) (reason : PauseReason) : Pauses :=
  if reason ∈ s.pauses then updatePauses perMs { s with pauses := s.pauses.erase reason } now else s

/-- The pauses without an end. -/
def infinite (pauses : AList fun _ : PauseReason => Option Int) : AList fun _ : PauseReason => Option Int :=
  ⟨pauses.entries.filter fun p => p.2.isNone, pauses.nodupKeys.sublist List.filter_sublist⟩

/-- What the timer does; it fires once. -/
def timeout (perMs : Nat) (s : Pauses) (now : Int) : Pauses :=
  updatePauses perMs { s with pauses := infinite s.pauses, pauseTimer := none } now

/-! ## Runs -/

inductive Action where
  | pause (reason : PauseReason) (msecs : Option Nat)
  | unpause (reason : PauseReason)
  | timeout
  deriving DecidableEq, Repr

structure Event where
  now : Int
  action : Action
  deriving DecidableEq, Repr

/-- The pauses, the time of the last event, and the requests that were not unpaused since, each with
the end that was asked for. -/
structure Requested where
  pauses : Pauses
  clock : Int
  requests : List (PauseReason × Option Int)

/-- The requests behind an event. -/
def Event.behind (perMs : Nat) (event : Event) (requests : List (PauseReason × Option Int)) :
    List (PauseReason × Option Int) :=
  match event.action with
  | .pause reason msecs => (reason, endOf perMs event.now msecs) :: requests
  | .unpause reason => requests.filter fun request => request.1 ≠ reason
  | .timeout => requests

def act (perMs : Nat) (s : Pauses) (event : Event) : Pauses :=
  match event.action with
  | .pause reason msecs => s.pause perMs event.now reason msecs
  | .unpause reason => s.unpause perMs event.now reason
  | .timeout => s.timeout perMs event.now

/-- Time does not go back, and nothing happens behind the time at which the timer fires before it has fired. -/
def step (perMs : Nat) (state : Requested) (event : Event) : Option Requested :=
  if state.clock ≤ event.now ∧ (∀ due ∈ state.pauses.pauseTimer, event.now ≤ due) ∧
      (event.action = .timeout → state.pauses.pauseTimer = some event.now) then
    some ⟨state.pauses.act perMs event, event.now, event.behind perMs state.requests⟩
  else none

/-- A pause was asked for that has no end, or one behind this time. -/
def IsRequested (requests : List (PauseReason × Option Int)) (t : Int) : Prop :=
  ∃ request ∈ requests, ∀ pauseEnd ∈ request.2, t < pauseEnd

/-- Until the timer fires or something else happens, the view is paused as long as it was asked for. -/
def LastsAsRequested (state : Requested) : Prop :=
  ∀ t, state.clock ≤ t → (∀ due ∈ state.pauses.pauseTimer, t < due) →
    (state.pauses.paused = true ↔ IsRequested state.requests t)

/-- When the timer fires, no pause has an end behind it. -/
def FiresLast (state : Requested) (event : Event) : Prop :=
  event.action = .timeout → ∀ pause ∈ state.pauses.pauses.entries, ∀ pauseEnd ∈ pause.2, pauseEnd ≤ event.now

instance (state : Requested) (event : Event) : Decidable (FiresLast state event) :=
  inferInstanceAs (Decidable (_ = _ → ∀ _ ∈ _, ∀ _ ∈ _, _ ≤ _))

variable {perMs : Nat} {s : Pauses} {now clock : Int}

/-! ## The timer -/

/-- The comparison is the other way round, so that what is found has the first end. -/
theorem maxElement_isLater {entries : List (Sigma fun _ : PauseReason => Option Int)} (some_ : entries ≠ [])
    (finite : ∀ p ∈ entries, p.2 ≠ none) :
    ∃ first, (maxElement (fun a b => isLater a.2 b.2) entries).bind Sigma.snd = some first ∧
      ∀ p ∈ entries, ∀ pauseEnd ∈ p.2, first ≤ pauseEnd := by
  obtain ⟨p, rest, rfl⟩ := List.exists_cons_of_ne_nil some_
  clear some_
  rw [maxElement, Option.bind_some]
  induction rest generalizing p with
  | nil =>
    obtain ⟨first, found⟩ := Option.ne_none_iff_exists'.mp (finite p List.mem_cons_self)
    refine ⟨first, found, fun q member pauseEnd isEnd => ?_⟩
    cases List.mem_singleton.mp member
    rw [found] at isEnd
    cases isEnd
    exact Int.le_refl _
  | cons q rest ih =>
    obtain ⟨a, foundA⟩ := Option.ne_none_iff_exists'.mp (finite p List.mem_cons_self)
    obtain ⟨b, foundB⟩ := Option.ne_none_iff_exists'.mp (finite q (List.mem_cons_of_mem _ List.mem_cons_self))
    rw [List.foldl_cons]
    have behind := fun r member => finite r (List.mem_cons_of_mem _ (List.mem_cons_of_mem _ member))
    by_cases later : isLater p.2 q.2 = true
    · -- the end of q comes first
      have before : b < a := by
        rw [foundA, foundB] at later
        exact of_decide_eq_true later
      obtain ⟨first, found, least⟩ := ih q (List.forall_mem_cons.mpr ⟨finite q (by simp), behind⟩)
      rw [if_pos later]
      refine ⟨first, found, List.forall_mem_cons.mpr ⟨?_, least⟩⟩
      intro pauseEnd isEnd
      rw [foundA] at isEnd
      cases isEnd
      have := least q List.mem_cons_self b foundB
      omega
    · have notBefore : a ≤ b := by
        rw [foundA, foundB] at later
        exact Int.not_lt.mp fun before => later (decide_eq_true before)
      obtain ⟨first, found, least⟩ := ih p (List.forall_mem_cons.mpr ⟨finite p List.mem_cons_self, behind⟩)
      rw [if_neg later]
      have leastA := least p List.mem_cons_self
      refine ⟨first, found, List.forall_mem_cons.mpr ⟨leastA, List.forall_mem_cons.mpr ⟨?_, ?_⟩⟩⟩
      · intro pauseEnd isEnd
        rw [foundB] at isEnd
        cases isEnd
        have := leastA a foundA
        omega
      · exact fun r member => least r (List.mem_cons_of_mem _ member)

/-- Before this time is before that end, from the clock on. -/
def Before (clock due pauseEnd : Int) : Prop := ∀ t, clock ≤ t → t < due → t < pauseEnd

/-- The timer fires at the end that it was started for at the latest, unless that is over. -/
theorem before_due (perMs : Nat) (now pauseEnd : Int) :
    Before now (now + max ((pauseEnd - now).tdiv perMs) 0 * perMs) pauseEnd := by
  intro t later due
  by_cases ahead : 0 < pauseEnd - now
  · have whole : (pauseEnd - now).tdiv perMs * perMs ≤ pauseEnd - now := by
      rw [Int.tdiv_eq_ediv_of_nonneg (Int.le_of_lt ahead)]
      by_cases zero : (perMs : Int) = 0
      · rw [zero, Int.mul_zero]
        exact Int.le_of_lt ahead
      · exact Int.ediv_mul_le _ zero
    have natural : 0 ≤ (pauseEnd - now).tdiv perMs := Int.tdiv_nonneg (Int.le_of_lt ahead) (Int.natCast_nonneg perMs)
    rw [Int.max_eq_left natural] at due
    omega
  · have none_ : (pauseEnd - now).tdiv perMs ≤ 0 := by
      have natural := @Int.tdiv_nonneg (-(pauseEnd - now)) perMs (by omega) (Int.natCast_nonneg perMs)
      rw [Int.neg_tdiv] at natural
      omega
    rw [Int.max_eq_right none_, Int.zero_mul] at due
    omega

/-- The timer is active exactly while there are pauses that all have an end, and it fires at the first one. -/
structure Timed (s : Pauses) (clock : Int) : Prop where
  finite : ∀ due, s.pauseTimer = some due → s.pauses.entries ≠ [] ∧ ∀ p ∈ s.pauses.entries, p.2 ≠ none
  running : s.pauses.entries ≠ [] → (∀ p ∈ s.pauses.entries, p.2 ≠ none) →
    ∃ due first, s.pauseTimer = some due ∧ Before clock due first ∧
      ∀ p ∈ s.pauses.entries, ∀ pauseEnd ∈ p.2, first ≤ pauseEnd
  started : ∀ first, s.pauseEnd = some first → ∃ due, s.pauseTimer = some due ∧ Before clock due first

theorem timed_of_stopped (timer : s.pauseTimer = none) (ended : s.pauseEnd = none)
    (infinite : s.pauses.entries ≠ [] → ∃ p ∈ s.pauses.entries, p.2 = none) : Timed s now where
  finite due active := by
    rw [timer] at active
    cases active
  running some_ finite := by
    obtain ⟨p, member, isNone⟩ := infinite some_
    exact absurd isNone (finite p member)
  started first isEnd := by
    rw [ended] at isEnd
    cases isEnd

theorem updatePauses_pauses (perMs : Nat) (s : Pauses) (now : Int) :
    (s.updatePauses perMs now).pauses = s.pauses ∧ (s.updatePauses perMs now).pausable = s.pausable := by
  unfold updatePauses
  split
  · exact ⟨rfl, rfl⟩
  · split
    · exact ⟨rfl, rfl⟩
    · split
      · split <;> exact ⟨rfl, rfl⟩
      · exact ⟨rfl, rfl⟩

theorem updatePauses_timed (started : s.pauses.entries ≠ [] → (∀ p ∈ s.pauses.entries, p.2 ≠ none) →
      ∀ first, s.pauseEnd = some first → ∃ due, s.pauseTimer = some due ∧ Before now due first) :
    Timed (s.updatePauses perMs now) now := by
  unfold updatePauses
  split
  case isTrue empty =>
    rw [List.isEmpty_iff] at empty
    exact timed_of_stopped rfl rfl fun some_ => absurd empty some_
  case isFalse nonempty =>
    rw [List.isEmpty_iff] at nonempty
    split
    case isTrue infinite =>
      obtain ⟨p, member, isNone⟩ := List.any_eq_true.mp infinite
      exact timed_of_stopped rfl rfl fun _ => ⟨p, member, Option.isNone_iff_eq_none.mp isNone⟩
    case isFalse notInfinite =>
      have finite : ∀ p ∈ s.pauses.entries, p.2 ≠ none := by
        intro p member isNone
        exact notInfinite (List.any_eq_true.mpr ⟨p, member, Option.isNone_iff_eq_none.mpr isNone⟩)
      obtain ⟨first, found, least⟩ := maxElement_isLater nonempty finite
      rw [found]
      dsimp only
      split
      case isTrue =>
        refine ⟨fun _ _ => ⟨nonempty, finite⟩, fun _ _ => ⟨_, first, rfl, before_due perMs now first, least⟩, ?_⟩
        intro other same
        cases same
        exact ⟨_, rfl, before_due perMs now first⟩
      case isFalse same =>
        have same : s.pauseEnd = some first := (Decidable.not_not.mp same).symm
        obtain ⟨due, active, before⟩ := started nonempty finite first same
        refine ⟨fun _ _ => ⟨nonempty, finite⟩, fun _ _ => ⟨due, first, active, before, least⟩, ?_⟩
        exact fun other isEnd => started nonempty finite other isEnd

/-! ## The requests -/

/-- The pauses are those that were asked for, apart from ends that are over. -/
structure Tracks (s : Pauses) (clock : Int) (requests : List (PauseReason × Option Int)) : Prop where
  asked : ∀ reason kept, s.pauses.lookup reason = some kept → (reason, kept) ∈ requests
  infinite : ∀ reason, (reason, none) ∈ requests → s.pauses.lookup reason = some none
  finite : ∀ reason pauseEnd, (reason, some pauseEnd) ∈ requests → pauseEnd ≤ clock ∨
    ∃ kept, s.pauses.lookup reason = some kept ∧ ∀ keptEnd ∈ kept, pauseEnd ≤ keptEnd

variable {requests : List (PauseReason × Option Int)} {reason : PauseReason} {state next : Requested} {event : Event}

theorem lookup_entries {pauses : AList fun _ : PauseReason => Option Int} {p : Sigma fun _ : PauseReason => Option Int} :
    p ∈ pauses.entries ↔ pauses.lookup p.1 = some p.2 :=
  AList.mem_lookup_iff.symm

theorem lookup_insert (pauses : AList fun _ : PauseReason => Option Int) (reason other : PauseReason)
    (pauseEnd : Option Int) :
    (pauses.insert reason pauseEnd).lookup other = if other = reason then some pauseEnd else pauses.lookup other := by
  split
  case isTrue same => rw [same, AList.lookup_insert]
  case isFalse different => exact AList.lookup_insert_ne different

theorem lookup_erase (pauses : AList fun _ : PauseReason => Option Int) (reason other : PauseReason) :
    (pauses.erase reason).lookup other = if other = reason then none else pauses.lookup other := by
  split
  case isTrue same => rw [same, AList.lookup_erase]
  case isFalse different => exact AList.lookup_erase_ne different

theorem lookup_infinite (pauses : AList fun _ : PauseReason => Option Int) (reason : PauseReason) (kept : Option Int) :
    (infinite pauses).lookup reason = some kept ↔ pauses.lookup reason = some kept ∧ kept = none := by
  rw [← @lookup_entries (infinite pauses) ⟨reason, kept⟩, ← @lookup_entries pauses ⟨reason, kept⟩, infinite,
    List.mem_filter, Option.isNone_iff_eq_none]

/-- The state behind the events of a run. -/
structure Kept (state : Requested) : Prop where
  pausable : state.pauses.pausable = true
  timed : Timed state.pauses state.clock
  tracks : Tracks state.pauses state.clock state.requests

/-- The pauses last as requested wherever they are tracked. -/
theorem Kept.lasts (kept : Kept state) : LastsAsRequested state := by
  intro t later waiting
  rw [paused, kept.pausable, Bool.true_and, Bool.not_eq_true', ← Bool.not_eq_true, List.isEmpty_iff]
  constructor
  · intro nonempty
    by_cases finite : ∀ p ∈ state.pauses.pauses.entries, p.2 ≠ none
    · -- the timer is active, and fires at the first end at the latest
      obtain ⟨due, first, active, before, least⟩ := kept.timed.running nonempty finite
      obtain ⟨p, rest, entries⟩ := List.exists_cons_of_ne_nil nonempty
      have member : p ∈ state.pauses.pauses.entries := by rw [entries]; exact List.mem_cons_self
      refine ⟨(p.1, p.2), kept.tracks.asked _ _ (lookup_entries.mp member), fun pauseEnd isEnd => ?_⟩
      have := before t later (waiting due active)
      have := least p member pauseEnd isEnd
      omega
    · obtain ⟨p, member, isNone⟩ : ∃ p ∈ state.pauses.pauses.entries, p.2 = none := by
        simpa using finite
      refine ⟨(p.1, p.2), kept.tracks.asked _ _ (lookup_entries.mp member), fun pauseEnd isEnd => ?_⟩
      rw [isNone] at isEnd
      cases isEnd
  · rintro ⟨⟨reason, request⟩, member, requested⟩ empty
    have absent (kept' : Option Int) : state.pauses.pauses.lookup reason ≠ some kept' := by
      intro found
      have listed := (@lookup_entries state.pauses.pauses ⟨reason, kept'⟩).mpr found
      rw [empty] at listed
      cases listed
    cases request with
    | none => exact absent _ (kept.tracks.infinite reason member)
    | some pauseEnd =>
      rcases kept.tracks.finite reason pauseEnd member with over_ | ⟨kept', found, -⟩
      · have := requested pauseEnd rfl
        omega
      · exact absent _ found

/-- What becomes of the entry of the reason. -/
theorem insertPause_self (pauses : AList fun _ : PauseReason => Option Int) (reason : PauseReason)
    (pauseEnd : Option Int) : ∃ kept, (insertPause pauses reason pauseEnd).lookup reason = some kept ∧
      (kept = pauseEnd ∨ pauses.lookup reason = some kept) ∧ (∀ keptEnd ∈ kept, ∃ timePoint, pauseEnd = some timePoint ∧
        timePoint ≤ keptEnd ∧ ∀ previous, pauses.lookup reason = some previous → ∃ previousEnd, previous = some previousEnd ∧
          previousEnd ≤ keptEnd) := by
  cases pauseEnd with
  | none => exact ⟨none, AList.lookup_insert _, .inl rfl, fun keptEnd isEnd => by cases isEnd⟩
  | some timePoint =>
    rw [insertPause]
    cases found : pauses.lookup reason with
    | none =>
      refine ⟨some timePoint, AList.lookup_insert _, .inl rfl, fun keptEnd isEnd => ?_⟩
      cases isEnd
      exact ⟨timePoint, rfl, Int.le_refl _, fun previous absent => by cases absent⟩
    | some previous =>
      cases previous with
      | none => exact ⟨none, found, .inr rfl, fun keptEnd isEnd => by cases isEnd⟩
      | some previousTimePoint =>
        dsimp only
        split
        case isTrue later =>
          refine ⟨some timePoint, AList.lookup_insert _, .inl rfl, fun keptEnd isEnd => ?_⟩
          cases isEnd
          refine ⟨timePoint, rfl, Int.le_refl _, fun previous same => ?_⟩
          cases same
          exact ⟨previousTimePoint, rfl, Int.le_of_lt later⟩
        case isFalse notLater =>
          refine ⟨some previousTimePoint, found, .inr rfl, fun keptEnd isEnd => ?_⟩
          cases isEnd
          refine ⟨timePoint, rfl, Int.not_lt.mp notLater, fun previous same => ?_⟩
          cases same
          exact ⟨previousTimePoint, rfl, Int.le_refl _⟩

theorem insertPause_other {pauses : AList fun _ : PauseReason => Option Int} {other : PauseReason}
    (different : other ≠ reason) (pauseEnd : Option Int) :
    (insertPause pauses reason pauseEnd).lookup other = pauses.lookup other := by
  unfold insertPause
  split
  · split
    · exact AList.lookup_insert_ne different
    · split
      · exact AList.lookup_insert_ne different
      · rfl
    · rfl
  · exact AList.lookup_insert_ne different

section Pause

variable {pauseEnd : Option Int} {other : PauseReason}

theorem Tracks.asked_pause (tracks : Tracks s clock requests) {kept : Option Int}
    (lookup : (insertPause s.pauses reason pauseEnd).lookup other = some kept) :
    (other, kept) ∈ (reason, pauseEnd) :: requests := by
  by_cases same : other = reason
  · subst same
    obtain ⟨entry, found, origin, -⟩ := insertPause_self s.pauses other pauseEnd
    cases found.symm.trans lookup
    rcases origin with rfl | before
    · exact List.mem_cons_self
    · exact List.mem_cons_of_mem _ (tracks.asked other _ before)
  · rw [insertPause_other same] at lookup
    exact List.mem_cons_of_mem _ (tracks.asked other kept lookup)

theorem Tracks.infinite_pause (tracks : Tracks s clock requests) (request : (other, none) ∈ (reason, pauseEnd) :: requests) :
    (insertPause s.pauses reason pauseEnd).lookup other = some none := by
  by_cases same : other = reason
  · subst same
    obtain ⟨kept, found, -, bound⟩ := insertPause_self s.pauses other pauseEnd
    rw [found]
    cases kept with
    | none => rfl
    | some keptEnd =>
      -- an end is only kept if no pause without one was asked for
      obtain ⟨timePoint, isEnd, -, previous⟩ := bound keptEnd rfl
      rw [isEnd] at request
      rcases List.mem_cons.mp request with head | before
      · cases head
      · obtain ⟨_, absurd_, -⟩ := previous none (tracks.infinite other before)
        cases absurd_
  · rw [insertPause_other same]
    rcases List.mem_cons.mp request with head | before
    · cases head
      exact absurd rfl same
    · exact tracks.infinite other before

theorem Tracks.finite_pause (tracks : Tracks s clock requests) {otherEnd : Int}
    (request : (other, some otherEnd) ∈ (reason, pauseEnd) :: requests) : otherEnd ≤ clock ∨
      ∃ kept, (insertPause s.pauses reason pauseEnd).lookup other = some kept ∧ ∀ keptEnd ∈ kept, otherEnd ≤ keptEnd := by
  by_cases same : other = reason
  · subst same
    obtain ⟨kept, found, -, bound⟩ := insertPause_self s.pauses other pauseEnd
    rcases List.mem_cons.mp request with head | before
    · cases head
      refine .inr ⟨kept, found, fun keptEnd isEnd => ?_⟩
      obtain ⟨timePoint, isTimePoint, bounded, -⟩ := bound keptEnd isEnd
      cases isTimePoint
      exact bounded
    · refine (tracks.finite other otherEnd before).imp_right fun ⟨previous, foundBefore, boundedBefore⟩ => ?_
      refine ⟨kept, found, fun keptEnd isEnd => ?_⟩
      obtain ⟨_, -, -, previousBound⟩ := bound keptEnd isEnd
      obtain ⟨previousEnd, rfl, bounded⟩ := previousBound previous foundBefore
      exact Int.le_trans (boundedBefore previousEnd rfl) bounded
  · rw [insertPause_other same]
    rcases List.mem_cons.mp request with head | before
    · cases head
      exact absurd rfl same
    · exact tracks.finite other otherEnd before

end Pause

theorem Tracks.pause (tracks : Tracks s clock requests) (later : clock ≤ now) (reason : PauseReason)
    (pauseEnd : Option Int) : Tracks { s with pauses := insertPause s.pauses reason pauseEnd } now
      ((reason, pauseEnd) :: requests) where
  asked _ _ lookup := tracks.asked_pause lookup
  infinite _ request := tracks.infinite_pause request
  finite _ _ request := (tracks.finite_pause request).imp_left fun over_ => Int.le_trans over_ later

theorem Tracks.unpause (tracks : Tracks s clock requests) (later : clock ≤ now) (reason : PauseReason) :
    Tracks { s with pauses := s.pauses.erase reason } now (requests.filter fun request => request.1 ≠ reason) := by
  refine ⟨fun other kept lookup => ?_, fun other request => ?_, fun other pauseEnd request => ?_⟩
  · rw [lookup_erase] at lookup
    split at lookup
    case isTrue => cases lookup
    case isFalse different =>
      exact List.mem_filter.mpr ⟨tracks.asked other kept lookup, decide_eq_true different⟩
  · obtain ⟨before, different⟩ := List.mem_filter.mp request
    rw [lookup_erase, if_neg (of_decide_eq_true different)]
    exact tracks.infinite other before
  · obtain ⟨before, different⟩ := List.mem_filter.mp request
    rw [lookup_erase, if_neg (of_decide_eq_true different)]
    exact (tracks.finite other pauseEnd before).imp_left fun over_ => Int.le_trans over_ later

/-- Nothing is requested for longer than the pauses that the timer removes. -/
theorem Tracks.timeout (tracks : Tracks s clock requests) (later : clock ≤ now)
    (firesLast : ∀ p ∈ s.pauses.entries, ∀ pauseEnd ∈ p.2, pauseEnd ≤ now) :
    Tracks { s with pauses := Pauses.infinite s.pauses, pauseTimer := none } now requests := by
  refine ⟨fun other kept lookup => ?_, fun other request => ?_, fun other pauseEnd request => ?_⟩
  · exact tracks.asked other kept ((lookup_infinite s.pauses other kept).mp lookup).1
  · exact (lookup_infinite s.pauses other none).mpr ⟨tracks.infinite other request, rfl⟩
  · rcases tracks.finite other pauseEnd request with over_ | ⟨kept, found, bounded⟩
    · exact .inl (Int.le_trans over_ later)
    · cases kept with
      | none => exact .inr ⟨none, (lookup_infinite s.pauses other none).mpr ⟨found, rfl⟩, bounded⟩
      | some keptEnd =>
        have ended := firesLast ⟨other, some keptEnd⟩ (lookup_entries.mpr found) keptEnd rfl
        exact .inl (Int.le_trans (bounded keptEnd rfl) ended)

theorem Tracks.updatePauses (tracks : Tracks s clock requests) (perMs : Nat) (now : Int) :
    Tracks (s.updatePauses perMs now) clock requests := by
  obtain ⟨pauses, -⟩ := updatePauses_pauses perMs s now
  exact ⟨by rw [pauses]; exact tracks.asked, by rw [pauses]; exact tracks.infinite, by rw [pauses]; exact tracks.finite⟩

theorem Before.later {due pauseEnd : Int} (before : Before clock due pauseEnd) (later : clock ≤ now) :
    Before now due pauseEnd :=
  fun t after => before t (Int.le_trans later after)

theorem Timed.later (timed : Timed s clock) (later : clock ≤ now) : Timed s now where
  finite := timed.finite
  running some_ finite := by
    obtain ⟨due, first, active, before, least⟩ := timed.running some_ finite
    exact ⟨due, first, active, before.later later, least⟩
  started first isEnd := by
    obtain ⟨due, active, before⟩ := timed.started first isEnd
    exact ⟨due, active, before.later later⟩

/-- The timer behind a change of the pauses that is no firing. -/
theorem Timed.updatePauses (timed : Timed s clock) (later : clock ≤ now)
    (pauses : AList fun _ : PauseReason => Option Int) : Timed (Pauses.updatePauses perMs { s with pauses } now) now := by
  refine updatePauses_timed fun _ _ first isEnd => ?_
  obtain ⟨due, active, before⟩ := timed.started first isEnd
  exact ⟨due, active, before.later later⟩

theorem step_some (taken : step perMs state event = some next) : state.clock ≤ event.now ∧
    (event.action = .timeout → state.pauses.pauseTimer = some event.now) ∧
    next = ⟨state.pauses.act perMs event, event.now, event.behind perMs state.requests⟩ := by
  rw [step] at taken
  split at taken
  case isTrue allowed => exact ⟨allowed.1, allowed.2.2, (Option.some.inj taken).symm⟩
  case isFalse => cases taken

/-- Whatever happens keeps the pauses as they were requested, unless the timer fires too early for one. -/
theorem Kept.behind (kept : Kept state) (firesLast : FiresLast state event) (taken : step perMs state event = some next) :
    Kept next := by
  obtain ⟨later, -, rfl⟩ := step_some taken
  obtain ⟨now, action⟩ := event
  cases action with
  | pause reason msecs =>
    exact ⟨(updatePauses_pauses perMs _ now).2.trans kept.pausable, kept.timed.updatePauses later _,
      (kept.tracks.pause later reason (endOf perMs now msecs)).updatePauses perMs now⟩
  | unpause reason =>
    have tracks := kept.tracks.unpause later reason
    show Kept ⟨state.pauses.unpause perMs now reason, now, state.requests.filter fun request => request.1 ≠ reason⟩
    rw [unpause]
    split
    case isTrue =>
      exact ⟨(updatePauses_pauses perMs _ now).2.trans kept.pausable, kept.timed.updatePauses later _,
        tracks.updatePauses perMs now⟩
    case isFalse absent =>
      have same : state.pauses.pauses.erase reason = state.pauses.pauses :=
        AList.ext (List.kerase_of_notMem_keys absent)
      rw [same] at tracks
      exact ⟨kept.pausable, kept.timed.later later, tracks⟩
  | timeout =>
    refine ⟨(updatePauses_pauses perMs _ now).2.trans kept.pausable, updatePauses_timed fun some_ finite => ?_,
      (kept.tracks.timeout later (firesLast rfl)).updatePauses perMs now⟩
    -- what is left has no end
    obtain ⟨p, rest, entries⟩ := List.exists_cons_of_ne_nil some_
    have member : p ∈ (infinite state.pauses.pauses).entries := by
      rw [show (infinite state.pauses.pauses).entries = p :: rest from entries]
      exact List.mem_cons_self
    exact absurd (Option.isNone_iff_eq_none.mp (List.mem_filter.mp member).2) (finite p member)

/-- Where the timer removes a pause whose end is still to come, the pause does not last. -/
theorem Kept.early (kept : Kept state) (early : ¬ FiresLast state event) (taken : step perMs state event = some next) :
    ¬ LastsAsRequested next := by
  obtain ⟨later, due, rfl⟩ := step_some taken
  obtain ⟨now, action⟩ := event
  simp only [FiresLast, Classical.not_imp, not_forall, Int.not_le] at early
  obtain ⟨rfl, p, member, pauseEnd, isEnd, ahead⟩ := early
  have finite := (kept.timed.finite now (due rfl)).2
  have removed : (infinite state.pauses.pauses).entries = [] := by
    refine List.filter_eq_nil_iff.mpr fun q listed isNone => finite q listed (Option.isNone_iff_eq_none.mp isNone)
  have stopped : state.pauses.act perMs ⟨now, .timeout⟩ =
      ⟨state.pauses.pausable, infinite state.pauses.pauses, none, none⟩ := by
    rw [act]
    dsimp only
    rw [timeout, Pauses.updatePauses, if_pos (by rw [removed]; rfl)]
  intro lasts
  have paused := (lasts now (Int.le_refl now) fun due active => by rw [stopped] at active; cases active).mpr
    ⟨(p.1, p.2), kept.tracks.asked _ _ (lookup_entries.mp member), fun other isOther => by
      rw [Option.mem_def.mp isEnd] at isOther
      cases isOther
      exact ahead⟩
  dsimp only at paused
  rw [stopped, Pauses.paused, removed] at paused
  simp at paused

theorem kept_new (clock : Int) : Kept ⟨new, clock, []⟩ where
  pausable := rfl
  timed := timed_of_stopped rfl rfl fun some_ => absurd rfl some_
  tracks :=
    { asked := fun reason kept found => by
        rw [new, AList.lookup_empty] at found
        cases found
      infinite := fun reason request => absurd request List.not_mem_nil
      finite := fun reason pauseEnd request => absurd request List.not_mem_nil }

/-- In a run the view is paused exactly as long as requested, in every state, if and only if the
timer never fires before the last end. -/
theorem pauses_last_iff (perMs : Nat) {clock : Int} {events : List Event} {final : Requested}
    (ran : run (step perMs) ⟨new, clock, []⟩ events = some final) :
    Along (step perMs) FiresLast ⟨new, clock, []⟩ events ↔
      ∀ before, before <+: events → ∀ state, run (step perMs) ⟨new, clock, []⟩ before = some state →
        LastsAsRequested state :=
  along_iff (fun _ _ _ kept firesLast taken => Kept.behind kept firesLast taken)
    (fun _ _ _ kept early taken => Kept.early kept early taken) (fun _ kept => Kept.lasts kept) ran (kept_new clock)

/-- One pause of half a second, and one of a fifth of it that is taken back. -/
def takenBack : List Event :=
  [⟨0, .pause .mouse (some 500)⟩, ⟨100, .pause .doubleClick (some 200)⟩, ⟨150, .unpause .doubleClick⟩, ⟨500, .timeout⟩]

theorem takenBack_lasts : Along (step 1) FiresLast ⟨new, 0, []⟩ takenBack ∧
    ∀ before, before <+: takenBack → ∀ state, run (step 1) ⟨new, 0, []⟩ before = some state → LastsAsRequested state := by
  have firesLast : Along (step 1) FiresLast ⟨new, 0, []⟩ takenBack := by decide
  have ran : (run (step 1) ⟨new, 0, []⟩ takenBack).isSome = true := by decide
  obtain ⟨final, ran⟩ := Option.isSome_iff_exists.mp ran
  exact ⟨firesLast, (pauses_last_iff 1 ran).mp firesLast⟩

/-- Both pauses end with the shorter one. -/
theorem shorter_pause_ends_both : ¬ ∀ (perMs : Nat) (clock : Int) (events : List Event) (final : Requested),
    run (step perMs) ⟨new, clock, []⟩ events = some final → LastsAsRequested final := by
  intro lasts
  let events : List Event := [⟨0, .pause .mouse (some 500)⟩, ⟨100, .pause .doubleClick (some 200)⟩, ⟨300, .timeout⟩]
  let ended : Requested :=
    ⟨⟨true, ∅, none, none⟩, 300, [(.doubleClick, some 300), (.mouse, some 500)]⟩
  have ran : run (step 1) ⟨new, 0, []⟩ events = some ended := rfl
  have paused := (lasts 1 0 events ended ran 300 (by decide) (by decide)).mpr
    ⟨(.mouse, some 500), by decide, by decide⟩
  exact absurd paused (by decide)

end Pauses

end Forserino.Messages
