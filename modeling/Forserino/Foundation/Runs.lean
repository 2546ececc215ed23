import Mathlib.Order.Basic
import Mathlib.Data.List.Infix

/-! Runs of a machine that takes one event after the other, and what holds along
them when every event is allowed in the state that it meets.
-/

set_option autoImplicit false

namespace Forserino.Foundation

universe u v

variable {State : Type u} {Event : Type v}

/-- The state behind the events, if each of them can happen. -/
def run (step : State → Event → Option State) : State → List Event → Option State
  | s, [] => some s
  | s, e :: es => (step s e).bind (run step · es)

/-- Every event is allowed in the state that it meets. -/
def Along (step : State → Event → Option State) (allowed : State → Event → Prop) : State → List Event → Prop
  | _, [] => True
  | s, e :: es => allowed s e ∧ match step s e with
    | some next => Along step allowed next es
    | none => True

instance decidableAlong (step : State → Event → Option State) (allowed : State → Event → Prop)
    [∀ s e, Decidable (allowed s e)] : ∀ s es, Decidable (Along step allowed s es)
  | _, [] => isTrue trivial
  | s, e :: es =>
    have : Decidable (match step s e with
        | some next => Along step allowed next es
        | none => True) :=
      match step s e with
      | some next => decidableAlong step allowed next es
      | none => isTrue trivial
    inferInstanceAs (Decidable (_ ∧ _))

variable {step : State → Event → Option State} {allowed : State → Event → Prop} {s final : State}

theorem run_cons {e : Event} {es : List Event} (ran : run step s (e :: es) = some final) :
    ∃ next, step s e = some next ∧ run step next es = some final :=
  Option.bind_eq_some_iff.mp ran

theorem run_append {before behind : List Event} (ran : run step s (before ++ behind) = some final) :
    ∃ state, run step s before = some state ∧ run step state behind = some final := by
  induction before generalizing s with
  | nil => exact ⟨s, rfl, ran⟩
  | cons e before ih =>
    obtain ⟨next, taken, rest⟩ := run_cons ran
    obtain ⟨state, reached, rest⟩ := ih rest
    exact ⟨state, Option.bind_eq_some_iff.mpr ⟨next, taken, reached⟩, rest⟩

theorem run_concat (s : State) (before behind : List Event) :
    run step s (before ++ behind) = (run step s before).bind fun state => run step state behind := by
  induction before generalizing s with
  | nil => rfl
  | cons e before ih =>
    rw [List.cons_append, run, run, Option.bind_assoc]
    congr 1
    funext next
    exact ih next

theorem Along.next {e : Event} {es : List Event} {next : State} (along : Along step allowed s (e :: es))
    (taken : step s e = some next) : Along step allowed next es := by
  have behind := along.2
  rwa [taken] at behind

/-- What holds at first and is kept by every allowed event holds behind the run. -/
theorem run_invariant {invariant : State → Prop}
    (preserves : ∀ s e next, invariant s → allowed s e → step s e = some next → invariant next)
    {events : List Event} (along : Along step allowed s events) (ran : run step s events = some final)
    (start : invariant s) : invariant final := by
  induction events generalizing s with
  | nil => exact Option.some.inj ran ▸ start
  | cons e es ih =>
    obtain ⟨next, taken, rest⟩ := run_cons ran
    exact ih (along.next taken) rest (preserves s e next start along.1 taken)

theorem Along.behind {before behind : List Event} {state : State} (along : Along step allowed s (before ++ behind))
    (reached : run step s before = some state) : Along step allowed state behind := by
  induction before generalizing s with
  | nil => exact Option.some.inj reached ▸ along
  | cons e before ih =>
    obtain ⟨next, taken, rest⟩ := run_cons reached
    exact ih (along.next taken) rest

/-- What every event keeps holds behind the run. -/
theorem run_keeps {invariant : State → Prop}
    (preserves : ∀ s e next, invariant s → step s e = some next → invariant next) {events : List Event}
    (ran : run step s events = some final) (start : invariant s) : invariant final := by
  induction events generalizing s with
  | nil => exact Option.some.inj ran ▸ start
  | cons e es ih =>
    obtain ⟨next, taken, rest⟩ := run_cons ran
    exact ih rest (preserves s e next start taken)

theorem Along.start {e : Event} {es : List Event} {next : State} (allows : allowed s e) (taken : step s e = some next)
    (along : Along step allowed next es) : Along step allowed s (e :: es) := by
  refine ⟨allows, ?_⟩
  rwa [taken]

theorem Along.of_prefix {before events : List Event} (along : Along step allowed s events)
    (isPrefix : before <+: events) : Along step allowed s before := by
  induction before generalizing s events with
  | nil => trivial
  | cons e before ih =>
    obtain ⟨rest, rfl⟩ := isPrefix
    refine ⟨along.1, ?_⟩
    cases taken : step s e with
    | none => trivial
    | some next => exact ih (along.next taken) (List.prefix_append before rest)

theorem along_congr {other : State → Event → Prop} (same : ∀ s e, allowed s e ↔ other s e) {events : List Event} :
    Along step allowed s events ↔ Along step other s events := by
  induction events generalizing s with
  | nil => exact Iff.rfl
  | cons e es ih =>
    apply and_congr (same s e)
    cases step s e with
    | none => exact Iff.rfl
    | some next => exact ih

/-- If an event keeps the property from a good state exactly when it is allowed, a run has the
property in all of its states exactly when every event of it is allowed. -/
theorem along_iff {invariant property : State → Prop}
    (preserves : ∀ s e next, invariant s → allowed s e → step s e = some next → invariant next)
    (breaks : ∀ s e next, invariant s → ¬ allowed s e → step s e = some next → ¬ property next)
    (implies : ∀ s, invariant s → property s) {events : List Event} (ran : run step s events = some final)
    (start : invariant s) : Along step allowed s events ↔
      ∀ before, before <+: events → ∀ state, run step s before = some state → property state := by
  constructor
  · intro along before isPrefix state reached
    exact implies state (run_invariant preserves (along.of_prefix isPrefix) reached start)
  · intro holds
    induction events generalizing s with
    | nil => trivial
    | cons e es ih =>
      obtain ⟨next, taken, rest⟩ := run_cons ran
      have allows : allowed s e := by
        by_contra refused
        have reached : run step s [e] = some next := Option.bind_eq_some_iff.mpr ⟨next, taken, rfl⟩
        exact breaks s e next start refused taken (holds [e] (List.prefix_append [e] es) next reached)
      refine .start allows taken (ih rest (preserves s e next start allows taken) ?_)
      intro before isPrefix state reached
      apply holds (e :: before) (List.cons_prefix_cons.mpr ⟨rfl, isPrefix⟩) state
      exact Option.bind_eq_some_iff.mpr ⟨next, taken, reached⟩

theorem Along.and {other : State → Event → Prop} {events : List Event} (along : Along step allowed s events)
    (alongToo : Along step other s events) : Along step (fun s e => allowed s e ∧ other s e) s events := by
  induction events generalizing s with
  | nil => trivial
  | cons e es ih =>
    refine ⟨⟨along.1, alongToo.1⟩, ?_⟩
    cases taken : step s e with
    | none => trivial
    | some next => exact ih (along.next taken) (alongToo.next taken)

/-- Where every allowed event can happen, a whole run can. -/
theorem run_total {invariant : State → Prop}
    (total : ∀ s e, invariant s → allowed s e → ∃ next, step s e = some next ∧ invariant next) {events : List Event}
    (along : Along step allowed s events) (start : invariant s) :
    ∃ final, run step s events = some final ∧ invariant final := by
  induction events generalizing s with
  | nil => exact ⟨s, rfl, start⟩
  | cons e es ih =>
    obtain ⟨next, taken, kept⟩ := total s e start along.1
    obtain ⟨final, ran, held⟩ := ih (along.next taken) kept
    exact ⟨final, Option.bind_eq_some_iff.mpr ⟨next, taken, ran⟩, held⟩

/-- Where every event can happen in every state, every run can. -/
theorem run_possible (possible : ∀ s e, ∃ next, step s e = some next) (s : State) (events : List Event) :
    ∃ final, run step s events = some final := by
  induction events generalizing s with
  | nil => exact ⟨s, rfl⟩
  | cons e es ih =>
    obtain ⟨next, taken⟩ := possible s e
    obtain ⟨final, ran⟩ := ih next
    exact ⟨final, Option.bind_eq_some_iff.mpr ⟨next, taken, ran⟩⟩

/-- A run has only events that can happen. -/
theorem along_of_run (needed : ∀ s e next, step s e = some next → allowed s e) {events : List Event}
    (ran : run step s events = some final) : Along step allowed s events := by
  induction events generalizing s with
  | nil => trivial
  | cons e es ih =>
    obtain ⟨next, taken, rest⟩ := run_cons ran
    exact .start (needed s e next taken) taken (ih rest)

/-- Conditions that agree wherever the invariant holds allow the same runs. -/
theorem along_congr_of {invariant : State → Prop} {other : State → Event → Prop}
    (same : ∀ s e, invariant s → (allowed s e ↔ other s e))
    (preserves : ∀ s e next, invariant s → allowed s e → step s e = some next → invariant next) {events : List Event}
    (start : invariant s) : Along step allowed s events ↔ Along step other s events := by
  induction events generalizing s with
  | nil => exact Iff.rfl
  | cons e es ih =>
    rw [Along, Along, same s e start]
    apply and_congr_right
    intro allows
    cases taken : step s e with
    | none => exact Iff.rfl
    | some next => exact ih (preserves s e next start ((same s e start).mpr allows) taken)

/-- If a property is kept exactly by the events that are allowed, and does not come back, a run ends with it
exactly when every event of it is allowed. -/
theorem along_iff_final {invariant property : State → Prop}
    (keeps : ∀ s e next, invariant s → step s e = some next → invariant next)
    (exact : ∀ s e next, invariant s → step s e = some next → (property next ↔ property s ∧ allowed s e))
    {events : List Event} (ran : run step s events = some final) (start : invariant s) :
    property s ∧ Along step allowed s events ↔ property final := by
  induction events generalizing s with
  | nil =>
    obtain rfl := Option.some.inj ran
    exact ⟨And.left, fun holds => ⟨holds, trivial⟩⟩
  | cons e es ih =>
    obtain ⟨next, taken, rest⟩ := run_cons ran
    rw [← ih rest (keeps s e next start taken), exact s e next start taken, and_assoc]
    apply and_congr_right
    intro _
    exact ⟨fun along => ⟨along.1, along.next taken⟩, fun both => .start both.1 taken both.2⟩

end Forserino.Foundation
