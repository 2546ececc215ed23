import Mathlib.Data.List.DropRight

/-! A list is cut behind the elements that it begins with and that satisfy a predicate.
-/

set_option autoImplicit false

namespace Forserino.Foundation

universe u

variable {α : Type u} {p : α → Bool}

/-- The list does not go on with an element that satisfies the predicate. -/
def Stops (p : α → Bool) (l : List α) : Prop := ∀ a ∈ l.head?, p a = false

theorem Stops.nil : Stops p [] := by
  intro a member
  cases member

theorem stops_cons {a : α} {l : List α} : Stops p (a :: l) ↔ p a = false := by
  simp [Stops]

/-- The front decides, unless there is none. -/
theorem Stops.append {front back : List α} (first : Stops p front) (some_ : front ≠ []) : Stops p (front ++ back) := by
  cases front with
  | nil => exact absurd rfl some_
  | cons a front => exact stops_cons.mpr (stops_cons.mp first)

theorem takeWhile_stops {front back : List α} (all : front.all p = true) (stops : Stops p back) :
    (front ++ back).takeWhile p = front := by
  rw [List.takeWhile_append_of_pos (List.all_eq_true.mp all)]
  cases back with
  | nil => simp
  | cons a back => simp [stops_cons.mp stops]

theorem dropWhile_stops {front back : List α} (all : front.all p = true) (stops : Stops p back) :
    (front ++ back).dropWhile p = back := by
  rw [List.dropWhile_append_of_pos (List.all_eq_true.mp all)]
  cases back with
  | nil => rfl
  | cons a back => simp [stops_cons.mp stops]

/-- There is always a place to cut. -/
theorem exists_span (p : α → Bool) (l : List α) :
    ∃ front back, l = front ++ back ∧ front.all p = true ∧ Stops p back := by
  induction l with
  | nil => exact ⟨[], [], rfl, rfl, .nil⟩
  | cons a l ih =>
    cases first : p a with
    | false => exact ⟨[], a :: l, rfl, rfl, stops_cons.mpr first⟩
    | true =>
      obtain ⟨front, back, rfl, all, stops⟩ := ih
      exact ⟨a :: front, back, rfl, by simp [first, all], stops⟩

/-- Nothing is cut off where neither end satisfies the predicate. -/
theorem trim_stops {l : List α} (first : Stops p l) (last : Stops p l.reverse) :
    (l.dropWhile p).rdropWhile p = l := by
  have front : l.dropWhile p = l := @dropWhile_stops _ p [] l rfl first
  have back : l.reverse.dropWhile p = l.reverse := @dropWhile_stops _ p [] l.reverse rfl last
  rw [front, List.rdropWhile, back, List.reverse_reverse]

end Forserino.Foundation
