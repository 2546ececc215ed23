import Mathlib.Data.List.InsertIdx

/-! The selected elements of a list among others: what inserting, erasing and replacing at a
place of the whole list does to them.
-/

set_option autoImplicit false

namespace Forserino.Foundation

universe u

variable {α : Type u} {p : α → Bool}

/-- How many elements before a place are selected. -/
def rank (p : α → Bool) (l : List α) (place : Nat) : Nat := ((l.take place).filter p).length

/-- The place of the selected element with the given number of selected ones before it. -/
def placeOf (p : α → Bool) : List α → Nat → Nat
  | [], _ => 0
  | x :: l, n => if p x then match n with
      | 0 => 0
      | n + 1 => placeOf p l n + 1
    else placeOf p l n + 1

theorem rank_cons_succ (x : α) (l : List α) (place : Nat) :
    rank p (x :: l) (place + 1) = rank p l place + if p x then 1 else 0 := by
  rw [rank, List.take_succ_cons, List.filter_cons]
  split <;> rfl

theorem rank_set (l : List α) (place : Nat) (x : α) : rank p (l.set place x) place = rank p l place := by
  rw [rank, rank, List.take_set_of_le (Nat.le_refl _)]

theorem rank_length (l : List α) : rank p l l.length = (l.filter p).length := by
  rw [rank, List.take_length]

/-- The place splits the list in front of the selected element, if there is one. -/
theorem split_placeOf {l : List α} {n : Nat} (inside : n < (l.filter p).length) :
    ∃ front x back, l = front ++ x :: back ∧ placeOf p l n = front.length ∧ p x = true ∧
      (front.filter p).length = n := by
  induction l generalizing n with
  | nil => exact absurd inside (Nat.not_lt_zero n)
  | cons x l ih =>
    cases selected : p x with
    | true =>
      cases n with
      | zero => exact ⟨[], x, l, rfl, by simp [placeOf, selected], selected, rfl⟩
      | succ n =>
        rw [List.filter_cons_of_pos selected] at inside
        obtain ⟨front, y, back, rfl, place, holds, count⟩ := ih (Nat.lt_of_succ_lt_succ inside)
        exact ⟨x :: front, y, back, rfl, by simp [placeOf, selected, place], holds, by simp [selected, count]⟩
    | false =>
      rw [List.filter_cons_of_neg (by simp [selected])] at inside
      obtain ⟨front, y, back, rfl, place, holds, count⟩ := ih inside
      exact ⟨x :: front, y, back, rfl, by simp [placeOf, selected, place], holds, by simp [selected, count]⟩

theorem placeOf_end {l : List α} {n : Nat} (outside : (l.filter p).length ≤ n) : placeOf p l n = l.length := by
  induction l generalizing n with
  | nil => rfl
  | cons x l ih =>
    cases selected : p x with
    | true =>
      rw [List.filter_cons_of_pos selected, List.length_cons] at outside
      cases n with
      | zero => exact absurd outside (Nat.not_succ_le_zero _)
      | succ n => simp [placeOf, selected, ih (Nat.le_of_succ_le_succ outside)]
    | false =>
      rw [List.filter_cons_of_neg (by simp [selected])] at outside
      simp [placeOf, selected, ih outside]

theorem rank_append (front back : List α) : rank p (front ++ back) front.length = (front.filter p).length := by
  rw [rank, List.take_left']
  rfl

theorem rank_placeOf {l : List α} {n : Nat} (inside : n ≤ (l.filter p).length) : rank p l (placeOf p l n) = n := by
  rcases Nat.lt_or_eq_of_le inside with less | rfl
  · obtain ⟨front, x, back, rfl, place, _, count⟩ := split_placeOf less
    rw [place, rank_append, count]
  · rw [placeOf_end (Nat.le_refl _), rank_length]

theorem split_at {l : List α} {place : Nat} {x : α} (at_ : l[place]? = some x) :
    ∃ front back, l = front ++ x :: back ∧ front.length = place := by
  obtain ⟨inside, rfl⟩ := List.getElem?_eq_some_iff.mp at_
  refine ⟨l.take place, l.drop (place + 1), ?_, List.length_take_of_le (Nat.le_of_lt inside)⟩
  rw [← List.drop_eq_getElem_cons inside, List.take_append_drop]

/-- The first element that is found, and none in front of it. -/
theorem split_findIdx {l : List α} {place : Nat} (found : l.findIdx? p = some place) :
    ∃ front x back, l = front ++ x :: back ∧ front.length = place ∧ p x = true ∧ ∀ y ∈ front, p y = false := by
  obtain ⟨inside, selected, first⟩ := List.findIdx?_eq_some_iff_getElem.mp found
  obtain ⟨front, back, shape, count⟩ := split_at (List.getElem?_eq_getElem inside)
  refine ⟨front, l[place], back, shape, count, selected, ?_⟩
  intro y member
  obtain ⟨i, within, rfl⟩ := List.getElem_of_mem member
  have same : l[i]? = front[i]? := by
    rw [shape]
    exact List.getElem?_append_left within
  have other := first i (count ▸ within)
  rw [List.getElem?_eq_getElem within] at same
  obtain ⟨_, here⟩ := List.getElem?_eq_some_iff.mp same
  rw [here] at other
  exact Bool.eq_false_iff.mpr other

theorem split_before {l : List α} {place : Nat} (inside : place ≤ l.length) :
    ∃ front back, l = front ++ back ∧ front.length = place :=
  ⟨l.take place, l.drop place, (List.take_append_drop place l).symm, List.length_take_of_le inside⟩

theorem insertIdx_append (front back : List α) (x : α) :
    (front ++ back).insertIdx front.length x = front ++ x :: back := by
  induction front with
  | nil => rfl
  | cons y front ih => exact congrArg (y :: ·) ih

theorem eraseIdx_append (front back : List α) (x : α) :
    (front ++ x :: back).eraseIdx front.length = front ++ back := by
  induction front with
  | nil => rfl
  | cons y front ih => exact congrArg (y :: ·) ih

theorem set_append (front back : List α) (x new : α) :
    (front ++ x :: back).set front.length new = front ++ new :: back := by
  induction front with
  | nil => rfl
  | cons y front ih => exact congrArg (y :: ·) ih

theorem modify_append (front back : List α) (x : α) (f : α → α) :
    (front ++ x :: back).modify front.length f = front ++ f x :: back := by
  induction front with
  | nil => rfl
  | cons y front ih => exact congrArg (y :: ·) ih

theorem placeOf_rank {l : List α} {place : Nat} {x : α} (at_ : l[place]? = some x) (selected : p x = true) :
    placeOf p l (rank p l place) = place := by
  obtain ⟨front, back, rfl, rfl⟩ := split_at at_
  rw [rank_append]
  induction front with
  | nil => simp [placeOf, selected]
  | cons y front ih =>
    cases first : p y with
    | true => simpa [placeOf, first] using ih (by simp)
    | false => simpa [placeOf, first] using ih (by simp)

theorem filter_insertIdx {l : List α} {place : Nat} {x : α} (inside : place ≤ l.length) (selected : p x = true) :
    (l.insertIdx place x).filter p = (l.filter p).insertIdx (rank p l place) x := by
  obtain ⟨front, back, rfl, rfl⟩ := split_before inside
  rw [rank_append, insertIdx_append, List.filter_append, List.filter_append, List.filter_cons_of_pos selected,
    insertIdx_append]

theorem filter_insertIdx_other {l : List α} {place : Nat} {x : α} (inside : place ≤ l.length) (other : p x = false) :
    (l.insertIdx place x).filter p = l.filter p := by
  obtain ⟨front, back, rfl, rfl⟩ := split_before inside
  rw [insertIdx_append, List.filter_append, List.filter_append, List.filter_cons_of_neg (by simp [other])]

theorem rank_insertIdx_other {l : List α} {place : Nat} {x : α} (inside : place ≤ l.length) (other : p x = false) :
    rank p (l.insertIdx place x) (place + 1) = rank p l place := by
  obtain ⟨front, back, rfl, rfl⟩ := split_before inside
  have longer : front.length + 1 = (front ++ [x]).length := by simp
  rw [insertIdx_append, rank_append, longer, List.append_cons, rank_append, List.filter_append,
    List.filter_cons_of_neg (by simp [other])]
  simp

theorem filter_eraseIdx {l : List α} {place : Nat} {x : α} (at_ : l[place]? = some x) (selected : p x = true) :
    (l.eraseIdx place).filter p = (l.filter p).eraseIdx (rank p l place) := by
  obtain ⟨front, back, rfl, rfl⟩ := split_at at_
  rw [rank_append, eraseIdx_append, List.filter_append, List.filter_append, List.filter_cons_of_pos selected,
    eraseIdx_append]

theorem filter_eraseIdx_other {l : List α} {place : Nat} {x : α} (at_ : l[place]? = some x) (other : p x = false) :
    (l.eraseIdx place).filter p = l.filter p := by
  obtain ⟨front, back, rfl, rfl⟩ := split_at at_
  rw [eraseIdx_append, List.filter_append, List.filter_append, List.filter_cons_of_neg (by simp [other])]

theorem find?_insertIdx_other {l : List α} {place : Nat} {x : α} (inside : place ≤ l.length) (other : p x = false) :
    (l.insertIdx place x).find? p = l.find? p := by
  rw [← List.head?_filter, filter_insertIdx_other inside other, List.head?_filter]

theorem find?_eraseIdx_other {l : List α} {place : Nat} {x : α} (at_ : l[place]? = some x) (other : p x = false) :
    (l.eraseIdx place).find? p = l.find? p := by
  rw [← List.head?_filter, filter_eraseIdx_other at_ other, List.head?_filter]

theorem filter_set {l : List α} {place : Nat} {x new : α} (at_ : l[place]? = some x) (selected : p x = true)
    (stays : p new = true) : (l.set place new).filter p = (l.filter p).set (rank p l place) new := by
  obtain ⟨front, back, rfl, rfl⟩ := split_at at_
  rw [rank_append, set_append, List.filter_append, List.filter_append, List.filter_cons_of_pos selected,
    List.filter_cons_of_pos stays, set_append]

theorem filter_set_other {l : List α} {place : Nat} {x new : α} (at_ : l[place]? = some x) (other : p x = false)
    (stays : p new = false) : (l.set place new).filter p = l.filter p := by
  obtain ⟨front, back, rfl, rfl⟩ := split_at at_
  rw [set_append, List.filter_append, List.filter_append, List.filter_cons_of_neg (by simp [stays]),
    List.filter_cons_of_neg (by simp [other])]

theorem rank_lt {l : List α} {place : Nat} {x : α} (at_ : l[place]? = some x) (selected : p x = true) :
    rank p l place < (l.filter p).length := by
  obtain ⟨front, back, rfl, rfl⟩ := split_at at_
  rw [rank_append, List.filter_append, List.filter_cons_of_pos selected, List.length_append, List.length_cons]
  omega

end Forserino.Foundation
