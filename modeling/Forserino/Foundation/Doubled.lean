import Mathlib.Data.List.Infix

/-! Texts in which an element is written twice to stand for itself, and the text that is left when
the second of two is dropped.
-/

set_option autoImplicit false

namespace Forserino.Foundation

universe u

variable {α : Type u}

/-- Pieces of which none is longer than its counterpart make the same list only if each is its counterpart. -/
theorem append_inj_of_length_le {front front' back back' : List α} (first : front.length ≤ front'.length)
    (second : back.length ≤ back'.length) : front ++ back = front' ++ back' ↔ front = front' ∧ back = back' := by
  constructor
  · intro same
    have lengths := congrArg List.length same
    rw [List.length_append, List.length_append] at lengths
    exact List.append_inj same (by omega)
  · rintro ⟨rfl, rfl⟩
    rfl

variable [DecidableEq α]

/-- The second of two in a row is dropped. The list is opened if the first stands in front of it. -/
def undouble (a : α) : Bool → List α → List α
  | _, [] => []
  | opened, b :: l =>
      if b = a then
        if opened then undouble a false l else b :: undouble a true l
      else b :: undouble a false l

/-- What follows the list is opened. -/
def leavesOpen (a : α) (opened : Bool) (l : List α) : Bool := l.foldl (fun opened b => b = a && !opened) opened

/-- The list begins with an odd number of the element. -/
def StartsOdd (a : α) (l : List α) : Prop := (l.takeWhile fun b => b = a).length % 2 = 1

instance (a : α) (l : List α) : Decidable (StartsOdd a l) := inferInstanceAs (Decidable (_ = _))

variable {a b : α} {opened : Bool} {l : List α}

theorem undouble_append (a : α) (opened : Bool) (front back : List α) :
    undouble a opened (front ++ back) = undouble a opened front ++ undouble a (leavesOpen a opened front) back := by
  induction front generalizing opened with
  | nil => rfl
  | cons b front ih =>
    by_cases same : b = a <;> cases opened <;> simp [undouble, leavesOpen, same, ih]

theorem undouble_other (other : b ≠ a) : undouble a opened (b :: l) = b :: undouble a false l := by
  simp [undouble, other]

/-- An opened list loses the element that it begins with. -/
theorem undouble_opened (a : α) (l : List α) :
    undouble a true l = undouble a false (if l.head? = some a then l.drop 1 else l) := by
  cases l with
  | nil => rfl
  | cons b l =>
    by_cases same : b = a
    · simp [undouble, same]
    · simp [undouble, same]

theorem length_undouble_le (a : α) (opened : Bool) (l : List α) : (undouble a opened l).length ≤ l.length := by
  induction l generalizing opened with
  | nil => exact Nat.le_refl _
  | cons b l ih =>
    rw [undouble]
    split
    · split
      · exact (ih false).trans (Nat.le_succ _)
      · exact Nat.succ_le_succ (ih true)
    · exact Nat.succ_le_succ (ih false)

/-- An opened list leaves at least one less than a list that is not, and no more. -/
theorem length_undouble_closed (a : α) (l : List α) :
    (undouble a true l).length ≤ (undouble a false l).length ∧
      (undouble a false l).length ≤ (undouble a true l).length + 1 := by
  induction l with
  | nil => exact ⟨Nat.le_refl _, Nat.zero_le _⟩
  | cons b l ih =>
    obtain ⟨less, more⟩ := ih
    by_cases same : b = a
    · simp only [undouble, same, if_true]
      exact ⟨by simpa using more, by simpa using less⟩
    · simp [undouble, same]

theorem length_undouble_le_closed (a : α) (opened : Bool) (l : List α) :
    (undouble a opened l).length ≤ (undouble a false l).length := by
  cases opened with
  | false => exact Nat.le_refl _
  | true => exact (length_undouble_closed a l).1

theorem startsOdd_cons_self : StartsOdd a (a :: l) ↔ ¬ StartsOdd a l := by
  simp only [StartsOdd, List.takeWhile_cons, decide_true, if_true, List.length_cons]
  omega

theorem startsOdd_cons_other (other : b ≠ a) : ¬ StartsOdd a (b :: l) := by
  simp [StartsOdd, other]

/-- Whether a list is opened makes no difference unless it begins with an odd number. -/
theorem undouble_opened_iff (a : α) (l : List α) :
    (undouble a true l = undouble a false l ↔ ¬ StartsOdd a l) ∧
      (undouble a false l = a :: undouble a true l ↔ StartsOdd a l) := by
  induction l with
  | nil => simp [undouble, StartsOdd]
  | cons b l ih =>
    obtain ⟨even, odd⟩ := ih
    by_cases same : b = a
    · subst same
      rw [startsOdd_cons_self, not_not]
      exact ⟨by simpa [undouble] using odd, by simpa [undouble] using even⟩
    · have none_ := startsOdd_cons_other (l := l) same
      simp [undouble, same, none_]

/-- A list stays as it is if no two stand in a row. -/
theorem undouble_eq_self_iff (a : α) (opened : Bool) (l : List α) :
    undouble a opened l = l ↔ ¬ [a, a] <:+: l ∧ ¬ (opened ∧ l.head? = some a) := by
  induction l generalizing opened with
  | nil => simp [undouble]
  | cons b l ih =>
    have pair : [a, a] <:+: b :: l ↔ (a = b ∧ l.head? = some a) ∨ [a, a] <:+: l := by
      rw [List.infix_cons_iff, List.cons_prefix_cons, List.singleton_prefix_iff_head?_eq_some]
    rw [pair]
    by_cases same : b = a
    · subst same
      cases opened with
      | true =>
        have shorter := length_undouble_le b false l
        have changed : undouble b true (b :: l) ≠ b :: l := by
          intro kept
          have lengths := congrArg List.length kept
          simp only [undouble, if_true, List.length_cons] at lengths
          omega
        simp [changed]
      | false =>
        have step : undouble b false (b :: l) = b :: l ↔ undouble b true l = l := by simp [undouble]
        rw [step, ih true]
        simp [and_comm]
    · have step : undouble a opened (b :: l) = b :: l ↔ undouble a false l = l := by simp [undouble, same]
      have other : a ≠ b := fun equal => same equal.symm
      rw [step, ih false]
      simp [same, other]

end Forserino.Foundation
