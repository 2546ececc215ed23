import Mathlib.Data.List.Basic

/-! Waiting lists in which one entry comes before another.
-/

set_option autoImplicit false

namespace Forserino.Foundation

universe u

variable {α : Type u} {first second : α}

/-- The second does not occur before the first has. -/
def Ahead (first second : α) : List α → Prop
  | [] => True
  | x :: xs => x = first ∨ x ≠ second ∧ Ahead first second xs

theorem ahead_of_notMem {xs : List α} (absent : second ∉ xs) : Ahead first second xs := by
  induction xs with
  | nil => trivial
  | cons x xs ih =>
    rw [List.mem_cons, not_or] at absent
    exact Or.inr ⟨Ne.symm absent.1, ih absent.2⟩

theorem Ahead.filter {xs : List α} {keep : α → Bool} (ahead : Ahead first second xs) (kept : keep first = true) :
    Ahead first second (xs.filter keep) := by
  induction xs with
  | nil => trivial
  | cons x xs ih =>
    rcases ahead with rfl | ⟨other, later⟩
    · rw [List.filter_cons_of_pos kept]
      exact Or.inl rfl
    · cases keeps : keep x with
      | true =>
        rw [List.filter_cons_of_pos keeps]
        exact Or.inr ⟨other, ih later⟩
      | false =>
        rw [List.filter_cons_of_neg (ne_true_of_eq_false keeps)]
        exact ih later

theorem Ahead.append {xs ys : List α} (ahead : Ahead first second xs) (aheadToo : Ahead first second ys) :
    Ahead first second (xs ++ ys) := by
  induction xs with
  | nil => exact aheadToo
  | cons x xs ih => exact ahead.imp_right fun later => ⟨later.1, ih later.2⟩

end Forserino.Foundation
