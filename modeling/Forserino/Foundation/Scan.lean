import Mathlib.Data.List.Infix

/-! One pass over a list from the left, in which every match becomes something else.

A match is taken whole and what follows is looked at anew; an element where none begins is
kept.
-/

set_option autoImplicit false

namespace Forserino.Foundation

universe u

variable {α : Type u}

inductive Scan (IsMatch : List α → Prop) (meaning : List α → List α) : List α → List α → Prop where
  | nil : Scan IsMatch meaning [] []
  | hit {piece rest out : List α} (found : IsMatch piece) (later : Scan IsMatch meaning rest out) :
      Scan IsMatch meaning (piece ++ rest) (meaning piece ++ out)
  | skip {a : α} {rest out : List α} (none_ : ∀ piece, piece <+: a :: rest → ¬ IsMatch piece)
      (later : Scan IsMatch meaning rest out) : Scan IsMatch meaning (a :: rest) (a :: out)

namespace Scan

variable {IsMatch : List α → Prop} (meaning : List α → List α)

/-- Every list can be scanned to its end. -/
theorem exists_out (nonempty : ∀ piece, IsMatch piece → piece ≠ []) (xs : List α) : ∃ out, Scan IsMatch meaning xs out := by
  -- a match may take any number of elements, so the induction is on the length
  generalize size : xs.length = n
  induction n using Nat.strong_induction_on generalizing xs with
  | _ n ih =>
    by_cases matched : ∃ piece, piece <+: xs ∧ IsMatch piece
    · obtain ⟨piece, ⟨rest, rfl⟩, found⟩ := matched
      have shorter : rest.length < n := by
        have positive := List.length_pos_iff.mpr (nonempty piece found)
        rw [← size, List.length_append]
        omega
      obtain ⟨out, later⟩ := ih rest.length shorter rest rfl
      exact ⟨_, .hit found later⟩
    · push Not at matched
      cases xs with
      | nil => exact ⟨[], .nil⟩
      | cons a rest =>
        obtain ⟨out, later⟩ := ih rest.length (by rw [← size]; exact Nat.lt_succ_self _) rest rfl
        exact ⟨_, .skip matched later⟩

end Scan

end Forserino.Foundation
