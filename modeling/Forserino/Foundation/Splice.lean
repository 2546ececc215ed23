import Mathlib.Data.List.Basic

/-! Replacing a part of a list, and where a piece of the old list stands in the new one. -/

set_option autoImplicit false

namespace Forserino.Foundation

universe u

variable {α : Type u} {xs piece new : List α} {place start length : Nat}

/-- The list with length elements from start on replaced. -/
def splice (xs : List α) (start length : Nat) (new : List α) : List α :=
  xs.take start ++ (new ++ xs.drop (start + length))

theorem length_splice (inside : start + length ≤ xs.length) :
    (splice xs start length new).length + length = xs.length + new.length := by
  simp only [splice, List.length_append, List.length_take, List.length_drop]
  omega

/-- Replacing right behind a front. -/
theorem splice_append (front rest : List α) (length : Nat) (new : List α) :
    splice (front ++ rest) front.length length new = front ++ (new ++ rest.drop length) := by
  rw [splice, List.take_left, ← List.drop_drop, List.drop_left]

/-- A piece that begins before the replaced part is still there if and only if the new text
goes on with the rest of it. -/
theorem prefix_splice_iff (found : piece <+: xs.drop place) (before : place ≤ start) :
    piece <+: (splice xs start length new).drop place ↔
      piece.drop (start - place) <+: new ++ xs.drop (start + length) := by
  by_cases reaches : start ≤ xs.length
  · have kept : (splice xs start length new).drop place =
        (xs.drop place).take (start - place) ++ (new ++ xs.drop (start + length)) := by
      rw [splice, List.drop_append_of_le_length (by rw [List.length_take]; omega), List.drop_take]
    obtain ⟨rest, shape⟩ := found
    rw [kept, ← shape]
    rcases Nat.le_total (start - place) piece.length with within | behind
    · rw [List.take_append_of_le_length within]
      nth_rewrite 1 [← List.take_append_drop (start - place) piece]
      exact List.prefix_append_right_inj _
    · -- the piece ends before the replaced part
      rw [List.drop_eq_nil_of_le behind, List.take_append, List.take_of_length_le behind, List.append_assoc]
      exact iff_of_true (List.prefix_append _ _) List.nil_prefix
  · have outside : xs.length ≤ start := Nat.le_of_not_le reaches
    have short : piece.length ≤ start - place := by
      have bound := found.length_le
      rw [List.length_drop] at bound
      omega
    rw [splice, List.take_of_length_le outside, List.drop_eq_nil_of_le short]
    apply iff_of_true _ List.nil_prefix
    rw [List.drop_append]
    exact found.trans (List.prefix_append _ _)

/-- A piece behind the replaced part moves with the end of the new text. -/
theorem drop_splice (behind : start + length ≤ place) (inside : place ≤ xs.length) :
    (splice xs start length new).drop (place - length + new.length) = xs.drop place := by
  have front : (xs.take start).length = start := by
    rw [List.length_take]
    omega
  have moved : place - length + new.length = start + (new.length + (place - (start + length))) := by omega
  rw [splice, moved, ← List.drop_drop, List.drop_left' front, ← List.drop_drop, List.drop_left, List.drop_drop,
    Nat.add_sub_cancel' behind]

end Forserino.Foundation
