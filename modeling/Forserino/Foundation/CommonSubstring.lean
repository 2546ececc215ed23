import Mathlib.Data.List.Infix

/-! The longest list that stands in two lists as one piece. It ends somewhere in both of them, so
its length is the greatest length of a common end of their prefixes.
-/

set_option autoImplicit false

namespace Forserino.Foundation

universe u

variable {α : Type u}

/-- The length of the longest piece of both lists. -/
structure IsLongestCommon (xs ys : List α) (length : Nat) : Prop where
  attained : ∃ piece, piece.length = length ∧ piece <:+: xs ∧ piece <:+: ys
  longest : ∀ piece, piece <:+: xs → piece <:+: ys → piece.length ≤ length

theorem isLongestCommon_comm {xs ys : List α} {length : Nat} (holds : IsLongestCommon xs ys length) :
    IsLongestCommon ys xs length := by
  obtain ⟨⟨piece, count, inFirst, inSecond⟩, longest⟩ := holds
  exact ⟨⟨piece, count, inSecond, inFirst⟩, fun piece inFirst inSecond => longest piece inSecond inFirst⟩

theorem isLongestCommon_unique {xs ys : List α} {length other : Nat} (first : IsLongestCommon xs ys length)
    (second : IsLongestCommon xs ys other) : length = other := by
  obtain ⟨piece, rfl, inFirst, inSecond⟩ := first.attained
  obtain ⟨otherPiece, rfl, inFirstToo, inSecondToo⟩ := second.attained
  exact Nat.le_antisymm (second.longest piece inFirst inSecond) (first.longest otherPiece inFirstToo inSecondToo)

theorem IsLongestCommon.le_length {xs ys : List α} {length : Nat} (holds : IsLongestCommon xs ys length) :
    length ≤ xs.length := by
  obtain ⟨piece, rfl, inFirst, -⟩ := holds.attained
  exact inFirst.length_le

/-- The last element of a piece stands at the end of a prefix that has the piece at its end. -/
theorem suffix_take_of_infix {xs piece : List α} (inside : piece <:+: xs) (nonempty : piece ≠ []) :
    ∃ i, i < xs.length ∧ piece <:+ xs.take (i + 1) := by
  obtain ⟨front, back, rfl⟩ := inside
  have positive := List.length_pos_iff.mpr nonempty
  refine ⟨(front ++ piece).length - 1, ?_, ?_⟩
  · simp only [List.length_append]
    omega
  · have whole : (front ++ piece).length - 1 + 1 = (front ++ piece).length := by
      simp only [List.length_append]
      omega
    rw [whole, List.take_left]
    exact List.suffix_append front piece

variable [DecidableEq α]

/-- How far two lists agree from their beginnings. -/
def commonPrefix : List α → List α → Nat
  | x :: xs, y :: ys => if x = y then commonPrefix xs ys + 1 else 0
  | _, _ => 0

/-- How far two lists agree from their ends. -/
def commonSuffix (xs ys : List α) : Nat := commonPrefix xs.reverse ys.reverse

omit [DecidableEq α] in
theorem le_zero_iff_piece {k : Nat} {xs ys : List α} (nothing : ∀ piece, piece <+: xs → piece <+: ys → piece = []) :
    k ≤ 0 ↔ ∃ piece, piece.length = k ∧ piece <+: xs ∧ piece <+: ys := by
  constructor
  · intro zero
    exact ⟨[], (Nat.le_zero.mp zero).symm, List.nil_prefix, List.nil_prefix⟩
  · rintro ⟨piece, rfl, inFirst, inSecond⟩
    rw [nothing piece inFirst inSecond]
    exact Nat.le_refl 0

theorem le_commonPrefix_iff {k : Nat} {xs ys : List α} :
    k ≤ commonPrefix xs ys ↔ ∃ piece, piece.length = k ∧ piece <+: xs ∧ piece <+: ys := by
  induction xs generalizing ys k with
  | nil => exact le_zero_iff_piece fun piece isPrefix _ => List.prefix_nil.mp isPrefix
  | cons x xs ih =>
    cases ys with
    | nil => exact le_zero_iff_piece fun piece _ isPrefix => List.prefix_nil.mp isPrefix
    | cons y ys =>
      rw [commonPrefix]
      split
      · next same =>
        subst same
        cases k with
        | zero => exact iff_of_true (Nat.zero_le _) ⟨[], rfl, List.nil_prefix, List.nil_prefix⟩
        | succ k =>
          rw [Nat.succ_le_succ_iff, ih]
          constructor
          · rintro ⟨piece, rfl, inFirst, inSecond⟩
            exact ⟨x :: piece, rfl, List.cons_prefix_cons.mpr ⟨rfl, inFirst⟩, List.cons_prefix_cons.mpr ⟨rfl, inSecond⟩⟩
          · rintro ⟨piece, count, inFirst, inSecond⟩
            cases piece with
            | nil => cases count
            | cons z piece =>
              exact ⟨piece, Nat.succ.inj count, (List.cons_prefix_cons.mp inFirst).2,
                (List.cons_prefix_cons.mp inSecond).2⟩
      · next different =>
        apply le_zero_iff_piece
        intro piece inFirst inSecond
        cases piece with
        | nil => rfl
        | cons z piece =>
          obtain ⟨rfl, -⟩ := List.cons_prefix_cons.mp inFirst
          obtain ⟨rfl, -⟩ := List.cons_prefix_cons.mp inSecond
          exact absurd rfl different

theorem le_commonSuffix_iff {k : Nat} {xs ys : List α} :
    k ≤ commonSuffix xs ys ↔ ∃ piece, piece.length = k ∧ piece <:+ xs ∧ piece <:+ ys := by
  rw [commonSuffix, le_commonPrefix_iff]
  constructor
  · rintro ⟨piece, count, inFirst, inSecond⟩
    refine ⟨piece.reverse, ?_, ?_, ?_⟩
    · rw [List.length_reverse, count]
    · exact List.reverse_prefix.mp (by rwa [List.reverse_reverse])
    · exact List.reverse_prefix.mp (by rwa [List.reverse_reverse])
  · rintro ⟨piece, count, inFirst, inSecond⟩
    exact ⟨piece.reverse, by rw [List.length_reverse, count], List.reverse_prefix.mpr inFirst,
      List.reverse_prefix.mpr inSecond⟩

theorem commonSuffix_concat (xs ys : List α) (x y : α) :
    commonSuffix (xs ++ [x]) (ys ++ [y]) = if x = y then commonSuffix xs ys + 1 else 0 := by
  rw [commonSuffix, List.reverse_append, List.reverse_append]
  rfl

theorem commonSuffix_nil_right (xs : List α) : commonSuffix xs [] = 0 := by
  rw [commonSuffix, List.reverse_nil]
  cases xs.reverse <;> rfl

/-- The length of the longest common end of the lists up to these two elements. -/
def commonRun (xs ys : List α) (i j : Nat) : Nat := commonSuffix (xs.take (i + 1)) (ys.take (j + 1))

/-- A table of the runs is filled from the element before in both lists. -/
theorem commonRun_eq {xs ys : List α} {i j : Nat} (inFirst : i < xs.length) (inSecond : j < ys.length) :
    commonRun xs ys i j =
      if xs[i] = ys[j] then if i = 0 ∨ j = 0 then 1 else commonRun xs ys (i - 1) (j - 1) + 1 else 0 := by
  rw [commonRun, List.take_succ_eq_append_getElem inFirst, List.take_succ_eq_append_getElem inSecond, commonSuffix_concat]
  congr 1
  cases i with
  | zero => rfl
  | succ i =>
    cases j with
    | zero =>
      rw [List.take_zero, commonSuffix_nil_right]
      rfl
    | succ j => rfl

/-- The greatest of the runs is the length of the longest common piece. -/
theorem isLongestCommon_of_runs {xs ys : List α} {length : Nat}
    (above : ∀ i j, i < xs.length → j < ys.length → commonRun xs ys i j ≤ length)
    (attained : length = 0 ∨ ∃ i j, i < xs.length ∧ j < ys.length ∧ commonRun xs ys i j = length) :
    IsLongestCommon xs ys length := by
  constructor
  · rcases attained with rfl | ⟨i, j, -, -, same⟩
    · exact ⟨[], rfl, List.nil_infix, List.nil_infix⟩
    · obtain ⟨piece, count, inFirst, inSecond⟩ := le_commonSuffix_iff.mp same.ge
      exact ⟨piece, count, inFirst.isInfix.trans (List.take_prefix _ _).isInfix,
        inSecond.isInfix.trans (List.take_prefix _ _).isInfix⟩
  · intro piece inFirst inSecond
    by_cases empty : piece = []
    · rw [empty]
      exact Nat.zero_le _
    · obtain ⟨i, withinFirst, endsFirst⟩ := suffix_take_of_infix inFirst empty
      obtain ⟨j, withinSecond, endsSecond⟩ := suffix_take_of_infix inSecond empty
      exact (le_commonSuffix_iff.mpr ⟨piece, rfl, endsFirst, endsSecond⟩).trans (above i j withinFirst withinSecond)

end Forserino.Foundation
