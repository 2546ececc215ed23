import Mathlib.Logic.Function.Basic
import Forserino.Foundation.CommonSubstring
import Forserino.Foundation.Rounding
import Forserino.Qt.Text

/-! How similar two messages are: the length of their longest common substring against the length
of the longer one.
-/

set_option autoImplicit false

namespace Forserino.Messages

open Foundation Qt

/-- The nearest number of the type float; no number here is too large or too small for one. -/
def toFloat (q : ℚ) : ℚ := roundTo 24 q

/-- What the loops of relativeSimilarity write. -/
structure Similarity where
  tree : Nat → Nat → Nat
  z : Nat

namespace Similarity

def write (state : Similarity) (i j value : Nat) : Similarity :=
  { state with tree := Function.update state.tree i (Function.update (state.tree i) j value) }

/-- The body of the inner loop. -/
def visit (str1 str2 : QString) (state : Similarity) (i j : Nat) : Similarity :=
  if str1[i]? = str2[j]? then
    let state := state.write i j (if i = 0 ∨ j = 0 then 1 else state.tree (i - 1) (j - 1) + 1)
    { state with z := max (state.tree i j) state.z }
  else state.write i j 0

def row (str1 str2 : QString) (state : Similarity) (i : Nat) : Similarity :=
  (List.range str2.length).foldl (fun state j => state.visit str1 str2 i j) state

def table (str1 str2 : QString) : Similarity :=
  (List.range str1.length).foldl (row str1 str2) ⟨fun _ _ => 0, 0⟩

theorem tree_write_self (state : Similarity) (i j value : Nat) : (state.write i j value).tree i j = value := by
  dsimp only [write]
  rw [Function.update_self, Function.update_self]

theorem tree_write_other (state : Similarity) {i j a b : Nat} (value : Nat) (other : ¬ (a = i ∧ b = j)) :
    (state.write i j value).tree a b = state.tree a b := by
  dsimp only [write]
  by_cases same : a = i
  · subst same
    rw [Function.update_self, Function.update_of_ne fun sameToo => other ⟨rfl, sameToo⟩]
  · rw [Function.update_of_ne same]

/-- The table up to here: its entries are the runs, and z is the greatest of them. -/
structure Filled (str1 str2 : QString) (seen : Nat → Nat → Prop) (state : Similarity) : Prop where
  entries : ∀ i j, seen i j → state.tree i j = commonRun str1 str2 i j
  above : ∀ i j, seen i j → commonRun str1 str2 i j ≤ state.z
  attained : state.z = 0 ∨ ∃ i j, seen i j ∧ commonRun str1 str2 i j = state.z

variable {str1 str2 : QString} {seen other : Nat → Nat → Prop} {state : Similarity}

theorem Filled.congr (filled : Filled str1 str2 seen state) (same : ∀ i j, seen i j ↔ other i j) :
    Filled str1 str2 other state := by
  obtain rfl : seen = other := by
    funext i j
    exact propext (same i j)
  exact filled

theorem visit_eq {i j : Nat} (inFirst : i < str1.length) (inSecond : j < str2.length)
    (before : i ≠ 0 → j ≠ 0 → state.tree (i - 1) (j - 1) = commonRun str1 str2 (i - 1) (j - 1)) :
    state.visit str1 str2 i j =
      { state.write i j (commonRun str1 str2 i j) with z := max (commonRun str1 str2 i j) state.z } := by
  have run := commonRun_eq inFirst inSecond
  unfold visit
  rw [List.getElem?_eq_getElem inFirst, List.getElem?_eq_getElem inSecond]
  simp only [Option.some.injEq]
  split
  · next same =>
    have value : (if i = 0 ∨ j = 0 then 1 else state.tree (i - 1) (j - 1) + 1) = commonRun str1 str2 i j := by
      rw [run, if_pos same]
      split
      · rfl
      · next inner =>
        rw [not_or] at inner
        rw [before inner.1 inner.2]
    rw [value, tree_write_self]
    rfl
  · next different =>
    rw [run, if_neg different, Nat.zero_max]
    rfl

theorem Filled.visit (filled : Filled str1 str2 seen state) {i j : Nat} (inFirst : i < str1.length)
    (inSecond : j < str2.length) (before : i ≠ 0 → j ≠ 0 → seen (i - 1) (j - 1)) :
    Filled str1 str2 (fun a b => seen a b ∨ a = i ∧ b = j) (state.visit str1 str2 i j) := by
  rw [visit_eq inFirst inSecond fun notFirst notFirstToo => filled.entries _ _ (before notFirst notFirstToo)]
  constructor
  case entries =>
    intro a b isSeen
    by_cases here : a = i ∧ b = j
    · obtain ⟨rfl, rfl⟩ := here
      exact tree_write_self _ _ _ _
    · exact (tree_write_other state _ here).trans (filled.entries a b (isSeen.resolve_right here))
  case above =>
    rintro a b (earlier | ⟨rfl, rfl⟩)
    · exact (filled.above a b earlier).trans (Nat.le_max_right _ _)
    · exact Nat.le_max_left _ _
  case attained =>
    dsimp only
    rcases Nat.le_total (commonRun str1 str2 i j) state.z with below | above
    · rw [Nat.max_eq_right below]
      exact filled.attained.imp_right fun ⟨a, b, isSeen, same⟩ => ⟨a, b, .inl isSeen, same⟩
    · rw [Nat.max_eq_left above]
      exact .inr ⟨i, j, .inr ⟨rfl, rfl⟩, rfl⟩

/-- The first elements of a row are filled behind the rows before it. -/
theorem filled_row {i : Nat} (inFirst : i < str1.length)
    (filled : Filled str1 str2 (fun a b => a < i ∧ b < str2.length) state) {count : Nat} (most : count ≤ str2.length) :
    Filled str1 str2 (fun a b => a < i ∧ b < str2.length ∨ a = i ∧ b < count)
      ((List.range count).foldl (fun state j => state.visit str1 str2 i j) state) := by
  induction count with
  | zero =>
    apply filled.congr
    intro a b
    simp
  | succ j ih =>
    rw [List.range_succ, List.foldl_concat]
    apply ((ih (Nat.le_of_succ_le most)).visit inFirst most fun notFirst _ => .inl ⟨by omega, by omega⟩).congr
    intro a b
    omega

theorem filled_table (str1 str2 : QString) {count : Nat} (most : count ≤ str1.length) :
    Filled str1 str2 (fun a b => a < count ∧ b < str2.length)
      ((List.range count).foldl (row str1 str2) ⟨fun _ _ => 0, 0⟩) := by
  induction count with
  | zero =>
    constructor
    · exact fun a b isSeen => absurd isSeen.1 (Nat.not_lt_zero a)
    · exact fun a b isSeen => absurd isSeen.1 (Nat.not_lt_zero a)
    · exact .inl rfl
  | succ i ih =>
    rw [List.range_succ, List.foldl_concat]
    apply (filled_row most (ih (Nat.le_of_succ_le most)) (Nat.le_refl _)).congr
    intro a b
    omega

theorem table_longest (str1 str2 : QString) : IsLongestCommon str1 str2 (table str1 str2).z := by
  have filled := filled_table str1 str2 (Nat.le_refl _)
  apply isLongestCommon_of_runs
  · exact fun i j inFirst inSecond => filled.above i j ⟨inFirst, inSecond⟩
  · apply filled.attained.imp_right
    rintro ⟨i, j, ⟨inFirst, inSecond⟩, same⟩
    exact ⟨i, j, inFirst, inSecond, same⟩

end Similarity

def relativeSimilarity (str1 str2 : QString) : ℚ :=
  let z := (Similarity.table str1 str2).z
  if z = 0 then 0
  else
    let div := max 1 (max str1.length str2.length)
    toFloat (toFloat z / toFloat div)

theorem toFloat_natCast {n : Nat} (exact_ : n < 2 ^ 24) : toFloat n = n := roundTo_natCast (by decide) exact_

theorem toFloat_zero : toFloat 0 = 0 := toFloat_natCast (by decide)

theorem toFloat_one : toFloat 1 = 1 := by
  have one := @toFloat_natCast 1 (by decide)
  rwa [Nat.cast_one] at one

theorem toFloat_mono {p q : ℚ} (natural : 0 ≤ p) (below : p ≤ q) : toFloat p ≤ toFloat q := by
  rcases natural.eq_or_lt with rfl | positive
  · rw [toFloat_zero]
    exact roundTo_nonneg 24 below
  · exact roundTo_mono (by decide) positive below

theorem relativeSimilarity_eq {str1 str2 : QString} {z : Nat} (longest : IsLongestCommon str1 str2 z) :
    relativeSimilarity str1 str2 = toFloat (toFloat z / toFloat (max str1.length str2.length : Nat)) := by
  obtain rfl := isLongestCommon_unique longest (Similarity.table_longest str1 str2)
  have inside := longest.le_length
  unfold relativeSimilarity
  dsimp only
  split
  · next none_ => rw [none_, Nat.cast_zero, toFloat_zero, zero_div, toFloat_zero]
  · next some_ =>
    have positive : 1 ≤ max str1.length str2.length := by omega
    rw [Nat.max_eq_right positive]

theorem relativeSimilarity_comm (str1 str2 : QString) :
    relativeSimilarity str1 str2 = relativeSimilarity str2 str1 := by
  have longest := Similarity.table_longest str1 str2
  rw [relativeSimilarity_eq longest, relativeSimilarity_eq (isLongestCommon_comm longest), Nat.max_comm]

/-- The length of the longest common substring over the greater length, rounded where float rounds. -/
theorem relativeSimilarity_longest (str1 str2 : QString) :
    ∃ z, IsLongestCommon str1 str2 z ∧
      relativeSimilarity str1 str2 = toFloat (toFloat z / toFloat (max str1.length str2.length : Nat)) ∧
      (max str1.length str2.length < 2 ^ 24 →
        relativeSimilarity str1 str2 = toFloat (z / (max str1.length str2.length : Nat))) ∧
      relativeSimilarity str1 str2 = relativeSimilarity str2 str1 ∧
      0 ≤ relativeSimilarity str1 str2 ∧ relativeSimilarity str1 str2 ≤ 1 := by
  have longest := Similarity.table_longest str1 str2
  have value := relativeSimilarity_eq longest
  generalize (Similarity.table str1 str2).z = z at longest value
  have inside : z ≤ max str1.length str2.length := longest.le_length.trans (Nat.le_max_left _ _)
  have natural : 0 ≤ toFloat z := roundTo_nonneg 24 (Nat.cast_nonneg z)
  have below : toFloat z ≤ toFloat (max str1.length str2.length : Nat) :=
    toFloat_mono (Nat.cast_nonneg z) (Nat.cast_le.mpr inside)
  have ratio : 0 ≤ toFloat z / toFloat (max str1.length str2.length : Nat) := div_nonneg natural (natural.trans below)
  refine ⟨z, longest, value, ?_, relativeSimilarity_comm str1 str2, ?_, ?_⟩
  · intro small
    rw [value, toFloat_natCast small, toFloat_natCast (inside.trans_lt small)]
  · rw [value]
    exact roundTo_nonneg 24 ratio
  · rw [value, ← toFloat_one]
    exact toFloat_mono ratio (div_le_one_of_le₀ below (natural.trans below))

end Forserino.Messages
