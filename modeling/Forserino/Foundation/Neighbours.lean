import Mathlib.Data.List.Destutter
import Mathlib.Data.List.Nodup

/-! Lists of which equal neighbours are merged.
-/

set_option autoImplicit false

namespace Forserino.Foundation

universe u

variable {α : Type u} {l : List α}

/-- Between two equal elements that are no neighbours stands another one. -/
theorem exists_between {a : α} (apart : l.IsChain (· ≠ ·)) (twice : [a, a].Sublist l) :
    ∃ c, c ≠ a ∧ [a, c, a].Sublist l := by
  induction l with
  | nil => cases twice
  | cons b l ih =>
    cases twice with
    | cons _ twice =>
      obtain ⟨c, other, between⟩ := ih apart.tail twice
      exact ⟨c, other, between.cons b⟩
    | cons_cons _ again =>
      cases l with
      | nil => cases again
      | cons c l =>
        have other : a ≠ c := (List.isChain_cons_cons.mp apart).1
        rw [List.singleton_sublist, List.mem_cons] at again
        have behind : [a].Sublist l := List.singleton_sublist.mpr (again.resolve_left other)
        exact ⟨c, other.symm, (behind.cons_cons c).cons_cons a⟩

/-- std::unique with a predicate: an element that is the same as the last one that is left is dropped. -/
def uniqueBy (same : α → α → Bool) (l : List α) : List α := l.destutter fun a b => ¬ same a b = true

section UniqueBy

variable {same : α → α → Bool}

theorem uniqueBy_sublist (l : List α) : (uniqueBy same l).Sublist l := List.destutter_sublist _ l

theorem isChain_uniqueBy (l : List α) : (uniqueBy same l).IsChain fun a b => ¬ same a b = true :=
  List.isChain_destutter _ l

theorem exists_mem_destutter' {a b : α} (member : b ∈ a :: l) :
    ∃ kept ∈ l.destutter' (fun a b => ¬ same a b = true) a, kept = b ∨ same kept b = true := by
  induction l generalizing a with
  | nil => exact ⟨b, member, Or.inl rfl⟩
  | cons c l ih =>
    by_cases dropped : same a c = true
    · rw [List.destutter'_cons_neg (h := not_not.mpr dropped)]
      rcases List.mem_cons.mp member with rfl | member
      · exact ih List.mem_cons_self
      · rcases List.mem_cons.mp member with rfl | member
        · exact ⟨a, List.mem_destutter' _ _ a, Or.inr dropped⟩
        · exact ih (List.mem_cons_of_mem a member)
    · rw [List.destutter'_cons_pos (h := dropped)]
      rcases List.mem_cons.mp member with rfl | member
      · exact ⟨b, List.mem_cons_self, Or.inl rfl⟩
      · obtain ⟨kept, left, found⟩ := ih member
        exact ⟨kept, List.mem_cons_of_mem a left, found⟩

/-- Every element is left, or one that it is the same as. -/
theorem exists_mem_uniqueBy {b : α} (member : b ∈ l) : ∃ kept ∈ uniqueBy same l, kept = b ∨ same kept b = true := by
  cases l with
  | nil => cases member
  | cons a l => exact exists_mem_destutter' member

theorem filter_destutter' {p : α → Bool} (exempt : ∀ a b, same a b = true → p b = false) (a : α) :
    (l.destutter' (fun a b => ¬ same a b = true) a).filter p = (a :: l).filter p := by
  induction l generalizing a with
  | nil => rfl
  | cons c l ih =>
    by_cases dropped : same a c = true
    · have lost : p c = false := exempt a c dropped
      rw [List.destutter'_cons_neg (h := not_not.mpr dropped), ih]
      cases keeps : p a <;> simp [keeps, lost]
    · rw [List.destutter'_cons_pos (h := dropped), List.filter_cons, List.filter_cons, ih]

/-- What is never the same as another element is left as often as it was there. -/
theorem filter_uniqueBy {p : α → Bool} (exempt : ∀ a b, same a b = true → p b = false) (l : List α) :
    (uniqueBy same l).filter p = l.filter p := by
  cases l with
  | nil => rfl
  | cons a l => exact filter_destutter' exempt a

end UniqueBy

/-- Of two elements of a list, one stands in front of the other. -/
theorem pair_sublist_or {a b : α} (memberA : a ∈ l) (memberB : b ∈ l) (other : a ≠ b) :
    [a, b].Sublist l ∨ [b, a].Sublist l := by
  induction l with
  | nil => cases memberA
  | cons c l ih =>
    rcases List.mem_cons.mp memberA with rfl | restA
    · have behind := List.singleton_sublist.mpr (List.mem_of_ne_of_mem other.symm memberB)
      exact Or.inl (behind.cons_cons a)
    · rcases List.mem_cons.mp memberB with rfl | restB
      · exact Or.inr ((List.singleton_sublist.mpr restA).cons_cons b)
      · exact (ih restA restB).imp (·.cons c) (·.cons c)

/-- Without duplicates, not both. -/
theorem not_pair_sublist {a b : α} (distinct : l.Nodup) (before : [a, b].Sublist l) : ¬ [b, a].Sublist l := by
  intro behind
  induction l with
  | nil => cases before
  | cons c l ih =>
    rw [List.nodup_cons] at distinct
    cases before with
    | cons _ before =>
      cases behind with
      | cons _ behind => exact ih distinct.2 before behind
      | cons_cons _ _ => exact distinct.1 (before.subset (by simp))
    | cons_cons _ before =>
      cases behind with
      | cons _ behind => exact distinct.1 (behind.subset (by simp))
      | cons_cons _ behind => exact distinct.1 (behind.subset (by simp))

variable [DecidableEq α]

/-- std::unique: of equal neighbours the first one is left. -/
def unique (l : List α) : List α := l.destutter (· ≠ ·)

/-- A list in which no neighbours are equal loses none of its elements. -/
theorem sublist_destutter' {s : List α} {a : α} (apart : s.IsChain (· ≠ ·)) (within : s.Sublist (a :: l)) :
    s.Sublist (l.destutter' (· ≠ ·) a) := by
  induction l generalizing s a with
  | nil => exact within
  | cons b l ih =>
    by_cases differ : a ≠ b
    · rw [List.destutter'_cons_pos (h := differ)]
      cases within with
      | cons _ within => exact (ih apart within).cons a
      | cons_cons _ within => exact (ih apart.tail within).cons_cons a
    · rw [List.destutter'_cons_neg (h := differ)]
      cases not_not.mp differ
      cases within with
      | cons _ within => exact ih apart within
      | cons_cons _ within =>
        -- one of the two is left out, or they would be neighbours
        cases within with
        | cons _ within => exact ih apart (within.cons_cons b)
        | cons_cons _ within => exact absurd rfl (List.isChain_cons_cons.mp apart).1

theorem sublist_unique {s : List α} (apart : s.IsChain (· ≠ ·)) (within : s.Sublist l) : s.Sublist (unique l) := by
  cases l with
  | nil => exact within
  | cons a l => exact sublist_destutter' apart within

theorem unique_sublist (l : List α) : (unique l).Sublist l := List.destutter_sublist _ l

theorem mem_unique {a : α} : a ∈ unique l ↔ a ∈ l := by
  constructor
  · exact fun member => (unique_sublist l).subset member
  · intro member
    have within := sublist_unique (List.isChain_singleton a) (List.singleton_sublist.mpr member)
    exact List.singleton_sublist.mp within

/-- Every element is left once exactly if equal ones have no other one between them. -/
theorem unique_nodup_iff : (unique l).Nodup ↔ ∀ a c, [a, c, a].Sublist l → c = a := by
  constructor
  · intro distinct a c between
    by_contra other
    have apart : [a, c, a].IsChain (· ≠ ·) := by simp [other, Ne.symm other]
    have left := sublist_unique apart between
    have twice : [a, a].Sublist [a, c, a] := ((List.Sublist.refl [a]).cons c).cons_cons a
    exact List.nodup_iff_sublist.mp distinct a (twice.trans left)
  · intro together
    rw [List.nodup_iff_sublist]
    intro a twice
    obtain ⟨c, other, between⟩ := exists_between (List.isChain_destutter _ l) twice
    exact other (together a c (between.trans (unique_sublist l)))

theorem destutter'_append (a : α) (l r : List α) :
    ∃ rest, rest.Sublist r ∧ (l ++ r).destutter' (· ≠ ·) a = l.destutter' (· ≠ ·) a ++ rest := by
  induction l generalizing a with
  | nil =>
    induction r with
    | nil => exact ⟨[], List.Sublist.refl [], rfl⟩
    | cons b r ih =>
      by_cases differ : a ≠ b
      · exact ⟨_, List.destutter'_sublist _ _ b, List.destutter'_cons_pos _ differ⟩
      · obtain ⟨rest, within, same⟩ := ih
        exact ⟨rest, within.cons b, (List.destutter'_cons_neg _ differ).trans same⟩
  | cons b l ih =>
    by_cases differ : a ≠ b
    · obtain ⟨rest, within, same⟩ := ih b
      rw [List.cons_append, List.destutter'_cons_pos (h := differ), List.destutter'_cons_pos (h := differ), same]
      exact ⟨rest, within, rfl⟩
    · obtain ⟨rest, within, same⟩ := ih a
      rw [List.cons_append, List.destutter'_cons_neg (h := differ), List.destutter'_cons_neg (h := differ), same]
      exact ⟨rest, within, rfl⟩

/-- What is left of the first list does not depend on what follows. -/
theorem unique_append (l r : List α) : ∃ rest, rest.Sublist r ∧ unique (l ++ r) = unique l ++ rest := by
  cases l with
  | nil => exact ⟨unique r, unique_sublist r, rfl⟩
  | cons a l => exact destutter'_append a l r

end Forserino.Foundation
