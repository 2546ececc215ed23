import Forserino.Qt.CodePoints
import Mathlib.Tactic.Lift

/-! codepointSlice takes code points, although it walks units.
-/

set_option autoImplicit false

namespace Forserino.Util

open Forserino.Qt

/-- The loop, by the number of turns that n < end still allows. A result is the two ends of the view. -/
def codepointSlice.loop (str : QString) (begin : Nat) : Nat → Nat → Nat → Option Nat → Option (Option Nat × Nat)
  | 0, _, pos, sliceBegin => some (sliceBegin, pos)
  | turns + 1, n, pos, sliceBegin =>
      match str[pos]? with
      | none => none
      | some cur =>
          let sliceBegin := if n = begin then some pos else sliceBegin
          let paired := isHighSurrogate cur && str[pos + 1]?.any isLowSurrogate
          loop str begin turns (n + 1) (if paired then pos + 2 else pos + 1) sliceBegin

def codepointSlice (str : QString) (begin end_ : Int) : QString :=
  if end_ ≤ begin ∨ begin < 0 then []
  else match codepointSlice.loop str begin.toNat end_.toNat 0 0 none with
    | some (some sliceBegin, pos) => str.midN sliceBegin (pos - sliceBegin)
    | _ => []

/-- One turn goes behind one code point. -/
theorem decode_drop {str : QString} {pos : Nat} {cur : QChar} (at_ : str[pos]? = some cur) :
    ∃ next point, (if isHighSurrogate cur && str[pos + 1]?.any isLowSurrogate then pos + 2 else pos + 1) = next ∧
      decode (str.drop pos) = point :: decode (str.drop next) ∧ next = pos + (pointUnits point).length := by
  obtain ⟨inside, rfl⟩ := List.getElem?_eq_some_iff.mp at_
  rw [List.drop_eq_getElem_cons inside]
  cases following : str[pos + 1]? with
  | none =>
    have rest : str.drop (pos + 1) = [] := List.drop_eq_nil_of_le (List.getElem?_eq_none_iff.mp following)
    refine ⟨pos + 1, str[pos].toNat, by simp, ?_, by simp⟩
    simp [rest, decode]
  | some low =>
    obtain ⟨insideToo, rfl⟩ := List.getElem?_eq_some_iff.mp following
    rw [List.drop_eq_getElem_cons insideToo, Option.any_some]
    cases pair : isHighSurrogate str[pos] && isLowSurrogate str[pos + 1] with
    | true =>
      rw [decode_pair pair]
      rw [Bool.and_eq_true] at pair
      refine ⟨pos + 2, _, by simp, rfl, ?_⟩
      rw [pointUnits_pairPoint pair.1 pair.2, List.length_cons, List.length_singleton]
    | false => exact ⟨pos + 1, str[pos].toNat, by simp, by simp [decode, pair], by simp⟩

section
variable {str : QString} {begin turns n pos : Nat} {sliceBegin : Option Nat} {points : List Nat}

/-- The loop returns early where the string ends before it. -/
theorem loop_short (decoded : decode (str.drop pos) = points) (short : points.length < turns) :
    codepointSlice.loop str begin turns n pos sliceBegin = none := by
  induction turns generalizing n pos sliceBegin points with
  | zero => exact absurd short (Nat.not_lt_zero _)
  | succ turns ih =>
    rw [codepointSlice.loop]
    cases at_ : str[pos]? with
    | none => rfl
    | some cur =>
      obtain ⟨next, point, stepped, decodes, _⟩ := decode_drop at_
      rw [decodes] at decoded
      subst decoded
      simp only [stepped]
      exact ih rfl (Nat.lt_of_succ_lt_succ short)

/-- From any code point, the loop stops behind as many as it has turns. -/
theorem loop_behind (decoded : decode (str.drop pos) = points) (enough : turns ≤ points.length) (behind : begin < n) :
    codepointSlice.loop str begin turns n pos sliceBegin =
      some (sliceBegin, pos + (encode (points.take turns)).length) := by
  induction turns generalizing n pos points with
  | zero => rfl
  | succ turns ih =>
    rw [codepointSlice.loop]
    cases at_ : str[pos]? with
    | none =>
      have ended : str.drop pos = [] := List.drop_eq_nil_of_le (List.getElem?_eq_none_iff.mp at_)
      rw [ended] at decoded
      subst decoded
      exact absurd enough (Nat.not_succ_le_zero _)
    | some cur =>
      obtain ⟨next, point, stepped, decodes, moved⟩ := decode_drop at_
      rw [decodes] at decoded
      subst decoded
      have other : n ≠ begin := Nat.ne_of_gt behind
      simp only [stepped, other, if_false]
      rw [ih rfl (Nat.le_of_succ_le_succ enough) (Nat.lt_succ_of_lt behind)]
      simp [moved, Nat.add_assoc]

/-- On the way, it notes where the code point with the number begin stands. -/
theorem loop_eq (decoded : decode (str.drop pos) = points) (enough : turns ≤ points.length) (ahead : n ≤ begin)
    (within : begin < n + turns) : codepointSlice.loop str begin turns n pos sliceBegin =
      some (some (pos + (encode (points.take (begin - n))).length), pos + (encode (points.take turns)).length) := by
  induction turns generalizing n pos sliceBegin points with
  | zero => exact absurd within (Nat.not_lt.mpr ahead)
  | succ turns ih =>
    rw [codepointSlice.loop]
    cases at_ : str[pos]? with
    | none =>
      have ended : str.drop pos = [] := List.drop_eq_nil_of_le (List.getElem?_eq_none_iff.mp at_)
      rw [ended] at decoded
      subst decoded
      exact absurd enough (Nat.not_succ_le_zero _)
    | some cur =>
      obtain ⟨next, point, stepped, decodes, moved⟩ := decode_drop at_
      rw [decodes] at decoded
      subst decoded
      simp only [stepped]
      by_cases here : n = begin
      · subst here
        rw [if_pos rfl, loop_behind rfl (Nat.le_of_succ_le_succ enough) (Nat.lt_succ_self n)]
        simp [moved, Nat.add_assoc]
      · have later : n + 1 ≤ begin := Nat.lt_of_le_of_ne ahead here
        obtain ⟨between, rfl⟩ := Nat.exists_eq_add_of_le later
        have one : n + 1 + between - n = between + 1 := by omega
        rw [ih rfl (Nat.le_of_succ_le_succ enough) later (by omega), one, Nat.add_sub_cancel_left]
        simp [moved, Nat.add_assoc]

end

theorem codepointSlice_eq {str : QString} {begin end_ : Nat} (ordered : begin < end_)
    (enough : end_ ≤ (decode str).length) :
    codepointSlice str begin end_ = encode (((decode str).drop begin).take (end_ - begin)) := by
  have proper : ¬ ((end_ : Int) ≤ begin ∨ (begin : Int) < 0) := by omega
  have looped : codepointSlice.loop str begin end_ 0 0 none = _ :=
    loop_eq (congrArg decode List.drop_zero) enough (Nat.zero_le begin) (by omega)
  have cut := midN_flatMap pointUnits (decode str) (Nat.le_of_lt ordered)
  rw [← encode, encode_decode] at cut
  simp only [Nat.zero_add, Nat.sub_zero] at looped
  rw [codepointSlice, if_neg proper, Int.toNat_natCast, Int.toNat_natCast, looped]
  exact cut

theorem codepointSlice_nil {str : QString} {begin end_ : Int}
    (outside : begin < 0 ∨ end_ ≤ begin ∨ (decode str).length < end_) : codepointSlice str begin end_ = [] := by
  by_cases improper : end_ ≤ begin ∨ begin < 0
  · rw [codepointSlice, if_pos improper]
  · have short : (decode (str.drop 0)).length < end_.toNat := by
      rw [List.drop_zero]
      omega
    rw [codepointSlice, if_neg improper, loop_short rfl short]

/-- The slice of code points, for any begin and end. -/
theorem codepointSlice_points {str : QString} {begin end_ : Int} (first : 0 ≤ begin) (ordered : begin ≤ end_)
    (enough : end_ ≤ (decode str).length) :
    codepointSlice str begin end_ = encode (((decode str).drop begin.toNat).take (end_ - begin).toNat) := by
  lift begin to Nat using first
  lift end_ to Nat using Int.le_trans (Int.natCast_nonneg begin) ordered
  have distance : ((end_ : Int) - begin).toNat = end_ - begin := by omega
  rw [distance, Int.toNat_natCast]
  rcases Nat.eq_or_lt_of_le (Int.ofNat_le.mp ordered) with rfl | below
  · rw [codepointSlice_nil (Or.inr (Or.inl (Int.le_refl _))), Nat.sub_self, List.take_zero, encode_nil]
  · exact codepointSlice_eq below (Int.ofNat_le.mp enough)

theorem codepointSlice_append {str : QString} {a b c : Int} (first : 0 ≤ a) (ordered : a ≤ b) (orderedToo : b ≤ c)
    (enough : c ≤ (decode str).length) : codepointSlice str a b ++ codepointSlice str b c = codepointSlice str a c := by
  rw [codepointSlice_points first ordered (Int.le_trans orderedToo enough),
    codepointSlice_points (Int.le_trans first ordered) orderedToo enough,
    codepointSlice_points first (Int.le_trans ordered orderedToo) enough, ← encode_append]
  have place : b.toNat = a.toNat + (b - a).toNat := by omega
  have whole : (c - a).toNat = (b - a).toNat + (c - b).toNat := by omega
  rw [place, whole, List.take_add, List.drop_drop]

/-- A slice has the code points from begin up to end, slices that follow each other are one, and out of
range there is nothing. -/
theorem codepointSlice_slices (str : QString) (begin end_ : Int) :
    (0 ≤ begin ∧ begin ≤ end_ ∧ end_ ≤ (decode str).length →
      codepointSlice str begin end_ = encode (((decode str).drop begin.toNat).take (end_ - begin).toNat)) ∧
    (¬ (0 ≤ begin ∧ begin ≤ end_ ∧ end_ ≤ (decode str).length) → codepointSlice str begin end_ = []) ∧
    ∀ c, 0 ≤ begin → begin ≤ end_ → end_ ≤ c → c ≤ (decode str).length →
      codepointSlice str begin end_ ++ codepointSlice str end_ c = codepointSlice str begin c := by
  refine ⟨fun inside => codepointSlice_points inside.1 inside.2.1 inside.2.2, fun outside => ?_,
    fun c => codepointSlice_append⟩
  apply codepointSlice_nil
  omega

-- a lone surrogate counts as one code point
example : codepointSlice [0xD83E, 0xD83E, 0xDD5A, u 'a'] 1 2 = [0xD83E, 0xDD5A] := by decide

end Forserino.Util
