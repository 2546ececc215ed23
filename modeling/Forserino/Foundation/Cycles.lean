import Mathlib.Algebra.BigOperators.Group.List.Basic
import Mathlib.Data.Nat.ModEq

/-! A cycle of segments, and the one in which a position on the cycle lies. A segment ends with the
position at its end and begins behind the segment before it.
-/

set_option autoImplicit false

namespace Forserino.Foundation

/-- The segment in which the distance from the start of the cycle lies. -/
def segmentAt : List Nat → Nat → Nat
  | [], _ => 0
  | length :: lengths, distance => if distance ≤ length then 0 else segmentAt lengths (distance - length) + 1

/-- The distance from the start of a cycle to the position, which is not zero. -/
def distanceAt (total position : Nat) : Nat := (position - 1) % total + 1

/-- The offset, from the start of the segment, leads to the position; it may lead out of the segment. -/
structure Leads (lengths : List Nat) (position segment offset : Nat) : Prop where
  inside : segment < lengths.length
  positive : 0 < offset
  same : (lengths.take segment).sum + offset ≡ position [MOD lengths.sum]

variable {lengths : List Nat} {position segment offset : Nat}

theorem sum_take_next {length : Nat} (here : lengths[segment]? = some length) :
    (lengths.take (segment + 1)).sum = (lengths.take segment).sum + length := by
  rw [List.take_add_one, here, List.sum_append]
  rfl

theorem segmentAt_of_within {length : Nat} (here : lengths[segment]? = some length) (positive : 0 < offset)
    (within : offset ≤ length) : segmentAt lengths ((lengths.take segment).sum + offset) = segment := by
  induction lengths generalizing segment with
  | nil => cases here
  | cons first lengths ih =>
    cases segment with
    | zero =>
      obtain rfl : first = length := Option.some.inj here
      rw [List.take_zero, List.sum_nil, Nat.zero_add, segmentAt, if_pos within]
    | succ segment =>
      rw [List.take_succ_cons, List.sum_cons, segmentAt, if_neg (by omega)]
      have rest : first + (lengths.take segment).sum + offset - first = (lengths.take segment).sum + offset := by omega
      rw [rest, ih here]

/-- An offset that stays in its segment shows in which segment the position lies. -/
theorem Leads.segment_eq {length : Nat} (leads : Leads lengths position segment offset)
    (here : lengths[segment]? = some length) (within : offset ≤ length) (later : 0 < position) :
    segment = segmentAt lengths (distanceAt lengths.sum position) := by
  have positive := leads.positive
  have upTo := sum_take_next here
  have whole := List.sum_take_add_sum_drop lengths (segment + 1)
  -- both are distances, and they differ by whole turns
  have turns : (lengths.take segment).sum + offset - 1 ≡ position - 1 [MOD lengths.sum] := by
    apply Nat.ModEq.add_right_cancel' 1
    rw [Nat.sub_add_cancel (by omega), Nat.sub_add_cancel later]
    exact leads.same
  have remainder : (position - 1) % lengths.sum = (lengths.take segment).sum + offset - 1 := by
    rw [← turns, Nat.mod_eq_of_lt (by omega)]
  rw [distanceAt, remainder, Nat.sub_add_cancel (by omega), segmentAt_of_within here positive within]

/-- The end of the segment is passed, and with the last one the end of the cycle. -/
theorem Leads.next {length : Nat} (leads : Leads lengths position segment offset)
    (here : lengths[segment]? = some length) (beyond : length < offset) :
    Leads lengths position ((segment + 1) % lengths.length) (offset - length) := by
  have upTo := sum_take_next here
  refine ⟨Nat.mod_lt _ (Nat.zero_lt_of_lt leads.inside), Nat.sub_pos_of_lt beyond, ?_⟩
  rcases Nat.lt_or_eq_of_le (Nat.succ_le_of_lt leads.inside) with further | last
  · rw [Nat.mod_eq_of_lt further, upTo, Nat.add_assoc, Nat.add_sub_cancel' beyond.le]
    exact leads.same
  · have whole : (lengths.take (segment + 1)).sum = lengths.sum := congrArg List.sum (List.take_of_length_le last.ge)
    have around : (lengths.take segment).sum + offset = lengths.sum + (offset - length) := by omega
    have same := leads.same
    rw [around, Nat.modulus_add_modEq_iff] at same
    rw [← last, Nat.mod_self, List.take_zero, List.sum_nil, Nat.zero_add]
    exact same

theorem Leads.forward (leads : Leads lengths position segment offset) (steps : Nat) :
    Leads lengths (position + steps) segment (offset + steps) :=
  ⟨leads.inside, Nat.add_pos_left leads.positive steps, by
    rw [← Nat.add_assoc]
    exact leads.same.add_right steps⟩

end Forserino.Foundation
