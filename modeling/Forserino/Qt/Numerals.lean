import Mathlib.Algebra.Group.Nat.Defs
import Mathlib.Data.List.DropRight
import Forserino.Qt.Text

/-! Decimal numerals without leading zeros, and the numbers that they are printed from.
-/

set_option autoImplicit false

namespace Forserino.Qt

/-- Digits of which the first is no zero. -/
def IsNumeral (s : QString) : Prop := s.all isDigit = true ∧ ∃ first ∈ s.head?, first ≠ u '0'

instance (s : QString) : Decidable (IsNumeral s) := by
  unfold IsNumeral
  cases s with
  | nil => exact isFalse fun numeral => by simp at numeral
  | cons c rest => exact decidable_of_iff ((c :: rest).all isDigit = true ∧ c ≠ u '0') (by simp)

theorem IsNumeral.ne_nil {s : QString} (numeral : IsNumeral s) : s ≠ [] := by
  rintro rfl
  obtain ⟨first, impossible, -⟩ := numeral.2
  cases impossible

theorem decimalValue_concat (acc : Nat) (s : QString) (c : QChar) :
    decimalValue acc (s ++ [c]) = 10 * decimalValue acc s + digitValue c := by
  rw [decimalValue, List.foldl_append]
  rfl

theorem decimalValue_append (acc : Nat) (front back : QString) :
    decimalValue acc (front ++ back) = decimalValue (decimalValue acc front) back := List.foldl_append

theorem decimalValue_split (acc : Nat) (s : QString) :
    decimalValue acc s = acc * 10 ^ s.length + decimalValue 0 s := by
  induction s using List.reverseRecOn with
  | nil => simp [decimalValue]
  | append_singleton s c ih =>
    rw [decimalValue_concat, decimalValue_concat, ih, List.length_append, List.length_singleton, Nat.pow_succ,
      Nat.mul_add, Nat.add_assoc, Nat.mul_comm 10 (acc * 10 ^ s.length), Nat.mul_assoc]

theorem digitChar_digitValue {c : QChar} (digit : isDigit c = true) : digitChar (digitValue c) = c := by
  have bounds : 48 ≤ c.toNat ∧ c.toNat ≤ 57 := by simpa [isDigit] using digit
  rw [digitChar, digitValue, show 48 + (c.toNat - 48) = c.toNat by omega]
  exact UInt16.ofNat_toNat

theorem digitValue_small {c : QChar} (digit : isDigit c = true) : digitValue c < 10 := by
  have bounds : 48 ≤ c.toNat ∧ c.toNat ≤ 57 := by simpa [isDigit] using digit
  rw [digitValue]
  omega

theorem digitValue_pos {c : QChar} (digit : isDigit c = true) (other : c ≠ u '0') : 0 < digitValue c := by
  rw [Nat.pos_iff_ne_zero]
  intro zero
  have same := digitChar_digitValue digit
  rw [zero] at same
  exact other same.symm

/-- A numeral is not the text of zero. -/
theorem IsNumeral.value_pos {s : QString} (numeral : IsNumeral s) : 0 < decimalValue 0 s := by
  obtain ⟨digits, first, head, other⟩ := numeral
  cases s with
  | nil => cases head
  | cons c rest =>
    obtain rfl := Option.some.inj head
    have digit : isDigit c = true := List.all_eq_true.mp digits c List.mem_cons_self
    have positive := digitValue_pos digit other
    change 0 < decimalValue (10 * 0 + digitValue c) rest
    rw [decimalValue_split]
    have power : 0 < 10 ^ rest.length := Nat.pow_pos (by decide)
    have product := Nat.mul_pos (show 0 < 10 * 0 + digitValue c by omega) power
    omega

/-- A numeral is printed from its value. -/
theorem decimal_decimalValue {s : QString} (numeral : IsNumeral s) (acc : QString) {fuel : Nat}
    (enough : decimalValue 0 s < fuel) : decimal fuel (decimalValue 0 s) acc = s ++ acc := by
  induction s using List.reverseRecOn generalizing fuel acc with
  | nil => exact absurd rfl numeral.ne_nil
  | append_singleton s c ih =>
    obtain ⟨fuel, rfl⟩ := Nat.exists_eq_add_one_of_ne_zero (Nat.ne_of_gt (Nat.zero_lt_of_lt enough))
    have digits := numeral.1
    rw [List.all_append, Bool.and_eq_true] at digits
    have digit : isDigit c = true := List.all_eq_true.mp digits.2 c List.mem_cons_self
    have small := digitValue_small digit
    rw [decimalValue_concat] at enough ⊢
    have last : (10 * decimalValue 0 s + digitValue c) % 10 = digitValue c := by omega
    have front : (10 * decimalValue 0 s + digitValue c) / 10 = decimalValue 0 s := by omega
    rw [decimal, last, front, digitChar_digitValue digit]
    cases s with
    | nil => rfl
    | cons first rest =>
      have frontNumeral : IsNumeral (first :: rest) := ⟨digits.1, numeral.2⟩
      have positive := frontNumeral.value_pos
      rw [if_neg (Nat.ne_of_gt positive), ih frontNumeral (c :: acc) (by omega), List.append_assoc,
        List.singleton_append]

theorem number_decimalValue {s : QString} (numeral : IsNumeral s) : number (decimalValue 0 s) = s := by
  have printed : number (decimalValue 0 s) = decimal (decimalValue 0 s + 1) (decimalValue 0 s) [] := by
    simp [number]
  rw [printed, decimal_decimalValue numeral [] (Nat.lt_succ_self _), List.append_nil]

theorem number_digits (n : Nat) : (number n).all isDigit = true := by
  rw [List.all_eq_true]
  intro c among
  rcases number_chars n among with digit | ⟨-, negative⟩
  · exact digit
  · omega

theorem decimalValue_number (n : Nat) : decimalValue 0 (number n) = n := by
  have printed : number n = decimal (n + 1) n [] := by simp [number]
  rw [printed, decimalValue_decimal (n + 1) n [] (Nat.lt_succ_self n)]
  rfl

/-- A numeral reads as its value, if that is in the range. -/
theorem toIntegral_numeral (inRange : Int → Bool) {s : QString} (numeral : IsNumeral s) :
    toIntegral inRange s = if inRange (decimalValue 0 s) then some (decimalValue 0 s : Int) else none := by
  rw [toIntegral_digits inRange numeral.ne_nil numeral.1]
  by_cases range : inRange (decimalValue 0 s) = true
  · simp [range]
  · simp [range]

/-- Digits of an uint are read as their value. -/
theorem toUInt_digits {s : QString} (nonempty : s ≠ []) (digits : s.all isDigit = true)
    (bounded : (decimalValue 0 s : Int) ≤ UINT_MAX) : QString.toUInt s = decimalValue 0 s := by
  have nonnegative : (0 : Int) ≤ decimalValue 0 s := Int.natCast_nonneg _
  rw [QString.toUInt, toIntegral_digits _ nonempty digits, Option.filter_some, if_pos (by simp [nonnegative, bounded]),
    Option.getD_some, Int.toNat_natCast]

theorem decimal_length_pos (fuel n : Nat) (acc : QString) : acc.length ≤ (decimal fuel n acc).length := by
  induction fuel generalizing n acc with
  | zero => exact Nat.le_refl _
  | succ fuel ih =>
    rw [decimal]
    split
    · exact Nat.le_succ _
    · exact (Nat.le_succ _).trans (ih (n / 10) (digitChar (n % 10) :: acc))

theorem decimal_length_mono {few many : Nat} {acc acc' : QString} (less : few ≤ many) {fuel fuel' : Nat}
    (enough' : many < fuel') (same : acc.length = acc'.length) :
    (decimal fuel few acc).length ≤ (decimal fuel' many acc').length := by
  induction fuel generalizing few many acc acc' fuel' with
  | zero => exact same.le.trans (decimal_length_pos fuel' many acc')
  | succ fuel ih =>
    obtain ⟨fuel', rfl⟩ := Nat.exists_eq_add_one_of_ne_zero (Nat.ne_of_gt (Nat.zero_lt_of_lt enough'))
    have quotient := Nat.div_le_div_right (c := 10) less
    rw [decimal, decimal]
    split
    · split
      · rw [List.length_cons, List.length_cons, same]
      · refine Nat.le_trans ?_ (decimal_length_pos fuel' _ _)
        rw [List.length_cons, List.length_cons, same]
    · next large =>
      rw [if_neg (by omega)]
      exact ih quotient (by omega) (by rw [List.length_cons, List.length_cons, same])

/-- A smaller number has no longer text. -/
theorem number_length_mono {few many : Nat} (less : few ≤ many) : (number few).length ≤ (number many).length := by
  have printed (n : Nat) : number n = decimal (n + 1) n [] := by simp [number]
  rw [printed, printed]
  exact decimal_length_mono less (Nat.lt_succ_self many) rfl

/-! ## The numeral at the end of a text -/

/-- The digits at the end of a text, read behind a one. -/
def endValue (s : QString) : Nat := decimalValue 1 (s.rtakeWhile isDigit)

theorem rtakeWhile_append_digits (front : QString) {digits : QString} (all : digits.all isDigit = true) :
    (front ++ digits).rtakeWhile isDigit = front.rtakeWhile isDigit ++ digits := by
  induction digits using List.reverseRecOn with
  | nil => rw [List.append_nil, List.append_nil]
  | append_singleton digits c ih =>
    rw [List.all_append, Bool.and_eq_true] at all
    have digit : isDigit c = true := List.all_eq_true.mp all.2 c List.mem_cons_self
    rw [← List.append_assoc, List.rtakeWhile_concat_pos _ _ _ digit, ih all.1, List.append_assoc]

theorem endValue_append (front : QString) {digits : QString} (all : digits.all isDigit = true) :
    endValue (front ++ digits) = endValue front * 10 ^ digits.length + decimalValue 0 digits := by
  rw [endValue, rtakeWhile_append_digits front all, decimalValue_append, decimalValue_split]
  rfl

/-- A smaller number in the place of a numeral makes the end of the text smaller. -/
theorem endValue_number_lt (front : QString) {few many : Nat} (less : few < many) :
    endValue (front ++ number few) < endValue (front ++ number many) := by
  rw [endValue_append front (number_digits few), endValue_append front (number_digits many), decimalValue_number,
    decimalValue_number]
  have power := Nat.pow_le_pow_right (by decide : 0 < 10) (number_length_mono less.le)
  have product := Nat.mul_le_mul_left (endValue front) power
  omega

end Forserino.Qt
