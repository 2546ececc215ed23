import Forserino.Qt.Utf16

/-! The code points of any units, also where a surrogate stands alone.
-/

set_option autoImplicit false

namespace Forserino.Qt

/-- QChar::isHighSurrogate -/
def isHighSurrogate (c : QChar) : Bool := 0xD800 ≤ c.toNat && c.toNat < 0xDC00

/-- What a high and a low surrogate stand for together. -/
def pairPoint (high low : QChar) : Nat := 0x10000 + (high.toNat - 0xD800) * 0x400 + (low.toNat - 0xDC00)

/-- The code points of the units. A surrogate that is not part of a pair is one of its own. -/
def decode : QString → List Nat
  | [] => []
  | [c] => [c.toNat]
  | high :: low :: rest =>
      if isHighSurrogate high && isLowSurrogate low then pairPoint high low :: decode rest
      else high.toNat :: decode (low :: rest)

/-- The units of one code point. -/
def pointUnits (point : Nat) : QString :=
  if point < 0x10000 then [UInt16.ofNat point]
  else [UInt16.ofNat (0xD800 + (point - 0x10000) / 0x400), UInt16.ofNat (0xDC00 + (point - 0x10000) % 0x400)]

def encode (points : List Nat) : QString := points.flatMap pointUnits

@[simp] theorem encode_nil : encode [] = [] := rfl

@[simp] theorem encode_cons (point : Nat) (points : List Nat) :
    encode (point :: points) = pointUnits point ++ encode points := List.flatMap_cons

@[simp] theorem encode_append (front back : List Nat) : encode (front ++ back) = encode front ++ encode back :=
  List.flatMap_append

@[simp] theorem pointUnits_toNat (c : QChar) : pointUnits c.toNat = [c] := by
  have small : c.toNat < 0x10000 := c.toNat_lt
  simp [pointUnits, small]

theorem pointUnits_pairPoint {high low : QChar} (isHigh : isHighSurrogate high = true)
    (isLow : isLowSurrogate low = true) : pointUnits (pairPoint high low) = [high, low] := by
  simp only [isHighSurrogate, isLowSurrogate, Bool.and_eq_true, decide_eq_true_eq] at isHigh isLow
  have large : ¬ pairPoint high low < 0x10000 := by
    unfold pairPoint
    omega
  have first : 0xD800 + (pairPoint high low - 0x10000) / 0x400 = high.toNat := by
    unfold pairPoint
    omega
  have second : 0xDC00 + (pairPoint high low - 0x10000) % 0x400 = low.toNat := by
    unfold pairPoint
    omega
  simp [pointUnits, large, first, second]

/-- Nothing is lost by decoding. -/
theorem encode_decode (s : QString) : encode (decode s) = s := by
  fun_induction decode s with
  | case1 => rfl
  | case2 c => simp
  | case3 high low rest pair ih =>
    rw [Bool.and_eq_true] at pair
    simp [pointUnits_pairPoint pair.1 pair.2, ih]
  | case4 high low rest _ ih => simp [ih]

theorem decode_cons {c : QChar} (single : isHighSurrogate c = false) (rest : QString) :
    decode (c :: rest) = c.toNat :: decode rest := by
  cases rest with
  | nil => rfl
  | cons low rest => simp [decode, single]

theorem decode_pair {high low : QChar} (pair : (isHighSurrogate high && isLowSurrogate low) = true)
    (rest : QString) : decode (high :: low :: rest) = pairPoint high low :: decode rest := by
  rw [decode, if_pos pair]

/-- A text without lone surrogates is decoded to its characters. -/
theorem decode_utf16 (text : List Char) : decode (utf16 text) = text.map Char.toNat := by
  induction text with
  | nil => rfl
  | cons c text ih =>
    have valid : c.toNat < 0xD800 ∨ (0xDFFF < c.toNat ∧ c.toNat < 0x110000) := c.valid
    rw [utf16_cons, List.map_cons, ← ih]
    by_cases small : c.toNat < 0x10000
    · have value : (UInt16.ofNat c.toNat).toNat = c.toNat := UInt16.toNat_ofNat_of_lt' small
      have single : isHighSurrogate (UInt16.ofNat c.toNat) = false := by
        simp only [isHighSurrogate, value, Bool.and_eq_false_iff, decide_eq_false_iff_not]
        omega
      simp only [units, small, if_true, List.singleton_append, decode_cons single, value]
    · have high := UInt16.toNat_ofNat_of_lt' (n := 0xD800 + (c.toNat - 0x10000) / 0x400)
        (by simp only [UInt16.size]; omega)
      have low := UInt16.toNat_ofNat_of_lt' (n := 0xDC00 + (c.toNat - 0x10000) % 0x400)
        (by simp only [UInt16.size]; omega)
      have pair : (isHighSurrogate (UInt16.ofNat (0xD800 + (c.toNat - 0x10000) / 0x400)) &&
          isLowSurrogate (UInt16.ofNat (0xDC00 + (c.toNat - 0x10000) % 0x400))) = true := by
        simp only [isHighSurrogate, isLowSurrogate, high, low, Bool.and_eq_true, decide_eq_true_eq]
        omega
      have point : pairPoint (UInt16.ofNat (0xD800 + (c.toNat - 0x10000) / 0x400))
          (UInt16.ofNat (0xDC00 + (c.toNat - 0x10000) % 0x400)) = c.toNat := by
        unfold pairPoint
        omega
      have decoded := decode_pair pair (utf16 text)
      rw [point] at decoded
      rw [units, if_neg small, List.cons_append, List.singleton_append]
      exact decoded

end Forserino.Qt
