import Forserino.Qt.CodePoints

/-! The UTF-8 text of a QString. A std::string is the list of its characters.
-/

set_option autoImplicit false

namespace Forserino.Qt

abbrev StdString := List Char

/-- The character of a code point. A lone surrogate has none, and a question mark is written. -/
def pointChar (point : Nat) : Char := if valid : point.isValidChar then Char.ofNatAux point valid else '?'

/-- QString::toUtf8, QString::toStdString -/
def toUtf8 (s : QString) : StdString := (decode s).map pointChar

/-- QString::fromUtf8, QString::fromStdString -/
def fromUtf8 (text : StdString) : QString := utf16 text

/-- A text without lone surrogates. -/
def WellFormed (s : QString) : Prop := ∃ text, fromUtf8 text = s

theorem pointChar_toNat (c : Char) : pointChar c.toNat = c := by
  have valid : c.toNat.isValidChar := c.valid
  rw [pointChar, dif_pos valid]
  rfl

/-- Only what has lone surrogates is written as something else. -/
theorem toUtf8_fromUtf8 (text : StdString) : toUtf8 (fromUtf8 text) = text := by
  rw [toUtf8, fromUtf8, decode_utf16, List.map_map]
  exact (List.map_congr_left fun c _ => pointChar_toNat c).trans (List.map_id text)

theorem fromUtf8_toUtf8 {s : QString} (wellFormed : WellFormed s) : fromUtf8 (toUtf8 s) = s := by
  obtain ⟨text, rfl⟩ := wellFormed
  rw [toUtf8_fromUtf8]

/-- Well-formed texts are written as different ones. -/
theorem toUtf8_inj {s t : QString} (first : WellFormed s) (second : WellFormed t) : toUtf8 s = toUtf8 t ↔ s = t := by
  constructor
  · intro same
    rw [← fromUtf8_toUtf8 first, same, fromUtf8_toUtf8 second]
  · exact congrArg toUtf8

theorem map_fromUtf8_toUtf8 {texts : List QString} (wellFormed : ∀ text ∈ texts, WellFormed text) :
    (texts.map toUtf8).map fromUtf8 = texts := by
  rw [List.map_map]
  exact (List.map_congr_left fun text member => fromUtf8_toUtf8 (wellFormed text member)).trans (List.map_id texts)

theorem units_small {c : Char} (small : c.toNat < 0x10000) : units c = [u c] := if_pos small

theorem WellFormed.append {s t : QString} (front : WellFormed s) (back : WellFormed t) : WellFormed (s ++ t) := by
  obtain ⟨text, rfl⟩ := front
  obtain ⟨more, rfl⟩ := back
  exact ⟨text ++ more, utf16_append text more⟩

/-- Units that are all below the surrogates are well-formed. -/
theorem wellFormed_of_small {s : QString} (small : ∀ c ∈ s, c.toNat < 0xD800) : WellFormed s := by
  induction s with
  | nil => exact ⟨[], rfl⟩
  | cons c s ih =>
    rw [List.forall_mem_cons] at small
    have valid : c.toNat.isValidChar := Or.inl small.1
    have single : WellFormed [c] := by
      refine ⟨[Char.ofNatAux c.toNat valid], ?_⟩
      have value : (Char.ofNatAux c.toNat valid).toNat = c.toNat := rfl
      rw [fromUtf8, utf16_cons, units_small (by omega), u, value, UInt16.ofNat_toNat]
      rfl
    exact single.append (ih small.2)

/-- A unit below the surrogates stands for its own character only. -/
theorem unit_mem_fromUtf8 {c : Char} (small : c.toNat < 0xD800) {text : StdString} :
    u c ∈ fromUtf8 text ↔ c ∈ text := by
  have value : (u c).toNat = c.toNat := UInt16.toNat_ofNat_of_lt' (by simp only [UInt16.size]; omega)
  rw [fromUtf8, utf16, List.mem_flatMap]
  constructor
  · rintro ⟨d, member, within⟩
    rcases Nat.lt_or_ge d.toNat 0x10000 with basic | outside
    · rw [units_small basic, List.mem_singleton] at within
      have same : c.toNat = d.toNat := by
        rw [← value, within]
        exact UInt16.toNat_ofNat_of_lt' basic
      exact Char.toNat_inj.mp same ▸ member
    · -- both units of a pair are surrogates
      have valid : d.toNat < 0xD800 ∨ (0xDFFF < d.toNat ∧ d.toNat < 0x110000) := d.valid
      rw [units, if_neg (Nat.not_lt.mpr outside), List.mem_cons, List.mem_singleton] at within
      rcases within with high | low
      · have same := congrArg UInt16.toNat high
        rw [value, UInt16.toNat_ofNat_of_lt' (by simp only [UInt16.size]; omega)] at same
        omega
      · have same := congrArg UInt16.toNat low
        rw [value, UInt16.toNat_ofNat_of_lt' (by simp only [UInt16.size]; omega)] at same
        omega
  · intro member
    exact ⟨c, member, by rw [units_small (by omega)]; exact List.mem_singleton_self _⟩

end Forserino.Qt
