import Forserino.Qt.Text

/-! Code points and the units that a QString stores for them. -/

set_option autoImplicit false

namespace Forserino.Qt

/-- QChar::isLowSurrogate -/
def isLowSurrogate (c : QChar) : Bool := 0xDC00 ≤ c.toNat && c.toNat < 0xE000

/-- One code point is stored as itself, or as a pair of surrogates. -/
def units (c : Char) : QString :=
  if c.toNat < 0x10000 then [UInt16.ofNat c.toNat]
  else
    [UInt16.ofNat (0xD800 + (c.toNat - 0x10000) / 0x400),
      UInt16.ofNat (0xDC00 + (c.toNat - 0x10000) % 0x400)]

def utf16 (text : List Char) : QString := text.flatMap units

/-- Where the units of the first k code points end. -/
def unitOffset (text : List Char) (k : Nat) : Nat := (utf16 (text.take k)).length

/-- The places of the units that begin a code point. -/
def firstUnits (content : QString) : List Nat :=
  (content.zipIdx.filter fun unit => !isLowSurrogate unit.1).map fun unit => unit.2

/-- Only the second unit of a code point is a low surrogate. -/
theorem units_cases (c : Char) :
    (∃ unit, units c = [unit] ∧ isLowSurrogate unit = false) ∨
      ∃ high low, units c = [high, low] ∧ isLowSurrogate high = false ∧
        isLowSurrogate low = true := by
  have valid : c.toNat < 0xD800 ∨ (0xDFFF < c.toNat ∧ c.toNat < 0x110000) := c.valid
  by_cases small : c.toNat < 0x10000
  · left
    have value : (UInt16.ofNat c.toNat).toNat = c.toNat := UInt16.toNat_ofNat_of_lt' small
    refine ⟨_, if_pos small, ?_⟩
    simp only [isLowSurrogate, value, Bool.and_eq_false_iff, decide_eq_false_iff_not]
    omega
  · right
    refine ⟨_, _, if_neg small, ?_, ?_⟩
    · have value := UInt16.toNat_ofNat_of_lt' (n := 0xD800 + (c.toNat - 0x10000) / 0x400)
        (by simp only [UInt16.size]; omega)
      simp only [isLowSurrogate, value, Bool.and_eq_false_iff, decide_eq_false_iff_not]
      omega
    · have value := UInt16.toNat_ofNat_of_lt' (n := 0xDC00 + (c.toNat - 0x10000) % 0x400)
        (by simp only [UInt16.size]; omega)
      simp only [isLowSurrogate, value, Bool.and_eq_true, decide_eq_true_eq]
      omega

theorem units_length_pos (c : Char) : 0 < (units c).length := by
  rcases units_cases c with ⟨_, shape, _⟩ | ⟨_, _, shape, _⟩ <;> simp [shape]

@[simp] theorem utf16_nil : utf16 [] = [] := rfl

@[simp] theorem utf16_cons (c : Char) (text : List Char) :
    utf16 (c :: text) = units c ++ utf16 text := List.flatMap_cons

@[simp] theorem utf16_append (front back : List Char) :
    utf16 (front ++ back) = utf16 front ++ utf16 back := List.flatMap_append

theorem unitOffset_succ (text : List Char) (k : Nat) (inside : k < text.length) :
    unitOffset text (k + 1) = unitOffset text k + (units text[k]).length := by
  unfold unitOffset
  rw [List.take_add_one, List.getElem?_eq_getElem inside, Option.toList_some, utf16_append,
    List.length_append, utf16_cons, utf16_nil, List.append_nil]

theorem unitOffset_mono (text : List Char) {j k : Nat} (ordered : j ≤ k) :
    unitOffset text j ≤ unitOffset text k := by
  obtain ⟨more, rfl⟩ := Nat.exists_eq_add_of_le ordered
  unfold unitOffset
  rw [List.take_add, utf16_append, List.length_append]
  exact Nat.le_add_right _ _

theorem unitOffset_lt (text : List Char) {k : Nat} (inside : k < text.length) :
    unitOffset text k < (utf16 text).length := by
  have below : unitOffset text (k + 1) ≤ unitOffset text text.length := unitOffset_mono text inside
  have whole : unitOffset text text.length = (utf16 text).length := by
    rw [unitOffset, List.take_length]
  have next := unitOffset_succ text k inside
  have positive := units_length_pos text[k]
  omega

/-- Where every code point has its units, those between two code points are those of the code points between them. -/
theorem midN_flatMap {Point : Type} (units : Point → QString) (points : List Point) {i j : Nat} (ordered : i ≤ j) :
    QString.midN (points.flatMap units) ((points.take i).flatMap units).length
      (((points.take j).flatMap units).length - ((points.take i).flatMap units).length) =
      ((points.drop i).take (j - i)).flatMap units := by
  have front : points.take j = points.take i ++ (points.drop i).take (j - i) := by
    rw [← List.take_add, Nat.add_sub_cancel' ordered]
  have whole : points.flatMap units = (points.take i).flatMap units ++
      (((points.drop i).take (j - i)).flatMap units ++ (points.drop j).flatMap units) := by
    rw [← List.append_assoc, ← List.flatMap_append, ← List.flatMap_append, ← front, List.take_append_drop]
  have length : ((points.take j).flatMap units).length - ((points.take i).flatMap units).length =
      (((points.drop i).take (j - i)).flatMap units).length := by
    rw [front, List.flatMap_append, List.length_append, Nat.add_sub_cancel_left]
  rw [length, QString.midN, whole, List.drop_left, List.take_left]

theorem midN_utf16 (text : List Char) {i j : Nat} (ordered : i ≤ j) :
    (utf16 text).midN (unitOffset text i) (unitOffset text j - unitOffset text i) =
      utf16 ((text.drop i).take (j - i)) := midN_flatMap units text ordered

/-- A content has at least one unit for each code point. -/
theorem length_le_utf16 (text : List Char) : text.length ≤ (utf16 text).length := by
  induction text with
  | nil => exact Nat.le_refl 0
  | cons c text ih =>
    have positive := units_length_pos c
    rw [utf16_cons, List.length_append, List.length_cons]
    omega

/-- The scan that starts at a place, so that it can be followed along the text. -/
theorem firstUnits_from (text : List Char) (place : Nat) :
    (((utf16 text).zipIdx place).filter fun unit => !isLowSurrogate unit.1).map (fun unit => unit.2) =
      (List.range text.length).map fun k => place + unitOffset text k := by
  induction text generalizing place with
  | nil => rfl
  | cons c text ih =>
    have step : ∀ k, unitOffset (c :: text) (k + 1) = (units c).length + unitOffset text k := by
      intro k
      simp [unitOffset]
    have start : unitOffset (c :: text) 0 = 0 := rfl
    rw [utf16_cons, List.zipIdx_append, List.filter_append, List.map_append, List.length_cons,
      List.range_succ_eq_map, List.map_cons, List.map_map, start]
    have rest : (List.range text.length).map ((fun k => place + unitOffset (c :: text) k) ∘ Nat.succ) =
        (List.range text.length).map fun k => place + (units c).length + unitOffset text k := by
      apply List.map_congr_left
      intro k _
      simp only [Function.comp_apply, Nat.succ_eq_add_one, step, Nat.add_assoc]
    rw [rest, ← ih (place + (units c).length)]
    rcases units_cases c with ⟨unit, shape, plain⟩ | ⟨high, low, shape, plain, pair⟩
    · simp [shape, plain]
    · simp [shape, plain, pair]

theorem firstUnits_utf16 (text : List Char) :
    firstUnits (utf16 text) = (List.range text.length).map (unitOffset text) := by
  have scanned := firstUnits_from text 0
  simp only [Nat.zero_add] at scanned
  exact scanned

/-- Of any content, the places are in order and inside. -/
theorem firstUnits_sublist (content : QString) :
    (firstUnits content).Sublist (List.range content.length) := by
  have places : content.zipIdx.map (fun unit => unit.2) = List.range content.length := by
    rw [List.zipIdx_map_snd, List.range_eq_range']
  rw [← places]
  exact (List.filter_sublist).map _

theorem firstUnits_ordered (content : QString) {i j start stop : Nat} (ordered : i ≤ j)
    (first : (firstUnits content)[i]? = some start) (last : (firstUnits content)[j]? = some stop) :
    start ≤ stop ∧ stop < content.length := by
  have within := firstUnits_sublist content
  have increasing : (firstUnits content).Pairwise (· < ·) := List.pairwise_lt_range.sublist within
  constructor
  · obtain ⟨iInside, rfl⟩ := List.getElem?_eq_some_iff.mp first
    obtain ⟨jInside, rfl⟩ := List.getElem?_eq_some_iff.mp last
    rcases Nat.eq_or_lt_of_le ordered with rfl | before
    · exact Nat.le_refl _
    · exact Nat.le_of_lt (List.pairwise_iff_getElem.mp increasing i j iInside jInside before)
  · exact List.mem_range.mp (within.subset (List.mem_of_getElem? last))

end Forserino.Qt
