import Forserino.Qt.Text
import Mathlib.Algebra.Order.Field.Rat

/-! QJsonObject and QJsonValue, as far as they are written and read. A value that is not
there is undefined; every conversion of it, or of a value of another type, gives a default.
-/

set_option autoImplicit false

namespace Forserino.Qt

inductive QJsonValue where
  | null
  | bool (value : Bool)
  | double (value : ℚ)
  | string (value : QString)
  | array (items : List QJsonValue)
  | object (members : List (QString × QJsonValue))
  deriving Repr

abbrev QJsonObject := List (QString × QJsonValue)

namespace QJsonObject

def insert (obj : QJsonObject) (key : QString) (value : QJsonValue) : QJsonObject :=
  (key, value) :: obj.filter fun member => member.1 != key

def value (obj : QJsonObject) (key : QString) : Option QJsonValue :=
  (obj.find? fun member => member.1 == key).map Prod.snd

def contains (obj : QJsonObject) (key : QString) : Bool := (obj.value key).isSome

@[simp] theorem value_nil (key : QString) : QJsonObject.value [] key = none := rfl

@[simp] theorem value_insert (obj : QJsonObject) (key : QString) (value : QJsonValue) :
    (obj.insert key value).value key = some value := by
  simp [insert, QJsonObject.value]

theorem value_insert_other (obj : QJsonObject) {key other : QString} (differ : other ≠ key) (value : QJsonValue) :
    (obj.insert key value).value other = obj.value other := by
  have elsewhere : (key == other) = false := beq_eq_false_iff_ne.mpr differ.symm
  unfold insert QJsonObject.value
  rw [List.find?_cons, elsewhere]
  simp only
  rw [List.find?_filter]
  congr 2
  funext member
  by_cases same : member.1 = other
  · simp [same, differ]
  · have absent : (member.1 == other) = false := beq_eq_false_iff_ne.mpr same
    simp [absent]

end QJsonObject

/-! ## Conversions -/

namespace QJsonValue

def toDouble (value : Option QJsonValue) (defaultValue : ℚ) : ℚ :=
  match value with
  | some (.double value) => value
  | _ => defaultValue

def toBool (value : Option QJsonValue) (defaultValue : Bool) : Bool :=
  match value with
  | some (.bool value) => value
  | _ => defaultValue

/-- Only a number without a fraction that an int can hold is converted. -/
def toInt (value : Option QJsonValue) (defaultValue : Int) : Int :=
  match value with
  | some (.double value) =>
      if value.den = 1 ∧ -2 ^ 31 ≤ value.num ∧ value.num < 2 ^ 31 then value.num else defaultValue
  | _ => defaultValue

def isString : Option QJsonValue → Bool
  | some (.string _) => true
  | _ => false

def toString : Option QJsonValue → QString
  | some (.string value) => value
  | _ => []

def toArray : Option QJsonValue → List QJsonValue
  | some (.array items) => items
  | _ => []

def toObject : Option QJsonValue → QJsonObject
  | some (.object members) => members
  | _ => []

/-- The comparison of a value with a string. -/
def equals (value : Option QJsonValue) (text : QString) : Bool :=
  match value with
  | some (.string value) => value == text
  | _ => false

end QJsonValue

/-- An object in an array of an object is smaller than that. -/
theorem sizeOf_items {obj : QJsonObject} {key : QString} {val : QJsonValue}
    (member : val ∈ QJsonValue.toArray (obj.value key)) : sizeOf (QJsonValue.toObject (some val)) < sizeOf obj := by
  unfold QJsonValue.toArray at member
  split at member
  · next items there =>
    obtain ⟨⟨name, value⟩, found, rfl⟩ := Option.map_eq_some_iff.mp there
    have inObject := List.sizeOf_lt_of_mem (List.mem_of_find?_eq_some found)
    have inArray := List.sizeOf_lt_of_mem member
    have inValue : sizeOf (QJsonValue.toObject (some val)) ≤ sizeOf val := by
      unfold QJsonValue.toObject
      split
      · next members same =>
        obtain rfl := Option.some.inj same
        simp
      · cases val <;> simp
    simp only [Prod.mk.sizeOf_spec, QJsonValue.array.sizeOf_spec] at inObject
    omega
  · cases member

end Forserino.Qt
