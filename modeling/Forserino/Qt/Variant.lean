import Forserino.Qt.Text

/-! QVariant for the types that filters evaluate to, with the conversions and the
equality of Qt 6.

What Qt takes from tables and engines that are not part of the modelled code
(Unicode case folding, colour names, regular expressions) is a parameter.
-/

set_option autoImplicit false

namespace Forserino.Qt

/-- A colour; an invalid one stands for no colour at all. -/
structure QColor where
  valid : Bool
  alpha : UInt16
  red : UInt16
  green : UInt16
  blue : UInt16
  deriving DecidableEq, Repr

structure QtTables where
  /-- Simple case folding, under which case insensitive comparison is equality. -/
  caseFold : QString → QString
  /-- QColor::name, as QVariant calls it. -/
  colorName : QColor → QString
  /-- QColor::fromString, none for a text that names no colour. -/
  colorFromString : QString → Option QColor
  /-- QRegularExpression::match on pattern, case insensitivity and subject: the
  captured texts of the first match, the whole match first. -/
  regexMatch : QString → Bool → QString → Option (List QString)

/-- Tables for ASCII text, with no named colours and patterns that match nothing. -/
def asciiTables : QtTables where
  caseFold s := s.map fun c => if 65 ≤ c.toNat ∧ c.toNat ≤ 90 then c + 32 else c
  colorName _ := qs "#000000"
  colorFromString _ := none
  regexMatch _ _ _ := none

inductive QVariant where
  | invalid
  | bool (value : Bool)
  | int (value : Int)
  | string (value : QString)
  | color (value : QColor)
  | regularExpression (pattern : QString) (caseInsensitive : Bool)
  | stringList (values : List QString)
  | variantList (values : List QVariant)
  | variantMap (entries : List (QString × QVariant))
  deriving Repr

inductive MetaType where
  | unknown | bool | int | qString | qColor | qRegularExpression | qStringList | qVariantList | qVariantMap
  deriving DecidableEq, Repr

namespace QVariant

def metaType : QVariant → MetaType
  | invalid => .unknown
  | bool _ => .bool
  | int _ => .int
  | string _ => .qString
  | color _ => .qColor
  | regularExpression _ _ => .qRegularExpression
  | stringList _ => .qStringList
  | variantList _ => .qVariantList
  | variantMap _ => .qVariantMap

/-- QVariant::canConvert looks at the types only. -/
def canConvert (v : QVariant) (target : MetaType) : Bool :=
  match v.metaType, target with
  | .unknown, _ | _, .unknown => false
  | .bool, .int | .bool, .qString => true
  | .int, .bool | .int, .qString => true
  | .qString, .bool | .qString, .int | .qString, .qColor | .qString, .qStringList => true
  | .qColor, .qString => true
  | .qStringList, .qString | .qStringList, .qVariantList => true
  | .qVariantList, .qStringList => true
  | source, target => source == target

/-- The value of a long long in an int. -/
def narrow (n : Int) : Int := n.bmod 4294967296

variable (qt : QtTables)

/-- The conversion to QString; a string list is converted when it has one entry. -/
def asString : QVariant → Option QString
  | bool b => some (if b then qs "true" else qs "false")
  | int n => some (number n)
  | string s => some s
  | color c => some (qt.colorName c)
  | stringList [s] => some s
  | _ => none

/-- QVariant::toString -/
def toString (v : QVariant) : QString := (v.asString qt).getD []

/-- Every text but these three is true. -/
def stringToBool (s : QString) : Bool :=
  !(s == [] || s == qs "0" || qt.caseFold s == qt.caseFold (qs "false"))

/-- QVariant::convert -/
def convert (v : QVariant) (target : MetaType) : Option QVariant :=
  match v, target with
  | bool b, .int => some (int (if b then 1 else 0))
  | int n, .bool => some (bool (n != 0))
  | string s, .bool => some (bool (stringToBool qt s))
  | string s, .int => (QString.toLongLong s).map (fun n => int (narrow n))
  | string s, .qColor => (qt.colorFromString s).map color
  | string s, .qStringList => some (stringList [s])
  | stringList values, .qVariantList => some (variantList (values.map string))
  | variantList values, .qStringList => some (stringList (values.map (toString qt)))
  | v, target =>
      if v.metaType = .unknown then none
      else if v.metaType = target then some v
      else if target = .qString then (v.asString qt).map string
      else none

/-- What toInt reads of a variant that was converted to int; the accessors below
are called on variants of their type as well. -/
def toInt : QVariant → Int
  | int n => n
  | _ => 0

def toBool : QVariant → Bool
  | bool b => b
  | _ => false

def toStringList : QVariant → List QString
  | stringList values => values
  | _ => []

def toList : QVariant → List QVariant
  | variantList values => values
  | _ => []

def toMap : QVariant → List (QString × QVariant)
  | variantMap entries => entries
  | _ => []

mutual

/-- QVariant::operator==; bools and ints compare as numbers. -/
def equals : QVariant → QVariant → Bool
  | invalid, invalid => true
  | bool a, bool b => a == b
  | bool a, int n => (if a then 1 else 0) == n
  | int n, bool a => n == (if a then 1 else 0)
  | int m, int n => m == n
  | string s, string t => s == t
  | color c, color d => c == d
  | regularExpression p i, regularExpression q j => p == q && i == j
  | stringList s, stringList t => s == t
  | variantList vs, variantList ws => equalLists vs ws
  | variantMap es, variantMap fs => equalMaps es fs
  | _, _ => false

def equalLists : List QVariant → List QVariant → Bool
  | [], [] => true
  | v :: vs, w :: ws => equals v w && equalLists vs ws
  | _, _ => false

/-- The entries of a QMap are in the order of their keys. -/
def equalMaps : List (QString × QVariant) → List (QString × QVariant) → Bool
  | [], [] => true
  | (k, v) :: es, (l, w) :: fs => k == l && equals v w && equalMaps es fs
  | _, _ => false

end

end QVariant

/-! ## Conversions that filters rely on -/

namespace QVariant

variable (qt : QtTables)

@[simp] theorem convert_int (n : Int) : (int n).convert qt .int = some (int n) := rfl

@[simp] theorem convert_bool (b : Bool) : (bool b).convert qt .bool = some (bool b) := rfl

end QVariant

end Forserino.Qt
