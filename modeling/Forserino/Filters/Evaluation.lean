import Mathlib.Data.List.Infix
import Forserino.Qt.Variant
import Forserino.Filters.Parser

/-! The execute functions of the expressions.

Integer arithmetic is a parameter, in a monad of its choice: with the arithmetic of
int an evaluation can end in undefined behaviour, with that of the integers it
always has a value.
-/

set_option autoImplicit false

namespace Forserino.Filters

open Forserino.Qt

abbrev ContextMap := List (QString × QVariant)

/-- QMap::value, which is an invalid variant for an absent key. -/
def ContextMap.value (context : ContextMap) (name : QString) : QVariant :=
  (context.lookup name).getD .invalid

section

variable (qt : QtTables)

def convertVariantTypes (a b : QVariant) (type : MetaType) : Option (QVariant × QVariant) :=
  match a.convert qt type with
  | none => none
  | some a => (b.convert qt type).map (fun b => (a, b))

/-- looselyCompareVariants, in the Qt 6 build. -/
def looselyCompareVariants (lhs rhs : QVariant) : Bool :=
  if lhs.metaType ≠ rhs.metaType then
    if rhs.canConvert lhs.metaType then
      match rhs.convert qt lhs.metaType with
      | some rhs => lhs.equals rhs
      | none => false
    else
      -- the opposite conversion, after the swap
      match lhs.convert qt rhs.metaType with
      | some lhs => rhs.equals lhs
      | none => false
  else lhs.equals rhs

/-- QString::compare with Qt::CaseInsensitive is zero. -/
def sameIgnoringCase (s t : QString) : Bool := qt.caseFold s == qt.caseFold t

namespace BinaryOperation

def equal (left right : QVariant) : Bool :=
  if left.metaType = .qString ∧ right.metaType = .qString then
    sameIgnoringCase qt (left.toString qt) (right.toString qt)
  else looselyCompareVariants qt left right

def logical (combine : Bool → Bool → Bool) (left right : QVariant) : Bool :=
  match convertVariantTypes qt left right .bool with
  | some (a, b) => combine a.toBool b.toBool
  | none => false

def compare (test : Int → Int → Bool) (left right : QVariant) : Bool :=
  match convertVariantTypes qt left right .int with
  | some (a, b) => test a.toInt b.toInt
  | none => false

def contains (left right : QVariant) : Bool :=
  if left.metaType = .qStringList ∧ right.canConvert .qString then
    left.toStringList.any (sameIgnoringCase qt (right.toString qt))
  else if left.metaType = .qVariantMap ∧ right.canConvert .qString then
    left.toMap.any (fun entry => entry.1 == right.toString qt)
  else if left.metaType = .qVariantList then left.toList.any (fun v => v.equals right)
  else if left.canConvert .qString ∧ right.canConvert .qString then
    decide (qt.caseFold (right.toString qt) <:+: qt.caseFold (left.toString qt))
  else false

/-- STARTS_WITH and ENDS_WITH, which differ in the end they look at. -/
def edge (atEnd : Bool) (left right : QVariant) : Bool :=
  if left.metaType = .qStringList ∧ right.canConvert .qString then
    let list := left.toStringList
    (if atEnd then list.getLast? else list.head?).any (sameIgnoringCase qt (right.toString qt))
  else if left.metaType = .qVariantList then
    let list := left.toList
    (if atEnd then list.getLast? else list.head?).any (fun v => v.equals right)
  else if left.canConvert .qString ∧ right.canConvert .qString then
    let part := qt.caseFold (right.toString qt)
    let whole := qt.caseFold (left.toString qt)
    if atEnd then part.isSuffixOf whole else part.isPrefixOf whole
  else false

/-- QRegularExpressionMatch::captured -/
def captured (texts : List QString) (n : Int) : QString :=
  if n < 0 then [] else texts.getD n.toNat []

def regexMatch (left right : QVariant) : QVariant :=
  if !left.canConvert .qString then .bool false
  else
    match right with
    | .regularExpression pattern caseInsensitive =>
        .bool (qt.regexMatch pattern caseInsensitive (left.toString qt)).isSome
    | .variantList [.regularExpression pattern caseInsensitive, .int n] =>
        match qt.regexMatch pattern caseInsensitive (left.toString qt) with
        | some texts => .string (captured texts n)
        | none => .string []
    | _ => .bool false

variable {m : Type → Type} [Monad m] (arith : TokenType → Int → Int → m Int)

/-- The cases that convert both operands to int and fall back to zero. -/
def arithmetic (op : TokenType) (left right : QVariant) : m QVariant :=
  match convertVariantTypes qt left right .int with
  | some (a, b) => do return .int (← arith op a.toInt b.toInt)
  | none => return .int 0

/-- BinaryOperation::execute on the values of the operands. -/
def execute (op : TokenType) (left right : QVariant) : m QVariant :=
  match op with
  | .plus =>
      if left.metaType = .qString ∧ right.canConvert .qString then
        return .string (left.toString qt ++ right.toString qt)
      else arithmetic qt arith .plus left right
  | .minus => arithmetic qt arith .minus left right
  | .multiply => arithmetic qt arith .multiply left right
  | .divide => arithmetic qt arith .divide left right
  | .mod => arithmetic qt arith .mod left right
  | .or => return .bool (logical qt (· || ·) left right)
  | .and => return .bool (logical qt (· && ·) left right)
  | .eq => return .bool (equal qt left right)
  | .neq => return .bool (!equal qt left right)
  | .lt => return .bool (compare qt (· < ·) left right)
  | .gt => return .bool (compare qt (· > ·) left right)
  | .lte => return .bool (compare qt (· ≤ ·) left right)
  | .gte => return .bool (compare qt (· ≥ ·) left right)
  | .contains => return .bool (contains qt left right)
  | .startsWith => return .bool (edge qt false left right)
  | .endsWith => return .bool (edge qt true left right)
  | .regexMatch => return regexMatch qt left right
  | _ => return .bool false

end BinaryOperation

def UnaryOperation.execute (op : TokenType) (right : QVariant) : QVariant :=
  match op with
  | .not => .bool (right.canConvert .bool && !((right.convert qt .bool).getD .invalid).toBool)
  | _ => .bool false

/-- ListExpression::execute on the values of the items. -/
def ListExpression.execute (results : List QVariant) : QVariant :=
  if results.all (fun v => v.metaType == .qString) then .stringList (results.map (QVariant.toString qt))
  else .variantList results

variable {m : Type → Type} [Monad m] (arith : TokenType → Int → Int → m Int) (context : ContextMap)

mutual

/-- Filter::execute -/
def Expr.execute : Expr → m QVariant
  | .value (.int n) => return .int n
  | .value (.string s) => return .string s
  | .value (.identifier name) => return context.value name
  | .regex pattern caseInsensitive => return .regularExpression pattern caseInsensitive
  | .unary op right => do return UnaryOperation.execute qt op (← right.execute)
  | .binary op left right => do
      let leftValue ← left.execute
      let rightValue ← right.execute
      BinaryOperation.execute qt arith op leftValue rightValue
  | .list items => do return ListExpression.execute qt (← executeAll items)

def executeAll : List Expr → m (List QVariant)
  | [] => return []
  | item :: rest => do
      let value ← item.execute
      let values ← executeAll rest
      return value :: values

end

end

/-! ## The arithmetic of int -/

inductive ArithmeticFault where
  | divisionByZero
  | overflow
  deriving DecidableEq, Repr

/-- The five operators over the integers; division truncates. -/
def exactArithmetic (op : TokenType) (a b : Int) : Int :=
  match op with
  | .plus => a + b
  | .minus => a - b
  | .multiply => a * b
  | .divide => a.tdiv b
  | .mod => a.tmod b
  | _ => 0

/-- The operators of int, with what C++ leaves undefined as a fault. A remainder is
undefined where the quotient is. -/
def checkedArithmetic (op : TokenType) (a b : Int) : Except ArithmeticFault Int :=
  if (op = .divide ∨ op = .mod) ∧ b = 0 then .error .divisionByZero
  else if op = .mod ∧ ¬ inIntRange (a.tdiv b) then .error .overflow
  else if inIntRange (exactArithmetic op a b) then .ok (exactArithmetic op a b)
  else .error .overflow

end Forserino.Filters
