import Forserino.Filters.Evaluation

/-! Filter equality in both directions.

looselyCompareVariants converts the right operand to the type of the left one, so that the two
directions of a comparison go through two different conversions. Every pair of types that has a
conversion has one in each direction.
-/

set_option autoImplicit false

namespace Forserino.Qt.QVariant

mutual

theorem equals_comm : (v w : QVariant) → v.equals w = w.equals v
  | .invalid, w => by cases w <;> rfl
  | .bool a, w => by
    cases w with
    | bool b => exact Bool.beq_comm
    | int n => exact Bool.beq_comm
    | _ => rfl
  | .int m, w => by
    cases w with
    | bool b => exact Bool.beq_comm
    | int n => exact Bool.beq_comm
    | _ => rfl
  | .string s, w => by
    cases w with
    | string t => exact Bool.beq_comm
    | _ => rfl
  | .color c, w => by
    cases w with
    | color d => exact Bool.beq_comm
    | _ => rfl
  | .regularExpression p i, w => by
    cases w with
    | regularExpression q j => exact congrArg₂ and Bool.beq_comm Bool.beq_comm
    | _ => rfl
  | .stringList s, w => by
    cases w with
    | stringList t => exact Bool.beq_comm
    | _ => rfl
  | .variantList vs, w => by
    cases w with
    | variantList ws => exact equalLists_comm vs ws
    | _ => rfl
  | .variantMap es, w => by
    cases w with
    | variantMap fs => exact equalMaps_comm es fs
    | _ => rfl

theorem equalLists_comm : (vs ws : List QVariant) → equalLists vs ws = equalLists ws vs
  | [], [] => rfl
  | [], _ :: _ => rfl
  | _ :: _, [] => rfl
  | v :: vs, w :: ws => congrArg₂ and (equals_comm v w) (equalLists_comm vs ws)

theorem equalMaps_comm : (es fs : List (QString × QVariant)) → equalMaps es fs = equalMaps fs es
  | [], [] => rfl
  | [], _ :: _ => rfl
  | _ :: _, [] => rfl
  | (_, v) :: es, (_, w) :: fs =>
    congrArg₂ and (congrArg₂ and Bool.beq_comm (equals_comm v w)) (equalMaps_comm es fs)

end

end Forserino.Qt.QVariant

namespace Forserino.Filters

open Forserino.Qt QVariant

variable (qt : QtTables)

/-- Where the two directions agree. Of all pairs of types only these have two conversions that can disagree. -/
def Agree (left right : QVariant) : Prop :=
  match left, right with
  | .bool b, .int n | .int n, .bool b => b = true → n = 0 ∨ n = 1
  | .bool b, .string s | .string s, .bool b =>
      stringToBool qt s = b ↔ s = if b then qs "true" else qs "false"
  | .int n, .string s | .string s, .int n => (QString.toLongLong s).map narrow = some n ↔ s = number n
  | .color c, .string s | .string s, .color c => qt.colorFromString s = some c ↔ s = qt.colorName c
  | .stringList texts, .variantList values | .variantList values, .stringList texts =>
      values.map (QVariant.toString qt) = texts ↔ values = texts.map .string
  | _, _ => True

theorem equals_string (v : QVariant) (s : QString) : v.equals (.string s) = true ↔ v = .string s := by
  cases v with
  | string t => simp [QVariant.equals]
  | _ => simp [QVariant.equals]

theorem equalLists_strings (values : List QVariant) (texts : List QString) :
    equalLists values (texts.map .string) = true ↔ values = texts.map .string := by
  induction values generalizing texts with
  | nil => cases texts <;> simp [equalLists]
  | cons v values ih =>
    cases texts with
    | nil => simp [equalLists]
    | cons s texts => rw [List.map_cons, equalLists, Bool.and_eq_true, equals_string, ih, List.cons.injEq]

/-! ## The pairs with two conversions -/

/-- Where the right operand can be converted, its conversion is compared. -/
theorem equal_convert {left right : QVariant} (differ : left.metaType ≠ right.metaType)
    (can : right.canConvert left.metaType = true) :
    BinaryOperation.equal qt left right = (right.convert qt left.metaType).any (left.equals ·) := by
  have notBoth : ¬ (left.metaType = .qString ∧ right.metaType = .qString) :=
    fun both => differ (both.1.trans both.2.symm)
  rw [BinaryOperation.equal, if_neg notBoth, looselyCompareVariants, if_pos differ, if_pos can]
  cases right.convert qt left.metaType <;> rfl

/-- The two directions of a pair, each through its own conversion. -/
theorem equal_pair {left right : QVariant} (differ : left.metaType ≠ right.metaType)
    (can : right.canConvert left.metaType = true) (back : left.canConvert right.metaType = true) :
    BinaryOperation.equal qt left right = BinaryOperation.equal qt right left ↔
      ((right.convert qt left.metaType).any (left.equals ·) = true ↔
        (left.convert qt right.metaType).any (right.equals ·) = true) := by
  rw [equal_convert qt differ can, equal_convert qt differ.symm back, Bool.eq_iff_iff]

theorem equal_bool_int (b : Bool) (n : Int) :
    BinaryOperation.equal qt (.bool b) (.int n) = BinaryOperation.equal qt (.int n) (.bool b) ↔
      (b = true → n = 0 ∨ n = 1) := by
  rw [@equal_pair qt (.bool b) (.int n) nofun rfl rfl]
  change ((b == (n != 0)) = true ↔ (n == if b then 1 else 0) = true) ↔ _
  rw [beq_iff_eq, beq_iff_eq]
  cases b with
  | true =>
    have only : (n ≠ 0 ↔ n = 1) ↔ n = 0 ∨ n = 1 := by omega
    rw [eq_comm, bne_iff_ne, if_pos rfl, only]
    exact ⟨fun agrees _ => agrees, fun agrees => agrees rfl⟩
  | false => simp

theorem equal_bool_string (b : Bool) (s : QString) :
    BinaryOperation.equal qt (.bool b) (.string s) = BinaryOperation.equal qt (.string s) (.bool b) ↔
      (stringToBool qt s = b ↔ s = if b then qs "true" else qs "false") := by
  rw [@equal_pair qt (.bool b) (.string s) nofun rfl rfl]
  change ((b == stringToBool qt s) = true ↔ (s == if b then qs "true" else qs "false") = true) ↔ _
  rw [beq_iff_eq, beq_iff_eq, eq_comm]

/-- A conversion that reads a text, compared with a value. -/
theorem any_equals {α : Type} [DecidableEq α] (read : Option α) (a : α) :
    read.any (a == ·) = true ↔ read = some a := by
  cases read with
  | none => exact ⟨nofun, nofun⟩
  | some b => rw [Option.any_some, beq_iff_eq, Option.some.injEq, eq_comm]

theorem equal_int_string (n : Int) (s : QString) :
    BinaryOperation.equal qt (.int n) (.string s) = BinaryOperation.equal qt (.string s) (.int n) ↔
      ((QString.toLongLong s).map narrow = some n ↔ s = number n) := by
  rw [@equal_pair qt (.int n) (.string s) nofun rfl rfl, ← any_equals, Option.any_map]
  change (((QString.toLongLong s).map fun m => QVariant.int (narrow m)).any _ = true ↔ (s == number n) = true) ↔ _
  rw [Option.any_map, beq_iff_eq]
  exact Iff.rfl

theorem equal_color_string (c : QColor) (s : QString) :
    BinaryOperation.equal qt (.color c) (.string s) = BinaryOperation.equal qt (.string s) (.color c) ↔
      (qt.colorFromString s = some c ↔ s = qt.colorName c) := by
  rw [@equal_pair qt (.color c) (.string s) nofun rfl rfl, ← any_equals]
  change (((qt.colorFromString s).map QVariant.color).any _ = true ↔ (s == qt.colorName c) = true) ↔ _
  rw [Option.any_map, beq_iff_eq]
  exact Iff.rfl

theorem equal_lists (texts : List QString) (values : List QVariant) :
    BinaryOperation.equal qt (.stringList texts) (.variantList values) =
        BinaryOperation.equal qt (.variantList values) (.stringList texts) ↔
      (values.map (QVariant.toString qt) = texts ↔ values = texts.map .string) := by
  rw [@equal_pair qt (.stringList texts) (.variantList values) nofun rfl rfl]
  change ((texts == values.map (QVariant.toString qt)) = true ↔ equalLists values (texts.map .string) = true) ↔ _
  rw [beq_iff_eq, equalLists_strings, eq_comm]

/-- A list of one text is converted to that text, and a text to such a list. -/
theorem equal_string_list (s : QString) (texts : List QString) :
    BinaryOperation.equal qt (.string s) (.stringList texts) =
      BinaryOperation.equal qt (.stringList texts) (.string s) := by
  rw [@equal_pair qt (.string s) (.stringList texts) nofun rfl rfl]
  change _ ↔ (texts == [s]) = true
  rw [beq_iff_eq]
  match texts with
  | [] => exact ⟨nofun, nofun⟩
  | [t] =>
    change (s == t) = true ↔ [t] = [s]
    rw [beq_iff_eq, List.cons.injEq, eq_comm, and_iff_left rfl]
  | t :: t' :: rest => exact ⟨nofun, nofun⟩

/-! ## All pairs -/

theorem equal_same {left right : QVariant} (same : left.metaType = right.metaType) :
    BinaryOperation.equal qt left right = BinaryOperation.equal qt right left := by
  unfold BinaryOperation.equal looselyCompareVariants
  rw [same]
  by_cases strings : right.metaType = .qString
  · rw [if_pos ⟨strings, strings⟩, if_pos ⟨strings, strings⟩]
    exact Bool.beq_comm
  · have notBoth : ¬ (right.metaType = .qString ∧ right.metaType = .qString) := fun both => strings both.1
    have noOther : ¬ right.metaType ≠ right.metaType := fun differ => differ rfl
    rw [if_neg notBoth, if_neg notBoth, if_neg noOther, if_neg noOther]
    exact equals_comm left right

/-- The two directions agree on every pair of values that has no two conversions, and on the others
where the conversions do. -/
theorem equal_comm_iff (left right : QVariant) :
    BinaryOperation.equal qt left right = BinaryOperation.equal qt right left ↔ Agree qt left right := by
  cases left with
  | bool b =>
    cases right with
    | bool b' => exact iff_of_true (equal_same qt rfl) trivial
    | int n => exact equal_bool_int qt b n
    | string s => exact equal_bool_string qt b s
    | _ => exact iff_of_true rfl trivial
  | int n =>
    cases right with
    | bool b => exact eq_comm.trans (equal_bool_int qt b n)
    | int n' => exact iff_of_true (equal_same qt rfl) trivial
    | string s => exact equal_int_string qt n s
    | _ => exact iff_of_true rfl trivial
  | string s =>
    cases right with
    | bool b => exact eq_comm.trans (equal_bool_string qt b s)
    | int n => exact eq_comm.trans (equal_int_string qt n s)
    | string t => exact iff_of_true (equal_same qt rfl) trivial
    | color c => exact eq_comm.trans (equal_color_string qt c s)
    | stringList texts => exact iff_of_true (equal_string_list qt s texts) trivial
    | _ => exact iff_of_true rfl trivial
  | color c =>
    cases right with
    | string s => exact equal_color_string qt c s
    | color d => exact iff_of_true (equal_same qt rfl) trivial
    | _ => exact iff_of_true rfl trivial
  | stringList texts =>
    cases right with
    | string s => exact iff_of_true (equal_string_list qt s texts).symm trivial
    | stringList texts' => exact iff_of_true (equal_same qt rfl) trivial
    | variantList values => exact equal_lists qt texts values
    | _ => exact iff_of_true rfl trivial
  | variantList values =>
    cases right with
    | stringList texts => exact eq_comm.trans (equal_lists qt texts values)
    | variantList values' => exact iff_of_true (equal_same qt rfl) trivial
    | _ => exact iff_of_true rfl trivial
  | regularExpression pattern caseInsensitive =>
    cases right with
    | regularExpression pattern' caseInsensitive' => exact iff_of_true (equal_same qt rfl) trivial
    | _ => exact iff_of_true rfl trivial
  | variantMap entries =>
    cases right with
    | variantMap entries' => exact iff_of_true (equal_same qt rfl) trivial
    | _ => exact iff_of_true rfl trivial
  | invalid =>
    cases right with
    | _ => exact iff_of_true rfl trivial

/-- A comparison in both directions, and the negated one. -/
theorem equality_both_ways (context : ContextMap) {a b : Expr} {left right : QVariant}
    (first : a.execute qt checkedArithmetic context = .ok left)
    (second : b.execute qt checkedArithmetic context = .ok right) :
    ∃ there back, (Expr.binary .eq a b).execute qt checkedArithmetic context = .ok (.bool there) ∧
      (Expr.binary .eq b a).execute qt checkedArithmetic context = .ok (.bool back) ∧
      (Expr.binary .neq a b).execute qt checkedArithmetic context = .ok (.bool !there) ∧
      (there = back ↔ Agree qt left right) := by
  refine ⟨BinaryOperation.equal qt left right, BinaryOperation.equal qt right left, ?_, ?_, ?_,
    equal_comm_iff qt left right⟩
  · rw [Expr.execute, first, second]
    rfl
  · rw [Expr.execute, first, second]
    rfl
  · rw [Expr.execute, first, second]
    rfl

def one : Expr := .value (.int 1)

def oneText (text : String) : Expr := .value (.string (qs text))

/-- The comparison 1 == "1" agrees with "1" == 1. -/
theorem equality_both_ways_one :
    ∃ there back, (Expr.binary .eq one (oneText "1")).execute asciiTables checkedArithmetic [] = .ok (.bool there) ∧
      (Expr.binary .eq (oneText "1") one).execute asciiTables checkedArithmetic [] = .ok (.bool back) ∧
      (Expr.binary .neq one (oneText "1")).execute asciiTables checkedArithmetic [] = .ok (.bool !there) ∧
      (there = back ↔ Agree asciiTables (.int 1) (.string (qs "1"))) :=
  equality_both_ways asciiTables [] rfl rfl

/-- The comparison 1 == "01" reads the text as a number, and "01" == 1 prints the number as a text. -/
theorem equality_one_way :
    (Expr.binary .eq one (oneText "01")).synthesizeType [] = .typeClass .bool ∧
      (Expr.binary .eq (oneText "01") one).synthesizeType [] = .typeClass .bool ∧
      (Expr.binary .eq one (oneText "01")).execute asciiTables checkedArithmetic [] = .ok (.bool true) ∧
      (Expr.binary .eq (oneText "01") one).execute asciiTables checkedArithmetic [] = .ok (.bool false) := by
  have there : BinaryOperation.equal asciiTables (.int 1) (.string (qs "01")) = true := by decide
  have back : BinaryOperation.equal asciiTables (.string (qs "01")) (.int 1) = false := by decide
  exact ⟨rfl, rfl, congrArg (fun b => Except.ok (QVariant.bool b)) there,
    congrArg (fun b => Except.ok (QVariant.bool b)) back⟩

end Forserino.Filters
