import Forserino.Filters.Evaluation

/-! Which filters evaluate without undefined arithmetic.

The nodes that calculate, with the operands they have over the unbounded integers,
are listed without any reference to the range of int; an evaluation with the
arithmetic of int is defined exactly when each of them is safe.
-/

set_option autoImplicit false

namespace Forserino.Filters

open Forserino.Qt

/-- One calculation: an operator and its two integers. -/
structure ArithmeticNode where
  op : TokenType
  left : Int
  right : Int
  deriving DecidableEq, Repr

/-- No division by zero, no quotient and no result out of the range of int. -/
def ArithmeticNode.Safe (node : ArithmeticNode) : Prop :=
  (node.op = .divide ∨ node.op = .mod → node.right ≠ 0 ∧ inIntRange (node.left.tdiv node.right) = true) ∧
    inIntRange (exactArithmetic node.op node.left node.right) = true

instance (node : ArithmeticNode) : Decidable node.Safe :=
  inferInstanceAs (Decidable ((_ → _) ∧ _))

theorem checkedArithmetic_of_safe {op : TokenType} {a b : Int} (safe : ArithmeticNode.Safe ⟨op, a, b⟩) :
    checkedArithmetic op a b = .ok (exactArithmetic op a b) := by
  obtain ⟨division, result⟩ := safe
  unfold checkedArithmetic
  rw [if_neg, if_neg, if_pos result]
  · rintro ⟨isMod, large⟩
    exact large (division (.inr isMod)).2
  · rintro ⟨divides, zero⟩
    exact (division divides).1 zero

theorem checkedArithmetic_of_not_safe {op : TokenType} {a b : Int}
    (faulty : ¬ ArithmeticNode.Safe ⟨op, a, b⟩) : ∃ fault, checkedArithmetic op a b = .error fault := by
  unfold checkedArithmetic
  by_cases zero : (op = .divide ∨ op = .mod) ∧ b = 0
  · exact ⟨_, if_pos zero⟩
  · rw [if_neg zero]
    by_cases quotient : op = .mod ∧ ¬ inIntRange (a.tdiv b)
    · exact ⟨_, if_pos quotient⟩
    · rw [if_neg quotient]
      refine ⟨_, if_neg fun result => faulty ⟨fun divides => ?_, result⟩⟩
      refine ⟨fun isZero => zero ⟨divides, isZero⟩, ?_⟩
      rcases divides with isDivide | isMod
      · rw [isDivide] at result
        exact result
      · exact Classical.not_not.mp fun large => quotient ⟨isMod, large⟩

/-- Dividing by a number that is no unit at least halves the size. -/
theorem natAbs_tdiv_le_half {a b : Int} (large : 2 ≤ b.natAbs) : (a.tdiv b).natAbs ≤ a.natAbs / 2 := by
  rw [Int.natAbs_tdiv]
  exact Nat.div_le_div_left large (by decide)

/-- On the operands an int can have, a quotient is out of range in one case only. -/
theorem inIntRange_tdiv {a b : Int} (left : inIntRange a = true) (nonzero : b ≠ 0) :
    inIntRange (a.tdiv b) = true ↔ ¬ (a = INT_MIN ∧ b = -1) := by
  rw [inIntRange_iff] at left ⊢
  unfold INT_MIN INT_MAX at *
  by_cases one : b = 1
  · subst one
    rw [Int.tdiv_one]
    omega
  · by_cases minusOne : b = -1
    · subst minusOne
      rw [Int.tdiv_neg, Int.tdiv_one]
      omega
    · have half := natAbs_tdiv_le_half (a := a) (b := b) (by omega)
      omega

theorem safe_divide_iff {a b : Int} (left : inIntRange a = true) :
    ArithmeticNode.Safe ⟨.divide, a, b⟩ ↔ b ≠ 0 ∧ ¬ (a = INT_MIN ∧ b = -1) := by
  constructor
  · rintro ⟨division, _⟩
    obtain ⟨nonzero, quotient⟩ := division (.inl rfl)
    exact ⟨nonzero, (inIntRange_tdiv left nonzero).mp quotient⟩
  · rintro ⟨nonzero, other⟩
    have quotient := (inIntRange_tdiv left nonzero).mpr other
    exact ⟨fun _ => ⟨nonzero, quotient⟩, quotient⟩

theorem safe_mod_iff {a b : Int} (left : inIntRange a = true) (right : inIntRange b = true) :
    ArithmeticNode.Safe ⟨.mod, a, b⟩ ↔ b ≠ 0 ∧ ¬ (a = INT_MIN ∧ b = -1) := by
  constructor
  · rintro ⟨division, _⟩
    obtain ⟨nonzero, quotient⟩ := division (.inr rfl)
    exact ⟨nonzero, (inIntRange_tdiv left nonzero).mp quotient⟩
  · rintro ⟨nonzero, other⟩
    refine ⟨fun _ => ⟨nonzero, (inIntRange_tdiv left nonzero).mpr other⟩, ?_⟩
    have size : (a.tmod b).natAbs < b.natAbs := by
      rw [Int.natAbs_tmod]
      exact Nat.mod_lt _ (by omega)
    have sign : (a.tmod b).natAbs ≤ a.natAbs := by
      rw [Int.natAbs_tmod]
      exact Nat.mod_le _ _
    rw [inIntRange_iff] at left right
    rw [inIntRange_iff]
    unfold exactArithmetic INT_MIN INT_MAX at *
    simp only
    omega

/-! ## Exact evaluation -/

section

variable (qt : QtTables) (context : ContextMap)

/-- The value of a filter where integers have no bounds. -/
def Expr.exactValue (e : Expr) : QVariant :=
  Id.run (e.execute qt (fun op a b => pure (exactArithmetic op a b)) context)

def exactValues (items : List Expr) : List QVariant :=
  Id.run (executeAll qt (fun op a b => pure (exactArithmetic op a b)) context items)

/-- The integers of a binary operation that calculates. -/
def BinaryOperation.operands (op : TokenType) (left right : QVariant) : Option (Int × Int) :=
  let converted := (convertVariantTypes qt left right .int).map (fun (a, b) => (a.toInt, b.toInt))
  match op with
  | .plus => if left.metaType = .qString ∧ right.canConvert .qString then none else converted
  | .minus | .multiply | .divide | .mod => converted
  | _ => none

mutual

/-- The calculations of a filter in the order of their evaluation. -/
def Expr.arithmeticNodes : Expr → List ArithmeticNode
  | .value _ | .regex _ _ => []
  | .unary _ right => right.arithmeticNodes
  | .binary op left right =>
      left.arithmeticNodes ++ (right.arithmeticNodes ++
        (BinaryOperation.operands qt op (left.exactValue qt context) (right.exactValue qt context)).toList.map
          (fun (a, b) => ⟨op, a, b⟩))
  | .list items => arithmeticNodesAll items

def arithmeticNodesAll : List Expr → List ArithmeticNode
  | [] => []
  | item :: rest => item.arithmeticNodes ++ arithmeticNodesAll rest

end

end

/-- What a run with the arithmetic of int has to do with the exact value. -/
inductive Agrees {A : Type} (nodes : List ArithmeticNode) (run : Except ArithmeticFault A) (value : A) : Prop
  | defined (safe : ∀ node ∈ nodes, node.Safe) (same : run = .ok value)
  | faulty (unsafeNode : ∃ node ∈ nodes, ¬ node.Safe) (stopped : ∃ fault, run = .error fault)

theorem Agrees.pure {A : Type} (value : A) : Agrees [] (Pure.pure value) value :=
  .defined (fun _ member => nomatch member) rfl

theorem Agrees.bind {A B : Type} {nodes nodes' : List ArithmeticNode} {run : Except ArithmeticFault A}
    {value : A} {next : A → Except ArithmeticFault B} {value' : B} (first : Agrees nodes run value)
    (second : Agrees nodes' (next value) value') : Agrees (nodes ++ nodes') (run >>= next) value' := by
  cases first with
  | faulty unsafeNode stopped =>
    obtain ⟨node, member, notSafe⟩ := unsafeNode
    obtain ⟨fault, rfl⟩ := stopped
    exact .faulty ⟨node, List.mem_append_left _ member, notSafe⟩ ⟨fault, rfl⟩
  | defined safe same =>
    subst same
    cases second with
    | faulty unsafeNode stopped =>
      obtain ⟨node, member, notSafe⟩ := unsafeNode
      exact .faulty ⟨node, List.mem_append_right _ member, notSafe⟩ stopped
    | defined safe' same' =>
      refine .defined (fun node member => ?_) same'
      rcases List.mem_append.mp member with left | right
      · exact safe node left
      · exact safe' node right

theorem Agrees.map {A B : Type} {nodes : List ArithmeticNode} {run : Except ArithmeticFault A} {value : A}
    (f : A → B) (first : Agrees nodes run value) :
    Agrees nodes (run >>= fun a => Pure.pure (f a)) (f value) := by
  have both : Agrees (nodes ++ []) (run >>= fun a => Pure.pure (f a)) (f value) :=
    first.bind (Agrees.pure (f value))
  rwa [List.append_nil] at both

theorem Agrees.calculation (op : TokenType) (a b : Int) :
    Agrees [⟨op, a, b⟩] (checkedArithmetic op a b) (exactArithmetic op a b) := by
  by_cases safe : ArithmeticNode.Safe ⟨op, a, b⟩
  · exact .defined (by simpa using safe) (checkedArithmetic_of_safe safe)
  · exact .faulty ⟨_, by simp, safe⟩ (checkedArithmetic_of_not_safe safe)

section

variable (qt : QtTables) (context : ContextMap)

theorem arithmetic_agrees (op : TokenType) (left right : QVariant) :
    Agrees (((convertVariantTypes qt left right .int).map (fun (a, b) => (a.toInt, b.toInt))).toList.map
        (fun (a, b) => ⟨op, a, b⟩))
      (BinaryOperation.arithmetic qt checkedArithmetic op left right)
      (Id.run (BinaryOperation.arithmetic qt (fun op a b => pure (exactArithmetic op a b)) op left right)) := by
  unfold BinaryOperation.arithmetic
  cases convertVariantTypes qt left right .int with
  | none => exact .pure _
  | some pair => exact (Agrees.calculation op pair.1.toInt pair.2.toInt).map QVariant.int

theorem execute_agrees (op : TokenType) (left right : QVariant) :
    Agrees ((BinaryOperation.operands qt op left right).toList.map (fun (a, b) => ⟨op, a, b⟩))
      (BinaryOperation.execute qt checkedArithmetic op left right)
      (Id.run (BinaryOperation.execute qt (fun op a b => pure (exactArithmetic op a b)) op left right)) := by
  cases op with
  | plus =>
    simp only [BinaryOperation.operands, BinaryOperation.execute]
    split
    · exact .pure _
    · exact arithmetic_agrees qt .plus left right
  | minus => exact arithmetic_agrees qt .minus left right
  | multiply => exact arithmetic_agrees qt .multiply left right
  | divide => exact arithmetic_agrees qt .divide left right
  | mod => exact arithmetic_agrees qt .mod left right
  | _ => exact .pure _

mutual

theorem Expr.execute_agrees : ∀ e : Expr,
    Agrees (e.arithmeticNodes qt context) (e.execute qt checkedArithmetic context) (e.exactValue qt context)
  | .value (.int _) => .pure _
  | .value (.string _) => .pure _
  | .value (.identifier _) => .pure _
  | .regex _ _ => .pure _
  | .unary op right => (Expr.execute_agrees right).map (UnaryOperation.execute qt op)
  | .binary op left right =>
      (Expr.execute_agrees left).bind ((Expr.execute_agrees right).bind (Filters.execute_agrees qt op _ _))
  | .list items => (executeAll_agrees items).map (ListExpression.execute qt)

theorem executeAll_agrees : ∀ items : List Expr,
    Agrees (arithmeticNodesAll qt context items) (executeAll qt checkedArithmetic context items)
      (exactValues qt context items)
  | [] => .pure _
  | item :: rest => (Expr.execute_agrees item).bind ((executeAll_agrees rest).map (_ :: ·))

end

/-- An evaluation ends without undefined arithmetic exactly when every calculation of
the filter, with the operands it has over the integers, is safe. -/
theorem Expr.execute_defined_iff (e : Expr) :
    (∃ value, e.execute qt checkedArithmetic context = .ok value) ↔
      ∀ node ∈ e.arithmeticNodes qt context, node.Safe := by
  cases e.execute_agrees qt context with
  | defined safe same => exact ⟨fun _ => safe, fun _ => ⟨_, same⟩⟩
  | faulty unsafeNode stopped =>
    obtain ⟨node, member, notSafe⟩ := unsafeNode
    obtain ⟨fault, stopped⟩ := stopped
    constructor
    · rintro ⟨value, run⟩
      rw [stopped] at run
      cases run
    · exact fun safe => absurd (safe node member) notSafe

end

/-- A filter that is accepted with type Bool and divides by zero on every message. -/
theorem divides_by_zero : ∃ p, FilterParser.ofText (qs "1 / 0 == 1") = .ok p ∧ p.valid = true ∧
    p.returnType = .bool ∧
    ∀ qt context, p.builtExpression.execute qt checkedArithmetic context = .error .divisionByZero :=
  ⟨_, rfl, rfl, rfl, fun _ _ => rfl⟩

end Forserino.Filters
