import Forserino.Filters.Arithmetic

/-! What the synthesized type of a filter says about the value it evaluates to.

Only string concatenation can miss its type: synthesizeType accepts every right
operand, and execute falls back to a number for one that does not convert to a
string. The filters that do not run into the fallback are characterised on the
tree, and for them evaluation keeps the type.
-/

set_option autoImplicit false

namespace Forserino.Filters

open Forserino.Qt

/-- The run-time type of a value. A missing colour is an invalid one or no value at all. -/
inductive HasType : QVariant → FilterType → Prop where
  | string (s : QString) : HasType (.string s) .string
  | int (n : Int) : HasType (.int n) .int
  | bool (b : Bool) : HasType (.bool b) .bool
  | color (c : QColor) : HasType (.color c) .color
  | noColor : HasType .invalid .color
  | regularExpression (pattern : QString) (caseInsensitive : Bool) :
      HasType (.regularExpression pattern caseInsensitive) .regularExpression
  | list (values : List QVariant) : HasType (.variantList values) .list
  | stringList (values : List QString) : HasType (.stringList values) .stringList
  | matchingSpecifier (pattern : QString) (caseInsensitive : Bool) (n : Int) :
      HasType (.variantList [.regularExpression pattern caseInsensitive, .int n]) .matchingSpecifier
  | map (entries : List (QString × QVariant)) : HasType (.variantMap entries) .map

theorem HasType.int_shape {v : QVariant} (has : HasType v .int) : ∃ n, v = .int n := by
  cases has with
  | int n => exact ⟨n, rfl⟩

theorem HasType.regularExpression_shape {v : QVariant} (has : HasType v .regularExpression) :
    ∃ pattern caseInsensitive, v = .regularExpression pattern caseInsensitive := by
  cases has with
  | regularExpression pattern caseInsensitive => exact ⟨pattern, caseInsensitive, rfl⟩

/-- Every variable of the typing context carries a value of its type. -/
def ContextMap.Typed (types : TypingContext) (context : ContextMap) : Prop :=
  ∀ name type, types.lookup name = some type → HasType (context.value name) type

section

variable (types : TypingContext) (context : ContextMap)

/-- A right operand of this type converts to a string, whatever it evaluates to. A
colour does unless the variable has no value. -/
def joins (right : Expr) : FilterType → Bool
  | .string | .int | .bool => true
  | .color =>
      match right with
      | .value (.identifier name) => (context.value name).metaType != .unknown
      | _ => true
  | _ => false

mutual

/-- No concatenation that the type of the filter depends on falls back to a number. -/
def Expr.keepsType : Expr → Bool
  | .value _ | .regex _ _ | .unary _ _ => true
  | .binary op left right =>
      match op, left.synthesizeType types, right.synthesizeType types with
      | .plus, .typeClass .string, .typeClass .stringList => left.keepsType && right.keepsType
      | .plus, .typeClass .string, .typeClass type => left.keepsType && joins context right type
      | _, _, _ => true
  | .list items =>
      match synthesizeTypes types items with
      | .ok itemTypes => !itemTypes.all (· == .string) || keepsTypes items
      | .error _ => true

def keepsTypes : List Expr → Bool
  | [] => true
  | item :: rest => item.keepsType && keepsTypes rest

end

end

/-- How a value relates to a type: it has it, or a concatenation fell back to a number
on the way to a string or to the entry of a string list. -/
inductive Conforms (keeps : Bool) (v : QVariant) (type : FilterType) : Prop where
  | typed (kept : keeps = true) (has : HasType v type)
  | number (lost : keeps = false) (isString : type = .string) (n : Int) (same : v = .int n)
  | mixedList (lost : keeps = false) (isStringList : type = .stringList) (values : List QVariant)
      (same : v = .variantList values)

theorem Conforms.hasType_iff {keeps : Bool} {v : QVariant} {type : FilterType}
    (conforms : Conforms keeps v type) : HasType v type ↔ keeps = true := by
  cases conforms with
  | typed kept has => exact ⟨fun _ => kept, fun _ => has⟩
  | number lost isString n same =>
    subst isString same
    rw [lost]
    exact ⟨fun has => (nomatch has), fun impossible => nomatch impossible⟩
  | mixedList lost isStringList values same =>
    subst isStringList same
    rw [lost]
    exact ⟨fun has => (nomatch has), fun impossible => nomatch impossible⟩

/-- Only strings and string lists can miss their type. -/
theorem Conforms.typed_of_ne {keeps : Bool} {v : QVariant} {type : FilterType}
    (conforms : Conforms keeps v type) (noString : type ≠ .string) (noList : type ≠ .stringList) :
    HasType v type := by
  cases conforms with
  | typed _ has => exact has
  | number _ isString _ _ => exact absurd isString noString
  | mixedList _ isStringList _ _ => exact absurd isStringList noList

/-- A value of type string is a string or a number, and both convert to a string. -/
theorem Conforms.string_cases {keeps : Bool} {v : QVariant} (conforms : Conforms keeps v .string) :
    (keeps = true ∧ ∃ s, v = .string s) ∨ (keeps = false ∧ ∃ n, v = .int n) := by
  cases conforms with
  | typed kept has => cases has with | string s => exact .inl ⟨kept, s, rfl⟩
  | number lost _ n same => exact .inr ⟨lost, n, same⟩
  | mixedList _ isStringList _ _ => cases isStringList

section

variable (qt : QtTables) {types : TypingContext} {context : ContextMap}

/-- The run of an operator in exact arithmetic. -/
def BinaryOperation.exactExecute (op : TokenType) (left right : QVariant) : QVariant :=
  Id.run (BinaryOperation.execute qt (fun op a b => pure (exactArithmetic op a b)) op left right)

theorem arithmetic_int (op : TokenType) (left right : QVariant) :
    ∃ n, Id.run (BinaryOperation.arithmetic qt (fun op a b => pure (exactArithmetic op a b)) op left right) =
      .int n := by
  unfold BinaryOperation.arithmetic
  cases convertVariantTypes qt left right .int with
  | none => exact ⟨0, rfl⟩
  | some pair => exact ⟨exactArithmetic op pair.1.toInt pair.2.toInt, rfl⟩

/-- A concatenation whose left operand evaluated to a string. -/
theorem concatenation {left : QVariant} (right : QVariant) (s : QString) (isString : left = .string s) :
    (right.canConvert .qString = true ∧ ∃ t, BinaryOperation.exactExecute qt .plus left right = .string t) ∨
      (right.canConvert .qString = false ∧ ∃ n, BinaryOperation.exactExecute qt .plus left right = .int n) := by
  subst isString
  unfold BinaryOperation.exactExecute BinaryOperation.execute
  cases converts : right.canConvert .qString with
  | true => exact .inl ⟨rfl, _, rfl⟩
  | false =>
    obtain ⟨n, result⟩ := arithmetic_int qt .plus (.string s) right
    exact .inr ⟨rfl, n, by simpa [QVariant.metaType] using result⟩

/-- A concatenation whose left operand fell back to a number. -/
theorem concatenation_lost {left : QVariant} (right : QVariant) (n : Int) (isInt : left = .int n) :
    ∃ m, BinaryOperation.exactExecute qt .plus left right = .int m := by
  subst isInt
  obtain ⟨m, result⟩ := arithmetic_int qt .plus (.int n) right
  exact ⟨m, by simpa [BinaryOperation.exactExecute, BinaryOperation.execute, QVariant.metaType] using result⟩

/-- Whether a right operand of a concatenation converts to a string. -/
theorem canConvert_string_iff (right : Expr) {keeps : Bool} {v : QVariant} {type : FilterType}
    (conforms : Conforms keeps v type)
    (colour : ∀ name, right = .value (.identifier name) → v = context.value name)
    (only : type = .color → ∃ name, right = .value (.identifier name)) :
    v.canConvert .qString = if type = .stringList then keeps else joins context right type := by
  cases conforms with
  | number lost isString n same => subst isString same; rfl
  | mixedList lost isStringList values same => subst isStringList same; rw [if_pos rfl, lost]; rfl
  | typed kept has =>
    cases has with
    | stringList values => rw [if_pos rfl, kept]; rfl
    | color c =>
      obtain ⟨name, rfl⟩ := only rfl
      have value := colour name rfl
      rw [if_neg (by decide), joins, ← value]
      rfl
    | noColor =>
      obtain ⟨name, rfl⟩ := only rfl
      have value := colour name rfl
      rw [if_neg (by decide), joins, ← value]
      rfl
    | _ => rfl

/-- The integer operators yield an int, whatever their operands are. -/
theorem integer_hasType {op : TokenType} (integer : op = .minus ∨ op = .multiply ∨ op = .divide ∨ op = .mod)
    (left right : QVariant) : HasType (BinaryOperation.exactExecute qt op left right) .int := by
  obtain ⟨n, result⟩ := arithmetic_int qt op left right
  have value : BinaryOperation.exactExecute qt op left right = .int n := by
    rcases integer with rfl | rfl | rfl | rfl
    all_goals exact result
  rw [value]
  exact .int n

/-- match on a string, or on the number a concatenation fell back to. -/
theorem regexMatch_hasType {keeps : Bool} {left right : QVariant} {rightType type : FilterType}
    (first : Conforms keeps left .string) (second : HasType right rightType)
    (ofType : BinaryOperation.typeOf .regexMatch .string rightType = .ok type) :
    HasType (BinaryOperation.regexMatch qt left right) type := by
  have converts : left.canConvert .qString = true := by
    rcases first.string_cases with ⟨_, s, rfl⟩ | ⟨_, n, rfl⟩
    all_goals rfl
  unfold BinaryOperation.regexMatch
  rw [converts]
  cases second with
  | regularExpression pattern caseInsensitive =>
    obtain rfl := Except.ok.inj ofType
    exact .bool _
  | matchingSpecifier pattern caseInsensitive n =>
    obtain rfl := Except.ok.inj ofType
    simp only [Bool.not_true, Bool.false_eq_true, if_false]
    split
    · exact .string _
    · exact .string _
  | _ => simp [BinaryOperation.typeOf] at ofType

/-- Every operator but a concatenation keeps the type that synthesizeType gives it. -/
theorem binary_hasType {op : TokenType} {left right : QVariant} {leftType rightType type : FilterType}
    {keeps keeps' : Bool} (first : Conforms keeps left leftType) (second : Conforms keeps' right rightType)
    (ofType : BinaryOperation.typeOf op leftType rightType = .ok type)
    (noConcatenation : op = .plus → leftType ≠ .string) :
    HasType (BinaryOperation.exactExecute qt op left right) type := by
  have result := ofType
  cases op
  case plus =>
    have isInt : leftType = .int ∧ type = .int := by
      have noString := noConcatenation rfl
      simp only [BinaryOperation.typeOf, if_neg noString] at result
      split at result
      · next both => exact ⟨both.1, (Except.ok.inj result).symm⟩
      · cases result
    obtain ⟨rfl, rfl⟩ := isInt
    cases first.typed_of_ne (by decide) (by decide) with
    | int n =>
      -- exactExecute adds as integers, whatever the right operand is
      obtain ⟨m, sum⟩ := concatenation_lost qt right n rfl
      rw [sum]
      exact .int m
  case regexMatch =>
    have shape : leftType = .string ∧ rightType ≠ .string ∧ rightType ≠ .stringList := by
      by_cases isString : leftType = .string
      · subst isString
        refine ⟨rfl, ?_, ?_⟩
        · rintro rfl; cases ofType
        · rintro rfl; cases ofType
      · simp only [BinaryOperation.typeOf, ne_eq, isString, not_false_eq_true, if_true] at result
        cases result
    obtain ⟨rfl, noString, noList⟩ := shape
    exact regexMatch_hasType qt first (second.typed_of_ne noString noList) ofType
  case minus | multiply | divide | mod =>
    have isInt : type = .int := by
      simp only [BinaryOperation.typeOf] at result
      split at result
      · exact (Except.ok.inj result).symm
      · cases result
    subst isInt
    exact integer_hasType qt (by simp) left right
  case eq | neq =>
    obtain rfl := Except.ok.inj result
    exact .bool _
  case or | and | lt | gt | lte | gte =>
    have isBool : type = .bool := by
      simp only [BinaryOperation.typeOf] at result
      split at result
      · exact (Except.ok.inj result).symm
      · cases result
    subst isBool
    exact .bool _
  case contains | startsWith | endsWith =>
    have isBool : type = .bool := by
      simp only [BinaryOperation.typeOf] at result
      split at result
      · exact (Except.ok.inj result).symm
      · split at result
        · exact (Except.ok.inj result).symm
        · cases result
    subst isBool
    exact .bool _
  -- the other tokens are no operators, and have no type
  all_goals cases result

/-! ## Lists -/

/-- The items of a list, each with a type its value conforms to. -/
abbrev ConformsAll (types : TypingContext) (context : ContextMap) (items : List Expr) (itemTypes : List FilterType) :
    Prop :=
  List.Forall₂ (fun item type => Conforms (item.keepsType types context) (item.exactValue qt context) type)
    items itemTypes

theorem Conforms.isString_iff {keeps : Bool} {v : QVariant} {type : FilterType} (conforms : Conforms keeps v type) :
    (v.metaType == .qString) = (type == .string && keeps) := by
  cases conforms with
  | typed kept has => rw [kept]; cases has <;> rfl
  | number lost isString n same => subst isString same; rw [lost]; rfl
  | mixedList lost isStringList values same => subst isStringList same; rfl

/-- All values are strings when all items are, and none of them fell back. -/
theorem allStrings_iff {items : List Expr} {itemTypes : List FilterType}
    (all : ConformsAll qt types context items itemTypes) :
    (exactValues qt context items).all (fun v => v.metaType == .qString) =
      (itemTypes.all (· == .string) && keepsTypes types context items) := by
  induction all with
  | nil => rfl
  | @cons item type rest restTypes first _ ih =>
    have values : exactValues qt context (item :: rest) = item.exactValue qt context :: exactValues qt context rest :=
      rfl
    rw [values, List.all_cons, List.all_cons, keepsTypes, ih, first.isString_iff]
    cases type == .string <;> cases item.keepsType types context <;> simp

theorem list_conforms {items : List Expr} {itemTypes : List FilterType}
    (all : ConformsAll qt types context items itemTypes) :
    Conforms (!itemTypes.all (· == .string) || keepsTypes types context items)
      (ListExpression.execute qt (exactValues qt context items)) (ListExpression.typeOf itemTypes) := by
  have strings := allStrings_iff qt all
  unfold ListExpression.execute ListExpression.typeOf
  by_cases specifier : itemTypes = [.regularExpression, .int]
  · subst specifier
    rw [if_pos rfl, if_neg (by simp [strings])]
    -- a regular expression and an int never miss their types
    cases all with
    | @cons pattern _ rest _ first others =>
      cases others with
      | @cons group _ rest _ second none =>
        cases none
        obtain ⟨text, caseInsensitive, isRegex⟩ :=
          (first.typed_of_ne (by decide) (by decide)).regularExpression_shape
        obtain ⟨n, isInt⟩ := (second.typed_of_ne (by decide) (by decide)).int_shape
        have values : exactValues qt context [pattern, group] =
          [pattern.exactValue qt context, group.exactValue qt context] := rfl
        rw [values, isRegex, isInt]
        exact .typed rfl (.matchingSpecifier text caseInsensitive n)
  · rw [if_neg specifier]
    cases allStrings : itemTypes.all (· == .string) with
    | false =>
      rw [if_neg (by simp [strings, allStrings]), if_neg (by simp)]
      exact .typed rfl (.list _)
    | true =>
      rw [if_pos rfl]
      cases kept : keepsTypes types context items with
      | true =>
        rw [if_pos (by rw [strings, allStrings, kept]; rfl)]
        exact .typed rfl (.stringList _)
      | false =>
        rw [if_neg (by simp [strings, kept])]
        exact .mixedList rfl rfl _ rfl

/-! ## Every filter -/

theorem classify_typeClass {e : Expr} {result : Except QString FilterType} {type : FilterType}
    (typed : classify e result = .typeClass type) : result = .ok type := by
  cases result with
  | ok found => rw [PossibleType.typeClass.inj typed]
  | error message => cases typed

theorem binary_synthesizeType {op : TokenType} {left right : Expr} {type : FilterType}
    (typed : (Expr.binary op left right).synthesizeType types = .typeClass type) :
    ∃ leftType rightType, left.synthesizeType types = .typeClass leftType ∧
      right.synthesizeType types = .typeClass rightType ∧
      BinaryOperation.typeOf op leftType rightType = .ok type := by
  unfold Expr.synthesizeType at typed
  split at typed
  · cases typed
  · cases typed
  · next leftType rightType leftTyped rightTyped =>
    exact ⟨leftType, rightType, leftTyped, rightTyped, classify_typeClass typed⟩

theorem unary_synthesizeType {op : TokenType} {right : Expr} {type : FilterType}
    (typed : (Expr.unary op right).synthesizeType types = .typeClass type) : op = .not ∧ type = .bool := by
  unfold Expr.synthesizeType at typed
  split at typed
  · cases typed
  · have ofType := classify_typeClass typed
    unfold UnaryOperation.typeOf at ofType
    split at ofType
    · split at ofType
      · exact ⟨rfl, (Except.ok.inj ofType).symm⟩
      · cases ofType
    · cases ofType

theorem typeOf_ne_color (op : TokenType) (left right : FilterType) :
    BinaryOperation.typeOf op left right ≠ .ok .color := by
  intro ofType
  cases op <;> simp only [BinaryOperation.typeOf] at ofType
  all_goals try split at ofType
  all_goals try split at ofType
  all_goals try split at ofType
  all_goals cases ofType

/-- Colours come from variables only. -/
theorem color_identifier {e : Expr} (typed : e.synthesizeType types = .typeClass .color) :
    ∃ name, e = .value (.identifier name) := by
  cases e with
  | value literal =>
    cases literal with
    | identifier name => exact ⟨name, rfl⟩
    | _ => cases typed
  | regex pattern caseInsensitive => cases typed
  | unary op right => cases (unary_synthesizeType typed).2
  | binary op left right =>
    obtain ⟨_, _, _, _, ofType⟩ := binary_synthesizeType typed
    exact absurd ofType (typeOf_ne_color _ _ _)
  | list items =>
    unfold Expr.synthesizeType at typed
    split at typed
    · have isColor := PossibleType.typeClass.inj typed
      unfold ListExpression.typeOf at isColor
      split at isColor
      · cases isColor
      · split at isColor <;> cases isColor
    · cases typed

theorem concatenation_keepsType {left right : Expr} {rightType : FilterType}
    (leftTyped : left.synthesizeType types = .typeClass .string)
    (rightTyped : right.synthesizeType types = .typeClass rightType) :
    (Expr.binary .plus left right).keepsType types context = (left.keepsType types context &&
      if rightType = .stringList then right.keepsType types context else joins context right rightType) := by
  rw [Expr.keepsType.eq_def]
  simp only [leftTyped, rightTyped]
  cases rightType <;> rfl

theorem binary_conforms {op : TokenType} {left right : Expr} {leftType rightType type : FilterType}
    (leftTyped : left.synthesizeType types = .typeClass leftType)
    (rightTyped : right.synthesizeType types = .typeClass rightType)
    (first : Conforms (left.keepsType types context) (left.exactValue qt context) leftType)
    (second : Conforms (right.keepsType types context) (right.exactValue qt context) rightType)
    (ofType : BinaryOperation.typeOf op leftType rightType = .ok type) :
    Conforms ((Expr.binary op left right).keepsType types context)
      ((Expr.binary op left right).exactValue qt context) type := by
  have value : (Expr.binary op left right).exactValue qt context =
    BinaryOperation.exactExecute qt op (left.exactValue qt context) (right.exactValue qt context) := rfl
  rw [value]
  by_cases concatenates : op = .plus ∧ leftType = .string
  · obtain ⟨rfl, rfl⟩ := concatenates
    obtain rfl : FilterType.string = type := Except.ok.inj ofType
    have converts := canConvert_string_iff right second (by rintro name rfl; rfl)
      (by rintro rfl; exact color_identifier rightTyped)
    rw [concatenation_keepsType leftTyped rightTyped, ← converts]
    rcases first.string_cases with ⟨kept, s, isString⟩ | ⟨lost, n, isInt⟩
    · rcases concatenation qt (right.exactValue qt context) s isString with
        ⟨converted, t, result⟩ | ⟨unconverted, n, result⟩
      · rw [result, kept, converted]
        exact .typed rfl (.string t)
      · rw [result, kept, unconverted]
        exact .number rfl rfl n rfl
    · obtain ⟨m, result⟩ := concatenation_lost qt (right.exactValue qt context) n isInt
      rw [result, lost]
      exact .number rfl rfl m rfl
  · have keeps : (Expr.binary op left right).keepsType types context = true := by
      unfold Expr.keepsType
      rw [leftTyped, rightTyped]
      split
      · next same _ => exact absurd ⟨rfl, PossibleType.typeClass.inj same⟩ concatenates
      · next same _ => exact absurd ⟨rfl, PossibleType.typeClass.inj same⟩ concatenates
      · rfl
    rw [keeps]
    exact .typed rfl (binary_hasType qt first second ofType (fun isPlus isString => concatenates ⟨isPlus, isString⟩))

mutual

theorem Expr.exactValue_conforms (typed : context.Typed types) : ∀ (e : Expr) (type : FilterType),
    e.synthesizeType types = .typeClass type →
    Conforms (e.keepsType types context) (e.exactValue qt context) type
  | .value (.int n), type, ofType => by
    cases ofType
    exact .typed rfl (.int n)
  | .value (.string s), type, ofType => by
    cases ofType
    exact .typed rfl (.string s)
  | .value (.identifier name), type, ofType => by
    unfold Expr.synthesizeType at ofType
    split at ofType
    · next found bound =>
      cases ofType
      exact .typed rfl (typed name type bound)
    · cases ofType
  | .regex pattern caseInsensitive, type, ofType => by
    cases ofType
    exact .typed rfl (.regularExpression pattern caseInsensitive)
  | .unary op right, type, ofType => by
    obtain ⟨rfl, rfl⟩ := unary_synthesizeType ofType
    exact .typed rfl (.bool _)
  | .binary op left right, type, ofType => by
    obtain ⟨leftType, rightType, leftTyped, rightTyped, combined⟩ := binary_synthesizeType ofType
    exact binary_conforms qt leftTyped rightTyped (Expr.exactValue_conforms typed left leftType leftTyped)
      (Expr.exactValue_conforms typed right rightType rightTyped) combined
  | .list items, type, ofType => by
    unfold Expr.synthesizeType at ofType
    split at ofType
    · next itemTypes found =>
      cases ofType
      have value : (Expr.list items).exactValue qt context =
        ListExpression.execute qt (exactValues qt context items) := rfl
      rw [value, Expr.keepsType.eq_def]
      simp only [found]
      exact list_conforms qt (exactValues_conform typed items itemTypes found)
    · cases ofType

theorem exactValues_conform (typed : context.Typed types) : ∀ (items : List Expr) (itemTypes : List FilterType),
    synthesizeTypes types items = .ok itemTypes → ConformsAll qt types context items itemTypes
  | [], itemTypes, found => by
    cases found
    exact .nil
  | item :: rest, itemTypes, found => by
    unfold synthesizeTypes at found
    split at found
    · cases found
    · next type ofType =>
      cases others : synthesizeTypes types rest with
      | error reason =>
        rw [others] at found
        cases found
      | ok restTypes =>
        rw [others] at found
        cases found
        exact .cons (Expr.exactValue_conforms typed item type ofType) (exactValues_conform typed rest restTypes others)

end

end

theorem FilterParser.ofTokens_returnType {tokens : List Token} {p : FilterParser}
    (accepted : FilterParser.ofTokens tokens = .ok p) (valid : p.valid = true) :
    p.builtExpression.synthesizeType MESSAGE_TYPING_CONTEXT = .typeClass p.returnType := by
  unfold ofTokens at accepted
  split at accepted
  · cases accepted
  · next e s _ =>
    split at accepted
    · cases accepted
      cases valid
    · split at accepted
      · cases accepted
        cases valid
      · next type typed =>
        cases accepted
        exact typed

/-! ## Accepted filters -/

/-- A value of each type. -/
def defaultValue : FilterType → QVariant
  | .string => .string []
  | .int => .int 0
  | .bool => .bool false
  | .color => .color ⟨false, 65535, 0, 0, 0⟩
  | .regularExpression => .regularExpression [] false
  | .list => .variantList []
  | .stringList => .stringList []
  | .matchingSpecifier => .variantList [.regularExpression [] false, .int 0]
  | .map => .variantMap []

theorem defaultValue_hasType (type : FilterType) : HasType (defaultValue type) type := by
  cases type <;> constructor

/-- The context of a message without any text, badge or flag. -/
def emptyMessage : ContextMap := MESSAGE_TYPING_CONTEXT.map fun (name, type) => (name, defaultValue type)

theorem lookup_defaultValue (types : TypingContext) (name : QString) (type : FilterType)
    (bound : types.lookup name = some type) :
    List.lookup name (types.map fun (name, type) => (name, defaultValue type)) = some (defaultValue type) := by
  induction types with
  | nil => cases bound
  | cons entry rest ih =>
    obtain ⟨key, keyType⟩ := entry
    simp only [List.map_cons, List.lookup_cons] at bound ⊢
    split at bound
    · next same => rw [Option.some.inj bound]
    · next other => exact ih bound

theorem emptyMessage_typed : emptyMessage.Typed MESSAGE_TYPING_CONTEXT := by
  intro name type bound
  have found : emptyMessage.value name = defaultValue type := by
    unfold ContextMap.value emptyMessage
    rw [lookup_defaultValue _ _ _ bound]
    rfl
  rw [found]
  exact defaultValue_hasType type

/-- An accepted filter evaluates to a value of its synthesized type on every typed
context exactly when its calculations are safe and no concatenation that matters
falls back to a number. -/
theorem FilterParser.execute_hasType_iff (qt : QtTables) (text : QString) (p : FilterParser)
    (accepted : FilterParser.ofText text = .ok p) (valid : p.valid = true) (context : ContextMap)
    (typed : context.Typed MESSAGE_TYPING_CONTEXT) :
    (∃ value, p.builtExpression.execute qt checkedArithmetic context = .ok value ∧ HasType value p.returnType) ↔
      (∀ node ∈ p.builtExpression.arithmeticNodes qt context, node.Safe) ∧
        p.builtExpression.keepsType MESSAGE_TYPING_CONTEXT context = true := by
  have conforms := p.builtExpression.exactValue_conforms qt typed p.returnType
    (FilterParser.ofTokens_returnType accepted valid)
  cases p.builtExpression.execute_agrees qt context with
  | defined safe same =>
    rw [← conforms.hasType_iff]
    constructor
    · rintro ⟨value, run, has⟩
      rw [same] at run
      cases run
      exact ⟨safe, has⟩
    · rintro ⟨_, has⟩
      exact ⟨_, same, has⟩
  | faulty unsafeNode stopped =>
    obtain ⟨node, member, notSafe⟩ := unsafeNode
    obtain ⟨fault, stopped⟩ := stopped
    constructor
    · rintro ⟨value, run, _⟩
      rw [stopped] at run
      cases run
    · rintro ⟨safe, _⟩
      exact absurd (safe node member) notSafe

theorem FilterParser.execute_hasType_sum : ∃ p, FilterParser.ofText (qs "message.length + 1") = .ok p ∧
    ∃ value, p.builtExpression.execute asciiTables checkedArithmetic emptyMessage = .ok value ∧
      HasType value p.returnType :=
  ⟨_, rfl, (FilterParser.execute_hasType_iff asciiTables (qs "message.length + 1") _ rfl rfl emptyMessage
    emptyMessage_typed).mpr ⟨by decide, rfl⟩⟩

/-- A filter that is accepted with type String and evaluates to a number. -/
theorem FilterParser.concatenation_falls_back : ∃ p, FilterParser.ofText (qs "\"a\" + \x7b1, 2\x7d") = .ok p ∧
    p.valid = true ∧ p.returnType = .string ∧ emptyMessage.Typed MESSAGE_TYPING_CONTEXT ∧
    p.builtExpression.execute asciiTables checkedArithmetic emptyMessage = .ok (.int 0) ∧
    ¬ HasType (.int 0) p.returnType :=
  ⟨_, rfl, rfl, rfl, emptyMessage_typed, rfl, fun has => nomatch has⟩

end Forserino.Filters
