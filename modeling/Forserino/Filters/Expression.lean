import Forserino.Filters.Tokenizer

/-! Expression trees of the filter language, their types and their printed form
(Types.cpp, expressions/*.cpp and the typing context of Filter.cpp).
-/

set_option autoImplicit false

namespace Forserino.Filters

open Forserino.Qt

/-- The values of a ValueExpression, one constructor for each token type the parser
gives it, so that the value always fits the type. -/
inductive Literal where
  | int (value : Int)
  | string (value : QString)
  | identifier (name : QString)
  deriving DecidableEq, Repr

inductive Expr where
  | value (literal : Literal)
  | regex (regexString : QString) (caseInsensitive : Bool)
  | unary (op : TokenType) (right : Expr)
  | binary (op : TokenType) (left right : Expr)
  | list (items : List Expr)
  deriving Repr

/-! ## Filter::filterString -/

def UnaryOperation.opText : TokenType → QString
  | .not => qs "!"
  | _ => []

def BinaryOperation.opText : TokenType → QString
  | .and => qs "&&"
  | .or => qs "||"
  | .plus => qs "+"
  | .minus => qs "-"
  | .multiply => qs "*"
  | .divide => qs "/"
  | .mod => qs "%"
  | .eq => qs "=="
  | .neq => qs "!="
  | .lt => qs "<"
  | .gt => qs ">"
  | .lte => qs "<="
  | .gte => qs ">="
  | .contains => qs "contains"
  | .startsWith => qs "startswith"
  | .endsWith => qs "endswith"
  | .regexMatch => qs "match"
  | _ => []

/-- `s.replace("\"", "\\\"")` -/
def escape (s : QString) : QString := s.replace [quote] [backslash, quote]

/-- `s.replace("\\\"", "\"")` -/
def unescape (s : QString) : QString := s.replace [backslash, quote] [quote]

def regexPrefix (caseInsensitive : Bool) : QString := if caseInsensitive then qs "ri" else qs "r"

mutual

def Expr.filterString : Expr → QString
  | .value (.int n) => number n
  | .value (.string s) => (qs "\"%1\"").arg (escape s)
  | .value (.identifier name) => name
  | .regex s caseInsensitive => ((qs "%1\"%2\"").arg (regexPrefix caseInsensitive)).arg (escape s)
  | .unary op right => ((qs "(%1%2)").arg (UnaryOperation.opText op)).arg right.filterString
  | .binary op left right =>
      (((qs "(%1 %2 %3)").arg left.filterString).arg (BinaryOperation.opText op)).arg right.filterString
  | .list items => (qs "\x7b%1\x7d").arg (join (qs ", ") (filterStrings items))

def filterStrings : List Expr → List QString
  | [] => []
  | item :: rest => item.filterString :: filterStrings rest

end

/-! ## Types -/

inductive FilterType where
  | string | int | bool | color | regularExpression
  | list | stringList | matchingSpecifier | map
  deriving DecidableEq, Repr

/-- A type, or the expression that has none with the reason. -/
inductive PossibleType where
  | typeClass (type : FilterType)
  | illTyped (expr : Expr) (message : QString)
  deriving Repr

def isWellTyped : PossibleType → Bool
  | .typeClass _ => true
  | .illTyped .. => false

/-- isList on a TypeClass. -/
def isList (type : FilterType) : Bool :=
  type == .list || type == .stringList || type == .matchingSpecifier

abbrev TypingContext := List (QString × FilterType)

def MESSAGE_TYPING_CONTEXT : TypingContext :=
  [(qs "author.badges", .stringList), (qs "author.color", .color), (qs "author.name", .string),
   (qs "author.user_id", .string), (qs "author.no_color", .bool), (qs "author.subbed", .bool),
   (qs "author.sub_length", .int),
   (qs "channel.name", .string), (qs "channel.watching", .bool), (qs "channel.live", .bool),
   (qs "flags.action", .bool), (qs "flags.highlighted", .bool), (qs "flags.points_redeemed", .bool),
   (qs "flags.sub_message", .bool), (qs "flags.system_message", .bool),
   (qs "flags.reward_message", .bool), (qs "flags.first_message", .bool),
   (qs "flags.elevated_message", .bool), (qs "flags.hype_chat", .bool),
   (qs "flags.cheer_message", .bool), (qs "flags.whisper", .bool), (qs "flags.reply", .bool),
   (qs "flags.automod", .bool), (qs "flags.restricted", .bool), (qs "flags.monitored", .bool),
   (qs "flags.shared", .bool), (qs "flags.similar", .bool),
   (qs "message.content", .string), (qs "message.length", .int),
   (qs "reward.title", .string), (qs "reward.cost", .int), (qs "reward.id", .string),
   (qs "flags.webchat_detected", .bool)]

/-- The switch of BinaryOperation::synthesizeType on two well-typed operands: a
type or the message of the IllTyped. -/
def BinaryOperation.typeOf (op : TokenType) (left right : FilterType) : Except QString FilterType :=
  match op with
  | .plus =>
      if left = .string then .ok .string
      else if left = .int ∧ right = .int then .ok .int
      else .error (qs "Can only add Ints or concatenate a String")
  | .minus | .multiply | .divide | .mod =>
      if left = .int ∧ right = .int then .ok .int
      else .error (qs "Can only perform operation with Ints")
  | .or | .and =>
      if left = .bool ∧ right = .bool then .ok .bool
      else .error (qs "Can only perform logical operations with Bools")
  | .eq | .neq => .ok .bool
  | .lt | .gt | .lte | .gte =>
      if left = .int ∧ right = .int then .ok .bool
      else .error (qs "Can only perform comparisons with Ints")
  | .startsWith | .endsWith =>
      if isList left then .ok .bool
      else if left = .string ∧ right = .string then .ok .bool
      else .error (qs "Can only perform starts/ends with a List or two Strings")
  | .contains =>
      if isList left || left == .map then .ok .bool
      else if left = .string ∧ right = .string then .ok .bool
      else .error (qs "Can only perform contains with a List, a Map, or two Strings")
  | .regexMatch =>
      if left ≠ .string then .error (qs "Left argument of match must be a String")
      else if right = .regularExpression then .ok .bool
      else if right = .matchingSpecifier then .ok .string
      else .error (qs "Can only match on a RegularExpression or a MatchingSpecifier")
  | _ => .error (qs "Not implemented")

def UnaryOperation.typeOf (op : TokenType) (right : FilterType) : Except QString FilterType :=
  match op with
  | .not => if right = .bool then .ok .bool else .error (qs "Can only negate boolean values")
  | _ => .error (qs "Not implemented")

/-- The end of ListExpression::synthesizeType, when every item has a type. -/
def ListExpression.typeOf (types : List FilterType) : FilterType :=
  if types = [.regularExpression, .int] then .matchingSpecifier
  else if types.all (· == .string) then .stringList
  else .list

def classify (expr : Expr) : Except QString FilterType → PossibleType
  | .ok type => .typeClass type
  | .error message => .illTyped expr message

mutual

def Expr.synthesizeType (context : TypingContext) : Expr → PossibleType
  | .value (.int _) => .typeClass .int
  | .value (.string _) => .typeClass .string
  | .value (.identifier name) =>
      match context.lookup name with
      | some type => .typeClass type
      | none => .illTyped (.value (.identifier name)) (qs "Unbound identifier")
  | .regex _ _ => .typeClass .regularExpression
  | .unary op right =>
      match right.synthesizeType context with
      | .illTyped expr message => .illTyped expr message
      | .typeClass type => classify (.unary op right) (UnaryOperation.typeOf op type)
  | .binary op left right =>
      match left.synthesizeType context, right.synthesizeType context with
      | .illTyped expr message, _ => .illTyped expr message
      | _, .illTyped expr message => .illTyped expr message
      | .typeClass leftType, .typeClass rightType =>
          classify (.binary op left right) (BinaryOperation.typeOf op leftType rightType)
  | .list items =>
      match synthesizeTypes context items with
      | .ok types => .typeClass (ListExpression.typeOf types)
      | .error (expr, message) => .illTyped expr message

/-- The types of the items, or the first item that has none. -/
def synthesizeTypes (context : TypingContext) : List Expr → Except (Expr × QString) (List FilterType)
  | [] => .ok []
  | item :: rest =>
      match item.synthesizeType context with
      | .illTyped expr message => .error (expr, message)
      | .typeClass type => (synthesizeTypes context rest).map (type :: ·)

end

end Forserino.Filters
