import Forserino.Qt.PlaceMarkers

/-! Tokenizer.cpp: the token regex, the classification of a token text, and the
cursor over the tokens that the parser moves.
-/

set_option autoImplicit false

namespace Forserino.Filters

open Forserino.Qt

/-- The members of the enum that a token can have; the START and END members are
only bounds of the ranges below. -/
inductive TokenType where
  | and | or | lp | rp | listStart | listEnd | comma
  | eq | neq | lt | gt | lte | gte | contains | startsWith | endsWith | regexMatch
  | not
  | plus | minus | multiply | divide | mod
  | string | int | identifier | regularExpression
  | none
  deriving DecidableEq, Repr

namespace TokenType

def code : TokenType → Nat
  | and => 1 | or => 2 | lp => 3 | rp => 4 | listStart => 5 | listEnd => 6 | comma => 7
  | eq => 21 | neq => 22 | lt => 23 | gt => 24 | lte => 25 | gte => 26
  | contains => 27 | startsWith => 28 | endsWith => 29 | regexMatch => 30
  | not => 51
  | plus => 101 | minus => 102 | multiply => 103 | divide => 104 | mod => 105
  | string => 151 | int => 152 | identifier => 153 | regularExpression => 154
  | none => 200

def BINARY_START : Nat := 20
def BINARY_END : Nat := 49
def UNARY_START : Nat := 50
def UNARY_END : Nat := 99
def MATH_START : Nat := 100
def MATH_END : Nat := 149

end TokenType

def typeIsBinaryOp (token : TokenType) : Bool :=
  token.code > TokenType.BINARY_START && token.code < TokenType.BINARY_END

def typeIsUnaryOp (token : TokenType) : Bool :=
  token.code > TokenType.UNARY_START && token.code < TokenType.UNARY_END

def typeIsMathOp (token : TokenType) : Bool :=
  token.code > TokenType.MATH_START && token.code < TokenType.MATH_END

def typeIsOp (token : TokenType) : Bool :=
  typeIsBinaryOp token || typeIsUnaryOp token || typeIsMathOp token ||
    token == TokenType.and || token == TokenType.or

def tokenTypeToInfoString : TokenType → QString
  | .and => qs "And"
  | .or => qs "Or"
  | .lp => qs "<left parenthesis>"
  | .rp => qs "<right parenthesis>"
  | .listStart => qs "<list start>"
  | .listEnd => qs "<list end>"
  | .comma => qs "<comma>"
  | .plus => qs "Plus"
  | .minus => qs "Minus"
  | .multiply => qs "Multiply"
  | .divide => qs "Divide"
  | .mod => qs "Mod"
  | .eq => qs "Eq"
  | .neq => qs "NotEq"
  | .lt => qs "LessThan"
  | .gt => qs "GreaterThan"
  | .lte => qs "LessThanEq"
  | .gte => qs "GreaterThanEq"
  | .contains => qs "Contains"
  | .startsWith => qs "StartsWith"
  | .endsWith => qs "EndsWith"
  | .regexMatch => qs "Match"
  | .not => qs "Not"
  | .string => qs "<string>"
  | .int => qs "<int>"
  | .identifier => qs "<identifier>"
  | .regularExpression | .none => qs "<unknown>"

/-- The keys of VALID_IDENTIFIERS_MAP; its display texts are not read here. -/
def VALID_IDENTIFIERS : List QString :=
  [qs "author.badges", qs "author.color", qs "author.name", qs "author.user_id",
   qs "author.no_color", qs "author.subbed", qs "author.sub_length",
   qs "channel.name", qs "channel.watching", qs "channel.live",
   qs "flags.action", qs "flags.highlighted", qs "flags.points_redeemed",
   qs "flags.sub_message", qs "flags.system_message", qs "flags.reward_message",
   qs "flags.first_message", qs "flags.elevated_message", qs "flags.hype_chat",
   qs "flags.cheer_message", qs "flags.whisper", qs "flags.reply", qs "flags.automod",
   qs "flags.restricted", qs "flags.monitored", qs "flags.shared", qs "flags.similar",
   qs "message.content", qs "message.length",
   qs "reward.title", qs "reward.cost", qs "reward.id",
   qs "flags.webchat_detected"]

/-- The texts that Tokenizer::tokenize compares with, in its order. -/
def FIXED_TOKENS : List (QString × TokenType) :=
  [(qs "&&", .and), (qs "||", .or), (qs "(", .lp), (qs ")", .rp),
   (qs "\x7b", .listStart), (qs "\x7d", .listEnd), (qs ",", .comma),
   (qs "+", .plus), (qs "-", .minus), (qs "*", .multiply), (qs "/", .divide),
   (qs "==", .eq), (qs "!=", .neq), (qs "%", .mod),
   (qs "<", .lt), (qs ">", .gt), (qs "<=", .lte), (qs ">=", .gte),
   (qs "contains", .contains), (qs "startswith", .startsWith), (qs "endswith", .endsWith),
   (qs "match", .regexMatch), (qs "!", .not)]

def quote : QChar := u '"'

def backslash : QChar := u '\\'

/-- Tokenizer::tokenize -/
def tokenize (text : QString) : TokenType :=
  match FIXED_TOKENS.lookup text with
  | some type => type
  | none =>
      if (text.startsWith (qs "r\"") || text.startsWith (qs "ri\"")) && text.getLast? == some quote then
        .regularExpression
      else if text.head? == some quote && text.getLast? == some quote then .string
      else if VALID_IDENTIFIERS.contains text then .identifier
      else if text.toInt.isSome then .int
      else .none

/-! ## TOKEN_REGEX -/

/-- Length of `((\\")|[^"])*"` at the start of the text. The star takes an escaped
quote as content first; when no closing quote follows, the regex engine gives it
back, and that quote closes the literal. -/
def closing : QString → Option Nat
  | [] => none
  | [c] => if c = quote then some 1 else none
  | c :: d :: rest =>
      if c = quote then some 1
      else if c = backslash ∧ d = quote then some ((closing rest).elim 2 (· + 2))
      else (closing (d :: rest)).map (· + 1)

def literalPrefixes : List QString := [qs "r\"", qs "ri\"", qs "\""]

/-- The first alternative: a string or regex literal. -/
def matchLiteral (text : QString) : Option Nat :=
  literalPrefixes.findSome? fun start =>
    if text.startsWith start then (closing (text.drop start.length)).map (· + start.length) else none

/-- `[\w\.]`, where \w is ASCII because UseUnicodePropertiesOption is not set. -/
def isWordOrDot (c : QChar) : Bool :=
  isDigit c || (65 ≤ c.toNat && c.toNat ≤ 90) || (97 ≤ c.toNat && c.toNat ≤ 122) ||
    c == u '_' || c == u '.'

def matchWord (text : QString) : Nat := (text.takeWhile isWordOrDot).length

def longOperators : List QString := [qs "<=", qs ">=", qs "!=", qs "==", qs "||", qs "&&"]

def shortOperators : List QChar := [u '<', u '>', u '!', u '+', u '-', u '*', u '/', u '%']

/-- Length of the greedy repetition of operators at the start of the text. -/
def matchOperators : QString → Nat
  | [] => 0
  | [c] => if c ∈ shortOperators then 1 else 0
  | c :: d :: rest =>
      if [c, d] ∈ longOperators then 2 + matchOperators rest
      else if c ∈ shortOperators then 1 + matchOperators (d :: rest)
      else 0

def singleTokens : List QChar := [u '(', u ')', u '{', u '}', u ',']

/-- Length of the match that starts here: the alternatives in the order of the regex. -/
def matchToken (text : QString) : Option Nat :=
  match matchLiteral text with
  | some n => some n
  | none =>
      if 0 < matchWord text then some (matchWord text)
      else if 0 < matchOperators text then some (matchOperators text)
      else if text.head?.any (· ∈ singleTokens) then some 1
      else none

/-- QRegularExpression::globalMatch: text that starts no token is skipped unit by
unit, and skip counts the units of the current token that are still to be passed. -/
def globalMatch : Nat → QString → List QString
  | _, [] => []
  | skip + 1, _ :: rest => globalMatch skip rest
  | 0, c :: rest =>
      match matchToken (c :: rest) with
      | some n => (c :: rest).take n :: globalMatch (n - 1) rest
      | none => globalMatch 0 rest

/-! ## The cursor -/

structure Token where
  text : QString
  type : TokenType
  deriving DecidableEq, Repr

/-- The text and type lists of the source are one list here; i counts the tokens read. -/
structure Tokenizer where
  i : Nat
  tokens : List Token
  deriving DecidableEq, Repr

def tokensOf (text : QString) : List Token :=
  (globalMatch 0 text).map fun captured => ⟨captured, tokenize captured⟩

namespace Tokenizer

def ofText (text : QString) : Tokenizer := ⟨0, tokensOf text⟩

def hasNext (t : Tokenizer) : Bool := t.i < t.tokens.length

/-- none is a read past the end of the token list. -/
def next (t : Tokenizer) : Option (QString × Tokenizer) :=
  t.tokens[t.i]?.map fun token => (token.text, { t with i := t.i + 1 })

def current (t : Tokenizer) : Option QString :=
  if t.i = 0 then none else t.tokens[t.i - 1]?.map Token.text

def preview (t : Tokenizer) : QString := (t.tokens[t.i]?.map Token.text).getD []

def nextTokenType (t : Tokenizer) : Option TokenType := t.tokens[t.i]?.map Token.type

def tokenType (t : Tokenizer) : Option TokenType :=
  if t.i = 0 then none else t.tokens[t.i - 1]?.map Token.type

/-- The tokens that are still to be read. -/
def remaining (t : Tokenizer) : List Token := t.tokens.drop t.i

end Tokenizer

example : (tokensOf (qs "!(a.b >= \"x\\\"y\")")).map Token.text =
    [qs "!", qs "(", qs "a.b", qs ">=", qs "\"x\\\"y\"", qs ")"] := by decide

end Forserino.Filters
