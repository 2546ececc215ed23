import Forserino.Filters.Expression

/-! FilterParser.cpp: recursive descent over the token cursor, with errors recorded
in a flag and a log while the parser goes on.

Recursion and loops are bounded by fuel; running out of it and reading past the
last token are the two ways a run can get stuck.
-/

set_option autoImplicit false

namespace Forserino.Filters

open Forserino.Qt

inductive ParseStuck where
  | outOfFuel
  | pastEnd
  deriving DecidableEq, Repr

structure ParserState where
  tokenizer : Tokenizer
  valid : Bool
  parseLog : List QString
  deriving Repr

abbrev ParserM := StateT ParserState (Except ParseStuck)

def readCursor {A : Type} (read : Tokenizer → Option A) : ParserM A := fun s =>
  match read s.tokenizer with
  | some a => .ok (a, s)
  | none => .error .pastEnd

def hasNext : ParserM Bool := readCursor (fun t => some t.hasNext)

def preview : ParserM QString := readCursor (fun t => some t.preview)

def current : ParserM QString := readCursor Tokenizer.current

def nextTokenType : ParserM TokenType := readCursor Tokenizer.nextTokenType

def tokenType : ParserM TokenType := readCursor Tokenizer.tokenType

def next : ParserM QString := fun s =>
  match s.tokenizer.next with
  | some (text, t) => .ok (text, { s with tokenizer := t })
  | none => .error .pastEnd

/-- `hasNext() && test(nextTokenType())` -/
def nextTokenIs (test : TokenType → Bool) : ParserM Bool := do
  if ← hasNext then return test (← nextTokenType) else return false

/-- Only the first error is kept, unless expand is set. -/
def errorLog (text : QString) (expand : Bool) : ParserM Unit := fun s =>
  .ok ((), { s with
    valid := false
    parseLog := if expand || s.parseLog.length == 0 then s.parseLog ++ [text] else s.parseLog })

def missingMessage (what : String) : ParserM QString := do
  if ← hasNext then return (qs (what ++ ": got %1")).arg (← preview)
  else return qs (what ++ " at end of statement")

/-- The content of a string literal token: quote marks removed, then unescaped. -/
def stringContent (before : QString) : QString := unescape ((before.mid 1).chop 1)

def regexContent (before : QString) : QString :=
  unescape ((before.mid (if before.startsWith (qs "ri") then 3 else 2)).chop 1)

mutual

def parseExpression : Nat → Bool → ParserM Expr
  | 0, _ => throw .outOfFuel
  | fuel + 1, top => do
      let first ← parseAnd fuel
      let e ← parseOrs fuel first
      if (← hasNext) && top then
        errorLog ((qs "Unexpected token at end: %1").arg (← preview)) false
      return e

/-- The loop of parseExpression. -/
def parseOrs : Nat → Expr → ParserM Expr
  | 0, _ => throw .outOfFuel
  | fuel + 1, e => do
      if ← nextTokenIs (· == .or) then
        let _ ← next
        let nextAnd ← parseAnd fuel
        parseOrs fuel (.binary .or e nextAnd)
      else return e

def parseAnd : Nat → ParserM Expr
  | 0 => throw .outOfFuel
  | fuel + 1 => do
      let first ← parseUnary fuel
      parseAnds fuel first

/-- The loop of parseAnd. -/
def parseAnds : Nat → Expr → ParserM Expr
  | 0, _ => throw .outOfFuel
  | fuel + 1, e => do
      if ← nextTokenIs (· == .and) then
        let _ ← next
        let nextUnary ← parseUnary fuel
        parseAnds fuel (.binary .and e nextUnary)
      else return e

def parseUnary : Nat → ParserM Expr
  | 0 => throw .outOfFuel
  | fuel + 1 => do
      if ← nextTokenIs typeIsUnaryOp then
        let _ ← next
        let type ← tokenType
        let nextCondition ← parseCondition fuel
        return .unary type nextCondition
      else parseCondition fuel

def parseParentheses : Nat → ParserM Expr
  | 0 => throw .outOfFuel
  | fuel + 1 => do
      let _ ← next
      let e ← parseExpression fuel false
      if ← nextTokenIs (· == .rp) then
        let _ ← next
        return e
      else
        errorLog (← missingMessage "Missing closing parentheses") false
        return e

def parseCondition : Nat → ParserM Expr
  | 0 => throw .outOfFuel
  | fuel + 1 => do
      let parenthesized ← nextTokenIs (· == .lp)
      let value ← (if parenthesized then parseParentheses fuel else parseValue fuel)
      parseOperators fuel value

/-- The loop of parseCondition. -/
def parseOperators : Nat → Expr → ParserM Expr
  | 0, _ => throw .outOfFuel
  | fuel + 1, value => do
      if !(← hasNext) then return value
      let ahead ← nextTokenType
      if typeIsBinaryOp ahead then
        let _ ← next
        let type ← tokenType
        let nextValue ← parseValue fuel
        return .binary type value nextValue
      else if typeIsMathOp ahead then
        let _ ← next
        let type ← tokenType
        let nextValue ← parseValue fuel
        parseOperators fuel (.binary type value nextValue)
      else if ahead == .rp then return value
      else if !typeIsOp ahead then
        errorLog (((qs "Expected an operator but got %1 %2").arg (← preview)).arg
          (tokenTypeToInfoString ahead)) false
        return value
      else return value

def parseValue : Nat → ParserM Expr
  | 0 => throw .outOfFuel
  | fuel + 1 => do
      if ← hasNext then
        let type ← nextTokenType
        match type with
        | .int => return .value (.int ((← next).toInt.getD 0))
        | .string => return .value (.string (stringContent (← next)))
        | .identifier => return .value (.identifier (← next))
        | .regularExpression =>
            let before ← next
            return .regex (regexContent before) (before.startsWith (qs "ri"))
        | .lp => parseParentheses fuel
        | .listStart => parseList fuel
        | _ =>
            let _ ← next
            errorLog (((qs "Expected value but got %1 %2").arg (← current)).arg
              (tokenTypeToInfoString type)) false
            return .value (.int 0)
      else
        errorLog (qs "Unexpected end of statement") false
        return .value (.int 0)

def parseList : Nat → ParserM Expr
  | 0 => throw .outOfFuel
  | fuel + 1 => do
      let _ ← next
      parseItems fuel [] true

/-- The loop of parseList, with the items read so far. -/
def parseItems : Nat → List Expr → Bool → ParserM Expr
  | 0, _, _ => throw .outOfFuel
  | fuel + 1, items, first => do
      if ← nextTokenIs (· == .listEnd) then
        let _ ← next
        return .list items
      else if (← nextTokenIs (· == .comma)) && !first then
        let _ ← next
        let item ← parseValue fuel
        parseItems fuel (items ++ [item]) false
      else if (← hasNext) && first then
        let item ← parseValue fuel
        parseItems fuel (items ++ [item]) false
      else
        errorLog (← missingMessage "Missing closing list braces") false
        return .list []

end

/-! ## The constructor -/

structure FilterParser where
  builtExpression : Expr
  valid : Bool
  parseLog : List QString
  returnType : FilterType
  deriving Repr

def explainIllType (expr : Expr) (message : QString) : QString :=
  ((qs "%1\n\nProblem occurred here:\n%2").arg message).arg expr.filterString

/-- Fuel that every token list of this length can do with. -/
def enoughFuel (tokens : List Token) : Nat := 8 * tokens.length + 8

/-- FilterParser::FilterParser on a token list. -/
def FilterParser.ofTokens (tokens : List Token) : Except ParseStuck FilterParser :=
  match parseExpression (enoughFuel tokens) true ⟨⟨0, tokens⟩, true, []⟩ with
  | .error stuck => .error stuck
  | .ok (e, s) =>
      if !s.valid then .ok ⟨e, false, s.parseLog, .bool⟩
      else
        match e.synthesizeType MESSAGE_TYPING_CONTEXT with
        | .illTyped expr message =>
            let log := if s.parseLog.length == 0 then s.parseLog ++ [explainIllType expr message] else s.parseLog
            .ok ⟨e, false, log, .bool⟩
        | .typeClass type => .ok ⟨e, true, s.parseLog, type⟩

def FilterParser.ofText (text : QString) : Except ParseStuck FilterParser :=
  FilterParser.ofTokens (tokensOf text)

end Forserino.Filters
