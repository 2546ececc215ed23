import Forserino.Filters.Parser

/-! The grammar of the filter language, with the tree of each derivation, and how
one step of the parser moves the cursor.

The grammar is left recursive where the source loops, so a derivation already
says that the operators of one level associate to the left.
-/

set_option autoImplicit false

namespace Forserino.Filters

open Forserino.Qt

inductive Symbol where
  | expr | and | unary | cond | sum | value | items
  deriving DecidableEq, Repr

/-- `Derives n ts e`: the tokens ts derive from the symbol n with tree e. -/
inductive Derives : Symbol → List Token → Expr → Prop where
  | exprAnd {ts : List Token} {e : Expr} : Derives .and ts e → Derives .expr ts e
  | exprOr {ts ts' : List Token} {t : Token} {left right : Expr} : Derives .expr ts left →
      t.type = .or → Derives .and ts' right → Derives .expr (ts ++ t :: ts') (.binary .or left right)
  | andUnary {ts : List Token} {e : Expr} : Derives .unary ts e → Derives .and ts e
  | andAnd {ts ts' : List Token} {t : Token} {left right : Expr} : Derives .and ts left →
      t.type = .and → Derives .unary ts' right → Derives .and (ts ++ t :: ts') (.binary .and left right)
  | unaryCond {ts : List Token} {e : Expr} : Derives .cond ts e → Derives .unary ts e
  | unaryNot {ts : List Token} {t : Token} {e : Expr} :
      t.type = .not → Derives .cond ts e → Derives .unary (t :: ts) (.unary .not e)
  | condSum {ts : List Token} {e : Expr} : Derives .sum ts e → Derives .cond ts e
  | condCompare {ts ts' : List Token} {t : Token} {left right : Expr} : Derives .sum ts left →
      typeIsBinaryOp t.type = true → Derives .value ts' right →
      Derives .cond (ts ++ t :: ts') (.binary t.type left right)
  | sumValue {ts : List Token} {e : Expr} : Derives .value ts e → Derives .sum ts e
  | sumMath {ts ts' : List Token} {t : Token} {left right : Expr} : Derives .sum ts left →
      typeIsMathOp t.type = true → Derives .value ts' right →
      Derives .sum (ts ++ t :: ts') (.binary t.type left right)
  | valueInt {t : Token} : t.type = .int → Derives .value [t] (.value (.int (t.text.toInt.getD 0)))
  | valueString {t : Token} : t.type = .string →
      Derives .value [t] (.value (.string (stringContent t.text)))
  | valueIdentifier {t : Token} : t.type = .identifier → Derives .value [t] (.value (.identifier t.text))
  | valueRegex {t : Token} : t.type = .regularExpression →
      Derives .value [t] (.regex (regexContent t.text) (t.text.startsWith (qs "ri")))
  | valueParen {ts : List Token} {open' close : Token} {e : Expr} : open'.type = .lp →
      Derives .expr ts e → close.type = .rp → Derives .value (open' :: ts ++ [close]) e
  | valueEmpty {open' close : Token} : open'.type = .listStart → close.type = .listEnd →
      Derives .value [open', close] (.list [])
  | valueList {ts : List Token} {open' close : Token} {e : Expr} : open'.type = .listStart →
      Derives .items ts e → close.type = .listEnd → Derives .value (open' :: ts ++ [close]) e
  | itemsOne {ts : List Token} {e : Expr} : Derives .value ts e → Derives .items ts (.list [e])
  | itemsMore {ts ts' : List Token} {t : Token} {es : List Expr} {e : Expr} :
      Derives .items ts (.list es) → t.type = .comma → Derives .value ts' e →
      Derives .items (ts ++ t :: ts') (.list (es ++ [e]))

/-! ## Token classes -/

theorem typeIsUnaryOp_iff (type : TokenType) : typeIsUnaryOp type = true ↔ type = .not := by
  cases type <;> decide

theorem not_binary_and_math (type : TokenType) (binary : typeIsBinaryOp type = true) :
    typeIsMathOp type = false := by
  revert binary
  cases type <;> decide

/-! ## Cursor steps -/

namespace ParserState

def remaining (s : ParserState) : List Token := s.tokenizer.remaining

/-- The state with the cursor n tokens further. -/
def advance (s : ParserState) (n : Nat) : ParserState :=
  { s with tokenizer := { s.tokenizer with i := s.tokenizer.i + n } }

@[simp] theorem advance_valid (s : ParserState) (n : Nat) : (s.advance n).valid = s.valid := rfl

@[simp] theorem advance_zero (s : ParserState) : s.advance 0 = s := rfl

@[simp] theorem advance_advance (s : ParserState) (m n : Nat) :
    (s.advance m).advance n = s.advance (m + n) := by
  simp [advance, Nat.add_assoc]

@[simp] theorem remaining_advance (s : ParserState) (n : Nat) :
    (s.advance n).remaining = s.remaining.drop n := by
  simp [remaining, Tokenizer.remaining, advance, List.drop_drop]

theorem remaining_advance_append {s : ParserState} {ts rest : List Token}
    (ahead : s.remaining = ts ++ rest) : (s.advance ts.length).remaining = rest := by
  simp [ahead]

theorem advance_shorter {s : ParserState} {t : Token} {tail rest : List Token} (ahead : s.remaining = t :: tail ++ rest) :
    (s.advance (t :: tail).length).remaining.length < s.remaining.length := by
  rw [remaining_advance_append ahead, ahead, List.length_append, List.length_cons]
  omega

/-- The state after an error has been logged. -/
def fail (s : ParserState) (text : QString) : ParserState :=
  { s with
    valid := false
    parseLog := if s.parseLog.length == 0 then s.parseLog ++ [text] else s.parseLog }

@[simp] theorem fail_valid (s : ParserState) (text : QString) : (s.fail text).valid = false := rfl

@[simp] theorem fail_remaining (s : ParserState) (text : QString) :
    (s.fail text).remaining = s.remaining := rfl

end ParserState

open ParserState

theorem bind_ok {A B : Type} {m : ParserM A} {next : A → ParserM B} {s s' : ParserState} {a : A}
    (run : m s = .ok (a, s')) : (m >>= next) s = next a s' := by
  simp [bind, StateT.bind, run, Except.bind]

theorem pure_ok {A : Type} (a : A) (s : ParserState) : (pure a : ParserM A) s = .ok (a, s) := rfl

theorem getElem?_of_remaining {s : ParserState} {t : Token} {rest : List Token}
    (ahead : s.remaining = t :: rest) : s.tokenizer.tokens[s.tokenizer.i]? = some t := by
  have head : (s.tokenizer.tokens.drop s.tokenizer.i)[0]? = some t := by
    rw [show s.tokenizer.tokens.drop s.tokenizer.i = t :: rest from ahead]
    rfl
  simpa using head

theorem hasNext_run (s : ParserState) : hasNext s = .ok (s.remaining ≠ [], s) := by
  simp [hasNext, readCursor, Tokenizer.hasNext, remaining, Tokenizer.remaining]

theorem nextTokenType_run {s : ParserState} {t : Token} {rest : List Token}
    (ahead : s.remaining = t :: rest) : nextTokenType s = .ok (t.type, s) := by
  simp [nextTokenType, readCursor, Tokenizer.nextTokenType, getElem?_of_remaining ahead]

theorem next_run {s : ParserState} {t : Token} {rest : List Token}
    (ahead : s.remaining = t :: rest) : next s = .ok (t.text, s.advance 1) := by
  simp [next, Tokenizer.next, getElem?_of_remaining ahead, advance]

theorem tokenType_run {s : ParserState} {t : Token} {rest : List Token}
    (ahead : s.remaining = t :: rest) : tokenType (s.advance 1) = .ok (t.type, s.advance 1) := by
  have here := getElem?_of_remaining ahead
  simp [tokenType, readCursor, Tokenizer.tokenType, advance, here]

theorem current_run {s : ParserState} {t : Token} {rest : List Token}
    (ahead : s.remaining = t :: rest) : current (s.advance 1) = .ok (t.text, s.advance 1) := by
  have here := getElem?_of_remaining ahead
  simp [current, readCursor, Tokenizer.current, advance, here]

theorem preview_run (s : ParserState) : ∃ text, preview s = .ok (text, s) := ⟨_, rfl⟩

theorem errorLog_run (text : QString) (s : ParserState) : errorLog text false s = .ok ((), s.fail text) := by
  simp [errorLog, ParserState.fail]

theorem nextTokenIs_run (test : TokenType → Bool) (s : ParserState) :
    nextTokenIs test s = .ok (s.remaining.head?.any (fun t => test t.type), s) := by
  unfold nextTokenIs
  rw [bind_ok (hasNext_run s)]
  cases ahead : s.remaining with
  | nil => simp [pure_ok]
  | cons t rest => simp [bind_ok (nextTokenType_run ahead), pure_ok]

theorem missingMessage_run (what : String) (s : ParserState) : ∃ text, missingMessage what s = .ok (text, s) := by
  unfold missingMessage
  rw [bind_ok (hasNext_run s)]
  split
  · obtain ⟨text, run⟩ := preview_run s
    exact ⟨_, by rw [bind_ok run, pure_ok]⟩
  · exact ⟨_, rfl⟩

end Forserino.Filters
