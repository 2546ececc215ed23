import Forserino.Filters.ParserSoundness

/-! Every derivation of the grammar is found: where the tokens ahead derive from a
symbol and what follows cannot continue them, the parser function of the symbol
consumes them and builds the tree of the derivation.

The functions that end in a loop are described by what the loop does behind the
derivation, so that one operator after the other can be put in front of it.
-/

set_option autoImplicit false

namespace Forserino.Filters

open Forserino.Qt ParserState

/-- With k units of fuel beyond eight for each token ahead, m ends with the result. -/
def Ends (m : Nat → ParserM Expr) (k : Nat) (s : ParserState) (result : Expr × ParserState) : Prop :=
  ∀ fuel, 8 * s.remaining.length + k ≤ fuel → m fuel s = .ok result

/-- The next token, if there is one, has one of these types. -/
def Before (types : List TokenType) (rest : List Token) : Prop := ∀ t ∈ rest.head?, t.type ∈ types

/-- What the parser does when tokens that derive from the symbol are ahead. -/
def Reads (n : Symbol) (ts : List Token) (e : Expr) : Prop :=
  ∀ (s : ParserState) (rest : List Token), s.remaining = ts ++ rest →
    match n with
    | .value => Ends parseValue 3 s (e, s.advance ts.length)
    | .sum => ∀ result, Ends (fun fuel => parseOperators fuel e) 1 (s.advance ts.length) result →
        Ends parseCondition 4 s result
    | .cond => Before [.rp, .or, .and] rest → Ends parseCondition 4 s (e, s.advance ts.length)
    | .unary => Before [.rp, .or, .and] rest → Ends parseUnary 5 s (e, s.advance ts.length)
    | .and => Before [.rp, .or, .and] rest → ∀ result,
        Ends (fun fuel => parseAnds fuel e) 1 (s.advance ts.length) result → Ends parseAnd 6 s result
    | .expr => Before [.rp, .or] rest → ∀ result,
        Ends (fun fuel => parseOrs fuel e) 1 (s.advance ts.length) result →
        Ends (fun fuel => parseAnd fuel >>= parseOrs fuel) 6 s result
    | .items => ∀ es, e = .list es → ∀ result,
        Ends (fun fuel => parseItems fuel es false) 4 (s.advance ts.length) result →
        Ends (fun fuel => parseItems fuel [] true) 4 s result

theorem Before.cons {types : List TokenType} {t : Token} (rest : List Token) (one : t.type ∈ types) :
    Before types (t :: rest) := by
  intro t' head
  obtain rfl : t = t' := by simpa using head
  exact one

theorem Before.mono {types types' : List TokenType} {rest : List Token} (before : Before types rest)
    (wider : ∀ type ∈ types, type ∈ types') : Before types' rest :=
  fun t head => wider _ (before t head)

/-- The fuel is never zero, which lets the first step of m be unfolded. -/
theorem Ends.of_succ {m : Nat → ParserM Expr} {k : Nat} {s : ParserState} {result : Expr × ParserState}
    (step : ∀ fuel, 8 * s.remaining.length + k ≤ fuel → m (fuel + 1) s = .ok result) :
    Ends m (k + 1) s result := by
  intro fuel enough
  cases fuel with
  | zero => omega
  | succ fuel => exact step fuel (by omega)

/-! ## Tokens that start a value -/

def startsValue (type : TokenType) : Bool :=
  type ∈ [.int, .string, .identifier, .regularExpression, .lp, .listStart]

/-- From these symbols derives nothing that starts with another token. -/
def opensWithValue : Symbol → Prop
  | .expr | .and | .unary => False
  | .cond | .sum | .value | .items => True

theorem Derives.starts {n : Symbol} {ts : List Token} {e : Expr} (derived : Derives n ts e) :
    opensWithValue n → ∃ t rest, ts = t :: rest ∧ startsValue t.type = true := by
  induction derived with
  | exprAnd _ _ | exprOr _ _ _ _ _ | andUnary _ _ | andAnd _ _ _ _ _ | unaryCond _ _ | unaryNot _ _ _ =>
    exact fun impossible => impossible.elim
  | condSum _ ih | sumValue _ ih | itemsOne _ ih => exact fun _ => ih trivial
  | condCompare _ _ _ ih _ | sumMath _ _ _ ih _ | itemsMore _ _ _ ih _ =>
    intro _
    obtain ⟨t, rest, rfl, starts⟩ := ih trivial
    exact ⟨t, _, List.cons_append, starts⟩
  | valueInt isType | valueString isType | valueIdentifier isType | valueRegex isType =>
    exact fun _ => ⟨_, [], rfl, by rw [isType]; rfl⟩
  | valueParen isType _ _ _ | valueEmpty isType _ | valueList isType _ _ _ =>
    exact fun _ => ⟨_, _, rfl, by rw [isType]; rfl⟩

/-! ## Values -/

theorem Reads.token {t : Token} {e : Expr} (run : ∀ (fuel : Nat) (s : ParserState) (rest : List Token),
    s.remaining = t :: rest → parseValue (fuel + 1) s = .ok (e, s.advance 1)) : Reads .value [t] e := by
  intro s rest ahead
  refine .of_succ fun fuel _ => run fuel s rest ahead

theorem Reads.valueInt {t : Token} (type : t.type = .int) :
    Reads .value [t] (.value (.int (t.text.toInt.getD 0))) := by
  apply Reads.token
  intro fuel s rest ahead
  simp only [parseValue_cons fuel ahead, type, bind_ok (next_run ahead), pure_ok]

theorem Reads.valueString {t : Token} (type : t.type = .string) :
    Reads .value [t] (.value (.string (stringContent t.text))) := by
  apply Reads.token
  intro fuel s rest ahead
  simp only [parseValue_cons fuel ahead, type, bind_ok (next_run ahead), pure_ok]

theorem Reads.valueIdentifier {t : Token} (type : t.type = .identifier) :
    Reads .value [t] (.value (.identifier t.text)) := by
  apply Reads.token
  intro fuel s rest ahead
  simp only [parseValue_cons fuel ahead, type, bind_ok (next_run ahead), pure_ok]

theorem Reads.valueRegex {t : Token} (type : t.type = .regularExpression) :
    Reads .value [t] (.regex (regexContent t.text) (t.text.startsWith (qs "ri"))) := by
  apply Reads.token
  intro fuel s rest ahead
  simp only [parseValue_cons fuel ahead, type, bind_ok (next_run ahead), pure_ok]

/-- Inside parentheses, the expression ends at the closing one. -/
theorem Reads.parseExpression {ts : List Token} {e : Expr} (inner : Reads .expr ts e) (s : ParserState)
    (rest : List Token) (ahead : s.remaining = ts ++ rest) (closed : Before [.rp] rest) (top : Bool)
    (silent : top = true → rest = []) :
    Ends (fun fuel => Filters.parseExpression fuel top) 7 s (e, s.advance ts.length) := by
  have after : (s.advance ts.length).remaining = rest := remaining_advance_append ahead
  have stop : Ends (fun fuel => parseOrs fuel e) 1 (s.advance ts.length) (e, s.advance ts.length) := by
    refine .of_succ fun fuel _ => ?_
    cases next : rest with
    | nil => rw [parseOrs, bind_ok (nextTokenIs_nil (after.trans next))]; rfl
    | cons t tail =>
      have isRp : t.type = .rp := by simpa using closed t (by rw [next]; rfl)
      rw [parseOrs, bind_ok (nextTokenIs_cons (after.trans next)), isRp]
      rfl
  refine .of_succ fun fuel enough => ?_
  have body := inner s rest ahead (closed.mono (by simp)) _ stop fuel enough
  rw [Filters.parseExpression, ← bind_assoc, bind_ok body, bind_ok (hasNext_run _), if_neg]
  · rfl
  · simp only [after, Bool.and_eq_true, decide_eq_true_eq]
    exact fun ⟨more, atTop⟩ => more (silent atTop)

theorem Reads.valueParen {ts : List Token} {open' close : Token} {e : Expr} (isLp : open'.type = .lp)
    (inner : Reads .expr ts e) (isRp : close.type = .rp) : Reads .value (open' :: ts ++ [close]) e := by
  intro s rest ahead
  have inside : (s.advance 1).remaining = ts ++ (close :: rest) := by simp [ahead]
  refine .of_succ fun fuel enough => ?_
  cases fuel with
  | zero => omega
  | succ fuel =>
    have size : s.remaining.length = (s.advance 1).remaining.length + 1 := by simp [ahead]
    have body := inner.parseExpression (s.advance 1) _ inside (.cons rest (by simp [isRp])) false (by simp)
      fuel (by omega)
    have after := remaining_advance_append inside
    simp only [List.cons_append] at ahead
    simp only [parseValue_cons _ ahead, isLp]
    rw [parseParentheses, bind_ok (next_run ahead), bind_ok body, bind_ok (nextTokenIs_cons after),
      if_pos (by simp [isRp]), bind_ok (next_run after), pure_ok]
    simp [Nat.add_comm]

theorem Reads.valueEmpty {open' close : Token} (isStart : open'.type = .listStart)
    (isEnd : close.type = .listEnd) : Reads .value [open', close] (.list []) := by
  intro s rest ahead
  have inside : (s.advance 1).remaining = close :: rest := by simp [ahead]
  refine .of_succ fun fuel enough => ?_
  simp only [List.cons_append, List.nil_append] at ahead
  obtain ⟨fuel, rfl⟩ : ∃ n, fuel = n + 2 := ⟨fuel - 2, by simp [ahead] at enough; omega⟩
  simp only [parseValue_cons _ ahead, isStart]
  rw [parseList, bind_ok (next_run ahead), parseItems, bind_ok (nextTokenIs_cons inside),
    if_pos (by simp [isEnd]), bind_ok (next_run inside), pure_ok]
  rfl

theorem Reads.valueList {ts : List Token} {open' close : Token} {e : Expr}
    (isStart : open'.type = .listStart) (shape : ∃ es, e = .list es) (inner : Reads .items ts e)
    (isEnd : close.type = .listEnd) : Reads .value (open' :: ts ++ [close]) e := by
  obtain ⟨es, rfl⟩ := shape
  intro s rest ahead
  have inside : (s.advance 1).remaining = ts ++ (close :: rest) := by simp [ahead]
  have after := remaining_advance_append inside
  have stop : Ends (fun fuel => parseItems fuel es false) 4 ((s.advance 1).advance ts.length)
      (.list es, s.advance (open' :: ts ++ [close]).length) := by
    refine .of_succ fun fuel _ => ?_
    rw [parseItems, bind_ok (nextTokenIs_cons after), if_pos (by simp [isEnd]), bind_ok (next_run after),
      pure_ok]
    simp [Nat.add_comm]
  have items := inner (s.advance 1) _ inside es rfl _ stop
  refine .of_succ fun fuel enough => ?_
  have size : s.remaining.length = (s.advance 1).remaining.length + 1 := by simp [ahead]
  simp only [List.cons_append] at ahead
  obtain ⟨fuel, rfl⟩ : ∃ n, fuel = n + 1 := ⟨fuel - 1, by omega⟩
  simp only [parseValue_cons _ ahead, isStart]
  rw [parseList, bind_ok (next_run ahead)]
  exact items fuel (by omega)

/-! ## Lists -/

theorem nextTokenIs_of_starts {s : ParserState} {t : Token} {rest : List Token} (type : TokenType)
    (ahead : s.remaining = t :: rest) (starts : startsValue t.type = true) (other : startsValue type = false) :
    nextTokenIs (· == type) s = .ok (false, s) := by
  rw [nextTokenIs_cons ahead, beq_eq_false_iff_ne.mpr]
  rintro rfl
  rw [starts] at other
  cases other

theorem Reads.itemsOne {ts : List Token} {e : Expr} (starts : ∃ t rest, ts = t :: rest ∧ startsValue t.type = true)
    (item : Reads .value ts e) : Reads .items ts (.list [e]) := by
  intro s rest ahead es same result loop
  obtain rfl : [e] = es := by simpa using same
  obtain ⟨t, tail, rfl, isStart⟩ := starts
  have shorter := ParserState.advance_shorter ahead
  have value := item s rest ahead
  rw [List.cons_append] at ahead
  refine .of_succ fun fuel enough => ?_
  rw [parseItems, bind_ok (nextTokenIs_of_starts .listEnd ahead isStart rfl), if_neg (by simp),
    bind_ok (nextTokenIs_of_starts .comma ahead isStart rfl), if_neg (by simp), bind_ok (hasNext_run s),
    if_pos (by simp [ahead]), bind_ok (value fuel enough)]
  exact loop fuel (by omega)

theorem Reads.itemsMore {ts ts' : List Token} {t : Token} {es : List Expr} {e : Expr}
    (front : Reads .items ts (.list es)) (isComma : t.type = .comma) (item : Reads .value ts' e) :
    Reads .items (ts ++ t :: ts') (.list (es ++ [e])) := by
  intro s rest ahead all same result loop
  obtain rfl : es ++ [e] = all := by simpa using same
  have aheadFront : s.remaining = ts ++ (t :: (ts' ++ rest)) := by simpa using ahead
  refine front s _ aheadFront es rfl result (.of_succ fun fuel enough => ?_)
  have comma := remaining_advance_append aheadFront
  have behind : ((s.advance ts.length).advance 1).remaining = ts' ++ rest := by
    rw [remaining_advance, comma, List.drop_one, List.tail_cons]
  have reached : ((s.advance ts.length).advance 1).advance ts'.length = s.advance (ts ++ t :: ts').length := by
    simp [Nat.add_assoc, Nat.add_comm 1]
  have size : (s.advance ts.length).remaining.length = ts'.length + rest.length + 1 := by simp [comma]
  have value := item _ _ behind fuel (by simp only [behind, List.length_append]; omega)
  rw [parseItems, bind_ok (by rw [nextTokenIs_cons comma, isComma]), if_neg (by simp),
    bind_ok (nextTokenIs_cons comma), if_pos (by simp [isComma]), bind_ok (next_run comma), bind_ok value,
    reached]
  exact loop fuel (by simp only [remaining_advance_append ahead]; omega)

/-! ## Conditions -/

/-- parseCondition looks for a parenthesis itself and comes to the same as parseValue. -/
theorem Reads.sumValue {ts : List Token} {e : Expr} (starts : ∃ t rest, ts = t :: rest ∧ startsValue t.type = true)
    (value : Reads .value ts e) : Reads .sum ts e := by
  intro s rest ahead result loop
  obtain ⟨t, tail, rfl, _⟩ := starts
  have shorter := ParserState.advance_shorter ahead
  have run := value s rest ahead
  rw [List.cons_append] at ahead
  refine .of_succ fun fuel enough => ?_
  have first : (if t.type == .lp then parseParentheses fuel else parseValue fuel) s =
      .ok (e, s.advance (t :: tail).length) := by
    by_cases isLp : t.type = .lp
    · have viaValue := run (fuel + 1) (by omega)
      simp only [parseValue_cons fuel ahead, isLp] at viaValue
      simpa [isLp] using viaValue
    · simpa [isLp] using run fuel (by omega)
  rw [parseCondition, bind_ok (nextTokenIs_cons ahead), bind_ok first]
  exact loop fuel (by omega)

/-- Where a binary or math operator and its right operand are, behind a first operand. -/
structure OperatorAt (s : ParserState) (ts ts' : List Token) (t : Token) (rest : List Token) : Prop where
  operator : (s.advance ts.length).remaining = t :: (ts' ++ rest)
  operand : ((s.advance ts.length).advance 1).remaining = ts' ++ rest
  reached : ((s.advance ts.length).advance 1).advance ts'.length = s.advance (ts ++ t :: ts').length
  behind : (s.advance (ts ++ t :: ts').length).remaining = rest

theorem OperatorAt.of_remaining {s : ParserState} {ts ts' : List Token} {t : Token} {rest : List Token}
    (ahead : s.remaining = ts ++ t :: ts' ++ rest) : OperatorAt s ts ts' t rest := by
  have operator : (s.advance ts.length).remaining = t :: (ts' ++ rest) :=
    remaining_advance_append (by rw [ahead, List.append_assoc, List.cons_append])
  constructor
  · exact operator
  · rw [remaining_advance, operator, List.drop_one, List.tail_cons]
  · simp [Nat.add_assoc, Nat.add_comm 1]
  · exact remaining_advance_append ahead

theorem Reads.sumMath {ts ts' : List Token} {t : Token} {left right : Expr} (first : Reads .sum ts left)
    (math : typeIsMathOp t.type = true) (second : Reads .value ts' right) :
    Reads .sum (ts ++ t :: ts') (.binary t.type left right) := by
  intro s rest ahead result loop
  have at' := OperatorAt.of_remaining ahead
  have notBinary : typeIsBinaryOp t.type = false := by
    rw [Bool.eq_false_iff]
    intro binary
    rw [not_binary_and_math t.type binary] at math
    cases math
  apply first s (t :: (ts' ++ rest)) (by simpa using ahead)
  refine .of_succ fun fuel enough => ?_
  simp only [at'.operator, List.length_cons, List.length_append] at enough
  have value := second _ _ at'.operand fuel (by simp only [at'.operand, List.length_append]; omega)
  rw [parseOperators_cons fuel left at'.operator, if_neg (by simp [notBinary]), if_pos math,
    bind_ok (next_run at'.operator), bind_ok (tokenType_run at'.operator), bind_ok value, at'.reached]
  exact loop fuel (by simp only [at'.behind]; omega)

/-- Without an operator of its own the loop stops in front of a closing parenthesis or a logical operator. -/
theorem Reads.condSum {ts : List Token} {e : Expr} (sum : Reads .sum ts e) : Reads .cond ts e := by
  intro s rest ahead stops
  have after := remaining_advance_append ahead
  refine sum s rest ahead _ (.of_succ fun fuel _ => ?_)
  cases rest with
  | nil =>
    rw [parseOperators, bind_ok (hasNext_run _), if_pos (by simp [after]), pure_ok]
  | cons t tail =>
    have type := stops t rfl
    rw [parseOperators_cons fuel e after]
    simp only [List.mem_cons, List.not_mem_nil, or_false] at type
    rcases type with type | type | type
    all_goals simp only [type]; rfl

theorem Reads.condCompare {ts ts' : List Token} {t : Token} {left right : Expr} (first : Reads .sum ts left)
    (binary : typeIsBinaryOp t.type = true) (second : Reads .value ts' right) :
    Reads .cond (ts ++ t :: ts') (.binary t.type left right) := by
  intro s rest ahead _
  have at' := OperatorAt.of_remaining ahead
  apply first s (t :: (ts' ++ rest)) (by simpa using ahead)
  refine .of_succ fun fuel enough => ?_
  simp only [at'.operator, List.length_cons, List.length_append] at enough
  have value := second _ _ at'.operand fuel (by simp only [at'.operand, List.length_append]; omega)
  rw [parseOperators_cons fuel left at'.operator, if_pos binary, bind_ok (next_run at'.operator),
    bind_ok (tokenType_run at'.operator), bind_ok value, at'.reached, pure_ok]

/-! ## Logical operators -/

theorem Reads.unaryCond {ts : List Token} {e : Expr} (starts : ∃ t rest, ts = t :: rest ∧ startsValue t.type = true)
    (cond : Reads .cond ts e) : Reads .unary ts e := by
  intro s rest ahead stops
  obtain ⟨t, tail, rfl, isStart⟩ := starts
  have run := cond s rest ahead stops
  rw [List.cons_append] at ahead
  have notUnary : typeIsUnaryOp t.type = false := by
    rw [Bool.eq_false_iff, ne_eq, typeIsUnaryOp_iff]
    intro isNot
    rw [isNot] at isStart
    cases isStart
  refine .of_succ fun fuel enough => ?_
  rw [parseUnary, bind_ok (nextTokenIs_cons ahead), if_neg (by simp [notUnary])]
  exact run fuel enough

theorem Reads.unaryNot {ts : List Token} {t : Token} {e : Expr} (isNot : t.type = .not)
    (cond : Reads .cond ts e) : Reads .unary (t :: ts) (.unary .not e) := by
  intro s rest ahead stops
  have inside : (s.advance 1).remaining = ts ++ rest := by simp [ahead]
  have size : s.remaining.length = (s.advance 1).remaining.length + 1 := by simp [ahead]
  rw [List.cons_append] at ahead
  refine .of_succ fun fuel enough => ?_
  have run := cond _ _ inside stops fuel (by omega)
  rw [parseUnary, bind_ok (nextTokenIs_cons ahead), if_pos (by rw [isNot]; rfl), bind_ok (next_run ahead),
    bind_ok (tokenType_run ahead), bind_ok run, pure_ok, isNot]
  simp [Nat.add_comm]

theorem Reads.andUnary {ts : List Token} {e : Expr} (unary : Reads .unary ts e) : Reads .and ts e := by
  intro s rest ahead stops result loop
  have shorter : (s.advance ts.length).remaining.length ≤ s.remaining.length := by
    simp
  refine .of_succ fun fuel enough => ?_
  rw [parseAnd, bind_ok (unary s rest ahead stops fuel enough)]
  exact loop fuel (by omega)

theorem Reads.andAnd {ts ts' : List Token} {t : Token} {left right : Expr} (first : Reads .and ts left)
    (isAnd : t.type = .and) (second : Reads .unary ts' right) :
    Reads .and (ts ++ t :: ts') (.binary .and left right) := by
  intro s rest ahead stops result loop
  have at' := OperatorAt.of_remaining ahead
  apply first s (t :: (ts' ++ rest)) (by simpa using ahead) (.cons _ (by simp [isAnd]))
  refine .of_succ fun fuel enough => ?_
  simp only [at'.operator, List.length_cons, List.length_append] at enough
  have value := second _ _ at'.operand stops fuel (by simp only [at'.operand, List.length_append]; omega)
  rw [parseAnds, bind_ok (nextTokenIs_cons at'.operator), if_pos (by simp [isAnd]),
    bind_ok (next_run at'.operator), bind_ok value, at'.reached]
  exact loop fuel (by simp only [at'.behind]; omega)

/-- The loop of parseAnd stops where no && is ahead. -/
theorem Reads.parseAnd {ts : List Token} {e : Expr} (and : Reads .and ts e) (s : ParserState)
    (rest : List Token) (ahead : s.remaining = ts ++ rest) (stops : Before [.rp, .or] rest) :
    Ends Filters.parseAnd 6 s (e, s.advance ts.length) := by
  have after := remaining_advance_append ahead
  refine and s rest ahead (stops.mono (by simp)) _ (.of_succ fun fuel _ => ?_)
  cases rest with
  | nil => rw [parseAnds, bind_ok (nextTokenIs_nil after)]; rfl
  | cons t tail =>
    have type := stops t rfl
    rw [parseAnds, bind_ok (nextTokenIs_cons after)]
    simp only [List.mem_cons, List.not_mem_nil, or_false] at type
    rcases type with type | type
    all_goals simp only [type]; rfl

theorem Reads.exprAnd {ts : List Token} {e : Expr} (and : Reads .and ts e) : Reads .expr ts e := by
  intro s rest ahead stops result loop fuel enough
  have shorter : (s.advance ts.length).remaining.length ≤ s.remaining.length := by
    simp
  simp only
  rw [bind_ok (and.parseAnd s rest ahead stops fuel enough)]
  exact loop fuel (by omega)

theorem Reads.exprOr {ts ts' : List Token} {t : Token} {left right : Expr} (first : Reads .expr ts left)
    (isOr : t.type = .or) (second : Reads .and ts' right) :
    Reads .expr (ts ++ t :: ts') (.binary .or left right) := by
  intro s rest ahead stops result loop
  have at' := OperatorAt.of_remaining ahead
  apply first s (t :: (ts' ++ rest)) (by simpa using ahead) (.cons _ (by simp [isOr]))
  refine .of_succ fun fuel enough => ?_
  simp only [at'.operator, List.length_cons, List.length_append] at enough
  have value := second.parseAnd _ _ at'.operand stops fuel
    (by simp only [at'.operand, List.length_append]; omega)
  rw [parseOrs, bind_ok (nextTokenIs_cons at'.operator), if_pos (by simp [isOr]),
    bind_ok (next_run at'.operator), bind_ok value, at'.reached]
  exact loop fuel (by simp only [at'.behind]; omega)

/-! ## Every derivation -/

theorem Derives.items_list {n : Symbol} {ts : List Token} {e : Expr} (derived : Derives n ts e) :
    n = .items → ∃ es, e = .list es := by
  cases derived with
  | itemsOne _ | itemsMore _ _ _ => exact fun _ => ⟨_, rfl⟩
  | _ => exact fun impossible => nomatch impossible

theorem Derives.reads {n : Symbol} {ts : List Token} {e : Expr} (derived : Derives n ts e) : Reads n ts e := by
  induction derived with
  | exprAnd _ ih => exact .exprAnd ih
  | exprOr _ isOr _ left right => exact .exprOr left isOr right
  | andUnary _ ih => exact .andUnary ih
  | andAnd _ isAnd _ left right => exact .andAnd left isAnd right
  | unaryCond cond ih => exact .unaryCond (cond.starts trivial) ih
  | unaryNot isNot _ ih => exact .unaryNot isNot ih
  | condSum _ ih => exact .condSum ih
  | condCompare _ binary _ left right => exact .condCompare left binary right
  | sumValue value ih => exact .sumValue (value.starts trivial) ih
  | sumMath _ math _ left right => exact .sumMath left math right
  | valueInt type => exact .valueInt type
  | valueString type => exact .valueString type
  | valueIdentifier type => exact .valueIdentifier type
  | valueRegex type => exact .valueRegex type
  | valueParen isLp _ isRp ih => exact .valueParen isLp ih isRp
  | valueEmpty isStart isEnd => exact .valueEmpty isStart isEnd
  | valueList isStart items isEnd ih => exact .valueList isStart (items.items_list rfl) ih isEnd
  | itemsOne value ih => exact .itemsOne (value.starts trivial) ih
  | itemsMore _ isComma _ front item => exact .itemsMore front isComma item

/-! ## The constructor -/

/-- The state the constructor starts from. -/
def ParserState.initial (tokens : List Token) : ParserState := ⟨⟨0, tokens⟩, true, []⟩

@[simp] theorem ParserState.initial_remaining (tokens : List Token) :
    (ParserState.initial tokens).remaining = tokens := rfl

/-- At the top, tokens that are left over are an error. -/
theorem parseExpression_top {fuel : Nat} {s s' : ParserState} {e : Expr}
    (run : parseExpression fuel true s = .ok (e, s')) (valid : s'.valid = true) : s'.remaining = [] := by
  cases fuel with
  | zero => cases run
  | succ fuel =>
    rw [Filters.parseExpression, ← bind_assoc] at run
    cases body : (Filters.parseAnd fuel >>= parseOrs fuel) s with
    | error stuck =>
      simp only [bind, StateT.bind, Except.bind] at body run
      rw [body] at run
      cases run
    | ok reached =>
      obtain ⟨e₁, s₁⟩ := reached
      rw [bind_ok body, bind_ok (hasNext_run s₁)] at run
      by_cases done : s₁.remaining = []
      · simp only [done, ne_eq, not_true_eq_false, decide_false, Bool.false_and] at run
        obtain ⟨_, rfl⟩ := Prod.mk.inj (Except.ok.inj run)
        exact done
      · obtain ⟨text, shown⟩ := preview_run s₁
        rw [if_pos (by simp [done]), bind_ok shown, bind_ok (errorLog_run _ s₁)] at run
        obtain ⟨_, rfl⟩ := Prod.mk.inj (Except.ok.inj run)
        cases valid

/-- What a run of the whole parser is: it ends, and it is valid exactly when the
tokens derive from expr, with the tree of the derivation. -/
theorem parseExpression_initial (tokens : List Token) : ∃ e s,
    parseExpression (enoughFuel tokens) true (.initial tokens) = .ok (e, s) ∧
      (s.valid = true → Derives .expr tokens e) ∧
      (∀ e', Derives .expr tokens e' → s.valid = true ∧ e = e') := by
  obtain ⟨e, s, run, ts, split, _, sound⟩ :=
    parseExpression_parsed (enoughFuel tokens) true (.initial tokens) (by simp [enoughFuel])
  refine ⟨e, s, run, fun valid => ?_, fun e' derived => ?_⟩
  · obtain ⟨_, derived⟩ := sound valid
    rw [parseExpression_top run valid, List.append_nil] at split
    rw [ParserState.initial_remaining] at split
    exact split ▸ derived
  · have found := derived.reads.parseExpression (.initial tokens) [] (by simp) (fun t head => nomatch head)
      true (fun _ => rfl) (enoughFuel tokens) (by simp [enoughFuel])
    simp only [run] at found
    obtain ⟨rfl, rfl⟩ := Prod.mk.inj (Except.ok.inj found)
    exact ⟨rfl, rfl⟩

/-- The grammar is not ambiguous: the parser builds the tree of every derivation. -/
theorem Derives.unique {tokens : List Token} {e e' : Expr} (derived : Derives .expr tokens e)
    (derived' : Derives .expr tokens e') : e = e' := by
  obtain ⟨built, _, _, _, complete⟩ := parseExpression_initial tokens
  exact (complete e derived).2.symm.trans (complete e' derived').2

/-- FilterParser accepts exactly its grammar. Every token list is parsed to the end
without a read past it, and the parser is valid for those that derive from expr
with a well-typed tree, which is then the tree it built. -/
theorem FilterParser.accepts_grammar (tokens : List Token) :
    ∃ p, FilterParser.ofTokens tokens = .ok p ∧
      (p.valid = true ↔ ∃ e, Derives .expr tokens e ∧
        isWellTyped (e.synthesizeType MESSAGE_TYPING_CONTEXT) = true) ∧
      ∀ e, Derives .expr tokens e → p.builtExpression = e := by
  obtain ⟨e, s, run, sound, complete⟩ := parseExpression_initial tokens
  unfold ParserState.initial at run
  cases valid : s.valid with
  | false =>
    have underivable (e' : Expr) (derived : Derives .expr tokens e') : False := by
      simp [(complete e' derived).1] at valid
    refine ⟨⟨e, false, s.parseLog, .bool⟩, by simp [ofTokens, run, valid], ?_, ?_⟩
    · constructor
      · exact fun impossible => nomatch impossible
      · exact fun ⟨e', derived, _⟩ => (underivable e' derived).elim
    · exact fun e' derived => (underivable e' derived).elim
  | true =>
    have derived := sound valid
    cases typed : e.synthesizeType MESSAGE_TYPING_CONTEXT with
    | illTyped expr message =>
      refine ⟨_, by simp [ofTokens, run, valid, typed]; rfl, ?_, fun e' derived' => (complete e' derived').2⟩
      constructor
      · exact fun impossible => nomatch impossible
      · rintro ⟨e', derived', wellTyped⟩
        rw [← (complete e' derived').2, typed] at wellTyped
        cases wellTyped
    | typeClass type =>
      refine ⟨⟨e, true, s.parseLog, type⟩, by simp [ofTokens, run, valid, typed], ?_,
        fun e' derived' => (complete e' derived').2⟩
      constructor
      · exact fun _ => ⟨e, derived, by rw [typed]; rfl⟩
      · exact fun _ => rfl

end Forserino.Filters
