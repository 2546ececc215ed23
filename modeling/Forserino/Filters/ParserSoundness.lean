import Forserino.Filters.Grammar

/-! Every run of the parser ends without reading past the tokens, and what it
consumes without logging an error derives from the grammar with the tree it built.

Both are proved together, by induction on the fuel: each function needs eight
units for every token ahead and a few for the calls in between.
-/

set_option autoImplicit false

namespace Forserino.Filters

open Forserino.Qt ParserState

/-- The run ends and consumes a prefix of the tokens, not empty if there is a token.
Without an error the prefix derives from the symbol. -/
def Parsed (n : Symbol) (m : ParserM Expr) (s : ParserState) : Prop :=
  ∃ e s', m s = .ok (e, s') ∧ ∃ ts, s.remaining = ts ++ s'.remaining ∧ (s.remaining ≠ [] → ts ≠ []) ∧
    (s'.valid = true → s.valid = true ∧ Derives n ts e)

/-- A loop that holds e: without an error it extends each derivation of e from the
symbol n to one of its result from the symbol n'. -/
def Continued (n n' : Symbol) (e : Expr) (m : ParserM Expr) (s : ParserState) : Prop :=
  ∃ e' s', m s = .ok (e', s') ∧ ∃ ts, s.remaining = ts ++ s'.remaining ∧
    (s'.valid = true → s.valid = true ∧ ∀ ts₀, Derives n ts₀ e → Derives n' (ts₀ ++ ts) e')

theorem Parsed.continue {n n' n'' : Symbol} {m : ParserM Expr} {next : Expr → ParserM Expr}
    {s : ParserState} (first : Parsed n m s) (lift : ∀ ts e, Derives n ts e → Derives n' ts e)
    (loop : ∀ e s', s'.remaining.length ≤ s.remaining.length → Continued n' n'' e (next e) s') :
    Parsed n'' (m >>= next) s := by
  obtain ⟨e, s₁, run, ts, split, progress, sound⟩ := first
  have shorter : s₁.remaining.length ≤ s.remaining.length := by
    rw [split, List.length_append]
    omega
  obtain ⟨e', s₂, run', ts', split', sound'⟩ := loop e s₁ shorter
  refine ⟨e', s₂, by rw [bind_ok run, run'], ts ++ ts', by rw [split, split', List.append_assoc],
    fun ahead => by simp [progress ahead], ?_⟩
  intro valid
  obtain ⟨valid₁, extend⟩ := sound' valid
  obtain ⟨valid₀, derived⟩ := sound valid₁
  exact ⟨valid₀, extend ts (lift ts e derived)⟩

/-- A loop that stops here without an error. -/
theorem Continued.stop {n n' : Symbol} {e : Expr} {m : ParserM Expr} {s : ParserState}
    (run : m s = .ok (e, s)) (lift : ∀ ts, Derives n ts e → Derives n' ts e) : Continued n n' e m s :=
  ⟨e, s, run, [], rfl, fun valid => ⟨valid, fun ts derived => by simpa using lift ts derived⟩⟩

/-- A loop that goes on behind one operator token and its right operand. -/
theorem Continued.step {n n' n'' : Symbol} {e : Expr} {m right : ParserM Expr}
    {loop : Expr → ParserM Expr} {s : ParserState} {t : Token} {rest : List Token}
    (combine : Expr → Expr) (ahead : s.remaining = t :: rest)
    (unfolded : m s = (right >>= fun r => loop (combine r)) (s.advance 1))
    (operand : Parsed n'' right (s.advance 1))
    (extend : ∀ ts ts' r, Derives n ts e → Derives n'' ts' r → Derives n (ts ++ t :: ts') (combine r))
    (again : ∀ r s', s'.remaining.length ≤ rest.length → Continued n n' (combine r) (loop (combine r)) s') :
    Continued n n' e m s := by
  obtain ⟨r, s₁, run, ts, split, _, sound⟩ := operand
  rw [remaining_advance, ahead, List.drop_one, List.tail_cons] at split
  have shorter : s₁.remaining.length ≤ rest.length := by
    rw [split, List.length_append]
    omega
  obtain ⟨e', s₂, run', ts', split', sound'⟩ := again r s₁ shorter
  refine ⟨e', s₂, by rw [unfolded, bind_ok run, run'], t :: (ts ++ ts'), ?_, ?_⟩
  · rw [ahead, split, split', List.cons_append, List.append_assoc]
  · intro valid
    obtain ⟨valid₁, onwards⟩ := sound' valid
    obtain ⟨valid₀, derived⟩ := sound valid₁
    refine ⟨valid₀, fun ts₀ derived₀ => ?_⟩
    have joined := onwards _ (extend ts₀ ts r derived₀ derived)
    simpa using joined

/-- What the loop of parseList has read behind the opening brace. -/
def ItemsRead (items : List Expr) (first : Bool) (ts : List Token) : Prop :=
  match first with
  | true => items = [] ∧ ts = []
  | false => Derives .items ts (.list items)

/-- The loop of parseList: without an error it completes the list. -/
def ListContinued (items : List Expr) (first : Bool) (m : ParserM Expr) (s : ParserState) : Prop :=
  ∃ e s', m s = .ok (e, s') ∧ ∃ ts, s.remaining = ts ++ s'.remaining ∧
    (s'.valid = true → s.valid = true ∧ ∀ (start : Token) (ts₀ : List Token), start.type = .listStart →
      ItemsRead items first ts₀ → Derives .value (start :: ts₀ ++ ts) e)

theorem Parsed.token {n : Symbol} {e : Expr} {m : ParserM Expr} {s : ParserState} {t : Token}
    {rest : List Token} (ahead : s.remaining = t :: rest) (run : m s = .ok (e, s.advance 1))
    (derived : Derives n [t] e) : Parsed n m s :=
  ⟨e, s.advance 1, run, [t], by simp [ahead], fun _ => by simp, fun valid => ⟨valid, derived⟩⟩

/-- An error was logged, so nothing has to derive. -/
theorem Parsed.failed {n : Symbol} {m : ParserM Expr} {s : ParserState} (e : Expr) (s' : ParserState)
    (text : QString) (ts : List Token) (run : m s = .ok (e, s'.fail text)) (split : s.remaining = ts ++ s'.remaining)
    (progress : s.remaining ≠ [] → ts ≠ []) : Parsed n m s :=
  ⟨e, _, run, ts, split, progress, fun valid => absurd valid (by simp)⟩

theorem Parsed.lift {n n' : Symbol} {m : ParserM Expr} {s : ParserState} (parsed : Parsed n m s)
    (raise : ∀ ts e, Derives n ts e → Derives n' ts e) : Parsed n' m s := by
  obtain ⟨e, s', run, ts, split, progress, sound⟩ := parsed
  exact ⟨e, s', run, ts, split, progress, fun valid => ⟨(sound valid).1, raise ts e (sound valid).2⟩⟩

theorem Parsed.congr {n : Symbol} {m m' : ParserM Expr} {s : ParserState} (same : m' s = m s)
    (parsed : Parsed n m s) : Parsed n m' s := by
  obtain ⟨e, s', run, rest⟩ := parsed
  exact ⟨e, s', same.trans run, rest⟩

theorem nextTokenIs_nil {test : TokenType → Bool} {s : ParserState} (done : s.remaining = []) :
    nextTokenIs test s = .ok (false, s) := by
  simp [nextTokenIs_run, done]

theorem nextTokenIs_cons {test : TokenType → Bool} {s : ParserState} {t : Token} {rest : List Token}
    (ahead : s.remaining = t :: rest) : nextTokenIs test s = .ok (test t.type, s) := by
  simp [nextTokenIs_run, ahead]

theorem parseOperators_cons (fuel : Nat) (e : Expr) {s : ParserState} {t : Token} {rest : List Token}
    (ahead : s.remaining = t :: rest) :
    parseOperators (fuel + 1) e s = (if typeIsBinaryOp t.type then do
        let _ ← next
        let type ← tokenType
        let nextValue ← parseValue fuel
        return .binary type e nextValue
      else if typeIsMathOp t.type then do
        let _ ← next
        let type ← tokenType
        let nextValue ← parseValue fuel
        parseOperators fuel (.binary type e nextValue)
      else if t.type == .rp then return e
      else if !typeIsOp t.type then do
        errorLog (((qs "Expected an operator but got %1 %2").arg (← preview)).arg
          (tokenTypeToInfoString t.type)) false
        return e
      else return e : ParserM Expr) s := by
  rw [parseOperators, bind_ok (hasNext_run s), if_neg (by simp [ahead]),
    bind_ok (nextTokenType_run ahead)]

theorem parseValue_cons (fuel : Nat) {s : ParserState} {t : Token} {rest : List Token}
    (ahead : s.remaining = t :: rest) :
    parseValue (fuel + 1) s = (match t.type with
      | .int => return .value (.int ((← next).toInt.getD 0))
      | .string => return .value (.string (stringContent (← next)))
      | .identifier => return .value (.identifier (← next))
      | .regularExpression => do
          let before ← next
          return .regex (regexContent before) (before.startsWith (qs "ri"))
      | .lp => parseParentheses fuel
      | .listStart => parseList fuel
      | _ => do
          let _ ← next
          errorLog (((qs "Expected value but got %1 %2").arg (← current)).arg
            (tokenTypeToInfoString t.type)) false
          return .value (.int 0) : ParserM Expr) s := by
  rewrite [parseValue, bind_ok (hasNext_run s), if_pos (by simp [ahead]), bind_ok (nextTokenType_run ahead)]
  cases t.type <;> rfl

mutual

theorem parseExpression_parsed : ∀ (fuel : Nat) (top : Bool) (s : ParserState),
    8 * s.remaining.length + 7 ≤ fuel → Parsed .expr (parseExpression fuel top) s
  | 0, _, _, enough => by omega
  | fuel + 1, top, s, enough => by
    have body : Parsed .expr (parseAnd fuel >>= parseOrs fuel) s :=
      (parseAnd_parsed fuel s (by omega)).continue (fun ts e derived => .exprAnd derived)
        (fun e s' shorter => parseOrs_continued fuel e s' (by omega))
    obtain ⟨e, s₁, run, ts, split, progress, sound⟩ := body
    have unfolded : parseExpression (fuel + 1) top s = (do
        if (← hasNext) && top then
          errorLog ((qs "Unexpected token at end: %1").arg (← preview)) false
        return e : ParserM Expr) s₁ := by
      rw [parseExpression, ← bind_assoc, bind_ok run]
    rw [bind_ok (hasNext_run s₁)] at unfolded
    by_cases failing : (decide (s₁.remaining ≠ []) && top) = true
    · obtain ⟨text, shown⟩ := preview_run s₁
      rw [if_pos failing] at unfolded
      simp only at unfolded
      rw [bind_ok shown, bind_ok (errorLog_run _ s₁)] at unfolded
      exact .failed e s₁ _ ts unfolded split progress
    · rw [if_neg failing] at unfolded
      exact ⟨e, s₁, unfolded, ts, split, progress, sound⟩

theorem parseOrs_continued : ∀ (fuel : Nat) (e : Expr) (s : ParserState),
    8 * s.remaining.length + 1 ≤ fuel → Continued .expr .expr e (parseOrs fuel e) s
  | 0, _, _, enough => by omega
  | fuel + 1, e, s, enough => by
    cases ahead : s.remaining with
    | nil =>
      refine .stop ?_ (fun _ derived => derived)
      rw [parseOrs, bind_ok (nextTokenIs_nil ahead)]
      rfl
    | cons t rest =>
      have size : s.remaining.length = rest.length + 1 := by simp [ahead]
      by_cases isOr : t.type = .or
      · refine .step (.binary .or e) ahead ?_
          (parseAnd_parsed fuel (s.advance 1) (by simp [ahead]; omega))
          (fun ts ts' r left right => .exprOr left isOr right)
          (fun r s' shorter => parseOrs_continued fuel _ s' (by omega))
        rw [parseOrs, bind_ok (nextTokenIs_cons ahead)]
        simp only [isOr, beq_self_eq_true, if_true]
        rw [bind_ok (next_run ahead)]
      · refine .stop ?_ (fun _ derived => derived)
        rw [parseOrs, bind_ok (nextTokenIs_cons ahead)]
        simp [isOr, pure_ok]

theorem parseAnd_parsed : ∀ (fuel : Nat) (s : ParserState),
    8 * s.remaining.length + 6 ≤ fuel → Parsed .and (parseAnd fuel) s
  | 0, _, enough => by omega
  | fuel + 1, s, enough => by
    rw [parseAnd]
    exact (parseUnary_parsed fuel s (by omega)).continue (fun ts e derived => .andUnary derived)
      (fun e s' shorter => parseAnds_continued fuel e s' (by omega))

theorem parseAnds_continued : ∀ (fuel : Nat) (e : Expr) (s : ParserState),
    8 * s.remaining.length + 1 ≤ fuel → Continued .and .and e (parseAnds fuel e) s
  | 0, _, _, enough => by omega
  | fuel + 1, e, s, enough => by
    cases ahead : s.remaining with
    | nil =>
      refine .stop ?_ (fun _ derived => derived)
      rw [parseAnds, bind_ok (nextTokenIs_nil ahead)]
      rfl
    | cons t rest =>
      have size : s.remaining.length = rest.length + 1 := by simp [ahead]
      by_cases isAnd : t.type = .and
      · refine .step (.binary .and e) ahead ?_
          (parseUnary_parsed fuel (s.advance 1) (by simp [ahead]; omega))
          (fun ts ts' r left right => .andAnd left isAnd right)
          (fun r s' shorter => parseAnds_continued fuel _ s' (by omega))
        rw [parseAnds, bind_ok (nextTokenIs_cons ahead)]
        simp only [isAnd, beq_self_eq_true, if_true]
        rw [bind_ok (next_run ahead)]
      · refine .stop ?_ (fun _ derived => derived)
        rw [parseAnds, bind_ok (nextTokenIs_cons ahead)]
        simp [isAnd, pure_ok]

theorem parseUnary_parsed : ∀ (fuel : Nat) (s : ParserState),
    8 * s.remaining.length + 5 ≤ fuel → Parsed .unary (parseUnary fuel) s
  | 0, _, enough => by omega
  | fuel + 1, s, enough => by
    cases ahead : s.remaining with
    | nil =>
      have unfolded : parseUnary (fuel + 1) s = parseCondition fuel s := by
        rw [parseUnary, bind_ok (nextTokenIs_nil ahead)]
        rfl
      exact ((parseCondition_parsed fuel s (by omega)).lift
        (fun ts e derived => .unaryCond derived)).congr unfolded
    | cons t rest =>
      have size : s.remaining.length = rest.length + 1 := by simp [ahead]
      by_cases isNot : t.type = .not
      · obtain ⟨e, s', run, ts, split, _, sound⟩ :=
          parseCondition_parsed fuel (s.advance 1) (by simp [ahead]; omega)
        rw [remaining_advance, ahead, List.drop_one, List.tail_cons] at split
        refine ⟨.unary .not e, s', ?_, t :: ts, by rw [ahead, split, List.cons_append], fun _ => by simp,
          fun valid => ⟨(sound valid).1, .unaryNot isNot (sound valid).2⟩⟩
        rw [parseUnary, bind_ok (nextTokenIs_cons ahead), if_pos (by rw [isNot]; decide),
          bind_ok (next_run ahead), bind_ok (tokenType_run ahead), bind_ok run, isNot]
        rfl
      · have other : typeIsUnaryOp t.type = false := by
          rw [Bool.eq_false_iff, ne_eq, typeIsUnaryOp_iff]
          exact isNot
        have unfolded : parseUnary (fuel + 1) s = parseCondition fuel s := by
          rw [parseUnary, bind_ok (nextTokenIs_cons ahead), if_neg (by simp [other])]
        exact ((parseCondition_parsed fuel s (by omega)).lift
          (fun ts e derived => .unaryCond derived)).congr unfolded

theorem parseParentheses_parsed : ∀ (fuel : Nat) (s : ParserState) (t : Token) (rest : List Token),
    s.remaining = t :: rest → t.type = .lp → 8 * s.remaining.length + 2 ≤ fuel →
    Parsed .value (parseParentheses fuel) s
  | 0, _, _, _, _, _, enough => by omega
  | fuel + 1, s, t, rest, ahead, isLp, enough => by
    have size : s.remaining.length = rest.length + 1 := by simp [ahead]
    obtain ⟨e, s₁, run, ts, split, _, sound⟩ :=
      parseExpression_parsed fuel false (s.advance 1) (by simp [ahead]; omega)
    rw [remaining_advance, ahead, List.drop_one, List.tail_cons] at split
    have missing : nextTokenIs (· == .rp) s₁ = .ok (false, s₁) → Parsed .value (parseParentheses (fuel + 1)) s := by
      intro closed
      obtain ⟨text, shown⟩ := missingMessage_run "Missing closing parentheses" s₁
      refine .failed e s₁ text (t :: ts) ?_ (by rw [ahead, split, List.cons_append]) (fun _ => by simp)
      rw [parseParentheses, bind_ok (next_run ahead), bind_ok run, bind_ok closed, if_neg (by simp),
        bind_ok shown, bind_ok (errorLog_run text s₁)]
      rfl
    cases after : s₁.remaining with
    | nil => exact missing (nextTokenIs_nil after)
    | cons close rest' =>
      by_cases isRp : close.type = .rp
      · refine ⟨e, s₁.advance 1, ?_, t :: ts ++ [close], by simp [ahead, split, after], fun _ => by simp,
          fun valid => ⟨(sound valid).1, .valueParen isLp (sound valid).2 isRp⟩⟩
        rw [parseParentheses, bind_ok (next_run ahead), bind_ok run, bind_ok (nextTokenIs_cons after),
          if_pos (by simp [isRp]), bind_ok (next_run after)]
        rfl
      · exact missing (by simp [nextTokenIs_cons after, isRp])

theorem parseCondition_parsed : ∀ (fuel : Nat) (s : ParserState),
    8 * s.remaining.length + 4 ≤ fuel → Parsed .cond (parseCondition fuel) s
  | 0, _, enough => by omega
  | fuel + 1, s, enough => by
    have first (parenthesized : Bool) (seen : nextTokenIs (· == .lp) s = .ok (parenthesized, s)) :
        Parsed .value (if parenthesized then parseParentheses fuel else parseValue fuel) s := by
      cases parenthesized with
      | false => exact parseValue_parsed fuel s (by omega)
      | true =>
        cases ahead : s.remaining with
        | nil => simp [nextTokenIs_nil ahead] at seen
        | cons t rest =>
          have isLp : t.type = .lp := by simpa [nextTokenIs_cons ahead] using seen
          exact parseParentheses_parsed fuel s t rest ahead isLp (by omega)
    have seen := nextTokenIs_run (· == .lp) s
    refine .congr (by rw [parseCondition, bind_ok seen]) ((first _ seen).continue
      (fun ts e derived => .sumValue derived)
      (fun e s' shorter => parseOperators_continued fuel e s' (by omega)))

theorem parseOperators_continued : ∀ (fuel : Nat) (e : Expr) (s : ParserState),
    8 * s.remaining.length + 1 ≤ fuel → Continued .sum .cond e (parseOperators fuel e) s
  | 0, _, _, enough => by omega
  | fuel + 1, e, s, enough => by
    cases ahead : s.remaining with
    | nil =>
      refine .stop ?_ (fun _ derived => .condSum derived)
      rw [parseOperators, bind_ok (hasNext_run s)]
      simp [ahead, pure_ok]
    | cons t rest =>
      have size : s.remaining.length = rest.length + 1 := by simp [ahead]
      have operand := parseValue_parsed fuel (s.advance 1) (by simp [ahead]; omega)
      have unfolded := parseOperators_cons fuel e ahead
      by_cases binary : typeIsBinaryOp t.type = true
      · obtain ⟨r, s', run, ts, split, _, sound⟩ := operand
        rw [remaining_advance, ahead, List.drop_one, List.tail_cons] at split
        refine ⟨.binary t.type e r, s', ?_, t :: ts, by rw [ahead, split, List.cons_append], fun valid =>
          ⟨(sound valid).1, fun ts₀ derived => .condCompare derived binary (sound valid).2⟩⟩
        rw [unfolded, if_pos binary, bind_ok (next_run ahead), bind_ok (tokenType_run ahead), bind_ok run]
        rfl
      · by_cases math : typeIsMathOp t.type = true
        · refine .step (.binary t.type e) ahead ?_ operand
            (fun ts ts' r left right => .sumMath left math right)
            (fun r s' shorter => parseOperators_continued fuel _ s' (by omega))
          rw [unfolded, if_neg binary, if_pos math, bind_ok (next_run ahead), bind_ok (tokenType_run ahead)]
        · rw [if_neg binary, if_neg math] at unfolded
          by_cases stops : t.type = .rp ∨ typeIsOp t.type = true
          · refine .stop ?_ (fun _ derived => .condSum derived)
            rw [unfolded]
            rcases stops with isRp | isOp
            · simp [isRp, pure_ok]
            · simp [isOp, pure_ok]
          · simp only [not_or] at stops
            obtain ⟨text, shown⟩ := preview_run s
            refine ⟨e, s.fail (((qs "Expected an operator but got %1 %2").arg text).arg
              (tokenTypeToInfoString t.type)), ?_, [], rfl, fun valid => absurd valid (by simp)⟩
            rw [unfolded, if_neg (by simp [stops.1]), if_pos (by simp [stops.2]), bind_ok shown,
              bind_ok (errorLog_run _ s)]
            rfl

theorem parseValue_parsed : ∀ (fuel : Nat) (s : ParserState),
    8 * s.remaining.length + 3 ≤ fuel → Parsed .value (parseValue fuel) s
  | 0, _, enough => by omega
  | fuel + 1, s, enough => by
    cases ahead : s.remaining with
    | nil =>
      refine .failed (.value (.int 0)) s (qs "Unexpected end of statement") [] ?_ rfl
        (fun nonempty => absurd ahead nonempty)
      rw [parseValue, bind_ok (hasNext_run s), if_neg (by simp [ahead]), bind_ok (errorLog_run _ s)]
      rfl
    | cons t rest =>
      have size : s.remaining.length = rest.length + 1 := by simp [ahead]
      have unfolded := parseValue_cons fuel ahead
      have unexpected (run : parseValue (fuel + 1) s = .ok (.value (.int 0), (s.advance 1).fail
          (((qs "Expected value but got %1 %2").arg t.text).arg (tokenTypeToInfoString t.type)))) :
          Parsed .value (parseValue (fuel + 1)) s :=
        .failed _ _ _ [t] run (by simp [ahead]) (fun _ => by simp)
      cases type : t.type with
      | int =>
        refine .token ahead ?_ (.valueInt type)
        simp only [unfolded, type, bind_ok (next_run ahead)]
        rfl
      | string =>
        refine .token ahead ?_ (.valueString type)
        simp only [unfolded, type, bind_ok (next_run ahead)]
        rfl
      | identifier =>
        refine .token ahead ?_ (.valueIdentifier type)
        simp only [unfolded, type, bind_ok (next_run ahead)]
        rfl
      | regularExpression =>
        refine .token ahead ?_ (.valueRegex type)
        simp only [unfolded, type, bind_ok (next_run ahead)]
        rfl
      | lp =>
        rw [type] at unfolded
        exact .congr unfolded (parseParentheses_parsed fuel s t rest ahead type (by omega))
      | listStart =>
        rw [type] at unfolded
        exact .congr unfolded (parseList_parsed fuel s t rest ahead type (by omega))
      | _ =>
        refine unexpected ?_
        simp only [unfolded, type, bind_ok (next_run ahead), bind_ok (current_run ahead),
          bind_ok (errorLog_run _ _)]
        rfl

theorem parseList_parsed : ∀ (fuel : Nat) (s : ParserState) (t : Token) (rest : List Token),
    s.remaining = t :: rest → t.type = .listStart → 8 * s.remaining.length + 2 ≤ fuel →
    Parsed .value (parseList fuel) s
  | 0, _, _, _, _, _, enough => by omega
  | fuel + 1, s, t, rest, ahead, isStart, enough => by
    have size : s.remaining.length = rest.length + 1 := by simp [ahead]
    obtain ⟨e, s', run, ts, split, sound⟩ :=
      parseItems_continued fuel [] true (s.advance 1) (by simp [ahead]; omega)
    rw [remaining_advance, ahead, List.drop_one, List.tail_cons] at split
    refine ⟨e, s', by rw [parseList, bind_ok (next_run ahead), run], t :: ts,
      by rw [ahead, split, List.cons_append], fun _ => by simp, fun valid => ?_⟩
    exact ⟨(sound valid).1, (sound valid).2 t [] isStart ⟨rfl, rfl⟩⟩

theorem parseItems_continued : ∀ (fuel : Nat) (items : List Expr) (first : Bool) (s : ParserState),
    8 * s.remaining.length + 4 ≤ fuel → ListContinued items first (parseItems fuel items first) s
  | 0, _, _, _, enough => by omega
  | fuel + 1, items, first, s, enough => by
    -- neither an end nor a separator: the list is reported as not closed
    have missing : nextTokenIs (· == .listEnd) s = .ok (false, s) →
        (∃ comma, nextTokenIs (· == .comma) s = .ok (comma, s) ∧ (comma && !first) = false) →
        (decide (s.remaining ≠ []) && first) = false →
        ListContinued items first (parseItems (fuel + 1) items first) s := by
      intro notEnd ⟨comma, isComma, notComma⟩ stuck
      obtain ⟨text, shown⟩ := missingMessage_run "Missing closing list braces" s
      refine ⟨.list [], s.fail text, ?_, [], rfl, fun valid => absurd valid (by simp)⟩
      rw [parseItems, bind_ok notEnd, if_neg (by simp), bind_ok isComma, if_neg (by simp [notComma]),
        bind_ok (hasNext_run s), if_neg (by simp only [stuck, Bool.false_eq_true, not_false_iff]), bind_ok shown, bind_ok (errorLog_run text s)]
      rfl
    cases ahead : s.remaining with
    | nil => exact missing (nextTokenIs_nil ahead) ⟨false, nextTokenIs_nil ahead, rfl⟩ (by simp [ahead])
    | cons t rest =>
      have size : s.remaining.length = rest.length + 1 := by simp [ahead]
      by_cases isEnd : t.type = .listEnd
      · refine ⟨.list items, s.advance 1, ?_, [t], by simp [ahead],
          fun valid => ⟨valid, fun start ts₀ isStart read => ?_⟩⟩
        · rw [parseItems, bind_ok (nextTokenIs_cons ahead), if_pos (by simp [isEnd]), bind_ok (next_run ahead)]
          rfl
        · cases first with
          | true =>
            obtain ⟨rfl, rfl⟩ := read
            exact .valueEmpty isStart isEnd
          | false => exact .valueList isStart read isEnd
      · have notEnd : nextTokenIs (· == .listEnd) s = .ok (false, s) := by simp [nextTokenIs_cons ahead, isEnd]
        by_cases separated : t.type = .comma ∧ first = false
        · obtain ⟨isComma, rfl⟩ := separated
          obtain ⟨item, s₁, run, ts, split, _, sound⟩ :=
            parseValue_parsed fuel (s.advance 1) (by simp [ahead]; omega)
          rw [remaining_advance, ahead, List.drop_one, List.tail_cons] at split
          have shorter : s₁.remaining.length ≤ rest.length := by rw [split, List.length_append]; omega
          obtain ⟨e, s₂, run', ts', split', sound'⟩ :=
            parseItems_continued fuel (items ++ [item]) false s₁ (by omega)
          refine ⟨e, s₂, ?_, t :: (ts ++ ts'), by rw [ahead, split, split', List.cons_append, List.append_assoc], ?_⟩
          · rw [parseItems, bind_ok notEnd, if_neg (by simp), bind_ok (nextTokenIs_cons ahead),
              if_pos (by simp [isComma]), bind_ok (next_run ahead), bind_ok run, run']
          · intro valid
            obtain ⟨valid₁, onwards⟩ := sound' valid
            obtain ⟨valid₀, derived⟩ := sound valid₁
            refine ⟨valid₀, fun start ts₀ isStart read => ?_⟩
            have joined := onwards start _ isStart (Derives.itemsMore read isComma derived)
            simpa using joined
        · have notComma : (t.type == .comma && !first) = false := by
            cases first <;> simp_all
          cases first with
          | false =>
            exact missing notEnd ⟨_, nextTokenIs_cons ahead, notComma⟩ (by simp)
          | true =>
            obtain ⟨item, s₁, run, ts, split, progress, sound⟩ := parseValue_parsed fuel s (by omega)
            -- the first item takes a token, so that the rest is shorter
            have consumed : ts ≠ [] := progress (by simp [ahead])
            have shorter : s₁.remaining.length < s.remaining.length := by
              have positive : 0 < ts.length := List.length_pos_iff.mpr consumed
              rw [split, List.length_append]
              omega
            obtain ⟨e, s₂, run', ts', split', sound'⟩ :=
              parseItems_continued fuel (items ++ [item]) false s₁ (by omega)
            refine ⟨e, s₂, ?_, ts ++ ts', by rw [split, split', List.append_assoc], ?_⟩
            · rw [parseItems, bind_ok notEnd, if_neg (by simp), bind_ok (nextTokenIs_cons ahead),
                if_neg (by simp), bind_ok (hasNext_run s), if_pos (by simp [ahead]), bind_ok run, run']
            · intro valid
              obtain ⟨valid₁, onwards⟩ := sound' valid
              obtain ⟨valid₀, derived⟩ := sound valid₁
              refine ⟨valid₀, fun start ts₀ isStart read => ?_⟩
              obtain ⟨rfl, rfl⟩ := read
              exact onwards start ts isStart (.itemsOne derived)

end

end Forserino.Filters
