import Forserino.Filters.Grammar
import Forserino.Filters.TokenShapes

/-! The printed form of a filter has its pieces as tokens, and these derive the filter. -/

set_option autoImplicit false

namespace Forserino.Filters

open Forserino.Qt

/-! ## Cutting the text -/

/-- No word and no literal runs on into the text. -/
def Closed (rest : QString) : Prop := ∀ c ∈ rest.head?, isWordOrDot c = false ∧ c ≠ quote

theorem Closed.cons {c : QChar} (rest : QString) (plain : isWordOrDot c = false ∧ c ≠ quote) :
    Closed (c :: rest) := by
  intro d head
  obtain rfl : c = d := Option.some.inj head
  exact plain

/-- Behind a piece that ends in an escaped quote there is no quote. -/
def Terminated (rest : QString) : List QString → Prop
  | [] => True
  | p :: ps => (EndsEscaped p → quote ∉ ps.flatten ++ rest) ∧ Terminated rest ps

theorem Terminated.of_append {rest : QString} {ps qs : List QString} (terminated : Terminated rest (ps ++ qs)) :
    Terminated (qs.flatten ++ rest) ps ∧ Terminated rest qs := by
  induction ps with
  | nil => exact ⟨trivial, terminated⟩
  | cons p ps ih =>
    obtain ⟨last, others⟩ := terminated
    obtain ⟨first, second⟩ := ih others
    refine ⟨⟨?_, first⟩, second⟩
    rw [← List.append_assoc, ← List.flatten_append]
    exact last

theorem terminated_of_pairwise {ps : List QString} (literal : ∀ p ∈ ps, quote ∈ p → endsInQuote p = true)
    (pairwise : (ps.filter endsInQuote).Pairwise (fun a b => EndsEscaped a → quote ∉ b)) : Terminated [] ps := by
  induction ps with
  | nil => trivial
  | cons p ps ih =>
    have others (q : QString) (member : q ∈ ps) := literal q (List.mem_cons_of_mem p member)
    cases ends : endsInQuote p with
    | false =>
      rw [List.filter_cons_of_neg (by simp [ends])] at pairwise
      refine ⟨fun escaped => absurd ends ?_, ih others pairwise⟩
      rw [literal p (List.mem_cons_self ..) (escaped.subset (by simp))]
      decide
    | true =>
      rw [List.filter_cons_of_pos ends, List.pairwise_cons] at pairwise
      obtain ⟨apart, rest⟩ := pairwise
      refine ⟨fun escaped inside => ?_, ih others rest⟩
      rw [List.append_nil] at inside
      obtain ⟨q, member, quoted⟩ := List.mem_flatten.mp inside
      exact apart q (List.mem_filter.mpr ⟨member, others q member quoted⟩) escaped quoted

theorem symbol_fits {op : TokenType} {after : QString}
    (isOperator : typeIsBinaryOp op = true ∨ typeIsMathOp op = true ∨ op = .and ∨ op = .or)
    (blankBehind : after.head? = some (u ' ')) : Fits (BinaryOperation.opText op) after := by
  have apart (d : QChar) (head : d ∈ after.head?) : d ∉ operatorUnits := by
    rw [blankBehind] at head
    obtain rfl : u ' ' = d := Option.some.inj head
    decide
  have closed (c : QChar) (head : c ∈ after.head?) : isWordOrDot c = false ∧ c ≠ quote := by
    rw [blankBehind] at head
    obtain rfl : u ' ' = c := Option.some.inj head
    decide
  cases op
  case plus | minus | multiply | divide | mod | lt | gt => exact .short (by decide) apart fun _ => blankBehind
  case and | or | eq | neq | lte | gte => exact .long (by decide) apart
  case contains | startsWith | endsWith | regexMatch => exact .word (by decide) (by decide) closed
  all_goals exact absurd isOperator (by decide)

mutual

/-- The pieces of a filter are cut where they end. -/
theorem Expr.spaced : ∀ e : Expr, e.Printable → ∀ rest : QString, Closed rest → Terminated rest e.pieces →
    Spaced rest e.pieces
  | .value (.int n), printable, rest, closed, _ =>
    ⟨.word (number_ne_nil n) (number_words printable.1) closed, trivial⟩
  | .value (.string s), _, rest, _, terminated => ⟨.literal (by decide) s terminated.1, trivial⟩
  | .value (.identifier name), printable, rest, closed, _ =>
    ⟨.word (identifier_word printable).1 (identifier_word printable).2 closed, trivial⟩
  | .regex s caseInsensitive, _, rest, _, terminated =>
    ⟨.literal (regexPrefix_member caseInsensitive) s terminated.1, trivial⟩
  | .unary op right, printable, rest, _, terminated => by
    obtain ⟨rfl, inner⟩ := printable
    obtain ⟨operand, _⟩ := Terminated.of_append terminated.2.2
    have last : Spaced rest [qs ")"] := ⟨.punctuation rest (by decide), trivial⟩
    have body := Expr.spaced right inner _ (.cons rest (by decide)) operand
    refine ⟨.punctuation _ (by decide), .short (by decide) ?_ (fun impossible => nomatch impossible), body.append last⟩
    -- behind the exclamation mark comes the operand, which begins with no operator
    obtain ⟨c, tail, begins, notOperator⟩ := text_head right inner
    intro d head
    rw [List.flatten_append, show right.pieces.flatten = c :: tail from begins] at head
    obtain rfl : c = d := Option.some.inj head
    exact notOperator
  | .binary op left right, printable, rest, _, terminated => by
    obtain ⟨isOperator, _, leftPrintable, rightPrintable⟩ := printable
    obtain ⟨leftTerminated, behind⟩ := Terminated.of_append terminated.2
    obtain ⟨rightTerminated, _⟩ := Terminated.of_append behind.2.2.2
    have last : Spaced rest [qs ")"] := ⟨.punctuation rest (by decide), trivial⟩
    have second := Expr.spaced right rightPrintable _ (.cons rest (by decide)) rightTerminated
    have first := Expr.spaced left leftPrintable _ (.cons _ (by decide)) leftTerminated
    refine ⟨.punctuation _ (by decide), first.append ⟨.blank _, symbol_fits isOperator ?_, .blank _, second.append last⟩⟩
    rfl
  | .list items, printable, rest, _, terminated => by
    obtain ⟨inner, _⟩ := Terminated.of_append terminated.2
    have last : Spaced rest [qs "\x7d"] := ⟨.punctuation rest (by decide), trivial⟩
    exact ⟨.punctuation _ (by decide), (items_spaced items printable _ (.cons rest (by decide)) inner).append last⟩

theorem items_spaced : ∀ items : List Expr, ItemsPrintable items → ∀ rest : QString, Closed rest →
    Terminated rest (itemPieces items) → Spaced rest (itemPieces items)
  | [], _, _, _, _ => trivial
  | [item], printable, rest, closed, terminated => Expr.spaced item printable.1 rest closed terminated
  | item :: next :: rest, printable, after, closed, terminated => by
    obtain ⟨firstTerminated, others⟩ := Terminated.of_append terminated
    have later := items_spaced (next :: rest) printable.2 after closed others.2.2
    have first := Expr.spaced item printable.1 _ (.cons _ (by decide)) firstTerminated
    exact first.append ⟨.punctuation _ (by decide), .blank _, later⟩

end

/-! ## Deriving the filter -/

def tokenOf (p : QString) : Token := ⟨p, tokenize p⟩

/-- The tokens of the printed form. -/
def Expr.tokens (e : Expr) : List Token := (e.pieces.filter (· ≠ blank)).map tokenOf

def itemTokens (items : List Expr) : List Token := ((itemPieces items).filter (· ≠ blank)).map tokenOf

theorem tokens_unary (right : Expr) :
    (Expr.unary .not right).tokens = tokenOf (qs "(") :: (tokenOf (qs "!") :: right.tokens) ++ [tokenOf (qs ")")] := by
  have first : qs "(" ≠ blank := by decide
  have operator : UnaryOperation.opText .not ≠ blank := by decide
  have last : qs ")" ≠ blank := by decide
  simp [Expr.tokens, Expr.pieces, first, operator, last]
  rfl

theorem opText_ne_blank (op : TokenType) : BinaryOperation.opText op ≠ blank := by
  cases op <;> decide

theorem tokens_binary (op : TokenType) (left right : Expr) : (Expr.binary op left right).tokens =
    tokenOf (qs "(") :: (left.tokens ++ tokenOf (BinaryOperation.opText op) :: right.tokens) ++ [tokenOf (qs ")")] := by
  have first : qs "(" ≠ blank := by decide
  have last : qs ")" ≠ blank := by decide
  simp [Expr.tokens, Expr.pieces, first, opText_ne_blank op, last]

theorem tokens_list (items : List Expr) :
    (Expr.list items).tokens = tokenOf (qs "\x7b") :: itemTokens items ++ [tokenOf (qs "\x7d")] := by
  have first : qs "\x7b" ≠ blank := by decide
  have last : qs "\x7d" ≠ blank := by decide
  simp [Expr.tokens, Expr.pieces, itemTokens, first, last]

theorem itemTokens_cons (item next : Expr) (rest : List Expr) :
    itemTokens (item :: next :: rest) = item.tokens ++ tokenOf (qs ",") :: itemTokens (next :: rest) := by
  have comma : qs "," ≠ blank := by decide
  simp [itemTokens, Expr.tokens, itemPieces, comma]

theorem tokenize_operator {op : TokenType}
    (isOperator : typeIsBinaryOp op = true ∨ typeIsMathOp op = true ∨ op = .and ∨ op = .or) :
    tokenize (BinaryOperation.opText op) = op := by
  cases op
  case and | or | eq | neq | lt | gt | lte | gte | contains | startsWith | endsWith | regexMatch | plus | minus |
      multiply | divide | mod => decide
  all_goals exact absurd isOperator (by decide)

theorem fixed_spelling : ∀ entry ∈ FIXED_TOKENS, u '.' ∉ entry.1 ∧ ∀ c ∈ entry.1.head?, isDigit c = false := by
  decide +kernel

theorem tokenize_identifier {name : QString} (member : name ∈ VALID_IDENTIFIERS) :
    tokenize name = .identifier := by
  obtain ⟨⟨-, word⟩, dot, -⟩ := identifier_spelling member
  have noFixed : FIXED_TOKENS.lookup name = none := by
    apply lookup_none
    rintro entry among rfl
    exact (fixed_spelling entry among).1 dot
  have last : (name.getLast? == some quote) = false := by
    rw [beq_eq_false_iff_ne]
    intro ends
    exact absurd (word quote (List.mem_of_getLast? ends)) (by decide)
  have known : VALID_IDENTIFIERS.contains name = true := List.contains_iff_mem.mpr member
  rw [tokenize, noFixed, known]
  simp only [last, Bool.and_false]
  rfl

theorem number_plain (n : Int) : endsInQuote (number n) = false := by
  apply endsInQuote_of_not_mem
  intro member
  rcases number_chars n member with digit | ⟨isMinus, _⟩
  · exact absurd digit (by decide)
  · exact absurd isMinus (by decide)

theorem tokenize_number {n : Int} (natural : 0 ≤ n) (bounded : n ≤ INT_MAX) :
    tokenize (number n) = .int ∧ (QString.toInt (number n)).getD 0 = n := by
  have read : QString.toInt (number n) = some n := by
    have back := toInt_number n.toNat
    rw [Int.toNat_of_nonneg natural] at back
    exact back bounded
  have digit (c : QChar) (head : c ∈ (number n).head?) : isDigit c = true := by
    rcases number_chars n (List.mem_of_mem_head? head) with isDigit | ⟨_, negative⟩
    · exact isDigit
    · omega
  obtain ⟨c, rest, shape⟩ := List.exists_cons_of_ne_nil (number_ne_nil n)
  have head : c ∈ (number n).head? := by rw [shape]; rfl
  have apart (p : QString) (other : ∀ d ∈ p.head?, isDigit d = false) : number n ≠ p := by
    rintro rfl
    have isDigit := digit c head
    rw [other c head] at isDigit
    cases isDigit
  have unknown : VALID_IDENTIFIERS.contains (number n) = false := by
    rw [List.contains_eq_mem, decide_eq_false_iff_not]
    exact fun member => apart _ (identifier_spelling member).2.2 rfl
  have last : ((number n).getLast? == some quote) = false := number_plain n
  refine ⟨?_, by rw [read]; rfl⟩
  rw [tokenize, lookup_none fun entry member => apart _ (fixed_spelling entry member).2, unknown, read]
  simp only [last, Bool.and_false]
  rfl

/-! The tokens of the printed form derive the filter as a value: every operation is in parentheses. -/

theorem Derives.cond_of_value {ts : List Token} {e : Expr} (value : Derives .value ts e) : Derives .unary ts e :=
  .unaryCond (.condSum (.sumValue value))

theorem Derives.operation {op : TokenType} {ts ts' : List Token} {left right : Expr}
    (isOperator : typeIsBinaryOp op = true ∨ typeIsMathOp op = true ∨ op = .and ∨ op = .or)
    (first : Derives .value ts left) (second : Derives .value ts' right) :
    Derives .expr (ts ++ tokenOf (BinaryOperation.opText op) :: ts') (.binary op left right) := by
  have type : (tokenOf (BinaryOperation.opText op)).type = op := tokenize_operator isOperator
  rcases isOperator with binary | math | rfl | rfl
  · have compared := Derives.condCompare (.sumValue first) (type.symm ▸ binary) second
    rw [type] at compared
    exact .exprAnd (.andUnary (.unaryCond compared))
  · have calculated := Derives.sumMath (.sumValue first) (type.symm ▸ math) second
    rw [type] at calculated
    exact .exprAnd (.andUnary (.unaryCond (.condSum calculated)))
  · exact .exprAnd (.andAnd (.andUnary first.cond_of_value) type second.cond_of_value)
  · exact .exprOr (.exprAnd (.andUnary first.cond_of_value)) type (.andUnary second.cond_of_value)

/-- More items behind the ones read so far. -/
theorem Derives.items_append {ts : List Token} {es : List Expr} (front : Derives .items ts (.list es)) :
    ∀ items : List Expr, (∀ item ∈ items, Derives .value item.tokens item) → items ≠ [] →
    Derives .items (ts ++ tokenOf (qs ",") :: itemTokens items) (.list (es ++ items))
  | [], _, nonempty => absurd rfl nonempty
  | [item], each, _ => .itemsMore front (by decide) (each item (List.mem_cons_self ..))
  | item :: next :: rest, each, _ => by
    have longer := Derives.itemsMore front (t := tokenOf (qs ",")) (by decide) (each item (List.mem_cons_self ..))
    have all := Derives.items_append longer (next :: rest)
      (fun other member => each other (List.mem_cons_of_mem item member)) (List.cons_ne_nil _ _)
    rw [itemTokens_cons]
    simpa using all

theorem Derives.items {item : Expr} {rest : List Expr}
    (each : ∀ other ∈ item :: rest, Derives .value other.tokens other) :
    Derives .items (itemTokens (item :: rest)) (.list (item :: rest)) := by
  have first := Derives.itemsOne (each item (List.mem_cons_self ..))
  cases rest with
  | nil => exact first
  | cons next rest =>
    rw [itemTokens_cons]
    exact first.items_append (next :: rest) (fun other member => each other (List.mem_cons_of_mem item member))
      (List.cons_ne_nil _ _)

theorem word_ne_blank {p : QString} (words : ∀ c ∈ p, isWordOrDot c = true) : p ≠ blank := by
  rintro rfl
  exact absurd (words (u ' ') (List.mem_singleton.mpr rfl)) (by decide)

theorem literalText_ne_blank (start s : QString) : literalText start s ≠ blank := by
  intro same
  have quoted : quote ∈ literalText start s := List.mem_append_right _ (List.mem_singleton.mpr rfl)
  rw [same] at quoted
  exact absurd quoted (by decide)

/-- A filter of one piece has one token. -/
theorem tokens_single {e : Expr} {p : QString} (single : e.pieces = [p]) (notBlank : p ≠ blank) :
    e.tokens = [tokenOf p] := by
  simp [Expr.tokens, single, notBlank]

mutual

theorem Expr.tokens_derive : ∀ e : Expr, e.Printable → Derives .value e.tokens e
  | .value (.int n), printable => by
    obtain ⟨isInt, back⟩ := tokenize_number printable.1 printable.2
    have derived := Derives.valueInt (t := tokenOf (number n)) isInt
    rw [tokens_single rfl (word_ne_blank (number_words printable.1))]
    rwa [show (tokenOf (number n)).text = number n from rfl, back] at derived
  | .value (.string s), _ => by
    have derived := Derives.valueString (t := tokenOf (literalText [quote] s)) (tokenize_string s)
    rw [tokens_single rfl (literalText_ne_blank [quote] s)]
    rwa [show (tokenOf (literalText [quote] s)).text = literalText [quote] s from rfl,
      stringContent_literalText] at derived
  | .value (.identifier name), printable => by
    rw [tokens_single rfl (word_ne_blank (identifier_word printable).2)]
    exact .valueIdentifier (t := tokenOf name) (tokenize_identifier printable)
  | .regex s caseInsensitive, _ => by
    have derived := Derives.valueRegex
      (t := tokenOf (literalText (regexPrefix caseInsensitive ++ [quote]) s)) (tokenize_regex s caseInsensitive)
    rw [tokens_single rfl (literalText_ne_blank _ s)]
    rwa [show (tokenOf (literalText (regexPrefix caseInsensitive ++ [quote]) s)).text =
        literalText (regexPrefix caseInsensitive ++ [quote]) s from rfl,
      regexContent_literalText, regex_startsWith] at derived
  | .unary op right, printable => by
    obtain ⟨rfl, inner⟩ := printable
    rw [tokens_unary]
    have negated := Derives.unaryNot (t := tokenOf (qs "!")) (by decide) (.condSum (.sumValue (Expr.tokens_derive right inner)))
    exact .valueParen (by decide) (.exprAnd (.andUnary negated)) (by decide)
  | .binary op left right, printable => by
    obtain ⟨isOperator, _, leftPrintable, rightPrintable⟩ := printable
    rw [tokens_binary]
    exact .valueParen (by decide) (.operation isOperator (Expr.tokens_derive left leftPrintable)
      (Expr.tokens_derive right rightPrintable)) (by decide)
  | .list [], _ => .valueEmpty (by decide) (by decide)
  | .list (item :: rest), printable => by
    rw [tokens_list]
    exact .valueList (by decide) (.items (items_derive (item :: rest) printable)) (by decide)

theorem items_derive : ∀ items : List Expr, ItemsPrintable items → ∀ item ∈ items, Derives .value item.tokens item
  | [], _, _, impossible => nomatch impossible
  | item :: rest, printable, other, member => by
    have first := Expr.tokens_derive item printable.1
    have later := items_derive rest printable.2
    rcases List.mem_cons.mp member with same | inRest
    · exact same ▸ first
    · exact later other inRest

end

/-- A text whose tokens are those of the printed form is accepted as the filter. -/
theorem Expr.tokens_expr {e : Expr} (printable : e.Printable) : Derives .expr e.tokens e :=
  .exprAnd (.andUnary (e.tokens_derive printable).cond_of_value)

/-! ## Tokens of the printed text -/

mutual

/-- Quotes are in the literal pieces only, and these end in one. -/
theorem Expr.quote_pieces : ∀ e : Expr, e.Printable → ∀ p ∈ e.pieces, quote ∈ p → IsLiteral p
  | .value (.int n), printable, p, member, quoted => by
    obtain rfl := List.mem_singleton.mp member
    exact absurd (number_words printable.1 quote quoted) (by decide)
  | .value (.string s), _, p, member, _ => by
    obtain rfl := List.mem_singleton.mp member
    exact ⟨[quote], by decide, s, rfl⟩
  | .value (.identifier name), printable, p, member, quoted => by
    obtain rfl := List.mem_singleton.mp member
    exact absurd ((identifier_word printable).2 quote quoted) (by decide)
  | .regex s caseInsensitive, _, p, member, _ => by
    obtain rfl := List.mem_singleton.mp member
    exact ⟨_, regexPrefix_member caseInsensitive, s, rfl⟩
  | .unary op right, printable, p, member, quoted => by
    obtain ⟨rfl, inner⟩ := printable
    have operand := Expr.quote_pieces right inner p
    simp only [Expr.pieces, List.mem_cons, List.mem_append, List.not_mem_nil, or_false] at member
    rcases member with rfl | rfl | inside | rfl
    · exact absurd quoted (by decide)
    · exact absurd quoted (by decide)
    · exact operand inside quoted
    · exact absurd quoted (by decide)
  | .binary op left right, printable, p, member, quoted => by
    obtain ⟨_, _, leftPrintable, rightPrintable⟩ := printable
    have first := Expr.quote_pieces left leftPrintable p
    have second := Expr.quote_pieces right rightPrintable p
    have operator : quote ∉ BinaryOperation.opText op := by cases op <;> decide
    simp only [Expr.pieces, List.mem_cons, List.mem_append, List.not_mem_nil, or_false] at member
    rcases member with rfl | inLeft | rfl | rfl | rfl | inRight | rfl
    · exact absurd quoted (by decide)
    · exact first inLeft quoted
    · exact absurd quoted (by decide)
    · exact absurd quoted operator
    · exact absurd quoted (by decide)
    · exact second inRight quoted
    · exact absurd quoted (by decide)
  | .list items, printable, p, member, quoted => by
    have inner := items_quote_pieces items printable p
    simp only [Expr.pieces, List.mem_cons, List.mem_append, List.not_mem_nil, or_false] at member
    rcases member with rfl | inside | rfl
    · exact absurd quoted (by decide)
    · exact inner inside quoted
    · exact absurd quoted (by decide)

theorem items_quote_pieces : ∀ items : List Expr, ItemsPrintable items → ∀ p ∈ itemPieces items, quote ∈ p → IsLiteral p
  | [], _, _, impossible, _ => nomatch impossible
  | [item], printable, p, member, quoted => Expr.quote_pieces item printable.1 p member quoted
  | item :: next :: rest, printable, p, member, quoted => by
    have first := Expr.quote_pieces item printable.1 p
    have later := items_quote_pieces (next :: rest) printable.2 p
    simp only [itemPieces, List.mem_cons, List.mem_append] at member
    rcases member with inItem | rfl | rfl | inRest
    · exact first inItem quoted
    · exact absurd quoted (by decide)
    · exact absurd quoted (by decide)
    · exact later inRest quoted

end

/-- The text of a filter is cut into its pieces, if no literal but the last ends in an escaped quote. -/
theorem Expr.spaced_text {e : Expr} (printable : e.Printable)
    (pairwise : (e.pieces.filter endsInQuote).Pairwise (fun a b => EndsEscaped a → quote ∉ b)) :
    Spaced [] e.pieces := by
  apply e.spaced printable [] (fun c impossible => nomatch impossible)
  exact terminated_of_pairwise (fun p member quoted => (e.quote_pieces printable p member quoted).endsInQuote) pairwise

theorem Expr.globalMatch_text {e : Expr} (spaced : Spaced [] e.pieces) :
    globalMatch 0 e.text = e.pieces.filter (· ≠ blank) := by
  have cut := spaced.globalMatch
  rwa [List.append_nil, globalMatch, List.append_nil] at cut

theorem Expr.tokensOf_text {e : Expr} (spaced : Spaced [] e.pieces) : tokensOf e.text = e.tokens := by
  rw [tokensOf, Expr.globalMatch_text spaced]
  rfl

end Forserino.Filters
