import Forserino.Filters.ParserCompleteness
import Forserino.Filters.PrintedTokens
import Forserino.Filters.TypeSoundness

/-! Printing a filter and parsing it again.

The tree of an accepted text can be printed to a text whose tokens derive the same
tree; and a printed text that leaves this one has other literals, so it cannot be
parsed to the tree.
-/

set_option autoImplicit false

namespace Forserino.Filters

open Forserino.Qt

/-! ## Literals of a tree and of its tokens -/

theorem opText_plain (op : TokenType) : endsInQuote (BinaryOperation.opText op) = false := by
  cases op <;> decide

/-- The literal pieces of a filter, in order. -/
abbrev Expr.literalPieces (e : Expr) : List QString := e.pieces.filter endsInQuote

theorem literalPieces_unary (op : TokenType) (right : Expr) :
    (Expr.unary op right).literalPieces = right.literalPieces := by
  have operator : endsInQuote (UnaryOperation.opText op) = false := by cases op <;> decide
  have first : endsInQuote (qs "(") = false := by decide
  have last : endsInQuote (qs ")") = false := by decide
  simp [Expr.literalPieces, Expr.pieces, operator, first, last]

theorem literalPieces_binary (op : TokenType) (left right : Expr) :
    (Expr.binary op left right).literalPieces = left.literalPieces ++ right.literalPieces := by
  have between : endsInQuote blank = false := by decide
  have first : endsInQuote (qs "(") = false := by decide
  have last : endsInQuote (qs ")") = false := by decide
  simp [Expr.literalPieces, Expr.pieces, opText_plain op, between, first, last]

theorem itemPieces_literals : ∀ items : List Expr,
    (itemPieces items).filter endsInQuote = items.flatMap Expr.literalPieces
  | [] => rfl
  | [item] => by simp [itemPieces, Expr.literalPieces]
  | item :: next :: rest => by
    have comma : endsInQuote (qs ",") = false := by decide
    have between : endsInQuote blank = false := by decide
    have later := itemPieces_literals (next :: rest)
    rw [itemPieces, List.filter_append, List.filter_cons_of_neg (by simp [comma]),
      List.filter_cons_of_neg (by simp [between]), later]
    rfl

theorem literalPieces_list (items : List Expr) :
    (Expr.list items).literalPieces = items.flatMap Expr.literalPieces := by
  have first : endsInQuote (qs "\x7b") = false := by decide
  have last : endsInQuote (qs "\x7d") = false := by decide
  simp [Expr.literalPieces, Expr.pieces, itemPieces_literals, first, last]

/-- The texts of the literals among some tokens. -/
def literalTexts (ts : List Token) : List QString := (ts.map Token.text).filter endsInQuote

theorem literalTexts_append (ts ts' : List Token) : literalTexts (ts ++ ts') = literalTexts ts ++ literalTexts ts' := by
  simp [literalTexts]

theorem literalTexts_cons {t : Token} (ts : List Token) (plain : endsInQuote t.text = false) :
    literalTexts (t :: ts) = literalTexts ts := by
  simp [literalTexts, plain]

theorem operator_not_literal {type : TokenType} (isOp : typeIsBinaryOp type = true ∨ typeIsMathOp type = true) :
    type ≠ .string ∧ type ≠ .regularExpression := by
  constructor
  · rintro rfl
    exact absurd isOp (by decide)
  · rintro rfl
    exact absurd isOp (by decide)

/-- A token in front and one behind that are no literals. -/
theorem literalTexts_enclosed {open' close : Token} {ts : List Token}
    (lexed : ∀ t ∈ open' :: ts ++ [close], Lexed t)
    (opens : open'.type ≠ .string ∧ open'.type ≠ .regularExpression)
    (closes : close.type ≠ .string ∧ close.type ≠ .regularExpression) :
    literalTexts (open' :: ts ++ [close]) = literalTexts ts := by
  have first := (lexed open' (by simp)).plain opens.1 opens.2
  have last := (lexed close (by simp)).plain closes.1 closes.2
  rw [List.cons_append, literalTexts_cons _ first, literalTexts_append, literalTexts_cons [] last]
  exact List.append_nil _

/-- The literals of a tree are those of the tokens that derive it. -/
theorem Derives.literalTexts {n : Symbol} {ts : List Token} {e : Expr} (derived : Derives n ts e)
    (lexed : ∀ t ∈ ts, Lexed t) : Filters.literalTexts ts = e.literalPieces := by
  have operator {t : Token} {ts ts' : List Token} (lexed : ∀ s ∈ ts ++ t :: ts', Lexed s)
      (noString : t.type ≠ .string) (noRegex : t.type ≠ .regularExpression) :
      Filters.literalTexts (ts ++ t :: ts') = Filters.literalTexts ts ++ Filters.literalTexts ts' := by
    have plain := (lexed t (by simp)).plain noString noRegex
    rw [literalTexts_append, literalTexts_cons ts' plain]
  induction derived with
  | exprAnd _ ih | andUnary _ ih | unaryCond _ ih | condSum _ ih | sumValue _ ih => exact ih lexed
  | exprOr _ isOr _ left right | andAnd _ isOr _ left right =>
    rw [operator lexed (by rw [isOr]; decide) (by rw [isOr]; decide), left fun s member => lexed s (by simp [member]),
      right fun s member => lexed s (by simp [member]), literalPieces_binary]
  | condCompare _ isOp _ left right =>
    obtain ⟨noString, noRegex⟩ := operator_not_literal (.inl isOp)
    rw [operator lexed noString noRegex, left fun s member => lexed s (by simp [member]),
      right fun s member => lexed s (by simp [member]), literalPieces_binary]
  | sumMath _ isOp _ left right =>
    obtain ⟨noString, noRegex⟩ := operator_not_literal (.inr isOp)
    rw [operator lexed noString noRegex, left fun s member => lexed s (by simp [member]),
      right fun s member => lexed s (by simp [member]), literalPieces_binary]
  | unaryNot isNot _ ih =>
    have plain := (lexed _ (List.mem_cons_self ..)).plain (by rw [isNot]; decide) (by rw [isNot]; decide)
    rw [literalTexts_cons _ plain, ih fun s member => lexed s (List.mem_cons_of_mem _ member), literalPieces_unary]
  | valueInt type =>
    have plain := (lexed _ (List.mem_cons_self ..)).plain (by rw [type]; decide) (by rw [type]; decide)
    rw [literalTexts_cons _ plain]
    simp [Filters.literalTexts, Expr.literalPieces, Expr.pieces, number_plain]
  | valueString type =>
    have shape := (lexed _ (List.mem_cons_self ..)).string type
    have ends := endsInQuote_literalText [quote]
    rw [Filters.literalTexts, List.map_singleton, shape, stringContent_literalText]
    simp [Expr.literalPieces, Expr.pieces, ends]
  | valueIdentifier type =>
    have plain := (lexed _ (List.mem_cons_self ..)).plain (by rw [type]; decide) (by rw [type]; decide)
    simp [Filters.literalTexts, Expr.literalPieces, Expr.pieces, plain]
  | valueRegex type =>
    have shape := (lexed _ (List.mem_cons_self ..)).regex type
    have ends := endsInQuote_literalText
    simp only [Filters.literalTexts, List.map_singleton, Expr.literalPieces, Expr.pieces, ← shape]
  | valueParen isLp _ isRp ih =>
    rw [literalTexts_enclosed lexed (by rw [isLp]; decide) (by rw [isRp]; decide),
      ih fun s member => lexed s (by simp [member])]
  | valueEmpty isStart isEnd =>
    have first := (lexed _ (List.mem_cons_self ..)).plain (by rw [isStart]; decide) (by rw [isStart]; decide)
    have last := (lexed _ (List.mem_cons_of_mem _ (List.mem_cons_self ..))).plain (by rw [isEnd]; decide)
      (by rw [isEnd]; decide)
    rw [literalTexts_cons _ first, literalTexts_cons _ last, literalPieces_list]
    rfl
  | valueList isStart _ isEnd ih =>
    rw [literalTexts_enclosed lexed (by rw [isStart]; decide) (by rw [isEnd]; decide),
      ih fun s member => lexed s (by simp [member])]
  | itemsOne _ ih =>
    rw [ih lexed, literalPieces_list, List.flatMap_singleton]
  | itemsMore _ isComma _ front item =>
    rw [operator lexed (by rw [isComma]; decide) (by rw [isComma]; decide),
      front fun s member => lexed s (by simp [member]), item fun s member => lexed s (by simp [member]),
      literalPieces_list, literalPieces_list, List.flatMap_append, List.flatMap_singleton]

/-! ## Trees of accepted texts -/

theorem itemsPrintable_iff (items : List Expr) : ItemsPrintable items ↔ ∀ item ∈ items, item.Printable := by
  induction items with
  | nil =>
    constructor
    · exact fun _ item impossible => absurd impossible List.not_mem_nil
    · exact fun _ => trivial
  | cons item rest ih => rw [ItemsPrintable, ih, List.forall_mem_cons]

section

variable {types : TypingContext}

theorem typeOf_int {op : TokenType} {left right : FilterType}
    (ofType : BinaryOperation.typeOf op left right = .ok .int) : left = .int ∧ right = .int := by
  cases op <;> simp only [BinaryOperation.typeOf] at ofType
  case plus =>
    split at ofType
    · cases ofType
    · split at ofType
      · next both => exact both
      · cases ofType
  case minus | multiply | divide | mod =>
    split at ofType
    · next both => exact both
    · cases ofType
  all_goals try cases ofType
  all_goals try split at ofType
  all_goals try cases ofType
  all_goals try split at ofType
  all_goals try cases ofType
  all_goals try split at ofType
  all_goals cases ofType

theorem list_synthesizeType {items : List Expr} {type : FilterType}
    (typed : (Expr.list items).synthesizeType types = .typeClass type) :
    ∃ itemTypes, synthesizeTypes types items = .ok itemTypes ∧ type = ListExpression.typeOf itemTypes := by
  unfold Expr.synthesizeType at typed
  split at typed
  · next itemTypes found => exact ⟨itemTypes, found, (PossibleType.typeClass.inj typed).symm⟩
  · cases typed

theorem synthesizeTypes_items {items : List Expr} {itemTypes : List FilterType}
    (found : synthesizeTypes types items = .ok itemTypes) :
    ∀ item ∈ items, ∃ type, item.synthesizeType types = .typeClass type := by
  induction items generalizing itemTypes with
  | nil => exact fun _ impossible => absurd impossible List.not_mem_nil
  | cons item rest ih =>
    unfold synthesizeTypes at found
    split at found
    · cases found
    · next type ofType =>
      cases others : synthesizeTypes types rest with
      | error reason =>
        rw [others] at found
        cases found
      | ok restTypes =>
        intro other member
        rcases List.mem_cons.mp member with rfl | later
        · exact ⟨type, ofType⟩
        · exact ih others other later

theorem synthesizeTypes_of_items {items : List Expr}
    (each : ∀ item ∈ items, ∃ type, item.synthesizeType types = .typeClass type) :
    ∃ itemTypes, synthesizeTypes types items = .ok itemTypes := by
  induction items with
  | nil => exact ⟨[], rfl⟩
  | cons item rest ih =>
    obtain ⟨type, typed⟩ := each item (List.mem_cons_self ..)
    obtain ⟨restTypes, others⟩ := ih fun other later => each other (List.mem_cons_of_mem item later)
    exact ⟨type :: restTypes, by rw [synthesizeTypes, typed, others]; rfl⟩

theorem listType_ne_int (itemTypes : List FilterType) : ListExpression.typeOf itemTypes ≠ .int := by
  unfold ListExpression.typeOf
  split
  · decide
  · split <;> decide

/-- Integers are made of integers only. -/
theorem int_literals : ∀ e : Expr, e.synthesizeType types = .typeClass .int → e.literals = []
  | .value (.int _), _ => rfl
  | .value (.string _), typed => nomatch typed
  | .value (.identifier _), _ => rfl
  | .regex _ _, typed => nomatch typed
  | .unary _ _, typed => nomatch (unary_synthesizeType typed).2
  | .binary op left right, typed => by
    obtain ⟨leftType, rightType, leftTyped, rightTyped, ofType⟩ := binary_synthesizeType typed
    obtain ⟨rfl, rfl⟩ := typeOf_int ofType
    rw [Expr.literals, int_literals left leftTyped, int_literals right rightTyped]
    rfl
  | .list items, typed => by
    obtain ⟨itemTypes, _, same⟩ := list_synthesizeType typed
    exact absurd same.symm (listType_ne_int itemTypes)

theorem typeOf_mod {left right type : FilterType} (ofType : BinaryOperation.typeOf .mod left right = .ok type) :
    left = .int := by
  simp only [BinaryOperation.typeOf] at ofType
  split at ofType
  · next both => exact both.1
  · cases ofType

theorem Expr.Printable.binary {op : TokenType} {left right : Expr}
    (isOperator : typeIsBinaryOp op = true ∨ typeIsMathOp op = true ∨ op = .and ∨ op = .or)
    (wellTyped : ∃ type, (Expr.binary op left right).synthesizeType types = .typeClass type)
    (first : (∃ type, left.synthesizeType types = .typeClass type) → left.Printable)
    (second : (∃ type, right.synthesizeType types = .typeClass type) → right.Printable) :
    (Expr.binary op left right).Printable := by
  obtain ⟨type, typed⟩ := wellTyped
  obtain ⟨leftType, rightType, leftTyped, rightTyped, ofType⟩ := binary_synthesizeType typed
  refine ⟨isOperator, ?_, first ⟨leftType, leftTyped⟩, second ⟨rightType, rightTyped⟩⟩
  rintro rfl
  exact int_literals left (typeOf_mod ofType ▸ leftTyped)

theorem Derives.printable {n : Symbol} {ts : List Token} {e : Expr} (derived : Derives n ts e)
    (lexed : ∀ t ∈ ts, Lexed t) (wellTyped : ∃ type, e.synthesizeType types = .typeClass type) : e.Printable := by
  induction derived with
  | exprAnd _ ih | andUnary _ ih | unaryCond _ ih | condSum _ ih | sumValue _ ih => exact ih lexed wellTyped
  | exprOr _ _ _ left right =>
    exact .binary (.inr (.inr (.inr rfl))) wellTyped (left fun s member => lexed s (by simp [member]))
      (right fun s member => lexed s (by simp [member]))
  | andAnd _ _ _ left right =>
    exact .binary (.inr (.inr (.inl rfl))) wellTyped (left fun s member => lexed s (by simp [member]))
      (right fun s member => lexed s (by simp [member]))
  | condCompare _ isOp _ left right =>
    exact .binary (.inl isOp) wellTyped (left fun s member => lexed s (by simp [member]))
      (right fun s member => lexed s (by simp [member]))
  | sumMath _ isOp _ left right =>
    exact .binary (.inr (.inl isOp)) wellTyped (left fun s member => lexed s (by simp [member]))
      (right fun s member => lexed s (by simp [member]))
  | unaryNot _ _ ih =>
    obtain ⟨type, typed⟩ := wellTyped
    refine ⟨rfl, ih (fun s member => lexed s (List.mem_cons_of_mem _ member)) ?_⟩
    unfold Expr.synthesizeType at typed
    split at typed
    · cases typed
    · next rightType rightTyped => exact ⟨rightType, rightTyped⟩
  | valueInt type => exact (lexed _ (List.mem_cons_self ..)).int type
  | valueString _ => trivial
  | valueIdentifier type => exact (lexed _ (List.mem_cons_self ..)).identifier type
  | valueRegex _ => trivial
  | valueParen _ _ _ ih | valueList _ _ _ ih => exact ih (fun s member => lexed s (by simp [member])) wellTyped
  | valueEmpty _ _ => trivial
  | itemsOne _ ih =>
    obtain ⟨type, typed⟩ := wellTyped
    obtain ⟨itemTypes, found, _⟩ := list_synthesizeType typed
    exact ⟨ih lexed (synthesizeTypes_items found _ (List.mem_cons_self ..)), trivial⟩
  | itemsMore _ _ _ front item =>
    obtain ⟨type, typed⟩ := wellTyped
    obtain ⟨itemTypes, found, _⟩ := list_synthesizeType typed
    have each := synthesizeTypes_items found
    obtain ⟨frontTypes, frontFound⟩ :=
      synthesizeTypes_of_items fun item member => each item (List.mem_append_left _ member)
    have frontPrintable := front (fun s member => lexed s (by simp [member]))
      ⟨ListExpression.typeOf frontTypes, by rw [Expr.synthesizeType, frontFound]⟩
    have lastPrintable := item (fun s member => lexed s (by simp [member])) (each _ (by simp))
    rw [Expr.Printable, itemsPrintable_iff] at frontPrintable ⊢
    intro other member
    rcases List.mem_append.mp member with before | last
    · exact frontPrintable other before
    · exact List.mem_singleton.mp last ▸ lastPrintable

end

/-! ## Parsing the printed form -/

/-- What an accepted text says about its tree. -/
structure AcceptedAs (text : QString) (e : Expr) : Prop where
  derived : Derives .expr (tokensOf text) e
  wellTyped : isWellTyped (e.synthesizeType MESSAGE_TYPING_CONTEXT) = true

theorem FilterParser.acceptedAs {text : QString} {p : FilterParser} (accepted : FilterParser.ofText text = .ok p)
    (valid : p.valid = true) : AcceptedAs text p.builtExpression := by
  obtain ⟨q, run, valid_iff, unique⟩ := FilterParser.accepts_grammar (tokensOf text)
  obtain rfl : q = p := Except.ok.inj (run.symm.trans accepted)
  obtain ⟨e, derived, wellTyped⟩ := valid_iff.mp valid
  rw [unique e derived]
  exact ⟨derived, wellTyped⟩

theorem AcceptedAs.accepted {text : QString} {e : Expr} (acceptedAs : AcceptedAs text e) :
    ∃ q, FilterParser.ofText text = .ok q ∧ q.valid = true ∧ q.builtExpression = e := by
  obtain ⟨q, run, valid_iff, unique⟩ := FilterParser.accepts_grammar (tokensOf text)
  exact ⟨q, run, valid_iff.mpr ⟨e, acceptedAs.derived, acceptedAs.wellTyped⟩, unique e acceptedAs.derived⟩

theorem AcceptedAs.literalPieces {text : QString} {e : Expr} (acceptedAs : AcceptedAs text e) :
    (globalMatch 0 text).filter endsInQuote = e.literalPieces := by
  have texts : (tokensOf text).map Token.text = globalMatch 0 text := by
    rw [tokensOf, List.map_map]
    exact List.map_id _
  rw [← acceptedAs.derived.literalTexts (fun t member => lexed_of_mem member), literalTexts, texts]

theorem AcceptedAs.printable {text : QString} {e : Expr} (acceptedAs : AcceptedAs text e) : e.Printable := by
  apply acceptedAs.derived.printable fun t member => lexed_of_mem member
  cases typed : e.synthesizeType MESSAGE_TYPING_CONTEXT with
  | typeClass type => exact ⟨type, rfl⟩
  | illTyped expr message =>
    have wellTyped := acceptedAs.wellTyped
    rw [typed] at wellTyped
    cases wellTyped

/-- The literals come from a text, so the printed form is cut into its pieces. -/
theorem AcceptedAs.spaced {text : QString} {e : Expr} (acceptedAs : AcceptedAs text e) : Spaced [] e.pieces := by
  apply Expr.spaced_text acceptedAs.printable
  have pairwise := (globalMatch_pairwise 0 text).filter endsInQuote
  rwa [acceptedAs.literalPieces] at pairwise

/-- The printed form of an accepted filter is accepted as the same filter. -/
theorem AcceptedAs.text {text : QString} {e : Expr} (acceptedAs : AcceptedAs text e) : AcceptedAs e.text e := by
  refine ⟨?_, acceptedAs.wellTyped⟩
  rw [Expr.tokensOf_text acceptedAs.spaced]
  exact Expr.tokens_expr acceptedAs.printable

/-! ## Parsing a text that leaves the printed form -/

theorem flatten_split {A : Type} {ps : List (List A)} {before tail : List A} {c : A}
    (split : ps.flatten = before ++ c :: tail) :
    ∃ front pre suf back, ps = front ++ (pre ++ c :: suf) :: back ∧ before = front.flatten ++ pre ∧
      tail = suf ++ back.flatten := by
  rcases List.flatten_eq_append_iff.mp split with
    ⟨front, behind, rfl, same, rest⟩ | ⟨front, pre, d, suf, back, rfl, same, rest⟩
  · obtain ⟨empty, suf, back, rfl, allEmpty, same'⟩ := List.flatten_eq_cons_iff.mp rest.symm
    have none : empty.flatten = [] := List.flatten_eq_nil_iff.mpr allEmpty
    exact ⟨front ++ empty, [], suf, back, by simp, by simp [same, none], same'⟩
  · obtain ⟨rfl, same'⟩ := List.cons.inj rest
    exact ⟨front, pre, suf, back, rfl, same, same'⟩

theorem Spaced.fits {rest p : QString} {front back : List QString} (spaced : Spaced rest (front ++ p :: back)) :
    Fits p (back.flatten ++ rest) := by
  induction front with
  | nil => exact spaced.1
  | cons q front ih => exact ih spaced.2

/-- The first literal of a text that starts like a literal and then leaves it is another one. -/
theorem first_literal {start pre suf after : QString} {x c : QChar} {others : List QString} {s : QString}
    (member : start ∈ literalPrefixes) (whole : literalText start s = start ++ pre ++ c :: suf)
    (leaves : x ≠ c) :
    (globalMatch 0 (start ++ pre ++ x :: after)).filter endsInQuote ≠ literalText start s :: others := by
  intro first
  rw [List.append_assoc] at first whole
  have match' := matchLiteral_start member (pre ++ x :: after)
  cases ends : closing (pre ++ x :: after) with
  | some n =>
    -- a literal starts the text, which is then a beginning of it
    have token : matchLiteral (start ++ (pre ++ x :: after)) = some (n + start.length) := by
      rw [match', ends]
      rfl
    have found : matchToken (start ++ (pre ++ x :: after)) = some (n + start.length) := by
      rw [matchToken, token]
    have isLiteral := (matchLiteral_some token).1.endsInQuote
    rw [globalMatch_token found, List.filter_cons_of_pos isLiteral] at first
    have start' := List.take_prefix (n + start.length) (start ++ (pre ++ x :: after))
    rw [(List.cons.inj first).1, whole, List.prefix_append_right_inj, List.prefix_append_right_inj,
      List.cons_prefix_cons] at start'
    exact leaves start'.1.symm
  | none =>
    -- otherwise the text has one quote only, and no token has two
    have absent := closing_none ends
    have token : literalText start s ∈ globalMatch 0 (start ++ (pre ++ x :: after)) := by
      apply List.mem_of_mem_filter (p := endsInQuote)
      rw [first]
      exact List.mem_cons_self ..
    have fewer := (globalMatch_sublist token).count_le quote
    rw [literalText, List.count_append, List.count_append, List.count_append, List.count_eq_zero.mpr absent] at fewer
    have one : List.count quote [quote] = 1 := List.count_singleton_self
    omega

theorem literalPrefix_cons {start : QString} (member : start ∈ literalPrefixes) :
    ∃ c tail, start = c :: tail := by
  rcases literalPrefix_cases member with rfl | ⟨caseInsensitive, rfl⟩
  · exact ⟨quote, [], rfl⟩
  · cases caseInsensitive <;> exact ⟨u 'r', _, rfl⟩

/-- A percent sign is behind the start of a literal. -/
theorem literal_starts {start pre suf s : QString} (member : start ∈ literalPrefixes)
    (whole : pre ++ u '%' :: suf = literalText start s) : ∃ middle, pre = start ++ middle := by
  have plain := literalPrefixes_plain start member
  rw [literalText, List.append_assoc] at whole
  rcases List.append_eq_append_iff.mp whole with ⟨middle, rfl, same⟩ | ⟨middle, rfl, _⟩
  · cases middle with
    | nil => exact ⟨[], by simp⟩
    | cons c middle =>
      obtain ⟨rfl, _⟩ := List.cons.inj same
      exact absurd (List.mem_append_right _ (List.mem_cons_self ..)) plain
  · exact ⟨middle, rfl⟩

theorem filter_blank (ps : List QString) : (ps.filter (· ≠ blank)).filter endsInQuote = ps.filter endsInQuote := by
  rw [List.filter_filter]
  apply List.filter_congr
  intro p _
  by_cases isBlank : p = blank
  · rw [isBlank]
    decide
  · simp [isBlank]

/-- A text that leaves the printed form at a percent sign has other literals. -/
theorem Diverges.literals {e : Expr} {t : QString} (spaced : Spaced [] e.pieces) (diverges : Diverges t e.text) :
    (globalMatch 0 t).filter endsInQuote ≠ e.literalPieces := by
  obtain ⟨before, x, after, y, rest, rfl, shape, notPercent, notBlank⟩ := diverges
  obtain ⟨front, pre, suf, back, pieces, rfl, tail⟩ := flatten_split shape
  rw [pieces] at spaced
  have fits := spaced.fits
  rw [List.append_nil] at fits
  rcases fits.percent (by simp) with ⟨start, member, s, whole⟩ | ⟨isOperator, followed⟩
  · obtain ⟨middle, rfl⟩ := literal_starts member whole
    have ends : endsInQuote (literalText start s) = true := endsInQuote_literalText start s
    have quoted : quote ∈ ((start ++ middle ++ u '%' :: suf) :: back).flatten := by
      rw [List.flatten_cons, whole]
      exact List.mem_append_left _ (List.mem_of_getLast? (beq_iff_eq.mp ends))
    -- the pieces in front of the literal are cut as before
    have inFront : Spaced (start ++ middle ++ x :: after) front := by
      apply spaced.of_append.transfer (by rwa [List.append_nil])
      obtain ⟨c, tail, rfl⟩ := literalPrefix_cons member
      rfl
    have cut := inFront.globalMatch
    intro same
    rw [List.append_assoc, cut, Expr.literalPieces, pieces, List.filter_append, List.filter_append, filter_blank,
      List.append_cancel_left_eq, whole, List.filter_cons_of_pos ends] at same
    exact first_literal member whole.symm notPercent same
  · -- the operator has a blank behind it
    obtain ⟨rfl, rfl⟩ : pre = [] ∧ suf = [] := by
      cases pre with
      | nil => exact ⟨rfl, (List.cons.inj isOperator).2⟩
      | cons c pre => cases pre <;> cases (List.cons.inj isOperator).2
    rw [List.nil_append] at tail
    rw [← tail] at followed
    exact absurd (Option.some.inj followed) notBlank

/-- Filter::filterString and FilterParser are inverse to each other exactly on the
filters without a place marker in a literal that is inserted before the last argument. -/
theorem FilterParser.roundTrip_iff (text : QString) {p : FilterParser}
    (accepted : FilterParser.ofText text = .ok p) (valid : p.valid = true) :
    (∃ q, FilterParser.ofText p.builtExpression.filterString = .ok q ∧ q.valid = true ∧
      q.builtExpression = p.builtExpression) ↔ p.builtExpression.printsBack = true := by
  have acceptedAs := FilterParser.acceptedAs accepted valid
  cases p.builtExpression.prints acceptedAs.printable with
  | same free equal =>
    rw [free, equal]
    exact iff_of_true acceptedAs.text.accepted rfl
  | diverges caught apart =>
    refine iff_of_false ?_ (by rw [caught]; decide)
    rintro ⟨q, accepted', valid', same⟩
    have acceptedAs' := FilterParser.acceptedAs accepted' valid'
    rw [same] at acceptedAs'
    exact apart.literals acceptedAs.spaced acceptedAs'.literalPieces

theorem FilterParser.roundTrip_content : ∃ p, FilterParser.ofText (qs "message.content contains \"%2\"") = .ok p ∧
    ∃ q, FilterParser.ofText p.builtExpression.filterString = .ok q ∧ q.valid = true ∧
      q.builtExpression = p.builtExpression :=
  ⟨_, rfl, (FilterParser.roundTrip_iff (qs "message.content contains \"%2\"") rfl rfl).mpr rfl⟩

/-- The operator is printed into the literal in front of it. -/
theorem FilterParser.operator_in_literal : ∃ p, FilterParser.ofText (qs "\"%2\" == \"a\"") = .ok p ∧ p.valid = true ∧
    p.builtExpression.filterString = qs "(\"==\" == \"a\")" ∧
    ¬ ∃ q, FilterParser.ofText p.builtExpression.filterString = .ok q ∧ q.valid = true ∧
      q.builtExpression = p.builtExpression := by
  refine ⟨_, rfl, rfl, rfl, ?_⟩
  rintro ⟨q, accepted, _, same⟩
  have other : FilterParser.ofText (qs "(\"==\" == \"a\")") =
    .ok ⟨.binary .eq (.value (.string (qs "=="))) (.value (.string (qs "a"))), true, [], .bool⟩ := rfl
  obtain rfl := Except.ok.inj (other.symm.trans accepted)
  cases same

end Forserino.Filters
