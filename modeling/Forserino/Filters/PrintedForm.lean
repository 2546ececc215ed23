import Forserino.Filters.Lexing

/-! The text of a filter and what filterString makes of it.

The text that the printers are after is put together from pieces. filterString
arrives at it unless chained calls of arg meet a place marker in a literal that was
inserted before; then the printed text leaves the intended one at such a marker.
-/

set_option autoImplicit false

namespace Forserino.Filters

open Forserino.Qt

mutual

/-- The pieces of the printed form, in order. -/
def Expr.pieces : Expr → List QString
  | .value (.int n) => [number n]
  | .value (.string s) => [literalText [quote] s]
  | .value (.identifier name) => [name]
  | .regex s caseInsensitive => [literalText (regexPrefix caseInsensitive ++ [quote]) s]
  | .unary op right => qs "(" :: UnaryOperation.opText op :: (right.pieces ++ [qs ")"])
  | .binary op left right =>
      qs "(" :: (left.pieces ++ blank :: BinaryOperation.opText op :: blank :: (right.pieces ++ [qs ")"]))
  | .list items => qs "\x7b" :: (itemPieces items ++ [qs "\x7d"])

def itemPieces : List Expr → List QString
  | [] => []
  | [item] => item.pieces
  | item :: next :: rest => item.pieces ++ qs "," :: blank :: itemPieces (next :: rest)

end

mutual

/-- The contents of the string and regex literals, in order. -/
def Expr.literals : Expr → List QString
  | .value (.string s) => [s]
  | .value _ => []
  | .regex s _ => [s]
  | .unary _ right => right.literals
  | .binary _ left right => left.literals ++ right.literals
  | .list items => itemLiterals items

def itemLiterals : List Expr → List QString
  | [] => []
  | item :: rest => item.literals ++ itemLiterals rest

end

/-- A content without the place markers 1 to 3, which are those of the templates. -/
def withoutMarkers (s : QString) : Bool := (markers s).all (4 ≤ ·)

mutual

/-- No literal in the left operand of a binary operation holds a place marker of its template. -/
def Expr.printsBack : Expr → Bool
  | .value _ | .regex _ _ => true
  | .unary _ right => right.printsBack
  | .binary _ left right => left.literals.all withoutMarkers && left.printsBack && right.printsBack
  | .list items => itemsPrintBack items

def itemsPrintBack : List Expr → Bool
  | [] => true
  | item :: rest => item.printsBack && itemsPrintBack rest

end

mutual

/-- What is true of the tree of an accepted text, whatever the literals contain. -/
def Expr.Printable : Expr → Prop
  | .value (.int n) => 0 ≤ n ∧ n ≤ INT_MAX
  | .value (.string _) => True
  | .value (.identifier name) => name ∈ VALID_IDENTIFIERS
  | .regex _ _ => True
  | .unary op right => op = .not ∧ right.Printable
  | .binary op left right =>
      (typeIsBinaryOp op = true ∨ typeIsMathOp op = true ∨ op = .and ∨ op = .or) ∧
        (op = .mod → left.literals = []) ∧ left.Printable ∧ right.Printable
  | .list items => ItemsPrintable items

def ItemsPrintable : List Expr → Prop
  | [] => True
  | item :: rest => item.Printable ∧ ItemsPrintable rest

end

/-- The printed form that the templates describe. -/
def Expr.text (e : Expr) : QString := e.pieces.flatten

/-! ## Place markers of the text -/

theorem markerNumber_escape_cons (offset : Nat) (d : QChar) (s : QString) :
    markerNumber offset (d :: escape s) = markerNumber offset (d :: s) := by
  cases s with
  | nil => rfl
  | cons e s =>
    by_cases isQuote : e = quote
    · subst isQuote
      rw [escape_quote]
      rfl
    · rw [escape_cons _ isQuote]
      rfl

theorem markerNumber_escape (offset : Nat) (s : QString) :
    markerNumber offset (escape s) = markerNumber offset s := by
  cases s with
  | nil => rfl
  | cons d s =>
    by_cases isQuote : d = quote
    · subst isQuote
      cases s <;> rfl
    · rw [escape_cons _ isQuote, markerNumber_escape_cons]

theorem markerAt_escape (c : QChar) (s : QString) : markerAt (c :: escape s) = markerAt (c :: s) := by
  cases s with
  | nil => rfl
  | cons d s =>
    by_cases isQuote : d = quote
    · subst isQuote
      rw [escape_quote]
      cases s <;> rfl
    · rw [escape_cons _ isQuote]
      simp only [markerAt, markerNumber_escape, markerNumber_escape_cons]

theorem markers_escape (s : QString) : markers (escape s) = markers s := by
  induction s with
  | nil => rfl
  | cons c s ih =>
    by_cases isQuote : c = quote
    · subst isQuote
      rw [escape_quote, markers_cons_of_ne _ _ (by decide), markers_cons_of_ne _ _ (by decide), ih,
        markers_cons_of_ne _ _ (by decide)]
    · rw [escape_cons _ isQuote, markers, markers, markerAt_escape, ih]

theorem markers_plain_append (s t : QString) (absent : u '%' ∉ s) : markers (s ++ t) = markers t := by
  induction s with
  | nil => rfl
  | cons c s ih =>
    simp only [List.mem_cons, not_or] at absent
    rw [List.cons_append, markers_cons_of_ne _ _ (Ne.symm absent.1), ih absent.2]

theorem literalPrefixes_plain : ∀ start ∈ literalPrefixes, u '%' ∉ start := by decide

theorem markers_literalText {start : QString} (member : start ∈ literalPrefixes) (s t : QString) :
    markers (literalText start s ++ t) = markers s ++ markers t := by
  have plain := literalPrefixes_plain start member
  have split : literalText start s ++ t = start ++ (escape s ++ quote :: t) := by
    simp [literalText]
  rw [split, markers_plain_append _ _ plain, markers_append _ _ (Boundary.cons t (by decide) (by decide)),
    markers_escape, markers_cons_of_ne _ _ (by decide)]

theorem digits_plain (n : Int) : u '%' ∉ number n := by
  intro member
  rcases number_chars n member with digit | ⟨isMinus, _⟩
  · exact absurd digit (by decide)
  · exact absurd isMinus (by decide)

theorem isWordOrDot_digit {c : QChar} (digit : isDigit c = true) : isWordOrDot c = true := by
  simp [isWordOrDot, digit]

theorem number_words {n : Int} (natural : 0 ≤ n) : ∀ c ∈ number n, isWordOrDot c = true := by
  intro c member
  rcases number_chars n member with digit | ⟨_, negative⟩
  · exact isWordOrDot_digit digit
  · omega

theorem identifier_spelling {name : QString} (member : name ∈ VALID_IDENTIFIERS) :
    (name ≠ [] ∧ ∀ c ∈ name, isWordOrDot c = true) ∧ u '.' ∈ name ∧ ∀ c ∈ name.head?, isDigit c = false := by
  revert name
  unfold VALID_IDENTIFIERS
  repeat' apply forall_literals
  all_goals decide +kernel

theorem identifier_word {name : QString} (member : name ∈ VALID_IDENTIFIERS) :
    name ≠ [] ∧ ∀ c ∈ name, isWordOrDot c = true := (identifier_spelling member).1

theorem identifier_plain {name : QString} (member : name ∈ VALID_IDENTIFIERS) : u '%' ∉ name := by
  intro inside
  have word := (identifier_word member).2 (u '%') inside
  exact absurd word (by decide)

/-- The only operator with a percent sign has a blank behind it. -/
theorem markers_operator (op : TokenType) (t : QString) :
    markers (blank ++ (BinaryOperation.opText op ++ (blank ++ t))) = markers t := by
  rw [markers_plain_append blank _ (by decide)]
  have direct (absent : u '%' ∉ BinaryOperation.opText op) :
      markers (BinaryOperation.opText op ++ (blank ++ t)) = markers t := by
    rw [markers_plain_append _ _ absent, markers_plain_append blank _ (by decide)]
  cases op
  case mod =>
    change ((markerAt (u '%' :: u ' ' :: t)).map Prod.fst).toList ++ markers (blank ++ t) = markers t
    rw [markers_plain_append blank _ (by decide)]
    cases t <;> rfl
  all_goals exact direct (by decide)

theorem regexPrefix_member (caseInsensitive : Bool) : regexPrefix caseInsensitive ++ [quote] ∈ literalPrefixes := by
  cases caseInsensitive <;> decide

theorem text_unary (op : TokenType) (right : Expr) :
    (Expr.unary op right).text = qs "(" ++ (UnaryOperation.opText op ++ (right.text ++ qs ")")) := by
  simp [Expr.text, Expr.pieces]

theorem text_binary (op : TokenType) (left right : Expr) :
    (Expr.binary op left right).text =
      qs "(" ++ (left.text ++ (blank ++ (BinaryOperation.opText op ++ (blank ++ (right.text ++ qs ")"))))) := by
  simp [Expr.text, Expr.pieces]

theorem text_list (items : List Expr) :
    (Expr.list items).text = qs "\x7b" ++ ((itemPieces items).flatten ++ qs "\x7d") := by
  simp [Expr.text, Expr.pieces]

mutual

/-- All place markers of the text are in literals. -/
theorem Expr.markers_text : ∀ e : Expr, e.Printable → ∀ t : QString,
    markers (e.text ++ t) = e.literals.flatMap markers ++ markers t
  | .value (.int n), _, t => by
    change markers ([number n].flatten ++ t) = markers t
    rw [List.flatten_singleton, markers_plain_append _ _ (digits_plain n)]
  | .value (.string s), _, t => by
    change markers ([literalText [quote] s].flatten ++ t) = [s].flatMap markers ++ markers t
    rw [List.flatten_singleton, List.flatMap_singleton, markers_literalText (by decide)]
  | .value (.identifier name), printable, t => by
    change markers ([name].flatten ++ t) = markers t
    rw [List.flatten_singleton, markers_plain_append _ _ (identifier_plain printable)]
  | .regex s caseInsensitive, _, t => by
    change markers ([literalText _ s].flatten ++ t) = [s].flatMap markers ++ markers t
    rw [List.flatten_singleton, List.flatMap_singleton, markers_literalText (regexPrefix_member caseInsensitive)]
  | .unary op right, printable, t => by
    obtain ⟨rfl, inner⟩ := printable
    rw [text_unary, List.append_assoc, markers_plain_append (qs "(") _ (by decide), List.append_assoc,
      markers_plain_append (UnaryOperation.opText .not) _ (by decide), List.append_assoc,
      Expr.markers_text right inner, markers_plain_append (qs ")") _ (by decide)]
    rfl
  | .binary op left right, printable, t => by
    obtain ⟨_, _, first, second⟩ := printable
    rw [text_binary]
    simp only [List.append_assoc]
    rw [markers_plain_append (qs "(") _ (by decide), Expr.markers_text left first, markers_operator,
      Expr.markers_text right second, markers_plain_append (qs ")") _ (by decide)]
    simp [Expr.literals]
  | .list items, printable, t => by
    rw [text_list, List.append_assoc, markers_plain_append (qs "\x7b") _ (by decide), List.append_assoc,
      markers_items items printable, markers_plain_append (qs "\x7d") _ (by decide)]
    rfl

theorem markers_items : ∀ items : List Expr, ItemsPrintable items → ∀ t : QString,
    markers ((itemPieces items).flatten ++ t) = (itemLiterals items).flatMap markers ++ markers t
  | [], _, t => rfl
  | [item], printable, t => by
    have inner := Expr.markers_text item printable.1 t
    simpa [itemPieces, itemLiterals, Expr.text] using inner
  | item :: next :: rest, printable, t => by
    have inner := Expr.markers_text item printable.1 (qs "," ++ (blank ++ ((itemPieces (next :: rest)).flatten ++ t)))
    rw [markers_plain_append (qs ",") _ (by decide), markers_plain_append blank _ (by decide),
      markers_items (next :: rest) printable.2] at inner
    rw [itemPieces, itemLiterals, List.flatMap_append, List.append_assoc, ← inner]
    simp [Expr.text]

end

/-! ## Texts that leave the intended one -/

/-- The first text leaves the second at a percent sign with no blank behind it. -/
def Diverges (t c : QString) : Prop :=
  ∃ before x after y rest, t = before ++ x :: after ∧ c = before ++ u '%' :: y :: rest ∧ x ≠ u '%' ∧ y ≠ u ' '

/-- An argument that does not begin with a percent sign. -/
def StartsApart (a : QString) : Prop := ∃ x rest, a = x :: rest ∧ x ≠ u '%'

theorem Diverges.prepend {t c : QString} (p : QString) (diverges : Diverges t c) : Diverges (p ++ t) (p ++ c) := by
  obtain ⟨before, x, after, y, rest, rfl, rfl, notPercent, notBlank⟩ := diverges
  exact ⟨p ++ before, x, after, y, rest, by simp, by simp, notPercent, notBlank⟩

theorem Diverges.append {t c : QString} (s s' : QString) (diverges : Diverges t c) :
    Diverges (t ++ s) (c ++ s') := by
  obtain ⟨before, x, after, y, rest, rfl, rfl, notPercent, notBlank⟩ := diverges
  exact ⟨before, x, after ++ s, y, rest ++ s', by simp, by simp, notPercent, notBlank⟩

theorem marker_not_blank {d : QChar} (start : d = u 'L' ∨ isDigit d = true) : d ≠ u ' ' := by
  rintro rfl
  rcases start with same | digit
  · exact absurd same (by decide)
  · exact absurd digit (by decide)

/-- A replaced marker is such a place. -/
theorem Diverges.of_marker {n : Nat} {a s : QString} (present : n ∈ markers s) (apart : StartsApart a) :
    Diverges (replaceMarker n a 0 s) s := by
  obtain ⟨before, d, rest, after, shape, start, replaced⟩ := replaceMarker_first n a s present
  obtain ⟨x, tail, rfl, notPercent⟩ := apart
  exact ⟨before, x, tail ++ after, d, rest, by simp [replaced], shape, notPercent, marker_not_blank start⟩

/-- Another replacement leaves the intended text at the same place or earlier. -/
theorem Diverges.replaceMarker {t c : QString} (n : Nat) {a : QString} (apart : StartsApart a)
    (diverges : Diverges t c) : Diverges (replaceMarker n a 0 t) c := by
  by_cases present : n ∈ markers t
  · obtain ⟨before, x, after, y, rest, rfl, rfl, notPercent, notBlank⟩ := diverges
    obtain ⟨front, d, tail, back, shape, start, replaced⟩ := replaceMarker_first n a _ present
    obtain ⟨x', a, rfl, notPercent'⟩ := apart
    rw [replaced]
    rcases List.append_eq_append_iff.mp shape with ⟨middle, rfl, same⟩ | ⟨middle, rfl, same⟩
    · -- the marker is behind the place
      cases middle with
      | nil => exact absurd (List.cons.inj same).1 notPercent
      | cons z middle =>
        obtain ⟨rfl, _⟩ := List.cons.inj same
        exact ⟨before, x, middle ++ x' :: a ++ back, y, rest, by simp, rfl, notPercent, notBlank⟩
    · cases middle with
      | nil => exact absurd (List.cons.inj same).1.symm notPercent
      | cons z middle =>
        obtain ⟨rfl, behind⟩ := List.cons.inj same
        cases middle with
        | nil => exact ⟨front, x', a ++ back, u '%', y :: rest, by simp, by simp, notPercent', by decide⟩
        | cons e middle =>
          obtain ⟨rfl, _⟩ := List.cons.inj behind
          exact ⟨front, x', a ++ back, d, middle ++ u '%' :: y :: rest, by simp, by simp, notPercent',
            marker_not_blank start⟩
  · rwa [replaceMarker_of_not_mem n a t present]

theorem Diverges.arg {t c : QString} {a : QString} (apart : StartsApart a) (diverges : Diverges t c) :
    Diverges (t.arg a) c := by
  rcases arg_cases t a with same | ⟨n, _, same⟩
  · rwa [same]
  · rw [same]
    exact diverges.replaceMarker n apart

/-! ## filterString -/

theorem filterString_regex (s : QString) (caseInsensitive : Bool) :
    (Expr.regex s caseInsensitive).filterString = literalText (regexPrefix caseInsensitive ++ [quote]) s := by
  cases caseInsensitive <;> rfl

theorem filterString_not (right : Expr) :
    (Expr.unary .not right).filterString = qs "(" ++ (qs "!" ++ (right.filterString ++ qs ")")) := rfl

theorem filterString_list (items : List Expr) :
    (Expr.list items).filterString = qs "\x7b" ++ (join (qs ", ") (filterStrings items) ++ qs "\x7d") := rfl

/-- The template of a binary operation behind its first argument. -/
def afterLeft (left : QString) : QString := qs "(" ++ (left ++ qs " %2 %3)")

theorem boundary_second : Boundary (qs " %2 %3)") := Boundary.cons _ (by decide) (by decide)

theorem boundary_third : Boundary (qs " %3)") := Boundary.cons _ (by decide) (by decide)

theorem filterString_binary (op : TokenType) (left right : Expr) : (Expr.binary op left right).filterString =
    ((afterLeft left.filterString).arg (BinaryOperation.opText op)).arg right.filterString := rfl

theorem opText_apart {op : TokenType}
    (isOperator : typeIsBinaryOp op = true ∨ typeIsMathOp op = true ∨ op = .and ∨ op = .or) (notMod : op ≠ .mod) :
    StartsApart (BinaryOperation.opText op) := by
  cases op
  case mod => exact absurd rfl notMod
  case and | or | eq | neq | lt | gt | lte | gte | contains | startsWith | endsWith | regexMatch | plus | minus |
      multiply | divide => exact ⟨_, _, rfl, by decide⟩
  all_goals exact absurd isOperator (by decide)

theorem Diverges.of_apart {t c : QString} (diverges : Diverges t c) (apart : StartsApart c) : StartsApart t := by
  obtain ⟨before, x, after, y, rest, rfl, rfl, notPercent, _⟩ := diverges
  obtain ⟨z, tail, shape, notPercent'⟩ := apart
  cases before with
  | nil => exact ⟨x, after, rfl, notPercent⟩
  | cons b before => exact ⟨b, before ++ x :: after, rfl, (List.cons.inj shape).1 ▸ notPercent'⟩

/-- No printed form begins with an operator. -/
theorem text_head (e : Expr) (printable : e.Printable) : ∃ c rest, e.text = c :: rest ∧ c ∉ operatorUnits := by
  have plain {s : QString} (nonempty : s ≠ []) (words : ∀ c ∈ s, isWordOrDot c = true) :
      ∃ c rest, [s].flatten = c :: rest ∧ c ∉ operatorUnits := by
    cases s with
    | nil => exact absurd rfl nonempty
    | cons c rest =>
      refine ⟨c, rest, List.append_nil _, fun operator => ?_⟩
      have word := words c (List.mem_cons_self ..)
      rw [(operatorUnits_plain operator).1] at word
      cases word
  cases e with
  | value literal =>
    cases literal with
    | int n => exact plain (number_ne_nil n) (number_words printable.1)
    | string s => exact ⟨quote, _, rfl, by decide⟩
    | identifier name => exact plain (identifier_word printable).1 (identifier_word printable).2
  | regex s caseInsensitive => cases caseInsensitive <;> exact ⟨u 'r', _, rfl, by decide⟩
  | unary op right => exact ⟨u '(', _, rfl, by decide⟩
  | binary op left right => exact ⟨u '(', _, rfl, by decide⟩
  | list items => exact ⟨u '\x7b', _, rfl, by decide⟩

theorem text_apart (e : Expr) (printable : e.Printable) : StartsApart e.text := by
  obtain ⟨c, rest, same, notOperator⟩ := text_head e printable
  refine ⟨c, rest, same, ?_⟩
  rintro rfl
  exact notOperator (by decide)

/-- How a printed text relates to the intended one. -/
inductive Prints (good : Bool) (printed text : QString) : Prop where
  | same (free : good = true) (equal : printed = text)
  | diverges (caught : good = false) (apart : Diverges printed text)

theorem Prints.within {good : Bool} {t c : QString} (p s : QString) (prints : Prints good t c) :
    Prints good (p ++ (t ++ s)) (p ++ (c ++ s)) := by
  cases prints with
  | same free equal => exact .same free (by rw [equal])
  | diverges caught apart => exact .diverges caught ((apart.append s s).prepend p)

theorem Prints.followed {good good' : Bool} {t t' c c' : QString} (separator : QString) (first : Prints good t c)
    (second : Prints good' t' c') : Prints (good && good') (t ++ (separator ++ t')) (c ++ (separator ++ c')) := by
  cases first with
  | diverges caught apart => exact .diverges (by rw [caught]; rfl) (apart.append _ _)
  | same free equal =>
    subst equal
    cases second with
    | diverges caught apart => exact .diverges (by rw [caught, Bool.and_false]) ((apart.prepend _).prepend _)
    | same free' equal' => exact .same (by rw [free, free']; rfl) (by rw [equal'])

theorem Prints.startsApart {good : Bool} {t : QString} {e : Expr} (prints : Prints good t e.text)
    (printable : e.Printable) : StartsApart t := by
  cases prints with
  | same free equal => exact equal ▸ text_apart e printable
  | diverges caught apart => exact apart.of_apart (text_apart e printable)

/-! ### Binary operations -/

theorem markers_parenthesis {left : Expr} (printable : left.Printable) :
    markers (qs "(" ++ left.text) = left.literals.flatMap markers := by
  have all := left.markers_text printable []
  rw [List.append_nil, markers_nil, List.append_nil] at all
  rw [markers_plain_append _ _ (by decide), all]

/-- The template up to the third marker. -/
def beforeRight (op : TokenType) (left : QString) : QString :=
  qs "(" ++ (left ++ (blank ++ BinaryOperation.opText op))

theorem markers_beforeRight {left : Expr} (printable : left.Printable) (op : TokenType) :
    markers (beforeRight op left.text) = left.literals.flatMap markers := by
  have none : markers (blank ++ BinaryOperation.opText op) = [] := by cases op <;> rfl
  rw [beforeRight, markers_plain_append _ _ (by decide), left.markers_text printable, none, List.append_nil]

/-- The operator gets to its place when the markers of the left operand are higher than 2. -/
theorem arg_operator {left : Expr} (printable : left.Printable)
    (higher : ∀ m ∈ left.literals.flatMap markers, 2 < m) (op : TokenType) :
    (afterLeft left.text).arg (BinaryOperation.opText op) = beforeRight op left.text ++ qs " %3)" := by
  have split : afterLeft left.text = (qs "(" ++ left.text) ++ qs " %2 %3)" := by
    rw [afterLeft, List.append_assoc]
  have filled : replaceMarker 2 (BinaryOperation.opText op) 0 (qs " %2 %3)") =
      blank ++ (BinaryOperation.opText op ++ qs " %3)") := rfl
  rw [split, arg_behind 2 _ _ _ boundary_second (by decide) (by decide)
    (by rw [markers_parenthesis printable]; exact higher), filled, beforeRight]
  simp only [List.append_assoc]

/-- The right operand gets to its place when they are higher than 3. -/
theorem arg_right {left : Expr} (printable : left.Printable)
    (higher : ∀ m ∈ left.literals.flatMap markers, 3 < m) (op : TokenType) (right : QString) :
    QString.arg (beforeRight op left.text ++ qs " %3)") right =
      beforeRight op left.text ++ (blank ++ (right ++ qs ")")) := by
  have filled : replaceMarker 3 right 0 (qs " %3)") = blank ++ (right ++ qs ")") := rfl
  rw [arg_behind 3 _ _ _ boundary_third (by decide) (by decide)
    (by rw [markers_beforeRight printable]; exact higher), filled]

theorem text_beforeRight (op : TokenType) (left right : Expr) : (Expr.binary op left right).text =
    beforeRight op left.text ++ (blank ++ (right.text ++ qs ")")) := by
  rw [text_binary, beforeRight]
  simp only [List.append_assoc]

/-- Where the lowest marker is in front, the text diverges there. -/
theorem Diverges.of_arg {n : Nat} {front rest c a : QString} (boundary : Boundary rest) (apart : StartsApart a)
    (present : n ∈ markers front) (least : ∀ m ∈ markers front ++ markers rest, n ≤ m) :
    Diverges (QString.arg (front ++ rest) a) (front ++ c) := by
  rw [arg_before n _ _ _ boundary present least]
  exact (Diverges.of_marker present apart).append _ _

/-- A marker up to 3 in a literal of the left operand catches the operator or the right operand. -/
theorem Diverges.binary {left right : Expr} (op : TokenType) {printed : QString} (printable : left.Printable)
    (operatorApart : StartsApart (BinaryOperation.opText op)) (rightApart : StartsApart printed)
    {m : Nat} (member : m ∈ left.literals.flatMap markers) (low : m ≤ 3) :
    Diverges (((afterLeft left.text).arg (BinaryOperation.opText op)).arg printed)
      (Expr.binary op left right).text := by
  have fullFront : (Expr.binary op left right).text = (qs "(" ++ left.text) ++
      (blank ++ (BinaryOperation.opText op ++ (blank ++ (right.text ++ qs ")")))) := by
    rw [text_binary, List.append_assoc]
  have split : afterLeft left.text = (qs "(" ++ left.text) ++ qs " %2 %3)" := by
    rw [afterLeft, List.append_assoc]
  have inFront := markers_parenthesis printable
  by_cases caught : ∃ n ∈ left.literals.flatMap markers, n ≤ 2
  · -- the lowest marker of all is in the left operand
    obtain ⟨n, inLeft, least⟩ : ∃ n ∈ left.literals.flatMap markers,
        ∀ k ∈ left.literals.flatMap markers ++ [2, 3], n ≤ k := by
      obtain ⟨k, inLeft, small⟩ := caught
      cases lowest : (left.literals.flatMap markers ++ [2, 3]).min? with
      | none =>
        rw [List.min?_eq_none_iff] at lowest
        simp at lowest
      | some n =>
        obtain ⟨inAll, least⟩ := List.min?_eq_some_iff.mp lowest
        have below : n ≤ k := least k (List.mem_append_left _ inLeft)
        rcases List.mem_append.mp inAll with inLeft' | inTemplate
        · exact ⟨n, inLeft', least⟩
        · have isTwo : n = k := by
            simp only [List.mem_cons, List.not_mem_nil, or_false] at inTemplate
            omega
          exact ⟨n, isTwo ▸ inLeft, least⟩
    apply Diverges.arg rightApart
    rw [fullFront, split]
    apply Diverges.of_arg boundary_second operatorApart
    · rw [inFront]
      exact inLeft
    · rw [inFront]
      exact least
  · have higher (k : Nat) (inLeft : k ∈ left.literals.flatMap markers) : 2 < k :=
      Nat.lt_of_not_le fun small => caught ⟨k, inLeft, small⟩
    have three : m = 3 := Nat.le_antisymm low (higher m member)
    subst three
    rw [arg_operator printable higher, text_beforeRight]
    have inFront := markers_beforeRight printable op
    apply Diverges.of_arg boundary_third rightApart (inFront ▸ member)
    intro k inAll
    rw [inFront] at inAll
    rcases List.mem_append.mp inAll with inLeft | inRest
    · exact higher k inLeft
    · have isThree : k ∈ [3] := inRest
      exact Nat.le_of_eq (List.mem_singleton.mp isThree).symm

theorem withoutMarkers_all {literals : List QString} (free : literals.all withoutMarkers = true) :
    ∀ m ∈ literals.flatMap markers, 3 < m := by
  intro m member
  obtain ⟨s, inLiterals, inMarkers⟩ := List.mem_flatMap.mp member
  have high := List.all_eq_true.mp (List.all_eq_true.mp free s inLiterals) m inMarkers
  exact of_decide_eq_true high

theorem withoutMarkers_not_all {literals : List QString} (caught : literals.all withoutMarkers = false) :
    ∃ m ∈ literals.flatMap markers, m ≤ 3 := by
  rw [List.all_eq_false] at caught
  obtain ⟨s, inLiterals, notFree⟩ := caught
  rw [withoutMarkers, List.all_eq_true] at notFree
  push Not at notFree
  obtain ⟨m, inMarkers, notHigh⟩ := notFree
  refine ⟨m, List.mem_flatMap.mpr ⟨s, inLiterals, inMarkers⟩, ?_⟩
  have low : ¬ 4 ≤ m := fun high => notHigh (decide_eq_true high)
  omega

mutual

theorem printsBack_of_no_literals : ∀ e : Expr, e.literals = [] → e.printsBack = true
  | .value _, _ => rfl
  | .regex _ _, _ => rfl
  | .unary _ right, empty => printsBack_of_no_literals right empty
  | .binary _ left right, empty => by
    obtain ⟨noneLeft, noneRight⟩ := List.append_eq_nil_iff.mp empty
    rw [Expr.printsBack, noneLeft, printsBack_of_no_literals left noneLeft, printsBack_of_no_literals right noneRight]
    rfl
  | .list items, empty => itemsPrintBack_of_no_literals items empty

theorem itemsPrintBack_of_no_literals : ∀ items : List Expr, itemLiterals items = [] → itemsPrintBack items = true
  | [], _ => rfl
  | item :: rest, empty => by
    obtain ⟨noneItem, noneRest⟩ := List.append_eq_nil_iff.mp empty
    rw [itemsPrintBack, printsBack_of_no_literals item noneItem, itemsPrintBack_of_no_literals rest noneRest]
    rfl

end

theorem Prints.binary {op : TokenType} {left right : Expr} (printable : (Expr.binary op left right).Printable)
    (first : Prints left.printsBack left.filterString left.text)
    (second : Prints right.printsBack right.filterString right.text) :
    Prints (Expr.binary op left right).printsBack (Expr.binary op left right).filterString
      (Expr.binary op left right).text := by
  obtain ⟨isOperator, modLeft, leftPrintable, rightPrintable⟩ := printable
  have rightApart := second.startsApart rightPrintable
  rw [filterString_binary, Expr.printsBack]
  cases first with
  | diverges caught apart =>
    -- the operator is not the percent sign, whose operands hold no literals
    have notMod : op ≠ .mod := by
      intro isMod
      rw [printsBack_of_no_literals left (modLeft isMod)] at caught
      cases caught
    refine .diverges (by rw [caught, Bool.and_false, Bool.false_and]) ?_
    rw [text_binary]
    exact (((apart.append _ _).prepend _).arg (opText_apart isOperator notMod)).arg rightApart
  | same good equal =>
    rw [equal, good, Bool.and_true]
    cases free : left.literals.all withoutMarkers with
    | false =>
      obtain ⟨m, member, low⟩ := withoutMarkers_not_all free
      have notMod : op ≠ .mod := by
        intro isMod
        rw [modLeft isMod] at free
        cases free
      exact .diverges rfl
        (Diverges.binary op leftPrintable (opText_apart isOperator notMod) rightApart member low)
    | true =>
      have higher := withoutMarkers_all free
      rw [Bool.true_and, arg_operator leftPrintable (fun m member => Nat.lt_of_succ_lt (higher m member)),
        arg_right leftPrintable higher, text_beforeRight]
      rw [← List.append_assoc, ← List.append_assoc (beforeRight op left.text)]
      exact second.within _ _

mutual

/-- filterString prints the text exactly when no literal of a left operand holds a
marker of the template; otherwise it leaves the text at such a marker. -/
theorem Expr.prints : ∀ e : Expr, e.Printable → Prints e.printsBack e.filterString e.text
  | .value (.int n), _ => .same rfl (List.append_nil _).symm
  | .value (.string s), _ => .same rfl (List.append_nil _).symm
  | .value (.identifier name), _ => .same rfl (List.append_nil _).symm
  | .regex s caseInsensitive, _ => .same rfl ((filterString_regex s caseInsensitive).trans (List.append_nil _).symm)
  | .unary op right, printable => by
    obtain ⟨rfl, inner⟩ := printable
    rw [filterString_not, text_unary]
    exact (Expr.prints right inner).within (qs "(!") (qs ")")
  | .binary op left right, printable =>
    .binary printable (Expr.prints left printable.2.2.1) (Expr.prints right printable.2.2.2)
  | .list items, printable => by
    rw [filterString_list, text_list]
    exact (items_print items printable).within _ _

theorem items_print : ∀ items : List Expr, ItemsPrintable items →
    Prints (itemsPrintBack items) (join (qs ", ") (filterStrings items)) (itemPieces items).flatten
  | [], _ => .same rfl rfl
  | [item], printable => by
    have first := Expr.prints item printable.1
    simpa [itemsPrintBack, filterStrings, join, itemPieces, Expr.text] using first
  | item :: next :: rest, printable => by
    have both := (Expr.prints item printable.1).followed (qs ", ") (items_print (next :: rest) printable.2)
    have pieces : (itemPieces (item :: next :: rest)).flatten =
        item.text ++ (qs ", " ++ (itemPieces (next :: rest)).flatten) := by
      rw [itemPieces, List.flatten_append, List.flatten_cons, List.flatten_cons, ← List.append_assoc (qs ",")]
      rfl
    rw [pieces, itemsPrintBack, filterStrings, filterStrings, join, List.append_assoc]
    exact both

end

end Forserino.Filters
