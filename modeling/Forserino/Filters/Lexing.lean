import Mathlib.Data.List.TakeWhile
import Forserino.Filters.Expression

/-! What the token regex makes of a text.

One direction reads a text: which shapes its tokens have. The other direction writes
one: a text that is put together from pieces is cut into the same pieces again, when
no piece can run on into what follows it.
-/

set_option autoImplicit false

namespace Forserino.Filters

open Forserino.Qt

/-! ## Escaping -/

@[simp] theorem escape_nil : escape [] = [] := rfl

@[simp] theorem unescape_nil : unescape [] = [] := rfl

@[simp] theorem escape_quote (s : QString) : escape (quote :: s) = backslash :: quote :: escape s := rfl

theorem escape_cons {c : QChar} (s : QString) (other : c ≠ quote) : escape (c :: s) = c :: escape s := by
  have apart : ([quote].isPrefixOf (c :: s)) = false := by
    rw [List.isPrefixOf, beq_eq_false_iff_ne.mpr (Ne.symm other), Bool.false_and]
  simp [escape, QString.replace, replaceFrom, apart]

@[simp] theorem unescape_quote (s : QString) : unescape (backslash :: quote :: s) = quote :: unescape s := rfl

theorem unescape_cons {c : QChar} (s : QString) (other : ¬ (c = backslash ∧ s.head? = some quote)) :
    unescape (c :: s) = c :: unescape s := by
  have apart : ([backslash, quote].isPrefixOf (c :: s)) = false := by
    rw [Bool.eq_false_iff]
    intro starts
    obtain ⟨rest, same⟩ := List.isPrefixOf_iff_prefix.mp starts
    simp only [List.cons_append, List.nil_append, List.cons.injEq] at same
    exact other ⟨same.1.symm, by rw [← same.2]; rfl⟩
  simp [unescape, QString.replace, replaceFrom, apart]

theorem escape_append (s t : QString) : escape (s ++ t) = escape s ++ escape t := by
  induction s with
  | nil => rfl
  | cons c s ih =>
    by_cases isQuote : c = quote
    · subst isQuote
      rw [List.cons_append, escape_quote, escape_quote, ih]
      rfl
    · rw [List.cons_append, escape_cons _ isQuote, escape_cons _ isQuote, ih]
      rfl

theorem head?_escape_ne_quote (s : QString) : (escape s).head? ≠ some quote := by
  cases s with
  | nil => exact fun impossible => nomatch impossible
  | cons c s =>
    by_cases isQuote : c = quote
    · subst isQuote
      exact fun same => absurd (Option.some.inj same) (by decide)
    · rw [escape_cons _ isQuote, List.head?_cons]
      exact fun same => isQuote (Option.some.inj same)

theorem unescape_escape (s : QString) : unescape (escape s) = s := by
  induction s with
  | nil => rfl
  | cons c s ih =>
    by_cases isQuote : c = quote
    · subst isQuote
      rw [escape_quote, unescape_quote, ih]
    · rw [escape_cons _ isQuote, unescape_cons _ fun both => head?_escape_ne_quote s both.2, ih]

/-! ## The end of a literal -/

theorem closing_none {text : QString} (missing : closing text = none) : quote ∉ text := by
  fun_induction closing text with
  | case1 => exact fun impossible => nomatch impossible
  | case2 => cases missing
  | case3 c other =>
    intro member
    exact other (List.mem_singleton.mp member).symm
  | case4 => cases missing
  | case5 => cases missing
  | case6 c d rest other notEscaped ih =>
    intro member
    rcases List.mem_cons.mp member with here | later
    · exact other here.symm
    · exact ih (Option.map_eq_none_iff.mp missing) later

/-- The content of a literal as the regex delimits it: escaping loses nothing, and a
backslash stands in front of the closing quote only where no quote follows. -/
structure Delimits (text raw : QString) (n : Nat) : Prop where
  shape : text.take n = raw ++ [quote]
  size : n = raw.length + 1
  escaped : escape (unescape raw) = raw
  last : raw.getLast? = some backslash → quote ∉ text.drop n

theorem Delimits.of_closing {text : QString} {n : Nat} (found : closing text = some n) :
    ∃ raw, Delimits text raw n := by
  fun_induction closing text generalizing n with
  | case1 => cases found
  | case2 =>
    cases found
    exact ⟨[], rfl, rfl, rfl, fun impossible => nomatch impossible⟩
  | case3 => cases found
  | case4 d rest =>
    cases found
    exact ⟨[], rfl, rfl, rfl, fun impossible => nomatch impossible⟩
  | case5 c d rest other escapedQuote ih =>
    obtain ⟨rfl, rfl⟩ := escapedQuote
    cases later : closing rest with
    | none =>
      rw [later] at found
      cases found
      -- the text ends with the escaped quote, which then closes the literal after all
      exact ⟨[backslash], rfl, rfl, rfl, fun _ => closing_none later⟩
    | some k =>
      rw [later] at found
      obtain rfl : k + 2 = n := Option.some.inj found
      obtain ⟨raw, delimits⟩ := ih later
      refine ⟨backslash :: quote :: raw, ?_, ?_, ?_, ?_⟩
      · rw [List.take_succ_cons, List.take_succ_cons, delimits.shape]
        rfl
      · simp [delimits.size]
      · rw [unescape_quote, escape_quote, delimits.escaped]
      · intro last
        rw [List.drop_succ_cons, List.drop_succ_cons]
        apply delimits.last
        cases raw with
        | nil => exact absurd last (by decide)
        | cons e raw => simpa using last
  | case6 c d rest other notEscaped ih =>
    obtain ⟨k, later, rfl⟩ := Option.map_eq_some_iff.mp found
    obtain ⟨raw, delimits⟩ := ih later
    -- the unit behind is not an escaped quote, so it is left as it is
    have first : raw.head? = some quote → d = quote := by
      intro starts
      have size := delimits.size
      have shape := delimits.shape
      subst size
      cases raw with
      | nil => cases starts
      | cons e raw =>
        rw [List.length_cons, List.take_succ_cons, List.cons_append] at shape
        obtain rfl : e = quote := by simpa using starts
        exact (List.cons.inj shape).1
    refine ⟨c :: raw, ?_, ?_, ?_, ?_⟩
    · rw [List.take_succ_cons, delimits.shape]
      rfl
    · simp [delimits.size]
    · rw [unescape_cons _ fun both => notEscaped ⟨both.1, first both.2⟩, escape_cons _ other, delimits.escaped]
    · intro last
      rw [List.drop_succ_cons]
      cases raw with
      | cons e raw =>
        apply delimits.last
        simpa using last
      | nil =>
        have shape := delimits.shape
        rw [delimits.size] at shape
        obtain rfl : c = backslash := by simpa using last
        obtain rfl : d = quote := by simpa using shape
        exact absurd ⟨rfl, rfl⟩ notEscaped

theorem closing_of_not_mem {text : QString} (absent : quote ∉ text) : closing text = none := by
  cases found : closing text with
  | none => rfl
  | some n =>
    obtain ⟨raw, delimits⟩ := Delimits.of_closing found
    have member : quote ∈ text.take n := by
      rw [delimits.shape]
      exact List.mem_append_right _ (List.mem_singleton.mpr rfl)
    exact absurd (List.mem_of_mem_take member) absent

/-- The regex finds the end of every escaped content, unless its last character
makes an escaped quote of the closing one and a quote follows that. -/
theorem closing_escape (s rest : QString) (last : s.getLast? = some backslash → quote ∉ rest) :
    closing (escape s ++ quote :: rest) = some ((escape s).length + 1) := by
  induction s with
  | nil => cases rest <;> rfl
  | cons c s ih =>
    have inner : closing (escape s ++ quote :: rest) = some ((escape s).length + 1) := by
      apply ih
      intro ends
      apply last
      rw [List.getLast?_cons, ends]
      rfl
    by_cases isQuote : c = quote
    · subst isQuote
      rw [escape_quote, List.cons_append, List.cons_append, closing, if_neg (by decide), if_pos ⟨rfl, rfl⟩, inner]
      rfl
    · rw [escape_cons _ isQuote, List.cons_append]
      cases shape : escape s with
      | nil =>
        rw [shape] at inner
        rw [List.nil_append, closing, if_neg isQuote]
        by_cases isBackslash : c = backslash
        · -- s is empty, so the closing quote is read as an escaped one first
          obtain rfl : s = [] := by rw [← unescape_escape s, shape]; rfl
          subst isBackslash
          rw [if_pos ⟨rfl, rfl⟩, closing_of_not_mem (last rfl)]
          rfl
        · rw [if_neg fun both => isBackslash both.1]
          simp only [List.nil_append] at inner
          rw [inner]
          rfl
      | cons d tail =>
        have notQuote : d ≠ quote := by
          rintro rfl
          exact head?_escape_ne_quote s (by rw [shape]; rfl)
        rw [shape, List.cons_append] at inner
        rw [List.cons_append, closing, if_neg isQuote, if_neg fun both => notQuote both.2, inner]
        rfl

/-! ## The tokens of a text -/

/-- A string or regex literal with content s. -/
def literalText (start s : QString) : QString := start ++ escape s ++ [quote]

def IsLiteral (p : QString) : Prop := ∃ start ∈ literalPrefixes, ∃ s, p = literalText start s

/-- The token ends in an escaped quote, which the regex allows where no quote follows. -/
def EndsEscaped (p : QString) : Prop := [backslash, quote] <:+ p

/-- What a token of the regex can look like. -/
inductive Lexeme (p : QString) : Prop where
  | literal (isLiteral : IsLiteral p)
  | word (chars : ∀ c ∈ p, isWordOrDot c = true)
  | symbol (chars : ∀ c ∈ p, isWordOrDot c = false ∧ c ≠ quote)

/-- Which characters a literal token ends in. -/
theorem endsEscaped_iff {start : QString} (member : start ∈ literalPrefixes) (raw : QString) :
    EndsEscaped (start ++ raw ++ [quote]) ↔ raw.getLast? = some backslash := by
  have ends (t : QString) : EndsEscaped (t ++ [quote]) ↔ t.getLast? = some backslash := by
    rw [List.getLast?_eq_some_iff]
    constructor
    · rintro ⟨front, same⟩
      have split : front ++ [backslash] ++ [quote] = t ++ [quote] := by simpa using same
      exact ⟨front, (List.append_cancel_right split).symm⟩
    · rintro ⟨front, rfl⟩
      exact ⟨front, by simp⟩
  rw [ends, List.getLast?_append]
  cases raw.getLast? with
  | some c => rfl
  | none =>
    simp only [literalPrefixes, List.mem_cons, List.not_mem_nil, or_false] at member
    rcases member with rfl | rfl | rfl
    all_goals decide

theorem matchLiteral_some {text : QString} {n : Nat} (found : matchLiteral text = some n) :
    IsLiteral (text.take n) ∧ (EndsEscaped (text.take n) → quote ∉ text.drop n) := by
  obtain ⟨start, member, here⟩ := List.exists_of_findSome?_eq_some found
  split at here
  · next starts =>
    obtain ⟨rest, rfl⟩ := List.isPrefixOf_iff_prefix.mp starts
    obtain ⟨k, ends, rfl⟩ := Option.map_eq_some_iff.mp here
    rw [List.drop_left] at ends
    obtain ⟨raw, delimits⟩ := Delimits.of_closing ends
    have token : (start ++ rest).take (k + start.length) = start ++ raw ++ [quote] := by
      rw [Nat.add_comm, List.take_length_add_append, delimits.shape, List.append_assoc]
    have behind : (start ++ rest).drop (k + start.length) = rest.drop k := by
      rw [Nat.add_comm, List.drop_length_add_append]
    refine ⟨⟨start, member, unescape raw, ?_⟩, ?_⟩
    · rw [token, literalText, delimits.escaped]
    · rw [token, behind, endsEscaped_iff member]
      exact delimits.last
  · cases here

/-- Units that an operator token is made of. -/
def operatorUnits : List QChar := [u '<', u '>', u '!', u '+', u '-', u '*', u '/', u '%', u '=', u '|', u '&']

theorem shortOperators_units {c : QChar} (short : c ∈ shortOperators) : c ∈ operatorUnits := by
  simp only [shortOperators, operatorUnits, List.mem_cons] at short ⊢
  tauto

theorem longOperators_units {c d : QChar} (long : [c, d] ∈ longOperators) :
    c ∈ operatorUnits ∧ d ∈ operatorUnits := by
  simp only [longOperators, List.mem_cons, List.not_mem_nil, or_false] at long
  rcases long with same | same | same | same | same | same
  all_goals
    obtain ⟨rfl, rest⟩ := List.cons.inj same
    obtain ⟨rfl, _⟩ := List.cons.inj rest
    decide

theorem matchOperators_units {text : QString} {c : QChar} (member : c ∈ text.take (matchOperators text)) :
    c ∈ operatorUnits := by
  fun_induction matchOperators text with
  | case1 => cases member
  | case2 d short =>
    obtain rfl : c = d := List.mem_singleton.mp member
    exact shortOperators_units short
  | case3 => cases member
  | case4 d e rest long ih =>
    rw [Nat.add_comm, List.take_succ_cons, List.take_succ_cons] at member
    rcases List.mem_cons.mp member with rfl | member
    · exact (longOperators_units long).1
    · rcases List.mem_cons.mp member with rfl | member
      · exact (longOperators_units long).2
      · exact ih member
  | case5 d e rest notLong short ih =>
    rw [Nat.add_comm, List.take_succ_cons] at member
    rcases List.mem_cons.mp member with rfl | member
    · exact shortOperators_units short
    · exact ih member
  | case6 => cases member

theorem operatorUnits_plain {c : QChar} (member : c ∈ operatorUnits) : isWordOrDot c = false ∧ c ≠ quote := by
  revert c
  decide

theorem singleTokens_plain {c : QChar} (member : c ∈ singleTokens) : isWordOrDot c = false ∧ c ≠ quote := by
  revert c
  decide

theorem singleTokens_not_operator {c : QChar} (member : c ∈ singleTokens) : c ∉ operatorUnits := by
  revert c
  decide

/-- A token without a quote is not a literal, and its end is no matter of what follows. -/
theorem not_endsEscaped {p : QString} (absent : quote ∉ p) : ¬ EndsEscaped p := by
  rintro ⟨front, rfl⟩
  exact absent (by simp)

theorem isWordOrDot_quote : isWordOrDot quote = false := by decide

/-- The token that the regex matches at the start of a text. -/
theorem matchToken_some {text : QString} {n : Nat} (found : matchToken text = some n) :
    0 < n ∧ Lexeme (text.take n) ∧ (EndsEscaped (text.take n) → quote ∉ text.drop n) := by
  have plain (size : 0 < n) (lexeme : Lexeme (text.take n)) (absent : quote ∉ text.take n) :
      0 < n ∧ Lexeme (text.take n) ∧ (EndsEscaped (text.take n) → quote ∉ text.drop n) :=
    ⟨size, lexeme, fun ends => absurd ends (not_endsEscaped absent)⟩
  unfold matchToken at found
  split at found
  · next m literal =>
    cases found
    obtain ⟨isLiteral, last⟩ := matchLiteral_some literal
    refine ⟨?_, .literal isLiteral, last⟩
    obtain ⟨start, _, s, same⟩ := isLiteral
    cases n with
    | zero => simp [literalText] at same
    | succ n => exact Nat.succ_pos n
  · split at found
    · next size =>
      cases found
      have chars (c : QChar) (member : c ∈ text.take (matchWord text)) : isWordOrDot c = true := by
        unfold matchWord at member
        rw [← List.prefix_iff_eq_take.mp (List.takeWhile_prefix isWordOrDot)] at member
        exact List.mem_takeWhile_imp member
      refine plain size (.word chars) fun member => ?_
      have impossible := chars quote member
      rw [isWordOrDot_quote] at impossible
      cases impossible
    · split at found
      · next size =>
        cases found
        have chars (c : QChar) (member : c ∈ text.take (matchOperators text)) :=
          operatorUnits_plain (matchOperators_units member)
        exact plain size (.symbol chars) fun member => (chars quote member).2 rfl
      · split at found
        · next single =>
          cases found
          cases text with
          | nil => cases single
          | cons c rest =>
            have chars (d : QChar) (member : d ∈ [c]) : isWordOrDot d = false ∧ d ≠ quote := by
              obtain rfl : d = c := List.mem_singleton.mp member
              exact singleTokens_plain (by simpa using single)
            exact plain Nat.one_pos (.symbol chars) fun member => (chars quote member).2 rfl
        · cases found

/-! ### Tokens in order -/

theorem globalMatch_skip (skip : Nat) (text : QString) :
    globalMatch skip text = globalMatch 0 (text.drop skip) := by
  fun_induction globalMatch skip text with
  | case1 => rw [List.drop_nil]; rfl
  | case2 skip c rest ih => rw [ih, List.drop_succ_cons]
  | case3 c rest n found ih => rw [List.drop_zero, globalMatch, found]
  | case4 c rest found ih => rw [List.drop_zero, globalMatch, found]

theorem globalMatch_token {text : QString} {n : Nat} (found : matchToken text = some n) :
    globalMatch 0 text = text.take n :: globalMatch 0 (text.drop n) := by
  have size := (matchToken_some found).1
  cases text with
  | nil => cases found
  | cons c rest =>
    obtain ⟨n, rfl⟩ : ∃ k, n = k + 1 := ⟨n - 1, by omega⟩
    rw [globalMatch, found, List.drop_succ_cons]
    simp only [Nat.add_sub_cancel]
    rw [globalMatch_skip]

theorem globalMatch_sublist {skip : Nat} {text token : QString} (member : token ∈ globalMatch skip text) :
    token.Sublist text := by
  fun_induction globalMatch skip text with
  | case1 => cases member
  | case2 skip c rest ih => exact (ih member).cons c
  | case3 c rest n found ih =>
    rcases List.mem_cons.mp member with rfl | later
    · exact List.take_sublist n (c :: rest)
    · exact (ih later).cons c
  | case4 c rest found ih => exact (ih member).cons c

theorem globalMatch_lexeme {skip : Nat} {text token : QString} (member : token ∈ globalMatch skip text) :
    Lexeme token := by
  fun_induction globalMatch skip text with
  | case1 => cases member
  | case2 skip c rest ih => exact ih member
  | case3 c rest n found ih =>
    rcases List.mem_cons.mp member with rfl | later
    · exact (matchToken_some found).2.1
    · exact ih later
  | case4 c rest found ih => exact ih member

/-- Behind a literal that ends in an escaped quote there is no other literal. -/
theorem globalMatch_pairwise (skip : Nat) (text : QString) :
    (globalMatch skip text).Pairwise (fun a b => EndsEscaped a → quote ∉ b) := by
  fun_induction globalMatch skip text with
  | case1 => exact .nil
  | case2 skip c rest ih => exact ih
  | case3 c rest n found ih =>
    refine .cons (fun b later ends inside => ?_) ih
    obtain ⟨size, _, last⟩ := matchToken_some found
    rw [globalMatch_skip] at later
    apply last ends
    obtain ⟨n, rfl⟩ : ∃ k, n = k + 1 := ⟨n - 1, by omega⟩
    exact (globalMatch_sublist later).subset inside
  | case4 c rest found ih => exact ih

/-! ## Writing a text from pieces -/

def blank : QString := [u ' ']

/-- The piece is cut off where it ends when the text goes on like this behind it. -/
inductive Fits : QString → QString → Prop where
  | blank (after : QString) : Fits blank after
  | punctuation {c : QChar} (after : QString) (member : c ∈ singleTokens) : Fits [c] after
  | short {c : QChar} {after : QString} (member : c ∈ shortOperators)
      (apart : ∀ d ∈ after.head?, d ∉ operatorUnits) (spaced : c = u '%' → after.head? = some (u ' ')) :
      Fits [c] after
  | long {c d : QChar} {after : QString} (member : [c, d] ∈ longOperators)
      (apart : ∀ e ∈ after.head?, e ∉ operatorUnits) : Fits [c, d] after
  | word {w after : QString} (nonempty : w ≠ []) (chars : ∀ c ∈ w, isWordOrDot c = true)
      (apart : ∀ c ∈ after.head?, isWordOrDot c = false ∧ c ≠ quote) : Fits w after
  | literal {start after : QString} (member : start ∈ literalPrefixes) (s : QString)
      (last : EndsEscaped (literalText start s) → quote ∉ after) : Fits (literalText start s) after

/-- A literal starts with the letters of its prefix and a quote. -/
theorem not_prefix_of_word (start : QString) {after : QString} (letters : ∀ c ∈ start, isWordOrDot c = true)
    (apart : ∀ c ∈ after.head?, isWordOrDot c = false ∧ c ≠ quote) {w : QString}
    (chars : ∀ c ∈ w, isWordOrDot c = true) : ¬ (start ++ [quote]) <+: (w ++ after) := by
  induction start generalizing w with
  | nil =>
    rintro ⟨rest, same⟩
    cases w with
    | nil => exact (apart quote (by rw [← List.nil_append after, ← same]; rfl)).2 rfl
    | cons c w =>
      obtain rfl : quote = c := (List.cons.inj same).1
      have impossible := chars quote (List.mem_cons_self ..)
      rw [isWordOrDot_quote] at impossible
      cases impossible
  | cons a start ih =>
    rintro ⟨rest, same⟩
    cases w with
    | nil =>
      have letter := letters a (List.mem_cons_self ..)
      rw [(apart a (by rw [← List.nil_append after, ← same]; rfl)).1] at letter
      cases letter
    | cons c w =>
      exact ih (fun d member => letters d (List.mem_cons_of_mem a member))
        (fun d member => chars d (List.mem_cons_of_mem c member)) ⟨rest, (List.cons.inj same).2⟩

theorem matchLiteral_of_plain {w after : QString} (chars : ∀ c ∈ w, isWordOrDot c = true)
    (apart : ∀ c ∈ after.head?, isWordOrDot c = false ∧ c ≠ quote) : matchLiteral (w ++ after) = none := by
  unfold matchLiteral
  rw [List.findSome?_eq_none_iff]
  intro start member
  have other : (w ++ after).startsWith start = false := by
    rw [Bool.eq_false_iff]
    intro starts
    have isPrefix := List.isPrefixOf_iff_prefix.mp starts
    simp only [literalPrefixes, List.mem_cons, List.not_mem_nil, or_false] at member
    rcases member with rfl | rfl | rfl
    · exact not_prefix_of_word (qs "r") (by decide) apart chars isPrefix
    · exact not_prefix_of_word (qs "ri") (by decide) apart chars isPrefix
    · exact not_prefix_of_word [] (by decide) apart chars isPrefix
  rw [other]
  rfl

theorem matchOperators_nil {after : QString} (apart : ∀ c ∈ after.head?, c ∉ operatorUnits) :
    matchOperators after = 0 := by
  match after with
  | [] => rfl
  | [c] => exact if_neg fun short => apart c rfl (shortOperators_units short)
  | c :: d :: rest =>
    rw [matchOperators, if_neg fun long => apart c rfl (longOperators_units long).1,
      if_neg fun short => apart c rfl (shortOperators_units short)]

/-- The three prefixes exclude each other, so the one that starts the text decides. -/
theorem matchLiteral_start {start : QString} (member : start ∈ literalPrefixes) (rest : QString) :
    matchLiteral (start ++ rest) = (closing rest).map (· + start.length) := by
  have starts : (start ++ rest).startsWith start = true :=
    List.isPrefixOf_iff_prefix.mpr (List.prefix_append _ _)
  have here : (if (start ++ rest).startsWith start then
      (closing ((start ++ rest).drop start.length)).map (· + start.length) else none) =
        (closing rest).map (· + start.length) := by
    rw [if_pos starts, List.drop_left]
  have there (other : QString) (apart : (start ++ rest).startsWith other = false) :
      (if (start ++ rest).startsWith other then
        (closing ((start ++ rest).drop other.length)).map (· + other.length) else none) = none := by
    rw [apart]
    rfl
  rw [matchLiteral]
  simp only [literalPrefixes, List.mem_cons, List.not_mem_nil, or_false] at member
  simp only [literalPrefixes, List.findSome?_cons, List.findSome?_nil]
  rcases member with rfl | rfl | rfl
  · rw [here, there (qs "ri\"") rfl, there (qs "\"") rfl]
    cases closing rest <;> rfl
  · rw [here, there (qs "r\"") rfl, there (qs "\"") rfl]
    cases closing rest <;> rfl
  · rw [here, there (qs "r\"") rfl, there (qs "ri\"") rfl]
    cases closing rest <;> rfl

theorem matchLiteral_literalText {start : QString} (member : start ∈ literalPrefixes) (s after : QString)
    (last : EndsEscaped (literalText start s) → quote ∉ after) :
    matchLiteral (literalText start s ++ after) = some (literalText start s).length := by
  have ends : closing (escape s ++ quote :: after) = some ((escape s).length + 1) := by
    apply closing_escape
    intro isBackslash
    apply last
    rw [literalText, endsEscaped_iff member, List.getLast?_eq_some_iff.mpr]
    obtain ⟨front, rfl⟩ := List.getLast?_eq_some_iff.mp isBackslash
    exact ⟨escape front, by rw [escape_append]; rfl⟩
  have split : literalText start s ++ after = start ++ (escape s ++ quote :: after) := by
    simp [literalText]
  have size : (literalText start s).length = (escape s).length + 1 + start.length := by
    simp [literalText]
    omega
  rw [split, size, matchLiteral_start member, ends]
  rfl

/-- A token that starts with an operator or punctuation unit is neither a literal nor a word. -/
theorem matchToken_of_symbol {c : QChar} (plain : isWordOrDot c = false ∧ c ≠ quote) (rest : QString) :
    matchToken (c :: rest) = if 0 < matchOperators (c :: rest) then some (matchOperators (c :: rest))
      else if c ∈ singleTokens then some 1 else none := by
  have noLiteral : matchLiteral (c :: rest) = none :=
    matchLiteral_of_plain (w := []) (fun d member => nomatch member) (fun d head => by
      obtain rfl : c = d := Option.some.inj head
      exact plain)
  have noWord : matchWord (c :: rest) = 0 := by
    unfold matchWord
    rw [List.takeWhile_cons, plain.1]
    rfl
  rw [matchToken, noLiteral]
  simp only [noWord, Nat.lt_irrefl, if_false, List.head?_cons, Option.any_some, decide_eq_true_eq]

theorem Fits.matchToken {p after : QString} (fits : Fits p after) (notBlank : p ≠ Filters.blank) :
    Filters.matchToken (p ++ after) = some p.length := by
  cases fits with
  | blank => exact absurd rfl notBlank
  | word nonempty chars apart =>
    have size : matchWord (p ++ after) = p.length := by
      have stops : after.takeWhile isWordOrDot = [] := by
        cases after with
        | nil => rfl
        | cons c rest => rw [List.takeWhile_cons, (apart c rfl).1]; rfl
      unfold matchWord
      rw [List.takeWhile_append_of_pos chars, stops, List.append_nil]
    rw [Filters.matchToken, matchLiteral_of_plain chars apart]
    simp only [size]
    rw [if_pos (List.length_pos_iff.mpr nonempty)]
  | literal member s last => rw [Filters.matchToken, matchLiteral_literalText member s after last]
  | @punctuation c _ member =>
    have noOperator : matchOperators (c :: after) = 0 := by
      apply matchOperators_nil
      intro d head
      obtain rfl : c = d := Option.some.inj head
      exact singleTokens_not_operator member
    rw [List.singleton_append, matchToken_of_symbol (singleTokens_plain member), noOperator,
      if_neg (Nat.lt_irrefl 0), if_pos member]
    rfl
  | @short c _ member apart _ =>
    have one : matchOperators (c :: after) = 1 := by
      cases after with
      | nil => exact if_pos member
      | cons d rest =>
        rw [matchOperators, if_neg fun long => apart d rfl (longOperators_units long).2, if_pos member,
          matchOperators_nil apart]
    rw [List.singleton_append, matchToken_of_symbol (operatorUnits_plain (shortOperators_units member)), one]
    rfl
  | @long c d _ member apart =>
    have two : matchOperators (c :: d :: after) = 2 := by
      rw [matchOperators, if_pos member, matchOperators_nil apart]
    rw [List.cons_append, List.singleton_append,
      matchToken_of_symbol (operatorUnits_plain (longOperators_units member).1), two]
    rfl

theorem globalMatch_blank (text : QString) : globalMatch 0 (blank ++ text) = globalMatch 0 text := by
  have none : matchToken (u ' ' :: text) = none := by
    rw [matchToken_of_symbol (by decide), matchOperators_nil]
    · rfl
    · intro d head
      obtain rfl : u ' ' = d := Option.some.inj head
      decide
  rw [blank, List.singleton_append, globalMatch, none]

/-- Pieces that each fit in front of the rest of the text. -/
def Spaced (rest : QString) : List QString → Prop
  | [] => True
  | p :: ps => Fits p (ps.flatten ++ rest) ∧ Spaced rest ps

theorem Spaced.append {rest : QString} {ps qs : List QString} (first : Spaced (qs.flatten ++ rest) ps)
    (second : Spaced rest qs) : Spaced rest (ps ++ qs) := by
  induction ps with
  | nil => exact second
  | cons p ps ih =>
    refine ⟨?_, ih first.2⟩
    change Fits p ((ps ++ qs).flatten ++ rest)
    rw [List.flatten_append, List.append_assoc]
    exact first.1

/-- The text of spaced pieces is cut into the pieces, without the blanks. -/
theorem Spaced.globalMatch {rest : QString} {ps : List QString} (spaced : Spaced rest ps) :
    Filters.globalMatch 0 (ps.flatten ++ rest) = ps.filter (· ≠ blank) ++ Filters.globalMatch 0 rest := by
  induction ps with
  | nil => rfl
  | cons p ps ih =>
    obtain ⟨fits, others⟩ := spaced
    rw [List.flatten_cons, List.append_assoc]
    by_cases isBlank : p = blank
    · subst isBlank
      rw [globalMatch_blank, ih others]
      rfl
    · rw [globalMatch_token (fits.matchToken isBlank), List.take_left, List.drop_left, ih others]
      simp [isBlank]

theorem Spaced.of_append {rest : QString} {ps qs : List QString} (spaced : Spaced rest (ps ++ qs)) :
    Spaced (qs.flatten ++ rest) ps := by
  induction ps with
  | nil => trivial
  | cons p ps ih =>
    obtain ⟨fits, others⟩ := spaced
    refine ⟨?_, ih others⟩
    rw [← List.append_assoc, ← List.flatten_append]
    exact fits

/-- Only the first unit of what follows matters, where a quote follows. -/
theorem Fits.transfer {p after after' : QString} (fits : Fits p after) (quoted : quote ∈ after)
    (head : after'.head? = after.head?) : Fits p after' := by
  cases fits with
  | blank => exact .blank after'
  | punctuation _ member => exact .punctuation after' member
  | short member apart spaced => exact .short member (head ▸ apart) (head ▸ spaced)
  | long member apart => exact .long member (head ▸ apart)
  | word nonempty chars apart => exact .word nonempty chars (head ▸ apart)
  | literal member s last => exact .literal member s fun ends => absurd quoted (last ends)

theorem Spaced.transfer {rest rest' : QString} {ps : List QString} (spaced : Spaced rest ps)
    (quoted : quote ∈ rest) (head : rest'.head? = rest.head?) : Spaced rest' ps := by
  induction ps with
  | nil => trivial
  | cons p ps ih =>
    obtain ⟨fits, others⟩ := spaced
    refine ⟨fits.transfer (List.mem_append_right _ quoted) ?_, ih others⟩
    rw [List.head?_append, List.head?_append, head]

/-- A percent sign is in a literal, or it is the operator with a blank behind it. -/
theorem Fits.percent {p after : QString} (fits : Fits p after) (inside : u '%' ∈ p) :
    IsLiteral p ∨ (p = qs "%" ∧ after.head? = some (u ' ')) := by
  cases fits with
  | blank => exact absurd inside (by decide)
  | @punctuation c _ member =>
    obtain rfl := List.mem_singleton.mp inside
    exact absurd member (by decide)
  | @short c _ member apart spaced =>
    obtain rfl := List.mem_singleton.mp inside
    exact .inr ⟨rfl, spaced rfl⟩
  | @long c d _ member apart =>
    have plain : ∀ p ∈ longOperators, u '%' ∉ p := by decide
    exact absurd inside (plain _ member)
  | word nonempty chars apart => exact absurd (chars _ inside) (by decide)
  | @literal start _ member s last => exact .inl ⟨start, member, s, rfl⟩

end Forserino.Filters
