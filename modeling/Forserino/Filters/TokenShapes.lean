import Forserino.Filters.Parser
import Forserino.Filters.PrintedForm

/-! The tokens that a text can have: what their types say about their texts, and
which of them are literals.
-/

set_option autoImplicit false

namespace Forserino.Filters

open Forserino.Qt

def endsInQuote (p : QString) : Bool := p.getLast? == some quote

theorem endsInQuote_literalText (start s : QString) : endsInQuote (literalText start s) = true := by
  simp [endsInQuote, literalText]

theorem IsLiteral.endsInQuote {p : QString} (isLiteral : IsLiteral p) : Filters.endsInQuote p = true := by
  obtain ⟨start, _, s, rfl⟩ := isLiteral
  exact endsInQuote_literalText start s

theorem endsInQuote_of_not_mem {p : QString} (absent : quote ∉ p) : endsInQuote p = false := by
  rw [endsInQuote, beq_eq_false_iff_ne]
  intro last
  exact absent (List.mem_of_getLast? last)

/-! ## Tokens of a text -/

/-- A token that the tokenizer can make. -/
structure Lexed (t : Token) : Prop where
  type : t.type = tokenize t.text
  lexeme : Lexeme t.text

theorem lexed_of_mem {text : QString} {t : Token} (member : t ∈ tokensOf text) : Lexed t := by
  obtain ⟨p, inside, rfl⟩ := List.mem_map.mp member
  exact ⟨rfl, globalMatch_lexeme inside⟩

theorem Lexeme.isLiteral {p : QString} (lexeme : Lexeme p) (quoted : quote ∈ p) : IsLiteral p := by
  cases lexeme with
  | literal isLiteral => exact isLiteral
  | word chars => exact absurd (chars quote quoted) (by decide)
  | symbol chars => exact absurd rfl (chars quote quoted).2

theorem lookup_none {p : QString} (other : ∀ entry ∈ FIXED_TOKENS, p ≠ entry.1) : FIXED_TOKENS.lookup p = none := by
  rw [List.lookup_eq_none_iff]
  intro entry inside
  rw [bne_iff_ne]
  exact other entry inside

theorem fixedTokens_plain : ∀ entry ∈ FIXED_TOKENS, quote ∉ entry.1 := by decide

theorem lookup_literalText (start s : QString) : FIXED_TOKENS.lookup (literalText start s) = none := by
  apply lookup_none
  intro entry inside same
  apply fixedTokens_plain entry inside
  rw [← same]
  exact List.mem_append_right _ (List.mem_singleton.mpr rfl)

theorem tokenize_string (s : QString) : tokenize (literalText [quote] s) = .string := by
  have last : (literalText [quote] s).getLast? = some quote := List.getLast?_concat ..
  have head : (literalText [quote] s).head? = some quote := rfl
  rw [tokenize, lookup_literalText, last, head]
  rfl

theorem tokenize_regex (s : QString) (caseInsensitive : Bool) :
    tokenize (literalText (regexPrefix caseInsensitive ++ [quote]) s) = .regularExpression := by
  have last : (literalText (regexPrefix caseInsensitive ++ [quote]) s).getLast? = some quote :=
    List.getLast?_concat ..
  rw [tokenize, lookup_literalText, last]
  cases caseInsensitive <;> rfl

theorem literalPrefix_cases {start : QString} (member : start ∈ literalPrefixes) :
    start = [quote] ∨ ∃ caseInsensitive, start = regexPrefix caseInsensitive ++ [quote] := by
  simp only [literalPrefixes, List.mem_cons, List.not_mem_nil, or_false] at member
  rcases member with rfl | rfl | rfl
  · exact .inr ⟨false, rfl⟩
  · exact .inr ⟨true, rfl⟩
  · exact .inl rfl

theorem stringContent_literalText (s : QString) : stringContent (literalText [quote] s) = s := by
  have inner : ((literalText [quote] s).mid 1).chop 1 = escape s := by
    simp [literalText, QString.mid, QString.chop]
  rw [stringContent, inner, unescape_escape]

theorem regexContent_literalText (s : QString) (caseInsensitive : Bool) :
    regexContent (literalText (regexPrefix caseInsensitive ++ [quote]) s) = s := by
  have inner : ((literalText (regexPrefix caseInsensitive ++ [quote]) s).mid
      (if (literalText (regexPrefix caseInsensitive ++ [quote]) s).startsWith (qs "ri") then 3 else 2)).chop 1 =
        escape s := by
    cases caseInsensitive
    all_goals simp [literalText, QString.mid, QString.chop, QString.startsWith, regexPrefix, qs, u, quote]
  rw [regexContent, inner, unescape_escape]

theorem regex_startsWith (s : QString) (caseInsensitive : Bool) :
    (literalText (regexPrefix caseInsensitive ++ [quote]) s).startsWith (qs "ri") = caseInsensitive := by
  cases caseInsensitive <;> rfl

/-- What a literal token is, by its type. -/
theorem Lexed.literal_cases {t : Token} (lexed : Lexed t) (quoted : quote ∈ t.text) :
    (t.type = .string ∧ ∃ s, t.text = literalText [quote] s) ∨
      (t.type = .regularExpression ∧ ∃ s caseInsensitive,
        t.text = literalText (regexPrefix caseInsensitive ++ [quote]) s) := by
  obtain ⟨start, member, s, same⟩ := lexed.lexeme.isLiteral quoted
  rcases literalPrefix_cases member with rfl | ⟨caseInsensitive, rfl⟩
  · exact .inl ⟨by rw [lexed.type, same, tokenize_string], s, same⟩
  · exact .inr ⟨by rw [lexed.type, same, tokenize_regex], s, caseInsensitive, same⟩

theorem fixedTokens_lookup {p : QString} {type : TokenType} (found : FIXED_TOKENS.lookup p = some type) :
    (p, type) ∈ FIXED_TOKENS := by
  obtain ⟨before, after, shape, _⟩ := List.lookup_eq_some_iff.mp found
  rw [shape]
  exact List.mem_append_right _ (List.mem_cons_self ..)

theorem fixedTokens_type : ∀ entry ∈ FIXED_TOKENS,
    entry.2 ≠ .string ∧ entry.2 ≠ .regularExpression ∧ entry.2 ≠ .int ∧ entry.2 ≠ .identifier := by decide

/-- Literal types are given to texts with a quote only. -/
theorem tokenize_quoted {p : QString} (literal : tokenize p = .string ∨ tokenize p = .regularExpression) :
    quote ∈ p := by
  cases found : FIXED_TOKENS.lookup p with
  | some type =>
    obtain ⟨noString, noRegex, _⟩ := fixedTokens_type _ (fixedTokens_lookup found)
    rw [tokenize, found] at literal
    rcases literal with isString | isRegex
    · exact absurd isString noString
    · exact absurd isRegex noRegex
  | none =>
    have last : p.getLast? = some quote := by
      by_contra other
      have apart : (p.getLast? == some quote) = false := beq_eq_false_iff_ne.mpr other
      rw [tokenize, found] at literal
      simp only [apart, Bool.and_false, Bool.false_eq_true, if_false] at literal
      split at literal
      · rcases literal with impossible | impossible <;> cases impossible
      · split at literal
        all_goals rcases literal with impossible | impossible <;> cases impossible
    exact List.mem_of_getLast? last

theorem Lexed.string {t : Token} (lexed : Lexed t) (isString : t.type = .string) :
    t.text = literalText [quote] (stringContent t.text) := by
  have quoted : quote ∈ t.text := tokenize_quoted (.inl (lexed.type ▸ isString))
  rcases lexed.literal_cases quoted with ⟨_, s, same⟩ | ⟨isRegex, _⟩
  · rw [same, stringContent_literalText]
  · rw [isString] at isRegex
    cases isRegex

theorem Lexed.regex {t : Token} (lexed : Lexed t) (isRegex : t.type = .regularExpression) :
    t.text = literalText (regexPrefix (t.text.startsWith (qs "ri")) ++ [quote]) (regexContent t.text) := by
  have quoted : quote ∈ t.text := tokenize_quoted (.inr (lexed.type ▸ isRegex))
  rcases lexed.literal_cases quoted with ⟨isString, _⟩ | ⟨_, s, caseInsensitive, same⟩
  · rw [isRegex] at isString
    cases isString
  · rw [same, regexContent_literalText, regex_startsWith]

theorem Lexed.int {t : Token} (lexed : Lexed t) (isInt : t.type = .int) :
    0 ≤ (QString.toInt t.text).getD 0 ∧ (QString.toInt t.text).getD 0 ≤ INT_MAX := by
  cases found : QString.toInt t.text with
  | none => exact ⟨Int.le_refl 0, by decide⟩
  | some n =>
    obtain ⟨range, ⟨c, inside, digit⟩, sign⟩ := toInt_plain found
    refine ⟨sign ?_, (inIntRange_iff.mp range).2⟩
    cases lexed.lexeme with
    | literal isLiteral =>
      have quoted : quote ∈ t.text := List.mem_of_getLast? (beq_iff_eq.mp isLiteral.endsInQuote)
      rcases lexed.literal_cases quoted with ⟨isString, _⟩ | ⟨isRegex, _⟩
      · rw [isInt] at isString
        cases isString
      · rw [isInt] at isRegex
        cases isRegex
    | word chars => exact fun minus => absurd (chars _ minus) (by decide)
    | symbol chars =>
      have plain := (chars c inside).1
      rw [isWordOrDot_digit digit] at plain
      cases plain

theorem Lexed.identifier {t : Token} (lexed : Lexed t) (isIdentifier : t.type = .identifier) :
    t.text ∈ VALID_IDENTIFIERS := by
  have type := lexed.type
  rw [isIdentifier, tokenize] at type
  split at type
  · next found => exact absurd type.symm (fixedTokens_type _ (fixedTokens_lookup found)).2.2.2
  · split at type
    · cases type
    · split at type
      · cases type
      · split at type
        · next known => exact List.contains_iff_mem.mp known
        · split at type <;> cases type

/-- A token of another type has no quote in it. -/
theorem Lexed.plain {t : Token} (lexed : Lexed t) (noString : t.type ≠ .string)
    (noRegex : t.type ≠ .regularExpression) : endsInQuote t.text = false := by
  apply endsInQuote_of_not_mem
  intro quoted
  rcases lexed.literal_cases quoted with ⟨isString, _⟩ | ⟨isRegex, _⟩
  · exact noString isString
  · exact noRegex isRegex

end Forserino.Filters
