import Mathlib.Algebra.GroupWithZero.Nat
import Forserino.Filters.Lexing
import Forserino.Filters.Parser

/-! Which characters of a filter text belong to its tokens.

The token regex is searched for anywhere in the text, so that what it does not match is passed
over without a word to the parser.
-/

set_option autoImplicit false

namespace Forserino.Filters

open Forserino.Qt

/-- QChar::isSpace -/
def isWhitespace (c : QChar) : Bool :=
  c == u ' ' || (9 ≤ c.toNat && c.toNat ≤ 13) || c.toNat == 0x85 || c.toNat == 0xA0 || c.toNat == 0x1680 ||
    (0x2000 ≤ c.toNat && c.toNat ≤ 0x200A) || c.toNat == 0x2028 || c.toNat == 0x2029 || c.toNat == 0x202F ||
    c.toNat == 0x205F || c.toNat == 0x3000

/-- The text consists of the tokens in their order and of whitespace around them. -/
inductive Covers : QString → List QString → Prop where
  | nil : Covers [] []
  | blank {c : QChar} {rest : QString} {tokens : List QString} (white : isWhitespace c = true)
      (covers : Covers rest tokens) : Covers (c :: rest) tokens
  | token {token rest : QString} {tokens : List QString} (covers : Covers rest tokens) :
      Covers (token ++ rest) (token :: tokens)

/-- The units that globalMatch passes over. -/
def skipped : Nat → QString → QString
  | _, [] => []
  | skip + 1, _ :: rest => skipped skip rest
  | 0, c :: rest =>
      match matchToken (c :: rest) with
      | some n => skipped (n - 1) rest
      | none => c :: skipped 0 rest

/-- Every unit outside of the literals can stand in a token or is whitespace, the operators of
two units are complete, and every quote is closed. -/
def onlyTokens : Nat → QString → Bool
  | _, [] => true
  | skip + 1, _ :: rest => onlyTokens skip rest
  | 0, c :: rest =>
      if isWordOrDot c || singleTokens.contains c then onlyTokens 0 rest
      else if c = quote then
        match closing rest with
        | some n => onlyTokens n rest
        | none => false
      else if rest.head?.any fun d => longOperators.contains [c, d] then onlyTokens 1 rest
      else (shortOperators.contains c || isWhitespace c) && onlyTokens 0 rest

/-! ## What is skipped -/

theorem take_append_later (text : QString) (c : QChar) {n : Nat} (size : 0 < n) :
    (c :: text).take n ++ text.drop (n - 1) = c :: text := by
  obtain ⟨k, rfl⟩ : ∃ k, n = k + 1 := ⟨n - 1, by omega⟩
  rw [List.take_succ_cons, Nat.add_sub_cancel, List.cons_append, List.take_append_drop]

/-- A text is made of its tokens and of what is skipped. -/
theorem countP_skipped (p : QChar → Bool) (skip : Nat) (text : QString) :
    (text.drop skip).countP p =
      ((globalMatch skip text).map (List.countP p)).sum + (skipped skip text).countP p := by
  fun_induction globalMatch skip text with
  | case1 => simp [skipped]
  | case2 skip c rest ih => exact ih
  | case3 c rest n found ih =>
    rw [skipped, found, List.map_cons, List.sum_cons, Nat.add_assoc]
    simp only
    rw [← ih, ← List.countP_append, take_append_later rest c (matchToken_some found).1, List.drop_zero]
  | case4 c rest found ih =>
    rw [List.drop_zero] at ih
    rw [skipped, found, List.drop_zero]
    simp only [List.countP_cons]
    rw [ih, Nat.add_assoc]

theorem Covers.countP {text : QString} {tokens : List QString} (covers : Covers text tokens) :
    text.countP (fun c => !isWhitespace c) = (tokens.map (List.countP fun c => !isWhitespace c)).sum := by
  induction covers with
  | nil => rfl
  | blank white _ ih => simpa [white] using ih
  | token _ ih => rw [List.countP_append, ih, List.map_cons, List.sum_cons]

theorem covers_of_skipped {skip : Nat} {text : QString} (white : ∀ c ∈ skipped skip text, isWhitespace c = true) :
    Covers (text.drop skip) (globalMatch skip text) := by
  fun_induction globalMatch skip text with
  | case1 =>
    rw [List.drop_nil]
    exact .nil
  | case2 skip c rest ih => exact ih white
  | case3 c rest n found ih =>
    rw [skipped, found] at white
    have covers : Covers ((c :: rest).take n ++ rest.drop (n - 1)) _ := .token (ih white)
    rwa [take_append_later rest c (matchToken_some found).1] at covers
  | case4 c rest found ih =>
    rw [skipped, found] at white
    obtain ⟨here, later⟩ := List.forall_mem_cons.mp white
    exact .blank here (ih later)

/-- The tokens cover the text if and only if nothing but whitespace is skipped. -/
theorem covers_iff_skipped {text : QString} :
    Covers text (globalMatch 0 text) ↔ ∀ c ∈ skipped 0 text, isWhitespace c = true := by
  constructor
  · intro covers
    -- the tokens have as many visible units as the text, so none is left for what is skipped
    have whole := countP_skipped (fun c => !isWhitespace c) 0 text
    rw [List.drop_zero, covers.countP] at whole
    have none : (skipped 0 text).countP (fun c => !isWhitespace c) = 0 := by omega
    simpa using none
  · exact covers_of_skipped

/-! ## What the units tell -/

theorem onlyTokens_skip (skip : Nat) (text : QString) : onlyTokens skip text = onlyTokens 0 (text.drop skip) := by
  induction skip generalizing text with
  | zero => rfl
  | succ skip ih =>
    cases text with
    | nil => rfl
    | cons c rest => exact ih rest

theorem onlyTokens_word {w : QString} (chars : ∀ c ∈ w, isWordOrDot c = true) (rest : QString) :
    onlyTokens 0 (w ++ rest) = onlyTokens 0 rest := by
  induction w with
  | nil => rfl
  | cons c w ih =>
    obtain ⟨here, later⟩ := List.forall_mem_cons.mp chars
    rw [List.cons_append, onlyTokens, here, Bool.true_or, if_pos rfl, ih later]

theorem operatorUnits_apart {c : QChar} (member : c ∈ operatorUnits) :
    ¬ (isWordOrDot c || singleTokens.contains c) = true ∧ c ≠ quote := by
  obtain ⟨noWord, noQuote⟩ := operatorUnits_plain member
  refine ⟨?_, noQuote⟩
  rw [noWord, Bool.false_or, List.contains_iff_mem]
  exact fun single => singleTokens_not_operator single member

theorem onlyTokens_operators (text : QString) : onlyTokens 0 text = onlyTokens 0 (text.drop (matchOperators text)) := by
  fun_induction matchOperators text with
  | case1 => rfl
  | case2 c short =>
    obtain ⟨other, noQuote⟩ := operatorUnits_apart (shortOperators_units short)
    rw [onlyTokens, if_neg other, if_neg noQuote]
    simp [onlyTokens, short]
  | case3 => rfl
  | case4 c d rest long ih =>
    obtain ⟨other, noQuote⟩ := operatorUnits_apart (longOperators_units long).1
    rw [onlyTokens, if_neg other, if_neg noQuote, if_pos (by simpa using long), Nat.add_comm]
    exact ih
  | case5 c d rest notLong short ih =>
    obtain ⟨other, noQuote⟩ := operatorUnits_apart (shortOperators_units short)
    rw [onlyTokens, if_neg other, if_neg noQuote, if_neg (by simpa using notLong), Nat.add_comm,
      List.contains_iff_mem.mpr short, Bool.true_or, Bool.true_and]
    exact ih
  | case6 => rfl

theorem onlyTokens_quote {rest : QString} {n : Nat} (found : closing rest = some n) :
    onlyTokens 0 (quote :: rest) = onlyTokens 0 (rest.drop n) := by
  rw [onlyTokens, if_neg (by decide), if_pos rfl, found]
  exact onlyTokens_skip n rest

theorem literalPrefixes_word : ∀ start ∈ literalPrefixes, ∃ w : QString, start = w ++ [quote] ∧
    ∀ c ∈ w, isWordOrDot c = true := by
  simp only [literalPrefixes, List.forall_mem_cons]
  exact ⟨⟨qs "r", rfl, by decide⟩, ⟨qs "ri", rfl, by decide⟩, ⟨[], rfl, by decide⟩, fun _ member => absurd member List.not_mem_nil⟩

theorem onlyTokens_literal {text : QString} {n : Nat} (found : matchLiteral text = some n) :
    onlyTokens 0 text = onlyTokens 0 (text.drop n) := by
  obtain ⟨start, member, here⟩ := List.exists_of_findSome?_eq_some found
  split at here
  · next starts =>
    obtain ⟨rest, rfl⟩ := List.isPrefixOf_iff_prefix.mp starts
    obtain ⟨k, ends, rfl⟩ := Option.map_eq_some_iff.mp here
    rw [List.drop_left] at ends
    obtain ⟨w, rfl, chars⟩ := literalPrefixes_word start member
    -- the units of the prefix before the quote are word characters
    rw [Nat.add_comm k, List.drop_length_add_append, List.append_assoc, onlyTokens_word chars]
    exact onlyTokens_quote ends
  · cases here

/-- A token does not change what is to be told of the text. -/
theorem onlyTokens_token {text : QString} {n : Nat} (found : matchToken text = some n) :
    onlyTokens 0 text = onlyTokens 0 (text.drop n) := by
  unfold matchToken at found
  split at found
  · next m literal =>
    cases found
    exact onlyTokens_literal literal
  · split at found
    · cases found
      have chars : ∀ c ∈ text.take (matchWord text), isWordOrDot c = true := by
        intro c member
        unfold matchWord at member
        rw [← List.prefix_iff_eq_take.mp (List.takeWhile_prefix isWordOrDot)] at member
        exact List.mem_takeWhile_imp member
      have same := onlyTokens_word chars (text.drop (matchWord text))
      rwa [List.take_append_drop] at same
    · split at found
      · cases found
        exact onlyTokens_operators text
      · split at found
        · next single =>
          cases found
          cases text with
          | nil => cases single
          | cons c rest =>
            -- parentheses, braces and the comma stand alone
            have among : singleTokens.contains c = true := by simpa using single
            rw [onlyTokens, among, Bool.or_true, if_pos rfl]
            rfl
        · cases found

/-- A unit that starts no token has to be whitespace. -/
theorem onlyTokens_skipped {c : QChar} {rest : QString} (none : matchToken (c :: rest) = none) :
    onlyTokens 0 (c :: rest) = (isWhitespace c && onlyTokens 0 rest) := by
  unfold matchToken at none
  split at none
  · cases none
  · next noLiteral =>
    split at none
    · cases none
    · next noWord =>
      split at none
      · cases none
      · next noOperator =>
        split at none
        · cases none
        · next noSingle =>
          have other : ¬ (isWordOrDot c || singleTokens.contains c) = true := by
            rw [Bool.or_eq_true, not_or]
            constructor
            · intro word
              apply noWord
              simp [matchWord, word]
            · simpa using noSingle
          rw [onlyTokens, if_neg other]
          split
          · next isQuote =>
            subst isQuote
            cases closed : closing rest with
            | none => rfl
            | some n =>
              -- a closed quote would have started a literal
              have literal := List.findSome?_eq_none_iff.mp noLiteral [quote] (by decide)
              rw [if_pos (by simp [QString.startsWith])] at literal
              simp [closed] at literal
          · cases rest with
            | nil =>
              have notShort : ¬ c ∈ shortOperators := by
                intro short
                apply noOperator
                simp [matchOperators, short]
              simp [notShort]
            | cons d rest =>
              rw [matchOperators] at noOperator
              split at noOperator
              · omega
              · next notLong =>
                split at noOperator
                · omega
                · next notShort => simp [notLong, notShort]

theorem onlyTokens_eq (skip : Nat) (text : QString) :
    onlyTokens skip text = (skipped skip text).all isWhitespace := by
  fun_induction skipped skip text with
  | case1 skip => cases skip <;> rfl
  | case2 skip c rest ih => exact ih
  | case3 c rest n found ih =>
    obtain ⟨k, rfl⟩ : ∃ k, n = k + 1 := ⟨n - 1, by have := (matchToken_some found).1; omega⟩
    rw [← ih, onlyTokens_token found, List.drop_succ_cons, Nat.add_sub_cancel, onlyTokens_skip k]
  | case4 c rest found ih => rw [onlyTokens_skipped found, ih, List.all_cons]

/-- Every character that is not whitespace is in exactly one token if and only if all of them
can be. -/
theorem tokens_cover_iff (text : QString) :
    Covers text ((tokensOf text).map Token.text) ↔ onlyTokens 0 text = true := by
  have texts : (tokensOf text).map Token.text = globalMatch 0 text := by
    simp [tokensOf, Function.comp_def]
  rw [texts, covers_iff_skipped, onlyTokens_eq, List.all_eq_true]

def Accepted (text : QString) : Prop := ∃ p, FilterParser.ofText text = .ok p ∧ p.valid = true

/-- A filter with a sign that means nothing is accepted. -/
theorem sign_ignored : ¬ ∀ text : QString, Accepted text → Covers text ((tokensOf text).map Token.text) := by
  intro holds
  have covers := holds (qs "author.subbed #") ⟨_, rfl, rfl⟩
  have white := covers_iff_skipped.mp covers (u '#') (by decide)
  exact absurd white (by decide)

end Forserino.Filters
