import Mathlib.Data.List.TakeWhile
import Mathlib.Data.Int.Cast.Lemmas
import Forserino.Emotes.Emojis
import Forserino.Foundation.Scan
import Forserino.Foundation.Splice

/-! Replacing the short codes of emojis, such as :penguin:, by the emojis.

The matches are found in the text as it was and replaced in a text that changes with every
one of them; the offset between both is always right.
-/

set_option autoImplicit false

namespace Forserino.Emotes

open Forserino.Qt Forserino.Foundation

/-! ## The matches -/

/-- A text without unpaired surrogates; no regular expression matches any other. -/
def isWellFormed : QString → Bool
  | [] => true
  | c :: rest =>
      if 0xD800 ≤ c.toNat && c.toNat < 0xDC00 then
        match rest with
        | [] => false
        | d :: more => isLowSurrogate d && isWellFormed more
      else !isLowSurrogate c && isWellFormed rest

/-- The class [-+\w], where \w is ASCII only. -/
def isCodeUnit (c : QChar) : Bool :=
  c = u '-' || c = u '+' || c = u '_' || isDigit c || (u 'A' ≤ c && c ≤ u 'Z') || (u 'a' ≤ c && c ≤ u 'z')

/-- The length of the match of :([-+\w]+): that begins where the text does. -/
def matchLength : QString → Option Nat
  | [] => none
  | c :: rest =>
      let code := rest.takeWhile isCodeUnit
      if c = u ':' ∧ code ≠ [] ∧ (rest.drop code.length).head? = some (u ':') then some (code.length + 2) else none

/-- The start and the length of every match, from the position i on; the next skip units
belong to a match already. -/
def matchesFrom : Nat → Nat → QString → List (Nat × Nat)
  | _, _, [] => []
  | i, skip + 1, _ :: rest => matchesFrom (i + 1) skip rest
  | i, 0, c :: rest =>
      match matchLength (c :: rest) with
      | some length => (i, length) :: matchesFrom (i + 1) (length - 1) rest
      | none => matchesFrom (i + 1) 0 rest

/-- findShortCodesRegex_.globalMatch -/
def globalMatch (text : QString) : List (Nat × Nat) := if isWellFormed text then matchesFrom 0 0 text else []

/-- QString::toLower of an ASCII text. -/
def toLower (s : QString) : QString := s.map fun c => if u 'A' ≤ c ∧ c ≤ u 'Z' then c + 32 else c

/-! ## The replacement -/

section
variable {EmotePtr : Type} (emojiShortCodeToEmoji : List (QString × EmojiData EmotePtr))

/-- The loop over the matches, with the text so far and the offset. -/
def replaceLoop (text : QString) : QString → Int → List (Nat × Nat) → QString
  | ret, _, [] => ret
  | ret, offset, (capturedStart, capturedLength) :: found =>
      let capturedString := text.midN capturedStart capturedLength
      let matchString := midInt (toLower capturedString) 1 (capturedString.length - 2)
      match emojiShortCodeToEmoji.lookup matchString with
      | none => replaceLoop text ret offset found
      | some emojiData =>
          replaceLoop text (splice ret (offset + capturedStart).toNat capturedLength emojiData.value)
            (offset + (emojiData.value.length - capturedLength)) found

def replaceShortCodes (text : QString) : QString :=
  replaceLoop emojiShortCodeToEmoji text text 0 (globalMatch text)

/-! ## What it is to do -/

/-- A code between its colons. -/
def codeText (code : QString) : QString := u ':' :: (code ++ [u ':'])

/-- A match of the regular expression. -/
def IsShortCode (piece : QString) : Prop :=
  ∃ code, piece = codeText code ∧ code ≠ [] ∧ ∀ c ∈ code, isCodeUnit c = true

/-- The value of the emoji whose code stands between the colons, or the piece as it is. -/
def meaning (piece : QString) : QString :=
  match emojiShortCodeToEmoji.lookup (toLower (piece.drop 1).dropLast) with
  | some emojiData => emojiData.value
  | none => piece

/-- There is nothing to match in a text that is not well formed. -/
def ReplacesShortCodes (text out : QString) : Prop :=
  if isWellFormed text then Scan IsShortCode (meaning emojiShortCodeToEmoji) text out else out = text

/-! ## Matching -/

theorem colon_not_code : isCodeUnit (u ':') = false := by decide

/-- The units of the code are all that stand before its second colon. -/
theorem matchLength_code {piece : QString} (isCode : IsShortCode piece) (rest : QString) :
    matchLength (piece ++ rest) = some piece.length := by
  obtain ⟨code, rfl, nonempty, units⟩ := isCode
  have taken : (code ++ [u ':'] ++ rest).takeWhile isCodeUnit = code := by
    rw [List.append_assoc, List.takeWhile_append_of_pos units]
    simp [colon_not_code]
  have behind : ((code ++ [u ':'] ++ rest).drop code.length).head? = some (u ':') := by
    rw [List.append_assoc, List.drop_left]
    rfl
  rw [codeText, List.cons_append, matchLength]
  simp only [taken, behind, List.length_cons, List.length_append, List.length_nil]
  exact if_pos ⟨trivial, nonempty, trivial⟩

theorem matchLength_none {c : QChar} {rest : QString} (none_ : ∀ piece, piece <+: c :: rest → ¬ IsShortCode piece) :
    matchLength (c :: rest) = none := by
  rw [matchLength]
  apply if_neg
  rintro ⟨rfl, nonempty, colon⟩
  obtain ⟨more, shape⟩ : ∃ more, rest.drop (rest.takeWhile isCodeUnit).length = u ':' :: more := by
    cases behind : rest.drop (rest.takeWhile isCodeUnit).length with
    | nil => simp [behind] at colon
    | cons d more =>
      rw [behind] at colon
      exact ⟨more, by rw [Option.some.inj colon]⟩
  have whole : rest = rest.takeWhile isCodeUnit ++ u ':' :: more := by
    rw [← shape]
    exact (List.prefix_iff_eq_append.mp (List.takeWhile_prefix isCodeUnit)).symm
  refine none_ (codeText (rest.takeWhile isCodeUnit)) ⟨more, ?_⟩
    ⟨rest.takeWhile isCodeUnit, rfl, nonempty, fun c among => List.mem_takeWhile_imp among⟩
  rw [codeText, List.cons_append, List.append_assoc, List.singleton_append, ← whole]

/-- The units of a match are passed over. -/
theorem matchesFrom_skip (i : Nat) (front rest : QString) :
    matchesFrom i front.length (front ++ rest) = matchesFrom (i + front.length) 0 rest := by
  induction front generalizing i with
  | nil => rfl
  | cons c front ih =>
    rw [List.length_cons, List.cons_append, matchesFrom, ih]
    congr 1
    omega

theorem matchesFrom_code {piece : QString} (isCode : IsShortCode piece) (i : Nat) (rest : QString) :
    matchesFrom i 0 (piece ++ rest) = (i, piece.length) :: matchesFrom (i + piece.length) 0 rest := by
  have first := matchLength_code isCode rest
  obtain ⟨code, rfl, -, -⟩ := isCode
  have skipped := matchesFrom_skip (i + 1) (code ++ [u ':']) rest
  rw [codeText, List.cons_append] at first ⊢
  rw [matchesFrom, first]
  simp only [List.length_cons, Nat.add_sub_cancel]
  rw [skipped]
  congr 2
  omega

/-! ## The offset -/

/-- The text before the place is done; the offset is how much longer it became. -/
theorem replaceLoop_scan {emojiShortCodeToEmoji : List (QString × EmojiData EmotePtr)} {text rest out : QString}
    (scan : Scan IsShortCode (meaning emojiShortCodeToEmoji) rest out) (i : Nat) (here : text.drop i = rest)
    (done : QString) :
    replaceLoop emojiShortCodeToEmoji text (done ++ rest) (done.length - i) (matchesFrom i 0 rest) = done ++ out := by
  induction scan generalizing i done with
  | nil => rfl
  | @hit piece rest out isCode later ih =>
    rw [matchesFrom_code isCode, replaceLoop]
    -- the code is read from the text as it was
    have captured : text.midN i piece.length = piece := by
      rw [QString.midN, here, List.take_left]
    have name : midInt (toLower piece) 1 (piece.length - 2) = toLower (piece.drop 1).dropLast := by
      obtain ⟨code, rfl, -, -⟩ := isCode
      have size : ((codeText code).length : Int) - 2 = code.length := by
        simp only [codeText, List.length_cons, List.length_append, List.length_nil]
        omega
      rw [size, midInt, if_neg (by omega), Int.toNat_natCast, QString.midN, codeText, toLower, List.map_cons,
        List.drop_succ_cons, List.drop_zero, List.map_append, List.drop_succ_cons, List.drop_zero, List.dropLast_concat]
      exact List.take_left' (List.length_map _)
    have next : text.drop (i + piece.length) = rest := by
      rw [← List.drop_drop, here, List.drop_left]
    simp only [captured, name, meaning]
    cases known : emojiShortCodeToEmoji.lookup (toLower (piece.drop 1).dropLast) with
    | none =>
      simp only
      have kept := ih (i + piece.length) next (done ++ piece)
      rw [List.append_assoc, List.length_append, Nat.cast_add, Nat.cast_add, add_sub_add_right_eq_sub] at kept
      rw [kept, List.append_assoc]
    | some emojiData =>
      simp only
      have place : ((done.length : Int) - i + i).toNat = done.length := by omega
      have placed : splice (done ++ (piece ++ rest)) done.length piece.length emojiData.value =
          done ++ emojiData.value ++ rest := by
        rw [splice_append, List.drop_left, List.append_assoc]
      have moved : (done.length : Int) - i + (emojiData.value.length - piece.length) =
          (done ++ emojiData.value).length - ((i + piece.length : Nat) : Int) := by
        rw [List.length_append]
        omega
      rw [place, placed, moved, ih (i + piece.length) next, List.append_assoc]
  | @skip c rest out none_ later ih =>
    rw [matchesFrom, matchLength_none none_]
    simp only
    have next : text.drop (i + 1) = rest := by rw [← List.drop_drop, here, List.drop_one, List.tail_cons]
    have kept := ih (i + 1) next (done ++ [c])
    rw [List.append_assoc, List.singleton_append, List.length_append, List.length_singleton, Nat.cast_add, Nat.cast_add,
      add_sub_add_right_eq_sub, List.append_assoc, List.singleton_append] at kept
    exact kept

/-- Exactly the known codes are replaced: the output is the one text in which every match of
the original that names an emoji is that emoji and all else is kept. -/
theorem replaceShortCodes_iff (text out : QString) :
    ReplacesShortCodes emojiShortCodeToEmoji text out ↔ out = replaceShortCodes emojiShortCodeToEmoji text := by
  rw [ReplacesShortCodes, replaceShortCodes, globalMatch]
  split
  · have produces : ∀ {result}, Scan IsShortCode (meaning emojiShortCodeToEmoji) text result →
        replaceLoop emojiShortCodeToEmoji text text 0 (matchesFrom 0 0 text) = result := by
      intro result scan
      have whole := replaceLoop_scan scan 0 List.drop_zero []
      rw [List.nil_append, List.length_nil, Nat.cast_zero, sub_zero, List.nil_append] at whole
      exact whole
    constructor
    · exact fun scan => (produces scan).symm
    · rintro rfl
      have nonempty : ∀ piece, IsShortCode piece → piece ≠ [] := by
        rintro _ ⟨code, rfl, -, -⟩
        exact List.cons_ne_nil _ _
      obtain ⟨result, scan⟩ := Scan.exists_out (meaning emojiShortCodeToEmoji) nonempty text
      rw [produces scan]
      exact scan
  · rfl

end

end Forserino.Emotes
