import Forserino.Emotes.Occurrences
import Forserino.Foundation.Splice

/-! Rewriting a message by the ignored phrases that replace text.

What Qt does with a text is a parameter: the regular expressions, the comparison that
ignores case, and the value of a digit.
-/

set_option autoImplicit false

namespace Forserino.Emotes

open Forserino.Qt Forserino.Foundation

/-- captured has no value for a group that took no part in the match. -/
structure RegexMatch where
  capturedStart : Nat
  capturedLength : Nat
  captured : Nat → Option (Nat × Nat)

/-- findWord is the first match of a name between two word boundaries: its start and its end. -/
structure TextRules where
  sameIgnoringCase : QString → QString → Bool
  digitValue : QChar → Option Nat
  isValid : QString → Bool
  captureCount : QString → Nat
  indexOfRegex : (pattern : QString) → (isCaseSensitive : Bool) → (content : QString) → (start : Nat) → Option RegexMatch
  findWord : (name : QString) → (text : QString) → Option (Nat × Nat)

/-- emotes are those that containsEmote finds in the replacement. -/
structure IgnorePhrase (EmotePtr : Type) where
  pattern : QString
  isRegex : Bool
  isBlock : Bool
  replace : QString
  isCaseSensitive : Bool
  emotes : List (QString × Option EmotePtr)
  deriving DecidableEq

/-- What processIgnorePhrases rewrites. -/
structure EmoteText (EmotePtr : Type) where
  content : QString
  twitchEmotes : List (TwitchEmoteOccurrence (Option EmotePtr))
  deriving DecidableEq

section
variable {EmotePtr : Type} (rules : TextRules)

/-! ## The replacement of a match -/

structure QStringCapture where
  pos : Nat
  len : Nat
  captureNumber : Nat
  deriving DecidableEq, Repr

/-- The turn of the first loop at i. -/
def backReferenceAt (numCaptures : Nat) (replacement : QString) (i : Nat) : Option QStringCapture :=
  if replacement[i]? ≠ some (u '\\') then none
  else match (replacement[i + 1]?).bind rules.digitValue with
    | none => none
    | some no =>
        if no = 0 ∨ numCaptures < no then none
        else match (replacement[i + 2]?).bind rules.digitValue with
          | some secondDigit =>
              if no * 10 + secondDigit ≤ numCaptures then some ⟨i, 3, no * 10 + secondDigit⟩ else some ⟨i, 2, no⟩
          | none => some ⟨i, 2, no⟩

def backReferences (numCaptures : Nat) (replacement : QString) : List QStringCapture :=
  (List.range (replacement.length - 1)).filterMap (backReferenceAt rules numCaptures replacement)

def capturedText (source : QString) (found : RegexMatch) (captureNumber : Nat) : QString :=
  match found.captured captureNumber with
  | some (start, length) => source.midN start length
  | none => []

/-- The second loop; lastEnd is where the last reference ended. -/
def chunks (source : QString) (found : RegexMatch) (replacement : QString) : Nat → List QStringCapture → QString
  | lastEnd, [] => replacement.mid lastEnd
  | lastEnd, backReference :: more =>
      replacement.midN lastEnd (backReference.pos - lastEnd) ++
        capturedText source found backReference.captureNumber ++
        chunks source found replacement (backReference.pos + backReference.len) more

def makeRegexReplacement (source : QString) (pattern : QString) (found : RegexMatch) (replacement : QString) : QString :=
  chunks source found replacement 0 (backReferences rules (rules.captureCount pattern) replacement)

/-! ## One replacement -/

def inRange (pos len : Nat) (item : TwitchEmoteOccurrence (Option EmotePtr)) : Bool :=
  pos ≤ item.start && item.start < pos + len

def shiftIndicesAfter (pos : Nat) (by_ : Int) (item : TwitchEmoteOccurrence (Option EmotePtr)) :
    TwitchEmoteOccurrence (Option EmotePtr) :=
  if pos ≤ item.start then { item with start := item.start + by_, end_ := item.end_ + by_ } else item

/-- The loop over the words; pos is where the word starts in them. -/
def replEmotes (emotes : List (QString × Option EmotePtr)) (startIndex : Nat) :
    Nat → List QString → List (TwitchEmoteOccurrence (Option EmotePtr))
  | _, [] => []
  | pos, word :: words =>
      ((emotes.filter fun emote => word = emote.1).map fun emote =>
        ⟨(startIndex + pos : Nat), (startIndex + pos + emote.1.length : Nat), emote.2, emote.1⟩) ++
      replEmotes emotes startIndex (pos + word.length + 1) words

def addReplEmotes (phrase : IgnorePhrase EmotePtr) (midrepl : QString) (startIndex : Nat) :
    List (TwitchEmoteOccurrence (Option EmotePtr)) :=
  if phrase.emotes = [] then [] else replEmotes phrase.emotes startIndex 0 (midrepl.split (u ' '))

/-- A removed emote that the word still has. -/
def foundAgain (start : Nat) (midExtendedRef : QString) (emote : TwitchEmoteOccurrence (Option EmotePtr)) :
    Option (TwitchEmoteOccurrence (Option EmotePtr)) :=
  if emote.ptr.isNone then none
  else match rules.findWord emote.name midExtendedRef with
    | some (capturedStart, capturedEnd) =>
        some { emote with start := (start + capturedStart : Nat), end_ := (start + capturedEnd : Nat) }
    | none => none

/-- One call of replaceMessageAt. -/
structure Replacement (EmotePtr : Type) where
  phrase : IgnorePhrase EmotePtr
  start : Nat
  length : Nat
  replacement : QString
  deriving DecidableEq

namespace Replacement

variable (edit : Replacement EmotePtr) (text : EmoteText EmotePtr)

def content : QString := splice text.content edit.start edit.length edit.replacement

def wordStart : Nat :=
  edit.start - (((edit.content text).take edit.start).reverse.takeWhile (· ≠ u ' ')).length

def wordEnd : Nat :=
  edit.start + edit.replacement.length +
    (((edit.content text).drop (edit.start + edit.replacement.length)).takeWhile (· ≠ u ' ')).length

def midExtendedRef : QString :=
  (edit.content text).midN (edit.wordStart text) (edit.wordEnd text - edit.wordStart text)

/-- What removeEmotesInRange returns. -/
def removedEmotes : List (TwitchEmoteOccurrence (Option EmotePtr)) :=
  text.twitchEmotes.filter (inRange edit.start edit.length)

/-- What it leaves, shifted. std::partition may also change the order. -/
def keptEmotes : List (TwitchEmoteOccurrence (Option EmotePtr)) :=
  (text.twitchEmotes.filter fun item => !inRange edit.start edit.length item).map
    (shiftIndicesAfter (edit.start + edit.length) (edit.replacement.length - edit.length))

def emotesAgain : List (TwitchEmoteOccurrence (Option EmotePtr)) :=
  (edit.removedEmotes text).filterMap (foundAgain rules edit.start (edit.midExtendedRef text))

def addedEmotes : List (TwitchEmoteOccurrence (Option EmotePtr)) :=
  addReplEmotes edit.phrase (edit.midExtendedRef text) (edit.wordStart text)

end Replacement

def replaceMessageAt (text : EmoteText EmotePtr) (edit : Replacement EmotePtr) : EmoteText EmotePtr :=
  ⟨edit.content text, edit.keptEmotes text ++ edit.emotesAgain rules text ++ edit.addedEmotes text⟩

/-! ## The loops over the matches -/

/-- QString::indexOf of a text that is not empty. -/
def indexOf (phrase : IgnorePhrase EmotePtr) (content : QString) (start : Nat) : Option Nat :=
  (List.range' start (content.length + 1 - phrase.pattern.length - start)).find? fun place =>
    if phrase.isCaseSensitive then content.midN place phrase.pattern.length = phrase.pattern
    else rules.sameIgnoringCase (content.midN place phrase.pattern.length) phrase.pattern

def plainReplacement (phrase : IgnorePhrase EmotePtr) (place : Nat) : Replacement EmotePtr :=
  ⟨phrase, place, phrase.pattern.length, phrase.replace⟩

/-- Every turn leaves less behind the place where the next one searches, so as many turns as
the content has units are enough, and one more to find nothing. -/
def plainLoop (phrase : IgnorePhrase EmotePtr) : Nat → Nat → EmoteText EmotePtr → EmoteText EmotePtr
  | 0, _, text => text
  | turns + 1, start, text => match indexOf rules phrase text.content start with
    | none => text
    | some place =>
        plainLoop phrase turns (place + phrase.replace.length)
          (replaceMessageAt rules text (plainReplacement phrase place))

def tooManyReplacements : QString := qs "Too many replacements - check your ignores!"

/-- Only the content is replaced when a phrase is given up. -/
def giveUp (text : EmoteText EmotePtr) : EmoteText EmotePtr := { text with content := tooManyReplacements }

def regexReplacement (phrase : IgnorePhrase EmotePtr) (content : QString) (found : RegexMatch) :
    Replacement EmotePtr :=
  ⟨phrase, found.capturedStart, found.capturedLength,
    if 0 < rules.captureCount phrase.pattern then makeRegexReplacement rules content phrase.pattern found phrase.replace
    else phrase.replace⟩

/-- The text behind the loop, and whether the function returns there. The number of turns left
is counted down; none is left behind the last one that may replace. -/
def regexLoop (phrase : IgnorePhrase EmotePtr) : Nat → Nat → EmoteText EmotePtr → EmoteText EmotePtr × Bool
  | 0, _, text => (giveUp text, true)
  | turns + 1, start, text =>
      match rules.indexOfRegex phrase.pattern phrase.isCaseSensitive text.content start with
      | none => (text, false)
      | some found =>
          regexLoop phrase turns (found.capturedStart + phrase.replace.length)
            (replaceMessageAt rules text (regexReplacement rules phrase text.content found))

def processIgnorePhrases : List (IgnorePhrase EmotePtr) → EmoteText EmotePtr → EmoteText EmotePtr
  | [], text => text
  | phrase :: phrases, text =>
      if phrase.isBlock ∨ phrase.pattern = [] then processIgnorePhrases phrases text
      else if phrase.isRegex then
        if rules.isValid phrase.pattern then
          match regexLoop rules phrase 128 0 text with
          | (text, true) => text
          | (text, false) => processIgnorePhrases phrases text
        else processIgnorePhrases phrases text
      else processIgnorePhrases phrases (plainLoop rules phrase (text.content.length + 1) 0 text)

/-! ## Searching and replacing -/

variable {rules}

theorem replaceMessageAt_content (text : EmoteText EmotePtr) (edit : Replacement EmotePtr) :
    (replaceMessageAt rules text edit).content = splice text.content edit.start edit.length edit.replacement := rfl

theorem indexOf_inside {phrase : IgnorePhrase EmotePtr} {content : QString} {start place : Nat}
    (found : indexOf rules phrase content start = some place) :
    start ≤ place ∧ place + phrase.pattern.length ≤ content.length := by
  have member := List.mem_of_find?_eq_some found
  rw [List.mem_range'_1] at member
  omega

/-- Turns that are left over make no difference. -/
theorem plainLoop_enough {phrase : IgnorePhrase EmotePtr} (nonempty : phrase.pattern ≠ []) {turns start : Nat}
    {text : EmoteText EmotePtr} (enough : text.content.length - start < turns) (more : Nat) :
    plainLoop rules phrase (turns + more) start text = plainLoop rules phrase turns start text := by
  induction turns generalizing start text with
  | zero => exact absurd enough (Nat.not_lt_zero _)
  | succ turns ih =>
    rw [Nat.add_right_comm, plainLoop, plainLoop]
    cases found : indexOf rules phrase text.content start with
    | none => rfl
    | some place =>
      obtain ⟨behind, inside⟩ := indexOf_inside found
      have length : (splice text.content place phrase.pattern.length phrase.replace).length + phrase.pattern.length =
          text.content.length + phrase.replace.length := length_splice inside
      have positive := List.length_pos_iff.mpr nonempty
      apply ih
      simp only [replaceMessageAt, Replacement.content, plainReplacement]
      omega

theorem backReferences_none (replacement : QString) : backReferences rules 0 replacement = [] := by
  apply List.filterMap_eq_nil_iff.mpr
  intro i _
  rw [backReferenceAt]
  split
  · rfl
  · split
    · rfl
    · next no _ => exact if_pos (by omega)

/-- Without groups the replacement of a match is the text of the phrase. -/
theorem makeRegexReplacement_none {pattern : QString} (none_ : rules.captureCount pattern = 0) (source : QString)
    (found : RegexMatch) (replacement : QString) :
    makeRegexReplacement rules source pattern found replacement = replacement := by
  rw [makeRegexReplacement, none_, backReferences_none]
  rfl

end

end Forserino.Emotes
