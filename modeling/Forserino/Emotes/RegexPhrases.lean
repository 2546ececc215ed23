import Forserino.Emotes.IgnoredEmotes

/-! Replacing the matches of a regular expression, compared with QString::replace.

QString::replace takes all matches from the content as it is. The loop searches again behind
each replacement, from the length of the template on instead of that of the new text, and in
a text that it has rewritten.
-/

set_option autoImplicit false

namespace Forserino.Emotes

open Forserino.Qt Forserino.Foundation

/-! ## QString::replace -/

/-- Each match begins at or behind the end of the one before it, and the last one ends inside. -/
def Ordered (size : Nat) : Nat → List RegexMatch → Prop
  | lastEnd, [] => lastEnd ≤ size
  | lastEnd, found :: more =>
      lastEnd ≤ found.capturedStart ∧ Ordered size (found.capturedStart + found.capturedLength) more

/-- What QRegularExpression::globalMatch gives for a content. -/
structure GlobalMatch (content : QString) where
  found : List RegexMatch
  ordered : Ordered content.length 0 found

theorem Ordered.le {size lastEnd : Nat} {found : List RegexMatch} (ordered : Ordered size lastEnd found) : lastEnd ≤ size := by
  induction found generalizing lastEnd with
  | nil => exact ordered
  | cons first more ih => exact ordered.1.trans ((Nat.le_add_right _ _).trans (ih ordered.2))

section
variable {EmotePtr : Type} (rules : TextRules) (phrase : IgnorePhrase EmotePtr) (content : QString)

/-- The template with the captures of the match in it. -/
def expansion (found : RegexMatch) : QString := (regexReplacement rules phrase content found).replacement

def replacedFrom : Nat → List RegexMatch → QString
  | lastEnd, [] => content.mid lastEnd
  | lastEnd, found :: more =>
      content.midN lastEnd (found.capturedStart - lastEnd) ++ expansion rules phrase content found ++
        replacedFrom (found.capturedStart + found.capturedLength) more

/-- QString::replace of a regular expression by a template. -/
def regexReplace (all : GlobalMatch content) : QString := replacedFrom rules phrase content 0 all.found

/-! ## Replacing each match once -/

/-- The edits that replace each match at its place in the text so far: front stands for the
content up to lastEnd. -/
def onceEdits : QString → Nat → List RegexMatch → List (Edit EmotePtr)
  | _, _, [] => []
  | front, lastEnd, found :: more =>
      let before := front ++ content.midN lastEnd (found.capturedStart - lastEnd)
      .replace ⟨phrase, before.length, found.capturedLength, expansion rules phrase content found⟩ ::
        onceEdits (before ++ expansion rules phrase content found) (found.capturedStart + found.capturedLength) more

/-- The content is rewritten as QString::replace does it, match by match: each one is replaced
once with its own captures, and nothing else is. -/
structure ReplacesOnce (text : EmoteText EmotePtr) (all : GlobalMatch text.content) : Prop where
  once : edits rules [phrase] text = onceEdits rules phrase text.content [] 0 all.found
  content : (processIgnorePhrases rules [phrase] text).content = regexReplace rules phrase text.content all

/-- Every search finds the next match: from the place where the loop resumes, and in the text in
which the matches before it are replaced. The last one finds nothing. -/
def Resumes : Nat → QString → Nat → List RegexMatch → Prop
  | start, front, lastEnd, [] =>
      rules.indexOfRegex phrase.pattern phrase.isCaseSensitive (front ++ content.mid lastEnd) start = none
  | start, front, lastEnd, found :: more =>
      let before := front ++ content.midN lastEnd (found.capturedStart - lastEnd)
      (∃ hit, rules.indexOfRegex phrase.pattern phrase.isCaseSensitive (front ++ content.mid lastEnd) start = some hit ∧
        hit.capturedStart = before.length ∧ hit.capturedLength = found.capturedLength ∧
        expansion rules phrase (front ++ content.mid lastEnd) hit = expansion rules phrase content found) ∧
      Resumes (before.length + phrase.replace.length) (before ++ expansion rules phrase content found)
        (found.capturedStart + found.capturedLength) more

variable {rules phrase content}

/-- The text behind one replacement, when the part before the match is done. -/
theorem content_once {text : EmoteText EmotePtr} {front replacement : QString} {lastEnd start length : Nat}
    (shape : text.content = front ++ content.mid lastEnd) (behind : lastEnd ≤ start) :
    (replaceMessageAt rules text ⟨phrase, (front ++ content.midN lastEnd (start - lastEnd)).length, length, replacement⟩).content =
      (front ++ content.midN lastEnd (start - lastEnd) ++ replacement) ++ content.mid (start + length) := by
  have cut : content.mid lastEnd = content.midN lastEnd (start - lastEnd) ++ content.mid start := by
    have later : (content.drop lastEnd).drop (start - lastEnd) = content.mid start := by
      rw [List.drop_drop, Nat.add_sub_cancel' behind, QString.mid]
    rw [QString.mid, QString.midN, ← later, List.take_append_drop]
  rw [replaceMessageAt_content, shape, cut, ← List.append_assoc, splice_append, QString.mid, QString.mid,
    List.drop_drop, List.append_assoc _ replacement]

theorem replace_inj {edit other : Replacement EmotePtr} :
    Edit.replace edit = Edit.replace other ↔ edit = other := by
  constructor
  · intro same
    exact Edit.replace.inj same
  · rintro rfl
    rfl

/-- The loop makes the edits of QString::replace if and only if every search finds the next match;
then it stops by itself with the text of QString::replace. -/
theorem regexEdits_iff {text : EmoteText EmotePtr} {front : QString} {start lastEnd turns : Nat} {found : List RegexMatch}
    (shape : text.content = front ++ content.mid lastEnd) (ordered : Ordered content.length lastEnd found)
    (enough : found.length < turns) :
    (regexEdits rules phrase turns start text = onceEdits rules phrase content front lastEnd found ↔
      Resumes rules phrase content start front lastEnd found) ∧
    (Resumes rules phrase content start front lastEnd found →
      (regexLoop rules phrase turns start text).2 = false ∧
        (regexLoop rules phrase turns start text).1.content = front ++ replacedFrom rules phrase content lastEnd found) := by
  induction found generalizing text front start lastEnd turns with
  | nil =>
    obtain ⟨turns, rfl⟩ : ∃ fewer, turns = fewer + 1 := ⟨turns - 1, by omega⟩
    rw [regexEdits, regexLoop, onceEdits, Resumes, shape]
    cases search : rules.indexOfRegex phrase.pattern phrase.isCaseSensitive (front ++ content.mid lastEnd) start with
    | none => exact ⟨iff_of_true rfl rfl, fun _ => ⟨rfl, shape⟩⟩
    | some hit =>
      have goesOn : some hit ≠ none := Option.some_ne_none hit
      exact ⟨iff_of_false (List.cons_ne_nil _ _) goesOn, fun stops => absurd stops goesOn⟩
  | cons next more ih =>
    obtain ⟨turns, rfl⟩ : ∃ fewer, turns = fewer + 1 := ⟨turns - 1, by rw [List.length_cons] at enough; omega⟩
    rw [regexEdits, regexLoop, onceEdits, Resumes, replacedFrom, shape]
    cases search : rules.indexOfRegex phrase.pattern phrase.isCaseSensitive (front ++ content.mid lastEnd) start with
    | none => simp
    | some hit =>
      simp only [List.cons.injEq, replace_inj, Option.some.injEq, exists_eq_left']
      have sameEdit : regexReplacement rules phrase (front ++ content.mid lastEnd) hit =
            ⟨phrase, (front ++ content.midN lastEnd (next.capturedStart - lastEnd)).length, next.capturedLength,
              expansion rules phrase content next⟩ ↔
          hit.capturedStart = (front ++ content.midN lastEnd (next.capturedStart - lastEnd)).length ∧
            hit.capturedLength = next.capturedLength ∧
            expansion rules phrase (front ++ content.mid lastEnd) hit = expansion rules phrase content next := by
        rw [expansion, regexReplacement, Replacement.mk.injEq]
        exact ⟨fun same => same.2, fun same => ⟨rfl, same⟩⟩
      rw [sameEdit]
      -- the rest is compared only where the first edit is the right one
      have rest : ∀ same : (hit.capturedStart = (front ++ content.midN lastEnd (next.capturedStart - lastEnd)).length ∧
            hit.capturedLength = next.capturedLength ∧
            expansion rules phrase (front ++ content.mid lastEnd) hit = expansion rules phrase content next), _ :=
        fun same => @ih (replaceMessageAt rules text (regexReplacement rules phrase (front ++ content.mid lastEnd) hit))
          (front ++ content.midN lastEnd (next.capturedStart - lastEnd) ++ expansion rules phrase content next)
          (hit.capturedStart + phrase.replace.length) (next.capturedStart + next.capturedLength) turns
          (by rw [sameEdit.mpr same]; exact content_once shape ordered.1) ordered.2
          (by rw [List.length_cons] at enough; omega)
      constructor
      · constructor
        · rintro ⟨same, later⟩
          have resumed := (rest same).1.mp later
          rw [same.1] at resumed
          exact ⟨same, resumed⟩
        · rintro ⟨same, later⟩
          rw [← same.1] at later
          exact ⟨same, (rest same).1.mpr later⟩
      · rintro ⟨same, later⟩
        rw [← same.1] at later
        obtain ⟨ended, reached⟩ := (rest same).2 later
        refine ⟨ended, ?_⟩
        rw [reached]
        simp only [List.append_assoc]

theorem edits_regex (regex : phrase.isRegex = true) (replaces : phrase.isBlock = false) (nonempty : phrase.pattern ≠ [])
    (valid : rules.isValid phrase.pattern = true) (text : EmoteText EmotePtr) :
    edits rules [phrase] text = regexEdits rules phrase 128 0 text := by
  rw [edits, if_neg (by simp [replaces, nonempty]), if_pos regex, if_pos valid]
  split
  · exact List.append_nil _
  · rw [edits, List.append_nil]

theorem processIgnorePhrases_regex (regex : phrase.isRegex = true) (replaces : phrase.isBlock = false)
    (nonempty : phrase.pattern ≠ []) (valid : rules.isValid phrase.pattern = true) (text : EmoteText EmotePtr) :
    processIgnorePhrases rules [phrase] text = (regexLoop rules phrase 128 0 text).1 := by
  rw [processIgnorePhrases, if_neg (by simp [replaces, nonempty]), if_pos regex, if_pos valid]
  split
  · next ended => rw [ended]
  · next ended => rw [ended, processIgnorePhrases]

variable (rules) in
/-- With fewer matches than a phrase may replace, the content becomes what QString::replace makes
of it if and only if every search of the loop finds the next match. -/
theorem replacesOnce_iff (phrase : IgnorePhrase EmotePtr) (regex : phrase.isRegex = true)
    (replaces : phrase.isBlock = false) (nonempty : phrase.pattern ≠ []) (valid : rules.isValid phrase.pattern = true)
    (text : EmoteText EmotePtr) (all : GlobalMatch text.content) (few : all.found.length < 128) :
    ReplacesOnce rules phrase text all ↔ Resumes rules phrase text.content 0 [] 0 all.found := by
  have followed := @regexEdits_iff _ rules phrase text.content text [] 0 0 128 all.found rfl all.ordered few
  constructor
  · intro same
    have once := same.once
    rw [edits_regex regex replaces nonempty valid] at once
    exact followed.1.mp once
  · intro resumes
    constructor
    case once =>
      rw [edits_regex regex replaces nonempty valid]
      exact followed.1.mpr resumes
    case content =>
      rw [processIgnorePhrases_regex regex replaces nonempty valid, (followed.2 resumes).2]
      rfl

/-! ## Templates as long as what they become

Where the template has the length of every expansion, the loop resumes at the right place. A
regular expression that looks only at what lies behind the start then finds every match. -/

/-- The match when what lies before it has another length. -/
def RegexMatch.moved (found : RegexMatch) (before after : Nat) : RegexMatch where
  capturedStart := found.capturedStart - before + after
  capturedLength := found.capturedLength
  captured n := (found.captured n).map fun group => (group.1 - before + after, group.2)

/-- Without look-behind, what lies before the start makes no difference. -/
structure LooksAhead (search : QString → Nat → Option RegexMatch) : Prop where
  moved : ∀ front other rest, search (other ++ rest) other.length =
    (search (front ++ rest) front.length).map fun found => found.moved front.length other.length
  behind : ∀ content start found, search content start = some found →
    start ≤ found.capturedStart ∧ ∀ n group, found.captured n = some group → start ≤ group.1

/-- The matches of a content, each of them found from the end of the one before it. -/
def Searched (search : QString → Nat → Option RegexMatch) (content : QString) : Nat → List RegexMatch → Prop
  | lastEnd, [] => search content lastEnd = none
  | lastEnd, found :: more =>
      search content lastEnd = some found ∧ Searched search content (found.capturedStart + found.capturedLength) more

theorem capturedText_moved {found : RegexMatch} {front content : QString} {start : Nat}
    (behind : ∀ n group, found.captured n = some group → start ≤ group.1) (n : Nat) :
    capturedText (front ++ content.mid start) (found.moved start front.length) n = capturedText content found n := by
  cases group : found.captured n with
  | none => simp only [capturedText, RegexMatch.moved, group, Option.map_none]
  | some place =>
    have reached := behind n place group
    have position : place.1 - start + front.length = front.length + (place.1 - start) := Nat.add_comm _ _
    simp only [capturedText, RegexMatch.moved, group, Option.map_some, QString.midN, QString.mid, position]
    rw [← List.drop_drop, List.drop_left, List.drop_drop, Nat.add_sub_cancel' reached]

theorem chunks_moved {found : RegexMatch} {front content : QString} {start : Nat}
    (behind : ∀ n group, found.captured n = some group → start ≤ group.1) (replacement : QString) (lastEnd : Nat)
    (references : List QStringCapture) :
    chunks (front ++ content.mid start) (found.moved start front.length) replacement lastEnd references =
      chunks content found replacement lastEnd references := by
  induction references generalizing lastEnd with
  | nil => rfl
  | cons reference references ih => rw [chunks, chunks, capturedText_moved behind, ih]

theorem resumes_of_sameLength {search : QString → Nat → Option RegexMatch}
    (engine : rules.indexOfRegex phrase.pattern phrase.isCaseSensitive = search) (ahead : LooksAhead search)
    {front : QString} {lastEnd : Nat} {found : List RegexMatch} (searched : Searched search content lastEnd found)
    (ordered : Ordered content.length lastEnd found)
    (sameLength : ∀ next ∈ found, (expansion rules phrase content next).length = phrase.replace.length) :
    Resumes rules phrase content front.length front lastEnd found := by
  induction found generalizing front lastEnd with
  | nil =>
    have whole : content.take lastEnd ++ content.mid lastEnd = content := List.take_append_drop _ _
    have length : (content.take lastEnd).length = lastEnd := List.length_take_of_le ordered
    have moved := ahead.moved (content.take lastEnd) front (content.mid lastEnd)
    rw [whole, length, searched] at moved
    rw [Resumes, engine]
    exact moved
  | cons next more ih =>
    rw [List.forall_mem_cons] at sameLength
    have length : (content.take lastEnd).length = lastEnd := List.length_take_of_le ordered.le
    have moved := ahead.moved (content.take lastEnd) front (content.mid lastEnd)
    have whole : content.take lastEnd ++ content.mid lastEnd = content := List.take_append_drop _ _
    rw [whole, length, searched.1, Option.map_some] at moved
    have place : (front ++ content.midN lastEnd (next.capturedStart - lastEnd)).length =
        next.capturedStart - lastEnd + front.length := by
      rw [List.length_append, QString.midN, List.length_take, List.length_drop]
      have start := ordered.1
      have stop := ordered.2.le
      omega
    have groups := (ahead.behind content lastEnd next searched.1).2
    refine ⟨⟨next.moved lastEnd front.length, by rw [engine]; exact moved, place.symm, rfl, ?_⟩, ?_⟩
    · -- the captures are read behind the start, where both texts agree
      rw [expansion, expansion, regexReplacement, regexReplacement]
      simp only [makeRegexReplacement, chunks_moved groups]
    · have resumed := @ih (front ++ content.midN lastEnd (next.capturedStart - lastEnd) ++
        expansion rules phrase content next) _ searched.2 ordered.2 sameLength.2
      rw [List.length_append, sameLength.1] at resumed
      exact resumed

end

/-! ## A template that is longer than what it becomes -/

/-- The expression (a). -/
def findA (content : QString) (start : Nat) : Option RegexMatch :=
  ((List.range' start (content.length - start)).find? fun i => content[i]? = some (u 'a')).map fun i =>
    ⟨i, 1, fun n => if n ≤ 1 then some (i, 1) else none⟩

def aRules : TextRules where
  sameIgnoringCase s t := s == t
  digitValue c := if isDigit c then some (digitValue c) else none
  isValid _ := true
  captureCount _ := 1
  indexOfRegex _ _ := findA
  findWord _ _ := none

def aPhrase (template : String) : IgnorePhrase Nat := ⟨qs "(a)", true, false, qs template, true, []⟩

/-- The matches of (a) in aa. -/
def twoMatches : GlobalMatch (qs "aa") where
  found := [⟨0, 1, fun n => if n ≤ 1 then some (0, 1) else none⟩, ⟨1, 1, fun n => if n ≤ 1 then some (1, 1) else none⟩]
  ordered := by simp [Ordered, qs]

theorem replacesOnce_ba : ReplacesOnce aRules (aPhrase "ba") ⟨qs "aa", []⟩ twoMatches ↔
    Resumes aRules (aPhrase "ba") (qs "aa") 0 [] 0 twoMatches.found :=
  replacesOnce_iff aRules (aPhrase "ba") rfl rfl (by decide) rfl ⟨qs "aa", []⟩ twoMatches (by decide)

example : (processIgnorePhrases aRules [aPhrase "ba"] ⟨qs "aa", []⟩).content = qs "baba" := by decide

/-- The loop goes on three units behind the first match, where the text has only two more. -/
theorem processIgnorePhrases_overshoots :
    (findA (qs "aa") 0).isSome = true ∧ (findA (qs "aa") 1).isSome = true ∧ findA (qs "aa") 2 = none ∧
    (processIgnorePhrases aRules [aPhrase "\\1b"] ⟨qs "aa", []⟩).content = qs "aba" ∧
    regexReplace aRules (aPhrase "\\1b") (qs "aa") twoMatches = qs "abab" ∧
    ¬ ReplacesOnce aRules (aPhrase "\\1b") ⟨qs "aa", []⟩ twoMatches := by
  have looped : (processIgnorePhrases aRules [aPhrase "\\1b"] ⟨qs "aa", []⟩).content = qs "aba" := by decide
  have replaced : regexReplace aRules (aPhrase "\\1b") (qs "aa") twoMatches = qs "abab" := by decide
  refine ⟨by decide, by decide, by decide, looped, replaced, fun once => ?_⟩
  have same := once.content
  rw [looped, replaced] at same
  exact absurd same (by decide)

end Forserino.Emotes
