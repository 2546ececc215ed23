import Forserino.Emotes.IgnorePhrases
import Forserino.Foundation.Scan
import Forserino.Qt.Variant

/-! Replacing the occurrences of a plain phrase.

The loop searches the text that it rewrites. It resumes behind the new text, so it never sees
what it put in and ends like one pass over the content from the left.
-/

set_option autoImplicit false

namespace Forserino.Emotes

open Forserino.Qt Forserino.Foundation

section
variable {EmotePtr : Type} (rules : TextRules) (phrase : IgnorePhrase EmotePtr)

/-- The loop to its end: the text when nothing is found any more. -/
inductive PlainRun : Nat → EmoteText EmotePtr → EmoteText EmotePtr → Prop where
  | done {start : Nat} {text : EmoteText EmotePtr} (ended : indexOf rules phrase text.content start = none) :
      PlainRun start text text
  | turn {start place : Nat} {text final : EmoteText EmotePtr}
      (found : indexOf rules phrase text.content start = some place)
      (later : PlainRun (place + phrase.replace.length) (replaceMessageAt rules text (plainReplacement phrase place)) final) :
      PlainRun start text final

/-- An occurrence of the pattern under the case sensitivity of the phrase. -/
def IsOccurrence (piece : QString) : Prop :=
  piece.length = phrase.pattern.length ∧
    (if phrase.isCaseSensitive then decide (piece = phrase.pattern)
      else rules.sameIgnoringCase piece phrase.pattern) = true

variable {rules phrase}

/-! ## Searching from a place -/

theorem indexOf_here {done piece rest : QString} (found : IsOccurrence rules phrase piece) :
    indexOf rules phrase (done ++ (piece ++ rest)) done.length = some done.length := by
  have room : (done ++ (piece ++ rest)).length + 1 - phrase.pattern.length - done.length = rest.length + 1 := by
    have length := found.1
    rw [List.length_append, List.length_append]
    omega
  have taken : (done ++ (piece ++ rest)).midN done.length phrase.pattern.length = piece := by
    rw [QString.midN, List.drop_left, ← found.1, List.take_left]
  rw [indexOf, room, List.range'_succ]
  apply List.find?_cons_of_pos
  rw [taken]
  exact found.2

/-- Where no occurrence begins, the search goes on at the next unit. -/
theorem indexOf_skip {done rest : QString} {c : QChar}
    (none_ : ∀ piece, piece <+: c :: rest → ¬ IsOccurrence rules phrase piece) :
    indexOf rules phrase (done ++ c :: rest) done.length = indexOf rules phrase (done ++ c :: rest) (done.length + 1) := by
  rw [indexOf, indexOf]
  generalize size : (done ++ c :: rest).length + 1 - phrase.pattern.length = places
  rcases Nat.lt_or_ge done.length places with room | outside
  · have count : places - done.length = places - (done.length + 1) + 1 := by omega
    rw [count, List.range'_succ]
    apply List.find?_cons_of_neg
    intro same
    refine none_ _ (List.take_prefix phrase.pattern.length _) ⟨?_, ?_⟩
    · have length : (done ++ c :: rest).length = done.length + (c :: rest).length := List.length_append
      rw [List.length_take]
      omega
    · rw [QString.midN, List.drop_left] at same
      exact same
  · rw [Nat.sub_eq_zero_of_le outside, Nat.sub_eq_zero_of_le (Nat.le_succ_of_le outside)]
    rfl

theorem indexOf_end (nonempty : phrase.pattern ≠ []) (content : QString) :
    indexOf rules phrase content content.length = none := by
  have positive := List.length_pos_iff.mpr nonempty
  rw [indexOf, show content.length + 1 - phrase.pattern.length - content.length = 0 by omega]
  rfl

/-! ## The loop is one pass -/

/-- The loop from the end of what is done, followed along a pass over the rest: its turns are
enough, and behind them stands the outcome of the pass. -/
theorem plainLoop_scan (nonempty : phrase.pattern ≠ []) {rest out : QString}
    (scan : Scan (IsOccurrence rules phrase) (fun _ => phrase.replace) rest out) (done : QString)
    {text : EmoteText EmotePtr} (content : text.content = done ++ rest) {turns : Nat} (enough : rest.length < turns) :
    PlainRun rules phrase done.length text (plainLoop rules phrase turns done.length text) ∧
      (plainLoop rules phrase turns done.length text).content = done ++ out := by
  obtain ⟨turns, rfl⟩ : ∃ fewer, turns = fewer + 1 := ⟨turns - 1, by omega⟩
  induction scan generalizing done text turns with
  | nil =>
    have ended : indexOf rules phrase text.content done.length = none := by
      rw [content, List.append_nil]
      exact indexOf_end nonempty done
    rw [plainLoop, ended]
    exact ⟨.done ended, content⟩
  | @hit piece rest out found later ih =>
    have here : indexOf rules phrase text.content done.length = some done.length := by
      rw [content]
      exact indexOf_here found
    have length : piece.length = phrase.pattern.length := found.1
    have positive := List.length_pos_iff.mpr nonempty
    rw [List.length_append] at enough
    -- the next search begins behind the new text
    have next : (replaceMessageAt rules text (plainReplacement phrase done.length)).content =
        (done ++ phrase.replace) ++ rest := by
      rw [replaceMessageAt_content, plainReplacement, content]
      simp only
      rw [splice_append, ← length, List.drop_left, List.append_assoc]
    obtain ⟨turns, rfl⟩ : ∃ fewer, turns = fewer + 1 := ⟨turns - 1, by omega⟩
    obtain ⟨run, reached⟩ := ih (done ++ phrase.replace) next turns (by omega)
    rw [List.length_append] at run reached
    rw [plainLoop, here]
    exact ⟨.turn here run, by rw [reached, List.append_assoc]⟩
  | @skip c rest out none_ later ih =>
    have further : text.content = (done ++ [c]) ++ rest := by
      rw [content, List.append_assoc, List.singleton_append]
    have same : indexOf rules phrase text.content done.length = indexOf rules phrase text.content (done.length + 1) := by
      rw [content]
      exact indexOf_skip none_
    obtain ⟨run, reached⟩ := ih (done ++ [c]) further turns (by rw [List.length_cons] at enough; omega)
    rw [List.length_append, List.length_singleton] at run reached
    have sameLoop : plainLoop rules phrase (turns + 1) done.length text =
        plainLoop rules phrase (turns + 1) (done.length + 1) text := by
      rw [plainLoop, plainLoop, same]
    rw [sameLoop]
    refine ⟨?_, by rw [reached, List.append_assoc, List.singleton_append]⟩
    generalize plainLoop rules phrase (turns + 1) (done.length + 1) text = final at run
    cases run with
    | done ended => exact .done (same.trans ended)
    | turn found later => exact .turn (same.trans found) later

/-- A plain phrase is done with after finitely many turns, and what it leaves is the content
with every occurrence, taken from the left, replaced once. -/
theorem processIgnorePhrases_plain (phrase : IgnorePhrase EmotePtr) (plain : phrase.isRegex = false)
    (replaces : phrase.isBlock = false) (nonempty : phrase.pattern ≠ []) (phrases : List (IgnorePhrase EmotePtr))
    (text : EmoteText EmotePtr) :
    ∃ final, PlainRun rules phrase 0 text final ∧
      processIgnorePhrases rules (phrase :: phrases) text = processIgnorePhrases rules phrases final ∧
      ∀ out, Scan (IsOccurrence rules phrase) (fun _ => phrase.replace) text.content out ↔ out = final.content := by
  have follow : ∀ {out}, Scan (IsOccurrence rules phrase) (fun _ => phrase.replace) text.content out →
      PlainRun rules phrase 0 text (plainLoop rules phrase (text.content.length + 1) 0 text) ∧
        (plainLoop rules phrase (text.content.length + 1) 0 text).content = out :=
    fun scan => plainLoop_scan nonempty scan [] rfl (Nat.lt_succ_self _)
  have pieces : ∀ piece, IsOccurrence rules phrase piece → piece ≠ [] := by
    intro piece found
    apply List.ne_nil_of_length_pos
    rw [found.1]
    exact List.length_pos_iff.mpr nonempty
  obtain ⟨out, scan⟩ := Scan.exists_out (fun _ => phrase.replace) pieces text.content
  refine ⟨_, (follow scan).1, ?_, fun other => ⟨fun scan => (follow scan).2.symm, ?_⟩⟩
  · simp [processIgnorePhrases, plain, replaces, nonempty]
  · rintro rfl
    rw [(follow scan).2]
    exact scan

end

/-- Comparison of ASCII texts, and no regular expressions. -/
def plainRules : TextRules where
  sameIgnoringCase s t := asciiTables.caseFold s == asciiTables.caseFold t
  digitValue _ := none
  isValid _ := false
  captureCount _ := 0
  indexOfRegex _ _ _ _ := none
  findWord _ _ := none

/-- The replacement holds the pattern. -/
def growing : IgnorePhrase Nat := ⟨qs "aa", false, false, qs "aAa", false, []⟩

theorem processIgnorePhrases_plain_growing :
    ∃ final, PlainRun plainRules growing 0 ⟨qs "aaaaab", []⟩ final ∧
      processIgnorePhrases plainRules [growing] ⟨qs "aaaaab", []⟩ = processIgnorePhrases plainRules [] final ∧
      ∀ out, Scan (IsOccurrence plainRules growing) (fun _ => growing.replace) (qs "aaaaab") out ↔ out = final.content :=
  processIgnorePhrases_plain growing rfl rfl (by decide) [] ⟨qs "aaaaab", []⟩

end Forserino.Emotes
