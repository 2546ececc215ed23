import Forserino.Emotes.IgnorePhrases
import Forserino.Foundation.Runs

/-! Where the emotes of a message are behind the ignored phrases.

A replacement leaves every emote in its place unless it starts inside of one, finds a removed
one again, or puts in one of its own: the first emote keeps its old end, and the others end one
unit too late. The loops are followed edit by edit, so that what holds behind each one can be said.
-/

set_option autoImplicit false

namespace Forserino.Emotes

open Forserino.Qt Forserino.Foundation

section
variable {EmotePtr : Type} {rules : TextRules} {text : EmoteText EmotePtr}

/-! ## Exact occurrences -/

def EmoteText.Exact (text : EmoteText EmotePtr) : Prop := ∀ emote ∈ text.twitchEmotes, emote.Exact text.content

theorem TwitchEmoteOccurrence.exact_iff {content : QString} {emote : TwitchEmoteOccurrence EmotePtr} :
    emote.Exact content ↔ ∃ first : Nat, emote.start = first ∧ emote.end_ + 1 = first + emote.name.length ∧
      emote.name ≠ [] ∧ emote.name <+: content.drop first := by
  constructor
  · rintro ⟨nonnegative, ordered, inside, spelled⟩
    have length : emote.name.length = emote.length := by
      rw [spelled, QString.midN, List.length_take, List.length_drop, TwitchEmoteOccurrence.length]
      omega
    rw [TwitchEmoteOccurrence.length] at length
    refine ⟨emote.start.toNat, by omega, by omega, ?_, ?_⟩
    · intro empty
      rw [empty, List.length_nil] at length
      omega
    · rw [spelled]
      exact List.take_prefix _ _
  · rintro ⟨first, start, stop, nonempty, spelled⟩
    have positive := List.length_pos_iff.mpr nonempty
    have inside := spelled.length_le
    rw [List.length_drop] at inside
    have length : emote.length = emote.name.length := by
      rw [TwitchEmoteOccurrence.length]
      omega
    refine ⟨by omega, by omega, by omega, ?_⟩
    rw [length, start, Int.toNat_natCast, QString.midN]
    exact List.prefix_iff_eq_take.mp spelled

/-! ## What an edit does to the occurrences -/

inductive Edit (EmotePtr : Type) where
  | replace (edit : Replacement EmotePtr)
  | giveUp

def Edit.step (rules : TextRules) (text : EmoteText EmotePtr) : Edit EmotePtr → Option (EmoteText EmotePtr)
  | .replace edit => some (replaceMessageAt rules text edit)
  | .giveUp => some (Emotes.giveUp text)

namespace Replacement

variable (edit : Replacement EmotePtr)

/-- Where the replaced part starts inside of an emote, the new text goes on with the rest of the name. -/
def Uncut (text : EmoteText EmotePtr) : Prop :=
  ∀ emote ∈ text.twitchEmotes, emote.start < edit.start →
    emote.name.drop (edit.start - emote.start).toNat <+: edit.replacement ++ text.content.drop (edit.start + edit.length)

/-- No removed emote is found again, save where the units from the start of the replaced part on
are the name at the place of the match, which is one unit shorter. -/
def Gone (rules : TextRules) (text : EmoteText EmotePtr) : Prop :=
  ∀ emote ∈ edit.removedEmotes text, emote.ptr.isSome →
    ∀ found ∈ rules.findWord emote.name (edit.midExtendedRef text),
      found.2 + 1 = found.1 + emote.name.length ∧ emote.name <+: (edit.content text).drop (edit.start + found.1)

/-- No word of the new text is an emote of the phrase. -/
def Plain (text : EmoteText EmotePtr) : Prop :=
  ∀ word ∈ (edit.midExtendedRef text).split (u ' '), ∀ emote ∈ edit.phrase.emotes, word ≠ emote.1

variable {edit}

theorem kept_exact_iff (exact : text.Exact) :
    (∀ emote ∈ edit.keptEmotes text, emote.Exact (edit.content text)) ↔ edit.Uncut text := by
  constructor
  · intro after emote member before
    have outside : (!inRange edit.start edit.length emote) = true := by
      simp only [inRange, Bool.not_eq_true', Bool.and_eq_false_iff, decide_eq_false_iff_not]
      omega
    have kept : emote ∈ edit.keptEmotes text :=
      List.mem_map.mpr ⟨emote, List.mem_filter.mpr ⟨member, outside⟩, if_neg (by omega)⟩
    obtain ⟨first, start, _, _, spelled⟩ := TwitchEmoteOccurrence.exact_iff.mp (exact emote member)
    obtain ⟨place, same, _, _, spelledAfter⟩ := TwitchEmoteOccurrence.exact_iff.mp (after emote kept)
    obtain rfl : place = first := by omega
    have into : (edit.start - emote.start).toNat = edit.start - place := by omega
    rw [into]
    exact (prefix_splice_iff spelled (by omega)).mp spelledAfter
  · intro uncut emote member
    obtain ⟨old, oldMember, rfl⟩ := List.mem_map.mp member
    obtain ⟨inText, outside⟩ := List.mem_filter.mp oldMember
    simp only [inRange, Bool.not_eq_true', Bool.and_eq_false_iff, decide_eq_false_iff_not] at outside
    obtain ⟨first, start, stop, nonempty, spelled⟩ := TwitchEmoteOccurrence.exact_iff.mp (exact old inText)
    have inside := spelled.length_le
    have positive := List.length_pos_iff.mpr nonempty
    rw [List.length_drop] at inside
    have placed : first < edit.start ∨ edit.start + edit.length ≤ first := by omega
    apply TwitchEmoteOccurrence.exact_iff.mpr
    rcases placed with before | behind
    · rw [shiftIndicesAfter, if_neg (by omega)]
      have rest := uncut old inText (by omega)
      have into : (edit.start - old.start).toNat = edit.start - first := by omega
      rw [into] at rest
      exact ⟨first, start, stop, nonempty, (prefix_splice_iff spelled (Nat.le_of_lt before)).mpr rest⟩
    · rw [shiftIndicesAfter, if_pos (by omega)]
      refine ⟨first - edit.length + edit.replacement.length, ?_, ?_, nonempty, ?_⟩
      · dsimp only
        omega
      · dsimp only
        omega
      · dsimp only
        rw [content, drop_splice behind (by omega)]
        exact spelled

theorem again_exact_iff (exact : text.Exact) :
    (∀ emote ∈ edit.emotesAgain rules text, emote.Exact (edit.content text)) ↔ edit.Gone rules text := by
  constructor
  · intro after emote member pointer found again
    have put : foundAgain rules edit.start (edit.midExtendedRef text) emote =
        some { emote with start := (edit.start + found.1 : Nat), end_ := (edit.start + found.2 : Nat) } := by
      rw [foundAgain, if_neg (by simpa [Option.isSome_iff_ne_none] using pointer), Option.mem_def.mp again]
    obtain ⟨first, start, stop, _, spelled⟩ :=
      TwitchEmoteOccurrence.exact_iff.mp (after _ (List.mem_filterMap.mpr ⟨emote, member, put⟩))
    dsimp only at start stop spelled
    obtain rfl : first = edit.start + found.1 := by omega
    exact ⟨by omega, spelled⟩
  · intro gone emote member
    obtain ⟨old, removed, put⟩ := List.mem_filterMap.mp member
    obtain ⟨_, _, _, nonempty, _⟩ := TwitchEmoteOccurrence.exact_iff.mp (exact old (List.mem_of_mem_filter removed))
    unfold foundAgain at put
    split at put
    · cases put
    · next pointer =>
      split at put
      · next capturedStart capturedEnd again =>
        obtain rfl := Option.some.inj put
        obtain ⟨length, spelled⟩ := gone old removed (by simpa [Option.isSome_iff_ne_none] using pointer) _ again
        apply TwitchEmoteOccurrence.exact_iff.mpr
        refine ⟨edit.start + capturedStart, rfl, ?_, nonempty, spelled⟩
        dsimp only at length ⊢
        omega
      · cases put

end Replacement

theorem replEmotes_late {emotes : List (QString × Option EmotePtr)} {startIndex pos : Nat} {words : List QString}
    {emote : TwitchEmoteOccurrence (Option EmotePtr)} (member : emote ∈ replEmotes emotes startIndex pos words) :
    emote.end_ = emote.start + emote.name.length := by
  induction words generalizing pos with
  | nil => cases member
  | cons word words ih =>
    rcases List.mem_append.mp member with here | behind
    · obtain ⟨found, _, rfl⟩ := List.mem_map.mp here
      exact Int.natCast_add _ _
    · exact ih behind

theorem replEmotes_eq_nil_iff {emotes : List (QString × Option EmotePtr)} {startIndex pos : Nat} {words : List QString} :
    replEmotes emotes startIndex pos words = [] ↔ ∀ word ∈ words, ∀ emote ∈ emotes, word ≠ emote.1 := by
  induction words generalizing pos with
  | nil => exact iff_of_true rfl (fun _ member => nomatch member)
  | cons word words ih =>
    rw [replEmotes, List.append_eq_nil_iff, ih, List.map_eq_nil_iff, List.filter_eq_nil_iff, List.forall_mem_cons]
    simp only [decide_eq_true_eq, ne_eq]

namespace Replacement

variable {edit : Replacement EmotePtr}

theorem addedEmotes_eq_nil_iff : edit.addedEmotes text = [] ↔ edit.Plain text := by
  unfold addedEmotes addReplEmotes Plain
  split
  · next none_ => exact iff_of_true rfl (fun _ _ emote member => nomatch none_ ▸ member)
  · exact replEmotes_eq_nil_iff

theorem added_exact_iff : (∀ emote ∈ edit.addedEmotes text, emote.Exact (edit.content text)) ↔ edit.Plain text := by
  rw [← addedEmotes_eq_nil_iff]
  constructor
  · intro exact
    apply List.eq_nil_iff_forall_not_mem.mpr
    intro emote member
    obtain ⟨first, start, stop, _, _⟩ := TwitchEmoteOccurrence.exact_iff.mp (exact emote member)
    have late : emote.end_ = emote.start + emote.name.length := by
      unfold addedEmotes addReplEmotes at member
      split at member
      · cases member
      · exact replEmotes_late member
    omega
  · intro none_ emote member
    rw [none_] at member
    cases member

end Replacement

/-- Under which condition an edit keeps the occurrences exact. When a phrase is given up, the
notice would have to spell the emotes. -/
def Edit.Safe (rules : TextRules) (text : EmoteText EmotePtr) : Edit EmotePtr → Prop
  | .replace edit => edit.Uncut text ∧ edit.Gone rules text ∧ edit.Plain text
  | .giveUp => ∀ emote ∈ text.twitchEmotes, emote.name <+: tooManyReplacements.drop emote.start.toNat

theorem replaceMessageAt_exact_iff {edit : Replacement EmotePtr} (exact : text.Exact) :
    (replaceMessageAt rules text edit).Exact ↔ (Edit.replace edit).Safe rules text := by
  simp only [EmoteText.Exact, replaceMessageAt, List.forall_mem_append, Edit.Safe, Replacement.kept_exact_iff exact,
    Replacement.again_exact_iff exact, Replacement.added_exact_iff, and_assoc]

theorem giveUp_exact_iff (exact : text.Exact) : (giveUp text).Exact ↔ Edit.giveUp.Safe rules text := by
  apply forall₂_congr
  intro emote member
  obtain ⟨first, start, stop, nonempty, _⟩ := TwitchEmoteOccurrence.exact_iff.mp (exact emote member)
  have place : emote.start.toNat = first := by omega
  rw [TwitchEmoteOccurrence.exact_iff, place]
  constructor
  · rintro ⟨other, same, _, _, spelled⟩
    obtain rfl : other = first := by omega
    exact spelled
  · intro spelled
    exact ⟨first, start, stop, nonempty, spelled⟩

theorem step_exact_iff {edit : Edit EmotePtr} {next : EmoteText EmotePtr} (exact : text.Exact)
    (taken : edit.step rules text = some next) : next.Exact ↔ edit.Safe rules text := by
  cases edit with
  | replace edit =>
    obtain rfl := Option.some.inj taken
    exact replaceMessageAt_exact_iff exact
  | giveUp =>
    obtain rfl := Option.some.inj taken
    exact giveUp_exact_iff exact

/-! ## The edits of a message -/

variable (rules)

def plainEdits (phrase : IgnorePhrase EmotePtr) : Nat → Nat → EmoteText EmotePtr → List (Edit EmotePtr)
  | 0, _, _ => []
  | turns + 1, start, text => match indexOf rules phrase text.content start with
    | none => []
    | some place =>
        .replace (plainReplacement phrase place) :: plainEdits phrase turns (place + phrase.replace.length)
          (replaceMessageAt rules text (plainReplacement phrase place))

def regexEdits (phrase : IgnorePhrase EmotePtr) : Nat → Nat → EmoteText EmotePtr → List (Edit EmotePtr)
  | 0, _, _ => [.giveUp]
  | turns + 1, start, text =>
      match rules.indexOfRegex phrase.pattern phrase.isCaseSensitive text.content start with
      | none => []
      | some found =>
          .replace (regexReplacement rules phrase text.content found) ::
            regexEdits phrase turns (found.capturedStart + phrase.replace.length)
              (replaceMessageAt rules text (regexReplacement rules phrase text.content found))

/-- The edits that processIgnorePhrases makes, in order. -/
def edits : List (IgnorePhrase EmotePtr) → EmoteText EmotePtr → List (Edit EmotePtr)
  | [], _ => []
  | phrase :: phrases, text =>
      if phrase.isBlock ∨ phrase.pattern = [] then edits phrases text
      else if phrase.isRegex then
        if rules.isValid phrase.pattern then
          regexEdits rules phrase 128 0 text ++ match regexLoop rules phrase 128 0 text with
            | (_, true) => []
            | (text, false) => edits phrases text
        else edits phrases text
      else
        plainEdits rules phrase (text.content.length + 1) 0 text ++
          edits phrases (plainLoop rules phrase (text.content.length + 1) 0 text)

theorem run_plainEdits (phrase : IgnorePhrase EmotePtr) (turns start : Nat) (text : EmoteText EmotePtr) :
    run (Edit.step rules) text (plainEdits rules phrase turns start text) =
      some (plainLoop rules phrase turns start text) := by
  induction turns generalizing start text with
  | zero => rfl
  | succ turns ih =>
    rw [plainEdits, plainLoop]
    cases indexOf rules phrase text.content start with
    | none => rfl
    | some place => exact ih _ _

theorem run_regexEdits (phrase : IgnorePhrase EmotePtr) (turns start : Nat) (text : EmoteText EmotePtr) :
    run (Edit.step rules) text (regexEdits rules phrase turns start text) =
      some (regexLoop rules phrase turns start text).1 := by
  induction turns generalizing start text with
  | zero => rfl
  | succ turns ih =>
    rw [regexEdits, regexLoop]
    cases rules.indexOfRegex phrase.pattern phrase.isCaseSensitive text.content start with
    | none => rfl
    | some found => exact ih _ _

theorem run_edits (phrases : List (IgnorePhrase EmotePtr)) (text : EmoteText EmotePtr) :
    run (Edit.step rules) text (edits rules phrases text) = some (processIgnorePhrases rules phrases text) := by
  induction phrases generalizing text with
  | nil => rfl
  | cons phrase phrases ih =>
    rw [edits, processIgnorePhrases]
    split
    · exact ih text
    · split
      · split
        · rw [run_concat, run_regexEdits]
          split
          · next ended => rw [ended]; rfl
          · next ended => rw [ended]; exact ih _
        · exact ih text
      · rw [run_concat, run_plainEdits]
        exact ih _

variable {rules}

theorem processIgnorePhrases_exact (phrases : List (IgnorePhrase EmotePtr)) (exact : text.Exact) :
    (Along (Edit.step rules) (fun text edit => edit.Safe rules text) text (edits rules phrases text) →
      (processIgnorePhrases rules phrases text).Exact) ∧
    (Along (Edit.step rules) (fun text edit => edit.Safe rules text) text (edits rules phrases text) ↔
      ∀ before, before <+: edits rules phrases text → ∀ state, run (Edit.step rules) text before = some state →
        state.Exact) := by
  have ran := run_edits rules phrases text
  constructor
  · intro along
    exact run_invariant (fun _ _ _ exact safe taken => (step_exact_iff exact taken).mpr safe) along ran exact
  · exact along_iff (fun _ _ _ exact safe taken => (step_exact_iff exact taken).mpr safe)
      (fun _ _ _ exact refused taken after => refused ((step_exact_iff exact taken).mp after))
      (fun _ exact => exact) ran exact

/-! ## Emotes that are moved, cut, found again and added -/

instance (content : QString) (emote : TwitchEmoteOccurrence EmotePtr) : Decidable (emote.Exact content) :=
  decidable_of_iff (0 ≤ emote.start ∧ emote.start ≤ emote.end_ ∧ emote.end_ < content.length ∧
      emote.name = content.midN emote.start.toNat emote.length)
    ⟨fun ⟨nonnegative, ordered, inside, spelled⟩ => ⟨nonnegative, ordered, inside, spelled⟩,
      fun ⟨nonnegative, ordered, inside, spelled⟩ => ⟨nonnegative, ordered, inside, spelled⟩⟩

instance : Decidable text.Exact := inferInstanceAs (Decidable (∀ emote ∈ text.twitchEmotes, emote.Exact text.content))

instance (edit : Replacement EmotePtr) : Decidable (edit.Uncut text) :=
  inferInstanceAs (Decidable (∀ emote ∈ text.twitchEmotes, _ → _))

instance (edit : Replacement EmotePtr) : Decidable (edit.Gone rules text) :=
  inferInstanceAs (Decidable (∀ emote ∈ edit.removedEmotes text, _ → ∀ found ∈ rules.findWord _ _, _))

instance (edit : Replacement EmotePtr) : Decidable (edit.Plain text) :=
  inferInstanceAs (Decidable (∀ word ∈ (edit.midExtendedRef text).split (u ' '), ∀ emote ∈ edit.phrase.emotes, _))

instance (edit : Edit EmotePtr) : Decidable (edit.Safe rules text) :=
  match edit with
  | .replace _ => inferInstanceAs (Decidable (_ ∧ _ ∧ _))
  | .giveUp => inferInstanceAs (Decidable (∀ emote ∈ text.twitchEmotes, _))

def isWordUnit (c : QChar) : Bool :=
  isDigit c || (u 'A' ≤ c && c ≤ u 'Z') || (u 'a' ≤ c && c ≤ u 'z') || c = u '_'

def wordBoundary (text : QString) (i : Nat) : Bool :=
  (0 < i && (text[i - 1]?).any isWordUnit) != (text[i]?).any isWordUnit

/-- The first match of a name that has word characters only. -/
def findPlainWord (name text : QString) : Option (Nat × Nat) :=
  ((List.range (text.length + 1)).find? fun i =>
    text.midN i name.length = name && wordBoundary text i && wordBoundary text (i + name.length)).map fun i =>
      (i, i + name.length)

/-- The expression f(o+)1 on the content foo1 Kappa and on what replaces it. -/
def fooRules : TextRules where
  sameIgnoringCase a b := a = b
  digitValue c := if isDigit c then some (digitValue c) else none
  isValid _ := true
  captureCount _ := 1
  indexOfRegex _ _ content start :=
    if content = qs "foo1 Kappa" ∧ start = 0 then some ⟨0, 4, fun n => if n = 1 then some (1, 2) else none⟩ else none
  findWord := findPlainWord

def kappa (start end_ : Int) : TwitchEmoteOccurrence (Option Nat) := ⟨start, end_, some 0, qs "Kappa"⟩

def replaces (pattern replace : String) (emotes : List (QString × Option Nat)) : IgnorePhrase Nat :=
  ⟨qs pattern, false, false, qs replace, true, emotes⟩

/-- An emote that is cut keeps its range, one that is found again and one that is added end one
unit behind the message. -/
theorem emotes_displaced :
    (⟨qs "Kappa", [kappa 0 4]⟩ : EmoteText Nat).Exact ∧
    (processIgnorePhrases fooRules [replaces "ppa" "xyz" []] ⟨qs "Kappa", [kappa 0 4]⟩ = ⟨qs "Kaxyz", [kappa 0 4]⟩ ∧
      ¬ (⟨qs "Kaxyz", [kappa 0 4]⟩ : EmoteText Nat).Exact) ∧
    (processIgnorePhrases fooRules [replaces "Kappa" "my Kappa" []] ⟨qs "Kappa", [kappa 0 4]⟩ =
        ⟨qs "my Kappa", [kappa 3 8]⟩ ∧
      ¬ (⟨qs "my Kappa", [kappa 3 8]⟩ : EmoteText Nat).Exact) ∧
    (processIgnorePhrases fooRules [replaces "hi" "Kappa" [(qs "Kappa", some 0)]] ⟨qs "hi", []⟩ =
        ⟨qs "Kappa", [kappa 0 5]⟩ ∧
      ¬ (⟨qs "Kappa", [kappa 0 5]⟩ : EmoteText Nat).Exact) := by
  decide

def fooPhrase : IgnorePhrase Nat := ⟨qs "f(o+)1", true, false, qs "baz1[\\1]", true, []⟩

theorem processIgnorePhrases_exact_foo :
    (processIgnorePhrases fooRules [fooPhrase] ⟨qs "foo1 Kappa", [kappa 5 9]⟩).Exact :=
  (processIgnorePhrases_exact [fooPhrase] (by decide)).1 (by decide)

example : processIgnorePhrases fooRules [fooPhrase] ⟨qs "foo1 Kappa", [kappa 5 9]⟩ =
    ⟨qs "baz1[oo] Kappa", [kappa 9 13]⟩ := by
  decide

end

end Forserino.Emotes
