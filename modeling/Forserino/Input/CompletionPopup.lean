import Forserino.Completion.Users
import Forserino.Input.SplitInput

/-! The popup that completes the emote or the user in front of the cursor, and the text that is put in
for it.
-/

set_option autoImplicit false

namespace Forserino.Input

open Qt Completion

/-- The text of the edit and its cursor, which stands between two of its units or at an end. -/
structure Edit where
  text : QString
  cursor : Nat
  inside : cursor ≤ text.length
  deriving DecidableEq, Repr

structure CompletionSettings where
  emoteCompletionWithColon : Bool
  showUsernameCompletionMenu : Bool
  mentions : MentionSettings
  deriving DecidableEq, Repr

inductive CompletionKind where
  | emote
  | user
  deriving DecidableEq, Repr

namespace Edit

/-- QChar::isSpace -/
def isSpaceBefore (text : QString) (i : Nat) : Bool :=
  i == 0 || (text[i - 1]?).any Filters.isWhitespace

/-- The loop of updateCompletionPopup over the units in front of i. -/
def findQuery (showEmoteCompletion showUsernameCompletion : Bool) (text : QString) (cursor : Nat) :
    Nat → Option (QString × CompletionKind)
  | 0 => none
  | i + 1 =>
      if text[i]? = some (u ' ') then none
      else if text[i]? = some (u ':') ∧ showEmoteCompletion then
        if isSpaceBefore text i then some (text.midN i (cursor - i), .emote) else none
      else if text[i]? = some (u '@') ∧ showUsernameCompletion then
        if isSpaceBefore text i then some (text.midN i (cursor - i), .user) else none
      else findQuery showEmoteCompletion showUsernameCompletion text cursor i

/-- The query and the kind for which the popup is shown. -/
def updateCompletionPopup (settings : CompletionSettings) (context : Context) (edit : Edit) :
    Option (QString × CompletionKind) :=
  let showEmoteCompletion := settings.emoteCompletionWithColon
  let showUsernameCompletion := context.isTwitchObject && settings.showUsernameCompletionMenu
  if !showEmoteCompletion && !showUsernameCompletion then none
  else if edit.text.length = 0 ∨ edit.cursor = 0 then none
  else
    findQuery showEmoteCompletion showUsernameCompletion edit.text edit.cursor
      (min (edit.cursor - 1) (edit.text.length - 1) + 1)

/-- ResizingTextEdit::isFirstWord -/
def isFirstWord (edit : Edit) : Bool := !(edit.text.take edit.cursor).contains (u ' ')

/-- The loop of insertCompletionText over the units in front of i. -/
def findMark (text : QString) : Nat → Option Nat
  | 0 => none
  | i + 1 => if text[i]? = some (u ':') ∨ text[i]? = some (u '@') then some i else findMark text i

variable (toLower : QString → QString)

/-- The text that is put in for the completion. -/
def completed (settings : CompletionSettings) (edit : Edit) (kind : CompletionKind) (input : QString) : QString :=
  match kind with
  | .emote => input ++ [u ' ']
  | .user =>
      [u '@'] ++ formatUserMention toLower input edit.isFirstWord settings.mentions.mentionUsersWithComma
        settings.mentions.lowercaseUsernames ++ [u ' ']

/-- What is taken out of the text and what is put in there. -/
structure Insertion where
  start : Nat
  count : Nat
  input : QString
  deriving DecidableEq, Repr

def insertion (settings : CompletionSettings) (edit : Edit) (input : QString) : Option Insertion :=
  (findMark edit.text (min (edit.cursor - 1) (edit.text.length - 1) + 1)).map fun i =>
    { start := i
      count := edit.cursor - i
      input := completed toLower settings edit (if edit.text[i]? = some (u ':') then .emote else .user) input }

/-- QString::remove and QString::insert -/
def Insertion.into (insertion : Insertion) (text : QString) : QString :=
  let text := text.take insertion.start ++ text.drop (insertion.start + insertion.count)
  text.take insertion.start ++ insertion.input ++ text.drop insertion.start

/-- The input and its cursor afterwards. The cursor stays where it was put by setPlainText, which is
left open here, if it cannot be set. -/
def insertCompletionText (settings : CompletionSettings) (context : Context) (input : SplitInput) (edit : Edit)
    (input_ : QString) : SplitInput × Option Nat :=
  match insertion toLower settings edit input_ with
  | some insertion =>
      let shown := input.setPlainText context (insertion.into edit.text)
      let position := insertion.start + insertion.input.length
      (shown, if position ≤ shown.text.length then some position else none)
  | none => (input, some edit.cursor)

/-- The text with the completion in the place of the query in front of the cursor. -/
def replacedQuery (settings : CompletionSettings) (edit : Edit) (query : QString) (kind : CompletionKind)
    (input_ : QString) : QString :=
  edit.text.take (edit.cursor - query.length) ++ completed toLower settings edit kind input_ ++
    edit.text.drop edit.cursor

/-- Exactly the query is taken out, the completion is put in there, and the cursor stands behind it. -/
structure ReplacesQuery (settings : CompletionSettings) (context : Context) (input : SplitInput) (edit : Edit)
    (query : QString) (kind : CompletionKind) (input_ : QString) : Prop where
  insertion : ∃ insertion, edit.insertion toLower settings input_ = some insertion ∧
    insertion.start + query.length = edit.cursor ∧ insertion.count = query.length
  text : (edit.insertCompletionText toLower settings context input input_).1.text =
    edit.replacedQuery toLower settings query kind input_
  cursor : (edit.insertCompletionText toLower settings context input input_).2 =
    some (edit.cursor - query.length + (edit.completed toLower settings kind input_).length)

variable {toLower} {settings : CompletionSettings} {context : Context} {input : SplitInput} {edit : Edit}
  {text query input_ : QString} {kind : CompletionKind} {cursor i k n : Nat} {showEmote showUser : Bool}

/-! ## The two loops -/

def isMark (c : QChar) : Bool := c == u ':' || c == u '@'

/-- The unit that a query of the kind begins with. -/
def mark : CompletionKind → QChar
  | .emote => u ':'
  | .user => u '@'

theorem isMark_mark (kind : CompletionKind) : isMark (mark kind) = true := by
  cases kind <;> decide

theorem findMark_step (n : Nat) (text : QString) :
    findMark text (n + 1) = if (text[n]?).any isMark then some n else findMark text n := by
  rw [findMark]
  congr 1
  cases text[n]? <;> simp [isMark]

/-- The loop stops at the last mark. -/
theorem findMark_some (found : findMark text n = some k) :
    k < n ∧ (text[k]?).any isMark = true ∧ ∀ j, k < j → j < n → (text[j]?).any isMark = false := by
  induction n with
  | zero => cases found
  | succ n ih =>
    rw [findMark_step] at found
    split at found
    case isTrue marked =>
      cases found
      exact ⟨Nat.lt_succ_self k, marked, fun j above below => by omega⟩
    case isFalse unmarked =>
      obtain ⟨inside, marked, last⟩ := ih found
      refine ⟨Nat.lt_succ_of_lt inside, marked, fun j above below => ?_⟩
      rcases Nat.lt_succ_iff_lt_or_eq.mp below with before | rfl
      · exact last j above before
      · exact Bool.not_eq_true _ ▸ unmarked

theorem exists_findMark (inside : i < n) (marked : (text[i]?).any isMark = true) :
    ∃ k, i ≤ k ∧ findMark text n = some k := by
  induction n with
  | zero => exact absurd inside (Nat.not_lt_zero i)
  | succ n ih =>
    rw [findMark_step]
    split
    case isTrue => exact ⟨n, Nat.le_of_lt_succ inside, rfl⟩
    case isFalse unmarked =>
      rcases Nat.lt_succ_iff_lt_or_eq.mp inside with before | rfl
      · exact ih before
      · exact absurd marked unmarked

/-- The query goes from a mark up to the cursor, and has no other one that is completed. -/
theorem findQuery_some (found : findQuery showEmote showUser text cursor n = some (query, kind)) :
    ∃ i < n, text[i]? = some (mark kind) ∧ query = text.midN i (cursor - i) ∧
      ∀ j, i < j → j < n → ¬ (text[j]? = some (u ':') ∧ showEmote = true) ∧
        ¬ (text[j]? = some (u '@') ∧ showUser = true) := by
  induction n with
  | zero => cases found
  | succ n ih =>
    rw [findQuery] at found
    split_ifs at found with space emote _ user
    · cases found
      exact ⟨n, Nat.lt_succ_self n, emote.1, rfl, fun j above below => by omega⟩
    · cases found
      exact ⟨n, Nat.lt_succ_self n, user.1, rfl, fun j above below => by omega⟩
    · obtain ⟨i, inside, marked, query, others⟩ := ih found
      refine ⟨i, Nat.lt_succ_of_lt inside, marked, query, fun j above below => ?_⟩
      rcases Nat.lt_succ_iff_lt_or_eq.mp below with before | rfl
      · exact others j above before
      · exact ⟨emote, user⟩

theorem loop_start (positive : edit.cursor ≠ 0) :
    min (edit.cursor - 1) (edit.text.length - 1) + 1 = edit.cursor := by
  have inside := edit.inside
  omega

theorem updateCompletionPopup_some (shown : edit.updateCompletionPopup settings context = some (query, kind)) :
    ∃ i < edit.cursor, edit.text[i]? = some (mark kind) ∧ query = edit.text.midN i (edit.cursor - i) ∧
      min (edit.cursor - 1) (edit.text.length - 1) + 1 = edit.cursor := by
  rw [updateCompletionPopup] at shown
  split_ifs at shown with _ empty
  have start := loop_start fun zero => empty (.inr zero)
  rw [start] at shown
  obtain ⟨i, inside, marked, query, -⟩ := findQuery_some shown
  exact ⟨i, inside, marked, query, start⟩

/-! ## The completed text -/

/-- The units of the query behind its first one. -/
theorem unmarked_iff (i : Nat) : (∀ c ∈ (text.midN i (cursor - i)).drop 1, isMark c = false) ↔
    ∀ j, i < j → j < cursor → (text[j]?).any isMark = false := by
  rw [QString.midN, List.drop_take, List.drop_drop]
  constructor
  · intro plain j above below
    cases found : text[j]? with
    | none => rfl
    | some c =>
      apply plain c
      refine List.mem_iff_getElem?.mpr ⟨j - (i + 1), ?_⟩
      rw [List.getElem?_take_of_lt (by omega), List.getElem?_drop, show i + 1 + (j - (i + 1)) = j by omega, found]
  · intro plain c member
    obtain ⟨m, found⟩ := List.mem_iff_getElem?.mp member
    have below : m < cursor - i - 1 := by
      by_contra outside
      rw [List.getElem?_take_eq_none (by omega)] at found
      cases found
    rw [List.getElem?_take_of_lt below, List.getElem?_drop] at found
    have unmarked := plain (i + 1 + m) (by omega) (by omega)
    rwa [found] at unmarked

/-- The loop of insertCompletionText finds the beginning of the query exactly if no other mark is behind it. -/
theorem findMark_eq_iff (inside : i < cursor) (marked : (text[i]?).any isMark = true) :
    findMark text cursor = some i ↔ ∀ j, i < j → j < cursor → (text[j]?).any isMark = false := by
  constructor
  · exact fun found => (findMark_some found).2.2
  · intro unmarked
    obtain ⟨k, notBefore, found⟩ := exists_findMark inside marked
    obtain ⟨below, markedToo, -⟩ := findMark_some found
    rcases Nat.eq_or_lt_of_le notBefore with rfl | behind
    · exact found
    · rw [unmarked k behind below] at markedToo
      cases markedToo

theorem insertion_of_findMark (found : findMark edit.text edit.cursor = some i)
    (start : min (edit.cursor - 1) (edit.text.length - 1) + 1 = edit.cursor)
    (marked : edit.text[i]? = some (mark kind)) : edit.insertion toLower settings input_ =
      some ⟨i, edit.cursor - i, edit.completed toLower settings kind input_⟩ := by
  rw [insertion, start, found, Option.map_some, marked]
  cases kind with
  | emote => rfl
  | user => rfl

theorem into_eq (inside : i ≤ edit.cursor) (put : QString) :
    (Insertion.mk i (edit.cursor - i) put).into edit.text = edit.text.take i ++ put ++ edit.text.drop edit.cursor := by
  have fits := inside.trans edit.inside
  have length : (edit.text.take i).length = i := List.length_take_of_le fits
  rw [Insertion.into, Nat.add_sub_of_le inside, List.take_left' length, List.drop_left' length]

theorem length_query (inside : i < edit.cursor) : (edit.text.midN i (edit.cursor - i)).length = edit.cursor - i := by
  have within := edit.inside
  rw [QString.midN, List.length_take, List.length_drop]
  omega

theorem replacedQuery_midN (inside : i < edit.cursor) :
    edit.replacedQuery toLower settings (edit.text.midN i (edit.cursor - i)) kind input_ =
      edit.text.take i ++ edit.completed toLower settings kind input_ ++ edit.text.drop edit.cursor := by
  have position : edit.cursor - (edit.cursor - i) = i := by omega
  rw [replacedQuery, length_query inside, position]

/-- What the edit shows of the text in which the completion has the place of the query. -/
theorem insertCompletionText_text (inside : i < edit.cursor) (context : Context) (input : SplitInput)
    (inserted : edit.insertion toLower settings input_ =
      some ⟨i, edit.cursor - i, edit.completed toLower settings kind input_⟩) :
    (edit.insertCompletionText toLower settings context input input_).1.text =
      context.shown (edit.replacedQuery toLower settings (edit.text.midN i (edit.cursor - i)) kind input_) := by
  rw [insertCompletionText, inserted, replacedQuery_midN inside]
  dsimp only
  rw [SplitInput.setPlainText_text, into_eq (Nat.le_of_lt inside)]

/-- The completion takes the place of the query exactly if the query has no other mark and the edit
leaves the completed text. -/
theorem replacesQuery_iff (toLower : QString → QString) (settings : CompletionSettings) (context : Context)
    (input : SplitInput) (edit : Edit) (input_ : QString) {query : QString} {kind : CompletionKind}
    (shown : edit.updateCompletionPopup settings context = some (query, kind)) :
    edit.ReplacesQuery toLower settings context input query kind input_ ↔
      (∀ c ∈ query.drop 1, c ≠ u ':' ∧ c ≠ u '@') ∧
        context.Leaves (edit.replacedQuery toLower settings query kind input_) := by
  obtain ⟨i, inside, marked, rfl, start⟩ := updateCompletionPopup_some shown
  have length := length_query inside
  have isMarked : (edit.text[i]?).any isMark = true := by
    rw [marked]
    exact isMark_mark kind
  have plain : (∀ c ∈ (edit.text.midN i (edit.cursor - i)).drop 1, c ≠ u ':' ∧ c ≠ u '@') ↔
      findMark edit.text edit.cursor = some i := by
    rw [findMark_eq_iff inside isMarked, ← unmarked_iff]
    simp [isMark]
  rw [plain]
  constructor
  · rintro ⟨⟨insertion, inserted, atQuery, -⟩, text, -⟩
    rw [length] at atQuery
    have found : findMark edit.text edit.cursor = some i := by
      rw [Edit.insertion, start] at inserted
      obtain ⟨k, found, rfl⟩ := Option.map_eq_some_iff.mp inserted
      dsimp only at atQuery
      rw [found, show k = i by omega]
    rw [insertCompletionText_text inside context input (insertion_of_findMark found start marked)] at text
    exact ⟨found, Context.shown_eq_iff.mp text⟩
  · rintro ⟨found, leaves⟩
    have inserted := @insertion_of_findMark toLower settings edit input_ kind i found start marked
    have written := insertCompletionText_text inside context input inserted
    rw [Context.shown_eq_iff.mpr leaves] at written
    refine ⟨⟨_, inserted, by rw [length]; dsimp only; omega, length.symm⟩, written, ?_⟩
    rw [insertCompletionText, inserted] at written ⊢
    dsimp only at written ⊢
    -- the cursor is put behind the completion, which is in the text
    have taken : (edit.text.take i).length = i := List.length_take_of_le ((Nat.le_of_lt inside).trans edit.inside)
    have fits : i + (edit.completed toLower settings kind input_).length ≤
        (edit.replacedQuery toLower settings (edit.text.midN i (edit.cursor - i)) kind input_).length := by
      rw [replacedQuery_midN inside, List.length_append, List.length_append, taken]
      exact Nat.le_add_right _ _
    have position : edit.cursor - (edit.cursor - i) = i := by omega
    rw [written, length, position, if_pos fits]

/-- With both completions on, the query has no mark behind its first unit. -/
theorem findQuery_plain (found : findQuery true true text cursor cursor = some (query, kind)) :
    ∀ c ∈ query.drop 1, isMark c = false := by
  obtain ⟨i, inside, marked, rfl, others⟩ := findQuery_some found
  refine (unmarked_iff i).mpr fun j above below => ?_
  obtain ⟨emote, user⟩ := others j above below
  cases unit : text[j]? with
  | none => rfl
  | some c =>
    rw [unit] at emote user
    simp only [Option.some.injEq, and_true] at emote user
    simp [isMark, emote, user]

/-- A query for an emote in a channel where users are not completed. -/
def emotesOnly : CompletionSettings := ⟨true, false, ⟨false, false⟩⟩

theorem replacesQuery_plain : ReplacesQuery id emotesOnly .quiet .blank ⟨qs "hi :ab", 6, by decide⟩ (qs ":ab") .emote
    (qs "Kappa") :=
  (replacesQuery_iff id emotesOnly .quiet .blank ⟨qs "hi :ab", 6, by decide⟩ (qs "Kappa") (by decide)).mpr
    ⟨by decide, by decide⟩

/-- Only what stands behind the second mark is replaced. -/
theorem second_mark_replaced : ¬ ∀ (toLower : QString → QString) (settings : CompletionSettings) (context : Context)
    (input : SplitInput) (edit : Edit) (input_ query : QString) (kind : CompletionKind),
    edit.updateCompletionPopup settings context = some (query, kind) →
      edit.ReplacesQuery toLower settings context input query kind input_ := by
  intro replaces
  have shown : updateCompletionPopup emotesOnly .quiet ⟨qs ":a@b", 4, by decide⟩ = some (qs ":a@b", .emote) := by decide
  obtain ⟨insertion, inserted, atQuery, -⟩ := (replaces id emotesOnly .quiet .blank _ (qs "Kappa") _ _ shown).insertion
  cases inserted
  exact absurd atQuery (by decide)

end Edit

end Forserino.Input
