import Forserino.Qt.Utf16
import Mathlib.Data.List.Chain

/-! Finding the emojis of a text. The segments lie next to each other: nothing of the text
is lost between two of them and nothing is told twice.
-/

set_option autoImplicit false

namespace Forserino.Emotes

open Forserino.Qt

/-- nonQualified is none where the QString of the source is null. -/
structure EmojiData (EmotePtr : Type) where
  value : QString
  nonQualified : Option QString
  emote : EmotePtr
  deriving DecidableEq, Repr

/-- emojiFirstByte_: the possible emojis for the first unit of a match. -/
abbrev FirstByteMap (EmotePtr : Type) := List (QChar × List (EmojiData EmotePtr))

/-- One entry of the result. The source keeps the emote of an emoji; the units that were
taken for it are kept beside it. -/
inductive Segment (EmotePtr : Type) where
  | emoji (emoji : EmojiData EmotePtr) (spelled : QString)
  | plain (text : QString)
  deriving DecidableEq, Repr

section
variable {EmotePtr : Type}

namespace Segment

def units : Segment EmotePtr → QString
  | emoji _ spelled => spelled
  | plain text => text

def isText : Segment EmotePtr → Bool
  | emoji _ _ => false
  | plain _ => true

end Segment

/-! ## Parsing -/

/-- QStringView::mid(position, n), where a negative n means up to the end. -/
def midInt (s : QString) (position : Nat) (n : Int) : QString :=
  if n < 0 then s.mid position else s.midN position n.toNat

/-- Whether the units behind the first one are spelled at the place i of the text. -/
def spelledAt (text : QString) (i : Nat) (spelling : QString) : Bool :=
  let extraCharacters : Int := spelling.length - 1
  let remainingCharacters : Int := text.length - i - 1
  extraCharacters ≤ remainingCharacters && spelling.mid 1 == midInt text (i + 1) extraCharacters

/-- The first emoji that is spelled at the place i, and the length of the match. -/
def matchEmoji (text : QString) (i : Nat) : List (EmojiData EmotePtr) → Option (EmojiData EmotePtr × Nat)
  | [] => none
  | emoji :: possibleEmojis =>
      if spelledAt text i emoji.value then some (emoji, emoji.value.length)
      else
        match emoji.nonQualified with
        | some nonQualified =>
            if spelledAt text i nonQualified then some (emoji, nonQualified.length)
            else matchEmoji text i possibleEmojis
        | none => matchEmoji text i possibleEmojis

structure ParseState (EmotePtr : Type) where
  i : Nat := 0
  lastParsedEmojiEndIndex : Nat := 0
  result : List (Segment EmotePtr) := []

variable (emojiFirstByte : FirstByteMap EmotePtr)

/-- What is matched at the place of a unit. -/
def matchAt (text : QString) (i : Nat) (character : QChar) : Option (EmojiData EmotePtr × Nat) :=
  if isLowSurrogate character then none
  else
    match emojiFirstByte.lookup character with
    | none => none
    | some possibleEmojis =>
        match matchEmoji text i possibleEmojis with
        | some (_, 0) => none
        | matched => matched

/-- One turn of the loop, with the increment at its end. -/
def parseStep (text : QString) (character : QChar) (state : ParseState EmotePtr) : ParseState EmotePtr :=
  match matchAt emojiFirstByte text state.i character with
  | none => { state with i := state.i + 1 }
  | some (matchedEmoji, matchedEmojiLength) =>
      let charactersFromLastParsedEmoji := state.i - state.lastParsedEmojiEndIndex
      let between :=
        if 0 < charactersFromLastParsedEmoji then
          [.plain (text.midN state.lastParsedEmojiEndIndex charactersFromLastParsedEmoji)]
        else []
      { i := state.i + matchedEmojiLength
        lastParsedEmojiEndIndex := state.i + matchedEmojiLength
        result := state.result ++ between ++ [.emoji matchedEmoji (text.midN state.i matchedEmojiLength)] }

/-- The loop ends where no unit is left; the length of the text is enough fuel. -/
def parseLoop (text : QString) : Nat → ParseState EmotePtr → ParseState EmotePtr
  | 0, state => state
  | fuel + 1, state =>
      match text[state.i]? with
      | none => state
      | some character => parseLoop text fuel (parseStep emojiFirstByte text character state)

def parse (text : QString) : List (Segment EmotePtr) :=
  let state := parseLoop emojiFirstByte text text.length {}
  if state.lastParsedEmojiEndIndex < text.length then
    state.result ++ [.plain (text.mid state.lastParsedEmojiEndIndex)]
  else state.result

/-! ## The table -/

/-- The entries begin with the unit they are found by. -/
def Indexed (emojiFirstByte : FirstByteMap EmotePtr) : Prop :=
  ∀ entry ∈ emojiFirstByte, ∀ emoji ∈ entry.2, ∀ spelling,
    spelling = emoji.value ∨ emoji.nonQualified = some spelling → spelling.head? = some entry.1

/-- emojiFirstByte_[character].append(emoji) -/
def append (character : QChar) (emoji : EmojiData EmotePtr) : FirstByteMap EmotePtr → FirstByteMap EmotePtr
  | [] => [(character, [emoji])]
  | entry :: entries =>
      if entry.1 = character then (character, entry.2 ++ [emoji]) :: entries
      else entry :: append character emoji entries

/-- The emojis are indexed by the first unit of their value; reading that of an empty value
is undefined. -/
def loadEmojis (emojis : List (EmojiData EmotePtr)) : Option (FirstByteMap EmotePtr) :=
  emojis.foldlM (fun table emoji => do
    let character ← emoji.value.head?
    return append character emoji table) []

def sortEmojis (emojiFirstByte : FirstByteMap EmotePtr) : FirstByteMap EmotePtr :=
  emojiFirstByte.map fun p => (p.1, p.2.mergeSort fun lhs rhs => rhs.value.length ≤ lhs.value.length)

theorem mem_append {character : QChar} {emoji : EmojiData EmotePtr} {table : FirstByteMap EmotePtr}
    {entry : QChar × List (EmojiData EmotePtr)} (among : entry ∈ append character emoji table)
    {found : EmojiData EmotePtr} (inside : found ∈ entry.2) :
    (∃ old ∈ table, old.1 = entry.1 ∧ found ∈ old.2) ∨ (entry.1 = character ∧ found = emoji) := by
  induction table with
  | nil =>
    rw [append, List.mem_singleton] at among
    subst among
    exact Or.inr ⟨rfl, List.mem_singleton.mp inside⟩
  | cons first entries ih =>
    rw [append] at among
    split at among
    · next same =>
      rcases List.mem_cons.mp among with rfl | later
      · rcases List.mem_append.mp inside with old | new
        · exact Or.inl ⟨first, List.mem_cons_self, same, old⟩
        · exact Or.inr ⟨rfl, List.mem_singleton.mp new⟩
      · exact Or.inl ⟨entry, List.mem_cons_of_mem first later, rfl, inside⟩
    · rcases List.mem_cons.mp among with rfl | later
      · exact Or.inl ⟨entry, List.mem_cons_self, rfl, inside⟩
      · rcases ih later with ⟨old, member, same, found⟩ | new
        · exact Or.inl ⟨old, List.mem_cons_of_mem first member, same, found⟩
        · exact Or.inr new

theorem loadEmojis_from {emojis : List (EmojiData EmotePtr)} {before table : FirstByteMap EmotePtr}
    (spellings : ∀ emoji ∈ emojis, ∀ spelling, emoji.nonQualified = some spelling → spelling.head? = emoji.value.head?)
    (indexed : Indexed before)
    (loaded : emojis.foldlM (fun table emoji => do
      let character ← emoji.value.head?
      return append character emoji table) before = some table) : Indexed table := by
  induction emojis generalizing before with
  | nil =>
    cases loaded
    exact indexed
  | cons emoji emojis ih =>
    rw [List.foldlM_cons] at loaded
    cases first : emoji.value.head? with
    | none => simp [first] at loaded
    | some character =>
      simp only [first] at loaded
      rw [List.forall_mem_cons] at spellings
      refine ih spellings.2 ?_ loaded
      intro entry among found inside spelling which
      rcases mem_append among inside with ⟨old, member, same, inside⟩ | ⟨here, rfl⟩
      · rw [← same]
        exact indexed old member found inside spelling which
      · rw [here, ← first]
        rcases which with rfl | which
        · rfl
        · exact spellings.1 spelling which

/-- The table is indexed, as far as both spellings of each emoji begin alike. -/
theorem load_indexed {emojis : List (EmojiData EmotePtr)} {table : FirstByteMap EmotePtr}
    (spellings : ∀ emoji ∈ emojis, ∀ spelling, emoji.nonQualified = some spelling → spelling.head? = emoji.value.head?)
    (loaded : loadEmojis emojis = some table) : Indexed (sortEmojis table) := by
  have indexed : Indexed table := loadEmojis_from spellings (fun _ among => (List.not_mem_nil among).elim) loaded
  intro entry among emoji inside
  obtain ⟨old, member, rfl⟩ := List.mem_map.mp among
  exact indexed old member emoji (List.mem_mergeSort.mp inside)

/-! ## Segments -/

/-- The units of a text at i, when its first one is read already. -/
theorem midN_succ {text : QString} {i : Nat} {c : QChar} (here : text[i]? = some c) (n : Nat) :
    text.midN i (n + 1) = c :: text.midN (i + 1) n := by
  obtain ⟨inside, rfl⟩ := List.getElem?_eq_some_iff.mp here
  rw [QString.midN, QString.midN, List.drop_eq_getElem_cons inside, List.take_succ_cons]

/-- A spelling that begins with the unit at the place is found only where it stands. -/
theorem spelledAt_spec {text : QString} {i : Nat} {c : QChar} {spelling : QString} (here : text[i]? = some c)
    (first : spelling.head? = some c) (spelled : spelledAt text i spelling = true) :
    text.midN i spelling.length = spelling ∧ 0 < spelling.length ∧ i + spelling.length ≤ text.length := by
  obtain ⟨inside, -⟩ := List.getElem?_eq_some_iff.mp here
  obtain ⟨rest, rfl⟩ : ∃ rest, spelling = c :: rest := by
    cases spelling with
    | nil => cases first
    | cons d rest => exact ⟨rest, by rw [Option.some.inj first]⟩
  have extra : ((c :: rest).length : Int) - 1 = rest.length := by
    rw [List.length_cons]
    omega
  unfold spelledAt at spelled
  simp only [extra, Bool.and_eq_true, decide_eq_true_eq, beq_iff_eq] at spelled
  obtain ⟨room, same⟩ := spelled
  rw [midInt, if_neg (by omega), Int.toNat_natCast] at same
  refine ⟨?_, Nat.succ_pos _, ?_⟩
  · rw [List.length_cons, midN_succ here, ← same]
    rfl
  · rw [List.length_cons]
    omega

/-- What is known of a match at a place. -/
structure Matched (emojiFirstByte : FirstByteMap EmotePtr) (text : QString) (i : Nat)
    (emoji : EmojiData EmotePtr) (n : Nat) : Prop where
  known : ∃ entry ∈ emojiFirstByte, emoji ∈ entry.2
  spelling : text.midN i n = emoji.value ∨ emoji.nonQualified = some (text.midN i n)
  positive : 0 < n
  inside : i + n ≤ text.length

theorem matchEmoji_spec {text : QString} {i : Nat} {c : QChar} {possibleEmojis : List (EmojiData EmotePtr)}
    {emoji : EmojiData EmotePtr} {n : Nat} (here : text[i]? = some c)
    (first : ∀ emoji ∈ possibleEmojis, ∀ spelling,
      spelling = emoji.value ∨ emoji.nonQualified = some spelling → spelling.head? = some c)
    (found : matchEmoji text i possibleEmojis = some (emoji, n)) :
    emoji ∈ possibleEmojis ∧ (text.midN i n = emoji.value ∨ emoji.nonQualified = some (text.midN i n)) ∧
      0 < n ∧ i + n ≤ text.length := by
  induction possibleEmojis with
  | nil => cases found
  | cons candidate possibleEmojis ih =>
    rw [List.forall_mem_cons] at first
    rw [matchEmoji] at found
    split at found
    · next qualified =>
      cases found
      obtain ⟨same, positive, inside⟩ := spelledAt_spec here (first.1 _ (Or.inl rfl)) qualified
      exact ⟨List.mem_cons_self, Or.inl same, positive, inside⟩
    · split at found
      · next nonQualified exists_ =>
        split at found
        · next spelled =>
          cases found
          obtain ⟨same, positive, inside⟩ := spelledAt_spec here (first.1 _ (Or.inr exists_)) spelled
          refine ⟨List.mem_cons_self, Or.inr ?_, positive, inside⟩
          rw [same]
          exact exists_
        · obtain ⟨member, rest⟩ := ih first.2 found
          exact ⟨List.mem_cons_of_mem candidate member, rest⟩
      · obtain ⟨member, rest⟩ := ih first.2 found
        exact ⟨List.mem_cons_of_mem candidate member, rest⟩

section
variable {emojiFirstByte : FirstByteMap EmotePtr} {text : QString} {state : ParseState EmotePtr} {c : QChar}

theorem matchAt_spec (indexed : Indexed emojiFirstByte) {i n : Nat} {emoji : EmojiData EmotePtr}
    (here : text[i]? = some c) (found : matchAt emojiFirstByte text i c = some (emoji, n)) :
    Matched emojiFirstByte text i emoji n := by
  unfold matchAt at found
  split at found
  · cases found
  · split at found
    · cases found
    · next possibleEmojis entry =>
      have among : (c, possibleEmojis) ∈ emojiFirstByte := by
        obtain ⟨before, after, shape, -⟩ := List.lookup_eq_some_iff.mp entry
        rw [shape]
        exact List.mem_append_right _ List.mem_cons_self
      split at found
      · cases found
      · obtain ⟨member, spelling, positive, inside⟩ := matchEmoji_spec here (indexed _ among) found
        exact ⟨⟨_, among, member⟩, spelling, positive, inside⟩

/-- Of two neighbours at most one is a text. -/
def Apart (first second : Segment EmotePtr) : Prop := first.isText = true → second.isText = false

/-- A text is not empty; an emoji is one of the table in one of its spellings. -/
def Segment.Proper (emojiFirstByte : FirstByteMap EmotePtr) : Segment EmotePtr → Prop
  | .plain text => text ≠ []
  | .emoji found spelled =>
      (∃ entry ∈ emojiFirstByte, found ∈ entry.2) ∧ (spelled = found.value ∨ found.nonQualified = some spelled)

/-- The segments so far cover the text up to the end of the last emoji. -/
structure Scanned (emojiFirstByte : FirstByteMap EmotePtr) (text : QString) (state : ParseState EmotePtr) : Prop where
  covered : state.result.flatMap Segment.units = text.take state.lastParsedEmojiEndIndex
  ahead : state.lastParsedEmojiEndIndex ≤ state.i
  inside : state.lastParsedEmojiEndIndex ≤ text.length
  proper : ∀ segment ∈ state.result, segment.Proper emojiFirstByte
  apart : state.result.IsChain Apart
  last : ∀ segment ∈ state.result.getLast?, segment.isText = false

theorem take_midN (text : QString) {a b : Nat} (ordered : a ≤ b) : text.take a ++ text.midN a (b - a) = text.take b := by
  rw [QString.midN, ← List.take_add, Nat.add_sub_cancel' ordered]

theorem parseStep_scanned (indexed : Indexed emojiFirstByte) (scanned : Scanned emojiFirstByte text state)
    (here : text[state.i]? = some c) : Scanned emojiFirstByte text (parseStep emojiFirstByte text c state) := by
  unfold parseStep
  split
  · exact ⟨scanned.covered, Nat.le_succ_of_le scanned.ahead, scanned.inside, scanned.proper, scanned.apart, scanned.last⟩
  · next matchedEmoji n found =>
    have matched := matchAt_spec indexed here found
    have ahead := scanned.ahead
    -- the text between two emojis is told only if there is any
    obtain ⟨between, shape, told, isPlain⟩ : ∃ between : List (Segment EmotePtr),
        (if 0 < state.i - state.lastParsedEmojiEndIndex then
          [.plain (text.midN state.lastParsedEmojiEndIndex (state.i - state.lastParsedEmojiEndIndex))] else []) = between ∧
        between.flatMap Segment.units =
          text.midN state.lastParsedEmojiEndIndex (state.i - state.lastParsedEmojiEndIndex) ∧
        (between = [] ∨ ∃ s, between = [.plain s] ∧ s ≠ []) := by
      refine ⟨_, rfl, ?_⟩
      split
      · next some_ =>
        refine ⟨List.append_nil _, Or.inr ⟨_, rfl, ?_⟩⟩
        apply List.ne_nil_of_length_pos
        have inside := matched.inside
        rw [QString.midN, List.length_take, List.length_drop]
        omega
      · next none_ =>
        rw [Nat.eq_zero_of_not_pos none_]
        exact ⟨rfl, Or.inl rfl⟩
    simp only [shape]
    constructor
    · simp only
      rw [List.flatMap_append, List.flatMap_append, scanned.covered, told, List.flatMap_singleton,
        take_midN text ahead, Segment.units]
      simpa using take_midN text (Nat.le_add_right state.i n)
    · exact le_rfl
    · exact matched.inside
    · intro segment among
      rcases List.mem_append.mp among with early | isEmoji
      · rcases List.mem_append.mp early with old | new
        · exact scanned.proper segment old
        · rcases isPlain with rfl | ⟨s, rfl, nonempty⟩
          · cases new
          · rw [List.mem_singleton.mp new]
            exact nonempty
      · rw [List.mem_singleton.mp isEmoji]
        exact ⟨matched.known, matched.spelling⟩
    · simp only
      rw [List.append_assoc]
      apply List.IsChain.append scanned.apart
      · rcases isPlain with rfl | ⟨s, rfl, -⟩
        · exact List.isChain_singleton _
        · exact List.isChain_pair.mpr fun _ => rfl
      · intro first isLast _ _ plain
        rw [scanned.last first isLast] at plain
        cases plain
    · intro segment isLast
      simp only [List.getLast?_append, List.getLast?_singleton, Option.some_or] at isLast
      rw [← Option.some.inj isLast]
      rfl

/-- Every turn goes on. -/
theorem parseStep_progress (indexed : Indexed emojiFirstByte) (here : text[state.i]? = some c) :
    state.i < (parseStep emojiFirstByte text c state).i := by
  unfold parseStep
  split
  · exact Nat.lt_succ_self _
  · next found => exact Nat.lt_add_of_pos_right (matchAt_spec indexed here found).positive

theorem parseLoop_scanned (indexed : Indexed emojiFirstByte) (fuel : Nat) (scanned : Scanned emojiFirstByte text state)
    (enough : text.length ≤ state.i + fuel) :
    Scanned emojiFirstByte text (parseLoop emojiFirstByte text fuel state) ∧
      text.length ≤ (parseLoop emojiFirstByte text fuel state).i := by
  induction fuel generalizing state with
  | zero => exact ⟨scanned, enough⟩
  | succ fuel ih =>
    rw [parseLoop]
    split
    · next ended => exact ⟨scanned, List.getElem?_eq_none_iff.mp ended⟩
    · next character here =>
      have progress := parseStep_progress indexed here
      exact ih (parseStep_scanned indexed scanned here) (by omega)

end

/-- What is promised of the segments of a text. -/
structure Segmentation (emojiFirstByte : FirstByteMap EmotePtr) (text : QString)
    (segments : List (Segment EmotePtr)) : Prop where
  lossless : segments.flatMap Segment.units = text
  proper : ∀ segment ∈ segments, segment.Proper emojiFirstByte
  apart : segments.IsChain Apart

/-- Parsing a text loses nothing of it, and every turn of its loop goes on until the end. -/
theorem parse_segmentation {emojiFirstByte : FirstByteMap EmotePtr} (indexed : Indexed emojiFirstByte) (text : QString) :
    Segmentation emojiFirstByte text (parse emojiFirstByte text) ∧
      text.length ≤ (parseLoop emojiFirstByte text text.length {}).i ∧
      ∀ (state : ParseState EmotePtr) (c : QChar), text[state.i]? = some c →
        state.i < (parseStep emojiFirstByte text c state).i := by
  have start : Scanned emojiFirstByte text {} :=
    ⟨rfl, le_rfl, Nat.zero_le _, fun _ among => (List.not_mem_nil among).elim, List.IsChain.nil,
      fun _ among => nomatch among⟩
  obtain ⟨scanned, ended⟩ := parseLoop_scanned indexed text.length start (Nat.le_add_left _ _)
  refine ⟨?_, ended, fun state c here => parseStep_progress indexed here⟩
  unfold parse
  generalize parseLoop emojiFirstByte text text.length {} = state at scanned
  simp only
  split
  · next more =>
    constructor
    · rw [List.flatMap_append, List.flatMap_singleton, scanned.covered]
      exact List.take_append_drop _ _
    · intro segment among
      rcases List.mem_append.mp among with old | new
      · exact scanned.proper segment old
      · rw [List.mem_singleton.mp new]
        have length : (text.mid state.lastParsedEmojiEndIndex).length = text.length - state.lastParsedEmojiEndIndex :=
          List.length_drop
        exact List.ne_nil_of_length_pos (by omega)
    · apply List.IsChain.append scanned.apart (List.isChain_singleton _)
      intro first isLast _ _ plain
      rw [scanned.last first isLast] at plain
      cases plain
  · next whole =>
    refine ⟨?_, scanned.proper, scanned.apart⟩
    rw [scanned.covered]
    exact List.take_of_length_le (Nat.le_of_not_lt whole)

theorem parse_segmentation_heart :
    Segmentation [(0x2764, [⟨[0x2764, 0xFE0F], some [0x2764], ()⟩])] [u 'a', 0x2764, u 'b']
      [.plain [u 'a'], .emoji ⟨[0x2764, 0xFE0F], some [0x2764], ()⟩ [0x2764], .plain [u 'b']] :=
  (parse_segmentation (by simp [Indexed]) _).1

end

end Forserino.Emotes
