import Mathlib.Algebra.Order.BigOperators.Group.List
import Mathlib.Algebra.Order.Group.Nat
import Mathlib.Data.List.Pairwise
import Mathlib.Data.List.TakeWhile
import Forserino.Emotes.TagDecoding

/-! The mention that a reply begins with, and the emotes behind it.

stripLeadingReplyMention counts the units of the mention, and the emotes tag counts code points.
Where the two are the same number, an emote that the content without the mention has no place for
ends the loop over the occurrences of this emote.
-/

set_option autoImplicit false

namespace Forserino.Emotes

open Forserino.Qt

/-- QString::indexOf(text, from) -/
def indexOfText (s text : QString) (from_ : Nat) : Option Nat :=
  (List.range' from_ (s.length + 1 - from_)).find? fun place => QString.startsWith (s.drop place) text

structure ReplySettings where
  stripReplyMention : Bool := true
  hideReplyContext : Bool := false

/-- The message offset, and the content that is left. -/
def stripLeadingReplyMention (settings : ReplySettings) (tags : List (QString × QString)) (content : QString) :
    Nat × QString :=
  if !settings.stripReplyMention then (0, content)
  else if settings.hideReplyContext then (0, content)
  else
    match tags.lookup (qs "reply-parent-display-name") with
    | none => (0, content)
    | some displayName =>
        if content.length ≤ 1 + displayName.length then (0, content)
        else if QString.startsWith content (qs "@") && content[1 + displayName.length]? == some (u ' ') &&
            indexOfText content displayName 1 == some 1 then
          (1 + displayName.length + 1, content.drop (1 + displayName.length + 1))
        else (0, content)

section
variable {EmotePtr : Type}

/-- The occurrence in a content that begins messageOffset units later. -/
def TwitchEmoteOccurrence.shifted (messageOffset : Nat) (occurrence : TwitchEmoteOccurrence EmotePtr) :
    TwitchEmoteOccurrence EmotePtr :=
  { occurrence with start := occurrence.start - messageOffset, end_ := occurrence.end_ - messageOffset }

variable (getOrCreateEmote : QString → QString → EmotePtr)

/-- The emotes of the stripped content are those of the whole content behind the mention. -/
def StripsEmotes (settings : ReplySettings) (tags : List (QString × QString)) (content : QString) : Prop :=
  let (messageOffset, stripped) := stripLeadingReplyMention settings tags content
  ∃ all, parseTwitchEmotes getOrCreateEmote tags content 0 = some all ∧
    parseTwitchEmotes getOrCreateEmote tags stripped messageOffset =
      some ((all.filter fun occurrence => (messageOffset : Int) ≤ occurrence.start).map
        (TwitchEmoteOccurrence.shifted messageOffset))

end

/-- The content of a reply: the mention of a display name, a space and what is said. -/
def mention (name rest : List Char) : List Char := '@' :: name ++ ' ' :: rest

variable {name rest : List Char}

theorem mention_length (name rest : List Char) : (mention name rest).length = name.length + 2 + rest.length := by
  simp only [mention, List.length_append, List.length_cons]
  omega

theorem utf16_mention (name rest : List Char) :
    utf16 (mention name rest) = u '@' :: (utf16 name ++ u ' ' :: utf16 rest) := by
  have at_ : units '@' = [u '@'] := rfl
  have space : units ' ' = [u ' '] := rfl
  simp only [mention, List.cons_append, utf16_cons, utf16_append, at_, space, List.nil_append]

/-- The mention is stripped, and its units are counted. -/
theorem strip_mention {settings : ReplySettings} {tags : List (QString × QString)}
    (strips : settings.stripReplyMention = true) (shows : settings.hideReplyContext = false)
    (parent : tags.lookup (qs "reply-parent-display-name") = some (utf16 name)) (rest : List Char) :
    stripLeadingReplyMention settings tags (utf16 (mention name rest)) = ((utf16 name).length + 2, utf16 rest) := by
  have offset : 1 + (utf16 name).length + 1 = (utf16 name).length + 2 := by omega
  have long : ¬ (u '@' :: (utf16 name ++ u ' ' :: utf16 rest)).length ≤ 1 + (utf16 name).length := by
    simp only [List.length_cons, List.length_append]
    omega
  have space : (u '@' :: (utf16 name ++ u ' ' :: utf16 rest))[1 + (utf16 name).length]? = some (u ' ') := by
    rw [Nat.add_comm, List.getElem?_cons_succ, List.getElem?_append_right (Nat.le_refl _), Nat.sub_self]
    rfl
  have found : indexOfText (u '@' :: (utf16 name ++ u ' ' :: utf16 rest)) (utf16 name) 1 = some 1 := by
    rw [indexOfText, List.length_cons, Nat.add_sub_cancel, List.length_append, List.length_cons,
      ← Nat.add_assoc, List.range'_succ]
    apply List.find?_cons_of_pos
    exact List.isPrefixOf_iff_prefix.mpr (List.prefix_append (utf16 name) (u ' ' :: utf16 rest))
  have behind : (u '@' :: (utf16 name ++ u ' ' :: utf16 rest)).drop ((utf16 name).length + 2) = utf16 rest := by
    rw [List.drop_succ_cons, ← List.drop_drop, List.drop_left]
    rfl
  have starts : QString.startsWith (u '@' :: (utf16 name ++ u ' ' :: utf16 rest)) (qs "@") = true := rfl
  rw [stripLeadingReplyMention, utf16_mention, parent]
  simp only [strips, shows, Bool.not_true, Bool.false_eq_true, if_false, long, starts, space, found, offset, behind,
    beq_self_eq_true, Bool.and_self, if_true]

/-- A code point has one unit, unless it needs a pair of surrogates. -/
theorem utf16_length_iff (text : List Char) :
    (utf16 text).length = text.length ↔ ∀ c ∈ text, c.toNat < 0x10000 := by
  induction text with
  | nil => simp
  | cons c text ih =>
    have more := length_le_utf16 text
    rw [utf16_cons, List.length_append, List.length_cons, List.forall_mem_cons, ← ih]
    by_cases small : c.toNat < 0x10000
    · have one : (units c).length = 1 := by rw [units, if_pos small]; rfl
      simp only [small, true_and]
      omega
    · have two : (units c).length = 2 := by rw [units, if_neg small]; rfl
      simp only [small, false_and, iff_false]
      omega

/-! ## Places behind the mention -/

theorem unitOffset_mention (name rest : List Char) (k : Nat) :
    unitOffset (mention name rest) (name.length + 2 + k) = (utf16 name).length + 2 + unitOffset rest k := by
  have front : (mention name rest).take (name.length + 2 + k) = mention name (rest.take k) := by
    have cut : name.length + 2 + k = (name.length + (k + 1)) + 1 := by omega
    rw [mention, List.cons_append, cut, List.take_succ_cons, List.take_length_add_append, List.take_succ_cons]
    rfl
  rw [unitOffset, front, utf16_mention, List.length_cons, List.length_append, List.length_cons, unitOffset]
  omega

theorem unitOffset_strictMono (text : List Char) {j k : Nat} (less : j < k) (inside : k ≤ text.length) :
    unitOffset text j < unitOffset text k := by
  have within : j < text.length := Nat.lt_of_lt_of_le less inside
  have next := unitOffset_succ text j within
  have positive := units_length_pos text[j]
  have further := unitOffset_mono text (show j + 1 ≤ k from less)
  omega

/-! ## The stripped content -/

section
variable {EmotePtr : Type} (getOrCreateEmote : QString → QString → EmotePtr)

/-- A difference below zero is more than any int. -/
theorem uintMinus_below {n messageOffset : Nat} (below : n < messageOffset)
    (offsetInt : (messageOffset : Int) ≤ INT_MAX) :
    (uintMinus n messageOffset : Int) = 4294967296 + n - messageOffset ∧ INT_MAX < uintMinus n messageOffset := by
  have bounded : (messageOffset : Int) ≤ 2147483647 := offsetInt
  have wrapped : ((n : Int) - messageOffset) % 4294967296 = 4294967296 + n - messageOffset := by omega
  have value : (uintMinus n messageOffset : Int) = 4294967296 + n - messageOffset := by
    rw [uintMinus, wrapped]
    omega
  exact ⟨value, by unfold INT_MAX; omega⟩

/-- A range that begins before the offset is out of range. -/
theorem occurrenceAt_before {messageOffset : Nat} {range : Nat × Nat} (id : QString)
    (before : range.1 < messageOffset) (last : range.2 < messageOffset + rest.length)
    (offsetInt : (messageOffset : Int) ≤ INT_MAX) (contentInt : ((utf16 rest).length : Int) ≤ INT_MAX) :
    occurrenceAt getOrCreateEmote id (firstUnits (utf16 rest)) (utf16 rest) messageOffset (rangeText range) =
      some none := by
  have codePoints := length_le_utf16 rest
  have offsetBound : (messageOffset : Int) ≤ 2147483647 := offsetInt
  have contentBound : ((utf16 rest).length : Int) ≤ 2147483647 := contentInt
  have readFrom : QString.toUInt (number range.1) = range.1 := by
    apply toUInt_number
    unfold UINT_MAX
    omega
  have readTo : QString.toUInt (number range.2) = range.2 := by
    apply toUInt_number
    unfold UINT_MAX
    omega
  obtain ⟨from_, large⟩ := uintMinus_below before offsetInt
  have outside : uintMinus range.2 messageOffset < uintMinus range.1 messageOffset ∨
      (firstUnits (utf16 rest)).length ≤ uintMinus range.2 messageOffset := by
    rw [firstUnits_utf16, List.length_map, List.length_range]
    by_cases inside : range.2 < messageOffset
    · have beyond := (uintMinus_below inside offsetInt).2
      unfold INT_MAX at beyond
      exact .inr (by omega)
    · -- the last place is behind the offset, so the first one is larger
      have to_ := uintMinus_inside range.2 rest.length messageOffset (by omega) (by omega) (by unfold UINT_MAX; omega)
      exact .inl (by omega)
  simp only [occurrenceAt, rangeText_coords, readFrom, readTo, outside, if_true]

/-- The loop ends at the first range that begins before the offset. -/
theorem appendOccurrences_stripped {messageOffset : Nat} (id : QString) (ranges : List (Nat × Nat))
    (ordered : ∀ range ∈ ranges, range.1 ≤ range.2)
    (last : ∀ range ∈ ranges, range.2 < messageOffset + rest.length)
    (offsetInt : (messageOffset : Int) ≤ INT_MAX) (contentInt : ((utf16 rest).length : Int) ≤ INT_MAX)
    (vec : List (TwitchEmoteOccurrence EmotePtr)) :
    appendOccurrences getOrCreateEmote id (firstUnits (utf16 rest)) (utf16 rest) messageOffset vec
        (ranges.map rangeText) =
      some (vec ++ (ranges.takeWhile fun range => messageOffset ≤ range.1).map
        (decoded getOrCreateEmote rest messageOffset id)) := by
  induction ranges generalizing vec with
  | nil => simp [appendOccurrences]
  | cons range ranges ih =>
    rw [List.forall_mem_cons] at ordered last
    by_cases behind : messageOffset ≤ range.1
    · have step := occurrenceAt_range getOrCreateEmote rest messageOffset id range ordered.1 (by omega) (by omega)
        offsetInt contentInt
      rw [List.takeWhile_cons_of_pos (by simpa using behind)]
      simp only [List.map_cons, appendOccurrences, step, Option.bind_eq_bind, Option.bind_some,
        ih ordered.2 last.2, List.append_assoc, List.singleton_append]
    · have step := occurrenceAt_before getOrCreateEmote id (by omega) last.1 offsetInt contentInt
      rw [List.takeWhile_cons_of_neg (by simpa using behind)]
      simp only [List.map_cons, List.map_nil, List.append_nil, appendOccurrences, step, Option.bind_eq_bind,
        Option.bind_some]
      rfl

/-- What is expected for a range behind the mention: its places in what is said. -/
def decodedBehind (name rest : List Char) (id : QString) (range : Nat × Nat) : TwitchEmoteOccurrence EmotePtr :=
  decodedAt getOrCreateEmote rest id (range.1 - (name.length + 2)) (range.2 - (name.length + 2))

/-- Behind the mention, an occurrence of the whole content is one of what is said, shifted. -/
theorem decoded_shifted (name : List Char) {id : QString} {range : Nat × Nat} (ordered : range.1 ≤ range.2)
    (behind : name.length + 2 ≤ range.1) :
    (decoded getOrCreateEmote (mention name rest) 0 id range).shifted ((utf16 name).length + 2) =
      decodedBehind getOrCreateEmote name rest id range := by
  obtain ⟨first, firstSame⟩ := Nat.exists_eq_add_of_le behind
  obtain ⟨last, lastSame⟩ := Nat.exists_eq_add_of_le (Nat.le_trans behind ordered)
  have firstOffset := unitOffset_mention name rest first
  have lastOffset := unitOffset_mention name rest last
  rw [← firstSame] at firstOffset
  rw [← lastSame] at lastOffset
  have firstPlace : range.1 - (name.length + 2) = first := by omega
  have lastPlace : range.2 - (name.length + 2) = last := by omega
  have units : utf16 (mention name rest) = (u '@' :: utf16 name ++ [u ' ']) ++ utf16 rest := by
    rw [utf16_mention]
    simp
  have length : (u '@' :: utf16 name ++ [u ' ']).length = (utf16 name).length + 2 := by simp
  have spelled : (utf16 (mention name rest)).midN ((utf16 name).length + 2 + unitOffset rest first)
      ((utf16 name).length + 2 + unitOffset rest last - ((utf16 name).length + 2 + unitOffset rest first) + 1) =
      (utf16 rest).midN (unitOffset rest first) (unitOffset rest last - unitOffset rest first + 1) := by
    rw [QString.midN, QString.midN, units, ← length, List.drop_length_add_append, Nat.add_sub_add_left]
  simp only [decodedBehind, decoded, decodedAt, Int.sub_zero, Int.toNat_natCast, firstPlace, lastPlace, firstOffset,
    lastOffset, TwitchEmoteOccurrence.shifted, spelled]
  congr 1 <;> omega

/-! ## The exact condition -/

theorem takeWhile_sublist_filter {α : Type} {p q : α → Bool} (implies : ∀ x, p x = true → q x = true)
    (l : List α) : (l.takeWhile p).Sublist (l.filter q) := by
  have kept : (l.takeWhile p).filter q = l.takeWhile p := by
    rw [List.filter_eq_self]
    intro x member
    exact implies x (List.mem_takeWhile_imp member)
  rw [← kept]
  exact (List.takeWhile_sublist p).filter q

/-- Nothing is lost behind the first element that is refused, if only such elements follow. -/
theorem takeWhile_eq_filter_iff {α : Type} (p : α → Bool) (l : List α) :
    l.takeWhile p = l.filter p ↔ l.Pairwise fun earlier later => p later = true → p earlier = true := by
  induction l with
  | nil => simp
  | cons x l ih =>
    rw [List.pairwise_cons, ← ih]
    by_cases holds : p x = true
    · simp [List.takeWhile_cons_of_pos holds, List.filter_cons_of_pos holds, holds]
    · rw [List.takeWhile_cons_of_neg holds, List.filter_cons_of_neg holds, eq_comm, List.filter_eq_nil_iff]
      constructor
      · intro none_
        refine ⟨fun later member found => absurd found (none_ later member), ?_⟩
        rw [List.filter_eq_nil_iff.mpr none_]
        cases l with
        | nil => rfl
        | cons y l => exact List.takeWhile_cons_of_neg (none_ y List.mem_cons_self)
      · intro both later member found
        exact holds (both.1 later member found)

/-- Two concatenations whose parts are not longer in the first are equal part by part. -/
theorem flatMap_eq_iff {α β : Type} {f g : α → List β} {l : List α}
    (shorter : ∀ x ∈ l, (f x).length ≤ (g x).length) : l.flatMap f = l.flatMap g ↔ ∀ x ∈ l, f x = g x := by
  induction l with
  | nil => simp
  | cons x l ih =>
    rw [List.forall_mem_cons] at shorter
    rw [List.flatMap_cons, List.flatMap_cons, List.forall_mem_cons, ← ih shorter.2]
    constructor
    · intro same
      have rest : (l.flatMap f).length ≤ (l.flatMap g).length := by
        rw [List.length_flatMap, List.length_flatMap]
        exact List.sum_le_sum shorter.2
      have lengths := congrArg List.length same
      rw [List.length_append, List.length_append] at lengths
      exact List.append_inj same (by omega)
    · rintro ⟨first, rest⟩
      rw [first, rest]

/-- An occurrence starts behind the units of the mention if its range starts behind its code points. -/
theorem behind_iff (name : List Char) {id : QString} {range : Nat × Nat} :
    (((utf16 name).length + 2 : Nat) : Int) ≤ (decoded getOrCreateEmote (mention name rest) 0 id range).start ↔
      name.length + 2 ≤ range.1 := by
  have start : (decoded getOrCreateEmote (mention name rest) 0 id range).start =
      unitOffset (mention name rest) range.1 := by
    simp only [decoded, decodedAt, Int.sub_zero, Int.toNat_natCast]
  have zero := unitOffset_mention name rest 0
  have first : unitOffset rest 0 = 0 := rfl
  rw [start, Int.ofNat_le]
  constructor
  · intro behind
    by_contra before
    have length := mention_length name rest
    have less := unitOffset_strictMono (mention name rest) (show range.1 < name.length + 2 + 0 by omega) (by omega)
    omega
  · intro behind
    have more := unitOffset_mono (mention name rest) (show name.length + 2 + 0 ≤ range.1 from behind)
    omega

/-- What the stripped content gives, against the occurrences behind the mention. -/
theorem stripsEmotes_iff_lists {settings : ReplySettings} {tags : List (QString × QString)} {emotes : List EmoteRanges}
    (strips : settings.stripReplyMention = true) (shows : settings.hideReplyContext = false)
    (parent : tags.lookup (qs "reply-parent-display-name") = some (utf16 name))
    (encoded : tags.lookup (qs "emotes") = some (emotesTag emotes))
    (inside : ∀ emote ∈ emotes, emote.Inside (mention name rest) 0)
    (contentInt : ((utf16 (mention name rest)).length : Int) ≤ INT_MAX) :
    StripsEmotes getOrCreateEmote settings tags (utf16 (mention name rest)) ↔
      emotes.flatMap (fun emote => (emote.ranges.takeWhile fun range => (utf16 name).length + 2 ≤ range.1).map
        (decoded getOrCreateEmote rest ((utf16 name).length + 2 : Nat) emote.id)) =
      emotes.flatMap fun emote => (emote.ranges.filter fun range => name.length + 2 ≤ range.1).map
        (decodedBehind getOrCreateEmote name rest emote.id) := by
  have whole := parse_encoded getOrCreateEmote tags (mention name rest) 0 emotes encoded inside (by decide) contentInt
  have codePoints := length_le_utf16 name
  have lengths := congrArg List.length (utf16_mention name rest)
  simp only [List.length_cons, List.length_append] at lengths
  have contentBound : ((utf16 (mention name rest)).length : Int) ≤ 2147483647 := contentInt
  have offsetInt : (((utf16 name).length + 2 : Nat) : Int) ≤ INT_MAX := by
    unfold INT_MAX
    omega
  have restInt : ((utf16 rest).length : Int) ≤ INT_MAX := by
    unfold INT_MAX
    omega
  have stripped := parse_found getOrCreateEmote tags (utf16 rest) ((utf16 name).length + 2 : Nat) emotes encoded
    (fun emote member => (inside emote member).plain) fun emote member vec => by
      apply appendOccurrences_stripped getOrCreateEmote emote.id emote.ranges (inside emote member).ordered _ offsetInt
        restInt
      intro range among
      have last := (inside emote member).last range among
      rw [mention_length] at last
      omega
  have expected : ∀ emote ∈ emotes,
      ((emote.ranges.map (decoded getOrCreateEmote (mention name rest) 0 emote.id)).filter
        fun occurrence => (((utf16 name).length + 2 : Nat) : Int) ≤ occurrence.start).map
          (TwitchEmoteOccurrence.shifted ((utf16 name).length + 2)) =
      (emote.ranges.filter fun range => name.length + 2 ≤ range.1).map
        (decodedBehind getOrCreateEmote name rest emote.id) := by
    intro emote member
    rw [List.filter_map, List.map_map]
    have same : ∀ range ∈ emote.ranges, ((fun occurrence : TwitchEmoteOccurrence EmotePtr =>
        decide ((((utf16 name).length + 2 : Nat) : Int) ≤ occurrence.start)) ∘
          decoded getOrCreateEmote (mention name rest) 0 emote.id) range = decide (name.length + 2 ≤ range.1) := by
      intro range _
      exact decide_eq_decide.mpr (behind_iff getOrCreateEmote name)
    rw [List.filter_congr same]
    apply List.map_congr_left
    intro range among
    obtain ⟨among, behind⟩ := List.mem_filter.mp among
    exact decoded_shifted getOrCreateEmote name ((inside emote member).ordered range among) (of_decide_eq_true behind)
  have filtered : ((emotes.flatMap fun emote => emote.ranges.map
        (decoded getOrCreateEmote (mention name rest) 0 emote.id)).filter
          fun occurrence => (((utf16 name).length + 2 : Nat) : Int) ≤ occurrence.start).map
          (TwitchEmoteOccurrence.shifted ((utf16 name).length + 2)) =
      emotes.flatMap fun emote => (emote.ranges.filter fun range => name.length + 2 ≤ range.1).map
        (decodedBehind getOrCreateEmote name rest emote.id) := by
    rw [List.filter_flatMap, List.map_flatMap]
    exact List.flatMap_congr expected
  simp only [StripsEmotes, strip_mention strips shows parent rest, whole, stripped, Option.some.injEq, exists_eq_left',
    filtered]

/-- With a name of plain units nothing but the order in the tag matters. -/
theorem emote_iff_plain (plain : (utf16 name).length = name.length) (id : QString) (ranges : List (Nat × Nat)) :
    (ranges.takeWhile fun range => (utf16 name).length + 2 ≤ range.1).map
        (decoded getOrCreateEmote rest ((utf16 name).length + 2 : Nat) id) =
      (ranges.filter fun range => name.length + 2 ≤ range.1).map (decodedBehind getOrCreateEmote name rest id) ↔
    ranges.Pairwise fun earlier later => name.length + 2 ≤ later.1 → name.length + 2 ≤ earlier.1 := by
  have same : decoded getOrCreateEmote rest (name.length + 2 : Nat) id =
      decodedBehind getOrCreateEmote name rest id := by
    funext range
    rw [decoded, decodedBehind, Int.toNat_sub, Int.toNat_sub]
  have pairs := takeWhile_eq_filter_iff (fun range : Nat × Nat => name.length + 2 ≤ range.1) ranges
  simp only [decide_eq_true_iff] at pairs
  rw [plain, same, ← pairs]
  constructor
  · intro equal
    have lengths := congrArg List.length equal
    rw [List.length_map, List.length_map] at lengths
    exact (takeWhile_sublist_filter (fun _ behind => behind) ranges).eq_of_length lengths
  · intro equal
    rw [equal]

/-- With a pair of surrogates in the name every occurrence behind the mention is lost or misplaced. -/
theorem emote_iff_pairs (pairs : name.length < (utf16 name).length) (id : QString) {ranges : List (Nat × Nat)}
    (inside : ∀ range ∈ ranges, range.1 < (mention name rest).length) :
    (ranges.takeWhile fun range => (utf16 name).length + 2 ≤ range.1).map
        (decoded getOrCreateEmote rest ((utf16 name).length + 2 : Nat) id) =
      (ranges.filter fun range => name.length + 2 ≤ range.1).map (decodedBehind getOrCreateEmote name rest id) ↔
    ∀ range ∈ ranges, range.1 < name.length + 2 := by
  constructor
  · intro equal
    cases ranges with
    | nil => exact fun _ impossible => nomatch impossible
    | cons range ranges =>
      by_cases taken : (utf16 name).length + 2 ≤ range.1
      · -- the first range is on both sides, at two different places
        have behind : name.length + 2 ≤ range.1 := by omega
        rw [List.takeWhile_cons_of_pos (by simpa using taken), List.filter_cons_of_pos (by simpa using behind),
          List.map_cons, List.map_cons, List.cons.injEq] at equal
        have starts := congrArg TwitchEmoteOccurrence.start equal.1
        have within := inside range List.mem_cons_self
        rw [mention_length] at within
        have less := unitOffset_strictMono rest
          (show range.1 - ((utf16 name).length + 2) < range.1 - (name.length + 2) by omega) (by omega)
        simp only [decoded, decodedBehind, decodedAt, Int.toNat_sub] at starts
        omega
      · rw [List.takeWhile_cons_of_neg (by simpa using taken), List.map_nil, eq_comm, List.map_eq_nil_iff,
          List.filter_eq_nil_iff] at equal
        intro other member
        exact Nat.lt_of_not_le fun behind => equal other member (decide_eq_true behind)
  · intro before
    have none_ : (ranges.filter fun range => decide (name.length + 2 ≤ range.1)) = [] := by
      rw [List.filter_eq_nil_iff]
      intro range member behind
      exact absurd (before range member) (Nat.not_lt.mpr (of_decide_eq_true behind))
    have further (range : Nat × Nat) (behind : decide ((utf16 name).length + 2 ≤ range.1) = true) :
        decide (name.length + 2 ≤ range.1) = true := by
      rw [decide_eq_true_iff] at behind ⊢
      omega
    have shorter := takeWhile_sublist_filter further ranges
    rw [none_, List.sublist_nil] at shorter
    rw [none_, shorter]
    rfl

/-- The stripped content gives the emotes behind the mention if and only if there are none, or the name has
no surrogate pairs and no emote has an occurrence of the mention in front of one behind it. -/
theorem stripsEmotes_iff {settings : ReplySettings} {tags : List (QString × QString)} {emotes : List EmoteRanges}
    (strips : settings.stripReplyMention = true) (shows : settings.hideReplyContext = false)
    (parent : tags.lookup (qs "reply-parent-display-name") = some (utf16 name))
    (encoded : tags.lookup (qs "emotes") = some (emotesTag emotes))
    (inside : ∀ emote ∈ emotes, emote.Inside (mention name rest) 0)
    (contentInt : ((utf16 (mention name rest)).length : Int) ≤ INT_MAX) :
    StripsEmotes getOrCreateEmote settings tags (utf16 (mention name rest)) ↔
      (∀ emote ∈ emotes, ∀ range ∈ emote.ranges, range.1 < name.length + 2) ∨
        (∀ c ∈ name, c.toNat < 0x10000) ∧ ∀ emote ∈ emotes, emote.ranges.Pairwise fun earlier later =>
          name.length + 2 ≤ later.1 → name.length + 2 ≤ earlier.1 := by
  have codePoints := length_le_utf16 name
  have further (range : Nat × Nat) (behind : decide ((utf16 name).length + 2 ≤ range.1) = true) :
      decide (name.length + 2 ≤ range.1) = true := by
    rw [decide_eq_true_iff] at behind ⊢
    omega
  have shorter : ∀ emote ∈ emotes, ((emote.ranges.takeWhile fun range => (utf16 name).length + 2 ≤ range.1).map
      (decoded getOrCreateEmote rest ((utf16 name).length + 2 : Nat) emote.id)).length ≤
        ((emote.ranges.filter fun range => name.length + 2 ≤ range.1).map
          (decodedBehind getOrCreateEmote name rest emote.id)).length := by
    intro emote member
    rw [List.length_map, List.length_map]
    exact (takeWhile_sublist_filter further emote.ranges).length_le
  rw [stripsEmotes_iff_lists getOrCreateEmote strips shows parent encoded inside contentInt, ← utf16_length_iff,
    flatMap_eq_iff shorter]
  by_cases plain : (utf16 name).length = name.length
  · have first : (∀ emote ∈ emotes, ∀ range ∈ emote.ranges, range.1 < name.length + 2) →
        ∀ emote ∈ emotes, emote.ranges.Pairwise fun earlier later =>
          name.length + 2 ≤ later.1 → name.length + 2 ≤ earlier.1 := by
      intro before emote member
      apply List.pairwise_of_forall_mem_list
      intro earlier _ later among behind
      exact absurd (before emote member later among) (Nat.not_lt.mpr behind)
    rw [and_iff_right plain, or_iff_right_of_imp first]
    apply forall₂_congr
    intro emote _
    exact emote_iff_plain getOrCreateEmote plain emote.id emote.ranges
  · rw [or_iff_left fun both => plain both.1]
    apply forall₂_congr
    intro emote member
    apply emote_iff_pairs getOrCreateEmote (by omega) emote.id
    intro range among
    have ordered := (inside emote member).ordered range among
    have last := (inside emote member).last range among
    omega

end

/-- The tags of a reply to this name. -/
def replyTags (name : List Char) (emotes : List EmoteRanges) : List (QString × QString) :=
  [(qs "reply-parent-display-name", utf16 name), (qs "emotes", emotesTag emotes)]

theorem stripsEmotes_plain :
    StripsEmotes (fun id _ => id) {} (replyTags "forsen".toList [⟨qs "25", [(8, 12), (18, 22)]⟩])
      (utf16 (mention "forsen".toList "Kappa and Kappa".toList)) := by
  have inside : ∀ emote ∈ [(⟨qs "25", [(8, 12), (18, 22)]⟩ : EmoteRanges)],
      emote.Inside (mention "forsen".toList "Kappa and Kappa".toList) 0 := by
    intro emote member
    rw [List.mem_singleton.mp member]
    exact ⟨by decide, by decide, by decide, by decide⟩
  have plain : ∀ c ∈ "forsen".toList, c.toNat < 0x10000 := by
    intro c member
    have all : "forsen".toList.all (fun c => decide (c.toNat < 0x10000)) = true := rfl
    exact of_decide_eq_true (List.all_eq_true.mp all c member)
  exact (stripsEmotes_iff (fun id _ => id) rfl rfl rfl rfl inside (by decide)).mpr (.inr ⟨plain, by decide⟩)

/-- A name with a pair of surrogates moves the emote by one place, and an occurrence of the emote in the
mention takes the one behind it with it. -/
theorem stripsEmotes_fails :
    ¬ StripsEmotes (fun id _ => id) {} (replyTags [Char.ofNat 0x1F602] [⟨qs "25", [(6, 10)]⟩])
        (utf16 (mention [Char.ofNat 0x1F602] "ab Kappa".toList)) ∧
      ¬ StripsEmotes (fun id _ => id) {} (replyTags "Kappa".toList [⟨qs "25", [(1, 5), (7, 11)]⟩])
        (utf16 (mention "Kappa".toList "Kappa".toList)) := by
  constructor
  · rintro ⟨all, whole, stripped⟩
    obtain rfl : [⟨7, 11, qs "25", qs "Kappa"⟩] = all := Option.some.inj whole
    exact absurd stripped (by decide)
  · rintro ⟨all, whole, stripped⟩
    obtain rfl : [⟨1, 5, qs "25", qs "Kappa"⟩, ⟨7, 11, qs "25", qs "Kappa"⟩] = all := Option.some.inj whole
    exact absurd stripped (by decide)

end Forserino.Emotes
