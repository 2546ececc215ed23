import Mathlib.Data.List.Forall2
import Forserino.Emotes.Occurrences

/-! What the emotes tag is decoded to.

Any tag leads to occurrences inside of the content only. A tag that encodes ranges of code
points leads to one occurrence for each range, in the order of the tag; the message builder
sorts them afterwards.
-/

set_option autoImplicit false

namespace Forserino.Emotes

open Forserino.Qt

section
variable {EmotePtr : Type} (getOrCreateEmote : QString → QString → EmotePtr)

/-! ## Any tag -/

theorem occurrenceAt_inside (id content : QString) (messageOffset : Int) (text : QString) :
    ∃ found, occurrenceAt getOrCreateEmote id (firstUnits content) content messageOffset text =
        some found ∧ ∀ occurrence, found = some occurrence → occurrence.Exact content := by
  have nothing : ∃ found : Option (TwitchEmoteOccurrence EmotePtr), some none = some found ∧
      ∀ occurrence, found = some occurrence → occurrence.Exact content :=
    ⟨none, rfl, by simp⟩
  unfold occurrenceAt
  split
  · next coordFrom coordTo _ _ =>
    by_cases outside : uintMinus coordTo.toUInt messageOffset < uintMinus coordFrom.toUInt messageOffset ∨
        (firstUnits content).length ≤ uintMinus coordTo.toUInt messageOffset
    · simp only [outside, if_true]
      exact nothing
    · have ordered : uintMinus coordFrom.toUInt messageOffset ≤ uintMinus coordTo.toUInt messageOffset := by
        omega
      have lastInside : uintMinus coordTo.toUInt messageOffset < (firstUnits content).length := by
        omega
      have first := List.getElem?_eq_getElem (Nat.lt_of_le_of_lt ordered lastInside)
      have last := List.getElem?_eq_getElem lastInside
      have places := firstUnits_ordered content ordered first last
      simp only [outside, if_false, first, last, Option.bind_eq_bind, Option.bind_some]
      split
      · exact nothing
      · refine ⟨_, rfl, ?_⟩
        intro occurrence same
        obtain rfl := Option.some.inj same
        constructor
        · exact Int.natCast_nonneg _
        · exact Int.ofNat_le.mpr places.1
        · exact Int.ofNat_lt.mpr places.2
        · have length : ((((firstUnits content)[uintMinus coordTo.toUInt messageOffset] : Nat) : Int) -
              ((firstUnits content)[uintMinus coordFrom.toUInt messageOffset] : Nat) + 1).toNat =
              (firstUnits content)[uintMinus coordTo.toUInt messageOffset] -
                (firstUnits content)[uintMinus coordFrom.toUInt messageOffset] + 1 := by
            omega
          simp only [TwitchEmoteOccurrence.length, length, Int.toNat_natCast]
  · exact nothing

theorem appendOccurrences_inside (id content : QString) (messageOffset : Int)
    (texts : List QString) (vec : List (TwitchEmoteOccurrence EmotePtr))
    (exact_ : ∀ occurrence ∈ vec, occurrence.Exact content) :
    ∃ result, appendOccurrences getOrCreateEmote id (firstUnits content) content messageOffset vec
        texts = some result ∧ ∀ occurrence ∈ result, occurrence.Exact content := by
  induction texts generalizing vec with
  | nil => exact ⟨vec, rfl, exact_⟩
  | cons text texts ih =>
    obtain ⟨found, read, foundExact⟩ := occurrenceAt_inside getOrCreateEmote id content messageOffset text
    rw [appendOccurrences, read]
    cases found with
    | none => exact ⟨vec, rfl, exact_⟩
    | some pushed =>
      apply ih
      intro occurrence member
      rcases List.mem_append.mp member with old | new
      · exact exact_ occurrence old
      · rw [List.mem_singleton.mp new]
        exact foundExact pushed rfl

theorem appendTwitchEmoteOccurrences_inside (content emote : QString) (messageOffset : Int)
    (vec : List (TwitchEmoteOccurrence EmotePtr))
    (exact_ : ∀ occurrence ∈ vec, occurrence.Exact content) :
    ∃ result, appendTwitchEmoteOccurrences getOrCreateEmote emote vec (firstUnits content) content
        messageOffset = some result ∧ ∀ occurrence ∈ result, occurrence.Exact content := by
  unfold appendTwitchEmoteOccurrences
  split
  · exact appendOccurrences_inside getOrCreateEmote _ content messageOffset _ vec exact_
  · exact ⟨vec, rfl, exact_⟩

theorem appendEmotes_inside (content : QString) (messageOffset : Int) (emotes : List QString)
    (vec : List (TwitchEmoteOccurrence EmotePtr))
    (exact_ : ∀ occurrence ∈ vec, occurrence.Exact content) :
    ∃ result, emotes.foldlM (fun twitchEmotes emote => appendTwitchEmoteOccurrences getOrCreateEmote
        emote twitchEmotes (firstUnits content) content messageOffset) vec = some result ∧
      ∀ occurrence ∈ result, occurrence.Exact content := by
  induction emotes generalizing vec with
  | nil => exact ⟨vec, rfl, exact_⟩
  | cons emote emotes ih =>
    obtain ⟨next, step, nextExact⟩ :=
      appendTwitchEmoteOccurrences_inside getOrCreateEmote content emote messageOffset vec exact_
    rw [List.foldlM_cons, step]
    exact ih next nextExact

/-- No index outside of the content is used, whatever the tag says. -/
theorem parse_inside (tags : List (QString × QString)) (content : QString) (messageOffset : Int) :
    ∃ result, parseTwitchEmotes getOrCreateEmote tags content messageOffset = some result ∧
      ∀ occurrence ∈ result, occurrence.Exact content := by
  have start : ∀ occurrence ∈ ([] : List (TwitchEmoteOccurrence EmotePtr)),
      occurrence.Exact content := by
    intro occurrence member
    exact absurd member List.not_mem_nil
  unfold parseTwitchEmotes
  split
  · exact ⟨[], rfl, start⟩
  · exact appendEmotes_inside getOrCreateEmote content messageOffset _ [] start

/-! ## Tags that encode ranges -/

theorem uintMinus_inside (n length : Nat) (messageOffset : Int) (first : messageOffset ≤ n)
    (last : n < messageOffset + length) (small : (length : Int) ≤ UINT_MAX) :
    uintMinus n messageOffset = (n - messageOffset).toNat := by
  unfold UINT_MAX at small
  rw [uintMinus, Int.emod_eq_of_lt (by omega) (by omega)]

theorem number_free (n : Nat) (c : QChar) (other : isDigit c = false) : c ∉ number n := by
  intro member
  rcases number_chars n member with digit | minus
  · rw [digit] at other
    cases other
  · omega

theorem rangeText_free (range : Nat × Nat) (c : QChar) (other : isDigit c = false)
    (dash : c ≠ u '-') : c ∉ rangeText range := by
  simp [rangeText, number_free _ c other, dash]

theorem rangeText_coords (range : Nat × Nat) :
    (rangeText range).split (u '-') = [number range.1, number range.2] := by
  rw [rangeText, split_append _ _ _ (number_free range.1 (u '-') (by decide)),
    split_free _ _ (number_free range.2 (u '-') (by decide))]

/-- What is pushed for a range, from its first and its last code point. -/
def decodedAt (text : List Char) (id : QString) (first last : Nat) :
    TwitchEmoteOccurrence EmotePtr :=
  let name := (utf16 text).midN (unitOffset text first) (unitOffset text last - unitOffset text first + 1)
  ⟨unitOffset text first, unitOffset text last, getOrCreateEmote id name, name⟩

def decoded (text : List Char) (messageOffset : Int) (id : QString) (range : Nat × Nat) :
    TwitchEmoteOccurrence EmotePtr :=
  decodedAt getOrCreateEmote text id (range.1 - messageOffset).toNat (range.2 - messageOffset).toNat

theorem firstUnits_at (text : List Char) (k : Nat) (inside : k < text.length) :
    (firstUnits (utf16 text))[k]? = some (unitOffset text k) := by
  rw [firstUnits_utf16, List.getElem?_map, List.getElem?_range inside, Option.map_some]

theorem occurrenceAt_range (text : List Char) (messageOffset : Int) (id : QString)
    (range : Nat × Nat) (ordered : range.1 ≤ range.2) (first : messageOffset ≤ range.1)
    (last : range.2 < messageOffset + text.length) (offsetInt : messageOffset ≤ INT_MAX)
    (contentInt : ((utf16 text).length : Int) ≤ INT_MAX) :
    occurrenceAt getOrCreateEmote id (firstUnits (utf16 text)) (utf16 text) messageOffset
        (rangeText range) = some (some (decoded getOrCreateEmote text messageOffset id range)) := by
  have codePoints := length_le_utf16 text
  have small : (text.length : Int) ≤ UINT_MAX := by
    unfold INT_MAX at contentInt
    unfold UINT_MAX
    omega
  have readFrom : QString.toUInt (number range.1) = range.1 := by
    apply toUInt_number
    unfold INT_MAX at offsetInt contentInt
    unfold UINT_MAX
    omega
  have readTo : QString.toUInt (number range.2) = range.2 := by
    apply toUInt_number
    unfold INT_MAX at offsetInt contentInt
    unfold UINT_MAX
    omega
  have fromValue := uintMinus_inside range.1 text.length messageOffset first (by omega) small
  have toValue := uintMinus_inside range.2 text.length messageOffset (by omega) last small
  have fromInside : (range.1 - messageOffset).toNat < text.length := by omega
  have toInside : (range.2 - messageOffset).toNat < text.length := by omega
  have inRange : ¬((range.2 - messageOffset).toNat < (range.1 - messageOffset).toNat ∨
      (firstUnits (utf16 text)).length ≤ (range.2 - messageOffset).toNat) := by
    rw [firstUnits_utf16, List.length_map, List.length_range]
    omega
  have places : unitOffset text (range.1 - messageOffset).toNat ≤
      unitOffset text (range.2 - messageOffset).toNat := unitOffset_mono text (by omega)
  have placeInside := unitOffset_lt text toInside
  have kept : ¬(unitOffset text (range.2 - messageOffset).toNat <
      unitOffset text (range.1 - messageOffset).toNat ∨
      (utf16 text).length < unitOffset text (range.2 - messageOffset).toNat) := by
    omega
  simp only [occurrenceAt, rangeText_coords, readFrom, readTo, fromValue, toValue, inRange, if_false,
    firstUnits_at text _ fromInside, firstUnits_at text _ toInside, Option.bind_eq_bind,
    Option.bind_some, kept]
  rfl

theorem appendOccurrences_ranges (text : List Char) (messageOffset : Int) (id : QString)
    (ranges : List (Nat × Nat)) (vec : List (TwitchEmoteOccurrence EmotePtr))
    (ordered : ∀ range ∈ ranges, range.1 ≤ range.2) (first : ∀ range ∈ ranges, messageOffset ≤ range.1)
    (last : ∀ range ∈ ranges, range.2 < messageOffset + text.length)
    (offsetInt : messageOffset ≤ INT_MAX) (contentInt : ((utf16 text).length : Int) ≤ INT_MAX) :
    appendOccurrences getOrCreateEmote id (firstUnits (utf16 text)) (utf16 text) messageOffset vec
        (ranges.map rangeText) =
      some (vec ++ ranges.map (decoded getOrCreateEmote text messageOffset id)) := by
  induction ranges generalizing vec with
  | nil => simp [appendOccurrences]
  | cons range ranges ih =>
    rw [List.forall_mem_cons] at ordered first last
    have step := occurrenceAt_range getOrCreateEmote text messageOffset id range ordered.1 first.1
      last.1 offsetInt contentInt
    simp only [List.map_cons, appendOccurrences, step, Option.bind_eq_bind, Option.bind_some,
      ih _ ordered.2 first.2 last.2, List.append_assoc, List.singleton_append]

/-- An emote of the tag leads to what its ranges lead to. -/
theorem appendTwitchEmoteOccurrences_text (content : QString) (messageOffset : Int) (emote : EmoteRanges)
    (plain : u ':' ∉ emote.id) {found : List (TwitchEmoteOccurrence EmotePtr)}
    (each : ∀ vec, appendOccurrences getOrCreateEmote emote.id (firstUnits content) content messageOffset vec
      (emote.ranges.map rangeText) = some (vec ++ found)) (vec : List (TwitchEmoteOccurrence EmotePtr)) :
    appendTwitchEmoteOccurrences getOrCreateEmote emote.text vec (firstUnits content) content messageOffset =
      some (vec ++ found) := by
  have joinedFree : u ':' ∉ join [u ','] (emote.ranges.map rangeText) := by
    apply join_free
    · decide
    · intro part member
      obtain ⟨range, _, rfl⟩ := List.mem_map.mp member
      exact rangeText_free range (u ':') (by decide) (by decide)
  have parameters : emote.text.split (u ':') =
      [emote.id, join [u ','] (emote.ranges.map rangeText)] := by
    rw [EmoteRanges.text, split_append _ _ _ plain, split_free _ _ joinedFree]
  simp only [appendTwitchEmoteOccurrences, parameters]
  by_cases empty : emote.ranges = []
  · -- the text of no ranges is one occurrence without coordinates
    have nothing := each vec
    rw [empty] at nothing ⊢
    exact nothing
  · rw [split_join _ _ (by simpa using empty)]
    · exact each vec
    · intro part member
      obtain ⟨range, _, rfl⟩ := List.mem_map.mp member
      exact rangeText_free range (u ',') (by decide) (by decide)

theorem parse_found (tags : List (QString × QString)) (content : QString) (messageOffset : Int)
    (emotes : List EmoteRanges) (encoded : tags.lookup (qs "emotes") = some (emotesTag emotes))
    (plain : ∀ emote ∈ emotes, u ':' ∉ emote.id ∧ u '/' ∉ emote.id)
    {found : EmoteRanges → List (TwitchEmoteOccurrence EmotePtr)}
    (each : ∀ emote ∈ emotes, ∀ vec, appendOccurrences getOrCreateEmote emote.id (firstUnits content) content
      messageOffset vec (emote.ranges.map rangeText) = some (vec ++ found emote)) :
    parseTwitchEmotes getOrCreateEmote tags content messageOffset = some (emotes.flatMap found) := by
  have parts (nonempty : emotes ≠ []) : (emotesTag emotes).split (u '/') = emotes.map EmoteRanges.text := by
    apply split_join
    · simpa using nonempty
    · intro part member
      obtain ⟨emote, emoteMember, rfl⟩ := List.mem_map.mp member
      have joined : u '/' ∉ join [u ','] (emote.ranges.map rangeText) := by
        apply join_free
        · decide
        · intro occurrence occurrenceMember
          obtain ⟨range, _, rfl⟩ := List.mem_map.mp occurrenceMember
          exact rangeText_free range (u '/') (by decide) (by decide)
      simp only [EmoteRanges.text, List.mem_append, List.mem_cons, joined,
        (plain emote emoteMember).2, or_false, false_or]
      decide
  have appended (vec : List (TwitchEmoteOccurrence EmotePtr)) : (emotes.map EmoteRanges.text).foldlM
      (fun twitchEmotes emote => appendTwitchEmoteOccurrences getOrCreateEmote emote twitchEmotes
        (firstUnits content) content messageOffset) vec = some (vec ++ emotes.flatMap found) := by
    clear encoded parts
    induction emotes generalizing vec with
    | nil => simp
    | cons emote emotes ih =>
      rw [List.forall_mem_cons] at plain each
      have step := appendTwitchEmoteOccurrences_text getOrCreateEmote content messageOffset emote plain.1.1 each.1 vec
      rw [List.map_cons, List.foldlM_cons, step, Option.bind_eq_bind, Option.bind_some, ih plain.2 each.2,
        List.flatMap_cons, List.append_assoc]
  rw [parseTwitchEmotes, encoded]
  by_cases empty : emotes = []
  · subst empty
    rfl
  · simp only [parts empty]
    exact appended []

theorem parse_encoded (tags : List (QString × QString)) (text : List Char) (messageOffset : Int)
    (emotes : List EmoteRanges) (encoded : tags.lookup (qs "emotes") = some (emotesTag emotes))
    (inside : ∀ emote ∈ emotes, emote.Inside text messageOffset)
    (offsetInt : messageOffset ≤ INT_MAX) (contentInt : ((utf16 text).length : Int) ≤ INT_MAX) :
    parseTwitchEmotes getOrCreateEmote tags (utf16 text) messageOffset =
      some (emotes.flatMap fun emote =>
        emote.ranges.map (decoded getOrCreateEmote text messageOffset emote.id)) := by
  apply parse_found getOrCreateEmote tags _ messageOffset emotes encoded fun emote member => (inside emote member).plain
  intro emote member vec
  have ranges := inside emote member
  exact appendOccurrences_ranges getOrCreateEmote text messageOffset emote.id emote.ranges vec
    ranges.ordered ranges.first ranges.last offsetInt contentInt

/-! ## What a range is decoded to -/

/-- The occurrence of a range of code points: it starts at the first of them, is spelled by the
content, and, where its last code point is a single unit, holds exactly these code points. -/
structure Decodes (text : List Char) (messageOffset : Int) (range : QString × Nat × Nat)
    (occurrence : TwitchEmoteOccurrence EmotePtr) : Prop where
  first : occurrence.start = unitOffset text (range.2.1 - messageOffset).toNat
  exact_ : occurrence.Exact (utf16 text)
  pointer : occurrence.ptr = getOrCreateEmote range.1 occurrence.name
  whole : ∀ c, text[(range.2.2 - messageOffset).toNat]? = some c → (units c).length = 1 →
    occurrence.end_ + 1 = unitOffset text ((range.2.2 - messageOffset).toNat + 1) ∧
      occurrence.name = utf16 ((text.drop (range.2.1 - messageOffset).toNat).take
        (range.2.2 - range.2.1 + 1))

theorem decoded_decodes (text : List Char) (messageOffset : Int) (id : QString) (range : Nat × Nat)
    (ordered : range.1 ≤ range.2) (first : messageOffset ≤ range.1)
    (last : range.2 < messageOffset + text.length) :
    Decodes getOrCreateEmote text messageOffset (id, range)
      (decoded getOrCreateEmote text messageOffset id range) := by
  have toInside : (range.2 - messageOffset).toNat < text.length := by omega
  have places : unitOffset text (range.1 - messageOffset).toNat ≤
      unitOffset text (range.2 - messageOffset).toNat := unitOffset_mono text (by omega)
  have placeInside := unitOffset_lt text toInside
  constructor
  case first => rfl
  case exact_ =>
    constructor
    case nonnegative => exact Int.natCast_nonneg _
    case ordered => exact Int.ofNat_le.mpr places
    case inside => exact Int.ofNat_lt.mpr placeInside
    case spelled =>
      have length : (((unitOffset text (range.2 - messageOffset).toNat : Nat) : Int) -
          (unitOffset text (range.1 - messageOffset).toNat : Nat) + 1).toNat =
          unitOffset text (range.2 - messageOffset).toNat -
            unitOffset text (range.1 - messageOffset).toNat + 1 := by
        omega
      simp only [decoded, decodedAt, TwitchEmoteOccurrence.length, length, Int.toNat_natCast]
  case pointer => rfl
  case whole =>
    intro c lastCodePoint single
    obtain ⟨_, rfl⟩ := List.getElem?_eq_some_iff.mp lastCodePoint
    have next := unitOffset_succ text _ toInside
    rw [single] at next
    constructor
    · simp only [decoded, decodedAt, next]
      rfl
    · have ends : unitOffset text (range.2 - messageOffset).toNat -
          unitOffset text (range.1 - messageOffset).toNat + 1 =
          unitOffset text ((range.2 - messageOffset).toNat + 1) -
            unitOffset text (range.1 - messageOffset).toNat := by
        omega
      have count : (range.2 - messageOffset).toNat + 1 - (range.1 - messageOffset).toNat =
          range.2 - range.1 + 1 := by
        omega
      simp only [decoded, decodedAt, ends]
      rw [midN_utf16 text (by omega), count]

/-- A tag of ranges gives one occurrence for each of them in the order of the tag, and no tag
leads outside of the content. -/
theorem parseTwitchEmotes_decodes (tags : List (QString × QString)) (content : QString)
    (messageOffset : Int) :
    (∀ (text : List Char) (emotes : List EmoteRanges), content = utf16 text →
      tags.lookup (qs "emotes") = some (emotesTag emotes) →
      (∀ emote ∈ emotes, emote.Inside text messageOffset) →
      messageOffset ≤ INT_MAX → (content.length : Int) ≤ INT_MAX →
      ∃ result, parseTwitchEmotes getOrCreateEmote tags content messageOffset = some result ∧
        List.Forall₂ (Decodes getOrCreateEmote text messageOffset)
          (emotes.flatMap fun emote => emote.ranges.map fun range => (emote.id, range)) result) ∧
    ∃ result, parseTwitchEmotes getOrCreateEmote tags content messageOffset = some result ∧
      ∀ occurrence ∈ result, occurrence.Exact content := by
  constructor
  · intro text emotes wellFormed encoded inside offsetInt contentInt
    subst wellFormed
    refine ⟨_, parse_encoded getOrCreateEmote tags text messageOffset emotes encoded inside offsetInt
      contentInt, ?_⟩
    have perRange : (emotes.flatMap fun emote =>
        emote.ranges.map (decoded getOrCreateEmote text messageOffset emote.id)) =
        (emotes.flatMap fun emote => emote.ranges.map fun range => (emote.id, range)).map
          fun range => decoded getOrCreateEmote text messageOffset range.1 range.2 := by
      rw [List.map_flatMap]
      congr 1
      funext emote
      rw [List.map_map]
      rfl
    rw [perRange, List.forall₂_map_right_iff, List.forall₂_same]
    intro range member
    obtain ⟨emote, emoteMember, rangeMember⟩ := List.mem_flatMap.mp member
    obtain ⟨places, placesMember, rfl⟩ := List.mem_map.mp rangeMember
    have ranges := inside emote emoteMember
    exact decoded_decodes getOrCreateEmote text messageOffset emote.id places
      (ranges.ordered places placesMember) (ranges.first places placesMember)
      (ranges.last places placesMember)
  · exact parse_inside getOrCreateEmote tags content messageOffset

end

/-- Two emotes on one message, each of them with its own ranges. -/
def twoEmotes : List EmoteRanges := [⟨qs "25", [(0, 4), (12, 16)]⟩, ⟨qs "1902", [(6, 10)]⟩]

theorem parse_twoEmotes :
    ∃ result, parseTwitchEmotes (fun id _ => id) [(qs "emotes", qs "25:0-4,12-16/1902:6-10")]
        (utf16 "Kappa Keepo Kappa".toList) 0 = some result ∧
      List.Forall₂ (Decodes (fun id _ => id) "Kappa Keepo Kappa".toList 0)
        [(qs "25", 0, 4), (qs "25", 12, 16), (qs "1902", 6, 10)] result := by
  apply (parseTwitchEmotes_decodes (fun id _ => id)
    [(qs "emotes", qs "25:0-4,12-16/1902:6-10")] (utf16 "Kappa Keepo Kappa".toList) 0).1
    "Kappa Keepo Kappa".toList twoEmotes rfl
  · decide
  · intro emote member
    simp only [twoEmotes, List.mem_cons, List.not_mem_nil, or_false] at member
    rcases member with rfl | rfl
    · exact ⟨by decide, by decide, by decide, by decide⟩
    · exact ⟨by decide, by decide, by decide, by decide⟩
  · decide
  · decide

/-- The tag groups the ranges by emote, so they are not in the order of the content, and a range
that ends in a surrogate pair ends before the second unit of the pair. -/
theorem parse_not_sorted_nor_whole :
    (∃ result, parseTwitchEmotes (fun id _ => id) [(qs "emotes", qs "25:0-4,12-16/1902:6-10")]
        (utf16 "Kappa Keepo Kappa".toList) 0 = some result ∧
      ¬ result.Pairwise fun a b => a.start ≤ b.start) ∧
    ∃ occurrence, parseTwitchEmotes (fun id _ => id) [(qs "emotes", qs "1:0-0")]
        (utf16 [Char.ofNat 0x1F602]) 0 = some [occurrence] ∧
      occurrence.start = 0 ∧ occurrence.end_ + 1 < unitOffset [Char.ofNat 0x1F602] 1 := by
  constructor
  · refine ⟨_, rfl, ?_⟩
    decide
  · exact ⟨_, rfl, by decide, by decide⟩

end Forserino.Emotes
