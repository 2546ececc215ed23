import Forserino.Qt.Utf16

/-! Where the Twitch emotes of a message are, and the emotes tag that says so.

The cache of emotes is a parameter; it only turns an id and a name into a pointer.
-/

set_option autoImplicit false

namespace Forserino.Emotes

open Forserino.Qt

/-- The units from start to end_, the last one included, are the emote. -/
structure TwitchEmoteOccurrence (EmotePtr : Type) where
  start : Int
  end_ : Int
  ptr : EmotePtr
  name : QString
  deriving DecidableEq, Repr

section
variable {EmotePtr : Type}

def TwitchEmoteOccurrence.length (occurrence : TwitchEmoteOccurrence EmotePtr) : Nat :=
  (occurrence.end_ - occurrence.start + 1).toNat

/-- The occurrence lies inside of the content, which spells its name there. -/
structure TwitchEmoteOccurrence.Exact (content : QString)
    (occurrence : TwitchEmoteOccurrence EmotePtr) : Prop where
  nonnegative : 0 ≤ occurrence.start
  ordered : occurrence.start ≤ occurrence.end_
  inside : occurrence.end_ < content.length
  spelled : occurrence.name = content.midN occurrence.start.toNat occurrence.length

/-- The difference of a uint and an int is a uint. -/
def uintMinus (n : Nat) (messageOffset : Int) : Nat := ((n - messageOffset) % 4294967296).toNat

variable (getOrCreateEmote : QString → QString → EmotePtr)

/-- One turn of the loop over the occurrences of an emote: a value to push, or some none
where the function returns. There is no result where correctPositions is read outside of
its bounds. -/
def occurrenceAt (id : QString) (correctPositions : List Nat) (originalMessage : QString)
    (messageOffset : Int) (occurrence : QString) :
    Option (Option (TwitchEmoteOccurrence EmotePtr)) :=
  match occurrence.split (u '-') with
  | coordFrom :: coordTo :: _ =>
      let from_ := uintMinus coordFrom.toUInt messageOffset
      let to_ := uintMinus coordTo.toUInt messageOffset
      if to_ < from_ ∨ correctPositions.length ≤ to_ then some none
      else do
        let start ← correctPositions[from_]?
        let end_ ← correctPositions[to_]?
        if end_ < start ∨ originalMessage.length < end_ then return none
        let name := originalMessage.midN start (end_ - start + 1)
        return some ⟨start, end_, getOrCreateEmote id name, name⟩
  | _ => some none

/-- The loop ends at the first occurrence that it returns for. -/
def appendOccurrences (id : QString) (correctPositions : List Nat) (originalMessage : QString)
    (messageOffset : Int) (vec : List (TwitchEmoteOccurrence EmotePtr)) :
    List QString → Option (List (TwitchEmoteOccurrence EmotePtr))
  | [] => some vec
  | occurrence :: occurrences => do
      match ← occurrenceAt getOrCreateEmote id correctPositions originalMessage messageOffset
        occurrence with
      | none => return vec
      | some emoteOccurrence =>
          appendOccurrences id correctPositions originalMessage messageOffset
            (vec ++ [emoteOccurrence]) occurrences

def appendTwitchEmoteOccurrences (emote : QString) (vec : List (TwitchEmoteOccurrence EmotePtr))
    (correctPositions : List Nat) (originalMessage : QString) (messageOffset : Int) :
    Option (List (TwitchEmoteOccurrence EmotePtr)) :=
  match emote.split (u ':') with
  | id :: occurrences :: _ =>
      appendOccurrences getOrCreateEmote id correctPositions originalMessage messageOffset vec
        (occurrences.split (u ','))
  -- Without a colon there is one parameter only.
  | _ => some vec

def parseTwitchEmotes (tags : List (QString × QString)) (content : QString)
    (messageOffset : Int) : Option (List (TwitchEmoteOccurrence EmotePtr)) :=
  match tags.lookup (qs "emotes") with
  | none => some []
  | some emotesTag =>
      (emotesTag.split (u '/')).foldlM
        (fun twitchEmotes emote => appendTwitchEmoteOccurrences getOrCreateEmote emote twitchEmotes
          (firstUnits content) content messageOffset) []

end

/-! ## What a tag encodes -/

/-- The places of one emote, in code points and with both ends included. -/
structure EmoteRanges where
  id : QString
  ranges : List (Nat × Nat)
  deriving DecidableEq, Repr

def rangeText (range : Nat × Nat) : QString := number range.1 ++ u '-' :: number range.2

def EmoteRanges.text (emote : EmoteRanges) : QString :=
  emote.id ++ u ':' :: join [u ','] (emote.ranges.map rangeText)

def emotesTag (emotes : List EmoteRanges) : QString := join [u '/'] (emotes.map EmoteRanges.text)

/-- Every range is a nonempty part of the text, which begins at the offset. -/
structure EmoteRanges.Inside (text : List Char) (messageOffset : Int) (emote : EmoteRanges) :
    Prop where
  plain : u ':' ∉ emote.id ∧ u '/' ∉ emote.id
  ordered : ∀ range ∈ emote.ranges, range.1 ≤ range.2
  first : ∀ range ∈ emote.ranges, messageOffset ≤ range.1
  last : ∀ range ∈ emote.ranges, range.2 < messageOffset + text.length

end Forserino.Emotes
