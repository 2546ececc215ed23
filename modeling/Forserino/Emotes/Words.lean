import Forserino.Emotes.Occurrences

/-! The words of a message and the emotes among them, as the message builder emits them.

A text stands for what is handed to the emoji parser; its segments go on to addEmoji and
addTextOrEmote. The place of the next emote is an iterator in the source, here the rest of
the list.
-/

set_option autoImplicit false

namespace Forserino.Emotes

open Forserino.Qt

inductive Piece (EmotePtr : Type) where
  | emote (occurrence : TwitchEmoteOccurrence EmotePtr) (trailingSpace : Bool)
  | text (text : QString)
  deriving DecidableEq, Repr

structure WordLoop (EmotePtr : Type) where
  cursor : Int
  word : QString
  rest : List (TwitchEmoteOccurrence EmotePtr)
  elements : List (Piece EmotePtr)
  deriving DecidableEq, Repr

section
variable {EmotePtr : Type}

def doesWordContainATwitchEmote (cursor : Int) (word : QString) :
    List (TwitchEmoteOccurrence EmotePtr) → Bool
  | [] => false
  | currentTwitchEmote :: _ =>
      let wordEnd := cursor + word.length
      !(currentTwitchEmote.start < cursor || wordEnd < currentTwitchEmote.end_)

/-- The loop over the emotes of one word, with one unit of fuel for each turn. -/
def emotesLoop : Nat → WordLoop EmotePtr → Option (WordLoop EmotePtr)
  | 0, _ => none
  | fuel + 1, loop =>
      match loop.rest with
      | [] => some loop
      | currentTwitchEmote :: rest =>
          if !doesWordContainATwitchEmote loop.cursor loop.word (currentTwitchEmote :: rest) then
            some loop
          else if currentTwitchEmote.start = loop.cursor then
            let len := currentTwitchEmote.name.length
            let word := loop.word.mid len
            -- Behind the last emote of a word the cursor also passes the space.
            if word.isEmpty then
              some ⟨loop.cursor + len + 1, word, rest,
                loop.elements ++ [.emote currentTwitchEmote true]⟩
            else
              emotesLoop fuel ⟨loop.cursor + len, word, rest,
                loop.elements ++ [.emote currentTwitchEmote false]⟩
          else
            let preText := loop.word.take (currentTwitchEmote.start - loop.cursor).toNat
            emotesLoop fuel ⟨loop.cursor + preText.length, loop.word.mid preText.length, loop.rest,
              loop.elements ++ [.text preText]⟩

def addWord (fuel : Nat) (loop : WordLoop EmotePtr) (word : QString) : Option (WordLoop EmotePtr) :=
  if word.isEmpty then some { loop with cursor := loop.cursor + 1 }
  else do
    let loop ← emotesLoop fuel { loop with word }
    if loop.word.isEmpty then return loop
    return { loop with
      cursor := loop.cursor + loop.word.length + 1
      elements := loop.elements ++ [.text loop.word] }

def addWords (fuel : Nat) (words : List QString)
    (twitchEmotes : List (TwitchEmoteOccurrence EmotePtr)) : Option (List (Piece EmotePtr)) :=
  (words.foldlM (addWord fuel) ⟨0, [], twitchEmotes, []⟩).map WordLoop.elements

/-! ## What the elements should be -/

def Piece.spell : Piece EmotePtr → QString
  | .emote occurrence _ => occurrence.name
  | .text units => units

def Piece.occurrence? : Piece EmotePtr → Option (TwitchEmoteOccurrence EmotePtr)
  | .emote occurrence _ => some occurrence
  | .text _ => none

def spelled (pieces : List (Piece EmotePtr)) : QString := pieces.flatMap Piece.spell

def emitted (pieces : List (Piece EmotePtr)) : List (TwitchEmoteOccurrence EmotePtr) :=
  pieces.filterMap Piece.occurrence?

/-- The elements are cut into one group for each word, and each group spells its word. -/
def Reproduces (words : List QString) (elements : List (Piece EmotePtr)) : Prop :=
  ∃ groups : List (List (Piece EmotePtr)), groups.flatten = elements ∧ groups.map spelled = words

/-- Words are what is between the spaces. -/
def InOneWord (content : QString) (occurrence : TwitchEmoteOccurrence EmotePtr) : Prop :=
  u ' ' ∉ content.midN occurrence.start.toNat occurrence.length

def EmittedOnce [DecidableEq EmotePtr] (content : QString)
    (occurrences : List (TwitchEmoteOccurrence EmotePtr)) (elements : List (Piece EmotePtr)) : Prop :=
  ∀ front occurrence later, occurrences = front ++ occurrence :: later →
    InOneWord content occurrence →
    (∀ earlier ∈ front, earlier ∈ emitted elements → earlier.end_ < occurrence.start) →
    (emitted elements).count occurrence = 1

/-! ## When they are -/

/-- The occurrence is in one word and starts behind the last emitted one. -/
def Follows (bound : Int) (occurrence : TwitchEmoteOccurrence EmotePtr) : Prop :=
  bound ≤ occurrence.start ∧ u ' ' ∉ occurrence.name

/-- The occurrence ends with the space directly behind a word that is not used up yet. -/
def Touches (content : QString) (bound : Int) (occurrence : TwitchEmoteOccurrence EmotePtr) : Prop :=
  bound ≤ occurrence.start ∧ bound < occurrence.end_ ∧
    occurrence.name.getLast? = some (u ' ') ∧ u ' ' ∉ occurrence.name.dropLast ∧
    content[(occurrence.end_ - 1).toNat]? ≠ some (u ' ')

instance (bound : Int) (occurrence : TwitchEmoteOccurrence EmotePtr) :
    Decidable (Follows bound occurrence) := inferInstanceAs (Decidable (_ ∧ _))

instance (content : QString) (bound : Int) (occurrence : TwitchEmoteOccurrence EmotePtr) :
    Decidable (Touches content bound occurrence) := inferInstanceAs (Decidable (_ ∧ _))

/-- The first occurrence that does not follow the ones before it does not end with the space
behind an unfinished word, and none of the later ones is in one word and behind those before it.
The bound is where the last occurrence that follows has ended. -/
def Unhindered (content : QString) (bound : Int) : List (TwitchEmoteOccurrence EmotePtr) → Prop
  | [] => True
  | occurrence :: later =>
      if Follows bound occurrence then Unhindered content (occurrence.end_ + 1) later
      else ¬ Touches content bound occurrence ∧ ∀ other ∈ later, ¬ Follows bound other

end

end Forserino.Emotes
