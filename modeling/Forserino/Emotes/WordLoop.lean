import Forserino.Emotes.Words

/-! The loop over the words of a message, against the content that the words come from.

Between two turns the cursor is a place of the content. An occurrence that is taken follows
the ones taken before it; one that ends with the space behind its word is taken as well, and
then a piece holds a space that no word has.
-/

set_option autoImplicit false

namespace Forserino.Emotes

open Forserino.Qt

section
variable {EmotePtr : Type}

/-! ## Occurrences that are spelled by the content -/

section
variable {content : QString} {occurrence : TwitchEmoteOccurrence EmotePtr}

theorem TwitchEmoteOccurrence.Exact.places (spelled : occurrence.Exact content) :
    ∃ first last : Nat, occurrence.start = first ∧ occurrence.end_ = last ∧ first ≤ last ∧
      last < content.length ∧ occurrence.name = content.midN first (last - first + 1) := by
  have nonnegative := spelled.nonnegative
  have ordered := spelled.ordered
  have inside := spelled.inside
  have length : occurrence.length = occurrence.end_.toNat - occurrence.start.toNat + 1 := by
    unfold TwitchEmoteOccurrence.length
    omega
  refine ⟨occurrence.start.toNat, occurrence.end_.toNat, by omega, by omega, by omega, by omega, ?_⟩
  rw [← length]
  exact spelled.spelled

end

theorem midN_getElem? (s : QString) (position n k : Nat) :
    (s.midN position n)[k]? = if k < n then s[position + k]? else none := by
  rw [QString.midN, List.getElem?_take]
  split
  · rw [List.getElem?_drop]
  · rfl

/-- The units of a name are those of the content. -/
theorem mem_midN_iff {s : QString} {first last : Nat} {c : QChar} (ordered : first ≤ last) :
    c ∈ s.midN first (last - first + 1) ↔ ∃ k, first ≤ k ∧ k ≤ last ∧ s[k]? = some c := by
  rw [List.mem_iff_getElem?]
  constructor
  · rintro ⟨i, found⟩
    rw [midN_getElem?] at found
    split at found
    · next small => exact ⟨first + i, Nat.le_add_right _ _, by omega, found⟩
    · cases found
  · rintro ⟨k, lower, upper, found⟩
    refine ⟨k - first, ?_⟩
    rw [midN_getElem?, if_pos (by omega), Nat.add_sub_cancel' lower]
    exact found

theorem midN_dropLast (s : QString) (first n : Nat) (inside : first + n < s.length) :
    (s.midN first (n + 1)).dropLast = s.midN first n := by
  have length : (s.midN first (n + 1)).length = n + 1 := by
    simp only [QString.midN, List.length_take, List.length_drop]
    omega
  rw [List.dropLast_eq_take, length, Nat.add_sub_cancel, QString.midN, QString.midN, List.take_take,
    Nat.min_eq_left (Nat.le_succ n)]

theorem midN_getLast? (s : QString) (first n : Nat) (inside : first + n < s.length) :
    (s.midN first (n + 1)).getLast? = s[first + n]? := by
  rw [List.getLast?_eq_getElem?]
  have length : (s.midN first (n + 1)).length = n + 1 := by
    simp only [QString.midN, List.length_take, List.length_drop]
    omega
  rw [length, Nat.add_sub_cancel, midN_getElem?, if_pos (Nat.lt_succ_self n)]

/-! ## Pieces -/

@[simp] theorem spelled_nil : spelled ([] : List (Piece EmotePtr)) = [] := rfl

@[simp] theorem spelled_cons (piece : Piece EmotePtr) (pieces : List (Piece EmotePtr)) :
    spelled (piece :: pieces) = piece.spell ++ spelled pieces := List.flatMap_cons

@[simp] theorem spelled_append (front back : List (Piece EmotePtr)) :
    spelled (front ++ back) = spelled front ++ spelled back := List.flatMap_append

@[simp] theorem emitted_append (front back : List (Piece EmotePtr)) :
    emitted (front ++ back) = emitted front ++ emitted back := List.filterMap_append

@[simp] theorem emitted_nil : emitted ([] : List (Piece EmotePtr)) = [] := rfl

@[simp] theorem emitted_text (units : QString) (pieces : List (Piece EmotePtr)) :
    emitted (.text units :: pieces) = emitted pieces := rfl

@[simp] theorem emitted_emote (occurrence : TwitchEmoteOccurrence EmotePtr) (trailingSpace : Bool)
    (pieces : List (Piece EmotePtr)) :
    emitted (.emote occurrence trailingSpace :: pieces) = occurrence :: emitted pieces := rfl

theorem name_subset_spelled {pieces : List (Piece EmotePtr)}
    {occurrence : TwitchEmoteOccurrence EmotePtr} (member : occurrence ∈ emitted pieces) :
    occurrence.name ⊆ spelled pieces := by
  obtain ⟨piece, pieceMember, shape⟩ := List.mem_filterMap.mp member
  cases piece with
  | text units => cases shape
  | emote taken trailingSpace =>
    obtain rfl := Option.some.inj shape
    intro c inside
    exact List.mem_flatMap.mpr ⟨_, pieceMember, inside⟩

/-! ## Occurrences that follow one another -/

/-- Each occurrence follows the one before it, and the last one ends before the new bound. -/
def Chain : Int → List (TwitchEmoteOccurrence EmotePtr) → Int → Prop
  | bound, [], reached => reached = bound
  | bound, occurrence :: rest, reached =>
      Follows bound occurrence ∧ Chain (occurrence.end_ + 1) rest reached

theorem Chain.append {bound middle reached : Int} {front back : List (TwitchEmoteOccurrence EmotePtr)}
    (first : Chain bound front middle) (second : Chain middle back reached) :
    Chain bound (front ++ back) reached := by
  induction front generalizing bound with
  | nil =>
    subst first
    exact second
  | cons occurrence front ih => exact ⟨first.1, ih first.2⟩

theorem unhindered_chain {content : QString} {bound reached : Int}
    {taken rest : List (TwitchEmoteOccurrence EmotePtr)} (chain : Chain bound taken reached) :
    Unhindered content bound (taken ++ rest) ↔ Unhindered content reached rest := by
  induction taken generalizing bound with
  | nil =>
    subst chain
    exact Iff.rfl
  | cons occurrence taken ih =>
    rw [List.cons_append, Unhindered, if_pos chain.1]
    exact ih chain.2

/-- The next occurrence is still ahead of the place, if it can be taken at all. -/
def Ahead (content : QString) (bound : Int) (place : Nat)
    (rest : List (TwitchEmoteOccurrence EmotePtr)) : Prop :=
  ∀ occurrence later, rest = occurrence :: later →
    Follows bound occurrence ∨ Touches content bound occurrence → (place : Int) ≤ occurrence.start

/-- Directly behind the last emote nothing has been passed. -/
theorem ahead_of_bound (content : QString) {bound : Int} {place : Nat} (same : bound = place)
    (rest : List (TwitchEmoteOccurrence EmotePtr)) : Ahead content bound place rest := by
  rintro occurrence later _ (follows | touches)
  · exact same ▸ follows.1
  · exact same ▸ touches.1

/-- What is left of a word begins at the place, and the word ends there or before a space. -/
structure AtWord (content : QString) (bound : Int) (place : Nat) (word tail : QString)
    (rest : List (TwitchEmoteOccurrence EmotePtr)) : Prop where
  exact_ : ∀ occurrence ∈ rest, occurrence.Exact content
  inside : place ≤ content.length
  here : content.drop place = word ++ tail
  ends : tail = [] ∨ ∃ others, tail = u ' ' :: others
  plain : u ' ' ∉ word
  reached : bound ≤ place
  ahead : Ahead content bound place rest

section
variable {content word tail : QString} {bound : Int} {place : Nat}
  {rest : List (TwitchEmoteOccurrence EmotePtr)}

theorem AtWord.length (at_ : AtWord content bound place word tail rest) :
    content.length = place + word.length + tail.length := by
  have lengths := congrArg List.length at_.here
  have inside := at_.inside
  rw [List.length_drop, List.length_append] at lengths
  omega

theorem AtWord.unit (at_ : AtWord content bound place word tail rest) (k : Nat) :
    content[place + k]? = (word ++ tail)[k]? := by
  rw [← at_.here, List.getElem?_drop]

/-- Behind the word the content has ended or has a space. -/
theorem AtWord.space (at_ : AtWord content bound place word tail rest)
    (more : place + word.length < content.length) :
    content[place + word.length]? = some (u ' ') := by
  rw [at_.unit, List.getElem?_append_right (Nat.le_refl _), Nat.sub_self]
  rcases at_.ends with rfl | ⟨others, rfl⟩
  · have length := at_.length
    simp only [List.length_nil] at length
    omega
  · rfl

theorem AtWord.plainUnit (at_ : AtWord content bound place word tail rest) {k : Nat}
    (lower : place ≤ k) (upper : k < place + word.length) : content[k]? ≠ some (u ' ') := by
  have unit := at_.unit (k - place)
  rw [Nat.add_sub_cancel' lower, List.getElem?_append_left (by omega)] at unit
  rw [unit]
  intro found
  exact at_.plain (List.mem_of_getElem? found)

/-- An occurrence across the end of the word has a space before its last unit. -/
theorem AtWord.crossing (at_ : AtWord content bound place word tail rest)
    {occurrence : TwitchEmoteOccurrence EmotePtr} (spelled : occurrence.Exact content)
    (before : occurrence.start ≤ (place + word.length : Nat))
    (behind : ((place + word.length : Nat) : Int) < occurrence.end_) :
    u ' ' ∈ occurrence.name.dropLast := by
  obtain ⟨first, last, start, end_, ordered, inside, name⟩ := spelled.places
  have space := at_.space (by omega)
  rw [name, midN_dropLast _ _ _ (by omega)]
  have count : last - first = (last - 1) - first + 1 := by omega
  rw [count, mem_midN_iff (by omega)]
  exact ⟨place + word.length, by omega, by omega, space⟩

theorem not_taken_of_space {occurrence : TwitchEmoteOccurrence EmotePtr}
    (space : u ' ' ∈ occurrence.name.dropLast) :
    ¬ (Follows bound occurrence ∨ Touches content bound occurrence) := by
  rintro (follows | touches)
  · exact follows.2 (List.dropLast_subset _ space)
  · exact touches.2.2.2.1 space

/-- Where the next emote does not fit into a word, it is not taken before the next word. -/
theorem AtWord.ahead_past (at_ : AtWord content bound place word tail rest)
    (unfit : ∀ occurrence later, rest = occurrence :: later →
      Follows bound occurrence ∨ Touches content bound occurrence →
      (place : Int) ≤ occurrence.start → ((place + word.length : Nat) : Int) < occurrence.end_) :
    Ahead content bound (place + word.length + 1) rest := by
  intro occurrence later shape taken
  have lower := at_.ahead occurrence later shape taken
  have upper := unfit occurrence later shape taken lower
  by_contra close
  have spelled := at_.exact_ occurrence (by rw [shape]; exact List.mem_cons_self)
  have space := at_.crossing spelled (by push_cast at close ⊢; omega) upper
  exact not_taken_of_space space taken

/-- Only an emote that is a space itself ends before what follows an empty rest of a word. -/
theorem AtWord.ahead_empty (at_ : AtWord content bound place [] tail rest)
    (used : bound = place ∨ place = 0 ∧ bound = 0 ∨ content[place - 1]? = some (u ' ')) :
    Ahead content bound (place + 1) rest := by
  apply at_.ahead_past
  intro occurrence later shape taken lower
  have spelled := at_.exact_ occurrence (by rw [shape]; exact List.mem_cons_self)
  obtain ⟨first, last, start, end_, ordered, inside, name⟩ := spelled.places
  by_contra short
  simp only [List.length_nil, Nat.add_zero] at short
  have single : first = place ∧ last = place := by omega
  have space := at_.space (by simp only [List.length_nil]; omega)
  rcases taken with follows | touches
  · apply follows.2
    rw [name, mem_midN_iff ordered]
    exact ⟨place, by omega, by omega, space⟩
  · have behind := touches.2.1
    have notSpace := touches.2.2.2.2
    have before : (occurrence.end_ - 1).toNat = place - 1 := by omega
    rw [before] at notSpace
    rcases used with same | ⟨zero, bounded⟩ | separated
    · omega
    · omega
    · exact notSpace separated

/-- What is left behind a part of the word. -/
theorem AtWord.drop (at_ : AtWord content bound place word tail rest) {k : Nat}
    (within : k ≤ word.length) {reached : Int} {later : List (TwitchEmoteOccurrence EmotePtr)}
    (fewer : later ⊆ rest) (passed : reached ≤ (place + k : Nat))
    (ahead : Ahead content reached (place + k) later) :
    AtWord content reached (place + k) (word.mid k) tail later := by
  have length := at_.length
  constructor
  case exact_ =>
    intro occurrence member
    exact at_.exact_ occurrence (fewer member)
  case inside => omega
  case here =>
    have split := congrArg (List.drop k) at_.here
    rw [List.drop_drop, List.drop_append_of_le_length within] at split
    exact split
  case ends => exact at_.ends
  case plain =>
    intro space
    exact at_.plain (List.mem_of_mem_drop space)
  case reached => exact passed
  case ahead => exact ahead

/-- An emote that ends with the space behind the word touches it. -/
theorem AtWord.touches (at_ : AtWord content bound place word tail rest) (nonempty : word ≠ [])
    {occurrence : TwitchEmoteOccurrence EmotePtr} (spelled : occurrence.Exact content)
    (lower : (place : Int) ≤ occurrence.start)
    (meets : occurrence.end_ = (place + word.length : Nat)) :
    Touches content bound occurrence := by
  obtain ⟨first, last, start, end_, ordered, inside, name⟩ := spelled.places
  have positive := List.length_pos_of_ne_nil nonempty
  have reached := at_.reached
  have space := at_.space (by omega)
  have lastPlace : last = place + word.length := by omega
  have count : last - first + 1 = (last - first) + 1 := rfl
  refine ⟨by omega, by omega, ?_, ?_, ?_⟩
  · rw [name, midN_getLast? _ _ _ (by omega), Nat.add_sub_cancel' ordered, lastPlace]
    exact space
  · rw [name, midN_dropLast _ _ _ (by omega)]
    by_cases empty : last - first = 0
    · rw [empty]
      simp [QString.midN]
    · have shorter : last - first = (last - 1) - first + 1 := by omega
      rw [shorter, mem_midN_iff (by omega)]
      rintro ⟨k, kLower, kUpper, found⟩
      exact at_.plainUnit (by omega) (by omega) found
  · have before : (occurrence.end_ - 1).toNat = last - 1 := by omega
    rw [before]
    exact at_.plainUnit (by omega) (by omega)

/-- An emote that ends inside of the word is a part of it. -/
theorem AtWord.name_eq (at_ : AtWord content bound place word tail rest)
    {occurrence : TwitchEmoteOccurrence EmotePtr} (spelled : occurrence.Exact content)
    (lower : (place : Int) ≤ occurrence.start)
    (upper : occurrence.end_ < (place + word.length : Nat)) :
    occurrence.name = word.midN (occurrence.start - place).toNat occurrence.length := by
  obtain ⟨first, last, start, end_, ordered, inside, name⟩ := spelled.places
  have skip : (occurrence.start - place).toNat = first - place := by omega
  have count : occurrence.length = last - first + 1 := by
    unfold TwitchEmoteOccurrence.length
    omega
  have behind : content.drop first = word.drop (first - place) ++ tail := by
    have split := congrArg (List.drop (first - place)) at_.here
    rw [List.drop_drop, Nat.add_sub_cancel' (by omega),
      List.drop_append_of_le_length (by omega)] at split
    exact split
  rw [name, skip, count, QString.midN, QString.midN, behind,
    List.take_append_of_le_length (by rw [List.length_drop]; omega)]

theorem AtWord.follows (at_ : AtWord content bound place word tail rest)
    {occurrence : TwitchEmoteOccurrence EmotePtr} (spelled : occurrence.Exact content)
    (lower : (place : Int) ≤ occurrence.start)
    (upper : occurrence.end_ < (place + word.length : Nat)) : Follows bound occurrence := by
  constructor
  · exact Int.le_trans at_.reached lower
  · rw [at_.name_eq spelled lower upper]
    intro space
    exact at_.plain (List.mem_of_mem_drop (List.mem_of_mem_take space))

end

end

end Forserino.Emotes
