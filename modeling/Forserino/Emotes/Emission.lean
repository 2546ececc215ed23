import Mathlib.Data.List.Nodup
import Forserino.Emotes.WordLoop

/-! Every word is reproduced and every emote is emitted once, exactly when no occurrence is in
the way of the later ones.
-/

set_option autoImplicit false

namespace Forserino.Emotes

open Forserino.Qt

section
variable {EmotePtr : Type}

/-! ## One turn of the loop -/

def WordLoop.Fits (loop : WordLoop EmotePtr) (occurrence : TwitchEmoteOccurrence EmotePtr) : Prop :=
  loop.cursor ≤ occurrence.start ∧ occurrence.end_ ≤ loop.cursor + loop.word.length

/-- The emote at the cursor was the last thing of its word. -/
def WordLoop.finished (loop : WordLoop EmotePtr) (occurrence : TwitchEmoteOccurrence EmotePtr)
    (rest : List (TwitchEmoteOccurrence EmotePtr)) : WordLoop EmotePtr :=
  ⟨loop.cursor + occurrence.name.length + 1, [], rest, loop.elements ++ [.emote occurrence true]⟩

def WordLoop.behindEmote (loop : WordLoop EmotePtr) (occurrence : TwitchEmoteOccurrence EmotePtr)
    (rest : List (TwitchEmoteOccurrence EmotePtr)) : WordLoop EmotePtr :=
  ⟨loop.cursor + occurrence.name.length, loop.word.mid occurrence.name.length, rest,
    loop.elements ++ [.emote occurrence false]⟩

/-- The text in front of the emote has been emitted. -/
def WordLoop.atEmote (loop : WordLoop EmotePtr) (occurrence : TwitchEmoteOccurrence EmotePtr) :
    WordLoop EmotePtr :=
  let preText := loop.word.take (occurrence.start - loop.cursor).toNat
  ⟨loop.cursor + preText.length, loop.word.mid preText.length, loop.rest,
    loop.elements ++ [.text preText]⟩

theorem emotesLoop_cases (fuel : Nat) (loop : WordLoop EmotePtr) :
    ((∀ occurrence later, loop.rest = occurrence :: later → ¬ loop.Fits occurrence) ∧
      emotesLoop (fuel + 1) loop = some loop) ∨
    ∃ occurrence later, loop.rest = occurrence :: later ∧ loop.Fits occurrence ∧
      ((occurrence.start = loop.cursor ∧ loop.word.mid occurrence.name.length = [] ∧
          emotesLoop (fuel + 1) loop = some (loop.finished occurrence later)) ∨
        (occurrence.start = loop.cursor ∧ loop.word.mid occurrence.name.length ≠ [] ∧
          emotesLoop (fuel + 1) loop = emotesLoop fuel (loop.behindEmote occurrence later)) ∨
        (occurrence.start ≠ loop.cursor ∧
          emotesLoop (fuel + 1) loop = emotesLoop fuel (loop.atEmote occurrence))) := by
  obtain ⟨cursor, word, rest, elements⟩ := loop
  cases rest with
  | nil => exact .inl ⟨by simp, rfl⟩
  | cons occurrence later =>
    have fits : doesWordContainATwitchEmote cursor word (occurrence :: later) = true ↔
        WordLoop.Fits ⟨cursor, word, occurrence :: later, elements⟩ occurrence := by
      simp [doesWordContainATwitchEmote, WordLoop.Fits]
    by_cases fit : WordLoop.Fits ⟨cursor, word, occurrence :: later, elements⟩ occurrence
    · right
      refine ⟨occurrence, later, rfl, fit, ?_⟩
      simp only [emotesLoop, fits.mpr fit, Bool.not_true, Bool.false_eq_true, if_false]
      by_cases start : occurrence.start = cursor
      · by_cases empty : word.mid occurrence.name.length = []
        · exact .inl ⟨start, empty, by simp [start, empty, WordLoop.finished]⟩
        · exact .inr (.inl ⟨start, empty, by simp [start, empty, WordLoop.behindEmote]⟩)
      · exact .inr (.inr ⟨start, by simp [start, WordLoop.atEmote]⟩)
    · left
      constructor
      · rintro other others ⟨rfl, rfl⟩
        exact fit
      · have notFits := Bool.eq_false_iff.mpr (mt fits.mp fit)
        simp [emotesLoop, notFits]

/-- The loop takes occurrences from the front and adds elements at the end. -/
theorem emotesLoop_extends {fuel : Nat} {loop after : WordLoop EmotePtr}
    (ran : emotesLoop fuel loop = some after) :
    after.rest <:+ loop.rest ∧ loop.elements <+: after.elements := by
  induction fuel generalizing loop with
  | zero => cases ran
  | succ fuel ih =>
    rcases emotesLoop_cases fuel loop with ⟨_, stop⟩ |
      ⟨occurrence, later, shape, _, ⟨_, _, last⟩ | ⟨_, _, next⟩ | ⟨_, next⟩⟩
    · rw [stop] at ran
      cases ran
      exact ⟨List.suffix_rfl, List.prefix_rfl⟩
    · rw [last] at ran
      cases ran
      rw [shape]
      exact ⟨List.suffix_cons _ _, List.prefix_append _ _⟩
    · rw [next] at ran
      have inner := ih ran
      rw [shape]
      exact ⟨inner.1.trans (List.suffix_cons _ _), (List.prefix_append _ _).trans inner.2⟩
    · rw [next] at ran
      have inner := ih ran
      exact ⟨inner.1, (List.prefix_append _ _).trans inner.2⟩

/-- An emote that fits is reached after the text in front of it. -/
theorem atEmote_cursor {loop : WordLoop EmotePtr} {occurrence : TwitchEmoteOccurrence EmotePtr}
    (fits : loop.Fits occurrence) (ordered : occurrence.start ≤ occurrence.end_) :
    (loop.atEmote occurrence).cursor = occurrence.start ∧
      (loop.atEmote occurrence).cursor + (loop.atEmote occurrence).word.length =
        loop.cursor + loop.word.length := by
  have lower := fits.1
  have upper := fits.2
  simp only [WordLoop.atEmote, QString.mid, List.length_take, List.length_drop]
  omega

/-! ## Termination -/

/-- How many turns are enough: two for each emote, one less at an emote, and one to stop. -/
def turns (loop : WordLoop EmotePtr) : Nat :=
  match loop.rest with
  | [] => 1
  | occurrence :: later =>
      if occurrence.start = loop.cursor then 2 * later.length + 2 else 2 * later.length + 3

theorem turns_le (loop : WordLoop EmotePtr) : turns loop ≤ 2 * loop.rest.length + 1 := by
  unfold turns
  split
  · next shape => simp [shape]
  · next occurrence later shape =>
    rw [shape, List.length_cons]
    split <;> omega

theorem emotesLoop_terminates (fuel : Nat) (loop : WordLoop EmotePtr)
    (ordered : ∀ occurrence ∈ loop.rest, occurrence.start ≤ occurrence.end_)
    (enough : turns loop ≤ fuel) : ∃ after, emotesLoop fuel loop = some after := by
  induction fuel generalizing loop with
  | zero =>
    unfold turns at enough
    split at enough
    · omega
    · split at enough <;> omega
  | succ fuel ih =>
    rcases emotesLoop_cases fuel loop with ⟨_, stop⟩ |
      ⟨occurrence, later, shape, fits, ⟨_, _, last⟩ | ⟨start, _, next⟩ | ⟨start, next⟩⟩
    · exact ⟨loop, stop⟩
    · exact ⟨_, last⟩
    · rw [next]
      rw [turns, shape] at enough
      simp only [start, if_true] at enough
      have fewer := turns_le (loop.behindEmote occurrence later)
      have smaller : (loop.behindEmote occurrence later).rest.length = later.length := rfl
      apply ih
      · intro other member
        exact ordered other (by rw [shape]; exact List.mem_cons_of_mem _ member)
      · omega
    · rw [next]
      rw [turns, shape] at enough
      simp only [start, if_false] at enough
      have reached := (atEmote_cursor fits (ordered occurrence (by rw [shape]; exact List.mem_cons_self))).1
      apply ih
      · exact ordered
      · have same : (loop.atEmote occurrence).rest = occurrence :: later := shape
        rw [turns, same]
        simp only [reached, if_true]
        omega

theorem addWord_terminates {fuel : Nat} {loop : WordLoop EmotePtr} (word : QString)
    (ordered : ∀ occurrence ∈ loop.rest, occurrence.start ≤ occurrence.end_)
    (enough : 2 * loop.rest.length < fuel) :
    ∃ after, addWord fuel loop word = some after ∧ after.rest <:+ loop.rest := by
  unfold addWord
  split
  · exact ⟨_, rfl, List.suffix_rfl⟩
  · have fewer := turns_le { loop with word }
    obtain ⟨after, ran⟩ :=
      emotesLoop_terminates fuel { loop with word } ordered (Nat.le_trans fewer enough)
    have suffix := (emotesLoop_extends ran).1
    rw [ran, Option.bind_eq_bind, Option.bind_some]
    split
    · exact ⟨after, rfl, suffix⟩
    · exact ⟨_, rfl, suffix⟩

theorem addWordsFrom_terminates {fuel : Nat} (loop : WordLoop EmotePtr) (words : List QString)
    (ordered : ∀ occurrence ∈ loop.rest, occurrence.start ≤ occurrence.end_)
    (enough : 2 * loop.rest.length < fuel) :
    ∃ after, words.foldlM (addWord fuel) loop = some after := by
  induction words generalizing loop with
  | nil => exact ⟨loop, rfl⟩
  | cons word words ih =>
    obtain ⟨next, step, suffix⟩ := addWord_terminates word ordered enough
    rw [List.foldlM_cons, step]
    apply ih
    · intro occurrence member
      exact ordered occurrence (suffix.subset member)
    · have shorter := suffix.length_le
      omega

/-! ## What a word does -/

theorem emitted_mono {front back : List (Piece EmotePtr)} (extended : front <+: back)
    {occurrence : TwitchEmoteOccurrence EmotePtr} (member : occurrence ∈ emitted front) :
    occurrence ∈ emitted back :=
  (extended.sublist.filterMap Piece.occurrence?).subset member

theorem emitted_at_cursor {fuel : Nat} {loop after : WordLoop EmotePtr}
    {occurrence : TwitchEmoteOccurrence EmotePtr} {later : List (TwitchEmoteOccurrence EmotePtr)}
    (ran : emotesLoop fuel loop = some after) (shape : loop.rest = occurrence :: later)
    (fits : loop.Fits occurrence) (start : occurrence.start = loop.cursor) :
    occurrence ∈ emitted after.elements := by
  cases fuel with
  | zero => cases ran
  | succ fuel =>
    rcases emotesLoop_cases fuel loop with ⟨unfit, _⟩ |
      ⟨other, others, otherShape, _, ⟨_, _, last⟩ | ⟨_, _, next⟩ | ⟨away, _⟩⟩
    · exact absurd fits (unfit occurrence later shape)
    all_goals obtain ⟨rfl, rfl⟩ := List.cons.inj (shape.symm.trans otherShape)
    · rw [last] at ran
      cases ran
      simp [WordLoop.finished]
    · rw [next] at ran
      apply emitted_mono (emotesLoop_extends ran).2
      simp [WordLoop.behindEmote]
    · exact absurd start away

/-- An emote that fits is emitted. -/
theorem emitted_of_fits {fuel : Nat} {loop after : WordLoop EmotePtr}
    {occurrence : TwitchEmoteOccurrence EmotePtr} {later : List (TwitchEmoteOccurrence EmotePtr)}
    (ran : emotesLoop fuel loop = some after) (shape : loop.rest = occurrence :: later)
    (fits : loop.Fits occurrence) (ordered : occurrence.start ≤ occurrence.end_) :
    occurrence ∈ emitted after.elements := by
  by_cases start : occurrence.start = loop.cursor
  · exact emitted_at_cursor ran shape fits start
  · cases fuel with
    | zero => cases ran
    | succ fuel =>
      rcases emotesLoop_cases fuel loop with ⟨unfit, _⟩ |
        ⟨other, others, otherShape, _, ⟨here, _, _⟩ | ⟨here, _, _⟩ | ⟨_, next⟩⟩
      · exact absurd fits (unfit occurrence later shape)
      all_goals obtain ⟨rfl, rfl⟩ := List.cons.inj (shape.symm.trans otherShape)
      · exact absurd here start
      · exact absurd here start
      · rw [next] at ran
        obtain ⟨reached, ends⟩ := atEmote_cursor fits ordered
        apply emitted_at_cursor ran shape _ reached.symm
        exact ⟨Int.le_of_eq reached, ends ▸ fits.2⟩

/-- The pieces took the front of the occurrences, each following the one before it, and the
next one is not in front of the place. -/
structure Clean (content : QString) (bound reached : Int) (loop after : WordLoop EmotePtr)
    (pieces : List (Piece EmotePtr)) (place : Nat) : Prop where
  elements : after.elements = loop.elements ++ pieces
  taken : loop.rest = emitted pieces ++ after.rest
  chain : Chain bound (emitted pieces) reached
  advanced : bound ≤ reached
  passed : reached ≤ place
  ahead : Ahead content reached place after.rest

/-- An occurrence with a space in it was taken, and it is what the condition excludes. -/
def Spoiled (content : QString) (bound : Int) (loop after : WordLoop EmotePtr) : Prop :=
  ¬ Unhindered content bound loop.rest ∧
    ∃ occurrence ∈ emitted after.elements, u ' ' ∈ occurrence.name

theorem Clean.trans {content : QString} {bound middle reached : Int}
    {loop next after : WordLoop EmotePtr} {front back : List (Piece EmotePtr)} {here place : Nat}
    (first : Clean content bound middle loop next front here)
    (second : Clean content middle reached next after back place) :
    Clean content bound reached loop after (front ++ back) place := by
  constructor
  case elements => rw [second.elements, first.elements, List.append_assoc]
  case taken => rw [first.taken, second.taken, emitted_append, List.append_assoc]
  case chain =>
    rw [emitted_append]
    exact first.chain.append second.chain
  case advanced => exact Int.le_trans first.advanced second.advanced
  case passed => exact second.passed
  case ahead => exact second.ahead

theorem Clean.spoiled {content : QString} {bound middle : Int} {loop next after : WordLoop EmotePtr}
    {pieces : List (Piece EmotePtr)} {place : Nat}
    (first : Clean content bound middle loop next pieces place)
    (second : Spoiled content middle next after) : Spoiled content bound loop after := by
  constructor
  · rw [first.taken, unhindered_chain first.chain]
    exact second.1
  · exact second.2

theorem not_unhindered_of_touches {content : QString} {bound : Int}
    {occurrence : TwitchEmoteOccurrence EmotePtr} {later : List (TwitchEmoteOccurrence EmotePtr)}
    (touches : Touches content bound occurrence) :
    ¬ Unhindered content bound (occurrence :: later) := by
  have space : u ' ' ∈ occurrence.name := List.mem_of_getLast? touches.2.2.1
  have notFollows : ¬ Follows bound occurrence := fun follows => follows.2 space
  rw [Unhindered, if_neg notFollows]
  exact fun unhindered => unhindered.1 touches

theorem TwitchEmoteOccurrence.Exact.name_length {content : QString}
    {occurrence : TwitchEmoteOccurrence EmotePtr} (spelled : occurrence.Exact content) :
    (occurrence.name.length : Int) = occurrence.end_ - occurrence.start + 1 := by
  obtain ⟨first, last, start, end_, ordered, inside, name⟩ := spelled.places
  rw [name, QString.midN, List.length_take, List.length_drop]
  omega

/-! An emote that ends inside of what is left of the word. -/

section
variable {content tail : QString} {bound : Int} {place : Nat} {loop : WordLoop EmotePtr}
  {occurrence : TwitchEmoteOccurrence EmotePtr} {later : List (TwitchEmoteOccurrence EmotePtr)}

theorem clean_emote (at_ : AtWord content bound place loop.word tail loop.rest)
    (shape : loop.rest = occurrence :: later) (start : occurrence.start = place)
    (inner : occurrence.end_ < (place + loop.word.length : Nat)) {after : WordLoop EmotePtr}
    {trailingSpace : Bool} {next : Nat}
    (elements : after.elements = loop.elements ++ [.emote occurrence trailingSpace])
    (rest : after.rest = later) (passed : occurrence.end_ < next)
    (ahead : Ahead content (occurrence.end_ + 1) next later) :
    Clean content bound (occurrence.end_ + 1) loop after [.emote occurrence trailingSpace] next := by
  have spelled := at_.exact_ occurrence (by rw [shape]; exact List.mem_cons_self)
  have follows := at_.follows spelled (Int.le_of_eq start.symm) inner
  constructor
  case elements => exact elements
  case taken =>
    rw [shape, rest]
    rfl
  case chain => exact ⟨follows, rfl⟩
  case advanced =>
    have behind := follows.1
    have ordered := spelled.ordered
    omega
  case passed => exact passed
  case ahead =>
    rw [rest]
    exact ahead

/-- The emote is all that is left of the word. -/
theorem clean_finished (at_ : AtWord content bound place loop.word tail loop.rest)
    (shape : loop.rest = occurrence :: later) (start : occurrence.start = place)
    (inner : occurrence.end_ < (place + loop.word.length : Nat))
    (empty : loop.word.mid occurrence.name.length = []) :
    Clean content bound (occurrence.end_ + 1) loop (loop.finished occurrence later)
        [.emote occurrence true] (place + loop.word.length + 1) ∧ occurrence.name = loop.word := by
  have spelled := at_.exact_ occurrence (by rw [shape]; exact List.mem_cons_self)
  have length := spelled.name_length
  have short := List.drop_eq_nil_iff.mp empty
  have whole : occurrence.end_ + 1 = (place + loop.word.length : Nat) := by omega
  have fewer : later ⊆ loop.rest := by
    rw [shape]
    exact List.subset_cons_self _ _
  have behind := at_.drop (Nat.le_refl _) fewer (Int.le_of_eq whole) (ahead_of_bound content whole later)
  have nothing : loop.word.mid loop.word.length = [] := List.drop_length
  rw [nothing] at behind
  constructor
  · exact clean_emote at_ shape start inner rfl rfl (by omega) (behind.ahead_empty (.inl whole))
  · have front : (occurrence.start - place).toNat = 0 := by omega
    have count : occurrence.length = loop.word.length := by
      unfold TwitchEmoteOccurrence.length
      omega
    rw [at_.name_eq spelled (Int.le_of_eq start.symm) inner, front, count, QString.midN,
      List.drop_zero, List.take_length]

/-- The emote is in front of the rest of the word. -/
theorem clean_behindEmote (at_ : AtWord content bound place loop.word tail loop.rest)
    (shape : loop.rest = occurrence :: later) (start : occurrence.start = place)
    (inner : occurrence.end_ < (place + loop.word.length : Nat)) :
    Clean content bound (occurrence.end_ + 1) loop (loop.behindEmote occurrence later)
        [.emote occurrence false] (place + occurrence.name.length) ∧
      AtWord content (occurrence.end_ + 1) (place + occurrence.name.length)
        (loop.word.mid occurrence.name.length) tail later ∧
      occurrence.name ++ loop.word.mid occurrence.name.length = loop.word := by
  have spelled := at_.exact_ occurrence (by rw [shape]; exact List.mem_cons_self)
  have length := spelled.name_length
  have reached : occurrence.end_ + 1 = (place + occurrence.name.length : Nat) := by omega
  have fewer : later ⊆ loop.rest := by
    rw [shape]
    exact List.subset_cons_self _ _
  have ahead := ahead_of_bound content reached later
  refine ⟨?_, ?_, ?_⟩
  · exact clean_emote at_ shape start inner rfl rfl (by omega) ahead
  · exact at_.drop (by omega) fewer (Int.le_of_eq reached) ahead
  · have front : (occurrence.start - place).toNat = 0 := by omega
    have count : occurrence.length = occurrence.name.length := by
      unfold TwitchEmoteOccurrence.length
      omega
    have name := at_.name_eq spelled (Int.le_of_eq start.symm) inner
    rw [front, count, QString.midN, List.drop_zero] at name
    nth_rewrite 1 [name]
    exact List.take_append_drop _ _

/-- The text in front of the emote is a part of the word. -/
theorem clean_atEmote (at_ : AtWord content bound place loop.word tail loop.rest)
    (cursor : loop.cursor = place) (shape : loop.rest = occurrence :: later)
    (lower : (place : Int) ≤ occurrence.start)
    (inner : occurrence.end_ < (place + loop.word.length : Nat)) :
    ∃ k, k < loop.word.length ∧ loop.atEmote occurrence =
        ⟨(place + k : Nat), loop.word.mid k, loop.rest, loop.elements ++ [.text (loop.word.take k)]⟩ ∧
      Clean content bound bound loop (loop.atEmote occurrence) [.text (loop.word.take k)] (place + k) ∧
      AtWord content bound (place + k) (loop.word.mid k) tail loop.rest := by
  have spelled := at_.exact_ occurrence (by rw [shape]; exact List.mem_cons_self)
  have ordered := spelled.ordered
  have reached := at_.reached
  have short : (occurrence.start - place).toNat < loop.word.length := by omega
  have size : (loop.word.take (occurrence.start - place).toNat).length =
      (occurrence.start - place).toNat := List.length_take_of_le (Nat.le_of_lt short)
  have state : loop.atEmote occurrence =
      ⟨(place + (occurrence.start - place).toNat : Nat), loop.word.mid (occurrence.start - place).toNat,
        loop.rest, loop.elements ++ [.text (loop.word.take (occurrence.start - place).toNat)]⟩ := by
    simp only [WordLoop.atEmote, cursor, size]
    rfl
  have ahead : Ahead content bound (place + (occurrence.start - place).toNat) loop.rest := by
    intro other others otherShape _
    obtain ⟨rfl, rfl⟩ := List.cons.inj (shape.symm.trans otherShape)
    omega
  refine ⟨_, short, state, ?_, ?_⟩
  · rw [state]
    exact ⟨rfl, rfl, rfl, Int.le_refl _, by omega, ahead⟩
  · exact at_.drop (Nat.le_of_lt short) (List.Subset.refl _) (by omega) ahead

end

/-- What the loop leaves of a word, and where the cursor is then. -/
structure LeavesWord (place : Nat) (word : QString) (after : WordLoop EmotePtr)
    (pieces : List (Piece EmotePtr)) : Prop where
  spells : spelled pieces ++ after.word = word
  used : after.word = [] → after.cursor = place + word.length + 1
  unused : after.word ≠ [] → after.cursor + after.word.length = place + word.length

theorem LeavesWord.cons {place next : Nat} {word left : QString} {after : WordLoop EmotePtr}
    {pieces : List (Piece EmotePtr)} {piece : Piece EmotePtr}
    (inner : LeavesWord next left after pieces) (spells : piece.spell ++ left = word)
    (moved : next + left.length = place + word.length) :
    LeavesWord place word after (piece :: pieces) := by
  constructor
  case spells => rw [spelled_cons, List.append_assoc, inner.spells, spells]
  case used =>
    intro empty
    have cursor := inner.used empty
    omega
  case unused =>
    intro more
    have cursor := inner.unused more
    omega

theorem emotesLoop_outcome {content tail : QString} {bound : Int} {place fuel : Nat}
    {loop after : WordLoop EmotePtr} (ran : emotesLoop fuel loop = some after)
    (at_ : AtWord content bound place loop.word tail loop.rest) (cursor : loop.cursor = place)
    (nonempty : loop.word ≠ []) :
    Spoiled content bound loop after ∨
      ∃ reached pieces, Clean content bound reached loop after pieces (place + loop.word.length + 1) ∧
        LeavesWord place loop.word after pieces := by
  induction fuel generalizing loop bound place with
  | zero => cases ran
  | succ fuel ih =>
    rcases emotesLoop_cases fuel loop with ⟨unfit, stop⟩ | ⟨occurrence, later, shape, fits, turn⟩
    · -- Nothing of the word is taken, so the next emote lies behind the word.
      rw [stop] at ran
      obtain rfl : loop = after := Option.some.inj ran
      right
      have reached := at_.reached
      have ahead : Ahead content bound (place + loop.word.length + 1) loop.rest := by
        apply at_.ahead_past
        intro occurrence later shape _ lower
        by_contra upper
        apply unfit occurrence later shape
        exact ⟨cursor ▸ lower, by omega⟩
      refine ⟨bound, [], ?_, ?_⟩
      · exact ⟨(List.append_nil _).symm, rfl, rfl, Int.le_refl _, by omega, ahead⟩
      · exact ⟨rfl, fun empty => absurd empty nonempty, fun _ => by rw [cursor]⟩
    · have spelled := at_.exact_ occurrence (by rw [shape]; exact List.mem_cons_self)
      have lower : (place : Int) ≤ occurrence.start := cursor ▸ fits.1
      have upper : occurrence.end_ ≤ (place + loop.word.length : Nat) := by
        have fit := fits.2
        omega
      -- an emote that ends with the word touches what follows, which spoils the rest
      by_cases meets : occurrence.end_ = (place + loop.word.length : Nat)
      · left
        have touches := at_.touches nonempty spelled lower meets
        constructor
        · rw [shape]
          exact not_unhindered_of_touches touches
        · refine ⟨occurrence, emitted_of_fits ran shape fits spelled.ordered, ?_⟩
          exact List.mem_of_getLast? touches.2.2.1
      · have inner : occurrence.end_ < (place + loop.word.length : Nat) := by omega
        -- the word ends with the emote, goes on behind it, or starts with other text
        rcases turn with ⟨start, empty, last⟩ | ⟨start, more, next⟩ | ⟨away, next⟩
        · rw [last] at ran
          cases ran
          right
          obtain ⟨clean, name⟩ := clean_finished at_ shape (start.trans cursor) inner empty
          refine ⟨_, _, clean, ?_, ?_, fun impossible => absurd rfl impossible⟩
          · simp [Piece.spell, name, WordLoop.finished]
          · intro _
            simp only [WordLoop.finished, cursor, name]
        · rw [next] at ran
          obtain ⟨clean, left, name⟩ := clean_behindEmote at_ shape (start.trans cursor) inner
          have size : (loop.word.mid occurrence.name.length).length + occurrence.name.length =
              loop.word.length := by
            have lengths := congrArg List.length name
            rw [List.length_append] at lengths
            omega
          have moved : (loop.behindEmote occurrence later).cursor =
              (place + occurrence.name.length : Nat) := by
            simp only [WordLoop.behindEmote, cursor]
            rfl
          rcases ih ran left moved more with spoiled | ⟨reached, pieces, rest, leaves⟩
          · exact .inl (clean.spoiled spoiled)
          · right
            have ends : place + occurrence.name.length +
                (loop.behindEmote occurrence later).word.length = place + loop.word.length := by
              simp only [WordLoop.behindEmote]
              omega
            refine ⟨reached, _, clean.trans ?_, leaves.cons name ends⟩
            exact ends ▸ rest
        · rw [next] at ran
          obtain ⟨k, short, state, clean, left⟩ := clean_atEmote at_ cursor shape lower inner
          rw [state] at ran clean
          have size : (loop.word.mid k).length + k = loop.word.length := by
            rw [QString.mid, List.length_drop]
            omega
          have more : loop.word.mid k ≠ [] := by
            intro empty
            rw [empty, List.length_nil] at size
            omega
          rcases ih ran left rfl more with spoiled | ⟨reached, pieces, rest, leaves⟩
          · exact .inl (clean.spoiled spoiled)
          · right
            have spells : loop.word.take k ++ loop.word.mid k = loop.word := List.take_append_drop _ _
            have ends : place + k + (loop.word.mid k).length = place + loop.word.length := by
              omega
            refine ⟨reached, _, clean.trans ?_, leaves.cons spells ends⟩
            exact ends ▸ rest

/-! ## All words -/

theorem addWord_extends {fuel : Nat} {loop after : WordLoop EmotePtr} {word : QString}
    (ran : addWord fuel loop word = some after) : loop.elements <+: after.elements := by
  unfold addWord at ran
  split at ran
  · cases ran
    exact List.prefix_rfl
  · obtain ⟨left, inner, ran⟩ := Option.bind_eq_some_iff.mp ran
    have extended := (emotesLoop_extends inner).2
    split at ran
    · cases ran
      exact extended
    · cases ran
      exact extended.trans (List.prefix_append _ _)

theorem addWordsFrom_extends {fuel : Nat} {loop after : WordLoop EmotePtr} {words : List QString}
    (ran : words.foldlM (addWord fuel) loop = some after) : loop.elements <+: after.elements := by
  induction words generalizing loop with
  | nil =>
    cases ran
    exact List.prefix_rfl
  | cons word words ih =>
    obtain ⟨next, step, ran⟩ := Option.bind_eq_some_iff.mp ran
    exact (addWord_extends step).trans (ih ran)

/-- A word that begins behind a space, or with the content. -/
def Begins (content : QString) (place : Nat) : Prop :=
  place = 0 ∨ content[place - 1]? = some (u ' ')

theorem addWord_outcome {content word tail : QString} {bound : Int} {place fuel : Nat}
    {loop after : WordLoop EmotePtr} (ran : addWord fuel loop word = some after)
    (at_ : AtWord content bound place word tail loop.rest) (cursor : loop.cursor = place)
    (nonnegative : 0 ≤ bound) (begins : Begins content place) :
    Spoiled content bound loop after ∨
      ∃ reached pieces, Clean content bound reached loop after pieces (place + word.length + 1) ∧
        spelled pieces = word ∧ after.cursor = (place + word.length + 1 : Nat) := by
  have reached := at_.reached
  unfold addWord at ran
  by_cases empty : word = []
  · subst empty
    cases ran
    right
    have used : bound = place ∨ place = 0 ∧ bound = 0 ∨ content[place - 1]? = some (u ' ') := by
      rcases begins with zero | separated
      · left
        omega
      · exact .inr (.inr separated)
    refine ⟨bound, [], ?_, rfl, ?_⟩
    · exact ⟨(List.append_nil _).symm, rfl, rfl, Int.le_refl _, by omega, at_.ahead_empty used⟩
    · simp [cursor]
  · rw [if_neg (by simpa using empty)] at ran
    obtain ⟨left, inner, ran⟩ := Option.bind_eq_some_iff.mp ran
    rcases emotesLoop_outcome inner at_ cursor empty with spoiled | ⟨next, pieces, clean, leaves⟩
    · left
      -- What is behind the loop only adds a text.
      constructor
      · exact spoiled.1
      · obtain ⟨occurrence, member, space⟩ := spoiled.2
        refine ⟨occurrence, ?_, space⟩
        split at ran <;> cases ran
        · exact member
        · exact emitted_mono (List.prefix_append _ _) member
    · right
      have started : Clean content bound next loop left pieces (place + word.length + 1) :=
        ⟨clean.elements, clean.taken, clean.chain, clean.advanced, clean.passed, clean.ahead⟩
      by_cases used : left.word = []
      · rw [if_pos (by simpa using used)] at ran
        cases ran
        have spells := leaves.spells
        rw [used, List.append_nil] at spells
        exact ⟨next, pieces, started, spells, leaves.used used⟩
      · rw [if_neg (by simpa using used)] at ran
        cases ran
        refine ⟨next, pieces ++ [.text left.word], ?_, ?_, ?_⟩
        · have only : emitted (pieces ++ [Piece.text left.word]) = emitted pieces := by simp
          constructor
          case elements => simp only [started.elements, List.append_assoc]
          case taken =>
            rw [only]
            exact started.taken
          case chain =>
            rw [only]
            exact started.chain
          case advanced => exact started.advanced
          case passed => exact started.passed
          case ahead => exact started.ahead
        · simpa [Piece.spell] using leaves.spells
        · have moved : left.cursor + left.word.length = place + word.length := leaves.unused used
          simp only
          omega

theorem addWordsFrom_outcome {content : QString} {bound : Int} {place fuel : Nat}
    {loop after : WordLoop EmotePtr} {words : List QString} (some_ : words ≠ [])
    (ran : words.foldlM (addWord fuel) loop = some after)
    (exact_ : ∀ occurrence ∈ loop.rest, occurrence.Exact content) (inside : place ≤ content.length)
    (here : content.drop place = [u ' '].intercalate words) (plain : ∀ word ∈ words, u ' ' ∉ word)
    (reached : bound ≤ place) (ahead : Ahead content bound place loop.rest)
    (cursor : loop.cursor = place) (nonnegative : 0 ≤ bound) (begins : Begins content place) :
    Spoiled content bound loop after ∨
      ∃ (reached : Int) (groups : List (List (Piece EmotePtr))),
        Clean content bound reached loop after groups.flatten (content.length + 1) ∧
        groups.map spelled = words := by
  induction words generalizing loop bound place with
  | nil => exact absurd rfl some_
  | cons word words ih =>
    rw [List.forall_mem_cons] at plain
    obtain ⟨next, step, ran⟩ := Option.bind_eq_some_iff.mp ran
    cases words with
    | nil =>
      have last : content.drop place = word ++ [] := by simpa using here
      have at_ : AtWord content bound place word [] loop.rest :=
        ⟨exact_, inside, last, .inl rfl, plain.1, reached, ahead⟩
      have length := at_.length
      simp only [List.length_nil, Nat.add_zero] at length
      cases ran
      rcases addWord_outcome step at_ cursor nonnegative begins with spoiled |
        ⟨next, pieces, clean, spells, _⟩
      · exact .inl spoiled
      · right
        refine ⟨next, [pieces], ?_, by simp [spells]⟩
        rw [length, List.flatten_singleton]
        exact clean
    | cons second words =>
      have front : content.drop place = word ++ u ' ' :: [u ' '].intercalate (second :: words) := by
        rw [here, List.intercalate_cons_cons]
        simp
      have at_ : AtWord content bound place word (u ' ' :: [u ' '].intercalate (second :: words))
          loop.rest := ⟨exact_, inside, front, .inr ⟨_, rfl⟩, plain.1, reached, ahead⟩
      have length := at_.length
      simp only [List.length_cons] at length
      rcases addWord_outcome step at_ cursor nonnegative begins with spoiled |
        ⟨bound', pieces, clean, spells, cursor'⟩
      · left
        obtain ⟨occurrence, member, space⟩ := spoiled.2
        exact ⟨spoiled.1, occurrence, emitted_mono (addWordsFrom_extends ran) member, space⟩
      -- behind the word everything is as at its start, so that the other words follow by induction
      · have exact' : ∀ occurrence ∈ next.rest, occurrence.Exact content := by
          intro occurrence member
          apply exact_
          rw [clean.taken]
          exact List.mem_append_right _ member
        have here' : content.drop (place + word.length + 1) = [u ' '].intercalate (second :: words) := by
          have split := congrArg (List.drop (word.length + 1)) front
          rw [List.drop_drop, List.drop_append, List.drop_eq_nil_of_le (Nat.le_succ _)] at split
          simpa [Nat.add_assoc] using split
        have begins' : Begins content (place + word.length + 1) := by
          right
          rw [Nat.add_sub_cancel]
          exact at_.space (by omega)
        rcases ih (by simp) ran exact' (by omega) here' plain.2 clean.passed clean.ahead cursor'
          (Int.le_trans nonnegative clean.advanced) begins' with spoiled | ⟨reached', groups, rest, words'⟩
        · exact .inl (clean.spoiled spoiled)
        · right
          refine ⟨reached', pieces :: groups, ?_, by simp [spells, words']⟩
          rw [List.flatten_cons]
          exact clean.trans rest

/-! ## Reproduced and emitted once -/

theorem not_reproduces_of_space {content : QString} {elements : List (Piece EmotePtr)}
    {occurrence : TwitchEmoteOccurrence EmotePtr} (member : occurrence ∈ emitted elements)
    (space : u ' ' ∈ occurrence.name) : ¬ Reproduces (content.split (u ' ')) elements := by
  rintro ⟨groups, rfl, words⟩
  -- The piece is in some group, so the word of that group has the space.
  have inElements := name_subset_spelled member space
  obtain ⟨piece, pieceMember, inPiece⟩ := List.mem_flatMap.mp inElements
  obtain ⟨group, groupMember, inGroup⟩ := List.mem_flatten.mp pieceMember
  have word : spelled group ∈ content.split (u ' ') := by
    rw [← words]
    exact List.mem_map_of_mem groupMember
  exact split_plain _ _ _ word (List.mem_flatMap.mpr ⟨piece, inGroup, inPiece⟩)

theorem inOneWord_iff {content : QString} {occurrence : TwitchEmoteOccurrence EmotePtr}
    (spelled : occurrence.Exact content) : InOneWord content occurrence ↔ u ' ' ∉ occurrence.name := by
  rw [InOneWord, ← spelled.spelled]

/-- What was taken has ended before the bound. -/
theorem Chain.below {content : QString} {bound reached : Int}
    {taken : List (TwitchEmoteOccurrence EmotePtr)} (chain : Chain bound taken reached)
    (exact_ : ∀ occurrence ∈ taken, occurrence.Exact content) :
    bound ≤ reached ∧ ∀ occurrence ∈ taken, bound ≤ occurrence.start ∧ occurrence.end_ < reached := by
  induction taken generalizing bound with
  | nil =>
    subst chain
    exact ⟨Int.le_refl _, fun _ member => absurd member List.not_mem_nil⟩
  | cons occurrence taken ih =>
    rw [List.forall_mem_cons] at exact_
    obtain ⟨upper, within⟩ := ih chain.2 exact_.2
    have follows := chain.1.1
    have ordered := exact_.1.ordered
    constructor
    · omega
    · intro other member
      rcases List.mem_cons.mp member with rfl | later
      · exact ⟨follows, by omega⟩
      · have inner := within other later
        exact ⟨by omega, inner.2⟩

theorem Chain.nodup {content : QString} {bound reached : Int}
    {taken : List (TwitchEmoteOccurrence EmotePtr)} (chain : Chain bound taken reached)
    (exact_ : ∀ occurrence ∈ taken, occurrence.Exact content) : taken.Nodup := by
  induction taken generalizing bound with
  | nil => exact List.nodup_nil
  | cons occurrence taken ih =>
    rw [List.forall_mem_cons] at exact_
    have within := (chain.2.below exact_.2).2
    have ordered := exact_.1.ordered
    refine List.nodup_cons.mpr ⟨?_, ih chain.2 exact_.2⟩
    intro again
    have behind := (within occurrence again).1
    omega

/-- The last occurrence that was taken ends directly before the bound. -/
theorem Chain.last {bound reached : Int} {taken : List (TwitchEmoteOccurrence EmotePtr)}
    (chain : Chain bound taken reached) :
    (taken = [] ∧ reached = bound) ∨ ∃ occurrence ∈ taken, occurrence.end_ + 1 = reached := by
  induction taken generalizing bound with
  | nil => exact .inl ⟨rfl, chain⟩
  | cons occurrence taken ih =>
    right
    rcases ih chain.2 with ⟨rfl, same⟩ | ⟨last, member, same⟩
    · exact ⟨occurrence, List.mem_cons_self, same.symm⟩
    · exact ⟨last, List.mem_cons_of_mem _ member, same⟩

variable [DecidableEq EmotePtr]

/-- With a clean run the emotes are emitted once exactly when nothing hinders them. -/
theorem emittedOnce_iff {content : QString} {reached : Int} {elements : List (Piece EmotePtr)}
    {rest : List (TwitchEmoteOccurrence EmotePtr)}
    (exact_ : ∀ occurrence ∈ emitted elements ++ rest, occurrence.Exact content)
    (chain : Chain 0 (emitted elements) reached)
    (ahead : Ahead content reached (content.length + 1) rest) :
    EmittedOnce content (emitted elements ++ rest) elements ↔
      Unhindered content 0 (emitted elements ++ rest) := by
  have takenExact : ∀ occurrence ∈ emitted elements, occurrence.Exact content := by
    intro occurrence member
    exact exact_ occurrence (List.mem_append_left _ member)
  have below := (chain.below takenExact).2
  have distinct := chain.nodup takenExact
  rw [unhindered_chain chain]
  cases rest with
  | nil =>
    refine ⟨fun _ => trivial, ?_⟩
    intro _ front occurrence later shape _ _
    have member : occurrence ∈ emitted elements := by
      rw [List.append_nil] at shape
      rw [shape]
      exact List.mem_append_right _ List.mem_cons_self
    exact List.count_eq_one_of_mem distinct member
  | cons first others =>
    -- At the end of the content nothing is ahead, so the next one is not taken any more.
    have firstExact := exact_ first (List.mem_append_right _ List.mem_cons_self)
    have passed : ¬ (Follows reached first ∨ Touches content reached first) := by
      intro taken
      have beyond := ahead first others rfl taken
      have ordered := firstExact.ordered
      have inside := firstExact.inside
      omega
    rw [not_or] at passed
    rw [Unhindered, if_neg passed.1]
    constructor
    · intro once
      refine ⟨passed.2, ?_⟩
      intro other member follows
      obtain ⟨before, after, rfl⟩ := List.append_of_mem member
      have otherExact := exact_ other (by simp)
      have count := once (emitted elements ++ first :: before) other after (by simp)
        ((inOneWord_iff otherExact).mpr follows.2) (by
          intro earlier _ taken
          have ended := (below earlier taken).2
          have start := follows.1
          omega)
      have taken : other ∈ emitted elements := List.count_pos_iff.mp (by omega)
      have ended := (below other taken).2
      have ordered := otherExact.ordered
      have start := follows.1
      omega
    · rintro ⟨_, unfollowed⟩ front occurrence later shape word clear
      have member : occurrence ∈ emitted elements ++ first :: others := by
        rw [shape]
        exact List.mem_append_right _ List.mem_cons_self
      have occurrenceExact := exact_ occurrence member
      by_cases taken : occurrence ∈ emitted elements
      · exact List.count_eq_one_of_mem distinct taken
      · -- The occurrence is behind everything that was taken, and so starts behind the bound.
        have before : ∀ earlier ∈ emitted elements, earlier ∈ front := by
          rcases List.append_eq_append_iff.mp shape with ⟨more, frontShape, _⟩ | ⟨more, takenShape, behind⟩
          · intro earlier earlierMember
            rw [frontShape]
            exact List.mem_append_left _ earlierMember
          · cases more with
            | nil =>
              rw [takenShape, List.append_nil]
              exact fun _ earlierMember => earlierMember
            | cons head more =>
              obtain ⟨rfl, _⟩ := List.cons.inj behind
              exact absurd (takenShape ▸ List.mem_append_right front List.mem_cons_self) taken
        have start : reached ≤ occurrence.start := by
          rcases chain.last with ⟨_, same⟩ | ⟨last, lastMember, same⟩
          · rw [same]
            exact occurrenceExact.nonnegative
          · have ended := clear last (before last lastMember) lastMember
            omega
        have follows : Follows reached occurrence := ⟨start, (inOneWord_iff occurrenceExact).mp word⟩
        rcases List.mem_append.mp member with inTaken | behindFirst
        · exact absurd inTaken taken
        · rcases List.mem_cons.mp behindFirst with rfl | other
          · exact absurd follows passed.1
          · exact absurd follows (unfollowed occurrence other)

/-- The loop over the words ends. It loses no text and emits every emote once exactly when no
occurrence is in the way: the first one that overlaps what was emitted or spans words does not end
with the space behind an unfinished word, and no later one could be emitted. -/
theorem addWords_iff (content : QString) (twitchEmotes : List (TwitchEmoteOccurrence EmotePtr))
    (exact_ : ∀ occurrence ∈ twitchEmotes, occurrence.Exact content) (fuel : Nat)
    (enough : 2 * twitchEmotes.length < fuel) :
    ∃ elements, addWords fuel (content.split (u ' ')) twitchEmotes = some elements ∧
      ((Reproduces (content.split (u ' ')) elements ∧ EmittedOnce content twitchEmotes elements) ↔
        Unhindered content 0 twitchEmotes) := by
  obtain ⟨after, ran⟩ := addWordsFrom_terminates ⟨0, [], twitchEmotes, []⟩ (content.split (u ' '))
    (fun occurrence member => (exact_ occurrence member).ordered) enough
  refine ⟨after.elements, by rw [addWords, ran]; rfl, ?_⟩
  rcases addWordsFrom_outcome (split_ne_nil _ _) ran exact_ (Nat.zero_le _)
    (intercalate_split (u ' ') content).symm (split_plain _ _) (Int.le_refl 0)
    (ahead_of_bound content rfl twitchEmotes) rfl (Int.le_refl 0) (.inl rfl) with
    ⟨hindered, occurrence, member, space⟩ | ⟨reached, groups, clean, words⟩
  · constructor
    · intro both
      exact absurd both.1 (not_reproduces_of_space member space)
    · intro unhindered
      exact absurd unhindered hindered
  · have elements : after.elements = groups.flatten := clean.elements
    have taken : twitchEmotes = emitted after.elements ++ after.rest := by
      rw [elements]
      exact clean.taken
    have reproduced : Reproduces (content.split (u ' ')) after.elements := ⟨groups, elements.symm, words⟩
    have once := emittedOnce_iff (taken ▸ exact_) (elements ▸ clean.chain) clean.ahead
    rw [← taken] at once
    rw [← once]
    exact ⟨fun both => both.2, fun only => ⟨reproduced, only⟩⟩

end

/-- An occurrence with the name that the content spells. -/
def spelledBy (content : QString) (first last : Nat) : TwitchEmoteOccurrence Nat :=
  ⟨first, last, 0, content.midN first (last - first + 1)⟩

theorem addWords_two_emotes :
    ∃ elements, addWords 5 ((qs "Kappa bKeepo").split (u ' '))
        [spelledBy (qs "Kappa bKeepo") 0 4, spelledBy (qs "Kappa bKeepo") 7 11] = some elements ∧
      ((Reproduces ((qs "Kappa bKeepo").split (u ' ')) elements ∧
          EmittedOnce (qs "Kappa bKeepo")
            [spelledBy (qs "Kappa bKeepo") 0 4, spelledBy (qs "Kappa bKeepo") 7 11] elements) ↔
        Unhindered (qs "Kappa bKeepo") 0
          [spelledBy (qs "Kappa bKeepo") 0 4, spelledBy (qs "Kappa bKeepo") 7 11]) := by
  apply addWords_iff (qs "Kappa bKeepo")
  · intro occurrence member
    simp only [List.mem_cons, List.not_mem_nil, or_false] at member
    rcases member with rfl | rfl
    · exact ⟨by decide, by decide, by decide, by decide⟩
    · exact ⟨by decide, by decide, by decide, by decide⟩
  · decide

/-- An occurrence across two words keeps the emote behind it from being emitted. One that ends
with the space behind its word is emitted with the space. -/
theorem addWords_hindered :
    (∃ elements, addWords 5 ((qs "a b Kappa").split (u ' '))
        [spelledBy (qs "a b Kappa") 0 2, spelledBy (qs "a b Kappa") 4 8] = some elements ∧
      ¬ EmittedOnce (qs "a b Kappa")
        [spelledBy (qs "a b Kappa") 0 2, spelledBy (qs "a b Kappa") 4 8] elements) ∧
    ∃ elements, addWords 3 ((qs "Kappa b").split (u ' ')) [spelledBy (qs "Kappa b") 0 5] =
        some elements ∧ ¬ Reproduces ((qs "Kappa b").split (u ' ')) elements := by
  constructor
  · refine ⟨[.text (qs "a"), .text (qs "b"), .text (qs "Kappa")], by decide, ?_⟩
    intro once
    have count := once [spelledBy (qs "a b Kappa") 0 2] (spelledBy (qs "a b Kappa") 4 8) [] rfl
      (by unfold InOneWord; decide) (by decide)
    exact absurd count (by decide)
  · refine ⟨[.emote (spelledBy (qs "Kappa b") 0 5) true, .text (qs "b")], by decide, ?_⟩
    have member : spelledBy (qs "Kappa b") 0 5 ∈
        emitted [.emote (spelledBy (qs "Kappa b") 0 5) true, .text (qs "b")] := List.mem_cons_self
    exact not_reproduces_of_space member (by decide)

end Forserino.Emotes
