import Mathlib.Algebra.BigOperators.Group.List.Basic
import Mathlib.Algebra.Ring.Int.Defs
import Forserino.Qt.Numerals
import Forserino.Qt.Variant

/-! Cheermotes: MessageBuilder::tryAppendCheermote, TwitchChannel::cheerEmote and the bits tag.

A word with more bits than there are left is written anew with fewer, and looked up again. The
word that is looked up ends in the number that its regular expression captures.
-/

set_option autoImplicit false

namespace Forserino.Emotes

open Forserino.Qt

/-- "^" + prefix + "([1-9][0-9]*)$", compiled. A dollar matches in front of a last newline as well. -/
structure CheerRegex where
  /-- captured(1) of a match. -/
  captured : QString → Option QString
  ends : ∀ {string amount}, captured string = some amount → IsNumeral amount ∧
    ∃ front, string = front ++ amount ∨ string = front ++ amount ++ [u '\n']

/-- The emotes are null where there is no image for them. -/
structure CheerEmote (EmotePtr : Type) where
  color : QColor
  minBits : Int
  regex : CheerRegex
  animatedEmote : Option EmotePtr
  staticEmote : Option EmotePtr

/-- setCheerEmoteSets gives the emotes of a set its regular expression. -/
structure CheerEmoteSet (EmotePtr : Type) where
  regex : CheerRegex
  cheerEmotes : List (CheerEmote EmotePtr)
  shared : ∀ emote ∈ cheerEmotes, emote.regex = regex

structure TextState where
  hasBits : Bool := false
  bitsStacked : Bool := false
  bitsLeft : Int := 0
  deriving DecidableEq, Repr

inductive CheerElement (EmotePtr : Type) where
  | bitsStatic (emote : EmotePtr)
  | bitsAnimated (emote : EmotePtr)
  | bitsAmount (text : QString) (color : QColor)

/-- A cheermote that was appended to the message, and the text of its amount. -/
structure Cheermote (EmotePtr : Type) where
  emote : CheerEmote EmotePtr
  amount : QString

section
variable {EmotePtr : Type}

/-- What the builder emplaces for a cheermote. The amount is not shown in an invalid colour. -/
def Cheermote.elements (cheermote : Cheermote EmotePtr) : List (CheerElement EmotePtr) :=
  cheermote.emote.staticEmote.toList.map .bitsStatic ++ cheermote.emote.animatedEmote.toList.map .bitsAnimated ++
    if cheermote.emote.color.valid then [.bitsAmount cheermote.amount cheermote.emote.color] else []

/-- toInt of an amount, which is zero for one that is out of range. -/
def cheerValue (amount : QString) : Int := amount.toInt.getD 0

/-- The first emote that the word has enough bits for. -/
def cheerEmote (string : QString) : List (CheerEmoteSet EmotePtr) → Option (CheerEmote EmotePtr)
  | [] => none
  | set :: sets =>
      match set.regex.captured string with
      | none => cheerEmote string sets
      | some amount =>
          match set.cheerEmotes.find? fun emote => emote.minBits ≤ cheerValue amount with
          | some emote => some emote
          | none => cheerEmote string sets

/-- What a call leaves behind: the state, and the cheermote on Success with elements. -/
structure Appended (EmotePtr : Type) where
  success : Bool
  state : TextState
  cheermote : Option (Cheermote EmotePtr) := none

variable (sets : List (CheerEmoteSet EmotePtr)) (stackBits : Bool)

/-- There is no result where the fuel does not reach to the end of the recursion, or where the
difference of two ints is not an int. -/
def tryAppendCheermote : Nat → TextState → QString → Option (Appended EmotePtr)
  | 0, _, _ => none
  | fuel + 1, state, string =>
      if state.bitsLeft = 0 then some { success := false, state }
      else
        match cheerEmote string sets with
        | none => some { success := false, state }
        | some emote =>
            match emote.regex.captured string with
            | none => some { success := false, state }
            | some amount =>
                if stackBits then
                  if state.bitsStacked then some { success := true, state }
                  else
                    some
                      { success := true
                        state := { state with bitsStacked := true }
                        cheermote := some ⟨emote, number state.bitsLeft⟩ }
                else if cheerValue amount ≤ state.bitsLeft then
                  some
                    { success := true
                      state := { state with bitsLeft := state.bitsLeft - cheerValue amount }
                      cheermote := some ⟨emote, amount⟩ }
                else if inIntRange (cheerValue amount - state.bitsLeft) then
                  tryAppendCheermote fuel state
                    (string.chop (number (cheerValue amount)).length ++ number (cheerValue amount - state.bitsLeft))
                else none

/-- The beginning of addTextOrEmote, which has the rest for what is no cheermote. -/
def addTextOrEmote (fuel : Nat) (state : TextState) (string : QString) : Option (Appended EmotePtr) :=
  if state.hasBits then tryAppendCheermote sets stackBits fuel state string else some { success := false, state }

/-- The state behind the texts of a message, and the cheermotes that were appended. -/
def addTexts (fuel : Nat) : TextState → List QString → Option (TextState × List (Cheermote EmotePtr))
  | state, [] => some (state, [])
  | state, string :: rest => do
      let appended ← addTextOrEmote sets stackBits fuel state string
      let (final, cheermotes) ← addTexts fuel appended.state rest
      return (final, appended.cheermote.toList ++ cheermotes)

/-! ## The end of the recursion -/

theorem toInt_numeral {amount : QString} (numeral : IsNumeral amount) :
    amount.toInt = if inIntRange (decimalValue 0 amount) then some (decimalValue 0 amount : Int) else none :=
  toIntegral_numeral inIntRange numeral

/-- An amount is the text of its value, or it is out of range. -/
theorem cheerValue_numeral {amount : QString} (numeral : IsNumeral amount) :
    (∃ value : Nat, cheerValue amount = value ∧ number value = amount ∧ (value : Int) ≤ INT_MAX) ∨
      amount.toInt = none ∧ cheerValue amount = 0 := by
  rw [cheerValue, toInt_numeral numeral]
  split
  · next range => exact .inl ⟨decimalValue 0 amount, rfl, number_decimalValue numeral, (inIntRange_iff.mp range).2⟩
  · exact .inr ⟨rfl, rfl⟩

theorem cheerEmote_some {string : QString} {sets : List (CheerEmoteSet EmotePtr)} {emote : CheerEmote EmotePtr}
    (found : cheerEmote string sets = some emote) :
    ∃ amount, emote.regex.captured string = some amount ∧ emote.minBits ≤ cheerValue amount := by
  induction sets with
  | nil => cases found
  | cons set sets ih =>
    unfold cheerEmote at found
    split at found
    · exact ih found
    · next amount captured =>
      split at found
      · next first tier =>
        obtain rfl := Option.some.inj found
        have inSet := set.shared first (List.mem_of_find?_eq_some tier)
        have enough := List.find?_some tier
        exact ⟨amount, by rw [inSet, captured], of_decide_eq_true enough⟩
      · exact ih found

/-- The bits that a cheermote stands for. -/
def Cheermote.bits (cheermote : Cheermote EmotePtr) : Int := cheerValue cheermote.amount

/-- The amount is the text of the bits, or it is out of range and the tier is for any amount. -/
def Cheermote.Honest (cheermote : Cheermote EmotePtr) : Prop :=
  cheermote.amount = number cheermote.bits ∨
    cheermote.amount.toInt = none ∧ cheermote.bits = 0 ∧ cheermote.emote.minBits ≤ 0

/-- What a call does to the bits that are left. -/
structure Conserves (state : TextState) (appended : Appended EmotePtr) : Prop where
  natural : 0 ≤ appended.state.bitsLeft
  bits : stackBits = false →
    (appended.cheermote.toList.map Cheermote.bits).sum + appended.state.bitsLeft = state.bitsLeft
  honest : stackBits = false → ∀ cheermote ∈ appended.cheermote, cheermote.Honest
  left : stackBits = true → appended.state.bitsLeft = state.bitsLeft
  stacked : stackBits = true → state.bitsStacked = true →
    appended.state.bitsStacked = true ∧ appended.cheermote = none
  first : stackBits = true → ∀ cheermote ∈ appended.cheermote,
    appended.state.bitsStacked = true ∧ cheermote.amount = number state.bitsLeft

/-- A call that leaves the state alone. -/
theorem Conserves.same {state : TextState} (natural : 0 ≤ state.bitsLeft) (success : Bool) :
    Conserves stackBits state ({ success, state } : Appended EmotePtr) where
  natural := natural
  bits _ := Int.zero_add _
  honest _ := nofun
  left _ := rfl
  stacked _ already := ⟨already, rfl⟩
  first _ := nofun

theorem getLast_number (front : QString) (n : Nat) : (front ++ number n).getLast? ≠ some (u '\n') := by
  intro last
  rw [List.getLast?_append_of_ne_nil _ (number_ne_nil n)] at last
  have digit := List.all_eq_true.mp (number_digits n) _ (List.mem_of_getLast? last)
  exact absurd digit (by decide)

/-- A call comes to its end, or goes on with a word that has a smaller number at its end. -/
theorem tryAppendCheermote_turn (state : TextState) (natural : 0 ≤ state.bitsLeft) (string : QString) :
    (∃ appended, Conserves stackBits state appended ∧
      ∀ fuel, tryAppendCheermote sets stackBits (fuel + 1) state string = some appended) ∨
    ∃ again, (∀ fuel, tryAppendCheermote sets stackBits (fuel + 1) state string =
        tryAppendCheermote sets stackBits fuel state again) ∧ again.getLast? ≠ some (u '\n') ∧
      (string.getLast? ≠ some (u '\n') → endValue again < endValue string) := by
  simp only [tryAppendCheermote]
  split
  · exact .inl ⟨_, .same stackBits natural false, fun _ => rfl⟩
  · next left =>
    split
    · exact .inl ⟨_, .same stackBits natural false, fun _ => rfl⟩
    · next emote found =>
      obtain ⟨amount, captured, tier⟩ := cheerEmote_some found
      obtain ⟨numeral, front, shape⟩ := emote.regex.ends captured
      simp only [captured]
      cases stackBits with
      | true =>
        simp only [if_true]
        split
        · exact .inl ⟨_, .same true natural true, fun _ => rfl⟩
        · next fresh =>
          refine .inl ⟨_, ?_, fun _ => rfl⟩
          exact ⟨natural, nofun, nofun, fun _ => rfl, fun _ already => absurd already fresh,
            fun _ cheermote shown => ⟨rfl, by rw [← Option.some.inj shown]⟩⟩
      | false =>
        simp only [Bool.false_eq_true, if_false]
        have values := cheerValue_numeral numeral
        split
        · next enough =>
          refine .inl ⟨_, ?_, fun _ => rfl⟩
          refine ⟨by simpa using enough, fun _ => ?_, fun _ cheermote shown => ?_, nofun, nofun, nofun⟩
          · simp [Cheermote.bits]
          · obtain rfl := Option.some.inj shown
            rcases values with ⟨value, same, printed, -⟩ | ⟨outOfRange, zero⟩
            · exact .inl (by rw [Cheermote.bits, same, printed])
            · exact .inr ⟨outOfRange, zero, by rwa [zero] at tier⟩
        · next more =>
          -- only an amount that was read is more than what is left
          rcases values with ⟨value, same, printed, bounded⟩ | ⟨-, zero⟩
          · obtain ⟨bits, leftSame⟩ := Int.eq_ofNat_of_zero_le natural
            have less : bits < value := by omega
            have difference : cheerValue amount - state.bitsLeft = ((value - bits : Nat) : Int) := by omega
            have range : inIntRange (cheerValue amount - state.bitsLeft) = true :=
              inIntRange_iff.mpr ⟨by unfold INT_MIN; omega, by omega⟩
            refine .inr ⟨_, fun _ => if_pos range, ?_, fun noNewline => ?_⟩
            · rw [difference]
              exact getLast_number _ (value - bits)
            · rcases shape with rfl | rfl
              · have chopped : (front ++ amount).chop (number (cheerValue amount)).length = front := by
                  rw [same, printed, QString.chop, List.length_append, Nat.add_sub_cancel, List.take_left']
                  rfl
                rw [chopped, difference]
                have smaller := endValue_number_lt front (show value - bits < value by omega)
                rwa [printed] at smaller
              · exact absurd (List.getLast?_concat) noNewline
          · omega

/-- With enough fuel the recursion comes to its end. -/
theorem tryAppendCheermote_ends (state : TextState) (natural : 0 ≤ state.bitsLeft) (string : QString) :
    ∃ fuel appended, Conserves stackBits state appended ∧
      ∀ more, fuel ≤ more → tryAppendCheermote sets stackBits more state string = some appended := by
  have one {string : QString} {appended : Appended EmotePtr} (result : ∀ fuel,
      tryAppendCheermote sets stackBits (fuel + 1) state string = some appended) (more : Nat) (enough : 1 ≤ more) :
      tryAppendCheermote sets stackBits more state string = some appended := by
    obtain ⟨fuel, rfl⟩ := Nat.exists_eq_add_of_le' enough
    exact result fuel
  have next {string again : QString} {fuel : Nat} {appended : Appended EmotePtr} (goesOn : ∀ fuel,
      tryAppendCheermote sets stackBits (fuel + 1) state string = tryAppendCheermote sets stackBits fuel state again)
      (result : ∀ more, fuel ≤ more → tryAppendCheermote sets stackBits more state again = some appended)
      (more : Nat) (enough : fuel + 1 ≤ more) :
      tryAppendCheermote sets stackBits more state string = some appended := by
    obtain ⟨spare, rfl⟩ := Nat.exists_eq_add_of_le' enough
    rw [← Nat.add_assoc, goesOn]
    exact result (spare + fuel) (Nat.le_add_left _ _)
  have ends : ∀ value string, endValue string = value → string.getLast? ≠ some (u '\n') →
      ∃ fuel appended, Conserves stackBits state appended ∧
        ∀ more, fuel ≤ more → tryAppendCheermote sets stackBits more state string = some appended := by
    intro value
    induction value using Nat.strong_induction_on with
    | _ value ih =>
      rintro string rfl noNewline
      rcases tryAppendCheermote_turn sets stackBits state natural string with ⟨appended, conserves, result⟩ |
        ⟨again, goesOn, plain, smaller⟩
      · exact ⟨1, appended, conserves, one result⟩
      · obtain ⟨fuel, appended, conserves, result⟩ := ih _ (smaller noNewline) again rfl plain
        exact ⟨fuel + 1, appended, conserves, next goesOn result⟩
  -- a word with a newline at its end is written anew without it
  rcases tryAppendCheermote_turn sets stackBits state natural string with ⟨appended, conserves, result⟩ |
    ⟨again, goesOn, plain, -⟩
  · exact ⟨1, appended, conserves, one result⟩
  · obtain ⟨fuel, appended, conserves, result⟩ := ends _ again rfl plain
    exact ⟨fuel + 1, appended, conserves, next goesOn result⟩

/-! ## The texts of a message -/

theorem addTextOrEmote_ends (state : TextState) (natural : 0 ≤ state.bitsLeft) (string : QString) :
    ∃ fuel appended, Conserves stackBits state appended ∧
      ∀ more, fuel ≤ more → addTextOrEmote sets stackBits more state string = some appended := by
  unfold addTextOrEmote
  cases state.hasBits with
  | true => exact tryAppendCheermote_ends sets stackBits state natural string
  | false => exact ⟨0, _, .same stackBits natural false, fun _ _ => rfl⟩

/-- What the texts of a message do to the bits that are left. -/
structure ConservesAll (state final : TextState) (cheermotes : List (Cheermote EmotePtr)) : Prop where
  natural : 0 ≤ final.bitsLeft
  bits : stackBits = false → (cheermotes.map Cheermote.bits).sum + final.bitsLeft = state.bitsLeft
  honest : stackBits = false → ∀ cheermote ∈ cheermotes, cheermote.Honest
  left : stackBits = true → final.bitsLeft = state.bitsLeft
  stacked : stackBits = true → state.bitsStacked = true → cheermotes = []
  once : stackBits = true →
    cheermotes.length ≤ 1 ∧ ∀ cheermote ∈ cheermotes, cheermote.amount = number state.bitsLeft

theorem ConservesAll.cons {state final : TextState} {appended : Appended EmotePtr}
    {cheermotes : List (Cheermote EmotePtr)} (head : Conserves stackBits state appended)
    (rest : ConservesAll stackBits appended.state final cheermotes) :
    ConservesAll stackBits state final (appended.cheermote.toList ++ cheermotes) where
  natural := rest.natural
  bits plain := by
    rw [List.map_append, List.sum_append, Int.add_assoc, rest.bits plain]
    exact head.bits plain
  honest plain cheermote among := by
    rcases List.mem_append.mp among with here | later
    · exact head.honest plain cheermote (Option.mem_toList.mp here)
    · exact rest.honest plain cheermote later
  left stacking := (rest.left stacking).trans (head.left stacking)
  stacked stacking already := by
    obtain ⟨still, none_⟩ := head.stacked stacking already
    rw [none_, rest.stacked stacking still]
    rfl
  once stacking := by
    obtain ⟨few, whole⟩ := rest.once stacking
    rw [head.left stacking] at whole
    cases shown : appended.cheermote with
    | none => exact ⟨few, whole⟩
    | some cheermote =>
      obtain ⟨now, amount⟩ := head.first stacking cheermote shown
      -- the state is stacked now, so no later text shows a cheermote
      rw [rest.stacked stacking now]
      exact ⟨Nat.le_refl 1, fun other same => by rwa [List.mem_singleton.mp same]⟩

theorem addTexts_ends (texts : List QString) (state : TextState) (natural : 0 ≤ state.bitsLeft) :
    ∃ fuel final cheermotes, ConservesAll stackBits state final cheermotes ∧
      ∀ more, fuel ≤ more → addTexts sets stackBits more state texts = some (final, cheermotes) := by
  induction texts generalizing state with
  | nil =>
    refine ⟨0, state, [], ?_, fun _ _ => rfl⟩
    exact ⟨natural, fun _ => Int.zero_add _, fun _ => nofun, fun _ => rfl, fun _ _ => rfl,
      fun _ => ⟨Nat.zero_le 1, nofun⟩⟩
  | cons string rest ih =>
    obtain ⟨fuel, appended, conserves, result⟩ := addTextOrEmote_ends sets stackBits state natural string
    obtain ⟨laterFuel, final, cheermotes, conservesAll, results⟩ := ih appended.state conserves.natural
    refine ⟨max fuel laterFuel, final, _, conservesAll.cons stackBits conserves, fun more enough => ?_⟩
    rw [addTexts, result more (by omega)]
    change (addTexts sets stackBits more appended.state rest).bind _ = _
    rw [results more (by omega)]
    rfl

end

/-- The text state of a message with these tags. -/
def textState (qt : QtTables) (tags : List (QString × QString)) : TextState :=
  match tags.lookup (qs "bits") with
  | none => {}
  | some bits => { hasBits := true, bitsLeft := (((QVariant.string bits).convert qt .int).getD (.int 0)).toInt }

/-- For a tag that is not negative the recursion ends on every text, and no bits are lost or invented. -/
theorem cheermotes_conserve {EmotePtr : Type} (sets : List (CheerEmoteSet EmotePtr)) (stackBits : Bool) (qt : QtTables)
    (tags : List (QString × QString)) (natural : 0 ≤ (textState qt tags).bitsLeft) (texts : List QString) :
    ∃ fuel final cheermotes, (∀ more, fuel ≤ more →
        addTexts sets stackBits more (textState qt tags) texts = some (final, cheermotes)) ∧
      0 ≤ final.bitsLeft ∧
      (stackBits = false → (cheermotes.map Cheermote.bits).sum + final.bitsLeft = (textState qt tags).bitsLeft ∧
        ∀ cheermote ∈ cheermotes, cheermote.Honest) ∧
      (stackBits = true → final.bitsLeft = (textState qt tags).bitsLeft ∧ cheermotes.length ≤ 1 ∧
        ∀ cheermote ∈ cheermotes, cheermote.amount = number (textState qt tags).bitsLeft) := by
  obtain ⟨fuel, final, cheermotes, conserves, result⟩ :=
    addTexts_ends sets stackBits texts (textState qt tags) natural
  exact ⟨fuel, final, cheermotes, result, conserves.natural,
    fun plain => ⟨conserves.bits plain, conserves.honest plain⟩,
    fun stacking => ⟨conserves.left stacking, conserves.once stacking⟩⟩

/-- The expression for a prefix of plain ASCII characters. -/
def cheerRegex (start : QString) : CheerRegex where
  captured string :=
    let behind := string.drop start.length
    if asciiTables.caseFold (string.take start.length) ≠ asciiTables.caseFold start then none
    else if IsNumeral behind then some behind
    else if behind.getLast? = some (u '\n') ∧ IsNumeral behind.dropLast then some behind.dropLast
    else none
  ends := by
    intro string amount found
    dsimp only at found
    split at found
    · cases found
    · have whole := List.take_append_drop start.length string
      split at found
      · next numeral =>
        obtain rfl := Option.some.inj found
        exact ⟨numeral, _, .inl whole.symm⟩
      · obtain ⟨⟨newline, numeral⟩, same⟩ := Option.ite_none_right_eq_some.mp found
        obtain rfl := Option.some.inj same
        refine ⟨numeral, string.take start.length, .inr ?_⟩
        rw [List.append_assoc, List.dropLast_append_getLast? _ newline, whole]

/-- One set with one tier, which the text of its emote stands for. -/
def cheer : CheerEmoteSet QString where
  regex := cheerRegex (qs "Cheer")
  cheerEmotes := [⟨⟨true, 0, 0, 0, 0⟩, 1, cheerRegex (qs "Cheer"), none, some (qs "cheer emote")⟩]
  shared := fun _ among => by rw [List.mem_singleton.mp among]

theorem cheermotes_conserve_five :
    (addTexts [cheer] false 2 (textState asciiTables [(qs "bits", qs "5")]) [qs "Cheer7", qs "cheer3"]).map
        (fun result => (result.1.bitsLeft, result.2.map Cheermote.amount)) = some (0, [qs "2", qs "3"]) ∧
      ∃ final cheermotes, (∃ fuel, addTexts [cheer] false fuel (textState asciiTables [(qs "bits", qs "5")])
        [qs "Cheer7", qs "cheer3"] = some (final, cheermotes)) ∧
          (cheermotes.map Cheermote.bits).sum + final.bitsLeft = 5 := by
  obtain ⟨fuel, final, cheermotes, result, -, plain, -⟩ :=
    cheermotes_conserve [cheer] false asciiTables [(qs "bits", qs "5")] (by decide) [qs "Cheer7", qs "cheer3"]
  exact ⟨by decide, final, cheermotes, ⟨fuel, result fuel (Nat.le_refl fuel)⟩, (plain rfl).1.trans (by decide)⟩

/-- Stacked bits are shown and are left as well, and a negative tag leaves less than none. -/
theorem addTexts_stacked :
    (∃ final cheermotes, addTexts [cheer] true 1 (textState asciiTables [(qs "bits", qs "100")]) [qs "Cheer100"] =
        some (final, cheermotes) ∧ (cheermotes.map Cheermote.bits).sum + final.bitsLeft = 200) ∧
      (textState asciiTables [(qs "bits", qs "100")]).bitsLeft = 100 ∧
      (textState asciiTables [(qs "bits", qs "-1")]).bitsLeft = -1 :=
  ⟨⟨_, _, rfl, by decide⟩, by decide, by decide⟩

end Forserino.Emotes
