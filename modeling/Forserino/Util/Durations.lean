import Forserino.Foundation.Spans
import Forserino.Qt.Numerals
import Forserino.Filters.Coverage

/-! parseDurationToSeconds and the grammar of the texts that it reads.
-/

set_option autoImplicit false

namespace Forserino.Util

open Forserino.Qt Forserino.Foundation
open Forserino.Filters (isWhitespace)

/-- The zeros of the decimal digits that Unicode has below U+10000. -/
def decimalZeros : List Nat :=
  [0x30, 0x660, 0x6F0, 0x7C0, 0x966, 0x9E6, 0xA66, 0xAE6, 0xB66, 0xBE6, 0xC66, 0xCE6, 0xD66, 0xDE6, 0xE50, 0xED0,
    0xF20, 0x1040, 0x1090, 0x17E0, 0x1810, 0x1946, 0x19D0, 0x1A80, 0x1A90, 0x1B50, 0x1BB0, 0x1C40, 0x1C50, 0xA620,
    0xA8D0, 0xA900, 0xA9D0, 0xA9F0, 0xAA50, 0xABF0, 0xFF10]

/-- QChar::isDigit -/
def isDecimal (c : QChar) : Bool := decimalZeros.any fun first => first ≤ c.toNat && c.toNat ≤ first + 9

/-- QChar::toLatin1 -/
def toLatin1 (c : QChar) : QChar := if c.toNat ≤ 0xFF then c else 0

/-- QStringView::trimmed -/
def trimmedView (view : QString) : QString := (view.dropWhile isWhitespace).rdropWhile isWhitespace

def skipSpace (view : QString) (startPos : Nat) : Int :=
  (startPos + ((view.drop startPos).takeWhile isWhitespace).length : Nat) - 1

def matchesIgnorePlural (word expected : QString) : Bool :=
  if !word.startsWith expected then false
  else if word.length = expected.length then true
  else word.length = expected.length + 1 && word.getLast?.map toLatin1 = some (u 's')

/-- The switch of findUnitMultiplierToSec. -/
def unitMultiplier (unit : QString) : UInt64 × Bool :=
  match unit with
  | [] => (0, false)
  | first :: _ =>
      if toLatin1 first = u 's' then
        if unit.length = 1 || matchesIgnorePlural unit (qs "second") then (1, true) else (0, false)
      else if toLatin1 first = u 'm' then
        if unit.length = 1 || matchesIgnorePlural unit (qs "minute") then (60, true)
        else if (unit.length = 2 && unit[1]?.map toLatin1 = some (u 'o')) || matchesIgnorePlural unit (qs "month") then
          (60 * 60 * 24 * 30, true)
        else (0, false)
      else if toLatin1 first = u 'h' then
        if unit.length = 1 || matchesIgnorePlural unit (qs "hour") then (60 * 60, true) else (0, false)
      else if toLatin1 first = u 'd' then
        if unit.length = 1 || matchesIgnorePlural unit (qs "day") then (60 * 60 * 24, true) else (0, false)
      else if toLatin1 first = u 'w' then
        if unit.length = 1 || matchesIgnorePlural unit (qs "week") then (60 * 60 * 24 * 7, true) else (0, false)
      else (0, false)

/-- A unit goes on until a space or a digit. -/
def inUnit (c : QChar) : Bool := !(isWhitespace c || isDecimal c)

/-- The multiplier with its flag, and the position of the last character of the unit. -/
def findUnitMultiplierToSec (view : QString) (pos : Nat) : (UInt64 × Bool) × Int :=
  let unit := (view.drop pos).takeWhile inUnit
  (unitMultiplier unit, (pos + unit.length : Nat) - 1)

structure DurationState where
  currentValue : UInt64
  visitingNumber : Bool
  numberStartIdx : Nat

/-- The loop of parseDurationToSeconds over what the input has from pos on, none where it returns -1.
The loop moves pos behind a unit, so skip counts the characters up to there. -/
def durationLoop (input : QString) : Nat → Nat → QString → DurationState → Option DurationState
  | _, _, [], state => some state
  | skip + 1, pos, _ :: rest, state => durationLoop input skip (pos + 1) rest state
  | 0, pos, c :: rest, state =>
      if state.visitingNumber && !isDecimal c then
        let parsed := UInt64.ofNat (input.midN state.numberStartIdx (pos - state.numberStartIdx)).toUInt
        let unitPos := if isWhitespace c then (skipSpace input pos + 1).toNat else pos
        if isWhitespace c && unitPos ≥ input.length then none
        else
          let found := findUnitMultiplierToSec input unitPos
          if !found.1.2 then none
          else
            durationLoop input (found.2.toNat - pos) (pos + 1) rest
              { state with
                currentValue := state.currentValue + parsed * found.1.1
                visitingNumber := false }
      else if !state.visitingNumber && !isWhitespace c then
        if !isDecimal c then none
        else durationLoop input 0 (pos + 1) rest { state with visitingNumber := true, numberStartIdx := pos }
      else durationLoop input 0 (pos + 1) rest state

def parseDurationToSeconds (inputString : QString) (noUnitMultiplier : UInt64) : Int :=
  if inputString.length = 0 then -1
  else
    let input := trimmedView inputString
    match durationLoop input 0 0 input ⟨0, true, 0⟩ with
    | none => -1
    | some state =>
        if state.visitingNumber then
          if state.numberStartIdx ≠ 0 then -1
          else (state.currentValue + UInt64.ofNat input.toUInt * noUnitMultiplier).toInt64.toInt
        else state.currentValue.toInt64.toInt

example : parseDurationToSeconds (qs "4 hours 30m 19h 30 minute") 1 = 86400 := by decide

/-! ## The grammar -/

/-- The names of the units and their seconds. -/
def units : List (QString × Nat) :=
  [(qs "s", 1), (qs "second", 1), (qs "seconds", 1), (qs "m", 60), (qs "minute", 60), (qs "minutes", 60),
    (qs "h", 3600), (qs "hour", 3600), (qs "hours", 3600), (qs "d", 86400), (qs "day", 86400), (qs "days", 86400),
    (qs "w", 604800), (qs "week", 604800), (qs "weeks", 604800), (qs "mo", 2592000), (qs "month", 2592000),
    (qs "months", 2592000)]

/-- Digits, optional spaces, a unit and optional spaces. -/
structure Part where
  number : QString
  gap : QString
  unit : QString
  seconds : Nat
  tail : QString
  digits : number.all isDecimal = true
  blank : gap.all isWhitespace = true
  known : (unit, seconds) ∈ units
  blankTail : tail.all isWhitespace = true

def Part.text (p : Part) : QString := p.number ++ (p.gap ++ (p.unit ++ p.tail))

def Part.total (p : Part) : Nat := decimalValue 0 p.number * p.seconds

/-- One or more numbers with their units, or digits alone, which count by the multiplier. -/
inductive IsDuration (noUnitMultiplier : Nat) : QString → Nat → Prop where
  | parts {parts : List Part} (some_ : parts ≠ []) (numbered : ∀ p ∈ parts, p.number ≠ []) :
      IsDuration noUnitMultiplier (parts.flatMap Part.text) (parts.map Part.total).sum
  | digits {number : QString} (some_ : number ≠ []) (all : number.all isDecimal = true) :
      IsDuration noUnitMultiplier number (decimalValue 0 number * noUnitMultiplier)

/-- There is no number in front of the first unit, or there is nothing but spaces. -/
def LacksNumber (inputString : QString) : Prop :=
  (inputString ≠ [] ∧ trimmedView inputString = []) ∨
    ∃ (first : Part) (parts : List Part), first.number = [] ∧ (∀ p ∈ parts, p.number ≠ []) ∧
      trimmedView inputString = first.text ++ parts.flatMap Part.text

/-- Every number of the text is an uint in ASCII digits. -/
def PlainNumbers (text : QString) : Prop :=
  ∀ front number back, text = front ++ number ++ back → number.all isDecimal = true →
    number.all isDigit = true ∧ (decimalValue 0 number : Int) ≤ UINT_MAX

/-! ## Characters -/

theorem isDecimal_of_isDigit {c : QChar} (digit : isDigit c = true) : isDecimal c = true :=
  List.any_eq_true.mpr ⟨0x30, by decide, digit⟩

/-- No space is a digit. -/
theorem isWhitespace_of_isDecimal {c : QChar} (digit : isDecimal c = true) : isWhitespace c = false := by
  obtain ⟨first, among, inside⟩ := List.any_eq_true.mp digit
  have bounds : first ≤ c.toNat ∧ c.toNat ≤ first + 9 := by simpa using inside
  -- every block of digits lies between two spaces
  have apart : ∀ first ∈ decimalZeros, (14 ≤ first ∧ first + 9 < 0x85 ∧ 32 < first) ∨
      (0xA0 < first ∧ first + 9 < 0x1680) ∨ (0x1680 < first ∧ first + 9 < 0x2000) ∨ 0x3000 < first := by decide
  have gap := apart first among
  rw [Bool.eq_false_iff]
  intro space
  simp only [isWhitespace, Bool.or_eq_true, Bool.and_eq_true, beq_iff_eq, decide_eq_true_eq, or_assoc] at space
  rcases space with rfl | space
  · have value : (u ' ').toNat = 32 := rfl
    omega
  · omega

theorem toLatin1_eq {c : QChar} {letter : Char} (visible : (u letter).toNat ≠ 0) (latin : (u letter).toNat ≤ 0xFF) :
    toLatin1 c = u letter ↔ c = u letter := by
  unfold toLatin1
  split
  · rfl
  · constructor
    · intro none_
      rw [← none_] at visible
      exact absurd rfl visible
    · rintro rfl
      contradiction

theorem units_letters : ∀ named ∈ units, named.1 ≠ [] ∧ named.1.all inUnit = true := by decide

theorem inUnit_iff {c : QChar} : inUnit c = true ↔ isWhitespace c = false ∧ isDecimal c = false := by
  simp [inUnit]

/-! ## Units -/

theorem matchesIgnorePlural_iff {word expected : QString} :
    matchesIgnorePlural word expected = true ↔ word = expected ∨ word = expected ++ [u 's'] := by
  unfold matchesIgnorePlural QString.startsWith
  by_cases starts : expected <+: word
  · obtain ⟨behind, rfl⟩ := starts
    have prefixed : expected.isPrefixOf (expected ++ behind) = true := List.isPrefixOf_iff_prefix.mpr ⟨behind, rfl⟩
    rw [prefixed]
    cases behind with
    | nil => simp
    | cons c behind =>
      cases behind with
      | nil =>
        have latin := @toLatin1_eq c 's' (by decide) (by decide)
        simp [latin]
      | cons d behind => simp
  · have other : expected.isPrefixOf word = false := by
      rw [← Bool.not_eq_true, List.isPrefixOf_iff_prefix]
      exact starts
    rw [other]
    constructor
    · intro impossible
      cases impossible
    · rintro (rfl | rfl)
      · exact absurd (List.prefix_refl _) starts
      · exact absurd (List.prefix_append _ _) starts

theorem unitMultiplier_units : ∀ named ∈ units, unitMultiplier named.1 = (UInt64.ofNat named.2, true) := by decide

theorem spelled {first : QChar} {rest name : QString} {letter : Char} (initial : first = u letter)
    (fits : ((first :: rest).length = 1 || matchesIgnorePlural (first :: rest) name) = true) :
    first :: rest = [u letter] ∨ first :: rest = name ∨ first :: rest = name ++ [u 's'] := by
  rw [Bool.or_eq_true, matchesIgnorePlural_iff, decide_eq_true_eq] at fits
  refine fits.imp_left fun short => ?_
  rw [initial, List.length_eq_zero_iff.mp (Nat.succ.inj short)]

theorem known_unit {unit : QString} (found : (unitMultiplier unit).2 = true) : ∃ seconds, (unit, seconds) ∈ units := by
  cases unit with
  | nil => cases found
  | cons first rest =>
    unfold unitMultiplier at found
    dsimp only at found
    have named {letter : Char} {name : QString} (seconds : Nat) (initial : first = u letter)
        (listed : ∀ unit ∈ [[u letter], name, name ++ [u 's']], (unit, seconds) ∈ units)
        (fits : ((first :: rest).length = 1 || matchesIgnorePlural (first :: rest) name) = true) :
        ∃ seconds, (first :: rest, seconds) ∈ units := by
      refine ⟨seconds, listed _ ?_⟩
      rcases spelled initial fits with same | same | same <;> rw [same] <;> simp
    have latin {letter : Char} (visible : (u letter).toNat ≠ 0) (small : (u letter).toNat ≤ 0xFF) :=
      (toLatin1_eq (c := first) visible small).mp
    split at found
    · next initial =>
      split at found
      · next fits => exact named 1 (latin (by decide) (by decide) initial) (by decide) fits
      · cases found
    · split at found
      · next initial =>
        split at found
        · next fits => exact named 60 (latin (by decide) (by decide) initial) (by decide) fits
        · split at found
          · next fits =>
            refine ⟨2592000, ?_⟩
            rw [Bool.or_eq_true, matchesIgnorePlural_iff] at fits
            rcases fits with short | long | long
            · have initial := latin (by decide) (by decide) initial
              rw [Bool.and_eq_true, decide_eq_true_eq, decide_eq_true_eq] at short
              obtain ⟨second, rfl⟩ := List.length_eq_one_iff.mp (Nat.succ.inj short.1)
              have second_ := Option.some.inj short.2
              rw [toLatin1_eq (by decide) (by decide)] at second_
              rw [initial, second_]
              decide
            · rw [long]
              decide
            · rw [long]
              decide
          · cases found
      · split at found
        · next initial =>
          split at found
          · next fits => exact named 3600 (latin (by decide) (by decide) initial) (by decide) fits
          · cases found
        · split at found
          · next initial =>
            split at found
            · next fits => exact named 86400 (latin (by decide) (by decide) initial) (by decide) fits
            · cases found
          · split at found
            · next initial =>
              split at found
              · next fits => exact named 604800 (latin (by decide) (by decide) initial) (by decide) fits
              · cases found
            · cases found

/-! ## The loop -/

section Loop

variable (input : QString)

theorem durationLoop_skip (front back : QString) (pos : Nat) (state : DurationState) :
    durationLoop input front.length pos (front ++ back) state =
      durationLoop input 0 (pos + front.length) back state := by
  induction front generalizing pos with
  | nil => rfl
  | cons c front ih =>
    rw [List.length_cons, List.cons_append, durationLoop, ih, Nat.add_right_comm, Nat.add_assoc]

theorem durationLoop_digits {digits : QString} (all : digits.all isDecimal = true) (back : QString) (pos : Nat)
    {state : DurationState} (visiting : state.visitingNumber = true) :
    durationLoop input 0 pos (digits ++ back) state = durationLoop input 0 (pos + digits.length) back state := by
  induction digits generalizing pos with
  | nil => rfl
  | cons c digits ih =>
    rw [List.all_cons, Bool.and_eq_true] at all
    rw [List.cons_append, durationLoop, List.length_cons]
    simp only [visiting, all.1, Bool.not_true, Bool.and_false, Bool.false_and, Bool.false_eq_true, if_false]
    rw [ih all.2, Nat.add_right_comm, Nat.add_assoc]

theorem durationLoop_blanks {blanks : QString} (all : blanks.all isWhitespace = true) (back : QString) (pos : Nat)
    {state : DurationState} (visiting : state.visitingNumber = false) :
    durationLoop input 0 pos (blanks ++ back) state = durationLoop input 0 (pos + blanks.length) back state := by
  induction blanks generalizing pos with
  | nil => rfl
  | cons c blanks ih =>
    rw [List.all_cons, Bool.and_eq_true] at all
    rw [List.cons_append, durationLoop, List.length_cons]
    simp only [visiting, all.1, Bool.not_true, Bool.and_false, Bool.false_and, Bool.false_eq_true, if_false]
    rw [ih all.2, Nat.add_right_comm, Nat.add_assoc]

/-- A digit behind a unit begins the next number. -/
theorem durationLoop_number {c : QChar} (digit : isDecimal c = true) (rest : QString) (pos : Nat)
    (currentValue : UInt64) (numberStartIdx : Nat) :
    durationLoop input 0 pos (c :: rest) ⟨currentValue, false, numberStartIdx⟩ =
      durationLoop input 0 pos (c :: rest) ⟨currentValue, true, pos⟩ := by
  simp [durationLoop, digit, isWhitespace_of_isDecimal digit]

/-- Anything else behind a unit is no duration. -/
theorem durationLoop_other {c : QChar} (blank : isWhitespace c = false) (digit : isDecimal c = false) (rest : QString)
    (pos : Nat) (currentValue : UInt64) (numberStartIdx : Nat) :
    durationLoop input 0 pos (c :: rest) ⟨currentValue, false, numberStartIdx⟩ = none := by
  simp [durationLoop, digit, blank]

end Loop

theorem skipSpace_span {front gap back : QString} (blank : gap.all isWhitespace = true)
    (stops : Stops isWhitespace back) :
    (skipSpace (front ++ (gap ++ back)) front.length + 1).toNat = front.length + gap.length := by
  rw [skipSpace, List.drop_left, takeWhile_stops blank stops, Int.sub_add_cancel, Int.toNat_natCast]

theorem findUnitMultiplierToSec_span {front unit back : QString} (inside : unit.all inUnit = true)
    (stops : Stops inUnit back) :
    findUnitMultiplierToSec (front ++ (unit ++ back)) front.length =
      (unitMultiplier unit, ((front.length + unit.length : Nat) : Int) - 1) := by
  rw [findUnitMultiplierToSec, List.drop_left, takeWhile_stops inside stops]

/-- A number is followed by its unit, or the text is refused. -/
theorem durationLoop_unit {front number gap unit back : QString} (blank : gap.all isWhitespace = true)
    (inside : unit.all inUnit = true) (stopsGap : Stops isWhitespace (unit ++ back)) (stops : Stops inUnit back)
    (some_ : gap ++ unit ≠ []) (currentValue : UInt64) :
    durationLoop (front ++ (number ++ (gap ++ (unit ++ back)))) 0 (front ++ number).length (gap ++ (unit ++ back))
        ⟨currentValue, true, front.length⟩ =
      if (unitMultiplier unit).2 then
        durationLoop (front ++ (number ++ (gap ++ (unit ++ back)))) 0 (front ++ number ++ gap ++ unit).length back
          ⟨currentValue + UInt64.ofNat number.toUInt * (unitMultiplier unit).1, false, front.length⟩
      else none := by
  obtain ⟨c, consumed, shape⟩ := List.exists_cons_of_ne_nil some_
  have head : isDecimal c = false ∧ (isWhitespace c = true ∨ (gap = [] ∧ isWhitespace c = false)) := by
    cases gap with
    | nil =>
      have letter : inUnit c = true := List.all_eq_true.mp inside c (by simp [show unit = c :: consumed from shape])
      exact ⟨(inUnit_iff.mp letter).2, .inr ⟨rfl, (inUnit_iff.mp letter).1⟩⟩
    | cons first gap =>
      obtain rfl : first = c := (List.cons.inj shape).1
      have white : isWhitespace first = true := List.all_eq_true.mp blank first List.mem_cons_self
      refine ⟨?_, .inl white⟩
      by_contra digit
      rw [isWhitespace_of_isDecimal (Bool.not_eq_false _ ▸ digit)] at white
      cases white
  generalize whole : front ++ (number ++ (gap ++ (unit ++ back))) = input
  have assoc : input = (front ++ number) ++ (gap ++ (unit ++ back)) := by rw [← whole, List.append_assoc]
  have parsed : input.midN front.length ((front ++ number).length - front.length) = number := by
    rw [QString.midN, ← whole, List.drop_left, List.length_append, Nat.add_sub_cancel_left, List.take_left]
  have unitPos : (if isWhitespace c then (skipSpace input (front ++ number).length + 1).toNat
      else (front ++ number).length) = (front ++ number ++ gap).length := by
    rcases head.2 with white | ⟨rfl, letter⟩
    · rw [if_pos white, assoc, skipSpace_span blank stopsGap, ← List.length_append]
    · rw [letter, List.append_nil]
      rfl
  have found : findUnitMultiplierToSec input (front ++ number ++ gap).length =
      (unitMultiplier unit, (((front ++ number ++ gap).length + unit.length : Nat) : Int) - 1) := by
    rw [assoc, ← List.append_assoc (front ++ number), findUnitMultiplierToSec_span inside stops]
  have text : gap ++ (unit ++ back) = c :: (consumed ++ back) := by
    rw [← List.append_assoc, shape, List.cons_append]
  rw [text, durationLoop]
  simp only [head.1, Bool.not_false, Bool.and_self, if_true, unitPos, found, parsed]
  cases known : (unitMultiplier unit).2 with
  | false => simp
  | true =>
    have letters : unit ≠ [] := by
      rintro rfl
      cases known
    have some_ := List.length_pos_iff.mpr letters
    have ends : ¬ (front ++ number ++ gap).length ≥ input.length := by
      rw [assoc]
      simp only [List.length_append]
      omega
    have sizes := congrArg List.length shape
    simp only [List.length_append, List.length_cons] at sizes
    have jump : (((front ++ number ++ gap).length + unit.length : Nat) - 1 : Int).toNat - (front ++ number).length =
        consumed.length := by
      simp only [List.length_append]
      omega
    have place : (front ++ number).length + 1 + consumed.length = (front ++ number ++ gap ++ unit).length := by
      simp only [List.length_append]
      omega
    simp only [decide_eq_false ends, Bool.and_false, Bool.false_eq_true, if_false, Bool.not_true, if_true]
    rw [jump, durationLoop_skip, place]

/-! ## Parts -/

/-- What the loop adds for a part: toUInt gives 0 for a number that is no uint. -/
def Part.added (p : Part) : Nat := p.number.toUInt * p.seconds

theorem Part.unit_ne_nil (p : Part) : p.unit ≠ [] := (units_letters _ p.known).1

theorem Part.unit_inUnit (p : Part) : p.unit.all inUnit = true := (units_letters _ p.known).2

theorem stops_blank {tail back : QString} (blank : tail.all isWhitespace = true)
    (next : ∀ c ∈ back.head?, isDecimal c = true) : Stops inUnit (tail ++ back) := by
  cases tail with
  | nil =>
    intro c first
    simp [inUnit, next c first]
  | cons c tail =>
    have white : isWhitespace c = true := List.all_eq_true.mp blank c List.mem_cons_self
    simp [Stops, inUnit, white]

theorem stops_letters {p : QChar → Bool} {unit : QString} (inside : unit.all inUnit = true) (some_ : unit ≠ [])
    (apart : ∀ c, inUnit c = true → p c = false) (back : QString) : Stops p (unit ++ back) := by
  refine Stops.append ?_ some_
  intro c first
  exact apart c (List.all_eq_true.mp inside c (List.mem_of_mem_head? first))

theorem durationLoop_part (p : Part) (front back : QString) (next : ∀ c ∈ back.head?, isDecimal c = true)
    (currentValue : UInt64) :
    durationLoop (front ++ (p.text ++ back)) 0 front.length (p.text ++ back) ⟨currentValue, true, front.length⟩ =
      durationLoop (front ++ (p.text ++ back)) 0 (front ++ p.text).length back
        ⟨currentValue + UInt64.ofNat p.added, false, front.length⟩ := by
  have text : p.text ++ back = p.number ++ (p.gap ++ (p.unit ++ (p.tail ++ back))) := by simp [Part.text]
  have stopsGap := stops_letters p.unit_inUnit p.unit_ne_nil (fun c letter => (inUnit_iff.mp letter).1) (p.tail ++ back)
  have read := @durationLoop_unit front p.number p.gap p.unit _ p.blank p.unit_inUnit stopsGap
    (stops_blank p.blankTail next) (by simp [p.unit_ne_nil]) currentValue
  have multiplier := unitMultiplier_units _ p.known
  have ends : (front ++ p.number ++ p.gap ++ p.unit).length + p.tail.length = (front ++ p.text).length := by
    simp only [Part.text, List.length_append]
    omega
  rw [text, durationLoop_digits _ p.digits _ _ rfl, ← List.length_append, read, multiplier, if_pos rfl,
    durationLoop_blanks _ p.blankTail _ _ rfl, ends, Part.added, UInt64.ofNat_mul]

theorem head_of_number {p : Part} (numbered : p.number ≠ []) (back : QString) :
    ∃ c rest, p.text ++ back = c :: rest ∧ isDecimal c = true := by
  obtain ⟨c, number, shape⟩ := List.exists_cons_of_ne_nil numbered
  have digits := p.digits
  rw [shape, List.all_cons, Bool.and_eq_true] at digits
  exact ⟨c, _, by rw [Part.text, shape]; rfl, digits.1⟩

theorem head_of_parts {parts : List Part} (numbered : ∀ p ∈ parts, p.number ≠ []) :
    ∀ c ∈ (parts.flatMap Part.text).head?, isDecimal c = true := by
  cases parts with
  | nil =>
    intro c first
    cases first
  | cons p parts =>
    obtain ⟨c, rest, shape, digit⟩ := head_of_number (numbered p List.mem_cons_self) (parts.flatMap Part.text)
    rw [List.flatMap_cons, shape]
    simpa using digit

/-- Behind a unit, parts are read to their end. -/
theorem durationLoop_parts {parts : List Part} (numbered : ∀ p ∈ parts, p.number ≠ []) (front : QString) (value : Nat)
    (numberStartIdx : Nat) :
    ∃ last, durationLoop (front ++ parts.flatMap Part.text) 0 front.length (parts.flatMap Part.text)
        ⟨UInt64.ofNat value, false, numberStartIdx⟩ =
      some ⟨UInt64.ofNat (value + (parts.map Part.added).sum), false, last⟩ := by
  induction parts generalizing front value numberStartIdx with
  | nil => exact ⟨numberStartIdx, by simp [durationLoop]⟩
  | cons p parts ih =>
    have later : ∀ q ∈ parts, q.number ≠ [] := fun q among => numbered q (List.mem_cons_of_mem _ among)
    obtain ⟨c, rest, shape, digit⟩ := head_of_number (numbered p List.mem_cons_self) (parts.flatMap Part.text)
    obtain ⟨last, read⟩ := ih later (front ++ p.text) (value + p.added) front.length
    refine ⟨last, ?_⟩
    rw [List.append_assoc] at read
    have begins := durationLoop_number (front ++ (c :: rest)) digit rest front.length (UInt64.ofNat value) numberStartIdx
    rw [List.flatMap_cons, shape, begins, ← shape, durationLoop_part p front _ (head_of_parts later),
      ← UInt64.ofNat_add, read, List.map_cons, List.sum_cons, Nat.add_assoc]

/-- The first part is read although its number may be missing. -/
theorem durationLoop_all (first : Part) {parts : List Part} (numbered : ∀ p ∈ parts, p.number ≠ []) :
    ∃ last, durationLoop (first.text ++ parts.flatMap Part.text) 0 0 (first.text ++ parts.flatMap Part.text) ⟨0, true, 0⟩ =
      some ⟨UInt64.ofNat (first.added + (parts.map Part.added).sum), false, last⟩ := by
  have begins := durationLoop_part first [] (parts.flatMap Part.text) (head_of_parts numbered) 0
  obtain ⟨last, read⟩ := durationLoop_parts numbered first.text first.added 0
  rw [UInt64.zero_add] at begins
  exact ⟨last, begins.trans read⟩

/-! ## Refused texts -/

/-- What the loop has come through, and how it has ended. -/
inductive Outcome (front rest : QString) (currentValue : UInt64) (final : DurationState) : Prop where
  | digits (all : rest.all isDecimal = true) (same : final = ⟨currentValue, true, front.length⟩)
  | parts {first : Part} {parts : List Part} (text : rest = first.text ++ parts.flatMap Part.text)
      (number : first.number = rest.takeWhile isDecimal) (numbered : ∀ p ∈ parts, p.number ≠ [])
      (idle : final.visitingNumber = false)
  | unfinished (visiting : final.visitingNumber = true) (later : final.numberStartIdx ≠ 0)

theorem durationLoop_outcome (front rest : QString) (currentValue : UInt64) {final : DurationState}
    (ended : durationLoop (front ++ rest) 0 front.length rest ⟨currentValue, true, front.length⟩ = some final) :
    Outcome front rest currentValue final := by
  -- what is left behind a part is shorter
  generalize size : rest.length = n
  induction n using Nat.strong_induction_on generalizing front rest currentValue with
  | _ n ih =>
    obtain ⟨number, after, rfl, digits, stopsNumber⟩ := exists_span isDecimal rest
    rw [durationLoop_digits _ digits _ _ rfl] at ended
    cases after with
    | nil =>
      rw [durationLoop] at ended
      refine .digits (by simpa using digits) (Option.some.inj ended).symm
    | cons c after =>
      have letter := stops_cons.mp stopsNumber
      obtain ⟨gap, behindGap, shape, blank, stopsGap⟩ := exists_span isWhitespace (c :: after)
      obtain ⟨unit, behindUnit, rfl, inside, stopsUnit⟩ := exists_span inUnit behindGap
      have some_ : gap ++ unit ≠ [] := by
        intro none_
        obtain ⟨rfl, rfl⟩ := List.append_eq_nil_iff.mp none_
        obtain rfl : c :: after = behindUnit := shape
        have white := stops_cons.mp stopsGap
        have other := stops_cons.mp stopsUnit
        rw [inUnit, white, letter] at other
        cases other
      rw [shape, ← List.length_append, durationLoop_unit blank inside stopsGap stopsUnit some_] at ended
      split at ended
      · next known =>
        obtain ⟨seconds, named⟩ := known_unit known
        obtain ⟨tail, behind, rfl, blankTail, stopsTail⟩ := exists_span isWhitespace behindUnit
        let p : Part := ⟨number, gap, unit, seconds, tail, digits, blank, named, blankTail⟩
        have text : number ++ c :: after = p.text ++ behind := by simp [shape, p, Part.text]
        have whole : front ++ (number ++ (gap ++ (unit ++ (tail ++ behind)))) = front ++ p.text ++ behind := by
          simp [p, Part.text]
        have taken : p.number = (number ++ c :: after).takeWhile isDecimal := (takeWhile_stops digits stopsNumber).symm
        have ends : (front ++ number ++ gap ++ unit).length + tail.length = (front ++ p.text).length := by
          simp only [p, Part.text, List.length_append]
          omega
        rw [durationLoop_blanks _ blankTail _ _ rfl, ends, whole] at ended
        cases behind with
        | nil =>
          rw [durationLoop] at ended
          refine @Outcome.parts _ _ _ _ p [] text taken (fun q among => absurd among List.not_mem_nil) ?_
          rw [← Option.some.inj ended]
        | cons d behind =>
          have moved : (front ++ p.text).length ≠ 0 := by
            have letters := List.length_pos_iff.mpr p.unit_ne_nil
            simp only [Part.text, List.length_append]
            omega
          cases digit : isDecimal d with
          | false =>
            rw [durationLoop_other _ (stops_cons.mp stopsTail) digit] at ended
            cases ended
          | true =>
            rw [durationLoop_number _ digit] at ended
            have shorter : (d :: behind).length < n := by
              have whole := congrArg List.length text
              rw [size, List.length_append] at whole
              rw [List.length_append] at moved
              have letters := List.length_pos_iff.mpr p.unit_ne_nil
              simp only [Part.text, List.length_append] at whole
              omega
            cases ih _ shorter _ _ _ ended rfl with
            | digits all same => exact .unfinished (by rw [same]) (by rw [same]; exact moved)
            | unfinished visiting later => exact .unfinished visiting later
            | @parts second parts remaining taken' numbered idle =>
              refine @Outcome.parts _ _ _ _ p (second :: parts) ?_ taken ?_ idle
              · rw [text, remaining, List.flatMap_cons]
              · rw [List.forall_mem_cons]
                refine ⟨?_, numbered⟩
                rw [taken', List.takeWhile_cons_of_pos digit]
                exact List.cons_ne_nil _ _
      · cases ended

/-! ## The result -/

theorem toInt_ofNat {n : Nat} (small : n < 2 ^ 63) : (UInt64.ofNat n).toInt64.toInt = n := by
  have value : (UInt64.ofNat n).toInt64.toInt = (UInt64.ofNat n).toBitVec.toInt := rfl
  rw [value, BitVec.toInt_eq_toNat_of_lt] <;> simp <;> omega

theorem parseDurationToSeconds_parts {inputString : QString} {first : Part} {parts : List Part}
    (text : trimmedView inputString = first.text ++ parts.flatMap Part.text) (numbered : ∀ p ∈ parts, p.number ≠ [])
    (small : first.added + (parts.map Part.added).sum < 2 ^ 63) (noUnitMultiplier : UInt64) :
    parseDurationToSeconds inputString noUnitMultiplier = (first.added + (parts.map Part.added).sum : Nat) := by
  have some_ : inputString.length ≠ 0 := by
    intro none_
    obtain rfl := List.length_eq_zero_iff.mp none_
    have letters := first.unit_ne_nil
    simp [trimmedView, Part.text, letters] at text
  obtain ⟨last, read⟩ := durationLoop_all first numbered
  rw [parseDurationToSeconds, if_neg some_]
  simp only [text, read, Bool.false_eq_true, if_false]
  exact toInt_ofNat small

theorem parseDurationToSeconds_digits {inputString : QString} (some_ : trimmedView inputString ≠ [])
    (digits : (trimmedView inputString).all isDecimal = true) {noUnitMultiplier : UInt64}
    (small : (trimmedView inputString).toUInt * noUnitMultiplier.toNat < 2 ^ 63) :
    parseDurationToSeconds inputString noUnitMultiplier =
      ((trimmedView inputString).toUInt * noUnitMultiplier.toNat : Nat) := by
  have input : inputString.length ≠ 0 := by
    intro none_
    obtain rfl := List.length_eq_zero_iff.mp none_
    exact some_ rfl
  have read := @durationLoop_digits (trimmedView inputString) _ digits [] 0 ⟨0, true, 0⟩ rfl
  rw [List.append_nil, durationLoop] at read
  rw [parseDurationToSeconds, if_neg input]
  simp only [read, if_true, ne_eq, not_true_eq_false, if_false, UInt64.zero_add]
  rw [← toInt_ofNat small, UInt64.ofNat_mul, UInt64.ofNat_toNat]

theorem parseDurationToSeconds_refused {inputString : QString} (input : inputString = [] ∨ trimmedView inputString ≠ [])
    (noParts : ∀ (first : Part) (parts : List Part), (∀ p ∈ parts, p.number ≠ []) →
      trimmedView inputString ≠ first.text ++ parts.flatMap Part.text)
    (noDigits : ¬ (trimmedView inputString).all isDecimal = true) (noUnitMultiplier : UInt64) :
    parseDurationToSeconds inputString noUnitMultiplier = -1 := by
  unfold parseDurationToSeconds
  split
  · rfl
  · next some_ =>
    have shown : trimmedView inputString ≠ [] := input.resolve_left fun none_ => some_ (by rw [none_]; rfl)
    dsimp only
    split
    · rfl
    · next final ended =>
      cases durationLoop_outcome [] _ 0 ended with
      | digits all same => exact absurd all noDigits
      | parts text number numbered idle => exact absurd text (noParts _ _ numbered)
      | unfinished visiting later => rw [if_pos visiting, if_pos later]

theorem Part.added_eq {p : Part} {front back : QString} (plain : PlainNumbers (front ++ p.text ++ back))
    (numbered : p.number ≠ []) : p.added = p.total := by
  have within : front ++ p.text ++ back = front ++ p.number ++ (p.gap ++ (p.unit ++ p.tail) ++ back) := by
    simp [Part.text]
  obtain ⟨digits, bounded⟩ := plain _ _ _ within p.digits
  rw [Part.added, Part.total, toUInt_digits numbered digits bounded]

theorem added_eq {parts : List Part} (plain : PlainNumbers (parts.flatMap Part.text))
    (numbered : ∀ p ∈ parts, p.number ≠ []) : parts.map Part.added = parts.map Part.total := by
  rw [List.map_inj_left]
  intro p among
  obtain ⟨front, back, rfl⟩ := List.append_of_mem among
  refine @Part.added_eq _ (front.flatMap Part.text) (back.flatMap Part.text) ?_ (numbered p among)
  simpa using plain

/-- Durations are read exactly, and what is none is refused, unless its first number is missing. -/
theorem parseDurationToSeconds_grammar (inputString : QString) (noUnitMultiplier : UInt64) :
    (∀ total, IsDuration noUnitMultiplier.toNat (trimmedView inputString) total →
      PlainNumbers (trimmedView inputString) → total < 2 ^ 63 →
        parseDurationToSeconds inputString noUnitMultiplier = total) ∧
    ((¬ ∃ total, IsDuration noUnitMultiplier.toNat (trimmedView inputString) total) → ¬ LacksNumber inputString →
        parseDurationToSeconds inputString noUnitMultiplier = -1) := by
  refine ⟨?_, ?_⟩
  · intro total duration plain small
    generalize text : trimmedView inputString = view at duration plain
    cases duration with
    | @parts parts some_ numbered =>
      have exact_ := congrArg List.sum (added_eq plain numbered)
      cases parts with
      | nil => exact absurd rfl some_
      | cons first parts =>
        rw [← exact_] at small ⊢
        exact parseDurationToSeconds_parts text (fun p among => numbered p (List.mem_cons_of_mem _ among)) small
          noUnitMultiplier
    | digits some_ all =>
      obtain ⟨digits, bounded⟩ := plain [] view [] (by simp) all
      rw [← toUInt_digits some_ digits bounded] at small ⊢
      rw [← text] at some_ all small ⊢
      exact parseDurationToSeconds_digits some_ all small
  · intro noDuration numbered
    have shown : inputString = [] ∨ trimmedView inputString ≠ [] := by
      by_contra neither
      rw [not_or, not_not] at neither
      exact numbered (.inl neither)
    cases inputString with
    | nil => rfl
    | cons c inputString =>
      have some_ := shown.resolve_left (List.cons_ne_nil _ _)
      refine parseDurationToSeconds_refused shown ?_ (fun all => noDuration ⟨_, .digits some_ all⟩) noUnitMultiplier
      intro first parts later text
      by_cases first_ : first.number = []
      · exact numbered (.inr ⟨first, parts, first_, later, text⟩)
      · rw [← List.flatMap_cons] at text
        rw [text] at noDuration
        exact noDuration ⟨_, .parts (List.cons_ne_nil _ _) (List.forall_mem_cons.mpr ⟨first_, later⟩)⟩

/-- Spaces in front belong to no duration, but they are trimmed. -/
theorem parseDurationToSeconds_trims :
    parseDurationToSeconds (qs " 1s") 1 = 1 ∧ ¬ ∃ total, IsDuration 1 (qs " 1s") total := by
  refine ⟨by decide, ?_⟩
  rintro ⟨total, duration⟩
  generalize text : qs " 1s" = view at duration
  have first : view.head? = some (u ' ') := by
    rw [← text]
    rfl
  have space : isDecimal (u ' ') = false := by decide
  cases duration with
  | @parts parts some_ numbered =>
    have digit := head_of_parts numbered _ first
    rw [space] at digit
    cases digit
  | digits some_ all =>
    have digit := List.all_eq_true.mp all _ (List.mem_of_mem_head? first)
    rw [space] at digit
    cases digit

end Forserino.Util
