import Forserino.Commands.CustomCommand
import Forserino.Foundation.Doubled
import Forserino.Foundation.Spans

/-! What a template of a custom command stands for, and when execCustomCommand gives it.
-/

set_option autoImplicit false

namespace Forserino.Commands

open Forserino.Qt Forserino.Foundation

/-- A template is cut at its placeholders. Each has a number of doubled braces in front of its own. -/
inductive Template where
  | text (literal : QString)
  | placeholder (literal : QString) (pairs : Nat) (content : Content) (rest : Template)

/-- What comes from outside is shown as it is. In the text of the template a doubled brace is one. -/
def Insertion.shown : Insertion → QString
  | .outside text => text
  | .template text => text.replace (qs "\x7b\x7b") (qs "\x7b")

namespace Template

/-- Units in front of the first literal. -/
def prepend (front : QString) : Template → Template
  | .text literal => .text (front ++ literal)
  | .placeholder literal pairs content rest => .placeholder (front ++ literal) pairs content rest

/-- The units that a template is written with. -/
def source : Template → QString
  | .text literal => literal
  | .placeholder literal pairs content rest =>
      literal ++ List.replicate (2 * pairs + 1) (u '{') ++ content.text ++ u '}' :: rest.source

/-- The template of a text that has braces in front of it. An odd number of them with a content and a
closing brace behind is a placeholder, of which skip counts the units that are still to be left out. -/
def scan : Nat → Nat → QString → Template
  | _, braces, [] => .text (List.replicate braces (u '{'))
  | skip + 1, braces, _ :: rest => scan skip braces rest
  | 0, braces, c :: rest =>
      if c = u '{' then scan 0 (braces + 1) rest
      else
        match if braces % 2 = 1 then matchContent (c :: rest) else none with
        | some content => .placeholder [] (braces / 2) content (scan content.text.length 0 rest)
        | none => (scan 0 0 rest).prepend (List.replicate braces (u '{') ++ [c])

/-- What a template stands for. -/
def expansion (arguments : Arguments) : Template → QString
  | .text literal => literal.replace (qs "\x7b\x7b") (qs "\x7b")
  | .placeholder literal pairs content rest =>
      literal.replace (qs "\x7b\x7b") (qs "\x7b") ++
        (List.replicate pairs (u '{') ++ (arguments.insertion content).shown ++ rest.expansion arguments)

/-- The template does not begin with a placeholder. -/
def startsWithText : Template → Bool
  | .placeholder [] _ _ _ => false
  | _ => true

end Template

/-- A text that is not UTF-16 is not searched for placeholders. -/
def readTemplate (func : QString) : Template := if isValidUtf16 func then Template.scan 0 0 func else .text func

/-! ## The cuts of a template -/

namespace Template

theorem scan_skip (skip braces : Nat) (s : QString) : scan skip braces s = scan 0 braces (s.drop skip) := by
  induction skip generalizing s with
  | zero => rfl
  | succ skip ih =>
    cases s with
    | nil => simp [scan]
    | cons c s =>
      rw [scan, List.drop_succ_cons]
      exact ih s

theorem scan_braces (n braces : Nat) (s : QString) :
    scan 0 braces (List.replicate n (u '{') ++ s) = scan 0 (braces + n) s := by
  induction n generalizing braces with
  | zero => rfl
  | succ n ih =>
    rw [List.replicate_succ, List.cons_append, scan, if_pos rfl, ih, Nat.add_assoc, Nat.add_comm 1 n]

theorem prepend_append (front middle : QString) (template : Template) :
    template.prepend (front ++ middle) = (template.prepend middle).prepend front := by
  cases template <;> simp [prepend]

theorem source_prepend (front : QString) (template : Template) :
    (template.prepend front).source = front ++ template.source := by
  cases template <;> simp [prepend, source]

/-- The text goes on with something else than an opening brace. -/
abbrev Unbraced (s : QString) : Prop := Stops (fun c => c = u '{') s

theorem scan_other {c : QChar} (other : c ≠ u '{') (s : QString) : scan 0 0 (c :: s) = (scan 0 0 s).prepend [c] := by
  rw [scan, if_neg other]
  rfl

/-- Braces with a content behind them are a placeholder, and otherwise they are text. -/
theorem scan_cases (braces : Nat) {s : QString} (ends : Unbraced s) :
    (∃ content rest, braces % 2 = 1 ∧ matchContent s = some content ∧ s = content.text ++ u '}' :: rest ∧
      scan 0 0 (List.replicate braces (u '{') ++ s) = .placeholder [] (braces / 2) content (scan 0 0 rest)) ∨
    ((braces % 2 = 1 → matchContent s = none) ∧
      scan 0 0 (List.replicate braces (u '{') ++ s) = (scan 0 0 s).prepend (List.replicate braces (u '{'))) := by
  rw [scan_braces, Nat.zero_add]
  cases s with
  | nil => exact .inr ⟨fun _ => rfl, by simp [scan, prepend]⟩
  | cons c s =>
    have other : c ≠ u '{' := by simpa using stops_cons.mp ends
    rw [scan_other other, ← prepend_append, scan, if_neg other]
    by_cases odd : braces % 2 = 1
    · rw [if_pos odd]
      cases found : matchContent (c :: s) with
      | none => exact .inr ⟨fun _ => rfl, rfl⟩
      | some content =>
        obtain ⟨rest, cut⟩ := matchContent_cut found
        refine .inl ⟨content, rest, odd, rfl, cut, ?_⟩
        have behind : s.drop content.text.length = rest := by
          have dropped := congrArg (List.drop (content.text.length + 1)) cut
          simpa using dropped
        dsimp only
        rw [scan_skip, behind]
    · rw [if_neg odd]
      exact .inr ⟨fun impossible => absurd impossible odd, rfl⟩

theorem scan_source (skip braces : Nat) (s : QString) :
    (scan skip braces s).source = List.replicate braces (u '{') ++ s.drop skip := by
  induction s generalizing skip braces with
  | nil => simp [scan, source]
  | cons c s ih =>
    cases skip with
    | succ skip =>
      rw [scan, List.drop_succ_cons]
      exact ih skip braces
    | zero =>
      rw [scan]
      split
      · next brace =>
        rw [ih, brace, List.replicate_succ', List.append_assoc]
        rfl
      · split
        · next content found =>
          split at found
          · next odd =>
            obtain ⟨rest, cut⟩ := matchContent_cut found
            have behind : s.drop content.text.length = rest := by
              have dropped := congrArg (List.drop (content.text.length + 1)) cut
              simpa using dropped
            have number : 2 * (braces / 2) + 1 = braces := by omega
            rw [source, ih, behind, number, List.drop_zero, cut]
            simp
          · cases found
        · rw [source_prepend, ih]
          simp

/-- What follows a placeholder is read like a template of its own. -/
theorem scan_rest {skip braces : Nat} {s literal : QString} {pairs : Nat} {content : Content} {rest : Template}
    (shape : scan skip braces s = .placeholder literal pairs content rest) : rest = scan 0 0 rest.source := by
  induction s generalizing skip braces literal with
  | nil => cases shape
  | cons c s ih =>
    cases skip with
    | succ skip => exact ih shape
    | zero =>
      rw [scan] at shape
      split at shape
      · exact ih shape
      · split at shape
        · cases shape
          rw [scan_source, scan_skip]
          rfl
        · cases later : scan 0 0 s with
          | text literal =>
            rw [later] at shape
            cases shape
          | placeholder literal pairs content rest =>
            rw [later] at shape
            cases shape
            exact ih later

theorem startsWithText_prepend {front : QString} (some_ : front ≠ []) (template : Template) :
    (template.prepend front).startsWithText = true := by
  cases front with
  | nil => exact absurd rfl some_
  | cons c front => cases template <;> rfl

theorem startsWithText_scan {s : QString} (ends : Unbraced s) : (scan 0 0 s).startsWithText = true := by
  cases s with
  | nil => rfl
  | cons c s =>
    rw [scan_other (by simpa using stops_cons.mp ends)]
    exact startsWithText_prepend (List.cons_ne_nil _ _) _

end Template

/-! ## The search -/

theorem exists_braces (s : QString) : ∃ n rest, s = List.replicate n (u '{') ++ rest ∧ Template.Unbraced rest := by
  obtain ⟨front, rest, rfl, all, ends⟩ := exists_span (fun c => decide (c = u '{')) s
  refine ⟨front.length, rest, ?_, ends⟩
  rw [← List.eq_replicate_of_mem fun c among => of_decide_eq_true (List.all_eq_true.mp all c among)]

/-- The units of one code point. -/
inductive CodePoint : QString → Prop where
  | single {c : QChar} : isHighSurrogate c = false → isLowSurrogate c = false → CodePoint [c]
  | pair {c d : QChar} : isHighSurrogate c = true → isLowSurrogate d = true → CodePoint [c, d]

theorem isValidUtf16_cons {c : QChar} (plain : isHighSurrogate c = false) (s : QString) :
    isValidUtf16 (c :: s) = (!isLowSurrogate c && isValidUtf16 s) := by
  cases s <;> simp [isValidUtf16, plain]

theorem isValidUtf16_cases {s : QString} (valid : isValidUtf16 s = true) (some_ : s ≠ []) :
    ∃ front rest, CodePoint front ∧ s = front ++ rest ∧ isValidUtf16 rest = true := by
  obtain ⟨c, s, rfl⟩ := List.exists_cons_of_ne_nil some_
  cases high : isHighSurrogate c with
  | false =>
    rw [isValidUtf16_cons high, Bool.and_eq_true, Bool.not_eq_true'] at valid
    exact ⟨[c], s, .single high valid.1, rfl, valid.2⟩
  | true =>
    cases s with
    | nil => simp [isValidUtf16, high] at valid
    | cons d rest =>
      rw [isValidUtf16, if_pos high, Bool.and_eq_true] at valid
      exact ⟨[c, d], rest, .pair high valid.1, rfl, valid.2⟩

theorem isValidUtf16_behind_braces {n : Nat} {s : QString}
    (valid : isValidUtf16 (List.replicate n (u '{') ++ s) = true) : isValidUtf16 s = true := by
  induction n with
  | zero => exact valid
  | succ n ih =>
    rw [List.replicate_succ, List.cons_append, isValidUtf16_cons (by decide), Bool.and_eq_true] at valid
    exact ih valid.2

/-- A text can be cut in front of a unit that is no low surrogate. -/
theorem isValidUtf16_behind {c : QChar} (notLow : isLowSurrogate c = false) {front s : QString}
    (valid : isValidUtf16 (front ++ c :: s) = true) : isValidUtf16 (c :: s) = true := by
  induction size : front.length using Nat.strongRecOn generalizing front with
  | ind n ih =>
    cases front with
    | nil => exact valid
    | cons x front =>
      cases high : isHighSurrogate x with
      | false =>
        rw [List.cons_append, isValidUtf16_cons high, Bool.and_eq_true] at valid
        exact ih front.length (by simp [← size]) valid.2 rfl
      | true =>
        cases front with
        | nil =>
          rw [List.singleton_append, isValidUtf16, if_pos high, notLow] at valid
          cases valid
        | cons y front =>
          rw [List.cons_append, List.cons_append, isValidUtf16, if_pos high, Bool.and_eq_true] at valid
          exact ih front.length (by simp only [List.length_cons] at size; omega) valid.2 rfl

theorem matchBraces_braces (capturedStart position n : Nat) {s : QString} (ends : Template.Unbraced s) :
    matchBraces capturedStart position (List.replicate n (u '{') ++ s) =
      if n % 2 = 1 then
        (matchContent s).map fun content =>
          { capturedStart, capturedEnd := position + n + content.text.length + 1, content }
      else none := by
  have run : (List.replicate n (u '{') ++ s).takeWhile (fun c => decide (c = u '{')) = List.replicate n (u '{') :=
    takeWhile_stops (by simp) ends
  rw [matchBraces, run, List.length_replicate, List.drop_left' List.length_replicate]

theorem matchBraces_found (capturedStart position : Nat) {n : Nat} {s : QString} (ends : Template.Unbraced s)
    {content : Content} (odd : n % 2 = 1) (found : matchContent s = some content) :
    matchBraces capturedStart position (List.replicate n (u '{') ++ s) =
      some { capturedStart, capturedEnd := position + n + content.text.length + 1, content } := by
  rw [matchBraces_braces _ _ _ ends, if_pos odd, found, Option.map_some]

theorem matchBraces_missed (capturedStart position : Nat) {n : Nat} {s : QString} (ends : Template.Unbraced s)
    (missed : n % 2 = 1 → matchContent s = none) :
    matchBraces capturedStart position (List.replicate n (u '{') ++ s) = none := by
  rw [matchBraces_braces _ _ _ ends]
  split
  · next odd => rw [missed odd, Option.map_none]
  · rfl

/-- A search skips braces, of which none is where a match begins. -/
theorem search_braces {position : Nat} (behind : 0 < position) (n : Nat) (s : QString) :
    search position (List.replicate n (u '{') ++ s) = search (position + n) s := by
  induction n generalizing position with
  | zero => rfl
  | succ n ih =>
    have missed : matchAt position (u '{' :: (List.replicate n (u '{') ++ s)) = none := by
      rw [matchAt, if_neg (Nat.ne_of_gt behind), if_pos rfl]
      rfl
    rw [List.replicate_succ, List.cons_append, search, missed, Option.none_or, ih (Nat.succ_pos _),
      Nat.succ_add_eq_add_succ]

theorem matchAt_other {c : QChar} (other : c ≠ u '{') (position : Nat) (s : QString) :
    matchAt position (c :: s) =
      if isHighSurrogate c then matchBraces position (position + 2) s.tail
      else matchBraces position (position + 1) s := by
  have start : matchBraces 0 0 (c :: s) = none := matchBraces_braces 0 0 0 (stops_cons.mpr (by simpa using other))
  rw [matchAt, start, ite_self, Option.none_or, if_neg other]

theorem matchBraces_eq_none {capturedStart position : Nat} {s : QString}
    (missed : matchBraces capturedStart position s = none) (other : Nat) : matchBraces other position s = none := by
  unfold matchBraces at missed ⊢
  dsimp only at missed ⊢
  split at missed
  · next odd =>
    rw [if_pos odd, Option.map_eq_none_iff.mp missed]
    rfl
  · next even => rw [if_neg even]

/-- A code point is where a match begins if braces and a content are behind it. -/
theorem search_codePoint {front : QString} (point : CodePoint front) (plain : Template.Unbraced front) (position : Nat)
    (s : QString) :
    search position (front ++ s) =
      (matchBraces position (position + front.length) s).or (search (position + front.length) s) := by
  cases point with
  | @single c notHigh notLow =>
    have other : c ≠ u '{' := by simpa using stops_cons.mp plain
    rw [List.singleton_append, search, matchAt_other other, if_neg (by simp [notHigh])]
    rfl
  | @pair c d high low =>
    have other : c ≠ u '{' := by simpa using stops_cons.mp plain
    have low_other : d ≠ u '{' := by
      rintro rfl
      exact absurd low (by decide)
    have notHigh : isHighSurrogate d = false := by
      simp only [isLowSurrogate, Bool.and_eq_true, decide_eq_true_eq] at low
      simp only [isHighSurrogate, Bool.and_eq_false_iff, decide_eq_false_iff_not]
      omega
    rw [List.cons_append, List.singleton_append, search, matchAt_other other, if_pos high, search,
      matchAt_other low_other, if_neg (by simp [notHigh])]
    -- The expression does not match at the second unit either, where the search tries it once more.
    cases missed : matchBraces position (position + 2) s with
    | some found => simp [missed]
    | none =>
      have again := matchBraces_eq_none missed (position + 1)
      simp [missed, again]

/-! ## The matches of a template -/

/-- A literal as the loop copies it in front of a placeholder, up to the first unit of its last code point. -/
def keptUnits (literal : QString) : QString :=
  if literal.getLast?.any isLowSurrogate then literal.dropLast else literal

/-- The first match in a template that stands at a position. -/
def Template.firstMatch (position : Nat) : Template → Option Match
  | .text _ => none
  | .placeholder literal pairs content _ =>
      some
        { capturedStart := position + (keptUnits literal).length - 1
          capturedEnd := position + literal.length + (2 * pairs + 1) + content.text.length + 1
          content }

theorem keptUnits_append {back : QString} (some_ : back ≠ []) (front : QString) :
    keptUnits (front ++ back) = front ++ keptUnits back := by
  rw [keptUnits, keptUnits, List.getLast?_append_of_ne_nil _ some_, List.dropLast_append_of_ne_nil some_]
  split <;> rfl

theorem firstMatch_prepend {template : Template} (text : template.startsWithText = true) (position : Nat)
    (front : QString) :
    (template.prepend front).firstMatch position = template.firstMatch (position + front.length) := by
  cases template with
  | text literal => rfl
  | placeholder literal pairs content rest =>
    have some_ : literal ≠ [] := by
      rintro rfl
      cases text
    simp only [Template.prepend, Template.firstMatch, keptUnits_append some_, List.length_append, Nat.add_assoc]

theorem length_keptUnits_codePoint {front : QString} (point : CodePoint front) : (keptUnits front).length = 1 := by
  cases point with
  | single notHigh notLow => simp [keptUnits, notLow]
  | pair high low => simp [keptUnits, low]

theorem scan_codePoint {front : QString} (point : CodePoint front) (plain : Template.Unbraced front) (s : QString) :
    Template.scan 0 0 (front ++ s) = (Template.scan 0 0 s).prepend front := by
  cases point with
  | single notHigh notLow => exact Template.scan_other (by simpa using stops_cons.mp plain) s
  | @pair c d high low =>
    have low_other : d ≠ u '{' := by
      rintro rfl
      exact absurd low (by decide)
    rw [List.cons_append, List.singleton_append, Template.scan_other (by simpa using stops_cons.mp plain),
      Template.scan_other low_other, ← Template.prepend_append]
    rfl

/-- In a text that begins with no brace the search finds the first placeholder. -/
theorem search_unbraced {s : QString} (valid : isValidUtf16 s = true) (ends : Template.Unbraced s) (position : Nat) :
    search position s = (Template.scan 0 0 s).firstMatch position := by
  -- on the length, as a step goes over a code point and the braces behind it
  induction size : s.length using Nat.strongRecOn generalizing s position with
  | ind n ih =>
    by_cases some_ : s = []
    · rw [some_]
      rfl
    · obtain ⟨front, t, point, rfl, behind⟩ := isValidUtf16_cases valid some_
      have plain : Template.Unbraced front := by cases point <;> simpa [Stops] using ends
      have positive : 0 < front.length := by cases point <;> simp
      obtain ⟨braces, s, rfl, ends'⟩ := exists_braces t
      rw [search_codePoint point plain, scan_codePoint point plain]
      rcases Template.scan_cases braces ends' with ⟨content, rest, odd, found, -, shape⟩ | ⟨missed, shape⟩
      · have number : 2 * (braces / 2) + 1 = braces := by omega
        rw [shape, matchBraces_found _ _ ends' odd found]
        simp [Template.prepend, Template.firstMatch, length_keptUnits_codePoint point, number]
      · have text := Template.startsWithText_scan ends'
        simp only [List.length_append, List.length_replicate] at size
        rw [matchBraces_missed _ _ ends' missed, Option.none_or, search_braces (by omega), shape,
          ← Template.prepend_append, ih s.length (by omega) (isValidUtf16_behind_braces behind) ends' _ rfl, firstMatch_prepend text,
          List.length_append, List.length_replicate, Nat.add_assoc]

/-- In a whole text the search finds the first placeholder too. -/
theorem search_start {s : QString} (valid : isValidUtf16 s = true) :
    search 0 s = (Template.scan 0 0 s).firstMatch 0 := by
  obtain ⟨braces, s, rfl, ends⟩ := exists_braces s
  cases braces with
  | zero => exact search_unbraced valid ends 0
  | succ braces =>
    -- only here the start of the text stands for the code point in front of a match
    have first : ∀ t, matchAt 0 (u '{' :: t) = matchBraces 0 0 (u '{' :: t) := fun t => by simp [matchAt]
    rw [List.replicate_succ, List.cons_append, search, first, ← List.cons_append, ← List.replicate_succ]
    rcases Template.scan_cases (braces + 1) ends with ⟨content, rest, odd, found, -, shape⟩ | ⟨missed, shape⟩
    · have number : 2 * ((braces + 1) / 2) + 1 = braces + 1 := by omega
      rw [shape, matchBraces_found _ _ ends odd found]
      simp [Template.firstMatch, keptUnits, number]
    · rw [matchBraces_missed _ _ ends missed, Option.none_or, search_braces Nat.one_pos, shape,
        search_unbraced (isValidUtf16_behind_braces valid) ends,
        firstMatch_prepend (Template.startsWithText_scan ends), List.length_replicate, Nat.zero_add, Nat.add_comm 1]

/-! ## The loop over the matches -/

/-- What the loop makes of a template, but for the brace that it copies from a placeholder at the start. -/
def Template.copied (arguments : Arguments) : Template → QString
  | .text literal => literal
  | .placeholder literal _ content rest =>
      keptUnits literal ++ (arguments.insertion content).text ++ rest.copied arguments

theorem take_keptUnits (literal : QString) : literal.take (keptUnits literal).length = keptUnits literal := by
  refine (List.prefix_iff_eq_take.mp ?_).symm
  unfold keptUnits
  split
  · exact List.dropLast_prefix literal
  · exact List.prefix_rfl

theorem length_keptUnits_le (literal : QString) : (keptUnits literal).length ≤ literal.length := by
  unfold keptUnits
  split
  · rw [List.length_dropLast]
    exact Nat.sub_le _ _
  · exact Nat.le_refl _

theorem keptUnits_cons {c : QChar} (notLow : isLowSurrogate c = false) (literal : QString) :
    keptUnits (c :: literal) = c :: keptUnits literal := by
  by_cases some_ : literal = []
  · simp [some_, keptUnits, notLow]
  · exact keptUnits_append some_ [c]

theorem Template.scan_zero_source (s : QString) : (scan 0 0 s).source = s := scan_source 0 0 s

variable (arguments : Arguments)

/-- Behind a placeholder the loop copies what is left, as every match takes some of it. -/
theorem commandLoop_behind {func front s : QString} (valid : isValidUtf16 func = true)
    (cut : func = front ++ u '}' :: s) {fuel : Nat} (enough : s.length < fuel) (result : QString) :
    arguments.commandLoop func fuel (front.length + 1) front.length result =
      some (result ++ (Template.scan 0 0 s).copied arguments) := by
  induction fuel generalizing front s result with
  | zero => omega
  | succ fuel ih =>
    have brace : u '}' ≠ u '{' := by decide
    -- the brace that closed the last placeholder is where the next match may begin
    have tail : isValidUtf16 (u '}' :: s) = true := isValidUtf16_behind (by decide) (cut ▸ valid)
    have found : parseCommand func front.length = ((Template.scan 0 0 s).prepend [u '}']).firstMatch front.length := by
      rw [parseCommand, if_pos valid, cut, List.drop_left, search_unbraced tail (stops_cons.mpr (by simpa using brace)),
        Template.scan_other brace]
    have behind : func.drop (front.length + 1) = s := by
      rw [cut, List.drop_append]
      simp
    have source := Template.scan_zero_source s
    rw [Arguments.commandLoop, found]
    cases shape : Template.scan 0 0 s with
    | text literal =>
      rw [shape] at source
      simp only [Template.prepend, Template.firstMatch, Template.copied, QString.mid, behind]
      rw [← source]
      rfl
    | placeholder literal pairs content rest =>
      rw [shape, Template.source] at source
      have again := Template.scan_rest shape
      -- the copy goes up to the first unit of the code point that the match begins with
      have place : front.length + (keptUnits (u '}' :: literal)).length - 1 + 1 - (front.length + 1) =
          (keptUnits literal).length := by
        rw [keptUnits_cons (by decide), List.length_cons]
        omega
      have copied : func.midN (front.length + 1) (keptUnits literal).length = keptUnits literal := by
        rw [QString.midN, behind, ← source, List.append_assoc, List.append_assoc,
          List.take_append_of_le_length (length_keptUnits_le literal), take_keptUnits]
      let next := front ++ u '}' :: (literal ++ List.replicate (2 * pairs + 1) (u '{') ++ content.text)
      have length : next.length =
          front.length + (u '}' :: literal).length + (2 * pairs + 1) + content.text.length := by
        simp only [next, List.length_append, List.length_cons, List.length_replicate]
        omega
      have shape' : func = next ++ u '}' :: rest.source := by
        rw [cut, ← source]
        simp [next]
      have shorter : rest.source.length < fuel := by
        have lengths := congrArg List.length source
        simp only [List.length_append, List.length_cons, List.length_replicate] at lengths
        omega
      have later := ih shape' shorter (result ++ keptUnits literal ++ (arguments.insertion content).text)
      rw [length, ← again] at later
      simp only [Template.prepend, Template.firstMatch, List.singleton_append, place, copied, arguments.replacement_eq,
        Nat.add_sub_cancel, Template.copied]
      rw [later]
      simp

theorem keptUnits_ne_nil {s literal rest : QString} (valid : isValidUtf16 s = true) (cut : s = literal ++ rest)
    (some_ : literal ≠ []) : keptUnits literal ≠ [] := by
  obtain ⟨front, t, point, shape, -⟩ := isValidUtf16_cases valid (by simp [cut, some_])
  obtain ⟨c, literal, rfl⟩ := List.exists_cons_of_ne_nil some_
  have notLow : isLowSurrogate c = false := by
    rw [cut] at shape
    cases point with
    | @single d high low =>
      obtain rfl := (List.cons.inj shape).1
      exact low
    | @pair d e high low =>
      obtain rfl := (List.cons.inj shape).1
      simp only [isHighSurrogate, Bool.and_eq_true, decide_eq_true_eq] at high
      simp only [isLowSurrogate, Bool.and_eq_false_iff, decide_eq_false_iff_not]
      omega
  rw [keptUnits_cons notLow]
  exact List.cons_ne_nil _ _

/-- The first match copies a brace if it is at the start. -/
theorem commandLoop_start (func : QString) {fuel : Nat} (enough : func.length < fuel) :
    arguments.commandLoop func fuel 0 0 [] =
      some ((if (readTemplate func).startsWithText then [] else [u '{']) ++ (readTemplate func).copied arguments) := by
  obtain ⟨fuel, rfl⟩ := Nat.exists_eq_add_one_of_ne_zero (Nat.ne_of_gt (Nat.zero_lt_of_lt enough))
  rw [Arguments.commandLoop, parseCommand, readTemplate]
  by_cases valid : isValidUtf16 func = true
  · have source := Template.scan_zero_source func
    rw [if_pos valid, if_pos valid, List.drop_zero, search_start valid]
    cases shape : Template.scan 0 0 func with
    | text literal =>
      rw [shape] at source
      simp only [Template.firstMatch, Template.copied, Template.startsWithText]
      rw [← source]
      rfl
    | placeholder literal pairs content rest =>
      rw [shape, Template.source] at source
      have again := Template.scan_rest shape
      have cut : func = (literal ++ List.replicate (2 * pairs + 1) (u '{') ++ content.text) ++ u '}' :: rest.source :=
        source.symm
      have shorter : rest.source.length < fuel := by
        have lengths := congrArg List.length source
        simp only [List.length_append, List.length_cons, List.length_replicate] at lengths
        omega
      have copied : func.midN 0 (0 + (keptUnits literal).length - 1 + 1 - 0) =
          (if (Template.placeholder literal pairs content rest).startsWithText then [] else [u '{']) ++
            keptUnits literal := by
        by_cases some_ : literal = []
        -- mid copies one unit at least, which is a brace if nothing stands in front of the placeholder
        · rw [some_, cut, some_, List.replicate_succ]
          rfl
        · have text : func = literal ++
              (List.replicate (2 * pairs + 1) (u '{') ++ (content.text ++ u '}' :: rest.source)) := by
            rw [cut, List.append_assoc, List.append_assoc]
          have kept := List.length_pos_iff.mpr (keptUnits_ne_nil valid text some_)
          have number : 0 + (keptUnits literal).length - 1 + 1 - 0 = (keptUnits literal).length := by omega
          have starts : (Template.placeholder literal pairs content rest).startsWithText = true := by
            obtain ⟨c, literal, rfl⟩ := List.exists_cons_of_ne_nil some_
            rfl
          rw [number, starts, if_pos rfl, List.nil_append, QString.midN, List.drop_zero, text,
            List.take_append_of_le_length (length_keptUnits_le literal), take_keptUnits]
      have later := commandLoop_behind arguments valid cut shorter
        (func.midN 0 (0 + (keptUnits literal).length - 1 + 1 - 0) ++ (arguments.insertion content).text)
      have length : (literal ++ List.replicate (2 * pairs + 1) (u '{') ++ content.text).length =
          0 + literal.length + (2 * pairs + 1) + content.text.length := by
        simp only [List.length_append, List.length_replicate]
        omega
      rw [length, ← again] at later
      simp only [Template.firstMatch, arguments.replacement_eq, Nat.add_sub_cancel, List.nil_append]
      rw [later, copied, Template.copied]
      simp only [List.append_assoc]
  · rw [if_neg valid, if_neg valid]
    rfl

theorem replace_braces (s : QString) :
    s.replace (qs "\x7b\x7b") (qs "\x7b") = undouble (u '{') false s := by
  have pair : qs "\x7b\x7b" = [u '{', u '{'] := rfl
  have single : qs "\x7b" = [u '{'] := rfl
  rw [QString.replace, pair, single]
  induction size : s.length using Nat.strongRecOn generalizing s with
  | ind n ih =>
    cases s with
    | nil => rfl
    | cons c s =>
      rw [List.length_cons] at size
      by_cases brace : c = u '{'
      · subst brace
        cases s with
        | nil => rfl
        | cons d s =>
          rw [List.length_cons] at size
          by_cases twice : d = u '{'
          · subst twice
            have later := ih s.length (by omega) s rfl
            simpa [replaceFrom, undouble, List.isPrefixOf] using later
          · have later := ih (d :: s).length (by simp; omega) (d :: s) rfl
            have other : u '{' ≠ d := fun same => twice same.symm
            rw [replaceFrom, if_neg (by simp [List.isPrefixOf, other]), later]
            simp [undouble, twice]
      · have later := ih s.length (by omega) s rfl
        have other : u '{' ≠ c := fun same => brace same.symm
        rw [replaceFrom, if_neg (by simp [List.isPrefixOf, other]), later, undouble_other brace]

/-- The command is expanded, and every second brace of what the loop copied is dropped. -/
theorem execCustomCommand_eq (command : Command) {fuel : Nat} (enough : command.func.length < fuel) :
    arguments.execCustomCommand fuel command =
      some (undouble (u '{') (readTemplate command.func).startsWithText
        ((readTemplate command.func).copied arguments)) := by
  rw [Arguments.execCustomCommand, commandLoop_start arguments command.func enough]
  cases (readTemplate command.func).startsWithText with
  | true =>
    rw [undouble_opened, ← replace_braces]
    rfl
  | false =>
    rw [← replace_braces]
    rfl

/-! ## Where the expansion is the right one -/

/-- A text that is put behind an opened brace, or is not, comes out as it is shown. -/
def Insertion.Kept (opened : Bool) : Insertion → Prop
  | .outside text => ¬ [u '{', u '{'] <:+: text ∧ ¬ (opened ∧ text.head? = some (u '{'))
  | .template text => ¬ (opened ∧ StartsOdd (u '{') text)

/-- Behind an opened brace, or not: no doubled braces and no pair of surrogates stand in front of a
placeholder, and no brace of one piece is taken for the second of two. -/
def Template.Faithful (arguments : Arguments) : Bool → Template → Prop
  | opened, .text literal => ¬ (opened ∧ StartsOdd (u '{') literal)
  | opened, .placeholder literal pairs content rest =>
      let inserted := arguments.insertion content
      let behind := leavesOpen (u '{') opened literal
      ¬ (opened ∧ StartsOdd (u '{') literal) ∧ (∀ c ∈ literal.getLast?, isLowSurrogate c = false) ∧ pairs = 0 ∧
        inserted.Kept behind ∧ rest.Faithful arguments (leavesOpen (u '{') behind inserted.text)

theorem undouble_iff (opened : Bool) (s : QString) :
    undouble (u '{') opened s = undouble (u '{') false s ↔ ¬ (opened ∧ StartsOdd (u '{') s) := by
  cases opened with
  | false => simp
  | true => simpa using (undouble_opened_iff (u '{') s).1

theorem Insertion.length_shown (opened : Bool) (inserted : Insertion) :
    (undouble (u '{') opened inserted.text).length ≤ inserted.shown.length := by
  cases inserted with
  | outside text => exact length_undouble_le _ _ _
  | template text =>
    rw [shown, replace_braces]
    exact length_undouble_le_closed _ _ _

theorem Insertion.kept_iff (opened : Bool) (inserted : Insertion) :
    undouble (u '{') opened inserted.text = inserted.shown ↔ inserted.Kept opened := by
  cases inserted with
  | outside text => exact undouble_eq_self_iff (u '{') opened text
  | template text =>
    rw [shown, replace_braces]
    exact undouble_iff opened text

/-- A literal comes out as it is meant if it is copied whole. -/
theorem keptUnits_iff (opened : Bool) (literal : QString) :
    (undouble (u '{') opened (keptUnits literal)).length ≤ (undouble (u '{') false literal).length ∧
      (undouble (u '{') opened (keptUnits literal) = undouble (u '{') false literal ↔
        ¬ (opened ∧ StartsOdd (u '{') literal) ∧ ∀ c ∈ literal.getLast?, isLowSurrogate c = false) := by
  by_cases cut : literal.getLast?.any isLowSurrogate = true
  · obtain ⟨c, last, low⟩ := (Option.any_eq_true _ _).mp cut
    obtain ⟨front, rfl⟩ := List.getLast?_eq_some_iff.mp last
    have kept : keptUnits (front ++ [c]) = front := by rw [keptUnits, if_pos cut, List.dropLast_concat]
    have other : c ≠ u '{' := by
      rintro rfl
      exact absurd low (by decide)
    have less := length_undouble_le_closed (u '{') opened front
    have longer : (undouble (u '{') false (front ++ [c])).length = (undouble (u '{') false front).length + 1 := by
      rw [undouble_append, undouble_other other]
      simp [undouble]
    rw [kept]
    refine ⟨by omega, ?_⟩
    constructor
    · intro same
      have lengths := congrArg List.length same
      omega
    · rintro ⟨-, notLow⟩
      exact absurd low (by simp [notLow c last])
  · have whole : keptUnits literal = literal := if_neg cut
    have plain : ∀ c ∈ literal.getLast?, isLowSurrogate c = false := by
      intro c last
      simpa [Option.mem_def.mp last] using cut
    rw [whole, undouble_iff]
    exact ⟨length_undouble_le_closed _ _ _, (and_iff_left plain).symm⟩

/-- A placeholder comes out as it is meant if no doubled braces are in front of it. -/
theorem Insertion.pairs_iff (opened : Bool) (inserted : Insertion) (pairs : Nat) :
    undouble (u '{') opened inserted.text = List.replicate pairs (u '{') ++ inserted.shown ↔
      pairs = 0 ∧ inserted.Kept opened := by
  rw [← inserted.kept_iff opened]
  constructor
  · intro same
    have less := inserted.length_shown opened
    have lengths := congrArg List.length same
    rw [List.length_append, List.length_replicate] at lengths
    obtain rfl : pairs = 0 := by omega
    exact ⟨rfl, same⟩
  · rintro ⟨rfl, same⟩
    exact same

/-- No piece comes out longer than it is meant, so the whole is right if every piece is. -/
theorem Template.faithful_iff (opened : Bool) (template : Template) :
    (undouble (u '{') opened (template.copied arguments)).length ≤ (template.expansion arguments).length ∧
      (undouble (u '{') opened (template.copied arguments) = template.expansion arguments ↔
        template.Faithful arguments opened) := by
  induction template generalizing opened with
  | text literal =>
    rw [copied, expansion, replace_braces, undouble_iff]
    exact ⟨length_undouble_le_closed _ _ _, Iff.rfl⟩
  | placeholder literal pairs content rest ih =>
    rw [copied, expansion, replace_braces, Faithful, List.append_assoc, undouble_append, undouble_append]
    generalize arguments.insertion content = inserted
    generalize shape : leavesOpen (u '{') opened (keptUnits literal) = behind
    -- three pieces, none longer than it is meant: literal, placeholder, and what follows
    obtain ⟨less, first⟩ := keptUnits_iff opened literal
    obtain ⟨less', last⟩ := ih (leavesOpen (u '{') behind inserted.text)
    have middle : (undouble (u '{') behind inserted.text).length ≤
        (List.replicate pairs (u '{') ++ inserted.shown).length :=
      (inserted.length_shown behind).trans (by simp)
    have both := Nat.add_le_add middle less'
    rw [← List.length_append, ← List.length_append] at both
    have whole := Nat.add_le_add less both
    rw [← List.length_append, ← List.length_append] at whole
    refine ⟨whole, ?_⟩
    rw [append_inj_of_length_le less both, append_inj_of_length_le middle less', first, last, inserted.pairs_iff]
    by_cases plain : ∀ c ∈ literal.getLast?, isLowSurrogate c = false
    · have kept : keptUnits literal = literal := by
        refine if_neg fun cut => ?_
        obtain ⟨c, final, low⟩ := (Option.any_eq_true _ _).mp cut
        exact absurd low (by simp [plain c final])
      rw [kept] at shape
      simp only [shape, and_assoc]
    · simp only [plain, and_false, false_and]

/-- execCustomCommand always ends, and its output is what the template stands for exactly where no brace and
no unit gets lost. -/
theorem execCustomCommand_expands (command : Command) :
    ∃ result, (∀ fuel, command.func.length < fuel → arguments.execCustomCommand fuel command = some result) ∧
      (result = (readTemplate command.func).expansion arguments ↔
        (readTemplate command.func).Faithful arguments (readTemplate command.func).startsWithText) := by
  refine ⟨_, fun fuel enough => execCustomCommand_eq arguments command enough, ?_⟩
  exact (Template.faithful_iff arguments _ _).2

/-- A word of two braces, which the template puts at its only place, loses one of them. -/
theorem execCustomCommand_drops_brace :
    ¬ ∀ (arguments : Arguments) (command : Command) (fuel : Nat), command.func.length < fuel →
      arguments.execCustomCommand fuel command = some ((readTemplate command.func).expansion arguments) := by
  intro expands
  let arguments : Arguments :=
    { words := [qs "/say", qs "\x7b\x7b"]
      channel := { name := [], twitch := none }
      message := none
      context := ∅
      account := { userId := [], userName := [] } }
  let command : Command := { name := qs "/say", func := qs "\x7b1\x7d" }
  have wrong : some (qs "\x7b") = some (qs "\x7b\x7b") := expands arguments command 4 (by decide)
  exact absurd wrong (by decide)

end Forserino.Commands
