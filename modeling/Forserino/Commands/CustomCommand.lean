import Forserino.Commands.UserCommands
import Forserino.Qt.Utf16

/-! execCustomCommand, with the regular expression of its placeholders and the variables that it
knows.
-/

set_option autoImplicit false

namespace Forserino.Commands

open Forserino.Qt

/-! ## The expression of the placeholders -/

/-- Some units of one class. -/
structure Span (p : QChar → Bool) where
  units : QString
  some_ : units ≠ []
  all : units.all p = true

/-- A class of the expression with a plus behind it; what follows is never of the class. -/
def span (p : QChar → Bool) (s : QString) : Option (Span p) :=
  if some_ : s.takeWhile p ≠ [] then some { units := s.takeWhile p, some_, all := List.all_takeWhile } else none

/-- The class [a-zA-Z.-] -/
def isNameUnit (c : QChar) : Bool :=
  (97 ≤ c.toNat && c.toNat ≤ 122) || (65 ≤ c.toNat && c.toNat ≤ 90) || c == u '.' || c == u '-'

/-- What stands between the braces of a placeholder. -/
inductive Content where
  | index (digits : Span isDigit) (plus : Bool)
  | named (name : Span isNameUnit) (altText : Option QString)

/-- The third capture. -/
def Content.text : Content → QString
  | .index digits plus => digits.units ++ if plus then [u '+'] else []
  | .named name altText => name.units ++ altText.elim [] (u ';' :: ·)

/-- The fourth capture. -/
def Content.varName : Content → QString
  | .index _ _ => []
  | .named name _ => name.units

/-- The fifth capture, which is empty if there is no alternative text. -/
def Content.altText : Content → QString
  | .index _ _ => []
  | .named _ altText => altText.getD []

/-- The units that .+? takes up to the closing brace; it takes one at least, and no newline. -/
def matchAltText : QString → Option QString
  | [] => none
  | c :: rest =>
      let more := rest.takeWhile fun c => c != u '}' && c != u '\n'
      if c ≠ u '\n' ∧ (rest.drop more.length).head? = some (u '}') then some (c :: more) else none

/-- The third group and the closing brace. -/
def matchContent (s : QString) : Option Content :=
  match span isDigit s, span isNameUnit s with
  | some digits, _ =>
      let rest := s.drop digits.units.length
      if rest.head? = some (u '}') then some (.index digits false)
      else if rest.take 2 = [u '+', u '}'] then some (.index digits true)
      else none
  | none, some name =>
      let rest := s.drop name.units.length
      if rest.head? = some (u '}') then some (.named name none)
      else if rest.head? = some (u ';') then (matchAltText rest.tail).map fun altText => .named name (some altText)
      else none
  | none, none => none

/-- QChar::isHighSurrogate -/
def isHighSurrogate (c : QChar) : Bool := 0xD800 ≤ c.toNat && c.toNat < 0xDC00

/-- Every surrogate stands in a pair. -/
def isValidUtf16 : QString → Bool
  | [] => true
  | [c] => !isHighSurrogate c && !isLowSurrogate c
  | c :: d :: rest =>
      if isHighSurrogate c then isLowSurrogate d && isValidUtf16 rest
      else !isLowSurrogate c && isValidUtf16 (d :: rest)

structure Match where
  capturedStart : Nat
  capturedEnd : Nat
  content : Content

/-- ({{)*{ and what follows. The content has no brace at first, so all braces that stand there are taken. -/
def matchBraces (capturedStart position : Nat) (s : QString) : Option Match :=
  let braces := (s.takeWhile fun c => c = u '{').length
  if braces % 2 = 1 then
    (matchContent (s.drop braces)).map fun content =>
      { capturedStart, capturedEnd := position + braces + content.text.length + 1, content }
  else none

/-- The expression at a position: the start of the text, or a code point other than a brace. -/
def matchAt (position : Nat) (s : QString) : Option Match :=
  (if position = 0 then matchBraces 0 0 s else none).or
    (match s with
    | [] => none
    | c :: rest =>
        if c = u '{' then none
        else if isHighSurrogate c then matchBraces position (position + 2) rest.tail
        else matchBraces position (position + 1) rest)

def search : Nat → QString → Option Match
  | _, [] => none
  | position, c :: rest => (matchAt position (c :: rest)).or (search (position + 1) rest)

/-- QRegularExpression::match of parseCommand, which matches nothing in a text that is not UTF-16. -/
def parseCommand (subject : QString) (offset : Nat) : Option Match :=
  if isValidUtf16 subject then search offset (subject.drop offset) else none

/-! ## The variables -/

structure StreamStatus where
  live : Bool
  game : QString
  title : QString

structure TwitchChannel where
  roomId : QString
  status : StreamStatus

/-- A channel, with what it has if it is one of Twitch. -/
structure Channel where
  name : QString
  twitch : Option TwitchChannel

structure Message where
  loginName : QString
  id : QString
  messageText : QString

structure TwitchAccount where
  userId : QString
  userName : QString

/-- What execCustomCommand is called with besides the command, and the account that is current. -/
structure Arguments where
  words : List QString
  channel : Channel
  message : Option Message
  context : AList fun _ : QString => QString
  account : TwitchAccount

/-- A replacer returns a text of its own, or the alternative text, for which none stands here. -/
abbrev VariableReplacer := Arguments → Option QString

/-- The text, if it is not empty. -/
def orAltText (v : QString) : Option QString := if v = [] then none else some v

def COMMAND_VARS : List (QString × VariableReplacer) :=
  let ofStatus (field : StreamStatus → QString) : VariableReplacer := fun arguments =>
    arguments.channel.twitch.bind fun tc => if tc.status.live then some (field tc.status) else none
  let ofMessage (field : Message → QString) : VariableReplacer := fun arguments =>
    arguments.message.bind fun message => orAltText (field message)
  [(qs "channel.name", fun arguments => some arguments.channel.name),
    (qs "channel.id", fun arguments => arguments.channel.twitch.map TwitchChannel.roomId),
    (qs "channel", fun arguments => some arguments.channel.name),
    (qs "stream.game", ofStatus StreamStatus.game),
    (qs "stream.title", ofStatus StreamStatus.title),
    (qs "my.id", fun arguments => orAltText arguments.account.userId),
    (qs "my.name", fun arguments => orAltText arguments.account.userName),
    (qs "user.name", ofMessage Message.loginName),
    (qs "user", ofMessage Message.loginName),
    (qs "msg.id", ofMessage Message.id),
    (qs "msg-id", ofMessage Message.id),
    (qs "msg.text", ofMessage Message.messageText),
    (qs "message", ofMessage Message.messageText),
    (qs "input.text", fun _ => none)]

/-! ## The expansion -/

/-- What is put for a placeholder: words and variables come from outside, the rest is of the template. -/
inductive Insertion where
  | outside (text : QString)
  | template (text : QString)

def Insertion.text : Insertion → QString
  | .outside text => text
  | .template text => text

namespace Arguments

variable (arguments : Arguments)

/-- The branch of the loop for what is no index of a word. -/
def variableText (varName altText captured : QString) : Insertion :=
  match arguments.context.lookup varName with
  | some value => if value = [] then .template altText else .outside value
  | none =>
      match COMMAND_VARS.lookup varName with
      | some replacer =>
          match replacer arguments with
          | some value => .outside value
          | none => .template altText
      | none => .template (u '{' :: captured ++ [u '}'])

/-- What the loop adds for a match. -/
def replacement (content : Content) : Insertion :=
  let wordIndexMatch := content.text
  let plus := wordIndexMatch.getLast? = some (u '+')
  let wordIndexMatch := wordIndexMatch.replace (qs "+") []
  let ok := (wordIndexMatch.replace (qs "=") []).toInt
  let wordIndex := ok.getD 0
  if ok = none ∨ wordIndex = 0 then arguments.variableText content.varName content.altText content.text
  else if arguments.words.length ≤ wordIndex then .outside []
  else if plus then .outside (join (qs " ") (arguments.words.drop wordIndex.toNat))
  else .outside (arguments.words.getD wordIndex.toNat [])

/-- The loop of execCustomCommand with what follows the last match, none where the fuel runs out. -/
def commandLoop (func : QString) : Nat → Nat → Nat → QString → Option QString
  | 0, _, _, _ => none
  | fuel + 1, lastCaptureEnd, matchOffset, result =>
      match parseCommand func matchOffset with
      | none => some (result ++ func.mid lastCaptureEnd)
      | some found =>
          let front := func.midN lastCaptureEnd (found.capturedStart + 1 - lastCaptureEnd)
          commandLoop func fuel found.capturedEnd (found.capturedEnd - 1)
            (result ++ front ++ (arguments.replacement found.content).text)

def execCustomCommand (fuel : Nat) (command : Command) : Option QString := do
  let result ← arguments.commandLoop command.func fuel 0 0 []
  let result := if result.head? = some (u '{') then result.mid 1 else result
  return result.replace (qs "\x7b\x7b") (qs "\x7b")

end Arguments

/-! ## What the expression matches -/

theorem span_cut {p : QChar → Bool} {s : QString} {front : Span p} (found : span p s = some front) :
    s = front.units ++ s.drop front.units.length := by
  unfold span at found
  split at found
  · obtain rfl := Option.some.inj found
    exact (List.prefix_iff_eq_append.mp (List.takeWhile_prefix p)).symm
  · cases found

theorem head_eq_cons {s : QString} {c : QChar} (first : s.head? = some c) : s = c :: s.tail :=
  List.eq_cons_of_mem_head? first

theorem matchAltText_cut {s altText : QString} (found : matchAltText s = some altText) :
    ∃ rest, s = altText ++ u '}' :: rest := by
  cases s with
  | nil => cases found
  | cons c s =>
    unfold matchAltText at found
    dsimp only at found
    split at found
    · next closed =>
      obtain rfl := Option.some.inj found
      generalize shape : s.takeWhile _ = more at closed ⊢
      have cut : s = more ++ s.drop more.length :=
        (List.prefix_iff_eq_append.mp (shape ▸ List.takeWhile_prefix _)).symm
      refine ⟨(s.drop more.length).tail, ?_⟩
      rw [List.cons_append, ← head_eq_cons closed.2, ← cut]
    · cases found

/-- Behind a content stands the closing brace. -/
theorem matchContent_cut {s : QString} {content : Content} (found : matchContent s = some content) :
    ∃ rest, s = content.text ++ u '}' :: rest := by
  unfold matchContent at found
  split at found
  · next _ _ digits known =>
    dsimp only at found
    have cut := span_cut known
    split at found
    · next closed =>
      obtain rfl := Option.some.inj found
      refine ⟨(s.drop digits.units.length).tail, ?_⟩
      simp only [Content.text, Bool.false_eq_true, if_false, List.append_nil]
      rw [← head_eq_cons closed, ← cut]
    · split at found
      · next closed =>
        obtain rfl := Option.some.inj found
        refine ⟨(s.drop digits.units.length).drop 2, ?_⟩
        have two := List.take_append_drop 2 (s.drop digits.units.length)
        rw [closed] at two
        simp only [Content.text, if_true, List.append_assoc]
        exact cut.trans (congrArg (digits.units ++ ·) two.symm)
      · cases found
  · next _ _ name _ known =>
    dsimp only at found
    have cut := span_cut known
    split at found
    · next closed =>
      obtain rfl := Option.some.inj found
      refine ⟨(s.drop name.units.length).tail, ?_⟩
      simp only [Content.text, Option.elim_none, List.append_nil]
      rw [← head_eq_cons closed, ← cut]
    · split at found
      · next parted =>
        obtain ⟨altText, alt, rfl⟩ := Option.map_eq_some_iff.mp found
        obtain ⟨rest, shape⟩ := matchAltText_cut alt
        refine ⟨rest, ?_⟩
        simp only [Content.text, Option.elim_some, List.append_assoc, List.cons_append]
        rw [← shape, ← head_eq_cons parted, ← cut]
      · cases found
  · cases found

/-! ## What is put for a placeholder -/

/-- The words from an index on, the word at it, or what stands for a name. An index of zero or one that is
no int is looked up as the empty name. -/
def Arguments.insertion (arguments : Arguments) : Content → Insertion
  | .index digits plus =>
      let n := decimalValue 0 digits.units
      if n = 0 ∨ INT_MAX < n then arguments.variableText [] [] (Content.index digits plus).text
      else .outside (if plus then join (qs " ") (arguments.words.drop n) else arguments.words.getD n [])
  | .named name altText => arguments.variableText name.units (altText.getD []) (Content.named name altText).text

theorem replace_unit (c : QChar) (s : QString) : s.replace [c] [] = s.filter (· ≠ c) := by
  unfold QString.replace
  induction s with
  | nil => rfl
  | cons d s ih =>
    by_cases same : c = d
    · subst same
      simpa [replaceFrom, List.isPrefixOf] using ih
    · have other : d ≠ c := fun equal => same equal.symm
      simpa [replaceFrom, List.isPrefixOf, same, other] using ih

theorem trimmed_cons {c : QChar} (solid : isSpace c = false) (s : QString) :
    ∃ front, trimmed (c :: s) = c :: front ∧ front <+: s := by
  refine ⟨(s.reverse.dropWhile isSpace).reverse, ?_, ?_⟩
  · rw [trimmed, List.dropWhile_cons_of_neg (by simp [solid]), List.reverse_cons, List.dropWhile_append]
    split
    · next blank =>
      rw [List.isEmpty_iff.mp blank, List.dropWhile_cons_of_neg (by simp [solid])]
      rfl
    · rw [List.reverse_concat]
  · have kept := (List.dropWhile_suffix isSpace (l := s.reverse)).reverse
    rwa [List.reverse_reverse] at kept

/-- What begins with neither a digit nor a sign before a digit is no number. -/
theorem toInt_eq_none {c : QChar} {s : QString} (solid : isSpace c = false) (other : isDigit c = false)
    (unsigned : c ≠ u '+') (next : ∀ d ∈ s.head?, isDigit d = false) : QString.toInt (c :: s) = none := by
  obtain ⟨front, shape, inside⟩ := trimmed_cons solid s
  have tail : toUInt front = none := by
    cases front with
    | nil => rfl
    | cons d front =>
      obtain ⟨back, rfl⟩ := inside
      simp [toUInt, next d rfl]
  have whole : toUInt (c :: front) = none := by simp [toUInt, other]
  simp [QString.toInt, toIntegral, shape, unsigned, tail, whole]

theorem isNameUnit_plain {c : QChar} (named : isNameUnit c = true) :
    isSpace c = false ∧ isDigit c = false ∧ c ≠ u '+' ∧ c ≠ u '=' := by
  have bounds : 45 ≤ c.toNat ∧ ¬ (48 ≤ c.toNat ∧ c.toNat ≤ 61) := by
    simp only [isNameUnit, Bool.or_eq_true, Bool.and_eq_true, decide_eq_true_eq, beq_iff_eq] at named
    rcases named with ((⟨low, -⟩ | ⟨low, -⟩) | rfl) | rfl
    · omega
    · omega
    · decide
    · decide
  obtain ⟨low, gap⟩ := bounds
  refine ⟨?_, ?_, ?_, ?_⟩
  · have blank : c ≠ u ' ' := by
      rintro rfl
      exact absurd low (by decide)
    have control : ¬ c.toNat ≤ 13 := by omega
    simp [isSpace, blank, control]
  · simp only [isDigit, Bool.and_eq_false_iff, decide_eq_false_iff_not]
    omega
  · rintro rfl
    exact absurd low (by decide)
  · rintro rfl
    exact gap (by decide)

theorem isDigit_plain {c : QChar} (digit : isDigit c = true) : c ≠ u '+' ∧ c ≠ u '=' := by
  constructor
  · rintro rfl
    exact absurd digit (by decide)
  · rintro rfl
    exact absurd digit (by decide)

/-- The text without the units that the loop takes away before it reads a number. -/
def readText (s : QString) : QString := (s.replace (qs "+") []).replace (qs "=") []

theorem readText_eq (s : QString) : readText s = s.filter fun c => c ≠ u '+' ∧ c ≠ u '=' := by
  have plus : qs "+" = [u '+'] := rfl
  have equals : qs "=" = [u '='] := rfl
  rw [readText, plus, equals, replace_unit, replace_unit, List.filter_filter]
  congr 1
  funext c
  simp [Bool.and_comm]

theorem toInt_index (digits : Span isDigit) (plus : Bool) :
    (readText (Content.index digits plus).text).toInt =
      (some (decimalValue 0 digits.units : Int)).filter inIntRange := by
  have kept : digits.units.filter (fun c => c ≠ u '+' ∧ c ≠ u '=') = digits.units := by
    rw [List.filter_eq_self]
    intro c among
    exact decide_eq_true (isDigit_plain (List.all_eq_true.mp digits.all c among))
  have plain : readText (Content.index digits plus).text = digits.units := by
    rw [readText_eq, Content.text, List.filter_append, kept]
    cases plus <;> simp
  rw [plain, QString.toInt, toIntegral_digits _ digits.some_ digits.all]

theorem toInt_named (name : Span isNameUnit) (altText : Option QString) :
    (readText (Content.named name altText).text).toInt = none := by
  have kept : name.units.filter (fun c => c ≠ u '+' ∧ c ≠ u '=') = name.units := by
    rw [List.filter_eq_self]
    intro c among
    exact decide_eq_true (isNameUnit_plain (List.all_eq_true.mp name.all c among)).2.2
  rw [readText_eq, Content.text, List.filter_append, kept]
  obtain ⟨units, some_, all⟩ := name
  obtain ⟨c, units, rfl⟩ := List.exists_cons_of_ne_nil some_
  rw [List.all_cons, Bool.and_eq_true] at all
  obtain ⟨solid, other, unsigned, -⟩ := isNameUnit_plain all.1
  refine toInt_eq_none solid other unsigned ?_
  intro d first
  cases units with
  | nil =>
    cases altText with
    | none => cases first
    | some altText =>
      obtain rfl := Option.some.inj first
      decide
  | cons e units =>
    obtain rfl := Option.some.inj first
    rw [List.all_cons, Bool.and_eq_true] at all
    exact (isNameUnit_plain all.2.1).2.1

theorem plus_index (digits : Span isDigit) (plus : Bool) :
    (Content.index digits plus).text.getLast? = some (u '+') ↔ plus = true := by
  cases plus with
  | true => simp [Content.text]
  | false =>
    simp only [Content.text, Bool.false_eq_true, if_false, List.append_nil, iff_false]
    intro last
    have digit := List.all_eq_true.mp digits.all _ (List.mem_of_getLast? last)
    exact absurd digit (by decide)

/-- The loop reads the index of a word as its value, and it takes no name for one. -/
theorem Arguments.replacement_eq (arguments : Arguments) (content : Content) :
    arguments.replacement content = arguments.insertion content := by
  unfold replacement
  dsimp only
  rw [← readText]
  cases content with
  | named name altText =>
    rw [toInt_named, if_pos (.inl rfl)]
    rfl
  | index digits plus =>
    rw [toInt_index, insertion]
    simp only [plus_index]
    -- an index out of the range of int is no number for toInt
    generalize decimalValue 0 digits.units = n
    by_cases bounded : (n : Int) ≤ INT_MAX
    · have range : inIntRange n = true := inIntRange_iff.mpr ⟨by unfold INT_MIN; omega, bounded⟩
      have zero : ((n : Int) = 0) ↔ n = 0 ∨ INT_MAX < n := by omega
      simp only [Option.filter_some, if_pos range, Option.getD_some, Int.toNat_natCast, reduceCtorEq, false_or, zero,
        Int.ofNat_le]
      split
      · rfl
      · split
        · next few => cases plus <;> simp [List.drop_of_length_le few, join, List.getElem?_eq_none few]
        · cases plus <;> rfl
    · have range : ¬ inIntRange n = true := fun inside => bounded (inIntRange_iff.mp inside).2
      rw [Option.filter_some, if_neg range, if_pos (.inl rfl), if_pos (.inr (by omega))]
      rfl

end Forserino.Commands
