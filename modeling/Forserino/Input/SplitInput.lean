import Forserino.Commands.UserCommands
import Forserino.Util.Durations

/-! The input of a split: the text of its edit, the message that it replies to and the messages that
were sent from it. Whatever is put into the edit passes through editTextChanged.
-/

set_option autoImplicit false

namespace Forserino.Input

open Qt Commands Util

def TWITCH_MESSAGE_LIMIT : Nat := 500

/-- The message that is replied to. -/
structure ReplyTarget where
  id : QString
  displayName : QString
  deriving DecidableEq, Repr

/-- What the input meets: the settings, the channel of the split and the commands. -/
structure Context where
  /-- messageOverflow is Prevent -/
  preventOverflow : Bool
  isTwitchChannel : Bool
  /-- The channel is a TwitchChannel itself, and not one of the special ones. -/
  isTwitchObject : Bool
  lastUserThatWhisperedMe : QString
  surroundings : Surroundings
  commands : CommandController

structure SplitInput where
  enableInlineReplying : Bool
  text : QString
  replyTarget : Option ReplyTarget
  prevMsg : List QString
  currMsg : QString
  prevIndex : Int
  deriving DecidableEq, Repr

/-! ## The text of the edit -/

namespace Context

variable (context : Context)

def shouldPreventInput (text : QString) : Bool :=
  context.preventOverflow && context.isTwitchChannel && TWITCH_MESSAGE_LIMIT < text.length

/-- The beginnings that stand for a whisper, whatever the case of their letter. -/
def isShorthand (text : QString) : Bool :=
  text.startsWith (qs "/r ") || text.startsWith (qs "/R ") || text.startsWith (qs "/$") || text.startsWith (qs "/_")

/-- The branch for the text, and in the branches of the shorthands what is put in for it, if anything is. -/
def shorthand (text : QString) : Option (Option QString) :=
  if (text.startsWith (qs "/r ") || text.startsWith (qs "/R ")) && context.isTwitchChannel then
    some (if context.lastUserThatWhisperedMe ≠ [] then
      some (qs "/w " ++ context.lastUserThatWhisperedMe ++ text.mid 2) else none)
  else if text.startsWith (qs "/$") then some (some (qs "/w supibot " ++ text.mid 1))
  else if text.startsWith (qs "/_") then some (some (qs "/w mm_sutilitybot " ++ text.mid 1))
  else none

/-- The text without its surrounding spaces, as a dry run of the commands leaves it. -/
def commanded (text : QString) : QString :=
  context.commands.execCommand context.surroundings (trimmedView text) true

/-- The edit keeps the text as it is. -/
def Leaves (text : QString) : Prop :=
  context.shouldPreventInput text = false ∧ (context.shorthand text).join = none

instance (text : QString) : Decidable (context.Leaves text) := inferInstanceAs (Decidable (_ ∧ _))

/-- How often the text may be replaced by another one at most. -/
def rank (text : QString) : Nat :=
  (if isShorthand text then 2 else 0) + if TWITCH_MESSAGE_LIMIT < text.length then 1 else 0

end Context

def ReplyTarget.mention (target : ReplyTarget) : QString := u '@' :: target.displayName

/-- The mention stands in front, and if a character follows it, it is a space. -/
def ReplyTarget.isMentionedBy (target : ReplyTarget) (text : QString) : Bool :=
  text.startsWith target.mention && (text[target.mention.length]?).all fun c => c == u ' '

namespace SplitInput

def checkReply (input : SplitInput) (text : QString) : SplitInput :=
  match input.replyTarget with
  | some target =>
      if input.enableInlineReplying && !target.isMentionedBy text then { input with replyTarget := none } else input
  | none => input

end SplitInput

namespace Context

variable {context : Context} {text replacement : QString}

theorem startsWith_of_take {start : QString} {n : Nat} (starts : QString.startsWith (text.take n) start = true) :
    text.startsWith start = true := by
  rw [QString.startsWith, List.isPrefixOf_iff_prefix] at *
  exact starts.trans (List.take_prefix n text)

theorem isShorthand_of_take {n : Nat} (short : isShorthand (text.take n) = true) : isShorthand text = true := by
  simp only [isShorthand, Bool.or_eq_true] at short ⊢
  rcases short with ((starts | starts) | starts) | starts
  · exact .inl (.inl (.inl (startsWith_of_take starts)))
  · exact .inl (.inl (.inr (startsWith_of_take starts)))
  · exact .inl (.inr (startsWith_of_take starts))
  · exact .inr (startsWith_of_take starts)

theorem rank_take (prevented : context.shouldPreventInput text = true) :
    rank (text.take TWITCH_MESSAGE_LIMIT) < rank text := by
  have long : TWITCH_MESSAGE_LIMIT < text.length := by
    simp only [shouldPreventInput, Bool.and_eq_true, decide_eq_true_eq] at prevented
    exact prevented.2
  have cut : ¬ TWITCH_MESSAGE_LIMIT < (text.take TWITCH_MESSAGE_LIMIT).length := by
    rw [List.length_take]
    omega
  rw [rank, rank, if_neg cut, if_pos long]
  split
  case isTrue short => rw [if_pos (isShorthand_of_take short)]; omega
  case isFalse => omega

theorem isShorthand_of_found {found : Option QString} (branch : context.shorthand text = some found) :
    isShorthand text = true := by
  unfold shorthand at branch
  split at branch
  case isTrue short =>
    rw [Bool.and_eq_true] at short
    simp [isShorthand, short.1]
  case isFalse =>
    split at branch
    case isTrue short => simp [isShorthand, short]
    case isFalse =>
      split at branch
      case isTrue short => simp [isShorthand, short]
      case isFalse => cases branch

/-- What is put in is a whisper, and so no shorthand. -/
theorem isShorthand_replacement (found : context.shorthand text = some (some replacement)) :
    isShorthand replacement = false := by
  have whisper (rest : QString) : isShorthand (qs "/w " ++ rest) = false := rfl
  unfold shorthand at found
  split at found
  · split at found
    · cases found
      exact whisper _
    · cases found
  · split at found
    · cases found
      exact whisper (qs "supibot " ++ _)
    · split at found
      · cases found
        exact whisper (qs "mm_sutilitybot " ++ _)
      · cases found

theorem rank_replacement (found : context.shorthand text = some (some replacement)) : rank replacement < rank text := by
  have short := isShorthand_of_found found
  have other := isShorthand_replacement found
  have limited : (if TWITCH_MESSAGE_LIMIT < replacement.length then 1 else 0) ≤ 1 := by split <;> decide
  rw [rank, rank, if_pos short, if_neg (Bool.not_eq_true _ ▸ other)]
  omega

end Context

namespace SplitInput

/-- The slot of textChanged. What it puts in itself is met by a call of its own, behind which it goes on with the old text. -/
def editTextChanged (context : Context) (input : SplitInput) : SplitInput :=
  if _prevented : context.shouldPreventInput input.text then
    editTextChanged context { input with text := input.text.take TWITCH_MESSAGE_LIMIT }
  else
    match _found : context.shorthand input.text with
    | some (some replacement) => (editTextChanged context { input with text := replacement }).checkReply input.text
    | some none => input.checkReply input.text
    | none => input.checkReply (context.commanded input.text)
termination_by Context.rank input.text
decreasing_by
  · exact Context.rank_take _prevented
  · exact Context.rank_replacement _found

def setPlainText (context : Context) (input : SplitInput) (text : QString) : SplitInput :=
  editTextChanged context { input with text }

def clearInput (context : Context) (input : SplitInput) : SplitInput :=
  let input := setPlainText context { input with currMsg := [] } []
  if input.enableInlineReplying then { input with replyTarget := none } else input

/-! ## Sending -/

def postMessageSend (context : Context) (input : SplitInput) (message : QString) (arguments : List QString) : SplitInput :=
  let prevMsg :=
    if (input.prevMsg = [] ∨ input.prevMsg.getLast? ≠ some message) ∧ trimmedView message ≠ [] then
      input.prevMsg ++ [message]
    else input.prevMsg
  let input := { input with prevMsg }
  let input := if arguments = [] ∨ arguments.head? ≠ some (qs "keepInput") then clearInput context input else input
  { input with prevIndex := input.prevMsg.length }

/-- What is handed to command processing, what is sent behind it, and the message it is a reply to. -/
structure Sent where
  message : QString
  sendMessage : QString
  replyTo : Option QString
  deriving DecidableEq, Repr

/-- The text without the mention and a possible space. -/
def withoutMention (target : ReplyTarget) (text : QString) : QString :=
  let message := text.drop (target.displayName.length + 1)
  if message.head? = some (u ' ') then message.drop 1 else message

def withoutNewlines (message : QString) : QString := message.map fun c => if c = u '\n' then u ' ' else c

def handleSendMessage (context : Context) (input : SplitInput) (arguments : List QString) : Option Sent × SplitInput :=
  match if context.isTwitchChannel then input.replyTarget else none with
  | none =>
      let message := withoutNewlines input.text
      let sendMessage := context.commands.execCommand context.surroundings message false
      (some ⟨message, sendMessage, none⟩, postMessageSend context input message arguments)
  | some target =>
      if context.isTwitchObject then
        let message := if input.enableInlineReplying then withoutMention target input.text else input.text
        let message := withoutNewlines message
        let sendMessage := context.commands.execCommand context.surroundings message false
        (some ⟨message, sendMessage, some target.id⟩, postMessageSend context input message arguments)
      else (none, input)

/-! ## What editTextChanged leaves -/

variable {context : Context} {input : SplitInput} {target : ReplyTarget} {text : QString}

theorem editTextChanged_prevented (prevented : context.shouldPreventInput input.text = true) :
    editTextChanged context input =
      editTextChanged context { input with text := input.text.take TWITCH_MESSAGE_LIMIT } := by
  rw [editTextChanged, dif_pos prevented]

theorem editTextChanged_replaced (fits : ¬ context.shouldPreventInput input.text = true) {replacement : QString}
    (found : context.shorthand input.text = some (some replacement)) : editTextChanged context input =
      (editTextChanged context { input with text := replacement }).checkReply input.text := by
  rw [editTextChanged, dif_neg fits]
  split <;> simp_all

theorem editTextChanged_whisper (fits : ¬ context.shouldPreventInput input.text = true)
    (found : context.shorthand input.text = some none) :
    editTextChanged context input = input.checkReply input.text := by
  rw [editTextChanged, dif_neg fits]
  split <;> simp_all

theorem editTextChanged_plain (fits : ¬ context.shouldPreventInput input.text = true)
    (found : context.shorthand input.text = none) :
    editTextChanged context input = input.checkReply (context.commanded input.text) := by
  rw [editTextChanged, dif_neg fits]
  split <;> simp_all

@[simp] theorem checkReply_text : (input.checkReply text).text = input.text := by
  unfold checkReply
  split <;> [split; skip] <;> rfl

/-- Only the text and the reply target can change. -/
structure Kept (before behind : SplitInput) : Prop where
  enableInlineReplying : behind.enableInlineReplying = before.enableInlineReplying
  prevMsg : behind.prevMsg = before.prevMsg
  currMsg : behind.currMsg = before.currMsg
  prevIndex : behind.prevIndex = before.prevIndex

theorem checkReply_kept (before : SplitInput) (kept : Kept before input) : Kept before (input.checkReply text) := by
  unfold checkReply
  split
  · split
    · exact ⟨kept.enableInlineReplying, kept.prevMsg, kept.currMsg, kept.prevIndex⟩
    · exact kept
  · exact kept

theorem editTextChanged_kept (context : Context) (input : SplitInput) : Kept input (editTextChanged context input) := by
  fun_induction editTextChanged context input with
  | case1 input _ ih => exact ⟨ih.1, ih.2, ih.3, ih.4⟩
  | case2 input _ _ _ ih => exact checkReply_kept _ ⟨ih.1, ih.2, ih.3, ih.4⟩
  | case3 input => exact checkReply_kept _ ⟨rfl, rfl, rfl, rfl⟩
  | case4 input => exact checkReply_kept _ ⟨rfl, rfl, rfl, rfl⟩

end SplitInput

/-- What the edit shows behind a text was put into it. -/
def Context.shown (context : Context) (text : QString) : QString :=
  (SplitInput.editTextChanged context ⟨false, text, none, [], [], 0⟩).text

namespace SplitInput

variable {context : Context} {input : SplitInput} {target : ReplyTarget} {text : QString}

/-- The text that is left depends on the text that was there alone. -/
theorem editTextChanged_text_congr (other : SplitInput) (same : other.text = input.text) :
    (editTextChanged context other).text = (editTextChanged context input).text := by
  fun_induction editTextChanged context input generalizing other with
  | case1 input prevented ih =>
    rw [editTextChanged_prevented (by rwa [same])]
    exact ih _ (by rw [same])
  | case2 input fits replacement found ih =>
    rw [editTextChanged_replaced (by rwa [same]) (by rwa [same]), checkReply_text, checkReply_text]
    exact ih _ rfl
  | case3 input fits found =>
    rw [editTextChanged_whisper (by rwa [same]) (by rwa [same]), checkReply_text, checkReply_text, same]
  | case4 input fits found =>
    rw [editTextChanged_plain (by rwa [same]) (by rwa [same]), checkReply_text, checkReply_text, same]

theorem editTextChanged_leaves (context : Context) (input : SplitInput) :
    context.Leaves (editTextChanged context input).text := by
  fun_induction editTextChanged context input with
  | case1 input prevented ih => exact ih
  | case2 input fits replacement found ih => rwa [checkReply_text]
  | case3 input fits found =>
    rw [checkReply_text]
    exact ⟨Bool.not_eq_true _ ▸ fits, by rw [found]; rfl⟩
  | case4 input fits found =>
    rw [checkReply_text]
    exact ⟨Bool.not_eq_true _ ▸ fits, by rw [found]; rfl⟩

theorem setPlainText_text (context : Context) (input : SplitInput) (text : QString) :
    (setPlainText context input text).text = context.shown text :=
  editTextChanged_text_congr _ rfl

theorem setPlainText_kept (context : Context) (input : SplitInput) (text : QString) :
    Kept input (setPlainText context input text) :=
  have kept := editTextChanged_kept context { input with text }
  ⟨kept.enableInlineReplying, kept.prevMsg, kept.currMsg, kept.prevIndex⟩

end SplitInput

theorem Context.shown_eq_iff {context : Context} {text : QString} : context.shown text = text ↔ context.Leaves text := by
  constructor
  · intro same
    rw [← same]
    exact SplitInput.editTextChanged_leaves context _
  · rintro ⟨fits, kept⟩
    have fits : ¬ context.shouldPreventInput text = true := by rw [fits]; decide
    rw [Context.shown]
    match found : context.shorthand text with
    | none => rw [SplitInput.editTextChanged_plain fits found, SplitInput.checkReply_text]
    | some none => rw [SplitInput.editTextChanged_whisper fits found, SplitInput.checkReply_text]
    | some (some replacement) => rw [found] at kept; cases kept

/-- No limit, and no commands. -/
def Context.quiet : Context :=
  { preventOverflow := false, isTwitchChannel := true, isTwitchObject := true, lastUserThatWhisperedMe := []
    surroundings := ⟨id, fun _ => none, fun _ _ _ => [], false⟩, commands := .empty }

/-- An input before anything is written. -/
def SplitInput.blank : SplitInput :=
  { enableInlineReplying := true, text := [], replyTarget := none, prevMsg := [], currMsg := [], prevIndex := 0 }

end Forserino.Input
