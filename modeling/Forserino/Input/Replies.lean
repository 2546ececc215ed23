import Mathlib.Data.List.Basic
import Forserino.Foundation.Runs
import Forserino.Input.SplitInput

/-! Replies that are written behind a mention in the input, which is cut off the message when it is sent.
-/

set_option autoImplicit false

namespace Forserino.Input

open Qt Foundation Commands Util

namespace SplitInput

/-- The text of the edit without a mention of the message that was replied to before. -/
def removeOldPrefix (context : Context) (input : SplitInput) : SplitInput :=
  match if input.enableInlineReplying then input.replyTarget else none with
  | some oldParent =>
      let replyPrefix := oldParent.mention
      let plainText := trimmedView input.text
      let plainText := if plainText.startsWith replyPrefix then plainText.drop replyPrefix.length else plainText
      setPlainText context input (trimmedView plainText)
  | none => input

/-- The text that setReply puts into the edit for the one that is there. -/
def replyText (target : ReplyTarget) (text : QString) : QString :=
  let replyPrefix := target.mention
  let plainText := trimmedView text
  let plainText :=
    if plainText.startsWith replyPrefix then
      if replyPrefix.length < plainText.length then
        if plainText[replyPrefix.length]? = some (u ',') ∨ plainText[replyPrefix.length]? = some (u ' ') then
          plainText.drop (replyPrefix.length + 1)
        else plainText
      else plainText.drop replyPrefix.length
    else plainText
  let replyPrefix := if plainText ≠ [] ∧ plainText.head? ≠ some (u ' ') then replyPrefix ++ [u ' '] else replyPrefix
  replyPrefix ++ plainText ++ [u ' ']

def setReply (context : Context) (input : SplitInput) (target : ReplyTarget) : SplitInput :=
  let input := { removeOldPrefix context input with replyTarget := some target }
  if input.enableInlineReplying then setPlainText context input (replyText target input.text) else input

inductive Action where
  | edit (typed : QString)
  | setReply (target : ReplyTarget)
  deriving DecidableEq, Repr

/-- What is done, and what the input meets at that time. -/
structure Event where
  action : Action
  context : Context

def step (input : SplitInput) (event : Event) : Option SplitInput :=
  match event.action with
  | .edit typed => some (setPlainText event.context input typed)
  | .setReply target => some (setReply event.context input target)

/-- The input replies inline, and to no message yet. -/
def unreplied (input : SplitInput) : SplitInput := { input with enableInlineReplying := true, replyTarget := none }

/-- What handleSendMessage hands to the commands is the text without the mention and one space behind it. -/
def CutsMention (input : SplitInput) : Prop :=
  ∀ target, input.replyTarget = some target → ∃ rest, input.text = target.mention ++ rest ∧
    ∀ context arguments, context.isTwitchChannel = true → context.isTwitchObject = true →
      (handleSendMessage context input arguments).1.map Sent.message =
        some (withoutNewlines (if rest.head? = some (u ' ') then rest.drop 1 else rest))

/-- The text without what is over the limit, if that is prevented. -/
def cut (context : Context) (typed : QString) : QString :=
  if context.shouldPreventInput typed then typed.take TWITCH_MESSAGE_LIMIT else typed

/-- The text that is looked at in the branch without shorthands, if the edit gets there. -/
def plainText? (context : Context) (typed : QString) : Option QString :=
  if context.shorthand (cut context typed) = none then some (cut context typed) else none

/-- The edit finds the mention at the beginning only behind spaces that it left out or a command that it expanded. -/
def Misread (context : Context) (target : ReplyTarget) (typed : QString) : Prop :=
  ∃ text, plainText? context typed = some text ∧ target.isMentionedBy (context.commanded text) = true ∧
    ¬ target.mention <+: text

/-- The text that the event puts into the edit is not misread. -/
def ReadsRight (input : SplitInput) (event : Event) : Prop :=
  match event.action with
  | .edit typed => ∀ target ∈ input.replyTarget, ¬ Misread event.context target typed
  | .setReply target => ¬ Misread event.context target (replyText target (removeOldPrefix event.context input).text)

variable {context : Context} {input : SplitInput} {target : ReplyTarget} {typed text : QString}

/-! ## The reply target behind a change of the text -/

theorem checkReply_none (none_ : input.replyTarget = none) (text : QString) :
    (input.checkReply text).replyTarget = none := by
  obtain ⟨_, _, _, _, _, _⟩ := input
  cases none_
  rfl

theorem checkReply_some (replies : input.replyTarget = some target) (inline : input.enableInlineReplying = true)
    (text : QString) : (input.checkReply text).replyTarget = if target.isMentionedBy text then some target else none := by
  obtain ⟨_, _, _, _, _, _⟩ := input
  cases replies
  cases inline
  cases mentioned : target.isMentionedBy text <;> simp [checkReply, mentioned]

theorem setPlainText_none (none_ : input.replyTarget = none) (context : Context) (text : QString) :
    (setPlainText context input text).replyTarget = none := by
  rw [setPlainText]
  generalize changed : ({ input with text } : SplitInput) = before
  have none_ : before.replyTarget = none := by rw [← changed]; exact none_
  clear changed
  fun_induction editTextChanged context before with
  | case1 before prevented ih => exact ih none_
  | case2 before fits replacement found ih => exact checkReply_none (ih none_) _
  | case3 before fits found => exact checkReply_none none_ _
  | case4 before fits found => exact checkReply_none none_ _

/-- A shorthand mentions nobody. -/
theorem not_mentioned_of_shorthand (short : Context.isShorthand text = true) (target : ReplyTarget) :
    target.isMentionedBy text = false := by
  have begins {start : QString} (starts : text.startsWith (u '/' :: start) = true) : text.head? = some (u '/') := by
    obtain ⟨rest, rfl⟩ := List.isPrefixOf_iff_prefix.mp starts
    rfl
  have slash : text.head? = some (u '/') := by
    simp only [Context.isShorthand, Bool.or_eq_true] at short
    rcases short with ((starts | starts) | starts) | starts <;> exact begins starts
  obtain ⟨rest, rfl⟩ := List.head?_eq_some_iff.mp slash
  rfl

theorem fits_cut (context : Context) (typed : QString) : ¬ context.shouldPreventInput (cut context typed) = true := by
  rw [cut]
  split
  case isFalse fits => exact fits
  case isTrue =>
    simp only [Context.shouldPreventInput, Bool.and_eq_true, decide_eq_true_eq, List.length_take, not_and]
    omega

theorem setPlainText_cut (context : Context) (input : SplitInput) (typed : QString) :
    setPlainText context input typed = editTextChanged context { input with text := cut context typed } := by
  rw [cut]
  split
  case isTrue prevented => exact editTextChanged_prevented prevented
  case isFalse => rfl

/-- Where the text is plain, it is what the edit shows, and the reply target is kept if the mention is found. -/
theorem setPlainText_of_plain (plain : plainText? context typed = some text) (replies : input.replyTarget = some target)
    (inline : input.enableInlineReplying = true) : (setPlainText context input typed).text = text ∧
      (setPlainText context input typed).replyTarget =
        if target.isMentionedBy (context.commanded text) then some target else none := by
  rw [plainText?, ite_eq_iff] at plain
  obtain ⟨found, cutText⟩ | ⟨_, none_⟩ := plain
  · cases cutText
    rw [setPlainText_cut, editTextChanged_plain (fits_cut context typed) found]
    exact ⟨checkReply_text, @checkReply_some { input with text := cut context typed } target replies inline _⟩
  · cases none_

/-- In the branches of the shorthands the reply target is never kept. -/
theorem setPlainText_of_shorthand (short : plainText? context typed = none) (replies : input.replyTarget = some target)
    (inline : input.enableInlineReplying = true) : (setPlainText context input typed).replyTarget = none := by
  rw [setPlainText_cut]
  have cleared (before : SplitInput) (inlineToo : before.enableInlineReplying = true)
      (target : ReplyTarget) (replies : before.replyTarget = some target)
      (branch : Context.isShorthand (cut context typed) = true) :
      (before.checkReply (cut context typed)).replyTarget = none := by
    rw [checkReply_some replies inlineToo, not_mentioned_of_shorthand branch]
    rfl
  match found : context.shorthand (cut context typed) with
  | none =>
    rw [plainText?, if_pos found] at short
    cases short
  | some none =>
    rw [editTextChanged_whisper (fits_cut context typed) found]
    exact cleared _ inline target replies (Context.isShorthand_of_found found)
  | some (some replacement) =>
    rw [editTextChanged_replaced (fits_cut context typed) found]
    generalize nested : editTextChanged context _ = before
    have kept := editTextChanged_kept context { input with text := replacement }
    rw [nested] at kept
    cases still : before.replyTarget with
    | none => exact checkReply_none still _
    | some other =>
      exact cleared before (kept.enableInlineReplying.trans inline) other still (Context.isShorthand_of_found found)

/-! ## Runs -/

/-- An input that replies inline, with the mention in front of its text. -/
structure Mentions (input : SplitInput) : Prop where
  inline : input.enableInlineReplying = true
  mentioned : ∀ target, input.replyTarget = some target → target.mention <+: input.text

theorem withoutMention_append (target : ReplyTarget) (rest : QString) :
    withoutMention target (target.mention ++ rest) = if rest.head? = some (u ' ') then rest.drop 1 else rest := by
  have dropped : (target.mention ++ rest).drop (target.displayName.length + 1) = rest :=
    List.drop_left' rfl
  rw [withoutMention, dropped]

/-- The mention is cut off exactly if the text begins with it. -/
theorem cutsMention_iff (inline : input.enableInlineReplying = true) :
    CutsMention input ↔ ∀ target, input.replyTarget = some target → target.mention <+: input.text := by
  constructor
  · intro cuts target replies
    obtain ⟨rest, text, -⟩ := cuts target replies
    exact ⟨rest, text.symm⟩
  · intro mentioned target replies
    obtain ⟨rest, text⟩ := mentioned target replies
    refine ⟨rest, text.symm, fun context arguments isTwitch isObject => ?_⟩
    rw [handleSendMessage, if_pos isTwitch, replies]
    simp only [isObject, inline, if_true, Option.map_some, ← text, withoutMention_append]

/-- A text that is put into the edit leaves the mention in front exactly if it is not misread. -/
theorem setPlainText_mentioned_iff (replies : input.replyTarget = some target)
    (inline : input.enableInlineReplying = true) :
    (∀ kept, (setPlainText context input typed).replyTarget = some kept →
      kept.mention <+: (setPlainText context input typed).text) ↔ ¬ Misread context target typed := by
  match plain : plainText? context typed with
  | none => simp [Misread, plain, setPlainText_of_shorthand plain replies inline]
  | some text =>
    obtain ⟨shown, kept⟩ := setPlainText_of_plain plain replies inline
    rw [shown, kept]
    cases mentioned : target.isMentionedBy (context.commanded text) with
    | true => simp [Misread, plain, mentioned]
    | false => simp [Misread, plain, mentioned]

theorem removeOldPrefix_inline (inline : input.enableInlineReplying = true) :
    (removeOldPrefix context input).enableInlineReplying = true := by
  unfold removeOldPrefix
  split
  · exact (setPlainText_kept context input _).enableInlineReplying.trans inline
  · exact inline

/-- An event leaves the mention in front of the text exactly if what it puts into the edit is read right. -/
theorem step_mentioned_iff (inline : input.enableInlineReplying = true) {event : Event} {next : SplitInput}
    (taken : input.step event = some next) : next.enableInlineReplying = true ∧ (ReadsRight input event ↔
      ∀ kept, next.replyTarget = some kept → kept.mention <+: next.text) := by
  rw [step] at taken
  rw [ReadsRight]
  cases action : event.action with
  | edit typed =>
    rw [action] at taken
    cases taken
    refine ⟨(setPlainText_kept event.context input typed).enableInlineReplying.trans inline, ?_⟩
    cases replies : input.replyTarget with
    | none => simp [setPlainText_none replies]
    | some target => simpa using (setPlainText_mentioned_iff replies inline).symm
  | setReply target =>
    rw [action] at taken
    cases taken
    have stillInline := @removeOldPrefix_inline event.context input inline
    let before : SplitInput := { removeOldPrefix event.context input with replyTarget := some target }
    have result : setReply event.context input target =
        setPlainText event.context before (replyText target before.text) := by
      simp only [setReply, stillInline, if_true, before]
    rw [result]
    exact ⟨(setPlainText_kept event.context before _).enableInlineReplying.trans stillInline,
      (@setPlainText_mentioned_iff event.context before target (replyText target before.text) rfl stillInline).symm⟩

/-- What setReply puts into the edit is misread only if the mention itself is longer than a message may be. -/
theorem readsRight_setReply (short : target.mention.length ≤ TWITCH_MESSAGE_LIMIT) (text : QString) :
    ¬ Misread context target (replyText target text) := by
  rintro ⟨plain, found, -, unmentioned⟩
  have written : target.mention <+: replyText target text := by
    unfold replyText
    extract_lets mention _ plainText replyPrefix
    have begins : mention <+: replyPrefix := by
      unfold replyPrefix
      split
      · exact List.prefix_append _ _
      · exact List.prefix_refl _
    rw [List.append_assoc]
    exact begins.trans (List.prefix_append _ _)
  rw [plainText?, ite_eq_iff] at found
  obtain ⟨-, cutText⟩ | ⟨-, none_⟩ := found
  · cases cutText
    apply unmentioned
    rw [cut]
    split
    · exact List.prefix_take_iff.mpr ⟨written, short⟩
    · exact written
  · cases none_

/-- In a run the mention is cut off in every state exactly as long as all texts are read right. -/
theorem replies_cut_mention (input : SplitInput) (events : List Event) :
    (∃ final, run step input.unreplied events = some final) ∧
    (Along step ReadsRight input.unreplied events ↔
      ∀ before, before <+: events → ∀ state, run step input.unreplied before = some state → CutsMention state) := by
  have possible (s : SplitInput) (e : Event) : ∃ next, s.step e = some next := by
    rw [step]
    cases e.action <;> exact ⟨_, rfl⟩
  obtain ⟨final, ran⟩ := run_possible possible input.unreplied events
  refine ⟨⟨final, ran⟩, along_iff (fun s e next (mentions : Mentions s) right taken => ?_) ?_ ?_ ran ?_⟩
  · obtain ⟨inline, exactly⟩ := step_mentioned_iff mentions.inline taken
    exact ⟨inline, exactly.mp right⟩
  · intro s e next mentions wrong taken cuts
    obtain ⟨inline, exactly⟩ := step_mentioned_iff mentions.inline taken
    exact wrong (exactly.mpr ((cutsMention_iff inline).mp cuts))
  · exact fun s mentions => (cutsMention_iff mentions.inline).mpr mentions.mentioned
  · refine ⟨rfl, fun target replies => ?_⟩
    cases replies

/-- A mention behind two spaces. -/
theorem spaces_before_mention_cut : ¬ ∀ (input : SplitInput) (events : List Event) (before : List Event),
    before <+: events → ∀ state, run step input.unreplied before = some state → CutsMention state := by
  intro cuts
  let target : ReplyTarget := ⟨qs "1", qs "forsen"⟩
  let events : List Event := [⟨.setReply target, .quiet⟩, ⟨.edit (qs "  @forsen hi"), .quiet⟩]
  let replying := setPlainText .quiet { blank with replyTarget := some target } (qs "@forsen ")
  obtain ⟨-, replies⟩ := @setPlainText_of_plain .quiet { blank with replyTarget := some target } target
    (qs "@forsen ") (qs "@forsen ") (by decide) rfl rfl
  obtain ⟨shown, kept⟩ := @setPlainText_of_plain .quiet replying target (qs "  @forsen hi") (qs "  @forsen hi")
    (by decide) (replies.trans (if_pos (by decide))) (setPlainText_kept .quiet _ _).enableInlineReplying
  have ran : run step blank.unreplied events = some (setPlainText .quiet replying (qs "  @forsen hi")) := rfl
  obtain ⟨rest, text, -⟩ := cuts blank events events (List.prefix_refl events) _ ran target (kept.trans (if_pos (by decide)))
  have begins : target.mention <+: qs "  @forsen hi" := ⟨rest, text.symm.trans shown⟩
  exact absurd begins (by decide)

end SplitInput

end Forserino.Input
