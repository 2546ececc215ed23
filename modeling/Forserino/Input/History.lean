import Mathlib.Data.List.Basic
import Forserino.Foundation.Runs
import Forserino.Input.SplitInput

/-! The keys that go through the messages that were sent, and back to the text that was being written.
-/

set_option autoImplicit false

namespace Forserino.Input

open Qt Foundation

/-- QList::at; the index has to be valid. -/
def at? (messages : List QString) (index : Int) : Option QString := if 0 ≤ index then messages[index.toNat]? else none

namespace SplitInput

def previousMessage (context : Context) (input : SplitInput) : Option SplitInput :=
  if input.prevMsg = [] ∨ input.prevIndex = 0 then some input
  else
    let currMsg := if input.prevIndex = input.prevMsg.length then input.text else input.currMsg
    let input := { input with currMsg, prevIndex := input.prevIndex - 1 }
    (at? input.prevMsg input.prevIndex).map (setPlainText context input)

def nextMessage (context : Context) (input : SplitInput) : Option SplitInput :=
  if input.prevMsg = [] then some input
  else if input.prevIndex ≠ input.prevMsg.length - 1 ∧ input.prevIndex ≠ input.prevMsg.length then
    let input := { input with prevIndex := input.prevIndex + 1 }
    (at? input.prevMsg input.prevIndex).map (setPlainText context input)
  else
    let message := input.text
    let input := { input with prevIndex := input.prevMsg.length }
    (at? input.prevMsg (input.prevIndex - 1)).map fun last =>
      if message = last then setPlainText context input input.currMsg
      else if message ≠ input.currMsg then { input with currMsg := message }
      else input

/-- The two actions. -/
inductive Key where
  | previousMessage
  | nextMessage
  deriving DecidableEq, Repr

/-- A key, and what the input meets at that time. -/
structure Press where
  key : Key
  context : Context

def press (input : SplitInput) (press : Press) : Option SplitInput :=
  match press.key with
  | .previousMessage => input.previousMessage press.context
  | .nextMessage => input.nextMessage press.context

/-- The position behind the messages that were sent, where a draft is written. -/
def atNewest (input : SplitInput) : SplitInput := { input with prevIndex := input.prevMsg.length }

/-- The index is one of the messages that were sent or the newest position, and the input shows what is there. -/
structure Shows (sent : List QString) (draft : QString) (input : SplitInput) : Prop where
  natural : 0 ≤ input.prevIndex
  bounded : input.prevIndex ≤ sent.length
  older : input.prevIndex < sent.length → at? sent input.prevIndex = some input.text
  newest : input.prevIndex = sent.length → input.text = draft

/-- The key does not lose the draft: a message that it shows is not changed by the edit, and where the
input shows the text of the last message, currMsg is what the edit shows as the draft. -/
def Safe (draft : QString) (input : SplitInput) (press : Press) : Prop :=
  match press.key with
  | .previousMessage =>
      input.prevIndex = 0 ∨ ∀ message ∈ at? input.prevMsg (input.prevIndex - 1), press.context.Leaves message
  | .nextMessage =>
      if input.prevIndex + 1 < input.prevMsg.length then
        ∀ message ∈ at? input.prevMsg (input.prevIndex + 1), press.context.Leaves message
      else input.prevMsg.getLast? = some input.text → press.context.shown input.currMsg = draft

/-- An input on its way through the messages. -/
structure Browsing (sent : List QString) (draft : QString) (input : SplitInput) : Prop extends Shows sent draft input where
  prevMsg : input.prevMsg = sent
  saved : input.prevIndex < sent.length → input.currMsg = draft

variable {sent : List QString} {draft : QString} {input next : SplitInput} {context : Context}

theorem at?_ofNat (messages : List QString) (n : Nat) : at? messages n = messages[n]? := by
  rw [at?, if_pos (Int.natCast_nonneg n), Int.toNat_natCast]

theorem exists_at? {messages : List QString} {index : Int} (natural : 0 ≤ index) (bounded : index < messages.length) :
    ∃ message, at? messages index = some message := by
  obtain ⟨n, rfl⟩ := Int.eq_ofNat_of_zero_le natural
  rw [at?_ofNat]
  exact ⟨_, List.getElem?_eq_getElem (Int.ofNat_lt.mp bounded)⟩

theorem at?_last {messages : List QString} (some_ : messages ≠ []) :
    at? messages ((messages.length : Int) - 1) = messages.getLast? := by
  have positive := List.length_pos_of_ne_nil some_
  rw [show (messages.length : Int) - 1 = (messages.length - 1 : Nat) by omega, at?_ofNat, List.getLast?_eq_getElem?]

/-! ## One key -/

/-- What previousMessage does where the index is valid. -/
theorem previousMessage_cases (natural : 0 ≤ input.prevIndex) (bounded : input.prevIndex ≤ input.prevMsg.length) :
    (input.prevIndex = 0 ∧ input.previousMessage context = some input) ∨
      ∃ message next, 0 < input.prevIndex ∧ at? input.prevMsg (input.prevIndex - 1) = some message ∧
        input.previousMessage context = some next ∧ next.text = context.shown message ∧
        next.prevMsg = input.prevMsg ∧ next.prevIndex = input.prevIndex - 1 ∧
        next.currMsg = if input.prevIndex = input.prevMsg.length then input.text else input.currMsg := by
  by_cases first : input.prevIndex = 0
  · exact .inl ⟨first, by rw [previousMessage, if_pos (.inr first)]⟩
  · have positive : 0 < input.prevIndex := by omega
    have some_ : ¬ (input.prevMsg = [] ∨ input.prevIndex = 0) := by
      rintro (none_ | zero)
      · rw [none_, List.length_nil] at bounded
        omega
      · exact first zero
    obtain ⟨message, found⟩ := @exists_at? input.prevMsg (input.prevIndex - 1) (by omega) (by omega)
    let back : SplitInput := { input with
      currMsg := if input.prevIndex = input.prevMsg.length then input.text else input.currMsg
      prevIndex := input.prevIndex - 1 }
    have kept := setPlainText_kept context back message
    refine .inr ⟨message, setPlainText context back message, positive, found, ?_, setPlainText_text context back message,
      kept.prevMsg, kept.prevIndex, kept.currMsg⟩
    rw [previousMessage, if_neg some_]
    simp only [found, Option.map_some, back]

theorem nextMessage_cases (natural : 0 ≤ input.prevIndex) (bounded : input.prevIndex ≤ input.prevMsg.length) :
    (input.prevMsg = [] ∧ input.nextMessage context = some input) ∨
      (∃ message next, input.prevIndex + 1 < input.prevMsg.length ∧
        at? input.prevMsg (input.prevIndex + 1) = some message ∧
        input.nextMessage context = some next ∧ next.text = context.shown message ∧
        next.prevMsg = input.prevMsg ∧ next.prevIndex = input.prevIndex + 1 ∧ next.currMsg = input.currMsg) ∨
      ∃ last next, ¬ input.prevIndex + 1 < input.prevMsg.length ∧ input.prevMsg.getLast? = some last ∧
        input.nextMessage context = some next ∧ next.prevMsg = input.prevMsg ∧ next.prevIndex = input.prevMsg.length ∧
        next.text = if input.text = last then context.shown input.currMsg else input.text := by
  by_cases none_ : input.prevMsg = []
  · exact .inl ⟨none_, by rw [nextMessage, if_pos none_]⟩
  right
  by_cases older : input.prevIndex + 1 < input.prevMsg.length
  · obtain ⟨message, found⟩ := exists_at? (by omega) older
    let forth : SplitInput := { input with prevIndex := input.prevIndex + 1 }
    have kept := setPlainText_kept context forth message
    refine .inl ⟨message, setPlainText context forth message, older, found, ?_, setPlainText_text context forth message,
      kept.prevMsg, kept.prevIndex, kept.currMsg⟩
    rw [nextMessage, if_neg none_, if_pos ⟨by omega, by omega⟩]
    simp only [found, Option.map_some, forth]
  · obtain ⟨last, found⟩ := Option.ne_none_iff_exists'.mp (mt List.getLast?_eq_none_iff.mp none_)
    have atLast := (at?_last none_).trans found
    let newest : SplitInput := { input with prevIndex := input.prevMsg.length }
    have kept := setPlainText_kept context newest input.currMsg
    have result : input.nextMessage context = some
        (if input.text = last then setPlainText context newest input.currMsg
          else if input.text ≠ input.currMsg then { newest with currMsg := input.text }
          else newest) := by
      rw [nextMessage, if_neg none_, if_neg (by omega)]
      simp only [atLast, Option.map_some, newest]
    refine .inr ⟨last, _, older, found, result, ?_⟩
    by_cases same : input.text = last
    · rw [if_pos same, if_pos same]
      exact ⟨kept.prevMsg, kept.prevIndex, setPlainText_text context newest _⟩
    · rw [if_neg same, if_neg same]
      split <;> exact ⟨rfl, rfl, rfl⟩

/-- The messages stay, and the index stays valid. -/
theorem press_valid {event : Press} (natural : 0 ≤ input.prevIndex) (bounded : input.prevIndex ≤ input.prevMsg.length) :
    ∃ next, input.press event = some next ∧ next.prevMsg = input.prevMsg ∧ 0 ≤ next.prevIndex ∧
      next.prevIndex ≤ next.prevMsg.length := by
  rw [press]
  cases event.key with
  | previousMessage =>
    rcases @previousMessage_cases input event.context natural bounded with
      ⟨first, stays⟩ | ⟨message, next, positive, found, stepped, -, prevMsg, prevIndex, -⟩
    · exact ⟨input, stays, rfl, natural, bounded⟩
    · exact ⟨next, stepped, prevMsg, by omega, by rw [prevMsg]; omega⟩
  | nextMessage =>
    rcases @nextMessage_cases input event.context natural bounded with
      ⟨none_, stays⟩ | ⟨message, next, older, found, stepped, -, prevMsg, prevIndex, -⟩ |
      ⟨last, next, newest, found, stepped, prevMsg, prevIndex, -⟩
    · exact ⟨input, stays, rfl, natural, bounded⟩
    · exact ⟨next, stepped, prevMsg, by omega, by rw [prevMsg]; omega⟩
    · exact ⟨next, stepped, prevMsg, by omega, by rw [prevMsg]; omega⟩

/-- What the input shows where it is browsing. -/
theorem Browsing.text_eq_last (browsing : Browsing sent draft input) {last : QString} (found : sent.getLast? = some last)
    (back : input.prevIndex + 1 = sent.length) : input.text = last := by
  have shown := browsing.older (by omega)
  have some_ : sent ≠ [] := by
    rintro rfl
    cases found
  rw [show input.prevIndex = (sent.length : Int) - 1 by omega, at?_last some_, found] at shown
  exact (Option.some.inj shown).symm

/-- A message is shown as it was sent exactly if the edit leaves it. -/
theorem browsing_of_older {message : QString} (prevMsg : next.prevMsg = sent) (natural : 0 ≤ next.prevIndex)
    (older : next.prevIndex < sent.length) (found : at? sent next.prevIndex = some message)
    (text : next.text = context.shown message) (saved : next.currMsg = draft) :
    (context.Leaves message → Browsing sent draft next) ∧ (¬ context.Leaves message → ¬ Shows sent draft next) := by
  constructor
  · intro leaves
    rw [Context.shown_eq_iff.mpr leaves] at text
    exact ⟨⟨natural, Int.le_of_lt older, fun _ => by rw [found, text], fun newest => by omega⟩, prevMsg, fun _ => saved⟩
  · intro changes shows
    have same := shows.older older
    rw [found, text] at same
    exact changes (Context.shown_eq_iff.mp (Option.some.inj same).symm)

/-- Behind the last message the draft has to be shown. -/
theorem browsing_of_newest (prevMsg : next.prevMsg = sent) (newest : next.prevIndex = sent.length) :
    (next.text = draft → Browsing sent draft next) ∧ (next.text ≠ draft → ¬ Shows sent draft next) := by
  constructor
  · intro shown
    refine ⟨⟨by omega, by omega, fun older => by omega, fun _ => shown⟩, prevMsg, fun older => by omega⟩
  · exact fun lost shows => lost (shows.newest newest)

theorem Browsing.previousMessage (browsing : Browsing sent draft input) (stepped : input.previousMessage context = some next) :
    (Safe draft input ⟨.previousMessage, context⟩ → Browsing sent draft next) ∧
      (¬ Safe draft input ⟨.previousMessage, context⟩ → ¬ Shows sent draft next) := by
  have saved := browsing.saved
  have natural := browsing.natural
  have bounded := browsing.bounded
  obtain rfl := browsing.prevMsg
  rw [Safe]
  rcases @previousMessage_cases input context natural bounded with
    ⟨first, stays⟩ | ⟨message, _, positive, found, taken, text, prevMsg, prevIndex, currMsg⟩
  · cases stays.symm.trans stepped
    exact ⟨fun _ => browsing, fun lost => absurd (.inl first) lost⟩
  · cases taken.symm.trans stepped
    have isSaved : next.currMsg = draft := by
      rw [currMsg]
      split
      case isTrue newest => exact browsing.newest newest
      case isFalse older => exact saved (by omega)
    rw [← prevIndex] at found
    have shown := browsing_of_older prevMsg (by omega) (by omega) found text isSaved
    simp only [← prevIndex, found, Option.mem_some_iff, forall_eq', show input.prevIndex ≠ 0 by omega, false_or]
    exact shown

/-- The draft is only taken for the last message where the input shows the text of it. -/
theorem Browsing.shown_iff (browsing : Browsing sent draft input) (notOlder : ¬ input.prevIndex + 1 < sent.length)
    {last : QString} (found : sent.getLast? = some last) :
    (sent.getLast? = some input.text → context.shown input.currMsg = draft) ↔
      (if input.text = last then context.shown input.currMsg else input.text) = draft := by
  have bounded := browsing.bounded
  rw [found, Option.some_inj]
  by_cases same : input.text = last
  · simp [same]
  · -- the text is the draft already, as the last message would be shown at its own index
    have isNewest : input.prevIndex = sent.length := by
      by_contra other
      exact same (browsing.text_eq_last found (by omega))
    rw [if_neg same]
    rw [browsing.newest isNewest] at same ⊢
    simp [Ne.symm same]

theorem Browsing.nextMessage (browsing : Browsing sent draft input) (stepped : input.nextMessage context = some next) :
    (Safe draft input ⟨.nextMessage, context⟩ → Browsing sent draft next) ∧
      (¬ Safe draft input ⟨.nextMessage, context⟩ → ¬ Shows sent draft next) := by
  have saved := browsing.saved
  have natural := browsing.natural
  have bounded := browsing.bounded
  obtain rfl := browsing.prevMsg
  rw [Safe]
  rcases @nextMessage_cases input context natural bounded with
    ⟨none_, stays⟩ | ⟨message, _, older, found, taken, text, prevMsg, prevIndex, currMsg⟩ |
    ⟨last, _, newest, found, taken, prevMsg, prevIndex, text⟩
  · cases stays.symm.trans stepped
    refine ⟨fun _ => browsing, fun lost => absurd ?_ lost⟩
    simp [none_] at bounded ⊢
    omega
  · cases taken.symm.trans stepped
    have isSaved : next.currMsg = draft := currMsg.trans (saved (by omega))
    rw [← prevIndex] at found older
    have shown := browsing_of_older prevMsg (by omega) older found text isSaved
    simp only [← prevIndex, if_pos older, found, Option.mem_some_iff, forall_eq']
    exact shown
  · cases taken.symm.trans stepped
    have shown := @Browsing.shown_iff input.prevMsg draft input context browsing newest last found
    rw [← text] at shown
    simp only [if_neg newest, shown]
    exact browsing_of_newest prevMsg prevIndex

/-- A key leaves the input browsing if it is safe, and otherwise it loses the draft or shows a message
in another form. -/
theorem Browsing.press (browsing : Browsing sent draft input) {event : Press} (pressed : input.press event = some next) :
    (Safe draft input event → Browsing sent draft next) ∧ (¬ Safe draft input event → ¬ Shows sent draft next) := by
  obtain ⟨key, context⟩ := event
  cases key with
  | previousMessage => exact browsing.previousMessage pressed
  | nextMessage => exact browsing.nextMessage pressed

/-- Sending leaves the input at the newest position. -/
theorem postMessageSend_newest (context : Context) (input : SplitInput) (message : QString) (arguments : List QString) :
    (postMessageSend context input message arguments).atNewest = postMessageSend context input message arguments := by
  unfold postMessageSend
  dsimp only
  rfl

/-- No access fails, and the index stays valid. -/
theorem run_press_valid (natural : 0 ≤ input.prevIndex) (bounded : input.prevIndex ≤ input.prevMsg.length)
    (events : List Press) : ∃ final, run SplitInput.press input events = some final ∧ final.prevMsg = input.prevMsg ∧
      0 ≤ final.prevIndex ∧ final.prevIndex ≤ final.prevMsg.length := by
  induction events generalizing input with
  | nil => exact ⟨input, rfl, rfl, natural, bounded⟩
  | cons event events ih =>
    obtain ⟨next, pressed, prevMsg, naturalNext, boundedNext⟩ := @press_valid input event natural bounded
    obtain ⟨final, ran, messages, valid⟩ := ih naturalNext boundedNext
    exact ⟨final, Option.bind_eq_some_iff.mpr ⟨next, pressed, ran⟩, messages.trans prevMsg, valid⟩

theorem run_atNewest_valid (input : SplitInput) (events : List Press) :
    ∃ final, run SplitInput.press input.atNewest events = some final ∧ final.prevMsg = input.prevMsg ∧
      0 ≤ final.prevIndex ∧ final.prevIndex ≤ final.prevMsg.length :=
  @run_press_valid input.atNewest (Int.natCast_nonneg _) (Int.le_refl _) events

/-- The messages that were sent are gone through without a loss exactly as long as every key is safe. -/
theorem along_safe_iff (input : SplitInput) (events : List Press) :
    Along SplitInput.press (Safe input.text) input.atNewest events ↔
      ∀ before, before <+: events → ∀ state, run SplitInput.press input.atNewest before = some state →
        Shows input.prevMsg input.text state := by
  obtain ⟨final, ran, -⟩ := run_atNewest_valid input events
  have start : Browsing input.prevMsg input.text input.atNewest :=
    (@browsing_of_newest input.prevMsg input.text input.atNewest rfl rfl).1 rfl
  refine along_iff (fun s e next (browsing : Browsing input.prevMsg input.text s) safe pressed =>
    (browsing.press pressed).1 safe) ?_ ?_ ran start
  · exact fun s e next browsing lost pressed => (browsing.press pressed).2 lost
  · exact fun s browsing => browsing.toShows

/-- Whatever is pressed, the index stays valid; and each state shows the message at the index, or the
draft at the newest position, exactly as long as every key is safe. -/
theorem keys_keep_draft (input : SplitInput) (events : List Press) :
    (∃ final, run SplitInput.press input.atNewest events = some final ∧
      0 ≤ final.prevIndex ∧ final.prevIndex ≤ input.prevMsg.length) ∧
    (Along SplitInput.press (Safe input.text) input.atNewest events ↔
      ∀ before, before <+: events → ∀ state, run SplitInput.press input.atNewest before = some state →
        Shows input.prevMsg input.text state) := by
  refine ⟨?_, along_safe_iff input events⟩
  obtain ⟨final, ran, messages, natural, bounded⟩ := run_atNewest_valid input events
  exact ⟨final, ran, natural, messages ▸ bounded⟩

/-- The last message, typed again at the newest position. -/
def repeated : SplitInput := { blank with text := qs "hello", prevMsg := [qs "hello"] }

/-- What is typed is lost on nextMessage. -/
theorem repeated_draft_lost : ¬ ∀ (input : SplitInput) (events : List Press) (before : List Press), before <+: events →
    ∀ state, run SplitInput.press input.atNewest before = some state → Shows input.prevMsg input.text state := by
  intro kept
  have safe := ((along_safe_iff repeated [⟨.nextMessage, .quiet⟩]).mpr (kept repeated _)).1
  have emptied : Context.quiet.shown [] = [] := Context.shown_eq_iff.mpr ⟨rfl, rfl⟩
  have restored : Context.quiet.shown [] = qs "hello" := safe rfl
  rw [emptied] at restored
  exact absurd restored (by decide)

end SplitInput

end Forserino.Input
