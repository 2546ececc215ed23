import Forserino.Qt.Text

/-! What a message is highlighted with. The checks are asked in their order, and the first
one that provides a sound, a colour or a place in the mentions decides on it.

Colours are pointers; what matches a text, the comparison without case and the colours of
the settings are parameters.
-/

set_option autoImplicit false

namespace Forserino.Highlights

open Forserino.Qt

/-- No color stands for a null pointer. -/
structure HighlightResult (ColorPtr : Type) where
  alert : Bool
  playSound : Bool
  customSoundUrl : Option QString
  color : Option ColorPtr
  showInMentions : Bool
  deriving DecidableEq, Repr

/-- What the checks read of the arguments of a message. -/
structure MessageParseArgs where
  isSubscriptionMessage : Bool
  isReceivedWhisper : Bool

structure Badge where
  key : QString
  value : QString

/-- The flags of a message that a check reads. -/
structure MessageFlags where
  subscribedThread : Bool
  autoModOffendingMessage : Bool

structure HighlightCheck (ColorPtr : Type) where
  cb : MessageParseArgs → List Badge → (senderName originalMessage : QString) → MessageFlags → (self : Bool) →
    Option (HighlightResult ColorPtr)

section
variable {ColorPtr : Type}

namespace HighlightResult

def emptyResult : HighlightResult ColorPtr := ⟨false, false, none, none, false⟩

def empty (result : HighlightResult ColorPtr) : Bool :=
  !result.alert && !result.playSound && !result.customSoundUrl.isSome && !result.color.isSome && !result.showInMentions

def full (result : HighlightResult ColorPtr) : Bool :=
  result.alert && result.playSound && result.customSoundUrl.isSome && result.color.isSome && result.showInMentions

/-- The assignments of one turn of check. -/
def merge (result checkResult : HighlightResult ColorPtr) : HighlightResult ColorPtr where
  alert := if checkResult.alert && !result.alert then checkResult.alert else result.alert
  playSound := if checkResult.playSound && !result.playSound then checkResult.playSound else result.playSound
  customSoundUrl :=
    if checkResult.customSoundUrl.isSome && !result.customSoundUrl.isSome then checkResult.customSoundUrl
    else result.customSoundUrl
  color := if checkResult.color.isSome && !result.color.isSome then checkResult.color else result.color
  showInMentions :=
    if checkResult.showInMentions && !result.showInMentions then checkResult.showInMentions else result.showInMentions

end HighlightResult

/-! ## Checking a message -/

section
variable (args : MessageParseArgs) (badges : List Badge) (senderName originalMessage : QString)
  (messageFlags : MessageFlags)

/-- The loop over the checks with highlighted and result; it ends early when the result is full. -/
def checkLoop (self : Bool) :
    Bool × HighlightResult ColorPtr → List (HighlightCheck ColorPtr) → Bool × HighlightResult ColorPtr
  | state, [] => state
  | (highlighted, result), check :: checks =>
      match check.cb args badges senderName originalMessage messageFlags self with
      | none => checkLoop self (highlighted, result) checks
      | some checkResult =>
          if (result.merge checkResult).full then (true, result.merge checkResult)
          else checkLoop self (true, result.merge checkResult) checks

def check (currentUserName : QString) (checks : List (HighlightCheck ColorPtr)) : Bool × HighlightResult ColorPtr :=
  checkLoop args badges senderName originalMessage messageFlags (senderName == currentUserName)
    (false, .emptyResult) checks

/-- What every check says of the message, in their order. -/
def results (self : Bool) (checks : List (HighlightCheck ColorPtr)) : List (HighlightResult ColorPtr) :=
  checks.filterMap fun check => check.cb args badges senderName originalMessage messageFlags self

end

/-- All of the results together, each field by its own rule. -/
def combined (results : List (HighlightResult ColorPtr)) : HighlightResult ColorPtr where
  alert := results.any HighlightResult.alert
  playSound := results.any HighlightResult.playSound
  customSoundUrl := results.findSome? HighlightResult.customSoundUrl
  color := results.findSome? HighlightResult.color
  showInMentions := results.any HighlightResult.showInMentions

namespace HighlightResult

/-- A full result absorbs every later one. -/
theorem merge_of_full {result : HighlightResult ColorPtr} (isFull : result.full = true)
    (checkResult : HighlightResult ColorPtr) : result.merge checkResult = result := by
  cases result
  simp only [full, Bool.and_eq_true] at isFull
  obtain ⟨⟨⟨⟨alert, playSound⟩, sound⟩, color⟩, mentions⟩ := isFull
  simp [merge, alert, playSound, sound, color, mentions]

theorem merge_emptyResult (result : HighlightResult ColorPtr) : result.merge emptyResult = result := by
  simp [merge, emptyResult]

/-- Each field of a merge is that of the first result that has it. -/
theorem merge_fields (result checkResult : HighlightResult ColorPtr) :
    result.merge checkResult =
      ⟨result.alert || checkResult.alert, result.playSound || checkResult.playSound,
        result.customSoundUrl.or checkResult.customSoundUrl, result.color.or checkResult.color,
        result.showInMentions || checkResult.showInMentions⟩ := by
  obtain ⟨alert, playSound, sound, color, mentions⟩ := result
  obtain ⟨alert', playSound', sound', color', mentions'⟩ := checkResult
  simp only [merge, mk.injEq]
  refine ⟨?alert, ?playSound, ?sound, ?color, ?mentions⟩
  case alert => cases alert <;> cases alert' <;> rfl
  case playSound => cases playSound <;> cases playSound' <;> rfl
  case sound => cases sound <;> cases sound' <;> rfl
  case color => cases color <;> cases color' <;> rfl
  case mentions => cases mentions <;> cases mentions' <;> rfl

theorem foldl_merge (first : HighlightResult ColorPtr) (results : List (HighlightResult ColorPtr)) :
    results.foldl merge first = first.merge (combined results) := by
  induction results generalizing first with
  | nil => exact (merge_emptyResult first).symm
  | cons result results ih =>
    rw [List.foldl_cons, ih]
    -- the head of a list decides before the rest of it does
    have sounds : (result :: results).findSome? customSoundUrl =
        result.customSoundUrl.or (results.findSome? customSoundUrl) := by
      cases sound : result.customSoundUrl <;> simp [sound]
    have colors : (result :: results).findSome? color = result.color.or (results.findSome? color) := by
      cases found : result.color <;> simp [found]
    simp only [merge_fields, combined, List.any_cons, sounds, colors, Bool.or_assoc, Option.or_assoc]

end HighlightResult

section
variable {args : MessageParseArgs} {badges : List Badge} {senderName originalMessage : QString}
  {messageFlags : MessageFlags}

/-- Leaving the loop early changes nothing, from any state on. -/
theorem checkLoop_eq_foldl (self : Bool) (highlighted : Bool) (result : HighlightResult ColorPtr)
    (checks : List (HighlightCheck ColorPtr)) :
    checkLoop args badges senderName originalMessage messageFlags self (highlighted, result) checks =
      (highlighted || !(results args badges senderName originalMessage messageFlags self checks).isEmpty,
        (results args badges senderName originalMessage messageFlags self checks).foldl
          HighlightResult.merge result) := by
  induction checks generalizing highlighted result with
  | nil => simp [checkLoop, results]
  | cons check checks ih =>
    cases answer : check.cb args badges senderName originalMessage messageFlags self with
    | none =>
      have skipped : results args badges senderName originalMessage messageFlags self (check :: checks) =
          results args badges senderName originalMessage messageFlags self checks := List.filterMap_cons_none answer
      rw [checkLoop, answer, skipped]
      exact ih highlighted result
    | some checkResult =>
      have matched : results args badges senderName originalMessage messageFlags self (check :: checks) =
          checkResult :: results args badges senderName originalMessage messageFlags self checks :=
        List.filterMap_cons_some answer
      rw [checkLoop, answer, matched, List.foldl_cons, List.isEmpty_cons, Bool.not_false, Bool.or_true]
      simp only
      split
      · next isFull =>
        -- nothing of what is left out could change a full result
        rw [List.foldl_fixed' (HighlightResult.merge_of_full isFull)]
      · rw [ih, Bool.true_or]

end

/-- The result of check is that of all checks together: it makes no difference that the loop
ends as soon as the result is full. -/
theorem check_eq_combined (args : MessageParseArgs) (badges : List Badge) (senderName originalMessage : QString)
    (messageFlags : MessageFlags) (currentUserName : QString) (checks : List (HighlightCheck ColorPtr)) :
    let all := results args badges senderName originalMessage messageFlags (senderName == currentUserName) checks
    check args badges senderName originalMessage messageFlags currentUserName checks =
        (!all.isEmpty, all.foldl HighlightResult.merge .emptyResult) ∧
      check args badges senderName originalMessage messageFlags currentUserName checks = (!all.isEmpty, combined all) := by
  intro all
  have folded : check args badges senderName originalMessage messageFlags currentUserName checks =
      (!all.isEmpty, all.foldl HighlightResult.merge .emptyResult) := by
    rw [check, checkLoop_eq_foldl, Bool.false_or]
  refine ⟨folded, ?_⟩
  rw [folded, HighlightResult.foldl_merge, HighlightResult.merge_fields]
  simp [HighlightResult.emptyResult]

end

end Forserino.Highlights
