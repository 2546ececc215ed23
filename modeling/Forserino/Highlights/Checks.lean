import Forserino.Highlights.HighlightController

/-! The checks that the settings lead to, and what their order means for the colour of a
message.
-/

set_option autoImplicit false

namespace Forserino.Highlights

open Forserino.Qt

inductive ColorType where
  | selfHighlight | subscription | whisper | threadMessageHighlight | selfMessageHighlight | automodHighlight
  deriving DecidableEq, Repr

/-- What is asked outside of the checks. regexMatch is whether the regular expression of a
phrase is valid and found in a text. -/
structure HighlightRules (ColorPtr : Type) where
  regexMatch : (pattern : QString) → (isRegex isCaseSensitive : Bool) → (subject : QString) → Bool
  sameIgnoringCase : QString → QString → Bool
  color : ColorType → ColorPtr

structure HighlightPhrase (ColorPtr : Type) where
  pattern : QString
  showInMentions : Bool
  hasAlert : Bool
  hasSound : Bool
  isRegex : Bool
  isCaseSensitive : Bool
  soundUrl : QString
  color : ColorPtr

structure HighlightBadge (ColorPtr : Type) where
  badgeName : QString
  showInMentions : Bool
  hasAlert : Bool
  hasSound : Bool
  soundUrl : QString
  color : ColorPtr

structure Settings (ColorPtr : Type) where
  enableSubHighlight : Bool
  enableSubHighlightSound : Bool
  enableSubHighlightTaskbar : Bool
  subHighlightSoundUrl : QString
  enableWhisperHighlight : Bool
  enableWhisperHighlightSound : Bool
  enableWhisperHighlightTaskbar : Bool
  whisperHighlightSoundUrl : QString
  enableThreadHighlight : Bool
  enableThreadHighlightSound : Bool
  enableThreadHighlightTaskbar : Bool
  threadHighlightSoundUrl : QString
  showThreadHighlightInMentions : Bool
  enableSelfHighlight : Bool
  showSelfHighlightInMentions : Bool
  enableSelfHighlightTaskbar : Bool
  enableSelfHighlightSound : Bool
  selfHighlightSoundUrl : QString
  highlightedMessages : List (HighlightPhrase ColorPtr)
  enableAutomodHighlight : Bool
  enableAutomodHighlightSound : Bool
  enableAutomodHighlightTaskbar : Bool
  automodHighlightSoundUrl : QString
  highlightedUsers : List (HighlightPhrase ColorPtr)
  enableSelfMessageHighlight : Bool
  showSelfMessageHighlightInMentions : Bool
  highlightedBadges : List (HighlightBadge ColorPtr)

structure TwitchAccount where
  userName : QString
  isAnon : Bool

section
variable {ColorPtr : Type}

/-- A custom sound is set where its text is not empty. -/
def customSound (soundUrl : QString) : Option QString := if soundUrl = [] then none else some soundUrl

variable (rules : HighlightRules ColorPtr)

def HighlightPhrase.isMatch (highlight : HighlightPhrase ColorPtr) (subject : QString) : Bool :=
  highlight.pattern ≠ [] && rules.regexMatch highlight.pattern highlight.isRegex highlight.isCaseSensitive subject

def HighlightPhrase.result (highlight : HighlightPhrase ColorPtr) : HighlightResult ColorPtr :=
  ⟨highlight.hasAlert, highlight.hasSound, customSound highlight.soundUrl, some highlight.color,
    highlight.showInMentions⟩

/-- The parts before and behind the first slash. -/
def slashKeyValue (kvStr : QString) : QString × QString :=
  (kvStr.takeWhile (· ≠ u '/'), (kvStr.dropWhile (· ≠ u '/')).drop 1)

def HighlightBadge.compare (highlight : HighlightBadge ColorPtr) (id : QString) (badge : Badge) : Bool :=
  if u '/' ∈ highlight.badgeName then
    rules.sameIgnoringCase (slashKeyValue id).1 badge.key && rules.sameIgnoringCase (slashKeyValue id).2 badge.value
  else rules.sameIgnoringCase id badge.key

def HighlightBadge.isMatch (highlight : HighlightBadge ColorPtr) (badge : Badge) : Bool :=
  if u ',' ∈ highlight.badgeName then
    (highlight.badgeName.split (u ',')).any fun id => highlight.compare rules id badge
  else highlight.compare rules highlight.badgeName badge

def HighlightBadge.result (highlight : HighlightBadge ColorPtr) : HighlightResult ColorPtr :=
  ⟨highlight.hasAlert, highlight.hasSound, customSound highlight.soundUrl, some highlight.color,
    highlight.showInMentions⟩

/-! ## One check for each setting -/

/-- A check that gives the same result to every message it is for. -/
def checkWhen (condition : MessageParseArgs → List Badge → (senderName originalMessage : QString) → MessageFlags →
    (self : Bool) → Bool) (result : HighlightResult ColorPtr) : HighlightCheck ColorPtr where
  cb args badges senderName originalMessage messageFlags self :=
    if condition args badges senderName originalMessage messageFlags self then some result else none

/-- Phrases are not looked for in the messages of the user. -/
def highlightPhraseCheck (highlight : HighlightPhrase ColorPtr) : HighlightCheck ColorPtr :=
  checkWhen (fun _ _ _ originalMessage _ self => !self && highlight.isMatch rules originalMessage) highlight.result

def rebuildSubscriptionHighlights (settings : Settings ColorPtr) : List (HighlightCheck ColorPtr) :=
  if settings.enableSubHighlight then
    [checkWhen (fun args _ _ _ _ _ => args.isSubscriptionMessage)
      ⟨settings.enableSubHighlightTaskbar, settings.enableSubHighlightSound,
        customSound settings.subHighlightSoundUrl, some (rules.color .subscription), false⟩]
  else []

def rebuildWhisperHighlights (settings : Settings ColorPtr) : List (HighlightCheck ColorPtr) :=
  if settings.enableWhisperHighlight then
    [checkWhen (fun args _ _ _ _ _ => args.isReceivedWhisper)
      ⟨settings.enableWhisperHighlightTaskbar, settings.enableWhisperHighlightSound,
        customSound settings.whisperHighlightSoundUrl, some (rules.color .whisper), false⟩]
  else []

def rebuildReplyThreadHighlight (settings : Settings ColorPtr) : List (HighlightCheck ColorPtr) :=
  if settings.enableThreadHighlight then
    [checkWhen (fun _ _ _ _ flags self => flags.subscribedThread && !self)
      ⟨settings.enableThreadHighlightTaskbar, settings.enableThreadHighlightSound,
        customSound settings.threadHighlightSoundUrl, some (rules.color .threadMessageHighlight),
        settings.showThreadHighlightInMentions⟩]
  else []

/-- The phrase for the name of the user. -/
def selfHighlight (settings : Settings ColorPtr) (currentUsername : QString) : HighlightPhrase ColorPtr where
  pattern := currentUsername
  showInMentions := settings.showSelfHighlightInMentions
  hasAlert := settings.enableSelfHighlightTaskbar
  hasSound := settings.enableSelfHighlightSound
  isRegex := false
  isCaseSensitive := false
  soundUrl := settings.selfHighlightSoundUrl
  color := rules.color .selfHighlight

def rebuildMessageHighlights (settings : Settings ColorPtr) (currentUser : TwitchAccount) :
    List (HighlightCheck ColorPtr) :=
  (if settings.enableSelfHighlight && currentUser.userName ≠ [] && !currentUser.isAnon then
    [highlightPhraseCheck rules (selfHighlight rules settings currentUser.userName)]
  else []) ++
  settings.highlightedMessages.map (highlightPhraseCheck rules) ++
  (if settings.enableAutomodHighlight then
    [checkWhen (fun _ _ _ _ flags _ => flags.autoModOffendingMessage)
      ⟨settings.enableAutomodHighlightTaskbar, settings.enableAutomodHighlightSound,
        customSound settings.automodHighlightSoundUrl, some (rules.color .automodHighlight), false⟩]
  else [])

/-- The sound of a message of the user is a URL, though an empty one. -/
def rebuildUserHighlights (settings : Settings ColorPtr) : List (HighlightCheck ColorPtr) :=
  (if settings.enableSelfMessageHighlight then
    [checkWhen (fun _ _ _ _ _ self => self)
      ⟨false, false, some [], some (rules.color .selfMessageHighlight), settings.showSelfMessageHighlightInMentions⟩]
  else []) ++
  settings.highlightedUsers.map fun highlight =>
    checkWhen (fun _ _ senderName _ _ _ => highlight.isMatch rules senderName) highlight.result

def rebuildBadgeHighlights (settings : Settings ColorPtr) : List (HighlightCheck ColorPtr) :=
  settings.highlightedBadges.map fun highlight =>
    checkWhen (fun _ badges _ _ _ _ => badges.any (highlight.isMatch rules)) highlight.result

def rebuildChecks (settings : Settings ColorPtr) (currentUser : TwitchAccount) : List (HighlightCheck ColorPtr) :=
  rebuildSubscriptionHighlights rules settings ++ rebuildWhisperHighlights rules settings ++
    rebuildMessageHighlights rules settings currentUser ++ rebuildUserHighlights rules settings ++
    rebuildReplyThreadHighlight rules settings ++ rebuildBadgeHighlights rules settings

/-! ## Colours -/

/-- A check that never answers without a colour. -/
def HighlightCheck.Colours (check : HighlightCheck ColorPtr) : Prop :=
  ∀ args badges senderName originalMessage messageFlags self result,
    check.cb args badges senderName originalMessage messageFlags self = some result → result.color.isSome = true

theorem checkWhen_colours {condition : MessageParseArgs → List Badge → QString → QString → MessageFlags → Bool → Bool}
    {result : HighlightResult ColorPtr} (coloured : result.color.isSome = true) :
    (checkWhen condition result).Colours := by
  intro args badges senderName originalMessage messageFlags self answer found
  simp only [checkWhen] at found
  split at found
  · rw [← Option.some.inj found]
    exact coloured
  · cases found

variable {rules}

/-- Every check of the settings has a colour. -/
theorem rebuildChecks_colours (settings : Settings ColorPtr) (currentUser : TwitchAccount) :
    ∀ check ∈ rebuildChecks rules settings currentUser, check.Colours := by
  have optional : ∀ (enabled : Prop) [Decidable enabled] (check : HighlightCheck ColorPtr), check.Colours →
      ∀ member ∈ (if enabled then [check] else []), member.Colours := by
    intro enabled _ check colours member among
    split at among
    · rw [List.mem_singleton.mp among]
      exact colours
    · cases among
  have mapped : ∀ {α : Type} (items : List α) (build : α → HighlightCheck ColorPtr), (∀ item, (build item).Colours) →
      ∀ member ∈ items.map build, member.Colours := by
    intro α items build colours member among
    obtain ⟨item, -, rfl⟩ := List.mem_map.mp among
    exact colours item
  intro check among
  simp only [rebuildChecks, List.mem_append] at among
  rcases among with ((((subscription | whisper) | phrase) | user) | thread) | badge
  · exact optional _ _ (checkWhen_colours rfl) check subscription
  · exact optional _ _ (checkWhen_colours rfl) check whisper
  · simp only [rebuildMessageHighlights, List.mem_append] at phrase
    rcases phrase with (self | message) | automod
    · exact optional _ _ (checkWhen_colours rfl) check self
    · exact mapped _ _ (fun _ => checkWhen_colours rfl) check message
    · exact optional _ _ (checkWhen_colours rfl) check automod
  · rcases List.mem_append.mp user with self | name
    · exact optional _ _ (checkWhen_colours rfl) check self
    · exact mapped _ _ (fun _ => checkWhen_colours rfl) check name
  · exact optional _ _ (checkWhen_colours rfl) check thread
  · exact mapped _ _ (fun _ => checkWhen_colours rfl) check badge

/-- A message takes its colour from the first check that it matches, however many follow. -/
theorem check_color (args : MessageParseArgs) (badges : List Badge) (senderName originalMessage : QString)
    (messageFlags : MessageFlags) (settings : Settings ColorPtr) (currentUser : TwitchAccount) :
    (check args badges senderName originalMessage messageFlags currentUser.userName
        (rebuildChecks rules settings currentUser)).2.color =
      (results args badges senderName originalMessage messageFlags (senderName == currentUser.userName)
        (rebuildChecks rules settings currentUser)).head?.bind HighlightResult.color := by
  have coloured : ∀ result ∈ results args badges senderName originalMessage messageFlags
      (senderName == currentUser.userName) (rebuildChecks rules settings currentUser), result.color.isSome = true := by
    intro result among
    obtain ⟨check, member, answer⟩ := List.mem_filterMap.mp among
    exact rebuildChecks_colours settings currentUser check member _ _ _ _ _ _ _ answer
  rw [(check_eq_combined args badges senderName originalMessage messageFlags currentUser.userName
    (rebuildChecks rules settings currentUser)).2]
  generalize results args badges senderName originalMessage messageFlags (senderName == currentUser.userName)
    (rebuildChecks rules settings currentUser) = all at coloured
  cases all with
  | nil => rfl
  | cons first more =>
    obtain ⟨color, found⟩ := Option.isSome_iff_exists.mp (coloured first List.mem_cons_self)
    simp [combined, found]

end

end Forserino.Highlights
