import Forserino.Commands.UserCommands
import Forserino.Common.ChatterSet
import Forserino.Completion.Emotes
import Forserino.Completion.Users

/-! The sources of completions, and how they add their texts to a list.
-/

set_option autoImplicit false

namespace Forserino.Completion

open Commands Common Foundation Qt

/-! ## Commands -/

/-- The commands of CommandController, in the order in which they are registered. -/
def defaultChatterinoCommands : List QString :=
  [qs "/ignore", qs "/unignore", qs "/follow", qs "/unfollow", qs "/debug-args", qs "/debug-env", qs "/uptime",
    qs "/block", qs "/unblock", qs "/user", qs "/usercard", qs "/requests", qs "/lowtrust", qs "/chatters",
    qs "/test-chatters", qs "/mods", qs "/clip", qs "/marker", qs "/streamlink", qs "/popout", qs "/popup",
    qs "/clearmessages", qs "/settitle", qs "/setgame", qs "/openurl", qs "/raw", qs "/reply", qs "/fakemsg",
    qs "/debug-update-to-no-stream", qs "/copy", qs "/color", qs "/clear", qs "/delete", qs "/mod", qs "/unmod",
    qs "/announce", qs "/announceblue", qs "/announcegreen", qs "/announceorange", qs "/announcepurple",
    qs "/vip", qs "/unvip", qs "/unban", qs "/untimeout", qs "/raid", qs "/unraid", qs "/emoteonly",
    qs "/emoteonlyoff", qs "/subscribers", qs "/subscribersoff", qs "/slow", qs "/slowoff", qs "/followers",
    qs "/followersoff", qs "/founders", qs "/uniquechat", qs "/r9kbeta", qs "/uniquechatoff", qs "/r9kbetaoff",
    qs "/timeout", qs "/ban", qs "/banid", qs "/warn", qs "/w", qs ".w", qs "/vips", qs "/commercial",
    qs "/unstable-set-user-color", qs "/debug-force-image-gc", qs "/debug-force-image-unload", qs "/debug-test",
    qs "/shield", qs "/shieldoff", qs "/shoutout", qs "/c2-set-logging-rules", qs "/c2-theme-autoreload"]

def TWITCH_DEFAULT_COMMANDS : List QString :=
  [qs "help", qs "w", qs "me", qs "disconnect", qs "mods", qs "vips", qs "color", qs "commercial", qs "mod",
    qs "unmod", qs "vip", qs "unvip", qs "ban", qs "unban", qs "timeout", qs "untimeout", qs "slow", qs "slowoff",
    qs "r9kbeta", qs "r9kbetaoff", qs "emoteonly", qs "emoteonlyoff", qs "clear", qs "subscribers",
    qs "subscribersoff", qs "followers", qs "followersoff", qs "host", qs "unhost", qs "raid", qs "unraid",
    qs "delete", qs "announce", qs "requests", qs "warn"]

structure CommandItem where
  name : QString
  prefix_ : QString
  deriving DecidableEq, Repr

/-- The item that addCommand puts into out. -/
def addCommand (command : QString) : CommandItem :=
  if command.startsWith [u '/'] || command.startsWith [u '.'] then ⟨command.mid 1, command.take 1⟩ else ⟨command, []⟩

/-- The commands of the user come first. -/
def CommandSource.initializeItems (items : List Command) : List CommandItem :=
  (items.map Command.name ++ defaultChatterinoCommands ++ TWITCH_DEFAULT_COMMANDS).map addCommand

/-- The text of an item in CommandSource::addToStringList -/
def CommandItem.text (command : CommandItem) : QString := command.prefix_ ++ command.name ++ [u ' ']

def normalizeQuery (query : QString) : QString :=
  if query.startsWith [u '/'] || query.startsWith [u '.'] then query.mid 1 else query

def CommandStrategy.apply (foldCase : QString → List Nat) (startsWithOnly : Bool) (items : List CommandItem)
    (query : QString) : List CommandItem :=
  if startsWithOnly then items.filter fun item => startsWith foldCase item.name (normalizeQuery query) .caseInsensitive
  else items.filter fun item => contains foldCase item.name (normalizeQuery query) .caseInsensitive

/-! ## Channels -/

structure TwitchChannel where
  name : QString
  displayName : QString
  chatters : ChatterSet
  emotes : ChannelEmotes

/-- A Twitch channel, a special one such as /mentions, or any other one. -/
inductive Channel where
  | twitch (tc : TwitchChannel)
  | special
  | other

def Channel.isTwitchChannel : Channel → Bool
  | .twitch _ | .special => true
  | .other => false

def Channel.tc : Channel → Option TwitchChannel
  | .twitch tc => some tc
  | _ => none

def UserSource.initializeFromChannel (alwaysIncludeBroadcaster : Bool) (channel : Channel) : List UserItem :=
  match channel.tc with
  | none => []
  | some tc =>
      let items := tc.chatters.all
      if alwaysIncludeBroadcaster && !(items.any fun user => user.1 = tc.name) then
        items ++ [(tc.name, tc.displayName)]
      else items

/-! ## Sources -/

/-- The settings that are read. -/
structure TabCompletionSettings where
  userCompletionOnlyWithAt : Bool
  useSmartEmoteCompletion : Bool
  prefixOnlyEmoteCompletion : Bool
  alwaysIncludeBroadcasterInUserCompletions : Bool
  mentions : MentionSettings

/-- The functions of Qt on texts. -/
structure Texts where
  toLower : QString → QString
  foldCase : QString → List Nat
  isUpper : QChar → Bool

/-- The strategy that buildEmoteSource chooses. -/
def EmoteStrategy.apply (texts : Texts) (sort : Sorting EmoteItem) (settings : TabCompletionSettings)
    (items : List EmoteItem) (query : QString) : List EmoteItem :=
  if settings.useSmartEmoteCompletion then
    SmartTabEmoteStrategy.apply texts.foldCase texts.isUpper sort settings.prefixOnlyEmoteCompletion items query
  else ClassicTabEmoteStrategy.apply texts.foldCase settings.prefixOnlyEmoteCompletion items query

def sizeWithinLimit (size limit : Nat) : Nat := if limit = 0 then size else min size limit

/-- Only the first maxCount items are added, all of them if it is zero. -/
def addVecToStringList {T : Type} (input : List T) (list : List QString) (maxCount : Nat) (mapper : T → QString) :
    List QString :=
  list ++ (input.take (sizeWithinLimit input.length maxCount)).map mapper

/-- The items of a source and its output. -/
inductive Source where
  | emote (items output : List EmoteItem)
  | user (items output : List UserItem) (prependAt : Bool)
  | command (items output : List CommandItem)

def Source.update (texts : Texts) (sort : Sorting EmoteItem) (settings : TabCompletionSettings) (query : QString) :
    Source → Source
  | .emote items _ => .emote items (EmoteStrategy.apply texts sort settings items query)
  | .user items _ prependAt => .user items (ClassicUserStrategy.apply texts.toLower items query) prependAt
  | .command items _ => .command items (CommandStrategy.apply texts.foldCase true items query)

def Source.addToStringList (texts : Texts) (settings : TabCompletionSettings) (list : List QString) (maxCount : Nat)
    (isFirstWord : Bool) : Source → List QString
  | .emote _ output => addVecToStringList output list maxCount EmoteItem.text
  | .user _ output prependAt =>
      addVecToStringList output list maxCount
        (UserSource.completion texts.toLower settings.mentions prependAt isFirstWord)
  | .command _ output => addVecToStringList output list maxCount CommandItem.text

/-- The loop of a source of several ones, which ends when all of the limit is used up. -/
def UnifiedSource.addLimited (texts : Texts) (settings : TabCompletionSettings) (maxCount startingSize : Nat)
    (isFirstWord : Bool) : List Source → Nat → List QString → List QString
  | [], _, list => list
  | source :: sources, used, list =>
      let list := source.addToStringList texts settings list (maxCount - used) isFirstWord
      let used := list.length - startingSize
      if used ≥ maxCount then list else addLimited texts settings maxCount startingSize isFirstWord sources used list

def UnifiedSource.addToStringList (texts : Texts) (settings : TabCompletionSettings) (list : List QString)
    (maxCount : Nat) (isFirstWord : Bool) (sources : List Source) : List QString :=
  if maxCount = 0 then sources.foldl (fun list source => source.addToStringList texts settings list 0 isFirstWord) list
  else addLimited texts settings maxCount list.length isFirstWord sources 0 list

@[simp] theorem addVecToStringList_zero {T : Type} (input : List T) (list : List QString) (mapper : T → QString) :
    addVecToStringList input list 0 mapper = list ++ input.map mapper := by
  rw [addVecToStringList, sizeWithinLimit, if_pos rfl, List.take_length]

end Forserino.Completion
