import Forserino.Qt.Text

/-! The channels that a split can show, and how the Twitch server finds one by its name.
-/

set_option autoImplicit false

namespace Forserino.Windows

open Forserino.Qt

inductive ChannelType where
  | none
  | direct
  | twitch
  | twitchWhispers
  | twitchWatching
  | twitchMentions
  | twitchLive
  | twitchAutomod
  | twitchEnd
  | misc
  deriving DecidableEq, Repr

structure Channel where
  name : QString
  type : ChannelType
  deriving DecidableEq, Repr

namespace Channel

def getEmpty : Channel := ⟨[], .none⟩

end Channel

/-- A channel that may be exchanged for another one, with a type of its own unless it is direct. -/
structure IndirectChannel where
  channel : Channel
  type : ChannelType
  deriving DecidableEq, Repr

namespace IndirectChannel

def direct (channel : Channel) : IndirectChannel := ⟨channel, .direct⟩

def get (channel : IndirectChannel) : Channel := channel.channel

def getType (channel : IndirectChannel) : ChannelType :=
  if channel.type = .direct then channel.get.type else channel.type

end IndirectChannel

/-- What Qt makes of the lower case of a text. -/
structure LowerCase (toLower : QString → QString) : Prop where
  again : ∀ s, toLower (toLower s) = toLower s
  ascii : ∀ s : QString, (∀ c ∈ s, c < 128 ∧ ¬ (u 'A' ≤ c ∧ c ≤ u 'Z')) → toLower s = s

section
variable (toLower : QString → QString)

def cleanChannelName (dirtyChannelName : QString) : QString :=
  match dirtyChannelName with
  | [] => toLower []
  | c :: rest => if c = u '#' then toLower rest else toLower (c :: rest)

/-- The Twitch channels that are alive, by their names, and the channel that is being watched. -/
structure TwitchIrcServer where
  channels : List (QString × Channel)
  watchingChannel : Channel
  deriving DecidableEq, Repr

namespace TwitchIrcServer

def whispersChannel : Channel := ⟨qs "/whispers", .twitchWhispers⟩
def mentionsChannel : Channel := ⟨qs "/mentions", .twitchMentions⟩
def liveChannel : Channel := ⟨qs "/live", .twitchLive⟩
def automodChannel : Channel := ⟨qs "/automod", .twitchAutomod⟩

def getWatchingChannel (server : TwitchIrcServer) : IndirectChannel := ⟨server.watchingChannel, .twitchWatching⟩

/-- The channels with a timer. -/
def timerChannels : List QString :=
  [qs "$$$", qs "$$$:e", qs "$$$$", qs "$$$$:e", qs "$$$$$", qs "$$$$$:e", qs "$$$$$$", qs "$$$$$$:e",
    qs "$$$$$$$", qs "$$$$$$$:e"]

def getCustomChannel (channelName : QString) : Option Channel :=
  if channelName = qs "/whispers" then some whispersChannel
  else if channelName = qs "/mentions" then some mentionsChannel
  else if channelName = qs "/live" then some liveChannel
  else if channelName = qs "/automod" then some automodChannel
  else if channelName ∈ timerChannels then some ⟨channelName, .misc⟩
  else none

def getChannelOrEmpty (server : TwitchIrcServer) (dirtyChannelName : QString) : Channel :=
  let channelName := cleanChannelName toLower dirtyChannelName
  match getCustomChannel channelName with
  | some chan => chan
  | none =>
    match server.channels.find? fun entry => entry.1 == channelName with
    | some entry => entry.2
    | none => Channel.getEmpty

def createChannel (channelName : QString) : Channel := ⟨channelName, .twitch⟩

def getOrAddChannel (server : TwitchIrcServer) (dirtyChannelName : QString) : Channel × TwitchIrcServer :=
  let channelName := cleanChannelName toLower dirtyChannelName
  let chan := server.getChannelOrEmpty toLower channelName
  if chan ≠ Channel.getEmpty then (chan, server)
  else
    let chan := createChannel channelName
    (chan, { server with channels := (channelName, chan) :: server.channels.filter fun entry => entry.1 != channelName })

/-- The server keeps every Twitch channel under its name. -/
def Sound (server : TwitchIrcServer) : Prop :=
  ∀ entry ∈ server.channels, entry.2 = createChannel entry.1

/-- A channel that the server has given out. -/
def Gave (chan : Channel) : Prop :=
  ∃ (server : TwitchIrcServer) (dirtyChannelName : QString),
    server.Sound ∧ (server.getOrAddChannel toLower dirtyChannelName).1 = chan

/-- The channels that are known under a name of their own. -/
inductive IsCustom : Channel → Prop where
  | whispers : IsCustom whispersChannel
  | mentions : IsCustom mentionsChannel
  | live : IsCustom liveChannel
  | automod : IsCustom automodChannel
  | timer {channelName : QString} (known : channelName ∈ timerChannels) : IsCustom ⟨channelName, .misc⟩

theorem IsCustom.ne_empty {chan : Channel} (custom : IsCustom chan) : chan ≠ Channel.getEmpty := by
  intro same
  rw [same] at custom
  cases custom

theorem getCustomChannel_cases {channelName : QString} {chan : Channel}
    (found : getCustomChannel channelName = some chan) : IsCustom chan ∧ chan.name = channelName := by
  unfold getCustomChannel at found
  split at found
  · next same => exact Option.some.inj found ▸ ⟨.whispers, same.symm⟩
  · split at found
    · next same => exact Option.some.inj found ▸ ⟨.mentions, same.symm⟩
    · split at found
      · next same => exact Option.some.inj found ▸ ⟨.live, same.symm⟩
      · split at found
        · next same => exact Option.some.inj found ▸ ⟨.automod, same.symm⟩
        · split at found
          · next known => exact Option.some.inj found ▸ ⟨.timer known, rfl⟩
          · cases found

variable {toLower} {server : TwitchIrcServer}

theorem Sound.getOrAddChannel (sound : server.Sound) (dirtyChannelName : QString) :
    (server.getOrAddChannel toLower dirtyChannelName).2.Sound := by
  unfold TwitchIrcServer.getOrAddChannel
  simp only
  split
  · exact sound
  · intro entry inside
    rcases List.mem_cons.mp inside with rfl | old
    · rfl
    · exact sound entry (List.mem_filter.mp old).1

theorem getOrAddChannel_watching (dirtyChannelName : QString) :
    (server.getOrAddChannel toLower dirtyChannelName).2.watchingChannel = server.watchingChannel := by
  unfold TwitchIrcServer.getOrAddChannel
  simp only
  split <;> rfl

/-- What a name can stand for. -/
theorem Sound.getChannelOrEmpty (sound : server.Sound) (dirtyChannelName : QString) :
    getCustomChannel (cleanChannelName toLower dirtyChannelName) =
        some (server.getChannelOrEmpty toLower dirtyChannelName) ∨
      getCustomChannel (cleanChannelName toLower dirtyChannelName) = none ∧
        (server.getChannelOrEmpty toLower dirtyChannelName = createChannel (cleanChannelName toLower dirtyChannelName) ∨
          server.getChannelOrEmpty toLower dirtyChannelName = Channel.getEmpty) := by
  unfold TwitchIrcServer.getChannelOrEmpty
  simp only
  cases custom : getCustomChannel (cleanChannelName toLower dirtyChannelName) with
  | some chan => exact .inl rfl
  | none =>
    refine .inr ⟨rfl, ?_⟩
    cases found : server.channels.find? fun entry => entry.1 == cleanChannelName toLower dirtyChannelName with
    | some entry =>
      left
      have matched := List.find?_some found
      have key : entry.1 = cleanChannelName toLower dirtyChannelName := beq_iff_eq.mp matched
      show entry.2 = _
      rw [sound entry (List.mem_of_find?_eq_some found), key]
    | none => exact .inr rfl

theorem Sound.getOrAddChannel_cases (sound : server.Sound) (dirtyChannelName : QString) :
    let channelName := cleanChannelName toLower dirtyChannelName
    let custom := getCustomChannel (cleanChannelName toLower channelName)
    custom = some (server.getOrAddChannel toLower dirtyChannelName).1 ∨
      custom = none ∧
        ((server.getOrAddChannel toLower dirtyChannelName).1 =
            createChannel (cleanChannelName toLower channelName) ∨
          (server.getOrAddChannel toLower dirtyChannelName).1 = createChannel channelName) := by
  intro channelName custom
  unfold TwitchIrcServer.getOrAddChannel
  simp only
  rcases @Sound.getChannelOrEmpty toLower _ sound channelName with same | ⟨none_, same | empty⟩
  · left
    rw [if_pos (getCustomChannel_cases same).1.ne_empty]
    exact same
  · right
    refine ⟨none_, .inl ?_⟩
    rw [same, if_pos]
    intro other
    cases congrArg Channel.type other
  · right
    refine ⟨none_, .inr ?_⟩
    rw [empty, if_neg (not_not_intro rfl)]

/-! ## Opening a channel again -/

theorem cleanChannelName_lower {channelName : QString} (isLower : toLower channelName = channelName)
    (plain : channelName.head? ≠ some (u '#')) : cleanChannelName toLower channelName = channelName := by
  unfold cleanChannelName
  split
  · exact isLower
  · next c rest =>
    have other : c ≠ u '#' := fun same => plain (congrArg some same)
    rw [if_neg other]
    exact isLower

/-- A clean name is clean already, unless one more hash could be taken off. -/
theorem cleanChannelName_again (lower : LowerCase toLower) {dirtyChannelName : QString}
    (plain : (cleanChannelName toLower dirtyChannelName).head? ≠ some (u '#')) :
    cleanChannelName toLower (cleanChannelName toLower dirtyChannelName) =
      cleanChannelName toLower dirtyChannelName := by
  apply cleanChannelName_lower _ plain
  unfold cleanChannelName
  split
  · exact lower.again _
  · split <;> exact lower.again _

theorem Gave.cases {chan : Channel} (gave : Gave toLower chan) : IsCustom chan ∨ chan.type = .twitch := by
  obtain ⟨server, dirtyChannelName, sound, rfl⟩ := gave
  rcases @Sound.getOrAddChannel_cases toLower _ sound dirtyChannelName with custom | ⟨_, same | same⟩
  · exact .inl (getCustomChannel_cases custom).1
  · exact .inr (congrArg Channel.type same)
  · exact .inr (congrArg Channel.type same)

theorem Gave.twitch (lower : LowerCase toLower) {chan : Channel} (gave : Gave toLower chan)
    (type : chan.type = .twitch) (plain : chan.name.head? ≠ some (u '#')) :
    chan = createChannel chan.name ∧ cleanChannelName toLower chan.name = chan.name ∧
      getCustomChannel chan.name = none := by
  obtain ⟨server, dirtyChannelName, sound, rfl⟩ := gave
  rcases @Sound.getOrAddChannel_cases toLower _ sound dirtyChannelName with custom | ⟨none_, same | same⟩
  · have isCustom := (getCustomChannel_cases custom).1
    generalize (server.getOrAddChannel toLower dirtyChannelName).1 = chan at isCustom type
    cases isCustom <;> cases type
  · rw [same] at plain ⊢
    exact ⟨rfl, cleanChannelName_again lower plain, none_⟩
  · rw [same] at plain ⊢
    have again := cleanChannelName_again lower plain
    refine ⟨rfl, again, ?_⟩
    rw [again] at none_
    exact none_

/-- A Twitch channel is found or made again by its name. -/
theorem Gave.reopened (lower : LowerCase toLower) {chan : Channel} (gave : Gave toLower chan)
    (type : chan.type = .twitch) (plain : chan.name.head? ≠ some (u '#')) (sound : server.Sound) :
    (server.getOrAddChannel toLower chan.name).1 = chan := by
  obtain ⟨isTwitch, clean, notCustom⟩ := gave.twitch lower type plain
  rcases @Sound.getOrAddChannel_cases toLower _ sound chan.name with custom | ⟨_, same | same⟩
  · rw [clean, clean, notCustom] at custom
    cases custom
  · rw [same, clean, clean, ← isTwitch]
  · rw [same, clean, ← isTwitch]

/-- A channel with a timer is found by its name. -/
theorem timer_reopened (lower : LowerCase toLower) {channelName : QString} (known : channelName ∈ timerChannels) :
    server.getChannelOrEmpty toLower channelName = ⟨channelName, .misc⟩ := by
  have plain : ∀ channelName ∈ timerChannels, (∀ c ∈ channelName, c < 128 ∧ ¬ (u 'A' ≤ c ∧ c ≤ u 'Z')) ∧
      channelName.head? ≠ some (u '#') ∧ getCustomChannel channelName = some ⟨channelName, .misc⟩ := by
    decide
  obtain ⟨ascii, noHash, custom⟩ := plain channelName known
  have clean := cleanChannelName_lower (lower.ascii channelName ascii) noHash
  unfold TwitchIrcServer.getChannelOrEmpty
  simp only [clean, custom]

end TwitchIrcServer

end

end Forserino.Windows
