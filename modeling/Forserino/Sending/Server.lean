import Forserino.Foundation.Runs
import Forserino.Qt.Text
import Mathlib.Data.List.Nodup
import Mathlib.Logic.Function.Basic

/-! Sending chat messages and replies. With the rainbow setting a message waits for,
or starts, an update of the user's chat colour, and the callbacks of the update go
on with the message when Helix has answered.
-/

set_option autoImplicit false

namespace Forserino.Sending

open Forserino.Qt

inductive ChatSendProtocol where
  | default
  | irc
  | helix
  deriving DecidableEq, Repr

structure Settings where
  chatSendProtocol : ChatSendProtocol
  rainbowMessages : Bool
  rainbowMethod : Bool
  rainbowMessagesPrime : Bool
  rainbowSpeed : Int
  rainbowStartingHue : Int
  rainbowSaturation : Int
  rainbowLight : Int
  allowRainbowChannels : Bool
  rainbowChannels : QString
  enableDefaultColor : Bool
  defaultColor : QString
  twitchHighRateLimitDelay : Int
  twitchLowRateLimitDelay : Int
  ignoreMaxMessageRateLimit : Bool
  deriving DecidableEq, Repr

/-- The channel object that a request holds; two objects can have one name. -/
structure TwitchChannel where
  pointer : Nat
  name : QString
  deriving DecidableEq, Repr

/-- What the handlers read and other parts of the program change at any time. -/
structure Surroundings where
  settings : Settings
  userId : QString
  roomId : TwitchChannel → QString
  hasHighRateLimit : TwitchChannel → Bool

inductive HelixUpdateUserChatColorError where
  | unknown
  | userMissingScope
  | invalidColor
  | forwarded
  deriving DecidableEq, Repr

/-- How Helix answers a colour update. -/
inductive Outcome where
  | success
  | failure (error : HelixUpdateUserChatColorError) (helixErrorMessage : QString)
  deriving DecidableEq, Repr

/-- What leaves the program: a call of sendChatMessage, or a line for the write connection. -/
inductive Outgoing where
  | helix (broadcasterID senderID message replyParentMessageID : QString)
  | irc (line : QString)
  deriving DecidableEq, Repr

/-- The two lambdas that a handler gives to updateUserChatColor. -/
inductive Callbacks where
  | sentBefore
  | sendBehind
  | replyBehind (replyId : QString)
  deriving DecidableEq, Repr

/-- A colour update that Helix has not answered yet, and the post it belongs to. -/
structure ColorUpdate where
  post : Nat
  channel : TwitchChannel
  message : QString
  color : QString
  callbacks : Callbacks
  deriving DecidableEq, Repr

/-- Every accepted message or reply is numbered, and what leaves the program for it has its number. -/
structure TwitchIrcServer where
  around : Surroundings
  lastMessagePleb : List Int := []
  lastMessageMod : List Int := []
  lastErrorTimeSpeed : Int := 0
  lastErrorTimeAmount : Int := 0
  rainbowHue : QString → Option Int := fun _ => none
  nonPrimeColorsIndex : QString → Nat := fun _ => 0
  posts : Nat := 0
  updates : List ColorUpdate := []
  sends : List (Nat × Outgoing) := []
  notices : List (TwitchChannel × QString) := []

def shouldSendHelixChat (settings : Settings) : Bool := settings.chatSendProtocol = .helix

def splitCommaSeparatedString (str : QString) : List QString := (str.split (u ',')).filter (· ≠ [])

def colors : List QString :=
  [qs "firebrick", qs "red", qs "orange_red", qs "chocolate", qs "golden_rod", qs "yellow_green",
   qs "spring_green", qs "sea_green", qs "cadet_blue", qs "dodger_blue", qs "blue", qs "blue_violet",
   qs "hot_pink"]

namespace TwitchIrcServer

def addSystemMessage (server : TwitchIrcServer) (channel : TwitchChannel) (text : QString) : TwitchIrcServer :=
  { server with notices := server.notices ++ [(channel, text)] }

/-! ## Rate limits -/

def lastMessage (server : TwitchIrcServer) (high : Bool) : List Int :=
  if high then server.lastMessageMod else server.lastMessagePleb

def setLastMessage (server : TwitchIrcServer) (high : Bool) (times : List Int) : TwitchIrcServer :=
  if high then { server with lastMessageMod := times } else { server with lastMessagePleb := times }

def maxMessageCount (high : Bool) : Nat := if high then 99 else 19

def minMessageOffset (settings : Settings) (high : Bool) : Int :=
  if high then settings.twitchHighRateLimitDelay else settings.twitchLowRateLimitDelay

/-- Times are in milliseconds. -/
def prepareToSend (server : TwitchIrcServer) (channel : TwitchChannel) (now : Int) : Bool × TwitchIrcServer :=
  let high := server.around.hasHighRateLimit channel
  let settings := server.around.settings
  if (server.lastMessage high).getLast?.any (fun last => decide (last + minMessageOffset settings high > now)) then
    if !settings.ignoreMaxMessageRateLimit ∧ server.lastErrorTimeSpeed + 30000 < now then
      (false, { server.addSystemMessage channel (qs "You are sending messages too quickly.") with
        lastErrorTimeSpeed := now })
    else (false, server)
  else
    let recent := (server.lastMessage high).dropWhile fun time => decide (time + 32000 < now)
    if !settings.ignoreMaxMessageRateLimit ∧ maxMessageCount high ≤ recent.length then
      let server := server.setLastMessage high recent
      if server.lastErrorTimeAmount + 30000 < now then
        (false, { server.addSystemMessage channel (qs "You are sending too many messages.") with
          lastErrorTimeAmount := now })
      else (false, server)
    else (true, server.setLastMessage high (recent ++ [now]))

/-! ## The ways out -/

def put (server : TwitchIrcServer) (post : Nat) (outgoing : Outgoing) : TwitchIrcServer :=
  { server with sends := server.sends ++ [(post, outgoing)] }

def sendHelixMessage (server : TwitchIrcServer) (post : Nat) (channel : TwitchChannel)
    (message replyParentId : QString) : TwitchIrcServer :=
  let broadcasterID := server.around.roomId channel
  if broadcasterID = [] then
    server.addSystemMessage channel (qs "Sending messages in this channel isn't possible.")
  else server.put post (.helix broadcasterID server.around.userId message replyParentId)

def sendRawMessage (server : TwitchIrcServer) (post : Nat) (rawMessage : QString) : TwitchIrcServer :=
  server.put post (.irc rawMessage)

def sendMessage (server : TwitchIrcServer) (post : Nat) (channelName message : QString) : TwitchIrcServer :=
  server.sendRawMessage post (qs "PRIVMSG #" ++ channelName ++ qs " :" ++ message)

/-- The block that onMessageSendRequested repeats wherever it sends, the success callback apart. -/
def sendPlain (server : TwitchIrcServer) (post : Nat) (channel : TwitchChannel) (message : QString) : TwitchIrcServer :=
  if shouldSendHelixChat server.around.settings then server.sendHelixMessage post channel message []
  else if channel.name.startsWith (qs "$") then
    server.sendRawMessage post (qs "PRIVMSG " ++ channel.name.mid 1 ++ qs " :" ++ message)
  else server.sendMessage post channel.name message

/-- The block that onReplySendRequested repeats wherever it sends. -/
def sendReply (server : TwitchIrcServer) (post : Nat) (channel : TwitchChannel) (message replyId : QString) :
    TwitchIrcServer :=
  if shouldSendHelixChat server.around.settings then server.sendHelixMessage post channel message replyId
  else server.sendRawMessage post
    (qs "@reply-parent-msg-id=" ++ replyId ++ qs " PRIVMSG #" ++ channel.name ++ qs " :" ++ message)

/-! ## Colours -/

def updateUserChatColor (server : TwitchIrcServer) (update : ColorUpdate) : TwitchIrcServer :=
  { server with updates := server.updates ++ [update] }

section
variable (hslName : Int → Int → Int → QString)

/-- The next colour of the channel. hslName is QColor::fromHsl(…).name(). -/
def nextColor (server : TwitchIrcServer) (channel : TwitchChannel) : QString × TwitchIrcServer :=
  let settings := server.around.settings
  if settings.rainbowMessagesPrime then
    let hue := (server.rainbowHue channel.name).getD settings.rainbowStartingHue + settings.rainbowSpeed
    let hue := if hue ≥ 360 then hue - 360 else hue
    (hslName hue settings.rainbowSaturation settings.rainbowLight,
      { server with rainbowHue := Function.update server.rainbowHue channel.name (some hue) })
  else
    let colorID := server.nonPrimeColorsIndex channel.name
    let colorID := (if colorID ≥ 12 then 0 else colorID) + 1
    (colors.getD colorID [],
      { server with nonPrimeColorsIndex := Function.update server.nonPrimeColorsIndex channel.name colorID })

end

/-! ## The handlers -/

/-- A channel outside the list of rainbow channels, where only these are to be coloured. -/
def restricted (caseFold : QString → QString) (settings : Settings) (channel : TwitchChannel) : Bool :=
  settings.allowRainbowChannels &&
    !(splitCommaSeparatedString settings.rainbowChannels).any fun entry => caseFold entry = caseFold channel.name

/-- The number of the accepted post is taken from the counter. -/
def accept (server : TwitchIrcServer) : TwitchIrcServer := { server with posts := server.posts + 1 }

section
variable (hslName : Int → Int → Int → QString) (caseFold : QString → QString)

def onMessageSendRequested (server : TwitchIrcServer) (channel : TwitchChannel) (message : QString) (now : Int) :
    Bool × TwitchIrcServer :=
  let post := server.posts
  let settings := server.around.settings
  match server.prepareToSend channel now with
  | (false, server) => (false, server)
  | (true, server) =>
      let server := server.accept
      if settings.rainbowMessages then
        let (color, server) := server.nextColor hslName channel
        if restricted caseFold settings channel && !settings.enableDefaultColor then
          (true, server.sendPlain post channel message)
        else
          let color := if restricted caseFold settings channel then settings.defaultColor else color
          if settings.rainbowMethod then
            (true, (server.sendPlain post channel message).updateUserChatColor
              ⟨post, channel, message, color, .sentBefore⟩)
          else (true, server.updateUserChatColor ⟨post, channel, message, color, .sendBehind⟩)
      else (true, server.sendPlain post channel message)

def onReplySendRequested (server : TwitchIrcServer) (channel : TwitchChannel) (message replyId : QString) (now : Int) :
    Bool × TwitchIrcServer :=
  let post := server.posts
  let settings := server.around.settings
  match server.prepareToSend channel now with
  | (false, server) => (false, server)
  | (true, server) =>
      let server := server.accept
      if settings.rainbowMessages then
        if restricted caseFold settings channel then (true, server.sendReply post channel message replyId)
        else
          let (color, server) := server.nextColor hslName channel
          (true, server.updateUserChatColor ⟨post, channel, message, color, .replyBehind replyId⟩)
      else (true, server.sendReply post channel message replyId)

end

/-- The success callbacks. -/
def onColorUpdated (server : TwitchIrcServer) (update : ColorUpdate) : TwitchIrcServer :=
  match update.callbacks with
  | .sentBefore => server
  | .sendBehind =>
      if shouldSendHelixChat server.around.settings then
        server.sendHelixMessage update.post update.channel update.message []
      else server.sendMessage update.post update.channel.name update.message
  | .replyBehind replyId => server.sendReply update.post update.channel update.message replyId

def failureText (color : QString) (error : HelixUpdateUserChatColorError) (helixErrorMessage : QString) : QString :=
  qs "Failed to change color to " ++ color ++ qs " - " ++
    match error with
    | .userMissingScope => qs "Missing required scope. Re-login with your account and try again."
    | .forwarded => helixErrorMessage ++ qs "."
    | .unknown | .invalidColor => qs "An unknown error has occurred."

/-- The failure callbacks. -/
def onColorFailed (server : TwitchIrcServer) (update : ColorUpdate) (error : HelixUpdateUserChatColorError)
    (helixErrorMessage : QString) : TwitchIrcServer :=
  let server := server.addSystemMessage update.channel (failureText update.color error helixErrorMessage)
  match update.callbacks with
  | .sentBefore | .sendBehind => server.sendPlain update.post update.channel update.message
  | .replyBehind replyId => server.sendReply update.post update.channel update.message replyId

def onColorAnswered (server : TwitchIrcServer) (update : ColorUpdate) : Outcome → TwitchIrcServer
  | .success => server.onColorUpdated update
  | .failure error helixErrorMessage => server.onColorFailed update error helixErrorMessage

/-! ## Runs -/

end TwitchIrcServer

inductive SendRequest where
  | message (channel : TwitchChannel) (message : QString)
  | reply (channel : TwitchChannel) (message replyId : QString)
  deriving DecidableEq, Repr

inductive Event where
  | requested (request : SendRequest) (now : Int)
  | answered (post : Nat) (outcome : Outcome)
  | changed (around : Surroundings)

namespace TwitchIrcServer

section
variable (hslName : Int → Int → Int → QString) (caseFold : QString → QString)

def onSendRequested (server : TwitchIrcServer) (request : SendRequest) (now : Int) : Bool × TwitchIrcServer :=
  match request with
  | .message channel message => server.onMessageSendRequested hslName caseFold channel message now
  | .reply channel message replyId => server.onReplySendRequested hslName caseFold channel message replyId now

/-- An update is answered once, and only while it is in flight. -/
def step (server : TwitchIrcServer) : Event → Option TwitchIrcServer
  | .requested request now => some (server.onSendRequested hslName caseFold request now).2
  | .answered post outcome =>
      match server.updates.find? (·.post = post) with
      | some update =>
          some ({ server with updates := server.updates.filter (·.post ≠ post) }.onColorAnswered update outcome)
      | none => none
  | .changed around => some { server with around }

end

end TwitchIrcServer

end Forserino.Sending
