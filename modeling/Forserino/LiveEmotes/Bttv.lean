import Forserino.LiveEmotes.EmoteMap

/-! BetterTTV channel emotes: the loader, and the three operations of live updates.
-/

set_option autoImplicit false

namespace Forserino.LiveEmotes.Bttv

open Forserino.Qt Foundation

def EMOTE_LINK_FORMAT : QString := qs "https://betterttv.com/emotes/%1"

def EMOTE_CDN_FORMAT : QString := qs "https://cdn.betterttv.net/emote/%1/%2.webp"

def getEmoteLinkV3 (id emoteScale : QString) : QString := EMOTE_CDN_FORMAT.args [id, emoteScale]

/-- A missing author means that the emote was created by the broadcaster. -/
def createTooltip (name author channelDisplayName : QString) : QString :=
  (((qs "%1<br>%2 BetterTTV Emote<br>By: %3").arg name).arg
    (if author = [] then qs "Channel" else qs "Shared")).arg
    (if author = [] then channelDisplayName else author)

def displayName (jsonEmote : QJsonObject) : QString :=
  QJsonValue.toString ((QJsonValue.toObject (jsonEmote.value (qs "user"))).value (qs "displayName"))

def authorOf (jsonEmote : QJsonObject) : QString :=
  let author := displayName jsonEmote
  if author = [] then QJsonValue.toString (jsonEmote.value (qs "channel")) else author

def idOf (jsonEmote : QJsonObject) : QString := QJsonValue.toString (jsonEmote.value (qs "id"))

def codeOf (jsonEmote : QJsonObject) : QString := QJsonValue.toString (jsonEmote.value (qs "code"))

def createChannelEmote (channelDisplayName : QString) (jsonEmote : QJsonObject) : Emote :=
  let id := idOf jsonEmote
  let name := codeOf jsonEmote
  -- the author is written into the tooltip and not kept
  { name
    images := [getEmoteLinkV3 id (qs "1x"), getEmoteLinkV3 id (qs "2x"), getEmoteLinkV3 id (qs "3x")]
    tooltip := createTooltip name (authorOf jsonEmote) channelDisplayName
    homePage := EMOTE_LINK_FORMAT.args [id]
    zeroWidth := false
    id }

/-- The updated emote, if the JSON changes anything that is shown. -/
def updateChannelEmote (emote : Emote) (channelDisplayName : QString) (jsonEmote : QJsonObject) : Option Emote :=
  let renames := jsonEmote.contains (qs "code")
  let credits := jsonEmote.contains (qs "user")
  let name := if renames then codeOf jsonEmote else emote.name
  let author := if credits then displayName jsonEmote else emote.author
  if renames || credits then
    some { emote with name, author, tooltip := createTooltip name author channelDisplayName }
  else none

def innerParse (jsonRoot : QJsonObject) (channelDisplayName : QString) (emotes : EmoteMap) (key : QString) : EmoteMap :=
  (QJsonValue.toArray (jsonRoot.value key)).foldl
    (fun emotes jsonEmote => emotes.put (createChannelEmote channelDisplayName (QJsonValue.toObject (some jsonEmote)))) emotes

def parseChannelEmotes (jsonRoot : QJsonObject) (channelDisplayName : QString) : EmoteMap :=
  let emotes := innerParse jsonRoot channelDisplayName ∅ (qs "channelEmotes")
  innerParse jsonRoot channelDisplayName emotes (qs "sharedEmotes")

/-! ## Live updates -/

structure BttvLiveUpdateEmoteUpdateAddMessage where
  jsonEmote : QJsonObject
  emoteID : QString

structure BttvLiveUpdateEmoteRemoveMessage where
  emoteID : QString

def addEmote (channelDisplayName : QString) (channelEmoteMap : EmoteMap)
    (message : BttvLiveUpdateEmoteUpdateAddMessage) : EmoteMap × Emote :=
  let emote := createChannelEmote channelDisplayName message.jsonEmote
  (channelEmoteMap.put emote, emote)

/-- The map, and the old and the new emote if there is an update. -/
def updateEmote (channelDisplayName : QString) (channelEmoteMap : EmoteMap)
    (message : BttvLiveUpdateEmoteUpdateAddMessage) : EmoteMap × Option (Emote × Emote) :=
  match channelEmoteMap.findEmote [] message.emoteID with
  | none => (channelEmoteMap, none)
  | some (key, oldEmote) =>
      match updateChannelEmote oldEmote channelDisplayName message.jsonEmote with
      | none => (channelEmoteMap, none)
      | some emote => (EmoteMap.put (channelEmoteMap.erase key) emote, some (oldEmote, emote))

def removeEmote (channelEmoteMap : EmoteMap) (message : BttvLiveUpdateEmoteRemoveMessage) : EmoteMap × Option Emote :=
  match channelEmoteMap.findEmote [] message.emoteID with
  | none => (channelEmoteMap, none)
  | some (key, emote) => (channelEmoteMap.erase key, some emote)

end Forserino.LiveEmotes.Bttv
