import Forserino.LiveEmotes.EmoteMap
import Mathlib.Data.Int.Bitwise

/-! 7TV channel emotes: the loader of an emote set, and the three operations of live updates.
-/

set_option autoImplicit false

namespace Forserino.LiveEmotes.Seventv

open Forserino.Qt Foundation

def EMOTE_LINK_FORMAT : QString := qs "https://7tv.app/emotes/%1"

namespace SeventvActiveEmoteFlag

def ZeroWidth : Nat := 0

end SeventvActiveEmoteFlag

namespace SeventvEmoteFlag

def ContentTwitchDisallowed : Nat := 24

end SeventvEmoteFlag

/-- FlagsEnum::has; a flag is given by its bit. -/
def has (flags : Int) (bit : Nat) : Bool := flags.testBit bit

def isZeroWidthActive (activeEmote : QJsonObject) : Bool :=
  has (QJsonValue.toInt (activeEmote.value (qs "flags")) 0) SeventvActiveEmoteFlag.ZeroWidth

def idOf (emote : QJsonObject) : QString := QJsonValue.toString (emote.value (qs "id"))

def nameOf (emote : QJsonObject) : QString := QJsonValue.toString (emote.value (qs "name"))

/-- The scope of a set in the tooltips of its emotes. -/
def scope (isGlobal : Bool) : QString := if isGlobal then qs "Global" else qs "Channel"

def byline (author : QString) : QString := if author = [] then qs "&lt;deleted&gt;" else author.toHtmlEscaped

def createTooltip (name author : QString) (isGlobal : Bool) : QString :=
  (qs "%1<br>%2 7TV Emote<br>By: %3").args [name.toHtmlEscaped, scope isGlobal, byline author]

def createAliasedTooltip (name baseName author : QString) (isGlobal : Bool) : QString :=
  (qs "%1<br>Alias of %2<br>%3 7TV Emote<br>By: %4").args
    [name.toHtmlEscaped, baseName.toHtmlEscaped, scope isGlobal, byline author]

/-- The WEBP files of an emote, at most four. -/
def webpFiles (emoteData : QJsonObject) : List QString :=
  let host := QJsonValue.toObject (emoteData.value (qs "host"))
  let baseUrl := QJsonValue.toString (host.value (qs "url"))
  let files := (QJsonValue.toArray (host.value (qs "files"))).map fun file => QJsonValue.toObject (some file)
  ((files.filter fun file => QJsonValue.equals (file.value (qs "format")) (qs "WEBP")).take 4).map fun file =>
    (qs "https:%1/%2").args [baseUrl, QJsonValue.toString (file.value (qs "name"))]

section
variable (isEmpty : QString → Bool)

/-- The first, the second and the largest image. isEmpty tells for which URLs no image could be loaded;
the empty URL stands for the empty image. -/
def createImageSet (emoteData : QJsonObject) : List QString :=
  match webpFiles emoteData with
  | [] => [[], [], []]
  | files =>
      let size (i : Nat) : QString := files.getD i []
      let largest := if size 3 = [] ∨ isEmpty (size 3) then size 2 else size 3
      [size 0, size 1, largest]

def hasImages (images : List QString) : Bool :=
  match images.head? with
  | some image => !(image.isEmpty || isEmpty image)
  | none => false

structure CreateEmoteResult where
  emote : Emote
  hasImages : Bool

def createEmote (activeEmote emoteData : QJsonObject) (isGlobal : Bool) : CreateEmoteResult :=
  let emoteId := idOf activeEmote
  let emoteName := nameOf activeEmote
  let author := QJsonValue.toString ((QJsonValue.toObject (emoteData.value (qs "owner"))).value (qs "display_name"))
  let baseEmoteName := QJsonValue.toString (emoteData.value (qs "name"))
  let zeroWidth := isZeroWidthActive activeEmote
  let aliasedName : Bool := emoteName ≠ baseEmoteName
  let tooltip := if aliasedName then createAliasedTooltip emoteName baseEmoteName author isGlobal
    else createTooltip emoteName author isGlobal
  let imageSet := createImageSet isEmpty emoteData
  let emote : Emote :=
    { name := emoteName
      images := imageSet
      tooltip
      homePage := EMOTE_LINK_FORMAT.arg emoteId
      zeroWidth
      id := emoteId
      author
      baseName := if aliasedName then some baseEmoteName else none }
  ⟨emote, hasImages isEmpty imageSet⟩

/-- The second argument is the setting of the same name. -/
def checkEmoteVisibility (emoteData : QJsonObject) (showUnlistedSevenTVEmotes : Bool) : Bool :=
  if !QJsonValue.toBool (emoteData.value (qs "listed")) false && !showUnlistedSevenTVEmotes then false
  else !has (QJsonValue.toInt (emoteData.value (qs "flags")) 0) SeventvEmoteFlag.ContentTwitchDisallowed

variable (showUnlistedSevenTVEmotes : Bool)

/-- The emote that one element of a set adds to the map, if any. -/
def shownEmote (activeEmote : QJsonObject) (isGlobal : Bool) : Option Emote :=
  let emoteData := QJsonValue.toObject (activeEmote.value (qs "data"))
  if emoteData.isEmpty || !checkEmoteVisibility emoteData showUnlistedSevenTVEmotes then none
  else
    let result := createEmote isEmpty activeEmote emoteData isGlobal
    if result.hasImages then some result.emote else none

def parseEmotes (emoteSetEmotes : List QJsonValue) (isGlobal : Bool) : EmoteMap :=
  emoteSetEmotes.foldl (fun emotes activeEmote =>
    match shownEmote isEmpty showUnlistedSevenTVEmotes (QJsonValue.toObject (some activeEmote)) isGlobal with
    | some emote => EmoteMap.put emotes emote
    | none => emotes) ∅

end

/-! ## Live updates -/

/-- A message of the event API about an emote set. -/
structure Dispatch where
  body : QJsonObject

def Dispatch.id (dispatch : Dispatch) : QString := QJsonValue.toString (dispatch.body.value (qs "id"))

structure EmoteAddDispatch where
  emoteSetID : QString
  emoteJson : QJsonObject
  emoteID : QString

structure EmoteRemoveDispatch where
  emoteSetID : QString
  emoteName : QString
  emoteID : QString

structure EmoteUpdateDispatch where
  emoteSetID : QString
  emoteID : QString
  oldEmoteName : QString
  emoteName : QString

def EmoteAddDispatch.ofJson (dispatch : Dispatch) (emote : QJsonObject) : EmoteAddDispatch :=
  ⟨dispatch.id, emote, idOf emote⟩

def EmoteAddDispatch.validate (added : EmoteAddDispatch) : Bool :=
  let emoteData := QJsonValue.toObject (added.emoteJson.value (qs "data"))
  !added.emoteSetID.isEmpty && !added.emoteJson.isEmpty &&
    (added.emoteJson.contains (qs "id") && added.emoteJson.contains (qs "name") && added.emoteJson.contains (qs "data")) &&
    (emoteData.contains (qs "name") && emoteData.contains (qs "host") && emoteData.contains (qs "owner"))

def EmoteRemoveDispatch.ofJson (dispatch : Dispatch) (emote : QJsonObject) : EmoteRemoveDispatch :=
  ⟨dispatch.id, nameOf emote, idOf emote⟩

def EmoteRemoveDispatch.validate (removed : EmoteRemoveDispatch) : Bool :=
  !removed.emoteSetID.isEmpty && !removed.emoteName.isEmpty && !removed.emoteID.isEmpty

def EmoteUpdateDispatch.ofJson (dispatch : Dispatch) (oldValue value : QJsonObject) : EmoteUpdateDispatch :=
  ⟨dispatch.id, idOf value, nameOf oldValue, nameOf value⟩

def EmoteUpdateDispatch.validate (update : EmoteUpdateDispatch) : Bool :=
  !update.emoteSetID.isEmpty && !update.emoteID.isEmpty && !update.oldEmoteName.isEmpty && !update.emoteName.isEmpty &&
    update.oldEmoteName ≠ update.emoteName

def createUpdatedEmote (oldEmote : Emote) (dispatch : EmoteUpdateDispatch) : Emote :=
  let toNonAliased : Bool := oldEmote.baseName = some dispatch.emoteName
  let baseName := oldEmote.baseName.getD oldEmote.name
  { name := dispatch.emoteName
    images := oldEmote.images
    tooltip := if toNonAliased then createTooltip dispatch.emoteName oldEmote.author false
      else createAliasedTooltip dispatch.emoteName baseName oldEmote.author false
    homePage := oldEmote.homePage
    zeroWidth := oldEmote.zeroWidth
    id := oldEmote.id
    author := oldEmote.author
    baseName := if toNonAliased then none else some baseName }

def addEmote (isEmpty : QString → Bool) (showUnlistedSevenTVEmotes : Bool) (map : EmoteMap) (dispatch : EmoteAddDispatch) :
    EmoteMap × Option Emote :=
  match shownEmote isEmpty showUnlistedSevenTVEmotes dispatch.emoteJson false with
  | some emote => (map.put emote, some emote)
  | none => (map, none)

/-- The old emote is erased by its name, not by its place in the map. -/
def updateEmote (map : EmoteMap) (dispatch : EmoteUpdateDispatch) : EmoteMap × Option Emote :=
  match map.findEmote dispatch.emoteName dispatch.emoteID with
  | none => (map, none)
  | some (_, oldEmote) =>
      let emote := createUpdatedEmote oldEmote dispatch
      (EmoteMap.put (map.erase oldEmote.name) emote, some emote)

def removeEmote (map : EmoteMap) (dispatch : EmoteRemoveDispatch) : EmoteMap × Option Emote :=
  match map.findEmote dispatch.emoteName dispatch.emoteID with
  | none => (map, none)
  | some (key, emote) => (map.erase key, some emote)

section
variable (isEmpty : QString → Bool) (showUnlistedSevenTVEmotes : Bool)

/-- The objects of one of the three arrays that are about emotes. -/
def changesUnder (dispatch : Dispatch) (array : QString) : List QJsonObject :=
  ((QJsonValue.toArray (dispatch.body.value array)).map fun change => QJsonValue.toObject (some change)).filter
    fun change => QJsonValue.equals (change.value (qs "key")) (qs "emotes")

def valueOf (change : QJsonObject) : QJsonObject := QJsonValue.toObject (change.value (qs "value"))

def oldValueOf (change : QJsonObject) : QJsonObject := QJsonValue.toObject (change.value (qs "old_value"))

/-- The map of a channel that shows the set, behind the signals of its dispatch. -/
def onEmoteSetUpdate (map : EmoteMap) (dispatch : Dispatch) : EmoteMap :=
  let map := (changesUnder dispatch (qs "pushed")).foldl (fun map pushed =>
    let added := EmoteAddDispatch.ofJson dispatch (valueOf pushed)
    if added.validate then (addEmote isEmpty showUnlistedSevenTVEmotes map added).1 else map) map
  let map := (changesUnder dispatch (qs "updated")).foldl (fun map updated =>
    let update := EmoteUpdateDispatch.ofJson dispatch (oldValueOf updated) (valueOf updated)
    if update.validate then (updateEmote map update).1 else map) map
  (changesUnder dispatch (qs "pulled")).foldl (fun map pulled =>
    let removed := EmoteRemoveDispatch.ofJson dispatch (oldValueOf pulled)
    if removed.validate then (removeEmote map removed).1 else map) map

end

end Forserino.LiveEmotes.Seventv
