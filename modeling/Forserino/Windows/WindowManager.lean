import Forserino.Splits.SplitContainer
import Forserino.Windows.Channels
import Forserino.Windows.Descriptors
import Mathlib.Data.List.Dedup
import Mathlib.Data.List.Sort

/-! How a tab is written to JSON, and how a split container is filled from a descriptor.

What a split shows is given by a function of the split, as it may change while the split
stays where it is. Splits that are made from descriptors carry it themselves.
-/

set_option autoImplicit false

namespace Forserino.Windows

open Forserino.Qt
open Foundation Forserino.Splits

/-- What is written of a split. -/
structure SplitWidget (QUuid : Type) where
  channel : IndirectChannel
  moderationMode : Bool
  filters : List QUuid
  deriving DecidableEq, Repr

structure Tab (Split : Type) where
  customTitle : QString
  highlightsEnabled : Bool
  container : SplitContainer Split

/-- `SplitContainer::refreshTabTitle`: the names of the channels of the splits. -/
def defaultTitle {Split : Type} (localizedName : Split → QString) (splits : List Split) : QString :=
  let names := (splits.map localizedName).filter fun channelName => !channelName.isEmpty
  let newTitle := (qs ", ").intercalate names
  if newTitle.isEmpty then qs "empty" else newTitle

/-- `NotebookTab::getTitle` -/
def Tab.getTitle {Split : Type} (localizedName : Split → QString) (tab : Tab Split) : QString :=
  if tab.customTitle.isEmpty then defaultTitle localizedName tab.container.splits else tab.customTitle

/-! ## Encoding -/

section
variable {QUuid Split : Type} (toString : QUuid → QString) (widget : Split → SplitWidget QUuid)

def encodeChannel (channel : IndirectChannel) (obj : QJsonObject) : QJsonObject :=
  match channel.getType with
  | .twitch => (obj.insert (qs "type") (.string (qs "twitch"))).insert (qs "name") (.string channel.get.name)
  | .twitchAutomod => obj.insert (qs "type") (.string (qs "automod"))
  | .twitchMentions => obj.insert (qs "type") (.string (qs "mentions"))
  | .twitchWatching => obj.insert (qs "type") (.string (qs "watching"))
  | .twitchWhispers => obj.insert (qs "type") (.string (qs "whispers"))
  | .twitchLive => obj.insert (qs "type") (.string (qs "live"))
  | .misc => (obj.insert (qs "type") (.string (qs "misc"))).insert (qs "name") (.string channel.get.name)
  | .none | .direct | .twitchEnd => obj

def encodeFilters (split : Split) (arr : List QJsonValue) : List QJsonValue :=
  arr ++ (widget split).filters.map fun f => .string (toString f)

mutual
/-- There is none where the split of a node is missing. -/
def encodeNodeRecursively : Node Split → QJsonObject → Option QJsonObject
  | .node data children, obj => do
    let obj ← match data.type with
      | .split => do
        let split ← data.split
        let obj := obj.insert (qs "type") (.string (qs "split"))
        let obj := obj.insert (qs "moderationMode") (.bool (widget split).moderationMode)
        let obj := obj.insert (qs "data") (.object (encodeChannel (widget split).channel []))
        pure (obj.insert (qs "filters") (.array (encodeFilters toString widget split [])))
      | .horizontalContainer => do
        let itemsArr ← encodeNodes children
        pure ((obj.insert (qs "type") (.string (qs "horizontal"))).insert (qs "items") (.array itemsArr))
      | .verticalContainer => do
        let itemsArr ← encodeNodes children
        pure ((obj.insert (qs "type") (.string (qs "vertical"))).insert (qs "items") (.array itemsArr))
      | .emptyRoot => pure obj
    return (obj.insert (qs "flexh") (.double data.flexH)).insert (qs "flexv") (.double data.flexV)

def encodeNodes : List (Node Split) → Option (List QJsonValue)
  | [] => some []
  | n :: rest => do
    let subObj ← encodeNodeRecursively n []
    let itemsArr ← encodeNodes rest
    return .object subObj :: itemsArr
end

def encodeTab (tab : Tab Split) (isSelected : Bool) (obj : QJsonObject) : Option QJsonObject := do
  let obj := if tab.customTitle.isEmpty then obj else obj.insert (qs "title") (.string tab.customTitle)
  let obj := if isSelected then obj.insert (qs "selected") (.bool true) else obj
  let obj := obj.insert (qs "highlightsEnabled") (.bool tab.highlightsEnabled)
  let splits ← encodeNodeRecursively toString widget tab.container.baseNode []
  return obj.insert (qs "splits2") (.object splits)

end

/-! ## Applying a descriptor -/

section
variable {QUuid : Type} (toLower : QString → QString)

def decodeChannel (descriptor : SplitDescriptor QUuid) (server : TwitchIrcServer) :
    IndirectChannel × TwitchIrcServer :=
  if descriptor.type_ = qs "twitch" then
    let (chan, server) := server.getOrAddChannel toLower descriptor.channelName_
    (.direct chan, server)
  else if descriptor.type_ = qs "mentions" then (.direct TwitchIrcServer.mentionsChannel, server)
  else if descriptor.type_ = qs "watching" then (server.getWatchingChannel, server)
  else if descriptor.type_ = qs "whispers" then (.direct TwitchIrcServer.whispersChannel, server)
  else if descriptor.type_ = qs "live" then (.direct TwitchIrcServer.liveChannel, server)
  else if descriptor.type_ = qs "automod" then (.direct TwitchIrcServer.automodChannel, server)
  else if descriptor.type_ = qs "misc" then
    (.direct (server.getChannelOrEmpty toLower descriptor.channelName_), server)
  else (.direct Channel.getEmpty, server)

variable [LinearOrder QUuid]

/-- The ids of a filter set that is made for these ids: the keys of a map with the filters that there are. -/
def filterIds (filterRecords ids : List QUuid) : List QUuid :=
  (filterRecords.filter fun f => decide (f ∈ ids)).dedup.mergeSort fun a b => decide (a ≤ b)

/-- A split that was made for a descriptor. -/
structure NewSplit (QUuid : Type) extends SplitWidget QUuid where
  address : Nat
  deriving DecidableEq, Repr

/-- What is changed while nodes are made: the channels of the server, the splits of the
container and the address that the next new node gets. -/
structure Applying (QUuid : Type) where
  server : TwitchIrcServer
  splits : List (NewSplit QUuid)
  nextNode : Nat

variable (filterRecords : List QUuid)

def newSplit (descriptor : SplitDescriptor QUuid) (applying : Applying QUuid) : NewSplit QUuid × TwitchIrcServer :=
  let (channel, server) := decodeChannel toLower descriptor applying.server
  ({ channel
     moderationMode := descriptor.moderationMode_
     filters := filterIds filterRecords descriptor.filters_
     address := applying.splits.length }, server)

mutual
/-- A new node for an item of the container at an address. -/
def applyItem (baseNode : Nat) : NodeDescriptor QUuid → Applying QUuid → Node (NewSplit QUuid) × Applying QUuid
  | .split splitNode, applying =>
      let (split, server) := newSplit toLower filterRecords splitNode.toSplitDescriptor applying
      (.node
        { id := applying.nextNode, type := .split, split := some split, parent := some baseNode,
          flexH := splitNode.flexH_, flexV := splitNode.flexV_ } [],
        { server, splits := applying.splits ++ [split], nextNode := applying.nextNode + 1 })
  | .container flexH_ flexV_ vertical_ items_, applying =>
      let (children, behind) := applyItems applying.nextNode items_
        { applying with nextNode := applying.nextNode + 1 }
      (.node
        { id := applying.nextNode, type := if vertical_ then .verticalContainer else .horizontalContainer,
          split := none, parent := some baseNode, flexH := flexH_, flexV := flexV_ } children, behind)

def applyItems (baseNode : Nat) :
    List (NodeDescriptor QUuid) → Applying QUuid → List (Node (NewSplit QUuid)) × Applying QUuid
  | [], applying => ([], applying)
  | item :: rest, applying =>
      let (node, between) := applyItem baseNode item applying
      let (nodes, behind) := applyItems baseNode rest between
      (node :: nodes, behind)
end

def applyFromDescriptorRecursively (rootNode : NodeDescriptor QUuid) (container : SplitContainer (NewSplit QUuid))
    (server : TwitchIrcServer) : Option (SplitContainer (NewSplit QUuid) × TwitchIrcServer) :=
  let applying : Applying QUuid := { server, splits := container.splits, nextNode := container.nextNode }
  match rootNode with
  | .split splitNode => do
    let (split, server) := newSplit toLower filterRecords splitNode.toSplitDescriptor applying
    let container ← container.insertSplit split
      { position := none, relativeSplit := none, relativeNode := none, direction := none }
    return (container, server)
  | .container _ _ vertical_ items_ =>
    let base := container.baseNode
    let (nodes, behind) := applyItems toLower filterRecords base.value.id items_ applying
    some
      ({ container with
          baseNode := .node
            { base.value with type := if vertical_ then .verticalContainer else .horizontalContainer }
            (base.children ++ nodes)
          splits := behind.splits
          nextNode := behind.nextNode },
        behind.server)

def applyFromDescriptor (container : SplitContainer (NewSplit QUuid)) (rootNode : NodeDescriptor QUuid)
    (server : TwitchIrcServer) : Option (SplitContainer (NewSplit QUuid) × TwitchIrcServer) := do
  guard (container.baseNode.value.type = .emptyRoot)
  let (container, server) ← applyFromDescriptorRecursively toLower filterRecords rootNode
    { container with disableLayouting := true } server
  return (({ container with disableLayouting := false } : SplitContainer (NewSplit QUuid)).layout, server)

/-- A new tab that is filled from a descriptor. -/
def openTab (tab : TabDescriptor QUuid) (server : TwitchIrcServer) :
    Option (Tab (NewSplit QUuid) × TwitchIrcServer) := do
  let page : Tab (NewSplit QUuid) :=
    { customTitle := if tab.customTitle_.isEmpty then [] else tab.customTitle_
      highlightsEnabled := tab.highlightsEnabled_
      container := .empty }
  match tab.rootNode_ with
  | some rootNode => do
    let (container, server) ← applyFromDescriptor toLower filterRecords page.container rootNode server
    return ({ page with container }, server)
  | none => return (page, server)

end

end Forserino.Windows
