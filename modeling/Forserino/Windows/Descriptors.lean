import Forserino.Qt.Json

/-! The descriptors of the tabs of a window, as they are loaded from JSON.

The texts of the ids of filters are made and read by Qt, so these functions are parameters.
-/

set_option autoImplicit false

namespace Forserino.Windows

open Forserino.Qt

structure SplitDescriptor (QUuid : Type) where
  type_ : QString
  channelName_ : QString
  server_ : Int
  moderationMode_ : Bool
  filters_ : List QUuid
  deriving DecidableEq, Repr

structure SplitNodeDescriptor (QUuid : Type) extends SplitDescriptor QUuid where
  flexH_ : ℚ
  flexV_ : ℚ
  deriving DecidableEq, Repr

inductive NodeDescriptor (QUuid : Type) where
  | container (flexH_ flexV_ : ℚ) (vertical_ : Bool) (items_ : List (NodeDescriptor QUuid))
  | split (descriptor : SplitNodeDescriptor QUuid)
  deriving Repr

structure TabDescriptor (QUuid : Type) where
  customTitle_ : QString
  selected_ : Bool
  highlightsEnabled_ : Bool
  rootNode_ : Option (NodeDescriptor QUuid)
  deriving Repr

section
variable {QUuid : Type} (fromString : QString → QUuid)

def loadFilters (val : Option QJsonValue) : List QUuid :=
  (QJsonValue.toArray val).map fun id => fromString (QJsonValue.toString (some id))

/-- `SplitDescriptor::loadFromJSON` -/
def SplitDescriptor.loadFromJSON (root data : QJsonObject) : SplitDescriptor QUuid where
  type_ := QJsonValue.toString (data.value (qs "type"))
  channelName_ :=
    if data.contains (qs "channel") then QJsonValue.toString (data.value (qs "channel"))
    else QJsonValue.toString (data.value (qs "name"))
  server_ := QJsonValue.toInt (data.value (qs "server")) (-1)
  moderationMode_ := QJsonValue.toBool (root.value (qs "moderationMode")) false
  filters_ := loadFilters fromString (root.value (qs "filters"))

/-- `loadNodes<SplitNodeDescriptor>` -/
def loadSplitNode (root : QJsonObject) : SplitNodeDescriptor QUuid :=
  { SplitDescriptor.loadFromJSON fromString root (QJsonValue.toObject (root.value (qs "data"))) with
    flexH_ := QJsonValue.toDouble (root.value (qs "flexh")) 1
    flexV_ := QJsonValue.toDouble (root.value (qs "flexv")) 1 }

/-- `loadNodes<ContainerNodeDescriptor>` -/
def loadContainerNode (root : QJsonObject) : NodeDescriptor QUuid :=
  .container (QJsonValue.toDouble (root.value (qs "flexh")) 1) (QJsonValue.toDouble (root.value (qs "flexv")) 1)
    (QJsonValue.toString (root.value (qs "type")) == qs "vertical")
    ((QJsonValue.toArray (root.value (qs "items"))).attach.map fun ⟨val, _⟩ =>
      if QJsonValue.equals ((QJsonValue.toObject (some val)).value (qs "type")) (qs "split") then
        .split (loadSplitNode fromString (QJsonValue.toObject (some val)))
      else loadContainerNode (QJsonValue.toObject (some val)))
termination_by sizeOf root
decreasing_by exact sizeOf_items ‹_›

/-- One of the items of a container. -/
def loadItem (obj : QJsonObject) : NodeDescriptor QUuid :=
  if QJsonValue.equals (obj.value (qs "type")) (qs "split") then .split (loadSplitNode fromString obj)
  else loadContainerNode fromString obj

theorem loadContainerNode_eq (root : QJsonObject) :
    loadContainerNode fromString root =
      .container (QJsonValue.toDouble (root.value (qs "flexh")) 1)
        (QJsonValue.toDouble (root.value (qs "flexv")) 1)
        (QJsonValue.toString (root.value (qs "type")) == qs "vertical")
        ((QJsonValue.toArray (root.value (qs "items"))).map fun val =>
          loadItem fromString (QJsonValue.toObject (some val))) := by
  rw [loadContainerNode]
  congr 1
  exact @List.attach_map_val _ _ _ fun val => loadItem fromString (QJsonValue.toObject (some val))

/-- The splits of a tab. -/
def loadRootNode (splitRoot : QJsonObject) : Option (NodeDescriptor QUuid) :=
  if splitRoot.isEmpty then none
  else
    let nodeType := QJsonValue.toString (splitRoot.value (qs "type"))
    if nodeType = qs "split" then some (.split (loadSplitNode fromString splitRoot))
    else if nodeType = qs "horizontal" ∨ nodeType = qs "vertical" then
      some (loadContainerNode fromString splitRoot)
    else none

/-- `TabDescriptor::loadFromJSON` -/
def TabDescriptor.loadFromJSON (tabObj : QJsonObject) : TabDescriptor QUuid :=
  let titleVal := tabObj.value (qs "title")
  { customTitle_ := if QJsonValue.isString titleVal then QJsonValue.toString titleVal else []
    selected_ := QJsonValue.toBool (tabObj.value (qs "selected")) false
    highlightsEnabled_ := QJsonValue.toBool (tabObj.value (qs "highlightsEnabled")) true
    rootNode_ := loadRootNode fromString (QJsonValue.toObject (tabObj.value (qs "splits2"))) }

end

end Forserino.Windows
