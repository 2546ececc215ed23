import Forserino.Splits.Relayout
import Forserino.Windows.WindowManager

/-! What is loaded from the JSON of a tab: the descriptor of its tree. -/

set_option autoImplicit false

namespace Forserino.Windows

open Forserino.Qt
open Foundation Forserino.Splits RoseTree

/-- The name of a channel type in a descriptor. -/
def ChannelType.text : ChannelType → QString
  | .twitch => qs "twitch"
  | .twitchAutomod => qs "automod"
  | .twitchMentions => qs "mentions"
  | .twitchWatching => qs "watching"
  | .twitchWhispers => qs "whispers"
  | .twitchLive => qs "live"
  | .misc => qs "misc"
  | .none | .direct | .twitchEnd => []

section
variable {QUuid Split : Type} (widget : Split → SplitWidget QUuid)

def SplitWidget.describe (split : SplitWidget QUuid) (flexH flexV : ℚ) : SplitNodeDescriptor QUuid where
  type_ := split.channel.getType.text
  channelName_ :=
    if split.channel.getType = .twitch ∨ split.channel.getType = .misc then split.channel.get.name else []
  server_ := -1
  moderationMode_ := split.moderationMode
  filters_ := split.filters
  flexH_ := flexH
  flexV_ := flexV

mutual
/-- The descriptor of a node. A node that is neither a container nor holds a split has none. -/
def describe : Node Split → NodeDescriptor QUuid
  | .node data children =>
    match data.type.vertical?, data.split with
    | some isVertical, _ => .container data.flexH data.flexV isVertical (describeAll children)
    | none, some split => .split ((widget split).describe data.flexH data.flexV)
    | none, none => .container data.flexH data.flexV false []

def describeAll : List (Node Split) → List (NodeDescriptor QUuid)
  | [] => []
  | child :: children => describe child :: describeAll children
end

theorem describeAll_eq (children : List (Node Split)) : describeAll widget children = children.map (describe widget) := by
  induction children with
  | nil => rfl
  | cons child children ih => rw [describeAll, ih, List.map_cons]

theorem describe_split {data : NodeData Split} {children : List (Node Split)} {split : Split}
    (type : data.type = .split) (holds : data.split = some split) :
    describe widget (.node data children) = .split ((widget split).describe data.flexH data.flexV) := by
  rw [describe, type, holds]
  rfl

theorem describe_container {data : NodeData Split} {children : List (Node Split)} {isVertical : Bool}
    (container : data.type.vertical? = some isVertical) :
    describe widget (.node data children) =
      .container data.flexH data.flexV isVertical (children.map (describe widget)) := by
  rw [describe, container, ← describeAll_eq]

end

section
variable {QUuid Split : Type} {toString : QUuid → QString} {fromString : QString → QUuid}

/-- What a channel is written as. -/
theorem load_encodeChannel (channel : IndirectChannel) :
    QJsonValue.toString ((encodeChannel channel []).value (qs "type")) = channel.getType.text ∧
      (encodeChannel channel []).contains (qs "channel") = false ∧
      QJsonValue.toString ((encodeChannel channel []).value (qs "name")) =
        (if channel.getType = .twitch ∨ channel.getType = .misc then channel.get.name else []) ∧
      (encodeChannel channel []).value (qs "server") = none := by
  unfold encodeChannel QJsonObject.contains
  cases channel.getType <;>
    simp (disch := decide) [QJsonObject.value_insert_other, QJsonValue.toString, ChannelType.text]

variable {widget : Split → SplitWidget QUuid} {data : NodeData Split} {children : List (Node Split)}

theorem load_encodeFilters (readable : ∀ id, fromString (toString id) = id) (split : Split) :
    loadFilters fromString (some (.array (encodeFilters toString widget split []))) = (widget split).filters := by
  unfold loadFilters encodeFilters QJsonValue.toArray
  rw [List.nil_append, List.map_map]
  conv_rhs => rw [← List.map_id (widget split).filters]
  exact List.map_congr_left fun id _ => readable id

theorem encode_split (readable : ∀ id, fromString (toString id) = id) {split : Split}
    (type : data.type = .split) (holds : data.split = some split) :
    ∃ obj, encodeNodeRecursively toString widget (.node data children) [] = some obj ∧
      obj.value (qs "type") = some (.string (qs "split")) ∧
      loadSplitNode fromString obj = (widget split).describe data.flexH data.flexV := by
  obtain ⟨channelType, noChannel, name, noServer⟩ := load_encodeChannel (widget split).channel
  have filters := @load_encodeFilters _ _ toString fromString widget readable split
  rw [encodeNodeRecursively, type, holds]
  refine ⟨_, rfl, ?_, ?_⟩
  · simp (disch := decide) only [QJsonObject.value_insert_other, QJsonObject.value_insert]
  · unfold loadSplitNode SplitDescriptor.loadFromJSON
    simp (disch := decide) only [QJsonObject.value_insert_other, QJsonObject.value_insert, QJsonValue.toDouble,
      QJsonValue.toBool, QJsonValue.toObject, QJsonValue.toInt, channelType, noChannel, name, noServer, filters]
    rfl

theorem encode_container {isVertical : Bool} (container : data.type.vertical? = some isVertical)
    {itemsArr : List QJsonValue} (items : encodeNodes toString widget children = some itemsArr) :
    ∃ obj, encodeNodeRecursively toString widget (.node data children) [] = some obj ∧
      obj.value (qs "type") = some (.string (if isVertical then qs "vertical" else qs "horizontal")) ∧
      loadContainerNode fromString obj = .container data.flexH data.flexV isVertical
        (itemsArr.map fun val => loadItem fromString (QJsonValue.toObject (some val))) := by
  rw [encodeNodeRecursively]
  cases type : data.type with
  | emptyRoot | split =>
    rw [type] at container
    cases container
  | verticalContainer | horizontalContainer =>
    rw [type] at container
    obtain rfl := Option.some.inj container
    simp only [items, Option.bind_eq_bind, Option.bind_some, Option.pure_def]
    refine ⟨_, rfl, ?_, ?_⟩
    · simp (disch := decide) [QJsonObject.value_insert_other]
    · rw [loadContainerNode_eq]
      simp (disch := decide) only [QJsonObject.value_insert_other, QJsonObject.value_insert, QJsonValue.toDouble,
        QJsonValue.toString, QJsonValue.toArray]
      rfl

theorem encodeNodes_load {children : List (Node Split)}
    (each : ∀ child ∈ children, ∃ obj, encodeNodeRecursively toString widget child [] = some obj ∧
      loadItem fromString obj = describe widget child) :
    ∃ itemsArr, encodeNodes toString widget children = some itemsArr ∧
      (itemsArr.map fun val => loadItem fromString (QJsonValue.toObject (some val))) =
        children.map (describe widget) := by
  induction children with
  | nil => exact ⟨[], rfl, rfl⟩
  | cons child children ih =>
    rw [List.forall_mem_cons] at each
    obtain ⟨obj, encoded, loaded⟩ := each.1
    obtain ⟨itemsArr, encodedRest, loadedRest⟩ := ih each.2
    refine ⟨.object obj :: itemsArr, ?_, ?_⟩
    · rw [encodeNodes, encoded, encodedRest]
      rfl
    · rw [List.map_cons, List.map_cons, loadedRest, ← loaded]
      rfl

/-- What is loaded from what is written of a container: its items are the descriptors of its children. -/
theorem load_encode_container {isVertical : Bool} (container : data.type.vertical? = some isVertical)
    (each : ∀ child ∈ children, ∃ obj, encodeNodeRecursively toString widget child [] = some obj ∧
      loadItem fromString obj = describe widget child) :
    ∃ obj, encodeNodeRecursively toString widget (.node data children) [] = some obj ∧
      obj.value (qs "type") = some (.string (if isVertical then qs "vertical" else qs "horizontal")) ∧
      loadContainerNode fromString obj = describe widget (.node data children) := by
  obtain ⟨itemsArr, items, loaded⟩ := encodeNodes_load each
  obtain ⟨obj, encoded, type, root⟩ := @encode_container _ _ _ fromString _ _ _ _ container _ items
  refine ⟨obj, encoded, type, ?_⟩
  rw [root, loaded, describe_container widget container]

/-- The descriptor of a node below the root is loaded from what is written of it. -/
theorem load_encode (readable : ∀ id, fromString (toString id) = id) {node : Node Split} {above : Nat}
    (placed : node.Placed (some above)) :
    ∃ obj, encodeNodeRecursively toString widget node [] = some obj ∧
      loadItem fromString obj = describe widget node := by
  induction node using RoseTree.induct generalizing above with
  | node data children ih =>
    obtain ⟨⟨_, kind⟩, below⟩ := everywhere_node.mp placed
    cases container : data.type.vertical? with
    | some isVertical =>
      obtain ⟨obj, encoded, type, loaded⟩ := @load_encode_container _ _ toString fromString widget _ _ _ container
        fun child member => ih child member (below child member)
      refine ⟨obj, encoded, ?_⟩
      have other : QJsonValue.equals (obj.value (qs "type")) (qs "split") = false := by
        rw [type]
        cases isVertical <;> rfl
      rw [loadItem, other, if_neg Bool.false_ne_true]
      exact loaded
    | none =>
      cases type : data.type with
      | emptyRoot => exact absurd type kind.occupied
      | split =>
        rw [type] at kind
        obtain ⟨split, holds⟩ := Option.isSome_iff_exists.mp kind.1
        obtain ⟨obj, encoded, isSplit, loaded⟩ := @encode_split _ _ _ _ widget _ children readable _ type holds
        refine ⟨obj, encoded, ?_⟩
        have same : QJsonValue.equals (obj.value (qs "type")) (qs "split") = true := by
          rw [isSplit]
          rfl
        rw [loadItem, if_pos same, loaded, describe_split widget type holds]
      | verticalContainer | horizontalContainer =>
        rw [type] at container
        cases container

/-- The descriptor of a whole tree, which an empty one has not. -/
def describeRoot (widget : Split → SplitWidget QUuid) (node : Node Split) : Option (NodeDescriptor QUuid) :=
  if node.value.type = .emptyRoot then none else some (describe widget node)

theorem load_encode_root (readable : ∀ id, fromString (toString id) = id) {node : Node Split}
    (placed : node.Placed none) :
    ∃ obj, encodeNodeRecursively toString widget node [] = some obj ∧
      loadRootNode fromString obj = describeRoot widget node := by
  cases node with
  | node data children =>
    obtain ⟨⟨_, kind⟩, below⟩ := everywhere_node.mp placed
    have filled {obj : QJsonObject} {value : QJsonValue} (there : obj.value (qs "type") = some value) :
        obj.isEmpty = false := by
      cases obj with
      | nil => cases there
      | cons member rest => rfl
    unfold describeRoot loadRootNode
    rw [value_node]
    cases container : data.type.vertical? with
    | some isVertical =>
      obtain ⟨obj, encoded, type, loaded⟩ := @load_encode_container _ _ toString fromString widget _ _ _ container
        fun child member => load_encode readable (below child member)
      refine ⟨obj, encoded, ?_⟩
      have occupied : data.type ≠ .emptyRoot := by
        intro other
        rw [other] at container
        cases container
      rw [filled type, if_neg Bool.false_ne_true, if_neg occupied, type, loaded]
      cases isVertical <;> rfl
    | none =>
      cases type : data.type with
      | emptyRoot =>
        refine ⟨QJsonObject.insert (QJsonObject.insert [] (qs "flexh") (.double data.flexH)) (qs "flexv")
          (.double data.flexV), ?_, ?_⟩
        · rw [encodeNodeRecursively, type]
          rfl
        · rw [if_pos rfl]
          rfl
      | split =>
        rw [type] at kind
        obtain ⟨split, holds⟩ := Option.isSome_iff_exists.mp kind.1
        obtain ⟨obj, encoded, isSplit, loaded⟩ := @encode_split _ _ _ _ widget _ children readable _ type holds
        refine ⟨obj, encoded, ?_⟩
        rw [filled isSplit, if_neg Bool.false_ne_true, isSplit, loaded, describe_split widget type holds]
        rfl
      | verticalContainer | horizontalContainer =>
        rw [type] at container
        cases container

/-- What is written of a tab is loaded: its tree, its title and its highlight setting. -/
theorem load_encodeTab (readable : ∀ id, fromString (toString id) = id) (tab : Tab Split)
    (placed : Node.Placed none tab.container.baseNode) (isSelected : Bool) :
    ∃ obj, encodeTab toString widget tab isSelected [] = some obj ∧
      TabDescriptor.loadFromJSON fromString obj =
        { customTitle_ := tab.customTitle
          selected_ := isSelected
          highlightsEnabled_ := tab.highlightsEnabled
          rootNode_ := describeRoot widget tab.container.baseNode } := by
  obtain ⟨splits, encoded, loaded⟩ := @load_encode_root _ _ toString fromString widget readable _ placed
  unfold encodeTab
  rw [encoded]
  refine ⟨_, rfl, ?_⟩
  unfold TabDescriptor.loadFromJSON
  cases title : tab.customTitle with
  | nil =>
    cases isSelected <;>
      simp (disch := decide) [QJsonObject.value_insert_other, QJsonValue.toBool, QJsonValue.toObject,
        QJsonValue.isString, loaded]
  | cons first rest =>
    cases isSelected <;>
      simp (disch := decide) [QJsonObject.value_insert_other, QJsonValue.toBool, QJsonValue.toObject,
        QJsonValue.isString, QJsonValue.toString, loaded]

end

end Forserino.Windows
