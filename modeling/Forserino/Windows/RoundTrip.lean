import Forserino.Splits.TreeInvariant
import Forserino.Windows.Loading

/-! A tab that is written and opened again. Every node is made again with what was written of
it, and the tree is laid out once more.
-/

set_option autoImplicit false

namespace Forserino.Windows

open Forserino.Qt
open Foundation Forserino.Splits RoseTree

/-- What is seen of a split. -/
structure SplitWidget.Leaf (QUuid : Type) where
  channelType : ChannelType
  channelName : QString
  moderationMode : Bool
  filters : List QUuid
  deriving DecidableEq, Repr

def SplitWidget.leaf {QUuid : Type} (split : SplitWidget QUuid) : SplitWidget.Leaf QUuid :=
  ⟨split.channel.getType, split.channel.get.name, split.moderationMode, split.filters⟩

/-- What a split can show: nothing, a channel that the server gave, or the channel that is being watched. -/
inductive Displayable (toLower : QString → QString) (watchingChannel : Channel) : IndirectChannel → Prop where
  | empty : Displayable toLower watchingChannel (.direct Channel.getEmpty)
  | given {chan : Channel} (gave : TwitchIrcServer.Gave toLower chan) :
      Displayable toLower watchingChannel (.direct chan)
  | watching : Displayable toLower watchingChannel ⟨watchingChannel, .twitchWatching⟩

section
variable {QUuid : Type} [LinearOrder QUuid]

/-- A split whose channel and filters are found again. -/
structure SplitWidget.Kept (toLower : QString → QString) (watchingChannel : Channel) (filterRecords : List QUuid)
    (split : SplitWidget QUuid) : Prop where
  displayable : Displayable toLower watchingChannel split.channel
  plain : split.channel.getType = .twitch → split.channel.get.name.head? ≠ some (u '#')
  filters : ∃ ids, split.filters = filterIds filterRecords ids

/-- A filter set that is made for the ids of a filter set has the same ids. -/
theorem filterIds_again (filterRecords ids : List QUuid) :
    filterIds filterRecords (filterIds filterRecords ids) = filterIds filterRecords ids := by
  have same : (filterRecords.filter fun f => decide (f ∈ filterIds filterRecords ids)) =
      filterRecords.filter fun f => decide (f ∈ ids) := by
    apply List.filter_congr
    intro f member
    have inBoth : f ∈ filterIds filterRecords ids ↔ f ∈ ids := by
      unfold filterIds
      rw [List.mem_mergeSort, List.mem_dedup, List.mem_filter, decide_eq_true_eq]
      exact and_iff_right member
    simp only [inBoth]
  conv_lhs => rw [filterIds, same]
  rfl

variable {toLower : QString → QString} {filterRecords : List QUuid}

omit [LinearOrder QUuid] in
/-- The channel of a split is found again from its descriptor. -/
theorem decodeChannel_describe (lower : LowerCase toLower) {split : SplitWidget QUuid} {server : TwitchIrcServer}
    (sound : server.Sound) (displayable : Displayable toLower server.watchingChannel split.channel)
    (plain : split.channel.getType = .twitch → split.channel.get.name.head? ≠ some (u '#')) (flexH flexV : ℚ) :
    (decodeChannel toLower (split.describe flexH flexV).toSplitDescriptor server).1 = split.channel ∧
      (decodeChannel toLower (split.describe flexH flexV).toSplitDescriptor server).2.Sound ∧
      (decodeChannel toLower (split.describe flexH flexV).toSplitDescriptor server).2.watchingChannel =
        server.watchingChannel := by
  obtain ⟨channel, moderationMode, filters⟩ := split
  unfold decodeChannel SplitWidget.describe
  cases displayable with
  | empty => exact ⟨rfl, sound, rfl⟩
  | watching => exact ⟨rfl, sound, rfl⟩
  | @given chan gave =>
    rcases gave.cases with custom | isTwitch
    · cases custom with
      | whispers => exact ⟨rfl, sound, rfl⟩
      | mentions => exact ⟨rfl, sound, rfl⟩
      | live => exact ⟨rfl, sound, rfl⟩
      | automod => exact ⟨rfl, sound, rfl⟩
      | timer known =>
        refine ⟨?_, sound, rfl⟩
        exact congrArg IndirectChannel.direct (TwitchIrcServer.timer_reopened lower known)
    · cases chan with
      | mk name type =>
        obtain rfl : type = .twitch := isTwitch
        have reopened := gave.reopened lower rfl (plain rfl) sound
        refine ⟨congrArg IndirectChannel.direct reopened, ?_, ?_⟩
        · exact sound.getOrAddChannel name
        · exact TwitchIrcServer.getOrAddChannel_watching name

variable {Split : Type} {widget : Split → SplitWidget QUuid}

def NewSplit.leaf (split : NewSplit QUuid) : SplitWidget.Leaf QUuid := split.toSplitWidget.leaf

/-- What holds behind the nodes that were made for some splits. -/
structure Applied (applying behind : Applying QUuid) (leaves : List (SplitWidget.Leaf QUuid)) : Prop where
  sound : behind.server.Sound
  watching : behind.server.watchingChannel = applying.server.watchingChannel
  splits : behind.splits.map NewSplit.leaf = applying.splits.map NewSplit.leaf ++ leaves

omit [LinearOrder QUuid] in
theorem Applied.trans {applying between behind : Applying QUuid} {first rest : List (SplitWidget.Leaf QUuid)}
    (before : Applied applying between first) (after : Applied between behind rest) :
    Applied applying behind (first ++ rest) where
  sound := after.sound
  watching := after.watching.trans before.watching
  splits := by rw [after.splits, before.splits, List.append_assoc]

theorem newSplit_leaf (lower : LowerCase toLower) {split : SplitWidget QUuid} {applying : Applying QUuid}
    (sound : applying.server.Sound) (kept : split.Kept toLower applying.server.watchingChannel filterRecords)
    (flexH flexV : ℚ) :
    (newSplit toLower filterRecords (split.describe flexH flexV).toSplitDescriptor applying).1.leaf = split.leaf ∧
      (newSplit toLower filterRecords (split.describe flexH flexV).toSplitDescriptor applying).2.Sound ∧
      (newSplit toLower filterRecords (split.describe flexH flexV).toSplitDescriptor applying).2.watchingChannel =
        applying.server.watchingChannel := by
  obtain ⟨channel, sound', watching⟩ :=
    decodeChannel_describe lower sound kept.displayable kept.plain flexH flexV
  refine ⟨?_, sound', watching⟩
  obtain ⟨ids, filters⟩ := kept.filters
  have again : filterIds filterRecords split.filters = split.filters := by
    rw [filters, filterIds_again]
  have made : (newSplit toLower filterRecords (split.describe flexH flexV).toSplitDescriptor applying).1.toSplitWidget =
      { channel := (decodeChannel toLower (split.describe flexH flexV).toSplitDescriptor applying.server).1
        moderationMode := split.moderationMode
        filters := filterIds filterRecords split.filters } := rfl
  rw [NewSplit.leaf, made, channel, again]

theorem applyItems_shape {children : List (Node Split)}
    (each : ∀ child ∈ children, ∀ base (applying : Applying QUuid), applying.server.Sound →
      (∀ split ∈ Node.leaves child, (widget split).Kept toLower applying.server.watchingChannel filterRecords) →
      Node.shape NewSplit.leaf (applyItem toLower filterRecords base (describe widget child) applying).1 =
          Node.shape (fun split => (widget split).leaf) child ∧
        Applied applying (applyItem toLower filterRecords base (describe widget child) applying).2
          ((Node.leaves child).map fun split => (widget split).leaf))
    (base : Nat) (applying : Applying QUuid) (sound : applying.server.Sound)
    (kept : ∀ split ∈ children.flatMap Node.leaves,
      (widget split).Kept toLower applying.server.watchingChannel filterRecords) :
    (applyItems toLower filterRecords base (children.map (describe widget)) applying).1.map
        (Node.shape NewSplit.leaf) =
        children.map (Node.shape fun split => (widget split).leaf) ∧
      Applied applying (applyItems toLower filterRecords base (children.map (describe widget)) applying).2
        ((children.flatMap Node.leaves).map fun split => (widget split).leaf) := by
  induction children generalizing applying with
  | nil => exact ⟨rfl, sound, rfl, (List.append_nil _).symm⟩
  | cons child children ih =>
    rw [List.forall_mem_cons] at each
    rw [List.flatMap_cons, List.forall_mem_append] at kept
    obtain ⟨first, made⟩ := each.1 base applying sound kept.1
    obtain ⟨rest, madeRest⟩ := ih each.2
      (applyItem toLower filterRecords base (describe widget child) applying).2 made.sound
      (made.watching.symm ▸ kept.2)
    rw [List.map_cons, applyItems]
    refine ⟨?_, ?_⟩
    · rw [List.map_cons, List.map_cons, first, rest]
    · rw [List.flatMap_cons, List.map_append]
      exact made.trans madeRest

/-- A node that is made for the descriptor of a node looks like it. -/
theorem applyItem_shape (lower : LowerCase toLower) {node : Node Split} {above : Nat}
    (placed : node.Placed (some above)) (base : Nat) (applying : Applying QUuid) (sound : applying.server.Sound)
    (kept : ∀ split ∈ node.leaves, (widget split).Kept toLower applying.server.watchingChannel filterRecords) :
    Node.shape NewSplit.leaf (applyItem toLower filterRecords base (describe widget node) applying).1 =
        node.shape (fun split => (widget split).leaf) ∧
      Applied applying (applyItem toLower filterRecords base (describe widget node) applying).2
        (node.leaves.map fun split => (widget split).leaf) := by
  induction node using RoseTree.induct generalizing above base applying with
  | node data children ih =>
    obtain ⟨⟨_, kind⟩, below⟩ := everywhere_node.mp placed
    rw [Node.leaves_node] at kept ⊢
    cases container : data.type.vertical? with
    | some isVertical =>
      have type := NodeType.vertical?_eq_some.mp container
      -- a container has no split of its own, and its items come one after the other
      have noLeaf : data.leaf? = none := by
        unfold NodeData.leaf?
        rw [type]
        cases isVertical <;> rfl
      have empty : data.split = none := by
        rw [type] at kind
        cases isVertical <;> exact kind.1
      rw [noLeaf] at kept ⊢
      obtain ⟨shapes, made⟩ := applyItems_shape (fun child member base applying sound kept =>
          ih child member (below child member) base applying sound kept)
        applying.nextNode { applying with nextNode := applying.nextNode + 1 } sound kept
      rw [describe_container widget container, applyItem]
      refine ⟨?_, made.sound, made.watching, made.splits⟩
      simp only
      rw [Node.shape_node, Node.shape_node, shapes]
      unfold NodeData.shape
      simp only [← type, empty, Option.map_none]
    | none =>
      cases type : data.type with
      | emptyRoot => exact absurd type kind.occupied
      | split =>
        rw [type] at kind
        obtain ⟨split, holds⟩ := Option.isSome_iff_exists.mp kind.1
        -- a split is a leaf of the tree
        have childless : children = [] := List.length_eq_zero_iff.mp kind.2
        subst childless
        have leaf : data.leaf? = some split := by
          unfold NodeData.leaf?
          rw [if_pos type, holds]
        rw [leaf] at kept ⊢
        obtain ⟨same, sound', watching⟩ := newSplit_leaf lower sound (kept split (by simp)) data.flexH data.flexV
        rw [describe_split widget type holds, applyItem]
        refine ⟨?_, sound', watching, ?_⟩
        · simp only
          rw [Node.shape_node, Node.shape_node]
          unfold NodeData.shape
          simp only [type, holds, Option.map_some, ← same]
          rfl
        · simp only [Option.toList_some, List.flatMap_nil, List.append_nil, List.map_cons, List.map_nil,
            List.map_append, ← same]
      | verticalContainer | horizontalContainer =>
        rw [type] at container
        cases container

/-! ## The whole tab -/

/-- A container that is filled from the descriptor of a tree looks like that tree, laid out once more. -/
theorem applyFromDescriptor_picture (lower : LowerCase toLower) {node : Node Split} (placed : node.Placed none)
    (occupied : node.value.type ≠ .emptyRoot) {server : TwitchIrcServer} (sound : server.Sound)
    (kept : ∀ split ∈ node.leaves, (widget split).Kept toLower server.watchingChannel filterRecords) :
    ∃ container after, applyFromDescriptor toLower filterRecords .empty (describe widget node) server =
        some (container, after) ∧
      container.baseNode.picture NewSplit.leaf = node.layout.picture (fun split => (widget split).leaf) ∧
      container.splits.map NewSplit.leaf = node.leaves.map fun split => (widget split).leaf := by
  cases node with
  | node data children =>
    obtain ⟨⟨_, kind⟩, below⟩ := everywhere_node.mp placed
    let applying : Applying QUuid := { server, splits := [], nextNode := 1 }
    cases container : data.type.vertical? with
    | some isVertical =>
      have type := NodeType.vertical?_eq_some.mp container
      have noLeaf : data.leaf? = none := by
        unfold NodeData.leaf?
        rw [type]
        cases isVertical <;> rfl
      have empty : data.split = none := by
        rw [type] at kind
        cases isVertical <;> exact kind.1
      rw [Node.leaves_node, noLeaf] at kept ⊢
      obtain ⟨shapes, made⟩ := applyItems_shape (fun child member base applying sound kept =>
        applyItem_shape lower (below child member) base applying sound kept) 0 applying sound kept
      rw [describe_container widget container]
      refine ⟨_, _, rfl, ?_, made.splits⟩
      -- The new tree looks like the old one, and is laid out.
      let built : Node (NewSplit QUuid) := .node
        { id := 0, type := if isVertical then .verticalContainer else .horizontalContainer, split := none,
          parent := none, flexH := 1, flexV := 1 }
        (applyItems toLower filterRecords 0 (children.map (describe widget)) applying).1
      have looks : built.picture NewSplit.leaf =
          Node.picture (fun split => (widget split).leaf) (.node data children) := by
        unfold Node.picture
        rw [value_node, value_node, children_node, children_node, shapes]
        unfold NodeData.shape
        simp only [type, empty, Option.map_none]
      show Node.picture NewSplit.leaf built.layout = _
      rw [← Node.layout_picture, looks, Node.layout_picture]
    | none =>
      cases type : data.type with
      | emptyRoot => exact absurd type occupied
      | split =>
        rw [type] at kind
        obtain ⟨split, holds⟩ := Option.isSome_iff_exists.mp kind.1
        have childless : children = [] := List.length_eq_zero_iff.mp kind.2
        subst childless
        have leaf : data.leaf? = some split := by
          unfold NodeData.leaf?
          rw [if_pos type, holds]
        rw [Node.leaves_node, leaf] at kept ⊢
        obtain ⟨same, _, _⟩ := @newSplit_leaf _ _ _ filterRecords lower _ applying sound (kept split (by simp)) data.flexH
          data.flexV
        rw [describe_split widget type holds, Node.layout_other container]
        refine ⟨_, _, rfl, ?_, ?_⟩
        · have looks : Node.picture (fun split => (widget split).leaf) (.node data []) =
              .node { id := 0, type := .split, split := some (widget split).leaf, parent := none,
                      flexH := 1, flexV := 1 } [] := by
            unfold Node.picture NodeData.shape
            simp only [value_node, children_node, type, holds, Option.map_some, List.map_nil]
          rw [List.map_nil, looks, ← same]
          rfl
        · rw [List.flatMap_nil, List.append_nil, Option.toList_some, List.map_cons, List.map_nil, ← same]
          rfl
      | verticalContainer | horizontalContainer =>
        rw [type] at container
        cases container

variable {toString : QUuid → QString} {fromString : QString → QUuid}

omit [LinearOrder QUuid] in
theorem empty_tree {leaf : Split → SplitWidget.Leaf QUuid} {node : Node Split} (placed : node.Placed none)
    (empty : node.value.type = .emptyRoot) :
    node.layout.picture leaf =
        Node.picture NewSplit.leaf (SplitContainer.empty : SplitContainer (NewSplit QUuid)).baseNode ∧
      node.leaves = [] := by
  cases node with
  | node data children =>
    rw [value_node] at empty
    obtain ⟨⟨_, kind⟩, _⟩ := everywhere_node.mp placed
    rw [empty] at kind
    have childless : children = [] := List.length_eq_zero_iff.mp kind.2.2
    subst childless
    constructor
    · rw [Node.layout_other (by rw [empty]; rfl)]
      unfold Node.picture NodeData.shape
      simp only [value_node, children_node, empty, kind.2.1, Option.map_none, List.map_nil]
      rfl
    · rw [Node.leaves_node, NodeData.leaf?, empty]
      rfl

/-- The tab that is opened from what was written of a tab. -/
theorem openTab_picture (lower : LowerCase toLower) (readable : ∀ id, fromString (toString id) = id)
    {server : TwitchIrcServer} (sound : server.Sound) {tab : Tab Split}
    (placed : Node.Placed none tab.container.baseNode)
    (kept : ∀ split ∈ tab.container.baseNode.leaves,
      (widget split).Kept toLower server.watchingChannel filterRecords) (isSelected : Bool) :
    ∃ obj rebuilt after, encodeTab toString widget tab isSelected [] = some obj ∧
      openTab toLower filterRecords (TabDescriptor.loadFromJSON fromString obj) server = some (rebuilt, after) ∧
      rebuilt.customTitle = tab.customTitle ∧ rebuilt.highlightsEnabled = tab.highlightsEnabled ∧
      rebuilt.container.baseNode.picture NewSplit.leaf =
        tab.container.baseNode.layout.picture (fun split => (widget split).leaf) ∧
      rebuilt.container.splits.map NewSplit.leaf =
        tab.container.baseNode.leaves.map fun split => (widget split).leaf := by
  obtain ⟨obj, encoded, loaded⟩ := @load_encodeTab _ _ toString fromString widget readable tab placed isSelected
  have title : (if tab.customTitle.isEmpty then [] else tab.customTitle) = tab.customTitle := by
    cases tab.customTitle <;> rfl
  refine ⟨obj, ?_⟩
  rw [loaded]
  unfold openTab describeRoot
  by_cases empty : tab.container.baseNode.value.type = .emptyRoot
  · rw [if_pos empty]
    obtain ⟨looks, leaves⟩ := @empty_tree _ _ (fun split => (widget split).leaf) _ placed empty
    refine ⟨_, _, encoded, rfl, title, rfl, looks.symm, ?_⟩
    rw [leaves]
    rfl
  · rw [if_neg empty]
    obtain ⟨container, after, applied, looks, splits⟩ :=
      applyFromDescriptor_picture lower placed empty sound kept
    let rebuilt : Tab (NewSplit QUuid) :=
      { customTitle := if tab.customTitle.isEmpty then [] else tab.customTitle
        highlightsEnabled := tab.highlightsEnabled
        container }
    refine ⟨rebuilt, after, encoded, ?_, title, rfl, looks, splits⟩
    simp only [applied]
    rfl

variable [DecidableEq Split]

end

/-! ## Tabs that are opened again -/

def asciiLower (s : QString) : QString := s.map fun c => if u 'A' ≤ c ∧ c ≤ u 'Z' then c + 32 else c

theorem lowerCase_asciiLower : LowerCase asciiLower where
  again s := by
    unfold asciiLower
    rw [List.map_map]
    apply List.map_congr_left
    intro c _
    simp only [Function.comp]
    by_cases upper : u 'A' ≤ c ∧ c ≤ u 'Z'
    · have first : (u 'A').toNat = 65 := rfl
      have last : (u 'Z').toNat = 90 := rfl
      have apart : (32 : UInt16).toNat = 32 := rfl
      have above : ¬ (u 'A' ≤ c + 32 ∧ c + 32 ≤ u 'Z') := by
        simp only [UInt16.le_iff_toNat_le, UInt16.toNat_add, first, last, apart] at upper ⊢
        omega
      rw [if_pos upper, if_neg above]
    · rw [if_neg upper, if_neg upper]
  ascii s plain := by
    unfold asciiLower
    conv_rhs => rw [← List.map_id s]
    exact List.map_congr_left fun c member => if_neg (plain c member).2

/-- An id, as that many strokes. -/
def strokes (id : Nat) : QString := List.replicate id (u 'i')

def twoWidgets (split : Nat) : SplitWidget Nat :=
  if split = 1 then ⟨.direct ⟨qs "a", .twitch⟩, true, []⟩ else ⟨.direct TwitchIrcServer.mentionsChannel, false, []⟩

def noChannels : TwitchIrcServer := ⟨[], Channel.getEmpty⟩

/-- Two splits beside each other, with the handle between them moved. -/
def twoSplits : SplitContainer Nat where
  baseNode := .node { id := 0, type := .horizontalContainer, split := none, parent := none, flexH := 1, flexV := 1 }
    [.node { id := 1, type := .split, split := some 1, parent := some 0, flexH := 1 / 2, flexV := 1 } [],
      .node { id := 2, type := .split, split := some 2, parent := some 0, flexH := 3 / 2, flexV := 1 } []]
  splits := [1, 2]
  disableLayouting := false
  nextNode := 3

theorem kept_twoWidgets (split : Nat) : (twoWidgets split).Kept asciiLower Channel.getEmpty [] := by
  unfold twoWidgets
  split
  · refine ⟨.given ⟨noChannels, qs "A", fun _ inside => (nomatch inside), rfl⟩, fun _ => by decide, ⟨[], by simp [filterIds]⟩⟩
  · refine ⟨.given ⟨noChannels, qs "/mentions", fun _ inside => (nomatch inside), rfl⟩, fun _ => by decide, ⟨[], by simp [filterIds]⟩⟩

/-- Two splits that a third one had pushed aside: their flexes add up to less than 2. -/
def squeezed : SplitContainer Nat where
  baseNode := .node { id := 0, type := .horizontalContainer, split := none, parent := none, flexH := 1, flexV := 1 }
    [.node { id := 1, type := .split, split := some 1, parent := some 0, flexH := 2499 / 25000, flexV := 1 } [],
      .node { id := 2, type := .split, split := some 2, parent := some 0, flexH := 0, flexV := 1 } []]
  splits := [1, 2]
  disableLayouting := false
  nextNode := 4

/-- Three splits beside each other, with these flexes. -/
def row (first second third : ℚ) : SplitContainer Nat where
  baseNode := .node { id := 0, type := .horizontalContainer, split := none, parent := none, flexH := 1, flexV := 1 }
    [.node { id := 1, type := .split, split := some 1, parent := some 0, flexH := first, flexV := 1 } [],
      .node { id := 2, type := .split, split := some 2, parent := some 0, flexH := second, flexV := 1 } [],
      .node { id := 3, type := .split, split := some 3, parent := some 0, flexH := third, flexV := 1 } []]
  splits := [1, 2, 3]
  disableLayouting := false
  nextNode := 4

theorem squeezed_reached :
    run SplitContainer.step .empty
      (([.insertSplit 1 ⟨none, none, none, none⟩, .insertSplit 2 ⟨none, none, none, none⟩,
        .insertSplit 3 ⟨none, none, none, none⟩] : List (Action Nat)) ++
        [.resize 2 false (1 / 1000), .resize 3 false (1 / 1000), .resize 2 false (1 / 1000), .resize 3 false 0,
        .releaseSplit 3]) = some squeezed := by
  have inserted : run SplitContainer.step .empty
      [.insertSplit 1 ⟨none, none, none, none⟩, .insertSplit 2 ⟨none, none, none, none⟩,
        .insertSplit 3 ⟨none, none, none, none⟩] = some (row 1 1 1) := by
    with_unfolding_all rfl
  have first : (row 1 1 1).step (.resize 2 false (1 / 1000)) = some (row (1 / 500) (999 / 500) 1) := by
    with_unfolding_all rfl
  have second : (row (1 / 500) (999 / 500) 1).step (.resize 3 false (1 / 1000)) =
      some (row (1 / 500) (1499 / 500000) (1497501 / 500000)) := by
    with_unfolding_all rfl
  have third : (row (1 / 500) (1499 / 500000) (1497501 / 500000)).step (.resize 2 false (1 / 1000)) =
      some (row (2499 / 500000000) (2496501 / 500000000) (1497501 / 500000)) := by
    with_unfolding_all rfl
  have fourth : (row (2499 / 500000000) (2496501 / 500000000) (1497501 / 500000)).step (.resize 3 false 0) =
      some (row (2499 / 500000000) 0 (1499997501 / 500000000)) := by
    with_unfolding_all rfl
  have released : (row (2499 / 500000000) 0 (1499997501 / 500000000)).step (.releaseSplit 3) = some squeezed := by
    with_unfolding_all rfl
  rw [run_concat, inserted, Option.bind_some]
  simp only [run, first, second, third, fourth, released, Option.bind_some]

/-- Two splits, the second of which was inserted to the left of the first. -/
def swapped : SplitContainer Nat where
  baseNode := .node { id := 0, type := .horizontalContainer, split := none, parent := none, flexH := 1, flexV := 1 }
    [.node { id := 2, type := .split, split := some 2, parent := some 0, flexH := 1, flexV := 1 } [],
      .node { id := 1, type := .split, split := some 1, parent := some 0, flexH := 1, flexV := 1 } []]
  splits := [1, 2]
  disableLayouting := false
  nextNode := 3

def hashWidget : SplitWidget Nat := ⟨.direct ⟨qs "#a", .twitch⟩, false, []⟩

theorem flexes_picture {Split Leaf : Type} (leaf : Split → Leaf) (node : Node Split) :
    (node.picture leaf).children.map (fun child => child.value.flexH) =
      node.children.map fun child => child.value.flexH := by
  unfold Node.picture
  rw [children_node, List.map_map]
  apply List.map_congr_left
  intro child _
  cases child
  simp only [Function.comp, Node.shape_node, value_node]
  rfl

end Forserino.Windows
