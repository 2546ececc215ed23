import Forserino.Foundation.RoseTree
import Mathlib.Algebra.Order.Field.Rat

/-! The tree of nodes of a split container, and the operations that insert, release and
resize splits in it.

A node is known by its address. The parent of a node is a raw pointer, so it is followed
by looking that address up; an operation that would follow a dangling pointer, or whose
assertion fails, has no result.
-/

set_option autoImplicit false

namespace Forserino.Splits

open Foundation

inductive SplitDirection where
  | left
  | above
  | right
  | below
  deriving DecidableEq, Repr

inductive NodeType where
  | emptyRoot
  | split
  | verticalContainer
  | horizontalContainer
  deriving DecidableEq, Repr

/-- What a node has besides its children. -/
structure NodeData (Split : Type) where
  id : Nat
  type : NodeType
  split : Option Split
  parent : Option Nat
  flexH : ℚ
  flexV : ℚ
  deriving DecidableEq, Repr

abbrev Node (Split : Type) := RoseTree (NodeData Split)

def toContainerType : SplitDirection → NodeType
  | .left | .right => .horizontalContainer
  | .above | .below => .verticalContainer

structure Position where
  relativeNode : Option Nat
  direction : SplitDirection
  deriving DecidableEq, Repr

structure InsertOptions (Split : Type) where
  position : Option Position
  relativeSplit : Option Split
  relativeNode : Option Nat
  direction : Option SplitDirection

/-- The container; `nextNode` is the address that the next new node gets. -/
structure SplitContainer (Split : Type) where
  baseNode : Node Split
  splits : List Split
  disableLayouting : Bool
  nextNode : Nat

variable {Split : Type}

/-- A new node that holds a split. -/
def Node.ofSplit (id : Nat) (split : Split) (parent : Nat) : Node Split :=
  .node { id, type := .split, split := some split, parent := some parent, flexH := 1, flexV := 1 } []

def Node.setParent (parent : Nat) (node : Node Split) : Node Split :=
  .node { node.value with parent := some parent } node.children

/-- Keep the flexes of a node from being below 0. -/
def Node.clamp (node : Node Split) : Node Split :=
  .node { node.value with flexH := max 0 node.value.flexH, flexV := max 0 node.value.flexV } node.children

def Node.getFlex (isVertical : Bool) (node : Node Split) : ℚ :=
  if isVertical then node.value.flexV else node.value.flexH

def Node.setFlex (isVertical : Bool) (flex : ℚ) (node : Node Split) : Node Split :=
  .node (if isVertical then { node.value with flexV := flex } else { node.value with flexH := flex }) node.children

def Node.getChildrensTotalFlex (isVertical : Bool) (children : List (Node Split)) : ℚ :=
  (children.map (Node.getFlex isVertical)).sum

/-- The flexes that a child gets when the container above it is laid out. -/
def Node.normalize (isVertical : Bool) (totalFlex : ℚ) (siblings : Nat) (node : Node Split) : Node Split :=
  let flex := node.getFlex isVertical / totalFlex * siblings
  .node (if isVertical then { node.value with flexH := 1, flexV := flex } else
    { node.value with flexH := flex, flexV := 1 }) node.children

/-- Give the children of a container their flexes. -/
def Node.normalizeAll (isVertical : Bool) (children : List (Node Split)) : List (Node Split) :=
  let totalFlex := max (1 / 10000) (Node.getChildrensTotalFlex isVertical children)
  children.map (Node.normalize isVertical totalFlex children.length)

mutual
/-- Lay the node out, as far as flexes are concerned. What is done below a child does not
touch the flexes of the child itself. -/
def Node.layout : Node Split → Node Split
  | .node data children =>
    match data.type with
    | .emptyRoot | .split => .node data (children.map Node.clamp)
    | .verticalContainer => .node data (Node.normalizeAll true ((Node.layoutAll children).map Node.clamp))
    | .horizontalContainer => .node data (Node.normalizeAll false ((Node.layoutAll children).map Node.clamp))

def Node.layoutAll : List (Node Split) → List (Node Split)
  | [] => []
  | child :: children => child.layout :: Node.layoutAll children
end

namespace SplitContainer

/-- A container before anything is inserted. -/
def empty : SplitContainer Split where
  baseNode := .node { id := 0, type := .emptyRoot, split := none, parent := none, flexH := 1, flexV := 1 } []
  splits := []
  disableLayouting := false
  nextNode := 1

/-- The node at an address. -/
def node? (container : SplitContainer Split) (this : Nat) : Option (Node Split) :=
  container.baseNode.find? fun data => data.id == this

/-- Write the node at an address. -/
def assign (container : SplitContainer Split) (this : Nat) (node : Node Split) : SplitContainer Split :=
  { container with baseNode := container.baseNode.replace (fun data => data.id == this) node }

def layout (container : SplitContainer Split) : SplitContainer Split :=
  if container.disableLayouting then container else { container with baseNode := container.baseNode.layout }

def setSplit (container : SplitContainer Split) (this : Nat) (split : Split) : Option (SplitContainer Split) := do
  let node ← container.node? this
  guard (node.value.split.isNone ∧ node.children.isEmpty)
  return container.assign this (.node { node.value with split := some split, type := .split } node.children)

def insertNextToThis (container : SplitContainer Split) (this : Nat) (split : Split) (direction : SplitDirection) :
    Option (SplitContainer Split) := do
  let node ← container.node? this
  let parentId ← node.value.parent
  let parent ← container.node? parentId
  let it ← parent.children.findIdx? fun sibling => sibling.value.id == this
  let it := if direction = .right ∨ direction = .below then it + 1 else it
  let new := Node.ofSplit container.nextNode split parentId
  let next := container.assign parentId (.node parent.value (parent.children.insertIdx it new))
  return { next with nextNode := container.nextNode + 1 }

def nestSplitIntoCollection (container : SplitContainer Split) (this : Nat) (split : Split)
    (direction : SplitDirection) : Option (SplitContainer Split) := do
  let node ← container.node? this
  if toContainerType direction = node.value.type then
    let new := Node.ofSplit container.nextNode split this
    let next := container.assign this (.node node.value (node.children ++ [new]))
    return { next with nextNode := container.nextNode + 1 }
  else
    -- move all data into a new node
    let cloneId := container.nextNode
    let clone : Node Split := .node
      { id := cloneId, type := node.value.type, split := node.value.split, parent := some this,
        flexH := 1, flexV := 1 }
      (node.children.map (Node.setParent cloneId))
    let next := container.assign this
      (.node { node.value with type := toContainerType direction, split := none } [clone])
    insertNextToThis { next with nextNode := container.nextNode + 1 } cloneId split direction

def insertSplitRelative (container : SplitContainer Split) (this : Nat) (split : Split)
    (direction : SplitDirection) : Option (SplitContainer Split) := do
  let node ← container.node? this
  match node.value.parent with
  | none =>
    match node.value.type with
    | .emptyRoot => container.setSplit this split
    | .split | .horizontalContainer | .verticalContainer => container.nestSplitIntoCollection this split direction
  | some parentId =>
    let parent ← container.node? parentId
    if parent.value.type = toContainerType direction then
      container.insertNextToThis this split direction
    else
      container.nestSplitIntoCollection this split direction

/-- The side of the other child that the child at `it` is on, in a container of two. -/
def sideOf (parent : Node Split) (it : Nat) : SplitDirection :=
  if parent.value.type = .verticalContainer then
    if it = 0 then .above else .below
  else
    if it = 0 then .left else .right

/-- Where a released split was, if it was the child at `it` in a container of more than two. -/
def positionBeside (parent : Node Split) (it : Nat) : Option Position := do
  if it + 1 = parent.children.length then
    let last ← (parent.children.eraseIdx it).getLast?
    return ⟨some last.value.id, if parent.value.type = .verticalContainer then .below else .right⟩
  else
    let next ← parent.children[it + 1]?
    return ⟨some next.value.id, if parent.value.type = .verticalContainer then .above else .left⟩

/-- `Node::releaseSplit` -/
def releaseNode (container : SplitContainer Split) (this : Nat) : Option (Position × SplitContainer Split) := do
  let node ← container.node? this
  guard (node.value.type = .split)
  match node.value.parent with
  | none =>
    let next := container.assign this (.node { node.value with type := .emptyRoot, split := none } node.children)
    return (⟨none, .right⟩, next)
  | some parentId =>
    let parent ← container.node? parentId
    let it ← parent.children.findIdx? fun sibling => sibling.value.id == this
    if parent.children.length = 2 then
      -- the sibling moves into the parent
      let sibling ← (parent.children.eraseIdx it).head?
      let next := container.assign parentId
        (.node { parent.value with type := sibling.value.type, split := sibling.value.split }
          (sibling.children.map (Node.setParent parentId)))
      return (⟨some parentId, sideOf parent it⟩, next)
    else
      let position ← positionBeside parent it
      return (position, container.assign parentId (.node parent.value (parent.children.eraseIdx it)))

/-- A resize handle is moved to the given part of the way over the node and the one before it. -/
def resize (container : SplitContainer Split) (this : Nat) (vertical : Bool) (ratio : ℚ) :
    Option (SplitContainer Split) := do
  let node ← container.node? this
  let parentId ← node.value.parent
  let parent ← container.node? parentId
  let it ← parent.children.findIdx? fun sibling => sibling.value.id == this
  guard (0 < it)
  let before ← parent.children[it - 1]?
  let total := Node.getFlex vertical node + Node.getFlex vertical before
  let children := parent.children.set (it - 1) (Node.setFlex vertical (total * ratio) before)
  let children := children.set it (Node.setFlex vertical (total - total * ratio) node)
  return (container.assign parentId (.node parent.value children)).layout

/-- A double click on a resize handle. -/
def resetFlex (container : SplitContainer Split) (this : Nat) : Option (SplitContainer Split) := do
  let node ← container.node? this
  let parentId ← node.value.parent
  let parent ← container.node? parentId
  let children := parent.children.map fun sibling =>
    RoseTree.node { sibling.value with flexH := 1, flexV := 1 } sibling.children
  return (container.assign parentId (.node parent.value children)).layout

/-- Put a new node for the split into the tree, relative to a node or to the whole tree. -/
def insertNode (container : SplitContainer Split) (relativeTo : Option Nat) (split : Split)
    (direction : SplitDirection) : Option (SplitContainer Split) :=
  let base := container.baseNode.value
  match relativeTo with
  | none =>
    match base.type with
    | .emptyRoot => container.setSplit base.id split
    | .split => container.nestSplitIntoCollection base.id split direction
    | .verticalContainer | .horizontalContainer => container.insertSplitRelative base.id split direction
  | some this => do
    guard (container.node? this).isSome
    container.insertSplitRelative this split direction

def addSplit (container : SplitContainer Split) (split : Split) : SplitContainer Split :=
  { container with splits := container.splits ++ [split] }.layout

variable [DecidableEq Split]

def findNodeContainingSplit (container : SplitContainer Split) (split : Split) : Option (Node Split) :=
  container.baseNode.find? fun data => data.type = .split ∧ data.split = some split

/-- The relative node that a position or a relative split stands for, and the direction. -/
def resolve (container : SplitContainer Split) (options : InsertOptions Split) :
    Option (Option Nat × Option SplitDirection) := do
  let options ← match options.position with
    | some position => do
      guard (options.relativeSplit.isNone ∧ options.relativeNode.isNone ∧ options.direction.isNone)
      pure { options with relativeNode := position.relativeNode, direction := some position.direction }
    | none => pure options
  match options.relativeSplit with
  | some relativeSplit =>
    guard options.relativeNode.isNone
    let node ← container.findNodeContainingSplit relativeSplit
    return (some node.value.id, options.direction)
  | none => return (options.relativeNode, options.direction)

def insertSplit (container : SplitContainer Split) (split : Split) (options : InsertOptions Split) :
    Option (SplitContainer Split) := do
  let (relativeTo, direction) ← container.resolve options
  let next ← container.insertNode relativeTo split (direction.getD .right)
  return next.addSplit split

def releaseSplit (container : SplitContainer Split) (split : Split) :
    Option (Position × SplitContainer Split) := do
  let node ← container.findNodeContainingSplit split
  guard (split ∈ container.splits)
  let (position, next) ← { container with splits := container.splits.erase split }.releaseNode node.value.id
  return (position, next.layout)

end SplitContainer

/-- What happens to a container. -/
inductive Action (Split : Type) where
  | insertSplit (split : Split) (options : InsertOptions Split)
  | releaseSplit (split : Split)
  | resize (node : Nat) (vertical : Bool) (ratio : ℚ)
  | resetFlex (node : Nat)
  | layout

def SplitContainer.step [DecidableEq Split] (container : SplitContainer Split) :
    Action Split → Option (SplitContainer Split)
  | .insertSplit split options => container.insertSplit split options
  | .releaseSplit split => (container.releaseSplit split).map Prod.snd
  | .resize node vertical ratio => container.resize node vertical ratio
  | .resetFlex node => container.resetFlex node
  | .layout => some container.layout

end Forserino.Splits
