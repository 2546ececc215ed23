import Forserino.Foundation.Runs
import Forserino.Splits.Nodes
import Mathlib.Algebra.BigOperators.Ring.List
import Mathlib.Algebra.Order.BigOperators.Group.List
import Mathlib.Tactic.Linarith
import Mathlib.Tactic.Positivity

/-! Laying a tree out once more. Its flexes stay as they are unless the children of a
container have so small flexes that these are not scaled to the number of the children.
-/

set_option autoImplicit false

namespace Forserino.Splits

open Foundation RoseTree

variable {Split Leaf : Type}

/-- The direction of a container. -/
def NodeType.vertical? : NodeType → Option Bool
  | .verticalContainer => some true
  | .horizontalContainer => some false
  | .emptyRoot | .split => none

theorem NodeType.vertical?_eq_some {type : NodeType} {isVertical : Bool} :
    type.vertical? = some isVertical ↔ type = if isVertical then .verticalContainer else .horizontalContainer := by
  cases type <;> cases isVertical <;> decide

/-- What of a node does not depend on addresses, with something in the place of its split. -/
def NodeData.shape (leaf : Split → Leaf) (data : NodeData Split) : NodeData Leaf where
  id := 0
  type := data.type
  split := data.split.map leaf
  parent := none
  flexH := data.flexH
  flexV := data.flexV

namespace Node

def shape (leaf : Split → Leaf) (node : Node Split) : Node Leaf := node.map (NodeData.shape leaf)

theorem shape_node (leaf : Split → Leaf) (data : NodeData Split) (children : List (Node Split)) :
    shape leaf (.node data children) = .node (data.shape leaf) (children.map (shape leaf)) := map_node _ _ _

/-- The tree without the flexes of its root. -/
def picture (leaf : Split → Leaf) (node : Node Split) : Node Leaf :=
  .node { node.value.shape leaf with flexH := 1, flexV := 1 } (node.children.map (shape leaf))

/-- What laying out does to the children of a node, which have been laid out themselves. -/
def spreadChildren (vertical : Option Bool) (children : List (Node Split)) : List (Node Split) :=
  match vertical with
  | some isVertical => normalizeAll isVertical (children.map clamp)
  | none => children.map clamp

theorem layout_container {data : NodeData Split} {children : List (Node Split)} {isVertical : Bool}
    (container : data.type.vertical? = some isVertical) :
    layout (.node data children) = .node data (spreadChildren (some isVertical) (children.map layout)) := by
  rw [layout]
  cases type : data.type with
  | emptyRoot | split =>
    rw [type] at container
    cases container
  | verticalContainer | horizontalContainer =>
    rw [type] at container
    obtain rfl := Option.some.inj container
    simp only [spreadChildren, layoutAll_eq]

theorem layout_other {data : NodeData Split} {children : List (Node Split)}
    (other : data.type.vertical? = none) :
    layout (.node data children) = .node data (children.map clamp) := by
  rw [layout]
  cases type : data.type with
  | emptyRoot | split => rfl
  | verticalContainer | horizontalContainer =>
    rw [type] at other
    cases other

@[simp] theorem value_layout (node : Node Split) : node.layout.value = node.value := by
  cases node with
  | node data children =>
    cases container : data.type.vertical? with
    | none => rw [layout_other container]; rfl
    | some isVertical => rw [layout_container container]; rfl

/-! ## Shapes -/

theorem clamp_shape (leaf : Split → Leaf) (node : Node Split) :
    (node.shape leaf).clamp = node.clamp.shape leaf := by
  cases node
  rw [shape_node, clamp, clamp, shape_node]
  rfl

theorem getFlex_shape (leaf : Split → Leaf) (isVertical : Bool) (node : Node Split) :
    getFlex isVertical (node.shape leaf) = getFlex isVertical node := by
  cases node
  rw [shape_node]
  rfl

theorem totalFlex_shape (leaf : Split → Leaf) (isVertical : Bool) (children : List (Node Split)) :
    getChildrensTotalFlex isVertical (children.map (shape leaf)) = getChildrensTotalFlex isVertical children := by
  unfold getChildrensTotalFlex
  rw [List.map_map]
  congr 2
  funext node
  exact getFlex_shape leaf isVertical node

theorem normalize_shape (leaf : Split → Leaf) (isVertical : Bool) (totalFlex : ℚ) (siblings : Nat)
    (node : Node Split) :
    normalize isVertical totalFlex siblings (node.shape leaf) =
      (normalize isVertical totalFlex siblings node).shape leaf := by
  unfold normalize
  rw [getFlex_shape]
  cases node
  rw [shape_node, shape_node]
  cases isVertical <;> rfl

theorem normalizeAll_shape (leaf : Split → Leaf) (isVertical : Bool) (children : List (Node Split)) :
    normalizeAll isVertical (children.map (shape leaf)) = (normalizeAll isVertical children).map (shape leaf) := by
  unfold normalizeAll
  rw [totalFlex_shape, List.length_map, List.map_map, List.map_map]
  exact List.map_congr_left fun node _ => normalize_shape leaf isVertical _ _ node

theorem spreadChildren_shape (leaf : Split → Leaf) (vertical : Option Bool) (children : List (Node Split)) :
    spreadChildren vertical (children.map (shape leaf)) = (spreadChildren vertical children).map (shape leaf) := by
  have clamped : (children.map (shape leaf)).map clamp = (children.map clamp).map (shape leaf) := by
    rw [List.map_map, List.map_map]
    exact List.map_congr_left fun node _ => clamp_shape leaf node
  unfold spreadChildren
  rw [clamped]
  cases vertical with
  | none => rfl
  | some isVertical => exact normalizeAll_shape leaf isVertical _

theorem layout_shape (leaf : Split → Leaf) (node : Node Split) :
    (node.shape leaf).layout = node.layout.shape leaf := by
  induction node using RoseTree.induct with
  | node data children ih =>
    have below : (children.map (shape leaf)).map layout = (children.map layout).map (shape leaf) := by
      rw [List.map_map, List.map_map]
      exact List.map_congr_left ih
    have type : (data.shape leaf).type = data.type := rfl
    rw [shape_node]
    cases container : data.type.vertical? with
    | none =>
      rw [layout_other (type ▸ container), layout_other container, shape_node]
      exact congrArg _ (spreadChildren_shape leaf none children)
    | some isVertical =>
      rw [layout_container (type ▸ container), layout_container container, shape_node, below,
        spreadChildren_shape]

/-- Laying out does not depend on the flexes of the root. -/
theorem layout_picture (leaf : Split → Leaf) (node : Node Split) :
    (node.picture leaf).layout = node.layout.picture leaf := by
  cases node with
  | node data children =>
    have below : (children.map (shape leaf)).map layout = (children.map layout).map (shape leaf) := by
      rw [List.map_map, List.map_map]
      exact List.map_congr_left fun child _ => layout_shape leaf child
    have type : ({ data.shape leaf with flexH := 1, flexV := 1 } : NodeData Leaf).type = data.type := rfl
    unfold picture
    rw [value_layout, value_node, children_node]
    cases container : data.type.vertical? with
    | none =>
      rw [layout_other (type ▸ container), layout_other container]
      exact congrArg _ (spreadChildren_shape leaf none children)
    | some isVertical =>
      rw [layout_container (type ▸ container), layout_container container, below, spreadChildren_shape]
      rfl

/-! ## Trees that have been laid out -/

/-- The children of every node have flexes as laying out leaves them. -/
inductive LaidOut : Node Split → Prop where
  | node {data : NodeData Split} {children : List (Node Split)}
      (positive : ∀ child ∈ children, 0 ≤ child.value.flexH ∧ 0 ≤ child.value.flexV)
      (across : ∀ isVertical, data.type.vertical? = some isVertical →
        ∀ child ∈ children, getFlex (!isVertical) child = 1)
      (below : ∀ isVertical, data.type.vertical? = some isVertical → ∀ child ∈ children, LaidOut child) : LaidOut (.node data children)

/-- The flexes in every container add up to the number of its children, or there are none. -/
inductive Spread : Node Split → Prop where
  | node {data : NodeData Split} {children : List (Node Split)}
      (total : ∀ isVertical, data.type.vertical? = some isVertical →
        getChildrensTotalFlex isVertical children = children.length ∨ getChildrensTotalFlex isVertical children = 0)
      (below : ∀ isVertical, data.type.vertical? = some isVertical → ∀ child ∈ children, Spread child) : Spread (.node data children)

theorem LaidOut.replaceData {data other : NodeData Split} {children : List (Node Split)}
    (laidOut : LaidOut (.node data children)) (same : other.type = data.type) : LaidOut (.node other children) := by
  cases laidOut with
  | node positive across below => exact .node positive (same ▸ across) (same ▸ below)

@[simp] theorem children_clamp (node : Node Split) : node.clamp.children = node.children := rfl

@[simp] theorem type_clamp (node : Node Split) : node.clamp.value.type = node.value.type := rfl

@[simp] theorem children_normalize (isVertical : Bool) (totalFlex : ℚ) (siblings : Nat) (node : Node Split) :
    (normalize isVertical totalFlex siblings node).children = node.children := rfl

@[simp] theorem type_normalize (isVertical : Bool) (totalFlex : ℚ) (siblings : Nat) (node : Node Split) :
    (normalize isVertical totalFlex siblings node).value.type = node.value.type := by
  cases isVertical <;> rfl

theorem clamp_nonneg (node : Node Split) : 0 ≤ node.clamp.value.flexH ∧ 0 ≤ node.clamp.value.flexV :=
  ⟨le_max_left 0 _, le_max_left 0 _⟩

theorem getFlex_nonneg {node : Node Split} (positive : 0 ≤ node.value.flexH ∧ 0 ≤ node.value.flexV)
    (isVertical : Bool) : 0 ≤ getFlex isVertical node := by
  cases isVertical
  · exact positive.1
  · exact positive.2

theorem normalize_nonneg {node : Node Split} (positive : 0 ≤ node.value.flexH ∧ 0 ≤ node.value.flexV)
    (isVertical : Bool) {totalFlex : ℚ} (some_ : 0 < totalFlex) (siblings : Nat) :
    0 ≤ (normalize isVertical totalFlex siblings node).value.flexH ∧
      0 ≤ (normalize isVertical totalFlex siblings node).value.flexV := by
  have flex := getFlex_nonneg positive isVertical
  have scaled : 0 ≤ getFlex isVertical node / totalFlex * siblings := by positivity
  cases isVertical
  · exact ⟨scaled, zero_le_one⟩
  · exact ⟨zero_le_one, scaled⟩

theorem totalFlex_pos (total : ℚ) : 0 < max (1 / 10000) total :=
  lt_of_lt_of_le (by norm_num) (le_max_left _ _)

theorem layout_laidOut (node : Node Split) : node.layout.LaidOut := by
  induction node using RoseTree.induct with
  | node data children ih =>
    cases container : data.type.vertical? with
    | none =>
      rw [layout_other container]
      constructor
      case positive =>
        intro child inside
        obtain ⟨old, _, rfl⟩ := List.mem_map.mp inside
        exact clamp_nonneg old
      case across =>
        intro isVertical same
        rw [container] at same
        cases same
      case below =>
        intro isVertical same
        rw [container] at same
        cases same
    | some isVertical =>
      rw [layout_container container]
      constructor
      case positive =>
        intro child inside
        simp only [spreadChildren, normalizeAll, List.map_map, List.mem_map] at inside
        obtain ⟨old, _, rfl⟩ := inside
        exact normalize_nonneg (clamp_nonneg old.layout) isVertical (totalFlex_pos _) _
      case across =>
        intro other same child inside
        obtain rfl := Option.some.inj (same.symm.trans container)
        simp only [spreadChildren, normalizeAll, List.map_map, List.mem_map] at inside
        obtain ⟨old, _, rfl⟩ := inside
        cases other <;> rfl
      case below =>
        intro _ _ child inside
        simp only [spreadChildren, normalizeAll, List.map_map, List.mem_map] at inside
        obtain ⟨old, member, rfl⟩ := inside
        have laidOut := ih old member
        rw [← eta old.layout] at laidOut
        exact laidOut.replaceData (type_normalize isVertical _ _ old.layout.clamp)

/-! ## Laying out once more -/

theorem clamp_eq_self {node : Node Split} (positive : 0 ≤ node.value.flexH ∧ 0 ≤ node.value.flexV) :
    node.clamp = node := by
  cases node with
  | node data children =>
    have horizontal : max 0 data.flexH = data.flexH := max_eq_right positive.1
    have vertical : max 0 data.flexV = data.flexV := max_eq_right positive.2
    simp only [clamp, value_node, children_node, horizontal, vertical]

theorem map_clamp_eq_self {children : List (Node Split)}
    (positive : ∀ child ∈ children, 0 ≤ child.value.flexH ∧ 0 ≤ child.value.flexV) :
    children.map clamp = children := by
  conv_rhs => rw [← List.map_id children]
  exact List.map_congr_left fun child member => clamp_eq_self (positive child member)

theorem totalFlex_nonneg {isVertical : Bool} {children : List (Node Split)}
    (positive : ∀ child ∈ children, 0 ≤ child.value.flexH ∧ 0 ≤ child.value.flexV) :
    0 ≤ getChildrensTotalFlex isVertical children := by
  apply List.sum_nonneg
  intro flex inside
  obtain ⟨child, member, rfl⟩ := List.mem_map.mp inside
  exact getFlex_nonneg (positive child member) isVertical

/-- A flex is what it was when it is scaled to the number of the children again. -/
theorem normalize_eq_self {isVertical : Bool} {node : Node Split} {totalFlex : ℚ} {siblings : Nat}
    (across : getFlex (!isVertical) node = 1) :
    normalize isVertical totalFlex siblings node = node ↔
      getFlex isVertical node / totalFlex * siblings = getFlex isVertical node := by
  cases node with
  | node data children =>
    cases isVertical with
    | false =>
      have other : data.flexV = 1 := across
      constructor
      · intro same
        have values := congrArg (fun node : Node Split => node.value.flexH) same
        exact values
      · intro same
        have flex : data.flexH / totalFlex * siblings = data.flexH := same
        unfold normalize
        simp only [getFlex, Bool.false_eq_true, if_false, value_node, children_node, flex, ← other]
    | true =>
      have other : data.flexH = 1 := across
      constructor
      · intro same
        have values := congrArg (fun node : Node Split => node.value.flexV) same
        exact values
      · intro same
        have flex : data.flexV / totalFlex * siblings = data.flexV := same
        unfold normalize
        simp only [getFlex, if_true, value_node, children_node, flex, ← other]

/-- All flexes stay exactly if they add up to the number of the children or to nothing. -/
theorem flexes_stay {isVertical : Bool} {children : List (Node Split)}
    (positive : ∀ child ∈ children, 0 ≤ child.value.flexH ∧ 0 ≤ child.value.flexV) :
    (∀ child ∈ children,
      getFlex isVertical child / max (1 / 10000) (getChildrensTotalFlex isVertical children) * children.length =
        getFlex isVertical child) ↔
      getChildrensTotalFlex isVertical children = children.length ∨
        getChildrensTotalFlex isVertical children = 0 := by
  have guarded := totalFlex_pos (getChildrensTotalFlex isVertical children)
  constructor
  · intro stay
    -- The sum of the scaled flexes is the scaled sum.
    have scaled : getChildrensTotalFlex isVertical children *
        (children.length / max (1 / 10000) (getChildrensTotalFlex isVertical children)) =
          getChildrensTotalFlex isVertical children := by
      generalize max (1 / 10000) (getChildrensTotalFlex isVertical children) = totalFlex at stay
      unfold getChildrensTotalFlex
      rw [← List.sum_map_mul_right]
      congr 1
      apply List.map_congr_left
      intro child member
      rw [← mul_div_assoc, mul_div_right_comm]
      exact stay child member
    rcases (@totalFlex_nonneg _ isVertical _ positive).eq_or_lt with none_ | some_
    · exact .inr none_.symm
    · left
      have ratio : (children.length : ℚ) / max (1 / 10000) (getChildrensTotalFlex isVertical children) = 1 := by
        apply mul_left_cancel₀ some_.ne'
        rw [scaled, mul_one]
      have length := (div_eq_one_iff_eq guarded.ne').mp ratio
      have several : (1 : ℚ) ≤ children.length := by
        have nonempty : children ≠ [] := by
          rintro rfl
          exact lt_irrefl _ some_
        exact_mod_cast List.length_pos_iff.mpr nonempty
      rcases max_choice (1 / 10000) (getChildrensTotalFlex isVertical children) with small | large
      · rw [length, small] at several
        exact absurd several (by norm_num)
      · rw [length, large]
  · intro total child member
    rcases total with length | nothing
    · have several : (1 : ℚ) ≤ children.length := by
        exact_mod_cast List.length_pos_of_mem member
      have same : max (1 / 10000) (children.length : ℚ) = children.length := by
        apply max_eq_right
        linarith
      rw [length, same]
      exact div_mul_cancel₀ _ (by linarith)
    · have few : getFlex isVertical child ≤ 0 := by
        rw [← nothing]
        apply List.single_le_sum _ _ (List.mem_map_of_mem member)
        intro flex inside
        obtain ⟨other, member', rfl⟩ := List.mem_map.mp inside
        exact getFlex_nonneg (positive other member') isVertical
      have none_ : getFlex isVertical child = 0 :=
        le_antisymm few (getFlex_nonneg (positive child member) isVertical)
      rw [none_, zero_div, zero_mul]

theorem totalFlex_layout (isVertical : Bool) (children : List (Node Split)) :
    getChildrensTotalFlex isVertical (children.map layout) = getChildrensTotalFlex isVertical children := by
  unfold getChildrensTotalFlex
  rw [List.map_map]
  congr 1
  apply List.map_congr_left
  intro child _
  simp [getFlex]

theorem layout_eq_self {node : Node Split} (laidOut : node.LaidOut) : node.layout = node ↔ node.Spread := by
  induction node using RoseTree.induct with
  | node data children ih =>
    cases laidOut with
    | node positive across below =>
      have clamped := map_clamp_eq_self positive
      cases container : data.type.vertical? with
      | none =>
        rw [layout_other container, clamped]
        simp only [true_iff]
        constructor
        case total =>
          intro isVertical same
          rw [container] at same
          cases same
        case below =>
          intro isVertical same
          rw [container] at same
          cases same
      | some isVertical =>
        have positive_ : ∀ child ∈ children.map layout, 0 ≤ child.value.flexH ∧ 0 ≤ child.value.flexV := by
          intro child inside
          obtain ⟨old, member, rfl⟩ := List.mem_map.mp inside
          rw [value_layout]
          exact positive old member
        rw [layout_container container, spreadChildren, map_clamp_eq_self positive_]
        constructor
        · intro same
          have spread := congrArg RoseTree.children same
          rw [children_node, children_node, normalizeAll, totalFlex_layout, List.length_map, List.map_map] at spread
          -- the layout of every child is the child itself, before and behind the normalization
          have each : ∀ child ∈ children, normalize isVertical
              (max (1 / 10000) (getChildrensTotalFlex isVertical children)) children.length (layout child) = child := by
            conv_rhs at spread => rw [← List.map_id children]
            exact List.map_inj_left.mp spread
          have stays (child : Node Split) (member : child ∈ children) : child.layout = child := by
            have children_ := congrArg RoseTree.children (each child member)
            rw [children_normalize] at children_
            rw [← eta child.layout, children_, value_layout, eta]
          constructor
          case total =>
            intro other sameContainer
            obtain rfl := Option.some.inj (sameContainer.symm.trans container)
            apply (flexes_stay positive).mp
            intro child member
            apply (normalize_eq_self (across other container child member)).mp
            have normal := each child member
            rw [stays child member] at normal
            exact normal
          case below =>
            intro other _ child member
            exact (ih child member (below isVertical container child member)).mp (stays child member)
        · intro spread
          cases spread with
          | node total spreadBelow =>
            -- the children stay by induction, and their flexes are normal already
            have same : children.map layout = children := by
              conv_rhs => rw [← List.map_id children]
              exact List.map_congr_left fun child member =>
                (ih child member (below isVertical container child member)).mpr
                  (spreadBelow isVertical container child member)
            rw [same]
            congr 1
            conv_rhs => rw [← List.map_id children]
            apply List.map_congr_left
            intro child member
            apply (normalize_eq_self (across isVertical container child member)).mpr
            exact (flexes_stay positive).mpr (total isVertical container) child member

theorem laidOut_shape (leaf : Split → Leaf) {node : Node Split} (laidOut : node.LaidOut) : (node.shape leaf).LaidOut := by
  induction laidOut with
  | @node data children positive across below ih =>
    rw [shape_node]
    constructor
    case positive =>
      intro child inside
      obtain ⟨old, member, rfl⟩ := List.mem_map.mp inside
      have oldPositive := positive old member
      cases old with
      | node data children =>
        rw [value_node] at oldPositive
        rw [shape_node, value_node]
        exact oldPositive
    case across =>
      intro isVertical container child inside
      obtain ⟨old, member, rfl⟩ := List.mem_map.mp inside
      rw [getFlex_shape]
      exact across isVertical container old member
    case below =>
      intro isVertical container child inside
      obtain ⟨old, member, rfl⟩ := List.mem_map.mp inside
      exact ih isVertical container old member

theorem spread_shape (leaf : Split → Leaf) (node : Node Split) : (node.shape leaf).Spread ↔ node.Spread := by
  induction node using RoseTree.induct with
  | node data children ih =>
    rw [shape_node]
    constructor
    · intro spread
      cases spread with
      | node total below =>
        constructor
        case total =>
          intro isVertical container
          have whole := total isVertical container
          rwa [totalFlex_shape, List.length_map] at whole
        case below =>
          intro isVertical container child member
          exact (ih child member).mp (below isVertical container _ (List.mem_map_of_mem member))
    · intro spread
      cases spread with
      | node total below =>
        constructor
        case total =>
          intro isVertical container
          rw [totalFlex_shape, List.length_map]
          exact total isVertical container
        case below =>
          intro isVertical container child inside
          obtain ⟨old, member, rfl⟩ := List.mem_map.mp inside
          exact (ih old member).mpr (below isVertical container old member)

theorem Spread.replaceData {data other : NodeData Split} {children : List (Node Split)}
    (spread : Spread (.node data children)) (same : other.type = data.type) : Spread (.node other children) := by
  cases spread with
  | node total below => exact .node (same ▸ total) (same ▸ below)

/-- A tree that has been laid out looks the same when it is laid out again exactly if its flexes are
spread over all containers. -/
theorem picture_layout (leaf : Split → Leaf) {node : Node Split} (laidOut : node.LaidOut) :
    node.layout.picture leaf = node.picture leaf ↔ node.Spread := by
  have shaped := laidOut_shape leaf laidOut
  have same := spread_shape leaf node
  rw [← layout_picture]
  cases node with
  | node data children =>
    rw [shape_node] at shaped same
    have pictured : LaidOut (picture leaf (.node data children)) := shaped.replaceData rfl
    rw [layout_eq_self pictured, ← same]
    exact ⟨fun spread => spread.replaceData rfl, fun spread => spread.replaceData rfl⟩

end Node

/-! ## Every tree is laid out -/

namespace SplitContainer

variable {container next : SplitContainer Split} {split : Split} {direction : SplitDirection} {this : Nat}

theorem setSplit_layouting (taken : container.setSplit this split = some next) :
    next.disableLayouting = container.disableLayouting := by
  simp only [setSplit, Option.bind_eq_bind, Option.pure_def, Option.bind_eq_some_iff] at taken
  obtain ⟨_, _, _, _, same⟩ := taken
  exact Option.some.inj same ▸ rfl

theorem insertNextToThis_layouting (taken : container.insertNextToThis this split direction = some next) :
    next.disableLayouting = container.disableLayouting := by
  simp only [insertNextToThis, Option.bind_eq_bind, Option.pure_def, Option.bind_eq_some_iff] at taken
  obtain ⟨_, _, _, _, _, _, _, _, same⟩ := taken
  exact Option.some.inj same ▸ rfl

theorem nestSplitIntoCollection_layouting
    (taken : container.nestSplitIntoCollection this split direction = some next) :
    next.disableLayouting = container.disableLayouting := by
  simp only [nestSplitIntoCollection, Option.bind_eq_bind, Option.pure_def, Option.bind_eq_some_iff] at taken
  obtain ⟨node, _, grown⟩ := taken
  split at grown
  · exact Option.some.inj grown ▸ rfl
  · have kept := insertNextToThis_layouting grown
    exact kept

theorem insertSplitRelative_layouting (taken : container.insertSplitRelative this split direction = some next) :
    next.disableLayouting = container.disableLayouting := by
  simp only [insertSplitRelative, Option.bind_eq_bind, Option.bind_eq_some_iff] at taken
  obtain ⟨node, _, grown⟩ := taken
  split at grown
  · split at grown
    · exact setSplit_layouting grown
    · exact nestSplitIntoCollection_layouting grown
    · exact nestSplitIntoCollection_layouting grown
    · exact nestSplitIntoCollection_layouting grown
  · obtain ⟨parent, _, grown⟩ := Option.bind_eq_some_iff.mp grown
    split at grown
    · exact insertNextToThis_layouting grown
    · exact nestSplitIntoCollection_layouting grown

theorem insertNode_layouting {relativeTo : Option Nat}
    (taken : container.insertNode relativeTo split direction = some next) :
    next.disableLayouting = container.disableLayouting := by
  unfold insertNode at taken
  simp only at taken
  split at taken
  · split at taken
    · exact setSplit_layouting taken
    · exact nestSplitIntoCollection_layouting taken
    · exact insertSplitRelative_layouting taken
    · exact insertSplitRelative_layouting taken
  · simp only [Option.bind_eq_bind, Option.bind_eq_some_iff] at taken
    obtain ⟨_, _, grown⟩ := taken
    exact insertSplitRelative_layouting grown

theorem releaseNode_layouting {position : Position} (taken : container.releaseNode this = some (position, next)) :
    next.disableLayouting = container.disableLayouting := by
  simp only [releaseNode, Option.bind_eq_bind, Option.pure_def, Option.bind_eq_some_iff] at taken
  obtain ⟨node, _, _, _, released⟩ := taken
  split at released
  · exact (Prod.mk.inj (Option.some.inj released)).2 ▸ rfl
  · obtain ⟨parent, _, it, _, released⟩ : ∃ parent, _ ∧ ∃ it, _ ∧ _ := by
      simpa only [Option.bind_eq_some_iff] using released
    split at released
    · obtain ⟨sibling, _, released⟩ := Option.bind_eq_some_iff.mp released
      exact (Prod.mk.inj (Option.some.inj released)).2 ▸ rfl
    · obtain ⟨_, _, released⟩ := Option.bind_eq_some_iff.mp released
      exact (Prod.mk.inj (Option.some.inj released)).2 ▸ rfl

/-- A container that is laid out at every change, and has been. -/
structure UpToDate (container : SplitContainer Split) : Prop where
  enabled : container.disableLayouting = false
  laidOut : container.baseNode.LaidOut

theorem layout_upToDate (enabled : container.disableLayouting = false) : container.layout.UpToDate := by
  have switched : container.layout = { container with baseNode := container.baseNode.layout } := by
    rw [layout, enabled]
    rfl
  rw [switched]
  exact ⟨enabled, Node.layout_laidOut _⟩

theorem UpToDate.step [DecidableEq Split] (upToDate : container.UpToDate) {action : Action Split}
    (taken : container.step action = some next) : next.UpToDate := by
  have enabled := upToDate.enabled
  cases action with
  | insertSplit split options =>
    simp only [SplitContainer.step, insertSplit, Option.bind_eq_bind, Option.pure_def,
      Option.bind_eq_some_iff] at taken
    obtain ⟨_, _, grown, inserted, same⟩ := taken
    obtain rfl := Option.some.inj same
    exact layout_upToDate ((insertNode_layouting inserted).trans enabled)
  | releaseSplit split =>
    obtain ⟨⟨position, after⟩, released, rfl⟩ := Option.map_eq_some_iff.mp taken
    simp only [releaseSplit, Option.bind_eq_bind, Option.pure_def, Option.bind_eq_some_iff] at released
    obtain ⟨_, _, _, _, ⟨position', between⟩, released, same⟩ := released
    obtain ⟨_, rfl⟩ := Prod.mk.inj (Option.some.inj same)
    exact layout_upToDate ((releaseNode_layouting released).trans enabled)
  | resize node vertical ratio =>
    simp only [SplitContainer.step, resize, Option.bind_eq_bind, Option.pure_def,
      Option.bind_eq_some_iff] at taken
    obtain ⟨_, _, _, _, _, _, _, _, _, _, _, _, same⟩ := taken
    obtain rfl := Option.some.inj same
    exact layout_upToDate enabled
  | resetFlex node =>
    simp only [SplitContainer.step, resetFlex, Option.bind_eq_bind, Option.pure_def,
      Option.bind_eq_some_iff] at taken
    obtain ⟨_, _, _, _, _, _, same⟩ := taken
    obtain rfl := Option.some.inj same
    exact layout_upToDate enabled
  | layout =>
    obtain rfl := Option.some.inj taken
    exact layout_upToDate enabled

theorem upToDate_empty : (empty : SplitContainer Split).UpToDate := by
  refine ⟨rfl, .node ?_ ?_ ?_⟩
  · exact fun _ inside => nomatch inside
  · exact fun _ container => nomatch container
  · exact fun _ container => nomatch container

end SplitContainer

end Forserino.Splits
