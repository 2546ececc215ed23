import Forserino.Splits.SplitContainer

/-! The well formed trees of nodes, and the ways in which a node takes in a split or loses one.
-/

set_option autoImplicit false

namespace Forserino.Splits

open Foundation RoseTree

variable {Split : Type}

/-- The split of a node that is a leaf. -/
def NodeData.leaf? (data : NodeData Split) : Option Split := if data.type = .split then data.split else none

def Node.leaves (node : Node Split) : List Split := node.values.filterMap NodeData.leaf?

def Node.ids (node : Node Split) : List Nat := node.values.map NodeData.id

/-- What a node of a type holds, below the node at an address or as the root. -/
def Fits (above : Option Nat) (type : NodeType) (split : Option Split) (children : Nat) : Prop :=
  match type with
  | .emptyRoot => above = none ∧ split = none ∧ children = 0
  | .split => split.isSome ∧ children = 0
  | .verticalContainer | .horizontalContainer => split = none ∧ 2 ≤ children

theorem Fits.move {above other : Option Nat} {type : NodeType} {split : Option Split} {children : Nat}
    (fits : Fits above type split children) (occupied : type ≠ .emptyRoot) : Fits other type split children := by
  cases type with
  | emptyRoot => exact absurd rfl occupied
  | split | verticalContainer | horizontalContainer => exact fits

theorem Fits.occupied {above : Nat} {type : NodeType} {split : Option Split} {children : Nat}
    (fits : Fits (some above) type split children) : type ≠ .emptyRoot := by
  rintro rfl
  exact Option.some_ne_none above fits.1

/-- A node with children is a container of at least two. -/
theorem Fits.container {above : Option Nat} {type : NodeType} {split : Option Split} {children : Nat}
    (fits : Fits above type split (children + 1)) :
    (type = .verticalContainer ∨ type = .horizontalContainer) ∧ 1 ≤ children := by
  cases type with
  | emptyRoot => exact absurd fits.2.2 (Nat.succ_ne_zero _)
  | split => exact absurd fits.2 (Nat.succ_ne_zero _)
  | verticalContainer => exact ⟨.inl rfl, Nat.le_of_succ_le_succ fits.2⟩
  | horizontalContainer => exact ⟨.inr rfl, Nat.le_of_succ_le_succ fits.2⟩

/-- What holds of a node by the address of the node above it and the number of its children. -/
def WellPlaced (above : Option Nat) (data : NodeData Split) (children : Nat) : Prop :=
  data.parent = above ∧ Fits above data.type data.split children

abbrev Node.Placed (above : Option Nat) (node : Node Split) : Prop := Everywhere NodeData.id WellPlaced above node

/-- A node took in a split, and the new nodes have addresses from `next` on. -/
structure Node.Grown (next upTo : Nat) (split : Split) (node new : Node Split) : Prop where
  placed : ∀ {above}, node.Placed above → new.Placed above
  ids : ∃ gained : List Nat, new.ids.Perm (gained ++ node.ids) ∧ gained.Nodup ∧ ∀ id ∈ gained, next ≤ id ∧ id < upTo
  leaves : new.leaves.Perm ([split] ++ node.leaves)

/-- A node below the node at an address lost a split. -/
structure Node.Shrunk (above : Option Nat) (split : Split) (node new : Node Split) : Prop where
  placed : node.Placed above → new.Placed above
  ids : ∃ lost : List Nat, node.ids.Perm (lost ++ new.ids)
  leaves : node.leaves.Perm ([split] ++ new.leaves)

namespace Node

@[simp] theorem ids_node (data : NodeData Split) (children : List (Node Split)) :
    Node.ids (.node data children) = data.id :: children.flatMap Node.ids := by
  rw [ids, values_node, List.map_cons, List.map_flatMap]
  rfl

@[simp] theorem leaves_node (data : NodeData Split) (children : List (Node Split)) :
    Node.leaves (.node data children) = data.leaf?.toList ++ children.flatMap Node.leaves := by
  rw [leaves, values_node, List.filterMap_cons, List.filterMap_flatMap]
  cases data.leaf? <;> rfl

@[simp] theorem ids_setParent (parent : Nat) (node : Node Split) : (node.setParent parent).ids = node.ids := by
  cases node
  simp [setParent]

@[simp] theorem leaves_setParent (parent : Nat) (node : Node Split) :
    (node.setParent parent).leaves = node.leaves := by
  cases node
  simp [setParent, NodeData.leaf?]

theorem flatMap_ids_setParent (parent : Nat) (children : List (Node Split)) :
    (children.map (setParent parent)).flatMap Node.ids = children.flatMap Node.ids := by
  simp [List.flatMap_map]

theorem flatMap_leaves_setParent (parent : Nat) (children : List (Node Split)) :
    (children.map (setParent parent)).flatMap Node.leaves = children.flatMap Node.leaves := by
  simp [List.flatMap_map]

theorem Placed.setParent {above : Nat} {node : Node Split} (parent : Nat) (placed : node.Placed (some above)) :
    (node.setParent parent).Placed (some parent) := by
  cases node with
  | node data children =>
    obtain ⟨here, below⟩ := everywhere_node.mp placed
    exact everywhere_node.mpr ⟨⟨rfl, here.2.move here.2.occupied⟩, below⟩

theorem ids_plug (surroundings : List (Frame (NodeData Split))) (node : Node Split) :
    (Node.ids (plug surroundings node)).Perm (node.ids ++ (outerValues surroundings).map NodeData.id) := by
  have values := (values_plug surroundings node).map NodeData.id
  rwa [List.map_append] at values

/-- Addresses that a node gains are gained by the tree. -/
theorem ids_replug {surroundings : List (Frame (NodeData Split))} {node new : Node Split} {gained : List Nat}
    (ids : new.ids.Perm (gained ++ node.ids)) :
    (Node.ids (plug surroundings new)).Perm (gained ++ Node.ids (plug surroundings node)) := by
  have grown := (ids_plug surroundings new).trans (ids.append_right _)
  rw [List.append_assoc] at grown
  exact grown.trans ((ids_plug surroundings node).symm.append_left gained)

theorem leaves_plug (surroundings : List (Frame (NodeData Split))) (node : Node Split) :
    (Node.leaves (plug surroundings node)).Perm
      (node.leaves ++ (outerValues surroundings).filterMap NodeData.leaf?) := by
  have values := (values_plug surroundings node).filterMap NodeData.leaf?
  rwa [List.filterMap_append] at values

theorem leaves_replug {surroundings : List (Frame (NodeData Split))} {node new : Node Split} {gained : List Split}
    (leaves : new.leaves.Perm (gained ++ node.leaves)) :
    (Node.leaves (plug surroundings new)).Perm (gained ++ Node.leaves (plug surroundings node)) := by
  have grown := (leaves_plug surroundings new).trans (leaves.append_right _)
  rw [List.append_assoc] at grown
  exact grown.trans ((leaves_plug surroundings node).symm.append_left gained)

/-- Nothing in the surroundings of a node has its address. -/
theorem others_differ {surroundings : List (Frame (NodeData Split))} {node : Node Split}
    (distinct : Node.ids (plug surroundings node) |>.Nodup) :
    ∀ data ∈ outerValues surroundings, (data.id == node.value.id) = false := by
  have apart := (List.nodup_append.mp ((ids_plug surroundings node).nodup_iff.mp distinct)).2.2
  intro data outside
  have own : node.value.id ∈ node.ids := List.mem_map_of_mem (value_mem_values node)
  exact beq_false_of_ne (apart _ own _ (List.mem_map_of_mem outside)).symm

theorem findIdx_child {data : NodeData Split} {front back : List (Node Split)} {node : Node Split}
    (distinct : Node.ids (.node data (front ++ node :: back)) |>.Nodup) :
    (front ++ node :: back).findIdx? (fun sibling => sibling.value.id == node.value.id) = some front.length := by
  have differ : ∀ other ∈ outerValues [⟨data, front, back⟩], (other.id == node.value.id) = false :=
    others_differ distinct
  rw [List.findIdx?_append, List.findIdx?_eq_none_iff.mpr, Option.none_or]
  · simp [List.findIdx?_cons]
  · intro sibling inside
    apply differ
    simp only [outerValues, List.flatMap_cons, List.flatMap_nil, List.append_nil, List.mem_cons, List.mem_append]
    exact .inr (.inl (List.mem_flatMap.mpr ⟨sibling, inside, value_mem_values sibling⟩))

/-- A node and a new one next to it. -/
def beside (direction : SplitDirection) (node new : Node Split) : List (Node Split) :=
  if direction = .right ∨ direction = .below then [node, new] else [new, node]

theorem beside_perm (direction : SplitDirection) (node new : Node Split) :
    (beside direction node new).Perm [new, node] := by
  unfold beside
  split
  · exact .swap new node []
  · exact .refl _

theorem insertIdx_beside (direction : SplitDirection) (front back : List (Node Split)) (node new : Node Split) :
    (front ++ node :: back).insertIdx
      (if direction = .right ∨ direction = .below then front.length + 1 else front.length) new =
        front ++ (beside direction node new ++ back) := by
  induction front with
  | nil =>
    unfold beside
    split <;> rfl
  | cons first front ih =>
    rw [List.cons_append, List.cons_append, ← ih]
    split <;> rfl

theorem eraseIdx_child (front back : List (Node Split)) (node : Node Split) :
    (front ++ node :: back).eraseIdx front.length = front ++ back := by
  induction front with
  | nil => rfl
  | cons first front ih => exact congrArg (first :: ·) ih

/-- The node that takes over the data of a node which becomes a container. -/
def cloneOf (id : Nat) (node : Node Split) : Node Split :=
  .node { id, type := node.value.type, split := node.value.split, parent := some node.value.id,
          flexH := 1, flexV := 1 }
    (node.children.map (Node.setParent id))

theorem ids_cloneOf (id : Nat) (node : Node Split) : (cloneOf id node).ids = id :: node.children.flatMap Node.ids := by
  rw [cloneOf, ids_node, flatMap_ids_setParent]

theorem leaves_cloneOf (id : Nat) (node : Node Split) : (cloneOf id node).leaves = node.leaves := by
  cases node
  rw [cloneOf, leaves_node, flatMap_leaves_setParent, leaves_node]
  rfl

theorem placed_ofSplit (id : Nat) (split : Split) (parent : Nat) : (ofSplit id split parent).Placed (some parent) :=
  everywhere_node.mpr ⟨⟨rfl, rfl, rfl⟩, fun _ inside => absurd inside List.not_mem_nil⟩

@[simp] theorem ids_ofSplit (id : Nat) (split : Split) (parent : Nat) : (ofSplit id split parent).ids = [id] := by
  simp [ofSplit]

@[simp] theorem leaves_ofSplit (id : Nat) (split : Split) (parent : Nat) :
    (ofSplit id split parent).leaves = [split] := by
  simp [ofSplit, NodeData.leaf?]

theorem wellPlaced_container {above : Option Nat} {data : NodeData Split} {children : Nat}
    {direction : SplitDirection} (type : toContainerType direction = data.type) :
    WellPlaced above data children ↔ data.parent = above ∧ data.split = none ∧ 2 ≤ children := by
  unfold WellPlaced Fits
  rw [← type]
  cases direction <;> rfl

/-- A container with one more child. -/
theorem grown_child {next : Nat} {split : Split} {direction : SplitDirection} {data : NodeData Split}
    {children grown : List (Node Split)} (type : toContainerType direction = data.type)
    (more : grown.Perm (ofSplit next split data.id :: children)) :
    Grown next (next + 1) split (.node data children) (.node data grown) where
  placed placed := by
    obtain ⟨here, below⟩ := everywhere_node.mp placed
    obtain ⟨pointer, empty, enough⟩ := (wellPlaced_container type).mp here
    apply everywhere_node.mpr
    constructor
    · rw [wellPlaced_container type, more.length_eq]
      exact ⟨pointer, empty, Nat.le_succ_of_le enough⟩
    · intro child inside
      rcases List.mem_cons.mp (more.mem_iff.mp inside) with rfl | inside
      · exact placed_ofSplit next split data.id
      · exact below child inside
  ids := by
    refine ⟨[next], ?_, by simp, by simp⟩
    have ids := more.flatMap_right Node.ids
    rw [List.flatMap_cons, ids_ofSplit] at ids
    rw [ids_node, ids_node]
    exact (ids.cons data.id).trans (.swap next data.id _)
  leaves := by
    have leaves := more.flatMap_right Node.leaves
    rw [List.flatMap_cons, leaves_ofSplit] at leaves
    rw [leaves_node, leaves_node]
    exact (leaves.append_left _).trans (List.perm_append_comm_assoc _ _ _)

/-- A node that becomes a container of its old self and the split. -/
theorem grown_nested {next : Nat} {split : Split} (direction : SplitDirection) {node : Node Split}
    (occupied : node.value.type ≠ .emptyRoot) :
    Grown next (next + 2) split node (.node { node.value with type := toContainerType direction, split := none }
      (beside direction (cloneOf next node)
        (ofSplit (next + 1) split node.value.id))) where
  placed placed := by
    have pair := beside_perm direction (cloneOf next node)
      (ofSplit (next + 1) split node.value.id)
    cases node with
    | node data children =>
      obtain ⟨⟨pointer, kind⟩, below⟩ := everywhere_node.mp placed
      apply everywhere_node.mpr
      constructor
      · rw [wellPlaced_container rfl, pair.length_eq]
        exact ⟨pointer, rfl, le_rfl⟩
      · intro child inside
        rcases List.mem_pair.mp (pair.mem_iff.mp inside) with rfl | rfl
        · exact placed_ofSplit (next + 1) split data.id
        · apply everywhere_node.mpr
          constructor
          · rw [List.length_map]
            exact ⟨rfl, kind.move occupied⟩
          · intro moved inside
            obtain ⟨child, member, rfl⟩ := List.mem_map.mp inside
            exact Placed.setParent next (below child member)
  ids := by
    refine ⟨[next + 1, next], ?_, by simp, by simp⟩
    have ids := (beside_perm direction (cloneOf next node)
      (ofSplit (next + 1) split node.value.id)).flatMap_right Node.ids
    simp only [List.flatMap_cons, List.flatMap_nil, List.append_nil, ids_ofSplit, ids_cloneOf] at ids
    rw [ids_node]
    cases node with
    | node data children =>
      rw [ids_node]
      exact (ids.cons data.id).trans ((List.Perm.swap _ _ _).trans ((List.Perm.swap _ _ _).cons _))
  leaves := by
    have leaves := (beside_perm direction (cloneOf next node)
      (ofSplit (next + 1) split node.value.id)).flatMap_right Node.leaves
    simp only [List.flatMap_cons, List.flatMap_nil, List.append_nil, leaves_ofSplit,
      leaves_cloneOf] at leaves
    have container : NodeData.leaf? { node.value with type := toContainerType direction, split := (none : Option Split) } =
        none := by
      unfold NodeData.leaf?
      cases direction <;> rfl
    rw [leaves_node, container]
    exact leaves

/-- The empty root gets its first split. -/
theorem grown_root {next : Nat} {split : Split} {data : NodeData Split} {children : List (Node Split)}
    (type : data.type = .emptyRoot) :
    Grown next next split (.node data children)
      (.node { data with split := some split, type := .split } children) where
  placed placed := by
    obtain ⟨⟨pointer, kind⟩, below⟩ := everywhere_node.mp placed
    rw [type] at kind
    exact everywhere_node.mpr ⟨⟨pointer, rfl, kind.2.2⟩, below⟩
  ids := ⟨[], by simp, by simp, by simp⟩
  leaves := by simp [NodeData.leaf?, type]

/-- A container with one child less, but still two. -/
theorem shrunk_child {above : Option Nat} {split : Split} {data : NodeData Split} {child : Node Split}
    {children shrunk : List (Node Split)} (less : children.Perm (child :: shrunk)) (leaf : child.leaves = [split])
    (enough : 2 ≤ shrunk.length) : Shrunk above split (.node data children) (.node data shrunk) where
  placed placed := by
    obtain ⟨⟨pointer, kind⟩, below⟩ := everywhere_node.mp placed
    rw [less.length_eq, List.length_cons] at kind
    apply everywhere_node.mpr
    refine ⟨⟨pointer, ?_⟩, fun other inside => below other (less.mem_iff.mpr (List.mem_cons_of_mem _ inside))⟩
    cases type : data.type with
    | emptyRoot | split =>
      rw [type] at kind
      exact absurd kind.2 (by simp)
    | verticalContainer | horizontalContainer =>
      rw [type] at kind
      exact ⟨kind.1, enough⟩
  ids := by
    refine ⟨child.ids, ?_⟩
    have ids := less.flatMap_right Node.ids
    rw [List.flatMap_cons] at ids
    rw [ids_node, ids_node]
    exact (ids.cons data.id).trans List.perm_middle.symm
  leaves := by
    have leaves := less.flatMap_right Node.leaves
    rw [List.flatMap_cons, leaf] at leaves
    rw [leaves_node, leaves_node]
    exact (leaves.append_left _).trans (List.perm_append_comm_assoc _ _ _)

/-- A container of two that gives its place to the child which is left. -/
theorem shrunk_merged {above : Option Nat} {split : Split} {data : NodeData Split} {child sibling : Node Split}
    {children : List (Node Split)} (pair : children.Perm [child, sibling]) (leaf : child.leaves = [split])
    (container : data.leaf? = none) :
    Shrunk above split (.node data children)
      (.node { data with type := sibling.value.type, split := sibling.value.split }
        (sibling.children.map (setParent data.id))) where
  placed placed := by
    obtain ⟨⟨pointer, _⟩, below⟩ := everywhere_node.mp placed
    have left := below sibling (pair.mem_iff.mpr (by simp))
    cases sibling with
    | node inner grandchildren =>
      obtain ⟨⟨_, kind⟩, under⟩ := everywhere_node.mp left
      apply everywhere_node.mpr
      constructor
      · rw [List.length_map]
        exact ⟨pointer, kind.move kind.occupied⟩
      · intro moved inside
        obtain ⟨grandchild, member, rfl⟩ := List.mem_map.mp inside
        exact Placed.setParent data.id (under grandchild member)
  ids := by
    have ids := pair.flatMap_right Node.ids
    refine ⟨child.ids ++ [sibling.value.id], ?_⟩
    cases sibling with
    | node inner grandchildren =>
      simp only [List.flatMap_cons, List.flatMap_nil, List.append_nil, ids_node] at ids
      rw [ids_node, ids_node, children_node, flatMap_ids_setParent, List.append_assoc]
      exact (ids.cons data.id).trans (List.perm_middle.symm.trans ((List.Perm.swap _ _ _).append_left _))
  leaves := by
    have leaves := pair.flatMap_right Node.leaves
    cases sibling with
    | node inner grandchildren =>
      simp only [List.flatMap_cons, List.flatMap_nil, List.append_nil, leaves_node, leaf] at leaves
      rw [leaves_node, leaves_node, children_node, flatMap_leaves_setParent, container]
      exact leaves

/-- The root loses its only split. -/
theorem shrunk_root {split : Split} {data : NodeData Split} {children : List (Node Split)}
    (type : data.type = .split) (holds : data.split = some split) :
    Shrunk none split (.node data children)
      (.node { data with type := .emptyRoot, split := none } children) where
  placed placed := by
    obtain ⟨⟨pointer, kind⟩, below⟩ := everywhere_node.mp placed
    rw [type] at kind
    exact everywhere_node.mpr ⟨⟨pointer, rfl, rfl, kind.2⟩, below⟩
  ids := ⟨[], by simp⟩
  leaves := by simp [NodeData.leaf?, type, holds]

end Node

/-- A node without its flexes. -/
def NodeData.outline (data : NodeData Split) : NodeData Split := { data with flexH := 0, flexV := 0 }

namespace Node

/-- The tree without its flexes. -/
def outline (node : Node Split) : Node Split := node.map NodeData.outline

theorem outline_node (data : NodeData Split) (children : List (Node Split)) :
    outline (.node data children) = .node data.outline (children.map outline) := map_node _ _ _

@[simp] theorem ids_outline (node : Node Split) : node.outline.ids = node.ids := by
  rw [ids, outline, values_map, List.map_map]
  rfl

@[simp] theorem leaves_outline (node : Node Split) : node.outline.leaves = node.leaves := by
  rw [leaves, outline, values_map, List.filterMap_map]
  rfl

theorem placed_outline {above : Option Nat} {node : Node Split} : node.outline.Placed above ↔ node.Placed above :=
  everywhere_map (f := NodeData.outline) (fun _ => rfl) fun _ _ _ => Iff.rfl

theorem map_outline_congr {f : Node Split → Node Split} (keeps : ∀ node, (f node).outline = node.outline)
    (children : List (Node Split)) : (children.map f).map outline = children.map outline := by
  rw [List.map_map]
  exact List.map_congr_left fun child _ => keeps child

theorem map_outline_set {children : List (Node Split)} {it : Nat} {child new : Node Split}
    (held : children[it]? = some child) (same : new.outline = child.outline) :
    (children.set it new).map outline = children.map outline := by
  obtain ⟨inside, rfl⟩ := List.getElem?_eq_some_iff.mp held
  rw [List.map_set, same, ← List.getElem_map outline, List.set_getElem_self]
  rw [List.length_map]
  exact inside

theorem outline_clamp (node : Node Split) : node.clamp.outline = node.outline := by
  cases node
  simp [clamp, outline_node, NodeData.outline]

theorem outline_setFlex (isVertical : Bool) (flex : ℚ) (node : Node Split) :
    (node.setFlex isVertical flex).outline = node.outline := by
  cases node
  cases isVertical <;> simp [setFlex, outline_node, NodeData.outline]

theorem map_outline_normalizeAll (isVertical : Bool) (children : List (Node Split)) :
    (normalizeAll isVertical children).map outline = children.map outline := by
  apply map_outline_congr
  intro node
  cases node
  cases isVertical <;> simp [normalize, outline_node, NodeData.outline]

theorem layoutAll_eq (children : List (Node Split)) : layoutAll children = children.map layout := by
  induction children with
  | nil => rfl
  | cons child children ih => rw [layoutAll, ih, List.map_cons]

theorem outline_layout (node : Node Split) : node.layout.outline = node.outline := by
  induction node using RoseTree.induct with
  | node data children ih =>
    have below : (layoutAll children).map outline = children.map outline := by
      rw [layoutAll_eq, List.map_map]
      exact List.map_congr_left ih
    unfold layout
    split <;> simp only [outline_node, map_outline_normalizeAll, map_outline_congr outline_clamp, below]

theorem outline_plug {surroundings : List (Frame (NodeData Split))} {node new : Node Split}
    (same : new.outline = node.outline) : Node.outline (plug surroundings new) = Node.outline (plug surroundings node) := by
  induction surroundings generalizing node new with
  | nil => exact same
  | cons frame surroundings ih =>
    apply ih
    simp only [Frame.fill, outline_node, List.map_append, List.map_cons, same]

end Node

end Forserino.Splits
