import Forserino.Foundation.Runs
import Forserino.Splits.Nodes

/-! The tree of a split container stays well formed: its leaves are the splits of the
container, every parent pointer points to the parent, and a container has at least two
children, so that a released split always has a sibling to leave its place to.
-/

set_option autoImplicit false

namespace Forserino.Splits

open Foundation RoseTree

variable {Split : Type}

/-- The invariant of a container. -/
structure SplitContainer.Sound (container : SplitContainer Split) : Prop where
  placed : Node.Placed none container.baseNode
  distinct : container.baseNode.ids.Nodup
  allocated : ∀ id ∈ container.baseNode.ids, id < container.nextNode
  members : container.baseNode.leaves.Perm container.splits

namespace SplitContainer

variable {container : SplitContainer Split} {surroundings : List (Frame (NodeData Split))}
  {frame : Frame (NodeData Split)} {node : Node Split}

theorem node?_eq_some {this : Nat} (found : container.node? this = some node) :
    node.value.id = this ∧ ∃ surroundings, container.baseNode = plug surroundings node := by
  obtain ⟨same, located⟩ := find?_eq_some found
  exact ⟨eq_of_beq same, located⟩

theorem node?_plug (located : container.baseNode = plug surroundings node)
    (distinct : container.baseNode.ids.Nodup) : container.node? node.value.id = some node := by
  rw [located] at distinct
  rw [node?, located]
  exact find?_plug (beq_self_eq_true _) (Node.others_differ distinct)

theorem assign_plug (located : container.baseNode = plug surroundings node)
    (distinct : container.baseNode.ids.Nodup) (new : Node Split) :
    container.assign node.value.id new = { container with baseNode := plug surroundings new } := by
  rw [located] at distinct
  have replaced : (plug surroundings node).replace (fun data => data.id == node.value.id) new =
      plug surroundings new := replace_plug (beq_self_eq_true _) (Node.others_differ distinct)
  rw [assign, located, replaced]

/-- What following the parent pointer of a node leads to. -/
theorem parent_plug (located : container.baseNode = plug (frame :: surroundings) node)
    (distinct : container.baseNode.ids.Nodup) :
    container.node? frame.value.id = some (frame.fill node) ∧
      (frame.front ++ node :: frame.back).findIdx? (fun sibling => sibling.value.id == node.value.id) =
        some frame.front.length ∧
      ∀ new, container.assign frame.value.id new = { container with baseNode := plug surroundings new } := by
  have parent : container.baseNode = plug surroundings (frame.fill node) := located
  refine ⟨node?_plug parent distinct, ?_, assign_plug parent distinct⟩
  rw [parent] at distinct
  have inner := (List.nodup_append.mp ((Node.ids_plug surroundings _).nodup_iff.mp distinct)).1
  exact Node.findIdx_child inner

theorem insertNextToThis_plug (located : container.baseNode = plug (frame :: surroundings) node)
    (distinct : container.baseNode.ids.Nodup) (pointer : node.value.parent = some frame.value.id)
    (split : Split) (direction : SplitDirection) :
    container.insertNextToThis node.value.id split direction = some
      { container with
        baseNode := plug surroundings (.node frame.value (frame.front ++
          (Node.beside direction node (Node.ofSplit container.nextNode split frame.value.id) ++ frame.back)))
        nextNode := container.nextNode + 1 } := by
  obtain ⟨parent, index, written⟩ := parent_plug located distinct
  rw [insertNextToThis, node?_plug located distinct]
  simp only [Option.bind_eq_bind, Option.bind_some, pointer, parent, Frame.fill, children_node, value_node, index,
    written, Option.pure_def]
  rw [Node.insertIdx_beside]

theorem nestSplitIntoCollection_same (located : container.baseNode = plug surroundings node)
    (distinct : container.baseNode.ids.Nodup) (split : Split) (direction : SplitDirection)
    (same : toContainerType direction = node.value.type) :
    container.nestSplitIntoCollection node.value.id split direction = some
      { container with
        baseNode := plug surroundings (.node node.value
          (node.children ++ [Node.ofSplit container.nextNode split node.value.id]))
        nextNode := container.nextNode + 1 } := by
  rw [nestSplitIntoCollection, node?_plug located distinct]
  simp only [Option.bind_eq_bind, Option.bind_some, same, if_true, assign_plug located distinct, Option.pure_def]

theorem nestSplitIntoCollection_other (located : container.baseNode = plug surroundings node)
    (distinct : container.baseNode.ids.Nodup) (allocated : ∀ id ∈ container.baseNode.ids, id < container.nextNode)
    (split : Split) (direction : SplitDirection) (other : toContainerType direction ≠ node.value.type) :
    container.nestSplitIntoCollection node.value.id split direction = some
      { container with
        baseNode := plug surroundings (.node { node.value with type := toContainerType direction, split := none }
          (Node.beside direction (Node.cloneOf container.nextNode node)
            (Node.ofSplit (container.nextNode + 1) split node.value.id)))
        nextNode := container.nextNode + 2 } := by
  rw [nestSplitIntoCollection, node?_plug located distinct]
  simp only [Option.bind_eq_bind, Option.bind_some, other, if_false, assign_plug located distinct]
  -- the clone is the only child of the node at first, and the split is put next to it
  let data : NodeData Split := { node.value with type := toContainerType direction, split := none }
  let nested : SplitContainer Split := { container with
    baseNode := plug surroundings (.node data [Node.cloneOf container.nextNode node])
    nextNode := container.nextNode + 1 }
  have grown : (Node.ids (.node data [Node.cloneOf container.nextNode node])).Perm ([container.nextNode] ++ node.ids) := by
    cases node
    simp [data, Node.ids_cloneOf, List.Perm.swap]
  have distinct' : nested.baseNode.ids.Nodup := by
    apply (Node.ids_replug grown).nodup_iff.mpr
    rw [← located]
    exact List.nodup_cons.mpr ⟨fun known => lt_irrefl _ (allocated _ known), distinct⟩
  have inserted := @insertNextToThis_plug _ nested surroundings ⟨data, [], []⟩ (Node.cloneOf container.nextNode node)
    rfl distinct' rfl split direction
  rw [List.nil_append, List.append_nil] at inserted
  exact inserted

/-- A node with a child is a container, so it has at least one more. -/
theorem parent_container {above : Option Nat} (placed : Node.Placed above (frame.fill node)) :
    (frame.value.type = .verticalContainer ∨ frame.value.type = .horizontalContainer) ∧
      1 ≤ (frame.front ++ frame.back).length := by
  have length : (frame.fill node).children.length = (frame.front ++ frame.back).length + 1 := by
    simp [Frame.fill, Nat.add_assoc]
  obtain ⟨_, fits⟩ := placed.here
  rw [length] at fits
  exact fits.container

theorem container_leaf {data : NodeData Split} (type : data.type = .verticalContainer ∨ data.type = .horizontalContainer) :
    data.leaf? = none := by
  unfold NodeData.leaf?
  rcases type with type | type
  · rw [type]
    rfl
  · rw [type]
    rfl

theorem releaseNode_root (located : container.baseNode = node) (distinct : container.baseNode.ids.Nodup)
    (type : node.value.type = .split) (pointer : node.value.parent = none) :
    container.releaseNode node.value.id = some (⟨none, .right⟩,
      { container with baseNode := .node { node.value with type := .emptyRoot, split := none } node.children }) := by
  have root : container.baseNode = plug [] node := located
  rw [releaseNode, node?_plug root distinct]
  simp only [Option.bind_eq_bind, Option.bind_some, type, guard_true, Option.pure_def, pointer, assign_plug root distinct,
    plug_nil]

/-- The sibling takes the place of the parent. -/
theorem releaseNode_merges (located : container.baseNode = plug (frame :: surroundings) node)
    (distinct : container.baseNode.ids.Nodup) (type : node.value.type = .split)
    (pointer : node.value.parent = some frame.value.id) {sibling : Node Split}
    (only : frame.front ++ frame.back = [sibling]) :
    container.releaseNode node.value.id = some (⟨some frame.value.id, sideOf (frame.fill node) frame.front.length⟩,
      { container with
        baseNode := plug surroundings
          (.node { frame.value with type := sibling.value.type, split := sibling.value.split }
            (sibling.children.map (Node.setParent frame.value.id))) }) := by
  obtain ⟨parent, index, written⟩ := parent_plug located distinct
  have size : (frame.front ++ node :: frame.back).length = 2 := by
    have one := congrArg List.length only
    rw [List.length_append, List.length_singleton] at one
    rw [List.length_append, List.length_cons]
    omega
  rw [releaseNode, node?_plug located distinct]
  simp only [Option.bind_eq_bind, Option.bind_some, type, guard_true, Option.pure_def, pointer, parent, written,
    Frame.fill, children_node, value_node, index, Node.eraseIdx_child, only, size, if_true, List.head?_cons]

/-- A container of more than two loses a child. -/
theorem releaseNode_leaves (located : container.baseNode = plug (frame :: surroundings) node)
    (distinct : container.baseNode.ids.Nodup) (type : node.value.type = .split)
    (pointer : node.value.parent = some frame.value.id) (more : 2 ≤ (frame.front ++ frame.back).length)
    {position : Position} (beside : positionBeside (frame.fill node) frame.front.length = some position) :
    container.releaseNode node.value.id = some (position,
      { container with baseNode := plug surroundings (.node frame.value (frame.front ++ frame.back)) }) := by
  obtain ⟨parent, index, written⟩ := parent_plug located distinct
  have size : ¬ (frame.front ++ node :: frame.back).length = 2 := by
    rw [List.length_append] at more
    rw [List.length_append, List.length_cons]
    omega
  rw [Frame.fill] at parent beside
  rw [releaseNode, node?_plug located distinct]
  simp only [Option.bind_eq_bind, Option.bind_some, type, guard_true, Option.pure_def, pointer, parent, beside, written,
    children_node, value_node, index, Node.eraseIdx_child, size, if_false]

end SplitContainer

namespace SplitContainer

variable {container : SplitContainer Split} {surroundings : List (Frame (NodeData Split))} {node new : Node Split}
  {split : Split}

theorem Sound.grow (sound : container.Sound) (located : container.baseNode = plug surroundings node) {next : Nat}
    (later : container.nextNode ≤ next) (grown : Node.Grown container.nextNode next split node new) :
    Sound { container with
      baseNode := plug surroundings new
      splits := container.splits ++ [split]
      nextNode := next } := by
  obtain ⟨placed, distinct, allocated, members⟩ := sound
  rw [located] at placed distinct allocated members
  obtain ⟨gained, ids, apart, fresh⟩ := grown.ids
  have tree := @Node.ids_replug _ surroundings _ _ _ ids
  constructor
  · exact placed.replug (grown.placed placed.unplug)
  · apply tree.nodup_iff.mpr
    refine List.nodup_append.mpr ⟨apart, distinct, fun id new known old same => ?_⟩
    have below := allocated known old
    have above := (fresh id new).1
    omega
  · intro id inside
    rcases List.mem_append.mp (tree.mem_iff.mp inside) with new | old
    · exact (fresh id new).2
    · exact Nat.lt_of_lt_of_le (allocated id old) later
  · exact (Node.leaves_replug grown.leaves).trans ((members.cons split).trans (List.perm_append_singleton _ _).symm)

theorem Sound.shrink [DecidableEq Split] (sound : container.Sound) (located : container.baseNode = plug surroundings node)
    (shrunk : Node.Shrunk (keyAbove NodeData.id none surroundings) split node new) :
    Sound { container with
      baseNode := plug surroundings new
      splits := container.splits.erase split } := by
  obtain ⟨placed, distinct, allocated, members⟩ := sound
  rw [located] at placed distinct allocated members
  obtain ⟨lost, ids⟩ := shrunk.ids
  have tree := @Node.ids_replug _ surroundings _ _ _ ids
  constructor
  · exact placed.replug (shrunk.placed placed.unplug)
  · exact (List.nodup_append.mp (tree.nodup_iff.mp distinct)).2.1
  · exact fun id inside => allocated id (tree.mem_iff.mpr (List.mem_append_right lost inside))
  · have leaves := (Node.leaves_replug shrunk.leaves).symm.trans members
    exact (List.cons_perm_iff_perm_erase.mp leaves).2

theorem nestSplitIntoCollection_grows (sound : container.Sound) (located : container.baseNode = plug surroundings node)
    (occupied : node.value.type ≠ .emptyRoot) (split : Split) (direction : SplitDirection) :
    ∃ next, container.nestSplitIntoCollection node.value.id split direction = some next ∧
      next.splits = container.splits ∧ Sound { next with splits := container.splits ++ [split] } := by
  by_cases same : toContainerType direction = node.value.type
  · refine ⟨_, nestSplitIntoCollection_same located sound.distinct split direction same, rfl, ?_⟩
    apply sound.grow located (Nat.le_succ _)
    cases node with
    | node data children => exact Node.grown_child same (List.perm_append_singleton _ _)
  · exact ⟨_, nestSplitIntoCollection_other located sound.distinct sound.allocated split direction same, rfl,
      sound.grow located (Nat.le_add_right _ 2) (Node.grown_nested direction occupied)⟩

theorem setSplit_grows (sound : container.Sound) (located : container.baseNode = plug surroundings node)
    (type : node.value.type = .emptyRoot) (split : Split) : ∃ next, container.setSplit node.value.id split = some next ∧
      next.splits = container.splits ∧ Sound { next with splits := container.splits ++ [split] } := by
  have here : WellPlaced (keyAbove NodeData.id none surroundings) node.value node.children.length := by
    have placed := sound.placed
    rw [located] at placed
    exact placed.unplug.here
  obtain ⟨_, kind⟩ := here
  rw [type] at kind
  have written : container.setSplit node.value.id split = some { container with
      baseNode := plug surroundings (.node { node.value with split := some split, type := .split } node.children) } := by
    rw [setSplit, node?_plug located sound.distinct]
    simp [kind.2.1, List.length_eq_zero_iff.mp kind.2.2, assign_plug located sound.distinct]
  refine ⟨_, written, rfl, sound.grow located le_rfl ?_⟩
  cases node with
  | node data children => exact Node.grown_root type

theorem insertSplitRelative_grows (sound : container.Sound) {this : Nat} (found : container.node? this = some node)
    (split : Split) (direction : SplitDirection) : ∃ next, container.insertSplitRelative this split direction = some next ∧
      next.splits = container.splits ∧ Sound { next with splits := container.splits ++ [split] } := by
  obtain ⟨rfl, surroundings, located⟩ := node?_eq_some found
  have placed := sound.placed
  rw [located] at placed
  have pointer := placed.unplug.here.1
  rw [insertSplitRelative, found]
  cases surroundings with
  | nil =>
    simp only [Option.bind_eq_bind, Option.bind_some, show node.value.parent = none from pointer]
    cases type : node.value.type with
    | emptyRoot => exact setSplit_grows sound located type split
    | split | verticalContainer | horizontalContainer =>
      exact nestSplitIntoCollection_grows sound located (by simp [type]) split direction
  | cons frame surroundings =>
    obtain ⟨parent, _, _⟩ := parent_plug located sound.distinct
    simp only [Option.bind_eq_bind, Option.bind_some, show node.value.parent = some frame.value.id from pointer, parent]
    split
    next same =>
      refine ⟨_, insertNextToThis_plug located sound.distinct pointer split direction, rfl, ?_⟩
      have around : container.baseNode = plug surroundings (frame.fill node) := located
      apply sound.grow around (Nat.le_succ _)
      apply Node.grown_child same.symm
      exact (((Node.beside_perm direction node _).append_right frame.back).append_left frame.front).trans List.perm_middle
    next =>
      exact nestSplitIntoCollection_grows sound located placed.unplug.here.2.occupied split direction

theorem node?_of_id {this : Nat} (known : this ∈ container.baseNode.ids) : ∃ node, container.node? this = some node := by
  obtain ⟨data, inside, rfl⟩ := List.mem_map.mp known
  exact find?_isSome inside (beq_self_eq_true _)

theorem insertNode_grows (sound : container.Sound) {relativeTo : Option Nat}
    (exists_ : ∀ this, relativeTo = some this → (container.node? this).isSome) (split : Split)
    (direction : SplitDirection) : ∃ next, container.insertNode relativeTo split direction = some next ∧
      next.splits = container.splits ∧ Sound { next with splits := container.splits ++ [split] } := by
  have root : container.baseNode = plug [] container.baseNode := rfl
  unfold insertNode
  cases relativeTo with
  | none =>
    cases type : container.baseNode.value.type with
    | emptyRoot =>
      simp only [type]
      exact setSplit_grows sound root type split
    | split =>
      simp only [type]
      exact nestSplitIntoCollection_grows sound root (by simp [type]) split direction
    | verticalContainer | horizontalContainer =>
      simp only [type]
      exact insertSplitRelative_grows sound (node?_plug root sound.distinct) split direction
  | some this =>
    have present := exists_ this rfl
    obtain ⟨node, found⟩ := Option.isSome_iff_exists.mp present
    simp only [present, guard_true, Option.bind_eq_bind, Option.pure_def, Option.bind_some]
    exact insertSplitRelative_grows sound found split direction

/-- The position next to a sibling, in a container of more than two. -/
theorem positionBeside_sibling (frame : Frame (NodeData Split)) (node : Node Split)
    (more : 2 ≤ (frame.front ++ frame.back).length) :
    ∃ sibling ∈ frame.front ++ frame.back, ∃ direction,
      positionBeside (frame.fill node) frame.front.length = some ⟨some sibling.value.id, direction⟩ := by
  obtain ⟨data, front, back⟩ := frame
  unfold positionBeside
  simp only [Frame.fill, children_node, value_node, Node.eraseIdx_child, Option.pure_def, Option.bind_eq_bind]
  cases back with
  | nil =>
    have rest : front ++ [] ≠ [] := List.ne_nil_of_length_pos (Nat.zero_lt_of_lt more)
    obtain ⟨last, behind⟩ := Option.ne_none_iff_exists'.mp (mt List.getLast?_eq_none_iff.mp rest)
    refine ⟨last, List.mem_of_getLast? behind, if data.type = .verticalContainer then .below else .right, ?_⟩
    rw [if_pos (by simp), behind]
    rfl
  | cons next back =>
    refine ⟨next, by simp, if data.type = .verticalContainer then .above else .left, ?_⟩
    rw [if_neg (by simp), List.getElem?_append_right (Nat.le_succ _)]
    simp
    rfl

/-- Releasing the node of a split succeeds, and the position it leaves is in the tree. -/
theorem releaseNode_shrinks (sound : container.Sound) {this : Nat} (found : container.node? this = some node)
    (type : node.value.type = .split) (holds : node.value.split = some split) :
    ∃ surroundings inner new position, container.baseNode = plug surroundings inner ∧
      Node.Shrunk (keyAbove NodeData.id none surroundings) split inner new ∧
      (∀ relative, position.relativeNode = some relative → relative ∈ new.ids) ∧
      ∀ splits, releaseNode { container with splits } this =
        some (position, { container with splits, baseNode := plug surroundings new }) := by
  obtain ⟨rfl, surroundings, located⟩ := node?_eq_some found
  have placed := sound.placed
  rw [located] at placed
  obtain ⟨pointer, kind⟩ := placed.unplug.here
  rw [type] at kind
  have childless : node.children = [] := List.length_eq_zero_iff.mp kind.2
  have leaf : node.leaves = [split] := by
    rw [← eta node, Node.leaves_node, childless]
    simp [NodeData.leaf?, type, holds]
  cases surroundings with
  | nil =>
    refine ⟨[], node, .node { node.value with type := .emptyRoot, split := none } node.children, ⟨none, .right⟩,
      located, ?_, fun _ impossible => absurd impossible (Option.some_ne_none _).symm, fun splits => ?_⟩
    · cases node with
      | node data children => exact Node.shrunk_root type holds
    · exact @releaseNode_root _ { container with splits } _ located sound.distinct type pointer
  | cons frame surroundings =>
    have parentPlaced : Node.Placed (keyAbove NodeData.id none surroundings) (frame.fill node) :=
      Everywhere.unplug placed
    obtain ⟨container_, enough⟩ := parent_container parentPlaced
    have apart : (frame.front ++ node :: frame.back).Perm (node :: (frame.front ++ frame.back)) := List.perm_middle
    by_cases two : (frame.front ++ frame.back).length = 1
    · obtain ⟨sibling, only⟩ := List.length_eq_one_iff.mp two
      rw [only] at apart
      refine ⟨surroundings, frame.fill node, _, ⟨some frame.value.id, sideOf (frame.fill node) frame.front.length⟩,
        located, Node.shrunk_merged apart leaf (container_leaf container_), ?_, fun splits => ?_⟩
      · rintro relative ⟨⟩
        rw [Node.ids_node]
        exact List.mem_cons_self
      · exact @releaseNode_merges _ { container with splits } _ _ _ located sound.distinct type pointer _ only
    · have more : 2 ≤ (frame.front ++ frame.back).length := by omega
      obtain ⟨sibling, beside, direction, position⟩ := positionBeside_sibling frame node more
      refine ⟨surroundings, frame.fill node, .node frame.value (frame.front ++ frame.back),
        ⟨some sibling.value.id, direction⟩, located, Node.shrunk_child apart leaf more, ?_, fun splits => ?_⟩
      · rintro relative ⟨⟩
        rw [Node.ids_node]
        exact List.mem_cons_of_mem _ (List.mem_flatMap.mpr ⟨sibling, beside, List.mem_map_of_mem (value_mem_values sibling)⟩)
      · exact @releaseNode_leaves _ { container with splits } _ _ _ located sound.distinct type pointer more _ position

end SplitContainer

namespace SplitContainer

variable {container next : SplitContainer Split}

theorem Sound.of_outline (sound : container.Sound) (tree : next.baseNode.outline = container.baseNode.outline)
    (splits : next.splits = container.splits) (later : next.nextNode = container.nextNode) : next.Sound := by
  have ids : next.baseNode.ids = container.baseNode.ids := by rw [← Node.ids_outline, tree, Node.ids_outline]
  have leaves : next.baseNode.leaves = container.baseNode.leaves := by
    rw [← Node.leaves_outline, tree, Node.leaves_outline]
  constructor
  · exact Node.placed_outline.mp (tree ▸ Node.placed_outline.mpr sound.placed)
  · exact ids ▸ sound.distinct
  · rw [ids, later]
    exact sound.allocated
  · rw [leaves, splits]
    exact sound.members

theorem outline_of_layout (container : SplitContainer Split) :
    container.layout.baseNode.outline = container.baseNode.outline := by
  unfold layout
  split
  · rfl
  · exact Node.outline_layout _

theorem layout_splits (container : SplitContainer Split) : container.layout.splits = container.splits := by
  unfold layout
  split <;> rfl

theorem layout_nextNode (container : SplitContainer Split) : container.layout.nextNode = container.nextNode := by
  unfold layout
  split <;> rfl

theorem Sound.layout (sound : container.Sound) : container.layout.Sound :=
  sound.of_outline container.outline_of_layout container.layout_splits container.layout_nextNode

/-- Writing a node that differs in flexes below it only, and laying out. -/
theorem Sound.reflex (sound : container.Sound) {this : Nat} {node new : Node Split}
    (found : container.node? this = some node) (same : new.outline = node.outline) :
    (container.assign this new).layout.Sound ∧ (container.assign this new).layout.splits = container.splits := by
  obtain ⟨rfl, surroundings, located⟩ := node?_eq_some found
  refine ⟨Sound.layout ?_, layout_splits _⟩
  rw [assign_plug located sound.distinct]
  refine sound.of_outline ?_ rfl rfl
  rw [located]
  exact Node.outline_plug same

/-- The child at the index of an address is the node there. -/
theorem child_of_index (distinct : container.baseNode.ids.Nodup) {this parentId it : Nat} {parent node : Node Split}
    (found : container.node? parentId = some parent) (own : container.node? this = some node)
    (index : parent.children.findIdx? (fun sibling => sibling.value.id == this) = some it) :
    parent.children[it]? = some node := by
  obtain ⟨inside, same, _⟩ := List.findIdx?_eq_some_iff_getElem.mp index
  obtain ⟨_, surroundings, located⟩ := node?_eq_some found
  rw [← eta parent, ← List.take_append_drop it parent.children, List.drop_eq_getElem_cons inside] at located
  have child : container.baseNode =
      plug (⟨parent.value, parent.children.take it, parent.children.drop (it + 1)⟩ :: surroundings)
        parent.children[it] := located
  have known := node?_plug child distinct
  rw [eq_of_beq same, own] at known
  rw [List.getElem?_eq_getElem inside, Option.some.inj known]

theorem Sound.resize (sound : container.Sound) {this : Nat} {vertical : Bool} {ratio : ℚ}
    (taken : container.resize this vertical ratio = some next) : next.Sound ∧ next.splits = container.splits := by
  unfold SplitContainer.resize at taken
  simp only [Option.bind_eq_bind, Option.pure_def, Option.bind_eq_some_iff] at taken
  obtain ⟨node, own, parentId, _, parent, found, it, index, _, notFirst, before, previous, same⟩ := taken
  obtain rfl := Option.some.inj same
  apply sound.reflex found
  have held := child_of_index sound.distinct found own index
  have apart : it - 1 ≠ it := by
    have positive : 0 < it := by
      by_contra zero
      simp [zero] at notFirst
    omega
  cases parent with
  | node data children =>
    have sibling (new : Node Split) : (children.set (it - 1) new)[it]? = some node :=
      (List.getElem?_set_ne apart).trans held
    rw [Node.outline_node, Node.outline_node]
    exact congrArg (RoseTree.node data.outline) ((Node.map_outline_set (sibling _) (Node.outline_setFlex _ _ node)).trans
      (Node.map_outline_set previous (Node.outline_setFlex _ _ before)))

theorem Sound.resetFlex (sound : container.Sound) {this : Nat}
    (taken : container.resetFlex this = some next) : next.Sound ∧ next.splits = container.splits := by
  unfold SplitContainer.resetFlex at taken
  simp only [Option.bind_eq_bind, Option.pure_def, Option.bind_eq_some_iff] at taken
  obtain ⟨node, _, parentId, _, parent, found, same⟩ := taken
  obtain rfl := Option.some.inj same
  apply sound.reflex found
  cases parent with
  | node data children =>
    rw [Node.outline_node, Node.outline_node, Node.map_outline_congr]
    · rfl
    · intro child
      cases child
      simp [Node.outline_node, NodeData.outline]

theorem sound_empty : (empty : SplitContainer Split).Sound := by
  constructor
  · exact everywhere_node.mpr ⟨⟨rfl, rfl, rfl, rfl⟩, fun _ inside => absurd inside List.not_mem_nil⟩
  · simp [empty]
  · simp [empty]
  · simp [empty, NodeData.leaf?]

variable [DecidableEq Split]

/-- The options name something in the container, and no two of them contradict each other. -/
def Accepts (container : SplitContainer Split) (options : InsertOptions Split) : Prop :=
  match options.position, options.relativeSplit with
  | some position, relativeSplit => relativeSplit = none ∧ options.relativeNode = none ∧ options.direction = none ∧
      ∀ this, position.relativeNode = some this → this ∈ container.baseNode.ids
  | none, some relativeSplit => options.relativeNode = none ∧ relativeSplit ∈ container.splits
  | none, none => ∀ this, options.relativeNode = some this → this ∈ container.baseNode.ids

theorem findNodeContainingSplit_of_mem (sound : container.Sound) {split : Split} (member : split ∈ container.splits) :
    ∃ node, container.findNodeContainingSplit split = some node ∧ container.node? node.value.id = some node ∧
      node.value.type = .split ∧ node.value.split = some split := by
  obtain ⟨data, inside, leaf⟩ := List.mem_filterMap.mp (sound.members.mem_iff.mpr member)
  obtain ⟨type, holds⟩ := Option.ite_none_right_eq_some.mp leaf
  obtain ⟨node, found⟩ := find?_isSome (p := fun data => data.type = .split ∧ data.split = some split) inside
    (by simp [type, holds])
  obtain ⟨matching, surroundings, located⟩ := find?_eq_some found
  exact ⟨node, found, node?_plug located sound.distinct, of_decide_eq_true matching⟩

/-- Releasing a member succeeds, and the position it had is in the tree. -/
theorem releaseSplit_sound (sound : container.Sound) {split : Split} (member : split ∈ container.splits) :
    ∃ position next, container.releaseSplit split = some (position, next) ∧ next.Sound ∧
      next.splits = container.splits.erase split ∧
      ∀ this, position.relativeNode = some this → this ∈ next.baseNode.ids := by
  obtain ⟨node, found, own, type, holds⟩ := findNodeContainingSplit_of_mem sound member
  obtain ⟨surroundings, inner, new, position, located, shrunk, stays, released⟩ :=
    releaseNode_shrinks sound own type holds
  refine ⟨position, _, ?_, (sound.shrink located shrunk).layout, layout_splits _, ?_⟩
  · rw [releaseSplit, found]
    simp only [Option.bind_eq_bind, Option.bind_some, member, guard_true, Option.pure_def, released]
  · intro this relative
    have inside := (Node.ids_plug surroundings new).mem_iff.mpr (List.mem_append_left _ (stays this relative))
    rwa [← Node.ids_outline, outline_of_layout, Node.ids_outline]

theorem resolve_of_accepts (sound : container.Sound) {options : InsertOptions Split}
    (accepts : container.Accepts options) : ∃ relativeTo direction,
      container.resolve options = some (relativeTo, direction) ∧
        ∀ this, relativeTo = some this → this ∈ container.baseNode.ids := by
  obtain ⟨position, relativeSplit, relativeNode, direction⟩ := options
  cases position with
  | some position =>
    obtain ⟨rfl, rfl, rfl, known⟩ := accepts
    exact ⟨_, _, rfl, known⟩
  | none =>
    cases relativeSplit with
    | some relativeSplit =>
      obtain ⟨rfl, member⟩ := accepts
      obtain ⟨node, found, _⟩ := findNodeContainingSplit_of_mem sound member
      refine ⟨some node.value.id, direction, by simp [resolve, found], ?_⟩
      rintro _ ⟨⟩
      obtain ⟨_, surroundings, located⟩ := find?_eq_some found
      rw [located]
      exact (Node.ids_plug surroundings node).mem_iff.mpr
        (List.mem_append_left _ (List.mem_map_of_mem (value_mem_values node)))
    | none => exact ⟨_, _, rfl, accepts⟩

theorem insertSplit_sound (sound : container.Sound) {options : InsertOptions Split}
    (accepts : container.Accepts options) (split : Split) :
    ∃ next, container.insertSplit split options = some next := by
  obtain ⟨relativeTo, direction, resolved, known⟩ := resolve_of_accepts sound accepts
  have present : ∀ this, relativeTo = some this → (container.node? this).isSome := fun this same =>
    Option.isSome_iff_exists.mpr (node?_of_id (known this same))
  obtain ⟨next, inserted, _⟩ := insertNode_grows sound present split (direction.getD .right)
  exact ⟨next.addSplit split, by simp [insertSplit, resolved, inserted]⟩

theorem Sound.insertSplit (sound : container.Sound) {split : Split} {options : InsertOptions Split}
    (taken : container.insertSplit split options = some next) :
    next.Sound ∧ next.splits = container.splits ++ [split] := by
  unfold SplitContainer.insertSplit at taken
  simp only [Option.bind_eq_bind, Option.pure_def, Option.bind_eq_some_iff] at taken
  obtain ⟨⟨relativeTo, direction⟩, _, grown, inserted, same⟩ := taken
  obtain rfl := Option.some.inj same
  have present : ∀ this, relativeTo = some this → (container.node? this).isSome := by
    rintro this rfl
    by_contra absent
    simp [insertNode, absent] at inserted
  obtain ⟨_, inserted', splits, grows⟩ := insertNode_grows sound present split (direction.getD .right)
  obtain rfl := Option.some.inj (inserted.symm.trans inserted')
  rw [← splits] at grows ⊢
  exact ⟨grows.layout, layout_splits _⟩

/-- The splits of the container behind an action. -/
def splitsBehind (splits : List Split) : Action Split → List Split
  | .insertSplit split _ => splits ++ [split]
  | .releaseSplit split => splits.erase split
  | .resize _ _ _ | .resetFlex _ | .layout => splits

theorem Sound.step (sound : container.Sound) {action : Action Split} (taken : container.step action = some next) :
    next.Sound ∧ next.splits = splitsBehind container.splits action := by
  cases action with
  | insertSplit split options => exact sound.insertSplit taken
  | releaseSplit split =>
    obtain ⟨⟨position, after⟩, released, rfl⟩ := Option.map_eq_some_iff.mp taken
    have member : split ∈ container.splits := by
      by_contra absent
      simp [SplitContainer.releaseSplit, absent] at released
    obtain ⟨_, _, released', done, splits, _⟩ := releaseSplit_sound sound member
    obtain ⟨rfl, rfl⟩ := Prod.mk.inj (Option.some.inj (released.symm.trans released'))
    exact ⟨done, splits⟩
  | resize node vertical ratio => exact sound.resize taken
  | resetFlex node => exact sound.resetFlex taken
  | layout =>
    obtain rfl := Option.some.inj taken
    exact ⟨sound.layout, layout_splits _⟩

/-- An inserted split is not yet in the container. -/
def InsertsNew (container : SplitContainer Split) : Action Split → Prop
  | .insertSplit split _ => split ∉ container.splits
  | _ => True

instance (container : SplitContainer Split) : ∀ action, Decidable (container.InsertsNew action)
  | .insertSplit split _ => inferInstanceAs (Decidable (split ∉ container.splits))
  | .releaseSplit _ | .resize _ _ _ | .resetFlex _ | .layout => inferInstanceAs (Decidable True)

theorem nodup_splitsBehind {action : Action Split} (once : container.splits.Nodup) (new : container.InsertsNew action) :
    (splitsBehind container.splits action).Nodup := by
  cases action with
  | insertSplit split options => exact (List.perm_append_singleton _ _).nodup_iff.mpr (List.nodup_cons.mpr ⟨new, once⟩)
  | releaseSplit split => exact once.erase split
  | resize _ _ _ | resetFlex _ | layout => exact once

theorem sound_of_run {actions : List (Action Split)} {container : SplitContainer Split}
    (ran : run SplitContainer.step empty actions = some container) : container.Sound :=
  run_keeps (fun _ _ _ sound taken => (sound.step taken).1) ran sound_empty

/-- Each split is in the tree once, if every inserted split was new. -/
theorem leaves_nodup {actions : List (Action Split)} {container : SplitContainer Split}
    (ran : run SplitContainer.step empty actions = some container)
    (new : Along SplitContainer.step InsertsNew empty actions) : container.baseNode.leaves.Nodup := by
  have kept : ∀ (before : SplitContainer Split) action next, before.Sound ∧ before.splits.Nodup →
      before.InsertsNew action → before.step action = some next → next.Sound ∧ next.splits.Nodup := by
    rintro before action next ⟨sound, once⟩ new taken
    obtain ⟨sound', splits⟩ := sound.step taken
    exact ⟨sound', splits ▸ nodup_splitsBehind once new⟩
  obtain ⟨sound, once⟩ := run_invariant kept new ran ⟨sound_empty, List.nodup_nil⟩
  exact sound.members.nodup_iff.mpr once

/-- Behind every run the tree is well formed, its leaves are the splits of the container, each
once if every inserted split was new, and any of them can be released and inserted next to. -/
theorem tree_invariant {actions : List (Action Split)} {container : SplitContainer Split}
    (ran : run SplitContainer.step empty actions = some container) :
    Node.Placed none container.baseNode ∧ container.baseNode.ids.Nodup ∧
    container.baseNode.leaves.Perm container.splits ∧
    (Along SplitContainer.step InsertsNew empty actions → container.baseNode.leaves.Nodup) ∧
    (∀ split ∈ container.splits, ∃ released, container.releaseSplit split = some released) ∧
    ∀ split options, container.Accepts options → ∃ next, container.insertSplit split options = some next := by
  have sound := sound_of_run ran
  refine ⟨sound.placed, sound.distinct, sound.members, ?_, ?_, ?_⟩
  · exact leaves_nodup ran
  · intro split member
    obtain ⟨position, next, released, _⟩ := releaseSplit_sound sound member
    exact ⟨(position, next), released⟩
  · exact fun split options accepts => insertSplit_sound sound accepts split

/-- Two splits below each other, and the first of them released. -/
theorem tree_invariant_released :
    ∃ released, SplitContainer.releaseSplit
      { baseNode := .node { id := 0, type := .split, split := some 2, parent := none, flexH := 1, flexV := 1 } []
        splits := [2]
        disableLayouting := false
        nextNode := 3 } 2 = some released :=
  (@tree_invariant Nat _ [.insertSplit 1 ⟨none, none, none, none⟩, .insertSplit 2 ⟨none, some 1, none, some .below⟩,
    .releaseSplit 1] _ rfl).2.2.2.2.1 2 (by decide)

end SplitContainer

end Forserino.Splits
