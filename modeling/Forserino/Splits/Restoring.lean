import Forserino.Splits.TreeInvariant

/-! A released split is inserted again at the position that it had.

The position names a node of the tree behind the release and a side of it. The leaves get their
old order, unless that node takes the split in as its last child although it was the first one.
-/

set_option autoImplicit false

namespace Forserino.Splits

open Foundation RoseTree

variable {Split : Type}

/-! ## The order of the leaves -/

namespace Node

/-- The leaves in front of the hole. -/
def leavesBefore : List (Frame (NodeData Split)) → List Split
  | [] => []
  | frame :: surroundings => leavesBefore surroundings ++ (frame.value.leaf?.toList ++ frame.front.flatMap leaves)

/-- The leaves behind the hole. -/
def leavesAfter : List (Frame (NodeData Split)) → List Split
  | [] => []
  | frame :: surroundings => frame.back.flatMap leaves ++ leavesAfter surroundings

theorem leaves_plug_order (surroundings : List (Frame (NodeData Split))) (node : Node Split) :
    Node.leaves (plug surroundings node) = leavesBefore surroundings ++ (node.leaves ++ leavesAfter surroundings) := by
  induction surroundings generalizing node with
  | nil => simp [leavesBefore, leavesAfter]
  | cons frame surroundings ih =>
    rw [plug_cons, ih, leavesBefore, leavesAfter]
    simp [Frame.fill]

theorem leavesBefore_outline (surroundings : List (Frame (NodeData Split))) :
    leavesBefore (surroundings.map (Frame.map NodeData.outline)) = leavesBefore surroundings := by
  induction surroundings with
  | nil => rfl
  | cons frame surroundings ih =>
    have fronts : (frame.front.map (RoseTree.map NodeData.outline)).flatMap leaves = frame.front.flatMap leaves := by
      rw [List.flatMap_map]
      exact congrArg (List.flatMap · frame.front) (funext leaves_outline)
    rw [List.map_cons, leavesBefore, leavesBefore, ih, Frame.map, fronts]
    rfl

theorem leavesAfter_outline (surroundings : List (Frame (NodeData Split))) :
    leavesAfter (surroundings.map (Frame.map NodeData.outline)) = leavesAfter surroundings := by
  induction surroundings with
  | nil => rfl
  | cons frame surroundings ih =>
    have backs : (frame.back.map (RoseTree.map NodeData.outline)).flatMap leaves = frame.back.flatMap leaves := by
      rw [List.flatMap_map]
      exact congrArg (List.flatMap · frame.back) (funext leaves_outline)
    rw [List.map_cons, leavesAfter, leavesAfter, ih, Frame.map, backs]

/-- Below the root there is no node without a leaf. -/
theorem leaves_ne_nil {above : Nat} {node : Node Split} (placed : node.Placed (some above)) : node.leaves ≠ [] := by
  induction node using RoseTree.induct generalizing above with
  | node data children ih =>
    obtain ⟨⟨-, fits⟩, below⟩ := everywhere_node.mp placed
    have inner (two : 2 ≤ children.length) : children.flatMap leaves ≠ [] := by
      cases children with
      | nil => exact absurd two (Nat.not_succ_le_zero 1)
      | cons child children =>
        have some_ := ih child List.mem_cons_self (below child List.mem_cons_self)
        simp [some_]
    rw [leaves_node]
    unfold Fits at fits
    cases type : data.type with
    | emptyRoot =>
      rw [type] at fits
      exact absurd fits.1 (Option.some_ne_none above)
    | split =>
      rw [type] at fits
      obtain ⟨split, holds⟩ := Option.isSome_iff_exists.mp fits.1
      simp [NodeData.leaf?, type, holds]
    | verticalContainer | horizontalContainer =>
      rw [type] at fits
      simp [inner fits.2]

/-- The leaves of a node and of a new one next to it. -/
theorem leaves_beside (direction : SplitDirection) (node : Node Split) (id : Nat) (split : Split) (parent : Nat) :
    (beside direction node (ofSplit id split parent)).flatMap leaves =
      if direction = .right ∨ direction = .below then node.leaves ++ [split] else [split] ++ node.leaves := by
  unfold beside
  split
  · simp
  · simp

end Node

namespace SplitContainer

variable {container : SplitContainer Split} {surroundings : List (Frame (NodeData Split))}
  {frame : Frame (NodeData Split)} {node : Node Split}

/-- The node takes a split in as its last child, on whichever side it was asked for. -/
def Appends (surroundings : List (Frame (NodeData Split))) (node : Node Split) (direction : SplitDirection) : Prop :=
  node.value.type = toContainerType direction ∧ ∀ above ∈ surroundings.head?, above.value.type ≠ toContainerType direction

instance (surroundings : List (Frame (NodeData Split))) (node : Node Split) (direction : SplitDirection) :
    Decidable (Appends surroundings node direction) := inferInstanceAs (Decidable (_ ∧ _))

/-- The leaves in their order when a node took in a split. -/
def leavesWith (surroundings : List (Frame (NodeData Split))) (node : Node Split) (split : Split) (behind : Prop)
    [Decidable behind] : List Split :=
  Node.leavesBefore surroundings ++
    ((if behind then node.leaves ++ [split] else [split] ++ node.leaves) ++ Node.leavesAfter surroundings)

theorem leavesWith_congr {surroundings : List (Frame (NodeData Split))} {node : Node Split} {split : Split}
    {behind behind' : Prop} [Decidable behind] [Decidable behind'] (same : behind ↔ behind') :
    leavesWith surroundings node split behind = leavesWith surroundings node split behind' := by
  unfold leavesWith
  simp only [same]

theorem nestSplitIntoCollection_leaves (sound : container.Sound) (located : container.baseNode = plug surroundings node)
    (split : Split) (direction : SplitDirection) :
    ∃ next, container.nestSplitIntoCollection node.value.id split direction = some next ∧
      next.baseNode.leaves = leavesWith surroundings node split
        (direction = .right ∨ direction = .below ∨ node.value.type = toContainerType direction) := by
  by_cases same : toContainerType direction = node.value.type
  · refine ⟨_, nestSplitIntoCollection_same located sound.distinct split direction same, ?_⟩
    have appended : Node.leaves (.node node.value (node.children ++ [Node.ofSplit container.nextNode split node.value.id])) =
        node.leaves ++ [split] := by
      cases node
      simp
    rw [Node.leaves_plug_order, appended, leavesWith, if_pos (.inr (.inr same.symm))]
  · refine ⟨_, nestSplitIntoCollection_other located sound.distinct sound.allocated split direction same, ?_⟩
    have container_ : NodeData.leaf? { node.value with type := toContainerType direction, split := (none : Option Split) } =
        none := by
      unfold NodeData.leaf?
      cases direction <;> rfl
    rw [Node.leaves_plug_order, Node.leaves_node, container_, Node.leaves_beside, Node.leaves_cloneOf]
    have other : node.value.type ≠ toContainerType direction := fun equal => same equal.symm
    simp only [leavesWith, other, or_false, Option.toList_none, List.nil_append]

theorem insertNextToThis_leaves (sound : container.Sound) (located : container.baseNode = plug (frame :: surroundings) node)
    (pointer : node.value.parent = some frame.value.id) (split : Split) (direction : SplitDirection) :
    ∃ next, container.insertNextToThis node.value.id split direction = some next ∧
      next.baseNode.leaves = leavesWith (frame :: surroundings) node split (direction = .right ∨ direction = .below) := by
  refine ⟨_, insertNextToThis_plug located sound.distinct pointer split direction, ?_⟩
  rw [Node.leaves_plug_order, Node.leaves_node, List.flatMap_append, List.flatMap_append, Node.leaves_beside, leavesWith,
    Node.leavesBefore, Node.leavesAfter]
  simp only [List.append_assoc]

/-- Where the leaf of an inserted split is. -/
theorem insertSplitRelative_leaves (sound : container.Sound) (located : container.baseNode = plug surroundings node)
    (occupied : node.value.type ≠ .emptyRoot) (split : Split) (direction : SplitDirection) :
    ∃ next, container.insertSplitRelative node.value.id split direction = some next ∧
      next.baseNode.leaves = leavesWith surroundings node split
        (direction = .right ∨ direction = .below ∨ Appends surroundings node direction) := by
  have placed := sound.placed
  rw [located] at placed
  have pointer := placed.unplug.here.1
  rw [insertSplitRelative, node?_plug located sound.distinct]
  cases surroundings with
  | nil =>
    obtain ⟨next, nested, leaves⟩ := nestSplitIntoCollection_leaves sound located split direction
    refine ⟨next, ?_, leaves.trans (leavesWith_congr (by simp [Appends]))⟩
    simp only [Option.bind_eq_bind, Option.bind_some, show node.value.parent = none from pointer]
    cases type : node.value.type with
    | emptyRoot => exact absurd type occupied
    | split | verticalContainer | horizontalContainer => exact nested
  | cons frame surroundings =>
    obtain ⟨parent, _, _⟩ := parent_plug located sound.distinct
    simp only [Option.bind_eq_bind, Option.bind_some, show node.value.parent = some frame.value.id from pointer, parent]
    by_cases same : frame.value.type = toContainerType direction
    · obtain ⟨next, inserted, leaves⟩ := insertNextToThis_leaves sound located pointer split direction
      refine ⟨next, ?_, leaves.trans (leavesWith_congr (by simp [Appends, same]))⟩
      rw [if_pos (by exact same), inserted]
    · obtain ⟨next, nested, leaves⟩ := nestSplitIntoCollection_leaves sound located split direction
      refine ⟨next, ?_, leaves.trans (leavesWith_congr (by simp [Appends, same]))⟩
      rw [if_neg (by exact same), nested]

theorem sideOf_spec (parent : Node Split)
    (container_ : parent.value.type = .verticalContainer ∨ parent.value.type = .horizontalContainer) (it : Nat) :
    toContainerType (sideOf parent it) = parent.value.type ∧
      (sideOf parent it = .right ∨ sideOf parent it = .below ↔ it ≠ 0) := by
  unfold sideOf
  rcases container_ with type | type
  · by_cases first : it = 0
    · simp [type, first, toContainerType]
    · simp [type, first, toContainerType]
  · by_cases first : it = 0
    · simp [type, first, toContainerType]
    · simp [type, first, toContainerType]

theorem positionBeside_last {front : List (Node Split)} (value : NodeData Split) (last node : Node Split) :
    positionBeside (.node value (front ++ [last] ++ [node])) (front ++ [last]).length =
      some ⟨some last.value.id, sideOf (.node value (front ++ [last] ++ [node])) 1⟩ := by
  unfold positionBeside
  rw [children_node, Node.eraseIdx_child, if_pos (by simp)]
  simp [sideOf]

theorem positionBeside_next {front back : List (Node Split)} (value : NodeData Split) (node next : Node Split) :
    positionBeside (.node value (front ++ node :: next :: back)) front.length =
      some ⟨some next.value.id, sideOf (.node value (front ++ node :: next :: back)) 0⟩ := by
  unfold positionBeside
  rw [children_node, if_neg (by simp), List.getElem?_append_right (Nat.le_succ _)]
  simp [sideOf]
  rfl

/-- The node that the sibling of a released split has become. -/
def merged (data : NodeData Split) (sibling : Node Split) : Node Split :=
  .node { data with type := sibling.value.type, split := sibling.value.split }
    (sibling.children.map (Node.setParent data.id))

theorem leaves_merged (data : NodeData Split) (sibling : Node Split) : (merged data sibling).leaves = sibling.leaves := by
  cases sibling
  rw [merged, Node.leaves_node, children_node, Node.flatMap_leaves_setParent, Node.leaves_node]
  rfl

/-! ## Behind a layout -/

/-- The tree that was laid out has the same places. -/
theorem layout_plug (located : container.baseNode = plug surroundings node) :
    ∃ (surroundings' : List (Frame (NodeData Split))) (node' : Node Split),
      container.layout.baseNode = plug surroundings' node' ∧
      surroundings'.map (Frame.map NodeData.outline) = surroundings.map (Frame.map NodeData.outline) ∧
      node'.outline = node.outline := by
  have same := container.outline_of_layout
  rw [located] at same
  exact exists_plug_of_map (same.trans (map_plug _ _ _))

theorem value_of_outline {node node' : Node Split} (same : node'.outline = node.outline) :
    node'.value.id = node.value.id ∧ node'.value.type = node.value.type := by
  have data : node'.value.outline = node.value.outline := by
    cases node
    cases node'
    rw [Node.outline_node, Node.outline_node, RoseTree.node.injEq] at same
    exact same.1
  exact ⟨(congrArg NodeData.id data :), (congrArg NodeData.type data :)⟩

theorem leavesWith_outline {surroundings surroundings' : List (Frame (NodeData Split))} {node node' : Node Split}
    (around : surroundings'.map (Frame.map NodeData.outline) = surroundings.map (Frame.map NodeData.outline))
    (same : node'.outline = node.outline) (split : Split) (behind : Prop) [Decidable behind] :
    leavesWith surroundings' node' split behind = leavesWith surroundings node split behind := by
  rw [leavesWith, leavesWith, ← Node.leavesBefore_outline surroundings', ← Node.leavesAfter_outline surroundings', around,
    Node.leavesBefore_outline, Node.leavesAfter_outline, ← Node.leaves_outline node', same, Node.leaves_outline]

theorem appends_outline {surroundings surroundings' : List (Frame (NodeData Split))} {node node' : Node Split}
    (around : surroundings'.map (Frame.map NodeData.outline) = surroundings.map (Frame.map NodeData.outline))
    (same : node'.outline = node.outline) (direction : SplitDirection) :
    Appends surroundings' node' direction ↔ Appends surroundings node direction := by
  unfold Appends
  rw [(value_of_outline same).2]
  apply and_congr_right'
  cases surroundings with
  | nil =>
    rw [List.map_eq_nil_iff.mp around]
  | cons frame surroundings =>
    obtain ⟨frame', rest, rfl, first, -⟩ := List.map_eq_cons_iff.mp around
    have type : frame'.value.type = frame.value.type := congrArg (fun frame => frame.value.type) first
    simp [type]

variable [DecidableEq Split]

/-- Inserting at a position in the tree that was laid out. -/
theorem insertSplit_leaves (sound : container.layout.Sound) (located : container.baseNode = plug surroundings node)
    (occupied : node.value.type ≠ .emptyRoot) (split : Split) (direction : SplitDirection) :
    ∃ restored, container.layout.insertSplit split ⟨some ⟨some node.value.id, direction⟩, none, none, none⟩ = some restored ∧
      restored.baseNode.leaves = leavesWith surroundings node split
        (direction = .right ∨ direction = .below ∨ Appends surroundings node direction) := by
  obtain ⟨surroundings', node', located', around, same⟩ := layout_plug located
  obtain ⟨id, type⟩ := value_of_outline same
  obtain ⟨next, inserted, leaves⟩ := insertSplitRelative_leaves sound located' (type ▸ occupied) split direction
  have found := node?_plug located' sound.distinct
  rw [id] at inserted found
  refine ⟨next.addSplit split, ?_, ?_⟩
  · simp [insertSplit, resolve, insertNode, found, inserted]
  · rw [← Node.leaves_outline, addSplit, outline_of_layout, Node.leaves_outline, leaves, leavesWith_outline around same]
    exact leavesWith_congr (by rw [appends_outline around same])

/-! ## The position of a released split -/

/-- The split is the first of two children, the other one is a container of the same type, and no
container of that type is around them. -/
def LosesPlace (container : SplitContainer Split) (split : Split) : Prop :=
  ∃ node parent sibling, container.findNodeContainingSplit split = some node ∧
    node.value.parent = some parent.value.id ∧ container.node? parent.value.id = some parent ∧
    parent.children = [node, sibling] ∧ sibling.value.type = parent.value.type ∧
    ∀ above grandparent, parent.value.parent = some above → container.node? above = some grandparent →
      grandparent.value.type ≠ parent.value.type

theorem losesPlace_iff (sound : container.Sound) (located : container.baseNode = plug (frame :: surroundings) node)
    {split : Split} (found : container.findNodeContainingSplit split = some node) :
    container.LosesPlace split ↔ frame.front = [] ∧ ∃ sibling, frame.back = [sibling] ∧
      sibling.value.type = frame.value.type ∧ ∀ above ∈ surroundings.head?, above.value.type ≠ frame.value.type := by
  have placed := sound.placed
  rw [located] at placed
  have pointer : node.value.parent = some frame.value.id := placed.unplug.here.1
  have around : Node.Placed (keyAbove NodeData.id none surroundings) (frame.fill node) := Everywhere.unplug placed
  have pointer' : frame.value.parent = keyAbove NodeData.id none surroundings := around.here.1
  obtain ⟨known, index, -⟩ := parent_plug located sound.distinct
  constructor
  · rintro ⟨node', parent, sibling, found', above, known', children, type, other⟩
    obtain rfl := Option.some.inj (found.symm.trans found')
    have same := Option.some.inj (pointer.symm.trans above)
    rw [← same, known, Option.some.injEq] at known'
    subst known'
    change frame.front ++ node :: frame.back = [node, sibling] at children
    rw [children, List.findIdx?_cons, beq_self_eq_true, if_pos rfl] at index
    have first : frame.front = [] := List.length_eq_zero_iff.mp (Option.some.inj index).symm
    rw [first, List.nil_append, List.cons.injEq] at children
    refine ⟨first, sibling, children.2, type, ?_⟩
    cases surroundings with
    | nil =>
      intro above none_
      cases none_
    | cons outer surroundings =>
      rintro _ ⟨⟩
      obtain ⟨grandparent, -, -⟩ := @parent_plug _ _ _ _ (frame.fill node) located sound.distinct
      exact other _ _ pointer' grandparent
  · rintro ⟨first, sibling, second, type, other⟩
    refine ⟨node, frame.fill node, sibling, found, pointer, known, ?_, type, ?_⟩
    · rw [Frame.fill, children_node, first, second]
      rfl
    · intro above grandparent up reached
      cases surroundings with
      | nil =>
        rw [show (frame.fill node).value.parent = none from pointer'] at up
        cases up
      | cons outer surroundings =>
        obtain ⟨known', -, -⟩ := @parent_plug _ _ _ _ (frame.fill node) located sound.distinct
        obtain rfl := Option.some.inj (up.symm.trans pointer')
        obtain rfl := Option.some.inj (reached.symm.trans known')
        exact other outer rfl

theorem releaseSplit_eq (sound : container.Sound) {split : Split} (member : split ∈ container.splits)
    (found : container.findNodeContainingSplit split = some node) {position : Position} {after : SplitContainer Split}
    (released : releaseNode { container with splits := container.splits.erase split } node.value.id =
      some (position, after)) :
    container.releaseSplit split = some (position, after.layout) ∧ after.layout.Sound := by
  have taken : container.releaseSplit split = some (position, after.layout) := by
    rw [releaseSplit, found]
    simp only [Option.bind_eq_bind, Option.bind_some, member, guard_true, Option.pure_def, released]
  obtain ⟨_, _, released', sound', -⟩ := releaseSplit_sound sound member
  obtain ⟨rfl, rfl⟩ := Prod.mk.inj (Option.some.inj (taken.symm.trans released'))
  exact ⟨taken, sound'⟩

/-- A released split that is inserted again, and the order of the leaves then. -/
def Restores (container : SplitContainer Split) (split : Split) (leaves : List Split) : Prop :=
  ∃ position released restored, container.releaseSplit split = some (position, released) ∧
    released.insertSplit split ⟨some position, none, none, none⟩ = some restored ∧ restored.baseNode.leaves = leaves

variable (surroundings) in
theorem restores_beside (sound : container.Sound) {split : Split} (member : split ∈ container.splits)
    (found : container.findNodeContainingSplit split = some node)
    (near : Node Split) {after : SplitContainer Split} {direction : SplitDirection}
    (released : releaseNode { container with splits := container.splits.erase split } node.value.id =
      some (⟨some near.value.id, direction⟩, after))
    (located : after.baseNode = plug surroundings near) (occupied : near.value.type ≠ .emptyRoot) :
    container.Restores split (leavesWith surroundings near split
      (direction = .right ∨ direction = .below ∨ Appends surroundings near direction)) := by
  obtain ⟨taken, sound'⟩ := releaseSplit_eq sound member found released
  obtain ⟨restored, inserted, leaves⟩ := insertSplit_leaves sound' located occupied split direction
  exact ⟨_, _, restored, taken, inserted, leaves⟩

/-- In a container of more than two the split goes back to where it was. -/
theorem restores_more (sound : container.Sound) {split : Split} (member : split ∈ container.splits)
    (found : container.findNodeContainingSplit split = some node)
    (located : container.baseNode = plug (frame :: surroundings) node) (type : node.value.type = .split)
    (leaf : node.leaves = [split]) (more : 2 ≤ (frame.front ++ frame.back).length) :
    container.Restores split container.baseNode.leaves := by
  have placed := sound.placed
  rw [located] at placed
  have pointer : node.value.parent = some frame.value.id := placed.unplug.here.1
  have parentPlaced : Node.Placed (keyAbove NodeData.id none surroundings) (frame.fill node) := Everywhere.unplug placed
  obtain ⟨container_, -⟩ := parent_container parentPlaced
  have below := (everywhere_fill.mp parentPlaced).2.1
  obtain ⟨value, front, back⟩ := frame
  cases back with
  | nil =>
    rw [List.append_nil] at more
    obtain ⟨front, last, rfl⟩ : ∃ front' last, front = front' ++ [last] :=
      ⟨_, _, (List.dropLast_append_getLast (List.ne_nil_of_length_pos (Nat.zero_lt_of_lt more))).symm⟩
    have occupied : last.value.type ≠ .emptyRoot := (below last (by simp)).here.2.occupied
    have side := sideOf_spec (.node value (front ++ [last] ++ [node])) container_ 1
    have released := @releaseNode_leaves _ { container with splits := container.splits.erase split } _ _ _ located
      sound.distinct type pointer (by simpa using more) _ (positionBeside_last value last node)
    have restores := restores_beside (⟨value, front, []⟩ :: surroundings) sound member found last released
      (by simp [Frame.fill]) occupied
    rw [leavesWith_congr (iff_true_intro (or_assoc.mp (.inl (side.2.mpr Nat.one_ne_zero))))] at restores
    rw [located, Node.leaves_plug_order, leaf]
    simpa [leavesWith, Node.leavesBefore, Node.leavesAfter] using restores
  | cons next back =>
    have occupied : next.value.type ≠ .emptyRoot := (below next (by simp)).here.2.occupied
    have side := sideOf_spec (.node value (front ++ node :: next :: back)) container_ 0
    have released := @releaseNode_leaves _ { container with splits := container.splits.erase split } _ _ _ located
      sound.distinct type pointer more _ (positionBeside_next value node next)
    have restores := restores_beside (⟨value, front, back⟩ :: surroundings) sound member found next released
      rfl occupied
    have apart : ¬ Appends (⟨value, front, back⟩ :: surroundings) next
        (sideOf (.node value (front ++ node :: next :: back)) 0) := by
      simp [Appends, side.1]
    have before : ¬ (sideOf (.node value (front ++ node :: next :: back)) 0 = .right ∨
        sideOf (.node value (front ++ node :: next :: back)) 0 = .below) := fun behind => side.2.mp behind rfl
    rw [leavesWith_congr (iff_false_intro (fun behind => (or_assoc.mpr behind).elim before apart))] at restores
    rw [located, Node.leaves_plug_order, leaf]
    simpa [leavesWith, Node.leavesBefore, Node.leavesAfter] using restores

/-- In a container of two the split goes back to its side, unless it loses its place. -/
theorem restores_pair (sound : container.Sound) (once : container.baseNode.leaves.Nodup) {split : Split}
    (member : split ∈ container.splits) (found : container.findNodeContainingSplit split = some node)
    (located : container.baseNode = plug (frame :: surroundings) node) (type : node.value.type = .split)
    (leaf : node.leaves = [split]) {sibling : Node Split} (only : frame.front ++ frame.back = [sibling]) :
    ∃ leaves, container.Restores split leaves ∧ (leaves = container.baseNode.leaves ↔ ¬ container.LosesPlace split) := by
  have placed := sound.placed
  rw [located] at placed
  have pointer : node.value.parent = some frame.value.id := placed.unplug.here.1
  have parentPlaced : Node.Placed (keyAbove NodeData.id none surroundings) (frame.fill node) := Everywhere.unplug placed
  obtain ⟨container_, -⟩ := parent_container parentPlaced
  have below : sibling.Placed (some frame.value.id) := (everywhere_fill.mp parentPlaced).2.1 sibling (by simp [only])
  have occupied : (merged frame.value sibling).value.type ≠ .emptyRoot := below.here.2.occupied
  have side := sideOf_spec (frame.fill node) container_ frame.front.length
  have released := @releaseNode_merges _ { container with splits := container.splits.erase split } _ _ _ located
    sound.distinct type pointer _ only
  have restores := restores_beside surroundings sound member found (merged frame.value sibling) released rfl occupied
  refine ⟨_, restores, ?_⟩
  rw [losesPlace_iff sound located found]
  rw [located, Node.leaves_plug_order, leaf] at once
  rw [located, Node.leaves_plug_order, leaf]
  obtain ⟨value, front, back⟩ := frame
  have noLeaf : value.leaf? = none := container_leaf container_
  rcases List.append_eq_singleton_iff.mp only with ⟨rfl, rfl⟩ | ⟨rfl, rfl⟩
  · have before : ¬ (sideOf (Frame.fill ⟨value, [], [sibling]⟩ node) 0 = .right ∨
        sideOf (Frame.fill ⟨value, [], [sibling]⟩ node) 0 = .below) := fun behind => side.2.mp behind rfl
    have loses : (sideOf (Frame.fill ⟨value, [], [sibling]⟩ node) 0 = .right ∨
        sideOf (Frame.fill ⟨value, [], [sibling]⟩ node) 0 = .below ∨
        Appends surroundings (merged value sibling) (sideOf (Frame.fill ⟨value, [], [sibling]⟩ node) 0)) ↔
        sibling.value.type = value.type ∧ ∀ above ∈ surroundings.head?, above.value.type ≠ value.type := by
      have same : toContainerType (sideOf (Frame.fill ⟨value, [], [sibling]⟩ node) 0) = value.type := side.1
      rw [← or_assoc, or_iff_right before, Appends, same]
      rfl
    have place : (([] : List (Node Split)) = [] ∧ ∃ other, [sibling] = [other] ∧ other.value.type = value.type ∧
        ∀ above ∈ surroundings.head?, above.value.type ≠ value.type) ↔
        sibling.value.type = value.type ∧ ∀ above ∈ surroundings.head?, above.value.type ≠ value.type := by
      simp
    refine (Eq.congr (leavesWith_congr loses) rfl).trans ?_
    rw [place, leavesWith, Node.leavesBefore, Node.leavesAfter, leaves_merged, noLeaf]
    rw [Node.leavesBefore, Node.leavesAfter, noLeaf] at once
    simp only [List.flatMap_nil, List.flatMap_cons, Option.toList_none, List.append_nil] at once ⊢
    split
    · next lost =>
      apply iff_of_false _ (not_not_intro lost)
      intro same
      have shifted := List.append_cancel_left same
      rw [← List.append_assoc, List.append_cancel_right_eq] at shifted
      -- the first leaf of the sibling is another one
      obtain ⟨first, rest, shape⟩ := List.exists_cons_of_ne_nil (Node.leaves_ne_nil below)
      rw [shape] at shifted once
      obtain rfl : first = split := (List.cons.inj shifted).1
      have apart := (List.nodup_append.mp once).2.1
      simp at apart
    · next kept => exact iff_of_true (by simp) kept
  · rw [leavesWith_congr (iff_true_intro (or_assoc.mp (.inl (side.2.mpr Nat.one_ne_zero))))]
    simp [leavesWith, Node.leavesBefore, Node.leavesAfter, leaves_merged, noLeaf]

/-- The only split of a container goes back to the root. -/
theorem restores_root (sound : container.Sound) {split : Split} (member : split ∈ container.splits)
    (found : container.findNodeContainingSplit split = some node) (located : container.baseNode = node)
    (type : node.value.type = .split) (leaf : node.leaves = [split]) :
    container.Restores split container.baseNode.leaves := by
  have root : container.baseNode = plug [] node := located
  have placed := sound.placed
  rw [located] at placed
  have single : container.splits = [split] := by
    have members := sound.members
    rw [located, leaf] at members
    exact List.perm_singleton.mp members.symm
  have released := @releaseNode_root _ { container with splits := container.splits.erase split } _ located sound.distinct
    type placed.here.1
  obtain ⟨taken, sound'⟩ := releaseSplit_eq sound member found released
  obtain ⟨restored, inserted⟩ := @insertSplit_sound _ _ _ sound' ⟨some ⟨none, .right⟩, none, none, none⟩
    ⟨rfl, rfl, rfl, fun _ impossible => absurd impossible (Option.some_ne_none _).symm⟩ split
  obtain ⟨sound'', splits⟩ := sound'.insertSplit inserted
  refine ⟨_, _, restored, taken, inserted, ?_⟩
  rw [layout_splits, single, List.erase_cons_head] at splits
  have members := sound''.members
  rw [splits] at members
  rw [located, leaf]
  exact List.perm_singleton.mp members

theorem restores_iff (sound : container.Sound) (once : container.baseNode.leaves.Nodup) {split : Split}
    (member : split ∈ container.splits) :
    ∃ leaves, container.Restores split leaves ∧ (leaves = container.baseNode.leaves ↔ ¬ container.LosesPlace split) := by
  obtain ⟨node, found, own, type, holds⟩ := findNodeContainingSplit_of_mem sound member
  obtain ⟨-, surroundings, located⟩ := node?_eq_some own
  have placed := sound.placed
  rw [located] at placed
  have childless : node.children = [] := by
    have fits := placed.unplug.here.2
    rw [type] at fits
    exact List.length_eq_zero_iff.mp fits.2
  have leaf : node.leaves = [split] := by
    rw [← eta node, Node.leaves_node, childless]
    simp [NodeData.leaf?, type, holds]
  cases surroundings with
  | nil =>
    refine ⟨_, restores_root sound member found located type leaf, iff_of_true rfl ?_⟩
    rintro ⟨node', parent, -, found', pointer, -⟩
    obtain rfl := Option.some.inj (found.symm.trans found')
    rw [show node.value.parent = none from placed.here.1] at pointer
    cases pointer
  | cons frame surroundings =>
    have parentPlaced : Node.Placed (keyAbove NodeData.id none surroundings) (frame.fill node) := Everywhere.unplug placed
    by_cases two : (frame.front ++ frame.back).length = 1
    · obtain ⟨sibling, only⟩ := List.length_eq_one_iff.mp two
      exact restores_pair sound once member found located type leaf only
    · have enough := (parent_container parentPlaced).2
      refine ⟨_, restores_more sound member found located type leaf (by omega), iff_of_true rfl ?_⟩
      rw [losesPlace_iff sound located found]
      rintro ⟨first, sibling, second, -⟩
      exact two (by rw [first, second]; rfl)

/-- Behind every run, a released split goes back to its place if and only if it does not lose it. -/
theorem release_restores {actions : List (Action Split)} (ran : run SplitContainer.step empty actions = some container)
    (new : Along SplitContainer.step InsertsNew empty actions) {split : Split} (member : split ∈ container.splits) :
    ∃ position released restored, container.releaseSplit split = some (position, released) ∧
      released.insertSplit split ⟨some position, none, none, none⟩ = some restored ∧
      (restored.baseNode.leaves = container.baseNode.leaves ↔ ¬ container.LosesPlace split) := by
  obtain ⟨leaves, ⟨position, released, restored, taken, inserted, rfl⟩, same⟩ :=
    restores_iff (sound_of_run ran) (leaves_nodup ran new) member
  exact ⟨position, released, restored, taken, inserted, same⟩

/-- Two splits below each other; the first one goes back above the other. -/
theorem release_restores_pair : ∃ container position released restored,
    run SplitContainer.step (empty : SplitContainer Nat)
      [.insertSplit 1 ⟨none, none, none, none⟩, .insertSplit 2 ⟨none, some 1, none, some .below⟩] = some container ∧
      container.releaseSplit 1 = some (position, released) ∧
      released.insertSplit 1 ⟨some position, none, none, none⟩ = some restored ∧
      (restored.baseNode.leaves = container.baseNode.leaves ↔ ¬ container.LosesPlace 1) := by
  obtain ⟨position, released, restored, taken, inserted, same⟩ := @release_restores Nat _ _
    [.insertSplit 1 ⟨none, none, none, none⟩, .insertSplit 2 ⟨none, some 1, none, some .below⟩] rfl
    (by decide) 1 (by decide)
  exact ⟨_, position, released, restored, rfl, taken, inserted, same⟩

/-- The leaves of the container behind a run, and those when a split of it was released and inserted again. -/
def ordersBehind (actions : List (Action Nat)) (split : Nat) : Option (List Nat × List Nat) := do
  let container ← run SplitContainer.step empty actions
  let (position, released) ← container.releaseSplit split
  let restored ← released.insertSplit split ⟨some position, none, none, none⟩
  return (container.baseNode.leaves, restored.baseNode.leaves)

/-- The split above two others, from between which one was released, comes back below them. -/
theorem release_loses_place :
    Along SplitContainer.step InsertsNew (empty : SplitContainer Nat)
      [.insertSplit 1 ⟨none, none, none, none⟩, .insertSplit 2 ⟨none, some 1, none, some .below⟩,
        .insertSplit 3 ⟨none, some 2, none, some .right⟩, .insertSplit 4 ⟨none, some 3, none, some .below⟩,
        .releaseSplit 2] ∧
    ordersBehind [.insertSplit 1 ⟨none, none, none, none⟩, .insertSplit 2 ⟨none, some 1, none, some .below⟩,
      .insertSplit 3 ⟨none, some 2, none, some .right⟩, .insertSplit 4 ⟨none, some 3, none, some .below⟩,
      .releaseSplit 2] 1 = some ([1, 3, 4], [3, 4, 1]) := by
  decide +kernel

end SplitContainer

end Forserino.Splits
