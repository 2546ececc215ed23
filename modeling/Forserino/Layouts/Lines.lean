import Mathlib.Data.List.Perm.Basic
import Forserino.Layouts.Container
import Forserino.Layouts.Copying

/-! The lines of a laid-out message: which of its elements and which selection indices they cover.

Whatever is called, the lines follow one another. A line without elements comes from breaking a line
where it begins.
-/

set_option autoImplicit false

namespace Forserino.Layouts

open Forserino.Foundation Forserino.Qt

/-- Lines that follow one another from an index to another one, none of them empty. -/
def Consecutive (stop : Nat) : Nat → List Line → Prop
  | start, [] => start = stop
  | start, line :: rest => line.startIndex = start ∧ start < line.endIndex ∧ Consecutive stop line.endIndex rest

/-- The selection indices of a line are those of its elements. -/
def Covers (elements : List MessageLayoutElement) (line : Line) : Prop :=
  line.startCharIndex = selectionLength (elements.take line.startIndex) ∧
    line.endCharIndex = selectionLength (elements.take line.endIndex)

namespace MessageLayoutContainer

/-- The lines partition the elements and their selection indices. -/
structure Partitioned (c : MessageLayoutContainer) : Prop where
  consecutive : Consecutive c.elements.length 0 c.lines
  covers : ∀ line ∈ c.lines, Covers c.elements line

/-- A line is only broken where it has an element. -/
def Filled (context : LayoutContext) (c : MessageLayoutContainer) : Call → Prop
  | .addElement element => c.fitsInLine context element.width = true ∨ c.atStartOfLine = false
  | .addElementNoLineBreak _ => True
  | .breakLine => c.atStartOfLine = false

/-- The last element does not lose a trailing space that was counted; dots at the end of a full message would. -/
def EndsWithoutSpace (c : MessageLayoutContainer) : Prop :=
  c.canAddMessages = true ∧ ∀ element ∈ c.elements.getLast?, element.trailingSpace = false ∨ element.kind = .replyCurve

end MessageLayoutContainer

/-! ## Lines that follow one another -/

/-- Lines that follow one another, of which some can be empty. -/
def Chained (stop : Nat) : Nat → List Line → Prop
  | start, [] => start = stop
  | start, line :: rest => line.startIndex = start ∧ start ≤ line.endIndex ∧ Chained stop line.endIndex rest

theorem consecutive_iff {start stop : Nat} {lines : List Line} (chained : Chained stop start lines) :
    Consecutive stop start lines ↔ ∀ line ∈ lines, line.startIndex < line.endIndex := by
  induction lines generalizing start with
  | nil => exact ⟨fun _ _ member => absurd member List.not_mem_nil, fun _ => chained⟩
  | cons line rest ih =>
    obtain ⟨same, -, rest_⟩ := chained
    rw [Consecutive, List.forall_mem_cons, ih rest_, ← same]
    exact ⟨fun all => ⟨all.2.1, all.2.2⟩, fun all => ⟨rfl, all.1, all.2⟩⟩

theorem Consecutive.chained {start stop : Nat} {lines : List Line} (consecutive : Consecutive stop start lines) :
    Chained stop start lines := by
  induction lines generalizing start with
  | nil => exact consecutive
  | cons line rest ih => exact ⟨consecutive.1, Nat.le_of_lt consecutive.2.1, ih consecutive.2.2⟩

theorem chained_bounds {start stop : Nat} {lines : List Line} (chained : Chained stop start lines) :
    start ≤ stop ∧ ∀ line ∈ lines, line.startIndex ≤ stop ∧ line.endIndex ≤ stop := by
  induction lines generalizing start with
  | nil => exact ⟨Nat.le_of_eq chained, fun _ member => absurd member List.not_mem_nil⟩
  | cons line rest ih =>
    obtain ⟨same, le, rest_⟩ := chained
    obtain ⟨bound, bounds⟩ := ih rest_
    exact ⟨Nat.le_trans le bound, List.forall_mem_cons.mpr ⟨⟨same ▸ Nat.le_trans le bound, bound⟩, bounds⟩⟩

theorem chained_concat {start stop : Nat} {lines : List Line} {line : Line} (chained : Chained line.startIndex start lines)
    (le : line.startIndex ≤ line.endIndex) (ends : line.endIndex = stop) : Chained stop start (lines ++ [line]) := by
  induction lines generalizing start with
  | nil => exact ⟨chained.symm, chained ▸ le, ends⟩
  | cons first rest ih => exact ⟨chained.1, chained.2.1, ih chained.2.2⟩

theorem closeLine_concat (lines : List Line) (line : Line) (endIndex endCharIndex : Nat) :
    closeLine (lines ++ [line]) endIndex endCharIndex = lines ++ [{ line with endIndex, endCharIndex }] := by
  induction lines with
  | nil => rfl
  | cons first rest ih =>
    cases rest with
    | nil => rfl
    | cons next rest => exact congrArg (first :: ·) ih

/-! ## Selection indices -/

theorem selectionLength_take {a b : List MessageLayoutElement}
    (same : a.map MessageLayoutElement.getSelectionIndexCount = b.map MessageLayoutElement.getSelectionIndexCount) (i : Nat) :
    selectionLength (a.take i) = selectionLength (b.take i) := by
  rw [selectionLength, selectionLength, List.map_take, same, ← List.map_take]

theorem Covers.of_counts {a b : List MessageLayoutElement} {line : Line} (covers : Covers a line)
    (same : a.map MessageLayoutElement.getSelectionIndexCount = b.map MessageLayoutElement.getSelectionIndexCount) :
    Covers b line :=
  ⟨(selectionLength_take same _) ▸ covers.1, (selectionLength_take same _) ▸ covers.2⟩

/-- More elements do not change what a line covers. -/
theorem Covers.append {elements more : List MessageLayoutElement} {line : Line} (covers : Covers elements line)
    (start : line.startIndex ≤ elements.length) (stop : line.endIndex ≤ elements.length) : Covers (elements ++ more) line := by
  unfold Covers
  rw [List.take_append_of_le_length start, List.take_append_of_le_length stop]
  exact covers

/-! ## Placing elements -/

namespace MessageLayoutElement

/-- An element without its place. -/
def unplaced (e : MessageLayoutElement) : MessageLayoutElement := { e with x := 0, line := 0 }

end MessageLayoutElement

theorem counts_of_unplaced {a b : List MessageLayoutElement}
    (same : a.map MessageLayoutElement.unplaced = b.map MessageLayoutElement.unplaced) :
    a.map MessageLayoutElement.getSelectionIndexCount = b.map MessageLayoutElement.getSelectionIndexCount := by
  have counts := congrArg (List.map MessageLayoutElement.getSelectionIndexCount) same
  rwa [List.map_map, List.map_map] at counts

theorem set_map_same {α β : Type} (f : α → β) {items : List α} {i : Nat} {a b : α} (there : items[i]? = some a)
    (same : f b = f a) : (items.set i b).map f = items.map f := by
  rw [List.map_set, same]
  apply List.ext_getElem?
  intro j
  by_cases here : i = j
  · subst here
    have inside := (List.getElem?_eq_some_iff.mp there).1
    rw [List.getElem?_set_self (by rwa [List.length_map]), List.getElem?_map, there]
    rfl
  · rw [List.getElem?_set_ne here]

namespace MessageLayoutContainer

variable {context : LayoutContext} {c next : MessageLayoutContainer}

/-- The number of the line in which each element is. -/
def numbers (c : MessageLayoutContainer) : List Nat := c.elements.map MessageLayoutElement.line

/-- The elements behind the start of the line are in it. -/
def OnLine (c : MessageLayoutContainer) : Prop := ∀ n ∈ c.numbers.drop c.lineStart, n = c.line

/-- Elements were placed elsewhere in their lines, and nothing else has changed by which lines are told. -/
structure Moved (c next : MessageLayoutContainer) : Prop where
  unplaced : next.elements.map MessageLayoutElement.unplaced = c.elements.map MessageLayoutElement.unplaced
  numbers : next.numbers = c.numbers
  lines : next.lines = c.lines
  line : next.line = c.line
  lineStart : next.lineStart = c.lineStart
  charIndex : next.charIndex = c.charIndex
  canAddMessages : next.canAddMessages = c.canAddMessages

theorem Moved.refl (c : MessageLayoutContainer) : c.Moved c := ⟨rfl, rfl, rfl, rfl, rfl, rfl, rfl⟩

theorem Moved.trans {later : MessageLayoutContainer} (first : c.Moved next) (second : next.Moved later) : c.Moved later where
  unplaced := second.unplaced.trans first.unplaced
  numbers := second.numbers.trans first.numbers
  lines := second.lines.trans first.lines
  line := second.line.trans first.line
  lineStart := second.lineStart.trans first.lineStart
  charIndex := second.charIndex.trans first.charIndex
  canAddMessages := second.canAddMessages.trans first.canAddMessages

theorem Moved.onLine (moved : c.Moved next) (onLine : c.OnLine) : next.OnLine := by
  unfold OnLine
  rw [moved.numbers, moved.lineStart, moved.line]
  exact onLine

theorem Moved.length (moved : c.Moved next) : next.elements.length = c.elements.length := by
  have lengths := congrArg List.length moved.unplaced
  rwa [List.length_map, List.length_map] at lengths

theorem replaceElement_moved (onLine : c.OnLine) {index : Nat} (inLine : c.lineStart ≤ index) (prevIndex : PrevIndex) :
    c.Moved (c.replaceElement context index prevIndex) := by
  unfold replaceElement
  split
  case h_1 element there =>
    split
    case isTrue => exact Moved.refl c
    case isFalse =>
      have same : element.line = c.line := by
        refine onLine _ (List.mem_of_getElem? (i := index - c.lineStart) ?_)
        rw [List.getElem?_drop, Nat.add_sub_cancel' inLine, numbers, List.getElem?_map, there]
        rfl
      exact ⟨set_map_same _ there rfl, set_map_same _ there same.symm, rfl, rfl, rfl, rfl, rfl⟩
  case h_2 => exact Moved.refl c

theorem replaceElements_moved (indices : List Nat) (onLine : c.OnLine) (inLine : ∀ index ∈ indices, c.lineStart ≤ index)
    (prevIndex : PrevIndex) : c.Moved (c.replaceElements context prevIndex indices) := by
  induction indices generalizing c prevIndex with
  | nil => exact Moved.refl c
  | cons index rest ih =>
    rw [List.forall_mem_cons] at inLine
    have first := @replaceElement_moved context c onLine index inLine.1 prevIndex
    exact first.trans (ih (first.onLine onLine) (fun i member => first.lineStart ▸ inLine.2 i member) (.at index))

/-- What is reordered are the elements that the loop goes through. -/
theorem reorder_mem {r : Reordering} {i : Nat} {seen : List Nat}
    (within : ∀ j ∈ r.correctSequence ++ r.swappedSequence, j ∈ seen) :
    ∀ j ∈ (c.reorder context r i).correctSequence ++ (c.reorder context r i).swappedSequence, j ∈ i :: seen := by
  have later : ∀ j ∈ r.correctSequence ++ r.swappedSequence, j ∈ i :: seen :=
    fun j member => List.mem_cons_of_mem i (within j member)
  unfold reorder
  split
  · exact later
  · dsimp only
    split
    · intro j member
      rw [← List.append_assoc] at member
      rcases List.mem_append.mp member with before | here
      · exact later j before
      · exact List.mem_cons.mpr (.inl (List.mem_singleton.mp here))
    · intro j member
      rw [List.append_nil] at member
      rcases List.mem_append.mp member with before | here
      · refine later j ?_
        rcases List.mem_append.mp before with correct | swapped
        · exact List.mem_append_left _ correct
        · exact List.mem_append_right _ (List.mem_reverse.mp swapped)
      · exact List.mem_cons.mpr (.inl (List.mem_singleton.mp here))

theorem reorder_all (indices : List Nat) {r : Reordering} {seen : List Nat}
    (within : ∀ j ∈ r.correctSequence ++ r.swappedSequence, j ∈ seen) :
    ∀ j ∈ (indices.foldl (c.reorder context) r).correctSequence ++ (indices.foldl (c.reorder context) r).swappedSequence,
      j ∈ seen ∨ j ∈ indices := by
  induction indices generalizing r seen with
  | nil => exact fun j member => .inl (within j member)
  | cons i indices ih =>
    intro j member
    rcases ih (reorder_mem within) j member with before | later
    · rcases List.mem_cons.mp before with rfl | before
      · exact .inr List.mem_cons_self
      · exact .inl before
    · exact .inr (List.mem_cons_of_mem i later)

theorem reorderRTL_moved (onLine : c.OnLine) (firstTextIndex : Nat) : c.Moved (c.reorderRTL context firstTextIndex) := by
  unfold reorderRTL
  dsimp only
  split
  · exact Moved.refl c
  · generalize (if c.isRTL then _ else _ : Int) = currentX
    have started : c.Moved { c with currentX } := ⟨rfl, rfl, rfl, rfl, rfl, rfl, rfl⟩
    refine started.trans (replaceElements_moved _ (started.onLine onLine) ?_ _)
    intro index member
    have placed : index ∈ List.range' (max c.lineStart firstTextIndex)
        (c.elements.length - 1 + 1 - max c.lineStart firstTextIndex) := by
      have all := @reorder_all context c (List.range' (max c.lineStart firstTextIndex)
        (c.elements.length - 1 + 1 - max c.lineStart firstTextIndex)) ⟨[], [], false⟩ []
        (fun j member => absurd member List.not_mem_nil) index
      rw [List.mem_append, List.mem_reverse] at member
      rcases all (List.mem_append.mpr member) with nothing | placed
      · exact absurd nothing List.not_mem_nil
      · exact placed
    exact Nat.le_trans (Nat.le_max_left _ _) (List.mem_range'_1.mp placed).1

theorem reordered_moved (onLine : c.OnLine) : c.Moved (c.reordered context) := by
  unfold reordered
  split
  · dsimp only
    cases c.elements.findIdx? fun element => element.flags.username with
    | none => exact ⟨rfl, rfl, rfl, rfl, rfl, rfl, rfl⟩
    | some i =>
      have moved := @reorderRTL_moved context c onLine (i + 1)
      exact ⟨moved.unplaced, moved.numbers, moved.lines, moved.line, moved.lineStart, moved.charIndex, moved.canAddMessages⟩
  · exact Moved.refl c

theorem shiftFrom_map {β : Type} (f : MessageLayoutElement → β) (keeps : ∀ e x, f { e with x } = f e) (start : Nat)
    (offset : Int) (elements : List MessageLayoutElement) : (shiftFrom start offset elements).map f = elements.map f := by
  have same : f ∘ (fun element : MessageLayoutElement => { element with x := element.x + offset }) = f :=
    funext fun e => keeps e _
  rw [shiftFrom, List.map_append, List.map_map, same, ← List.map_append, List.take_append_drop]

/-! ## Lines as they are laid out -/

/-- The lines, the last of them up to the start of the current one. -/
def closed (c : MessageLayoutContainer) : List Line := closeLine c.lines c.lineStart c.charIndex

/-- The elements before an index are in other lines than those behind it. -/
def Boundary (c : MessageLayoutContainer) (i : Nat) : Prop :=
  ∃ m ≤ c.line, (∀ n ∈ c.numbers.take i, n < m) ∧ ∀ n ∈ c.numbers.drop i, m ≤ n

/-- What holds of the lines while elements are added. As long as the message is not full, a new line has
a new number. -/
structure Ruled (c : MessageLayoutContainer) : Prop where
  onLine : c.OnLine
  inside : c.lineStart ≤ c.elements.length
  chained : Chained c.lineStart 0 c.closed
  covers : ∀ line ∈ c.closed, Covers c.elements line
  charIndex : c.charIndex = selectionLength (c.elements.take c.lineStart)
  before : c.canAddMessages = true → ∀ n ∈ c.numbers.take c.lineStart, n < c.line
  boundaries : c.canAddMessages = true → ∀ line ∈ c.closed, c.Boundary line.startIndex

/-- No line is empty. -/
def NoEmpty (c : MessageLayoutContainer) : Prop := ∀ line ∈ c.closed, line.startIndex < line.endIndex

theorem Moved.closed (moved : c.Moved next) : next.closed = c.closed := by
  unfold MessageLayoutContainer.closed
  rw [moved.lines, moved.lineStart, moved.charIndex]

theorem Moved.boundary (moved : c.Moved next) {i : Nat} : next.Boundary i ↔ c.Boundary i := by
  unfold Boundary
  rw [moved.numbers, moved.line]

theorem Moved.ruled (moved : c.Moved next) (ruled : c.Ruled) : next.Ruled := by
  have counts := counts_of_unplaced moved.unplaced
  refine ⟨moved.onLine ruled.onLine, ?_, ?_, ?_, ?_, ?_, ?_⟩
  · rw [moved.lineStart, moved.length]
    exact ruled.inside
  · rw [moved.lineStart, moved.closed]
    exact ruled.chained
  · rw [moved.closed]
    exact fun line member => (ruled.covers line member).of_counts counts.symm
  · rw [moved.charIndex, moved.lineStart, selectionLength_take counts]
    exact ruled.charIndex
  · rw [moved.canAddMessages, moved.numbers, moved.lineStart, moved.line]
    exact ruled.before
  · rw [moved.canAddMessages, moved.closed]
    exact fun can line member => moved.boundary.mpr (ruled.boundaries can line member)

theorem ruled_begin (textDirection : TextDirection) : (beginLayout textDirection).Ruled :=
  ⟨fun _ member => absurd member List.not_mem_nil, Nat.le_refl 0, rfl, fun _ member => absurd member List.not_mem_nil, rfl,
    fun _ _ member => absurd member List.not_mem_nil, fun _ _ member => absurd member List.not_mem_nil⟩

/-! ### Adding an element -/

/-- An element is added to the current line, or dropped where the message is full. -/
theorem pushElement_added (c : MessageLayoutContainer) (element : MessageLayoutElement) (forceAdd : Bool) :
    c.pushElement context element forceAdd = c ∧ c.canAddMessages = false ∧ forceAdd = false ∨
      ∃ x, (c.pushElement context element forceAdd).elements = c.elements ++ [{ element with x, line := c.line }] := by
  unfold pushElement canAddElements
  cases c.canAddMessages with
  | true => exact .inr ⟨_, rfl⟩
  | false => cases forceAdd with
    | true => exact .inr ⟨_, rfl⟩
    | false => exact .inl ⟨rfl, rfl, rfl⟩

theorem pushElement_frame (c : MessageLayoutContainer) (element : MessageLayoutElement) (forceAdd : Bool) :
    (c.pushElement context element forceAdd).lines = c.lines ∧ (c.pushElement context element forceAdd).line = c.line ∧
      (c.pushElement context element forceAdd).lineStart = c.lineStart ∧
      (c.pushElement context element forceAdd).charIndex = c.charIndex ∧
      (c.pushElement context element forceAdd).canAddMessages = c.canAddMessages := by
  unfold pushElement
  split <;> exact ⟨rfl, rfl, rfl, rfl, rfl⟩

theorem pushElement_closed (c : MessageLayoutContainer) (element : MessageLayoutElement) (forceAdd : Bool) :
    (c.pushElement context element forceAdd).closed = c.closed := by
  obtain ⟨lines, -, lineStart, charIndex, -⟩ := @pushElement_frame context c element forceAdd
  rw [closed, lines, lineStart, charIndex, closed]

theorem pushElement_numbers {element : MessageLayoutElement} {forceAdd : Bool} {x : Int}
    (elements : (c.pushElement context element forceAdd).elements = c.elements ++ [{ element with x, line := c.line }]) :
    (c.pushElement context element forceAdd).numbers = c.numbers ++ [c.line] := by
  rw [MessageLayoutContainer.numbers, elements, List.map_append]
  rfl

/-- The added element does not move where the lines are divided. -/
theorem Boundary.pushElement {element : MessageLayoutElement} {forceAdd : Bool} {i : Nat}
    (numbers : (c.pushElement context element forceAdd).numbers = c.numbers ++ [c.line])
    (within : i ≤ c.elements.length) (boundary : c.Boundary i) : (c.pushElement context element forceAdd).Boundary i := by
  obtain ⟨-, line, -⟩ := @pushElement_frame context c element forceAdd
  have within : i ≤ c.numbers.length := within.trans (Nat.le_of_eq (List.length_map _).symm)
  obtain ⟨m, le, first, last⟩ := boundary
  refine ⟨m, line ▸ le, ?_, ?_⟩
  · rw [numbers, List.take_append_of_le_length within]
    exact first
  · rw [numbers, List.drop_append_of_le_length within]
    intro n member
    rcases List.mem_append.mp member with before | here
    · exact last n before
    · rw [List.mem_singleton.mp here]
      exact le

theorem Ruled.pushElement (ruled : c.Ruled) (element : MessageLayoutElement) (forceAdd : Bool) :
    (c.pushElement context element forceAdd).Ruled := by
  rcases @pushElement_added context c element forceAdd with ⟨same, -⟩ | ⟨x, elements⟩
  · rw [same]
    exact ruled
  · have closed := @pushElement_closed context c element forceAdd
    obtain ⟨-, line, lineStart, charIndex, canAdd⟩ := @pushElement_frame context c element forceAdd
    have inside := ruled.inside
    have numbers := pushElement_numbers elements
    have length : c.numbers.length = c.elements.length := List.length_map _
    have bounds := (chained_bounds ruled.chained).2
    refine ⟨?_, ?_, ?_, ?_, ?_, ?_, ?_⟩
    · unfold OnLine
      rw [numbers, lineStart, line, List.drop_append_of_le_length (length ▸ inside)]
      intro n member
      rcases List.mem_append.mp member with before | here
      · exact ruled.onLine n before
      · exact List.mem_singleton.mp here
    · rw [lineStart, elements, List.length_append]
      exact Nat.le_add_right_of_le inside
    · rw [lineStart, closed]
      exact ruled.chained
    · rw [closed, elements]
      intro line member
      obtain ⟨start, stop⟩ := bounds line member
      exact (ruled.covers line member).append (Nat.le_trans start inside) (Nat.le_trans stop inside)
    · rw [charIndex, lineStart, elements, List.take_append_of_le_length inside]
      exact ruled.charIndex
    · rw [canAdd, numbers, lineStart, line, List.take_append_of_le_length (length ▸ inside)]
      exact ruled.before
    · rw [canAdd, closed]
      intro can line member
      exact (ruled.boundaries can line member).pushElement numbers (Nat.le_trans (bounds line member).1 inside)

/-! ### Breaking a line -/

/-- The line that is broken. -/
def brokenLine (c : MessageLayoutContainer) : Line :=
  ⟨c.lineStart, c.elements.length, c.charIndex,
    c.charIndex + ((c.elements.drop c.lineStart).map MessageLayoutElement.getSelectionIndexCount).sum⟩

/-- What breaking a line leaves: its elements are placed, it is closed, and either the message is full or
the next line begins. -/
theorem breakLine_broken (onLine : c.OnLine) :
    (c.breakLine context).elements.map MessageLayoutElement.unplaced = c.elements.map MessageLayoutElement.unplaced ∧
      (c.breakLine context).numbers = c.numbers ∧ (c.breakLine context).lineStart = c.elements.length ∧
      (c.breakLine context).charIndex = c.brokenLine.endCharIndex ∧
      (c.breakLine context).closed = c.closed ++ [c.brokenLine] ∧
      ((c.breakLine context).line = c.line ∧ (c.breakLine context).canAddMessages = false ∨
        (c.breakLine context).line = c.line + 1 ∧ (c.breakLine context).canAddMessages = c.canAddMessages) := by
  have moved := @reordered_moved context c onLine
  let elements := shiftFrom c.lineStart ((c.reordered context).centerOffset context + context.marginLeft)
    (c.reordered context).elements
  have unplaced : elements.map MessageLayoutElement.unplaced = c.elements.map MessageLayoutElement.unplaced :=
    (shiftFrom_map _ (fun _ _ => rfl) _ _ _).trans moved.unplaced
  have numbers : elements.map MessageLayoutElement.line = c.numbers :=
    (shiftFrom_map _ (fun _ _ => rfl) _ _ _).trans moved.numbers
  have length : elements.length = c.elements.length := by
    have lengths := congrArg List.length unplaced
    rwa [List.length_map, List.length_map] at lengths
  have counts : (elements.drop c.lineStart).map MessageLayoutElement.getSelectionIndexCount =
      (c.elements.drop c.lineStart).map MessageLayoutElement.getSelectionIndexCount := by
    rw [List.map_drop, counts_of_unplaced unplaced, ← List.map_drop]
  have closes : closeLine (closeLine c.lines c.lineStart c.charIndex ++ [⟨c.lineStart, 0, c.charIndex, 0⟩]) elements.length
      (c.charIndex + ((elements.drop c.lineStart).map MessageLayoutElement.getSelectionIndexCount).sum) =
        c.closed ++ [c.brokenLine] := by
    rw [closeLine_concat, length, counts]
    rfl
  unfold breakLine
  dsimp only
  rw [moved.lines, moved.lineStart, moved.charIndex, moved.line]
  split
  · refine ⟨unplaced, numbers, length, congrArg (c.charIndex + List.sum ·) counts, closes, .inl ⟨rfl, rfl⟩⟩
  · refine ⟨unplaced, numbers, length, congrArg (c.charIndex + List.sum ·) counts, closes, .inr ⟨rfl, moved.canAddMessages⟩⟩

theorem Ruled.brokenLine (ruled : c.Ruled) : Covers c.elements c.brokenLine ∧
    c.brokenLine.endCharIndex = selectionLength (c.elements.take c.elements.length) := by
  have stop : c.brokenLine.endCharIndex = selectionLength (c.elements.take c.elements.length) := by
    have parts := congrArg selectionLength (List.take_append_drop c.lineStart c.elements)
    rw [selectionLength, List.map_append, List.sum_append] at parts
    rw [List.take_length, ← parts]
    exact congrArg (· + _) ruled.charIndex
  exact ⟨⟨ruled.charIndex, stop⟩, stop⟩

theorem Ruled.chained_break (ruled : c.Ruled) : Chained c.elements.length 0 (c.closed ++ [c.brokenLine]) :=
  chained_concat ruled.chained ruled.inside rfl

/-- In a message that was not full, every line has a number of its own. -/
theorem Ruled.boundaries_break (ruled : c.Ruled) (can : c.canAddMessages = true) :
    ∀ line ∈ (c.breakLine context).closed, (c.breakLine context).Boundary line.startIndex := by
  obtain ⟨-, numbers, -, -, closed, next⟩ := @breakLine_broken context c ruled.onLine
  have later : c.line ≤ (c.breakLine context).line := by
    rcases next with ⟨same, -⟩ | ⟨same, -⟩
    · exact Nat.le_of_eq same.symm
    · exact same ▸ Nat.le_succ _
  rw [closed]
  intro line member
  unfold Boundary
  rw [numbers]
  rcases List.mem_append.mp member with before | here
  · obtain ⟨m, le, first, last⟩ := ruled.boundaries can line before
    exact ⟨m, Nat.le_trans le later, first, last⟩
  · rw [List.mem_singleton.mp here]
    exact ⟨c.line, later, ruled.before can, fun n inLine => Nat.le_of_eq (ruled.onLine n inLine).symm⟩

theorem Ruled.breakLine (ruled : c.Ruled) : (c.breakLine context).Ruled := by
  obtain ⟨unplaced, numbers, lineStart, charIndex, closed, next⟩ := @breakLine_broken context c ruled.onLine
  have counts := counts_of_unplaced unplaced
  have length : (c.breakLine context).elements.length = c.elements.length := by
    have lengths := congrArg List.length unplaced
    rwa [List.length_map, List.length_map] at lengths
  have allBefore : (c.breakLine context).numbers.drop (c.breakLine context).lineStart = [] := by
    rw [numbers, lineStart]
    exact List.drop_of_length_le (Nat.le_of_eq (List.length_map _))
  refine ⟨?_, ?_, ?_, ?_, ?_, ?_, ?_⟩
  · unfold OnLine
    rw [allBefore]
    exact fun n member => absurd member List.not_mem_nil
  · rw [lineStart, length]
  · rw [lineStart, closed]
    exact ruled.chained_break
  · rw [closed]
    intro line member
    rcases List.mem_append.mp member with before | here
    · exact (ruled.covers line before).of_counts counts.symm
    · rw [List.mem_singleton.mp here]
      exact ruled.brokenLine.1.of_counts counts.symm
  · rw [charIndex, lineStart, selectionLength_take counts]
    exact ruled.brokenLine.2
  · intro can n member
    rcases next with ⟨-, full⟩ | ⟨line, same⟩
    · rw [full] at can
      cases can
    · rw [line]
      rw [numbers, lineStart] at member
      have can := same.symm.trans can
      rw [← List.take_append_drop c.lineStart c.numbers, List.take_of_length_le (by
        rw [List.take_append_drop]; exact Nat.le_of_eq (List.length_map _))] at member
      rcases List.mem_append.mp member with before | here
      · exact Nat.lt_succ_of_lt (ruled.before can n before)
      · exact Nat.lt_succ_of_le (Nat.le_of_eq (ruled.onLine n here))
  · intro can
    rcases next with ⟨-, full⟩ | ⟨-, same⟩
    · rw [full] at can
      cases can
    · exact ruled.boundaries_break (same.symm.trans can)

/-- A line is empty where it is broken at its start. -/
theorem noEmpty_break (ruled : c.Ruled) :
    (c.breakLine context).NoEmpty ↔ c.NoEmpty ∧ c.atStartOfLine = false := by
  obtain ⟨-, -, -, -, closed, -⟩ := @breakLine_broken context c ruled.onLine
  have inside := ruled.inside
  unfold NoEmpty
  rw [closed, List.forall_mem_append, List.forall_mem_singleton, atStartOfLine, beq_eq_false_iff_ne]
  apply and_congr_right
  intro _
  show c.lineStart < c.elements.length ↔ _
  omega

theorem pushElement_noEmpty (c : MessageLayoutContainer) (element : MessageLayoutElement) (forceAdd : Bool) :
    (c.pushElement context element forceAdd).NoEmpty ↔ c.NoEmpty := by
  rw [NoEmpty, pushElement_closed, NoEmpty]

/-! ### Calls -/

theorem step_ruled {call : Call} (ruled : c.Ruled) (taken : c.step context call = some next) : next.Ruled := by
  cases call with
  | addElement element =>
    cases taken
    unfold addElement
    split
    · exact ruled.pushElement element false
    · exact ruled.breakLine.pushElement element false
  | addElementNoLineBreak element =>
    cases taken
    exact ruled.pushElement element false
  | breakLine =>
    cases taken
    exact ruled.breakLine

/-- A call leaves no empty line if and only if it breaks none where it begins. -/
theorem step_noEmpty {call : Call} (ruled : c.Ruled) (taken : c.step context call = some next) :
    next.NoEmpty ↔ c.NoEmpty ∧ c.Filled context call := by
  cases call with
  | addElement element =>
    cases taken
    unfold addElement Filled
    rw [pushElement_noEmpty]
    split
    case isTrue fits => simp [fits]
    case isFalse wide => simp [wide, noEmpty_break ruled]
  | addElementNoLineBreak element =>
    cases taken
    rw [addElementNoLineBreak, pushElement_noEmpty]
    exact ⟨fun noEmpty => ⟨noEmpty, trivial⟩, And.left⟩
  | breakLine =>
    cases taken
    exact noEmpty_break ruled

/-! ## The end of a layout -/

theorem withoutLastSpace_concat (elements : List MessageLayoutElement) (last : MessageLayoutElement) :
    withoutLastSpace (elements ++ [last]) = elements ++ [{ last with trailingSpace := false }] := by
  induction elements with
  | nil => rfl
  | cons first rest ih =>
    cases rest with
    | nil => rfl
    | cons second rest => exact congrArg (first :: ·) ih

/-- A container with the dots of a full message. -/
def dotted (context : LayoutContext) (c : MessageLayoutContainer) : MessageLayoutContainer :=
  if c.canAddElements then c else c.collapse context

/-- A container when its last line is broken. -/
def ended (context : LayoutContext) (c : MessageLayoutContainer) : MessageLayoutContainer :=
  if (c.dotted context).atStartOfLine then c.dotted context else (c.dotted context).breakLine context

theorem shiftedForDots_moved (c : MessageLayoutContainer) : c.Moved { c with elements := c.shiftedForDots context } := by
  have same (elements : List MessageLayoutElement)
      (unplaced : elements.map MessageLayoutElement.unplaced = c.elements.map MessageLayoutElement.unplaced)
      (numbers : elements.map MessageLayoutElement.line = c.numbers) : c.Moved { c with elements } :=
    ⟨unplaced, numbers, rfl, rfl, rfl, rfl, rfl⟩
  apply same
  all_goals
    unfold shiftedForDots
    split
    · split
      · exact shiftFrom_map _ (fun _ _ => rfl) _ _ _
      · rfl
    · rfl

/-- The dots behind a message that is full. -/
theorem collapse_dots (ruled : c.Ruled) : (c.collapse context).Ruled ∧ (c.collapse context).closed = c.closed ∧
    (c.collapse context).elements.map MessageLayoutElement.unplaced =
      c.elements.map MessageLayoutElement.unplaced ++ [(dotdotdot context).unplaced] := by
  have moved := @shiftedForDots_moved context c
  have pushed : (MessageLayoutContainer.pushElement context { c with elements := c.shiftedForDots context }
      (dotdotdot context) true).Ruled := (moved.ruled ruled).pushElement (dotdotdot context) true
  have collapsed (c : MessageLayoutContainer) : c.Moved { c with isCollapsed := true } := ⟨rfl, rfl, rfl, rfl, rfl, rfl, rfl⟩
  unfold collapse
  refine ⟨(collapsed _).ruled pushed, ?_, ?_⟩
  · rw [(collapsed _).closed, pushElement_closed, moved.closed]
  · rw [(collapsed _).unplaced]
    rcases @pushElement_added context { c with elements := c.shiftedForDots context } (dotdotdot context) true with
      ⟨-, -, refused⟩ | ⟨x, added⟩
    · cases refused
    · rw [added, List.map_append, moved.unplaced]
      rfl

/-- What becomes of the elements before the last line is broken. -/
theorem dotted_of (ruled : c.Ruled) : (c.dotted context).Ruled ∧ (c.dotted context).closed = c.closed ∧
    (c.dotted context).elements.map MessageLayoutElement.unplaced = c.elements.map MessageLayoutElement.unplaced ++
      (if c.canAddMessages then [] else [(dotdotdot context).unplaced]) ∧
    (c.canAddMessages = true → c.dotted context = c) := by
  unfold dotted canAddElements
  cases can : c.canAddMessages with
  | true => exact ⟨ruled, rfl, (List.append_nil _).symm, fun _ => rfl⟩
  | false =>
    obtain ⟨collapsed, closed, unplaced⟩ := @collapse_dots context c ruled
    exact ⟨collapsed, closed, unplaced, fun can => by cases can⟩

/-- What ends with a container. -/
structure Ended (context : LayoutContext) (c : MessageLayoutContainer) : Prop where
  ruled : (c.ended context).Ruled
  whole : (c.ended context).lineStart = (c.ended context).elements.length
  noEmpty : (c.ended context).NoEmpty ↔ c.NoEmpty
  boundaries : c.canAddMessages = true → ∀ line ∈ (c.ended context).closed, (c.ended context).Boundary line.startIndex
  unplaced : (c.ended context).elements.map MessageLayoutElement.unplaced =
    c.elements.map MessageLayoutElement.unplaced ++ if c.canAddMessages then [] else [(dotdotdot context).unplaced]

theorem Ruled.ended (ruled : c.Ruled) : c.Ended context := by
  obtain ⟨dotted, closed, unplaced, same⟩ := @dotted_of context c ruled
  have noEmpty : (c.dotted context).NoEmpty ↔ c.NoEmpty := by
    rw [NoEmpty, closed, NoEmpty]
  cases starts : (c.dotted context).atStartOfLine with
  | true =>
    have shape : c.ended context = c.dotted context := if_pos starts
    constructor
    case ruled => exact shape ▸ dotted
    case whole => exact shape ▸ beq_iff_eq.mp starts
    case noEmpty => exact shape ▸ noEmpty
    case boundaries =>
      intro can
      rw [shape]
      exact dotted.boundaries (by rw [same can]; exact can)
    case unplaced => exact shape ▸ unplaced
  | false =>
    have shape : c.ended context = (c.dotted context).breakLine context := if_neg (Bool.eq_false_iff.mp starts)
    obtain ⟨brokenUnplaced, -, lineStart, -⟩ := @breakLine_broken context (c.dotted context) dotted.onLine
    constructor
    case ruled => exact shape ▸ dotted.breakLine
    case whole =>
      have lengths := congrArg List.length brokenUnplaced
      rw [List.length_map, List.length_map] at lengths
      rw [shape, lineStart, lengths]
    case noEmpty =>
      rw [shape, noEmpty_break dotted, noEmpty]
      exact ⟨And.left, fun noEmpty => ⟨noEmpty, starts⟩⟩
    case boundaries =>
      intro can
      rw [shape]
      exact dotted.boundaries_break (by rw [same can]; exact can)
    case unplaced => exact shape ▸ brokenUnplaced.trans unplaced

end MessageLayoutContainer

/-! ## Sorted elements -/

theorem selectionLength_perm {a b : List MessageLayoutElement} (same : a.Perm b) : selectionLength a = selectionLength b :=
  (same.map MessageLayoutElement.getSelectionIndexCount).sum_nat

/-- The elements of the lines before one come first. -/
theorem filter_append_of_sorted {elements : List MessageLayoutElement} (sorted : elements.Pairwise fun a b => a.line ≤ b.line)
    (m : Nat) : (elements.filter fun e => e.line < m) ++ (elements.filter fun e => ¬ e.line < m) = elements := by
  induction elements with
  | nil => rfl
  | cons first rest ih =>
    obtain ⟨least, rest_⟩ := List.pairwise_cons.mp sorted
    by_cases before : first.line < m
    · rw [List.filter_cons_of_pos (by simpa using before), List.filter_cons_of_neg (by simpa using before), List.cons_append,
        ih rest_]
    · have none_ : (rest.filter fun e => e.line < m) = [] :=
        List.filter_eq_nil_iff.mpr fun e member earlier => by
          have := least e member
          have := of_decide_eq_true earlier
          omega
      have all := ih rest_
      rw [none_, List.nil_append] at all
      rw [List.filter_cons_of_neg (by simpa using before), List.filter_cons_of_pos (by simpa using before), none_,
        List.nil_append, all]

/-- Sorting keeps the elements before a boundary together. -/
theorem take_perm {a b : List MessageLayoutElement} (same : a.Perm b) (sorted : a.Pairwise fun a b => a.line ≤ b.line)
    {i m : Nat} (before : ∀ e ∈ b.take i, e.line < m) (behind : ∀ e ∈ b.drop i, m ≤ e.line) :
    (a.take i).Perm (b.take i) := by
  have front : (b.filter fun e => e.line < m) = b.take i := by
    conv_lhs => rw [← List.take_append_drop i b]
    rw [List.filter_append, List.filter_eq_self.mpr fun e member => decide_eq_true (before e member),
      List.filter_eq_nil_iff.mpr fun e member earlier => by
        have := behind e member
        have := of_decide_eq_true earlier
        omega, List.append_nil]
  have filtered : (a.filter fun e => e.line < m).Perm (b.take i) := front ▸ same.filter _
  by_cases within : i ≤ b.length
  · have length : (a.filter fun e => e.line < m).length = i := by
      rw [filtered.length_eq, List.length_take, Nat.min_eq_left within]
    have shape : a.take i = a.filter fun e => e.line < m := by
      conv_lhs => rw [← filter_append_of_sorted sorted m, ← length]
      exact List.take_left
    exact shape ▸ filtered
  · rw [List.take_of_length_le (by rw [same.length_eq]; omega), List.take_of_length_le (by omega)]
    exact same

/-- A line ends where another one starts, or last. -/
theorem chained_ends {start stop : Nat} {lines : List Line} (chained : Chained stop start lines) :
    ∀ line ∈ lines, line.endIndex = stop ∨ ∃ next ∈ lines, next.startIndex = line.endIndex := by
  induction lines generalizing start with
  | nil => exact fun _ member => absurd member List.not_mem_nil
  | cons line rest ih =>
    obtain ⟨-, -, rest_⟩ := chained
    refine List.forall_mem_cons.mpr ⟨?_, fun other member => ?_⟩
    · cases rest with
      | nil => exact .inl rest_
      | cons next rest => exact .inr ⟨next, List.mem_cons_of_mem _ List.mem_cons_self, rest_.1⟩
    · exact (ih rest_ other member).imp_right fun ⟨next, behind, same⟩ => ⟨next, List.mem_cons_of_mem _ behind, same⟩

theorem chained_last {start stop : Nat} {lines : List Line} (chained : Chained stop start lines) (some_ : start < stop) :
    ∃ line ∈ lines, line.endIndex = stop := by
  induction lines generalizing start with
  | nil => exact absurd chained (Nat.ne_of_lt some_)
  | cons line rest ih =>
    obtain ⟨-, -, rest_⟩ := chained
    rcases Nat.lt_or_eq_of_le (chained_bounds rest_).1 with before | last
    · obtain ⟨other, member, ends⟩ := ih rest_ before
      exact ⟨other, List.mem_cons_of_mem _ member, ends⟩
    · exact ⟨line, List.mem_cons_self, last⟩

namespace MessageLayoutContainer

variable {context : LayoutContext} {c final : MessageLayoutContainer}

/-- How the elements of a container end. -/
structure SortedAs (context : LayoutContext) (c final : MessageLayoutContainer) : Prop where
  lines : final.lines = (c.ended context).closed
  perm : final.elements.Perm (withoutLastSpace (c.ended context).elements)
  sorted : final.elements = withoutLastSpace (c.ended context).elements ∨
    final.elements.Pairwise fun a b => a.line ≤ b.line

theorem EndsAs.sortedAs (ends : c.EndsAs context final) (ended : c.Ended context) : SortedAs context c final := by
  have lines : (c.finish context).lines = (c.ended context).closed := by
    show closeLine (c.ended context).lines (c.ended context).elements.length (c.ended context).charIndex = _
    rw [← ended.whole]
    rfl
  unfold EndsAs at ends
  dsimp only at ends
  split at ends
  · obtain ⟨elements, perm, sorted, rfl⟩ := ends
    refine ⟨lines, perm, .inr (sorted.imp fun {a b} notBefore => ?_)⟩
    unfold isBefore at notBefore
    split at notBefore
    case isTrue same => exact Nat.le_of_eq same.symm
    case isFalse => exact Nat.not_lt.mp (of_decide_eq_false notBefore)
  · subst ends
    exact ⟨lines, List.Perm.refl _, .inl rfl⟩

/-- The last element of a container, with the dots of a full message. -/
theorem Ended.lastElement (ended : c.Ended context) {front : List MessageLayoutElement} {last : MessageLayoutElement}
    (shape : (c.ended context).elements = front ++ [last]) :
    (last.trailingSpace = false ∨ last.kind = .replyCurve) ↔ c.EndsWithoutSpace := by
  have unplaced := ended.unplaced
  rw [shape, List.map_append] at unplaced
  unfold EndsWithoutSpace
  cases can : c.canAddMessages with
  | true =>
    rw [can, if_pos rfl, List.append_nil] at unplaced
    have lasts := congrArg List.getLast? unplaced
    rw [List.getLast?_map] at lasts
    have same : some last.unplaced = c.elements.getLast?.map MessageLayoutElement.unplaced := by
      rw [← lasts]
      exact List.getLast?_concat.symm
    obtain ⟨element, isLast, same⟩ := Option.map_eq_some_iff.mp same.symm
    have trailingSpace : element.trailingSpace = last.trailingSpace := (congrArg MessageLayoutElement.trailingSpace same :)
    have kind : element.kind = last.kind := (congrArg MessageLayoutElement.kind same :)
    rw [isLast, ← trailingSpace, ← kind]
    exact ⟨fun ends => ⟨rfl, fun other isElement => Option.some.inj isElement ▸ ends⟩, fun both => both.2 element rfl⟩
  | false =>
    rw [can, if_neg Bool.false_ne_true] at unplaced
    have same := (List.append_inj' unplaced rfl).2
    have dots := List.singleton_inj.mp same
    have trailingSpace : last.trailingSpace = true := (congrArg MessageLayoutElement.trailingSpace dots :)
    have kind : last.kind = .text := (congrArg MessageLayoutElement.kind dots :)
    rw [trailingSpace, kind]
    constructor
    · rintro (spaceless | curve)
      · cases spaceless
      · cases curve
    · rintro ⟨full, -⟩
      cases full

/-- A trailing space that is not kept was counted, except for that of a reply curve. -/
theorem count_without_space (e : MessageLayoutElement) :
    ({ e with trailingSpace := false } : MessageLayoutElement).getSelectionIndexCount = e.getSelectionIndexCount ↔
      e.trailingSpace = false ∨ e.kind = .replyCurve := by
  obtain ⟨kind, flags, text, trailingSpace, x, width, line⟩ := e
  cases kind <;> cases trailingSpace <;> simp [MessageLayoutElement.getSelectionIndexCount]

theorem selectionLength_concat (front : List MessageLayoutElement) (last : MessageLayoutElement) :
    selectionLength (front ++ [last]) = selectionLength front + last.getSelectionIndexCount := by
  rw [selectionLength, List.map_append, List.sum_append]
  rfl

/-- The elements behind the last trailing space was taken away. -/
theorem withoutLastSpace_map {β : Type} (f : MessageLayoutElement → β) {elements : List MessageLayoutElement}
    (same : ∀ front last, elements = front ++ [last] → f { last with trailingSpace := false } = f last) :
    (withoutLastSpace elements).map f = elements.map f := by
  rcases List.eq_nil_or_concat' elements with rfl | ⟨front, last, rfl⟩
  · rfl
  · rw [withoutLastSpace_concat, List.map_append, List.map_append]
    exact congrArg (_ ++ [·]) (same front last rfl)

/-- The lines cover the elements if the last one does not lose a space that was counted. -/
theorem SortedAs.covers (sortedAs : SortedAs context c final) (ended : c.Ended context) (endsWithoutSpace : c.EndsWithoutSpace) :
    ∀ line ∈ final.lines, Covers final.elements line := by
  have counts := withoutLastSpace_map MessageLayoutElement.getSelectionIndexCount fun front last shape =>
    (count_without_space last).mpr ((ended.lastElement shape).mpr endsWithoutSpace)
  have numbers : (withoutLastSpace (c.ended context).elements).map MessageLayoutElement.line = (c.ended context).numbers :=
    withoutLastSpace_map MessageLayoutElement.line fun _ _ _ => rfl
  have boundaries := ended.boundaries endsWithoutSpace.1
  have length : final.elements.length = (c.ended context).elements.length := by
    have lengths := congrArg List.length counts
    rw [List.length_map, List.length_map] at lengths
    exact sortedAs.perm.length_eq.trans lengths
  -- sorting does not move an element over a boundary
  have atBoundary {i : Nat} (boundary : (c.ended context).Boundary i) :
      selectionLength (final.elements.take i) = selectionLength ((c.ended context).elements.take i) := by
    rw [← selectionLength_take counts]
    rcases sortedAs.sorted with same | sorted
    · rw [same]
    · obtain ⟨m, -, before, behind⟩ := boundary
      rw [← numbers, ← List.map_take] at before
      rw [← numbers, ← List.map_drop] at behind
      exact selectionLength_perm (take_perm sortedAs.perm sorted
        (fun e member => before e.line (List.mem_map_of_mem member))
        (fun e member => behind e.line (List.mem_map_of_mem member)))
  have atEnd : selectionLength (final.elements.take (c.ended context).elements.length) =
      selectionLength ((c.ended context).elements.take (c.ended context).elements.length) := by
    rw [← selectionLength_take counts, ← length, List.take_length, sortedAs.perm.length_eq, List.take_length]
    exact selectionLength_perm sortedAs.perm
  have chained := ended.ruled.chained
  rw [ended.whole] at chained
  rw [sortedAs.lines]
  intro line member
  obtain ⟨start, stop⟩ := ended.ruled.covers line member
  refine ⟨start.trans (atBoundary (boundaries line member)).symm, stop.trans ?_⟩
  rcases chained_ends chained line member with last | ⟨next, nextMember, same⟩
  · rw [last]
    exact atEnd.symm
  · rw [← same]
    exact (atBoundary (boundaries next nextMember)).symm

/-- Where the last line covers its elements, the last one has not lost a space that was counted. -/
theorem SortedAs.endsWithoutSpace (sortedAs : SortedAs context c final) (ended : c.Ended context)
    (covers : ∀ line ∈ final.lines, Covers final.elements line) : c.EndsWithoutSpace := by
  rcases List.eq_nil_or_concat' (c.ended context).elements with empty | ⟨front, last, shape⟩
  · have unplaced := ended.unplaced
    rw [empty, List.map_nil] at unplaced
    obtain ⟨none_, noDots⟩ := List.append_eq_nil_iff.mp unplaced.symm
    have can : c.canAddMessages = true := by
      cases can : c.canAddMessages with
      | true => rfl
      | false =>
        rw [can] at noDots
        cases noDots
    refine ⟨can, fun element isLast => ?_⟩
    rw [List.map_eq_nil_iff.mp none_] at isLast
    cases isLast
  · have chained := ended.ruled.chained
    rw [ended.whole, shape, List.length_append] at chained
    obtain ⟨line, member, ends⟩ := chained_last chained (Nat.succ_pos _)
    have all : line.endIndex = (c.ended context).elements.length := by
      rw [ends, shape, List.length_append]
    have stop := (ended.ruled.covers line member).2
    have finalStop := (covers line (sortedAs.lines ▸ member)).2
    have length : final.elements.length = (c.ended context).elements.length := by
      rw [sortedAs.perm.length_eq, shape, withoutLastSpace_concat, List.length_append, List.length_append]
      rfl
    rw [all, List.take_length] at stop
    rw [all, ← length, List.take_length, selectionLength_perm sortedAs.perm] at finalStop
    rw [stop, shape, withoutLastSpace_concat, selectionLength_concat, selectionLength_concat] at finalStop
    exact (ended.lastElement shape).mp ((count_without_space last).mp (Nat.add_left_cancel finalStop).symm)

/-- At the end of a layout, the lines partition the elements and their selection indices if and only if no line
is empty and the last element does not lose a space. -/
theorem EndsAs.partitioned_iff (ends : c.EndsAs context final) (ruled : c.Ruled) :
    final.Partitioned ↔ c.NoEmpty ∧ c.EndsWithoutSpace := by
  have ended := @Ruled.ended context c ruled
  have sortedAs := ends.sortedAs ended
  have length : final.elements.length = (c.ended context).elements.length := by
    have lengths := congrArg List.length (withoutLastSpace_map (fun _ => ()) (fun _ _ _ => rfl) :
      (withoutLastSpace (c.ended context).elements).map (fun _ => ()) = _)
    rw [List.length_map, List.length_map] at lengths
    exact sortedAs.perm.length_eq.trans lengths
  have chained : Chained final.elements.length 0 final.lines := by
    rw [sortedAs.lines, length, ← ended.whole]
    exact ended.ruled.chained
  have consecutive : Consecutive final.elements.length 0 final.lines ↔ c.NoEmpty := by
    rw [consecutive_iff chained, sortedAs.lines]
    exact ended.noEmpty
  exact ⟨fun partitioned => ⟨consecutive.mp partitioned.consecutive, sortedAs.endsWithoutSpace ended partitioned.covers⟩,
    fun both => ⟨consecutive.mpr both.1, sortedAs.covers ended both.2⟩⟩

/-- What is looked up at the ends of a line is among the elements. -/
theorem Partitioned.inside (partitioned : c.Partitioned) : ∀ line ∈ c.lines,
    line.startIndex < c.elements.length ∧ line.endIndex - 1 < c.elements.length ∧
      line.endCharIndex ≤ selectionLength c.elements := by
  intro line member
  have chained := partitioned.consecutive.chained
  have some_ := (consecutive_iff chained).mp partitioned.consecutive line member
  obtain ⟨-, stop⟩ := (chained_bounds chained).2 line member
  refine ⟨by omega, by omega, ?_⟩
  have parts := congrArg selectionLength (List.take_append_drop line.endIndex c.elements)
  rw [selectionLength, List.map_append, List.sum_append] at parts
  rw [(partitioned.covers line member).2, ← parts]
  exact Nat.le_add_right _ _

/-- For whatever is called during a layout, its lines partition the elements and their selection indices if and
only if no line is broken where it begins and the last element does not lose a space. -/
theorem layout_partitioned_iff (context : LayoutContext) (textDirection : TextDirection) (calls : List Call)
    (ran : run (step context) (beginLayout textDirection) calls = some c) (ends : c.EndsAs context final) :
    final.Partitioned ↔
      Along (step context) (Filled context) (beginLayout textDirection) calls ∧ c.EndsWithoutSpace := by
  have ruled : c.Ruled := run_keeps (fun _ _ _ ruled taken => step_ruled ruled taken) ran (ruled_begin textDirection)
  have filled := along_iff_final (fun _ _ _ ruled taken => step_ruled ruled taken)
    (fun _ _ _ ruled taken => step_noEmpty ruled taken) ran (ruled_begin textDirection)
  have start : (beginLayout textDirection).NoEmpty := fun _ member => absurd member List.not_mem_nil
  rw [ends.partitioned_iff ruled, ← filled]
  exact and_congr_left fun _ => and_iff_right start

/-! ## Two messages -/

/-- A narrow view in which texts are read from left to right. -/
def narrow : LayoutContext := ⟨100, 8, 8, 4, 12, 0, false, false, false, fun _ => false, fun _ => false⟩

def word (text : QString) (trailingSpace : Bool) : MessageLayoutElement :=
  ⟨.text, ⟨true, false, false, false, false, false, false, false⟩, text, trailingSpace, 0, 60, 0⟩

def image (width : Int) : MessageLayoutElement :=
  ⟨.image none, ⟨false, false, false, false, false, false, false, false⟩, [], false, 0, width, 0⟩

instance (c : MessageLayoutContainer) : ∀ call, Decidable (c.Filled narrow call)
  | .addElement element => inferInstanceAs (Decidable (c.fitsInLine narrow element.width = true ∨ c.atStartOfLine = false))
  | .addElementNoLineBreak _ => isTrue trivial
  | .breakLine => inferInstanceAs (Decidable (c.atStartOfLine = false))

/-- A word that does not fit behind another one comes to a line of its own. -/
theorem two_words_partitioned : ((((beginLayout .neutral).addElement narrow (word (qs "well") true)).addElement narrow
    (word (qs "then") false)).finish narrow).Partitioned := by
  refine (layout_partitioned_iff narrow .neutral
    [.addElement (word (qs "well") true), .addElement (word (qs "then") false)] rfl ?_).mpr ⟨by decide, rfl, ?_⟩
  · exact rfl
  · intro element isLast
    cases isLast
    exact .inl rfl

/-- In front of an element that is too wide for any line, there is a line without elements. -/
theorem wide_image_after_empty_line : ¬ ∀ (context : LayoutContext) (textDirection : TextDirection) (calls : List Call)
    (c final : MessageLayoutContainer), run (step context) (beginLayout textDirection) calls = some c →
      c.EndsAs context final → final.Partitioned := by
  intro always
  have partitioned := always narrow .neutral [.addElement (image 112)] ((beginLayout .neutral).addElement narrow (image 112))
    (((beginLayout .neutral).addElement narrow (image 112)).finish narrow) rfl rfl
  exact absurd partitioned.consecutive.2.1 (by decide)

end MessageLayoutContainer

end Forserino.Layouts
