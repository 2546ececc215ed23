import Forserino.Layouts.Lines
import Forserino.Messages.Selections

/-! The selection as it is painted over the lines of a message
(messages/layouts/MessageLayoutContainer.cpp).

A rectangle that is painted is as high as its line.
-/

set_option autoImplicit false

namespace Forserino.Layouts

open Forserino.Foundation Forserino.Qt Forserino.Messages

/-- A part of a line, with the x coordinates of its first and its last pixel. -/
structure SelectionRect where
  line : Line
  left : Int
  right : Int
  deriving DecidableEq, Repr

variable (advance : MessageLayoutElement → QChar → Nat)

/-- Where an index of an element is, with the advances of the characters in the font of the element. -/
def MessageLayoutElement.getXFromIndex (e : MessageLayoutElement) (index : Nat) : Int :=
  match e.kind with
  | .text =>
      if index = 0 then e.left
      else if index < e.text.length then ((e.text.take index).map (advance e)).sum + e.left
      else e.right
  | .image _ | .layeredImage _ | .textIcon | .replyCurve => if index = 0 then e.left else e.right

/-- The loop over the elements of a line, up to the one that has the index. -/
def xAtLoop (wanted : Nat) : Nat → List MessageLayoutElement → Option Int
  | _, [] => none
  | index, e :: rest =>
    if index + e.getSelectionIndexCount ≤ wanted then xAtLoop wanted (index + e.getSelectionIndexCount) rest
    else some (e.getXFromIndex advance (wanted - index))

namespace MessageLayoutContainer

variable (c : MessageLayoutContainer)

def elementsOf (line : Line) : List MessageLayoutElement :=
  (c.elements.drop line.startIndex).take (line.endIndex - line.startIndex)

def leftOf (line : Line) : Int := (c.elements[line.startIndex]?.map MessageLayoutElement.left).getD 0

def rightOf (line : Line) : Int := (c.elements[line.endIndex - 1]?.map MessageLayoutElement.right).getD 0

/-- The x coordinate of an index, unless the elements of the line end before it. -/
def xAt (line : Line) (index : Nat) : Option Int := xAtLoop advance index line.startCharIndex (c.elementsOf line)

def wholeLine (line : Line) : SelectionRect := ⟨line, c.leftOf line, c.rightOf line⟩

/-- What is painted when the selection starts in this message, and the line from which on it is to be painted yet. -/
def paintSelectionStart (messageIndex : Nat) (selection : Selection) :
    Nat → List Line → List SelectionRect × Option Nat
  | _, [] => ([], none)
  | lineIndex, line :: rest =>
    if selection.selectionMin.charIndex ≥ line.endCharIndex then
      paintSelectionStart messageIndex selection (lineIndex + 1) rest
    -- the selection starts at the trailing newline
    else if selection.selectionMin.charIndex = line.endCharIndex - 1 then
      let newline := ⟨line, c.rightOf line, c.rightOf line⟩
      if selection.selectionMax.messageIndex ≠ messageIndex then (newline :: rest.map c.wholeLine, none)
      else ([newline], some (lineIndex + 1))
    else
      match c.xAt advance line selection.selectionMin.charIndex with
      | none => paintSelectionStart messageIndex selection (lineIndex + 1) rest
      | some x =>
        if selection.selectionMax.messageIndex = messageIndex ∧ selection.selectionMax.charIndex < line.endCharIndex then
          ([⟨line, x, (c.xAt advance line selection.selectionMax.charIndex).getD (c.rightOf line)⟩], none)
        else if selection.selectionMax.messageIndex ≠ messageIndex then
          (⟨line, x, c.rightOf line⟩ :: rest.map c.wholeLine, none)
        else ([⟨line, x, c.rightOf line⟩], some (lineIndex + 1))

/-- The selection contains or ends in this message. -/
def paintSelectionEnd (selection : Selection) : List Line → List SelectionRect
  | [] => []
  | line :: rest =>
    if line.endCharIndex < selection.selectionMax.charIndex then c.wholeLine line :: paintSelectionEnd selection rest
    else [⟨line, c.leftOf line, (c.xAt advance line selection.selectionMax.charIndex).getD (c.rightOf line)⟩]

def paintSelection (messageIndex : Nat) (selection : Selection) : List SelectionRect :=
  if selection.selectionMin.messageIndex > messageIndex ∨ selection.selectionMax.messageIndex < messageIndex then []
  else if selection.selectionMin.messageIndex < messageIndex ∧ selection.selectionMax.messageIndex > messageIndex then
    c.lines.map c.wholeLine
  else if selection.selectionMin.messageIndex = messageIndex then
    match c.paintSelectionStart advance messageIndex selection 0 c.lines with
    | (painted, none) => painted
    | (painted, some lineIndex) => painted ++ c.paintSelectionEnd advance selection (c.lines.drop lineIndex)
  else c.paintSelectionEnd advance selection c.lines

end MessageLayoutContainer

/-! ## What is to be painted -/

/-- The selected part of a message: from an index of it or from before it, up to an index of it or behind it. -/
structure Part where
  from_ : Option Nat
  to_ : Option Nat

def Part.of (selection : Selection) (messageIndex : Nat) : Part where
  from_ := if selection.selectionMin.messageIndex = messageIndex then some selection.selectionMin.charIndex else none
  to_ := if selection.selectionMax.messageIndex = messageIndex then some selection.selectionMax.charIndex else none

/-- A line has indices that are selected. -/
def Part.touches (part : Part) (line : Line) : Bool :=
  part.from_.all (· < line.endCharIndex) && part.to_.all (line.startCharIndex < ·)

namespace MessageLayoutContainer

variable (c : MessageLayoutContainer)

/-- A line is painted from its left or from the first index, and to its right or to the last one; of the index that
ends it, only the last pixel. -/
def highlight (part : Part) (line : Line) : SelectionRect where
  line := line
  left :=
    match part.from_.filter (line.startCharIndex ≤ ·) with
    | none => c.leftOf line
    | some from_ =>
      if from_ + 1 = line.endCharIndex then c.rightOf line else (c.xAt advance line from_).getD (c.rightOf line)
  right := (part.to_.bind (c.xAt advance line)).getD (c.rightOf line)

end MessageLayoutContainer

/-! ## The lines of a message -/

/-- The indices of lines follow one another. -/
def CharChained : Nat → List Line → Prop
  | _, [] => True
  | start, line :: rest => line.startCharIndex = start ∧ start ≤ line.endCharIndex ∧ CharChained line.endCharIndex rest

namespace MessageLayoutContainer

/-- What the lines have when a layout ends: they are not empty, they follow one another, and the indices of each are those
of its elements, with the newline that the last space has left behind. -/
structure Lined (c : MessageLayoutContainer) : Prop where
  consecutive : Consecutive c.elements.length 0 c.lines
  charChained : CharChained 0 c.lines
  covered : ∀ line ∈ c.lines, line.startCharIndex + selectionLength (c.elementsOf line) ≤ line.endCharIndex ∧
    line.endCharIndex ≤ line.startCharIndex + selectionLength (c.elementsOf line) + 1

end MessageLayoutContainer

theorem charChained_starts {start : Nat} {lines : List Line} (chained : CharChained start lines) :
    ∀ line ∈ lines, start ≤ line.startCharIndex := by
  induction lines generalizing start with
  | nil => exact fun _ none => absurd none List.not_mem_nil
  | cons line rest ih =>
    obtain ⟨same, le, behind⟩ := chained
    refine List.forall_mem_cons.mpr ⟨same.ge, fun other member => le.trans (ih behind other member)⟩

variable {advance}

theorem xAtLoop_none_iff {wanted : Nat} {elements : List MessageLayoutElement} {index : Nat} (before : index ≤ wanted) :
    xAtLoop advance wanted index elements = none ↔ index + selectionLength elements ≤ wanted := by
  induction elements generalizing index with
  | nil => simp [xAtLoop, selectionLength, before]
  | cons e rest ih =>
    rw [xAtLoop, selectionLength_cons]
    split
    · next passed =>
      rw [ih passed]
      omega
    · next here =>
      simp only [reduceCtorEq, false_iff]
      omega

theorem lt_of_ordered {selection : Selection} (ordered : selection.Ordered) (some_ : selection.start ≠ selection.end) :
    selection.selectionMin.lt selection.selectionMax = true := by
  unfold Selection.Ordered at ordered
  split at ordered
  · next swapped => rw [ordered.1, ordered.2, swapped]
  · next kept =>
    rw [ordered.1, ordered.2]
    rcases selection with ⟨⟨startMessage, startChar⟩, ⟨endMessage, endChar⟩, _, _⟩
    simp [SelectionItem.lt] at kept some_ ⊢
    omega

namespace MessageLayoutContainer

variable {c : MessageLayoutContainer} {part : Part} {lines : List Line} {line : Line} {selection : Selection}

/-- Of a list of lines, those that are touched are painted as they should be; besides, there can be the left of a line
where the selection ends before it. -/
def Painted (advance : MessageLayoutElement → QChar → Nat) (c : MessageLayoutContainer) (part : Part) (lines : List Line)
    (painted : List SelectionRect) : Prop :=
  painted.filter (fun rect => part.touches rect.line) = (lines.filter part.touches).map (c.highlight advance part) ∧
    ∀ rect ∈ painted, rect ∈ lines.map (c.highlight advance part) ∧
      (part.touches rect.line = true ∨ part.to_ = some rect.line.startCharIndex)

theorem painted_nothing (untouched : ∀ line ∈ lines, part.touches line = false) : Painted advance c part lines [] := by
  constructor
  · rw [List.filter_eq_nil_iff.mpr fun line member => Bool.eq_false_iff.mp (untouched line member)]
    rfl
  · exact fun _ none => absurd none List.not_mem_nil

theorem Painted.skip {painted : List SelectionRect} (rest : Painted advance c part lines painted)
    (untouched : part.touches line = false) : Painted advance c part (line :: lines) painted := by
  constructor
  · rw [List.filter_cons, if_neg (Bool.eq_false_iff.mp untouched)]
    exact rest.1
  · exact fun rect member => (rest.2 rect member).imp_left (List.mem_cons_of_mem _)

theorem Painted.cons {painted : List SelectionRect} {rect : SelectionRect} (rest : Painted advance c part lines painted)
    (same : rect = c.highlight advance part line)
    (touched : part.touches line = true ∨ part.to_ = some line.startCharIndex) :
    Painted advance c part (line :: lines) (rect :: painted) := by
  subst same
  constructor
  · have here : part.touches (c.highlight advance part line).line = part.touches line := rfl
    rw [List.filter_cons, List.filter_cons, here]
    split
    · rw [rest.1]
      rfl
    · exact rest.1
  · refine List.forall_mem_cons.mpr ⟨⟨List.mem_cons_self, touched⟩, fun rect member => ?_⟩
    exact (rest.2 rect member).imp_left (List.mem_cons_of_mem _)

/-! ### Lines behind the start -/

theorem highlight_behind (behind : part.from_.all (· < line.startCharIndex) = true) :
    c.highlight advance part line = ⟨line, c.leftOf line, (part.to_.bind (c.xAt advance line)).getD (c.rightOf line)⟩ := by
  have none_ : part.from_.filter (line.startCharIndex ≤ ·) = none := by
    cases starts : part.from_ with
    | none => rfl
    | some from_ => simpa [starts, Option.filter] using behind
  rw [highlight, none_]

theorem touches_behind (behind : part.from_.all (· < line.startCharIndex) = true)
    (le : line.startCharIndex ≤ line.endCharIndex) : part.touches line = part.to_.all (line.startCharIndex < ·) := by
  have reached : part.from_.all (· < line.endCharIndex) = true := by
    cases starts : part.from_ with
    | none => rfl
    | some from_ =>
      rw [starts] at behind
      have less := of_decide_eq_true behind
      exact decide_eq_true (less.trans_le le)
  rw [Part.touches, reached, Bool.true_and]

theorem all_behind {start : Nat} (behind : part.from_.all (· < start) = true) {stop : Nat} (le : start ≤ stop) :
    part.from_.all (· < stop) = true := by
  cases starts : part.from_ with
  | none => rfl
  | some from_ =>
    rw [starts] at behind
    exact decide_eq_true ((of_decide_eq_true behind).trans_le le)

theorem xAt_none {index : Nat} (starts : line.startCharIndex ≤ index)
    (ends : line.startCharIndex + selectionLength (c.elementsOf line) ≤ index) : c.xAt advance line index = none :=
  (xAtLoop_none_iff starts).mpr ends

theorem painted_whole {start : Nat} (chained : CharChained start lines) (behind : part.from_.all (· < start) = true)
    (on : part.to_ = none) : Painted advance c part lines (lines.map c.wholeLine) := by
  induction lines generalizing start with
  | nil => exact painted_nothing fun _ none => absurd none List.not_mem_nil
  | cons line rest ih =>
    obtain ⟨rfl, le, next⟩ := chained
    refine Painted.cons (ih next (all_behind behind le)) ?_ (.inl ?_)
    · rw [highlight_behind behind, on]
      rfl
    · rw [touches_behind behind le, on]
      rfl

theorem untouched_behind {stop : Nat} (chained : CharChained stop lines) {to_ : Nat} (ends : part.to_ = some to_)
    (le : to_ ≤ stop) : ∀ line ∈ lines, part.touches line = false := by
  intro line member
  have starts := charChained_starts chained line member
  rw [Part.touches, ends, Option.all_some, decide_eq_false (by omega), Bool.and_false]

theorem paintSelectionEnd_painted {start : Nat} (chained : CharChained start lines)
    (covered : ∀ line ∈ lines, line.startCharIndex + selectionLength (c.elementsOf line) ≤ line.endCharIndex)
    (behind : part.from_.all (· < start) = true) (ends : part.to_ = some selection.selectionMax.charIndex)
    (le : start ≤ selection.selectionMax.charIndex) :
    Painted advance c part lines (c.paintSelectionEnd advance selection lines) := by
  induction lines generalizing start with
  | nil => exact painted_nothing fun _ none => absurd none List.not_mem_nil
  | cons line rest ih =>
    obtain ⟨rfl, stop, next⟩ := chained
    have touched : part.touches line = true ∨ part.to_ = some line.startCharIndex := by
      rw [touches_behind behind stop, ends]
      rcases Nat.lt_or_eq_of_le le with less | same
      · exact .inl (decide_eq_true less)
      · exact .inr (congrArg some same.symm)
    have shape := @highlight_behind advance c part line behind
    rw [ends] at shape
    rw [paintSelectionEnd]
    split
    · next on =>
      have none_ := @xAt_none advance c line _ le ((covered line List.mem_cons_self).trans on.le)
      refine Painted.cons (ih next (fun other member => covered other (List.mem_cons_of_mem line member))
        (all_behind behind stop) on.le) ?_ touched
      rw [shape, Option.bind_some, none_]
      rfl
    · next here =>
      exact Painted.cons (painted_nothing (untouched_behind next ends (Nat.not_lt.mp here))) shape.symm touched

/-! ### The line of the start -/

theorem highlight_start {from_ : Nat} (starts : part.from_ = some from_) (inLine : line.startCharIndex ≤ from_) :
    c.highlight advance part line = ⟨line,
      if from_ + 1 = line.endCharIndex then c.rightOf line else (c.xAt advance line from_).getD (c.rightOf line),
      (part.to_.bind (c.xAt advance line)).getD (c.rightOf line)⟩ := by
  have some_ : part.from_.filter (line.startCharIndex ≤ ·) = some from_ := by
    rw [starts]
    exact Option.filter_eq_some_iff.mpr ⟨rfl, decide_eq_true inLine⟩
  rw [highlight, some_]

/-- What is painted at the start, with what is still to be painted from the next line on. -/
def Started (advance : MessageLayoutElement → QChar → Nat) (c : MessageLayoutContainer) (part : Part) (selection : Selection)
    (lineIndex : Nat) (lines : List Line) : List SelectionRect × Option Nat → Prop
  | (painted, none) => Painted advance c part lines painted
  | (painted, some next) => lineIndex ≤ next ∧
      Painted advance c part lines (painted ++ c.paintSelectionEnd advance selection (lines.drop (next - lineIndex)))

theorem Started.skip {lineIndex : Nat} {result : List SelectionRect × Option Nat}
    (started : Started advance c part selection (lineIndex + 1) lines result) (untouched : part.touches line = false) :
    Started advance c part selection lineIndex (line :: lines) result := by
  obtain ⟨painted, none | next⟩ := result
  · exact Painted.skip started untouched
  · obtain ⟨le, rest⟩ := started
    have shift : next - lineIndex = next - (lineIndex + 1) + 1 := by omega
    refine ⟨by omega, ?_⟩
    rw [shift, List.drop_succ_cons]
    exact rest.skip untouched

theorem Started.goesOn {lineIndex : Nat} {rect : SelectionRect}
    (rest : Painted advance c part lines (c.paintSelectionEnd advance selection lines))
    (same : rect = c.highlight advance part line) (touched : part.touches line = true) :
    Started advance c part selection lineIndex (line :: lines) ([rect], some (lineIndex + 1)) := by
  refine ⟨Nat.le_succ lineIndex, ?_⟩
  rw [Nat.add_sub_cancel_left]
  exact rest.cons same (.inl touched)

theorem paintSelectionStart_painted {start messageIndex lineIndex : Nat} (chained : CharChained start lines)
    (covered : ∀ line ∈ lines, line.startCharIndex + selectionLength (c.elementsOf line) ≤ line.endCharIndex ∧
      line.endCharIndex ≤ line.startCharIndex + selectionLength (c.elementsOf line) + 1)
    (starts : part.from_ = some selection.selectionMin.charIndex)
    (ends : part.to_ =
      if selection.selectionMax.messageIndex = messageIndex then some selection.selectionMax.charIndex else none)
    (less : selection.selectionMax.messageIndex = messageIndex →
      selection.selectionMin.charIndex < selection.selectionMax.charIndex)
    (before : start ≤ selection.selectionMin.charIndex) : Started advance c part selection lineIndex lines
      (c.paintSelectionStart advance messageIndex selection lineIndex lines) := by
  induction lines generalizing start lineIndex with
  | nil => exact painted_nothing fun _ none => absurd none List.not_mem_nil
  | cons line rest ih =>
    obtain ⟨rfl, stop, next⟩ := chained
    have coveredRest := fun other member => covered other (List.mem_cons_of_mem line member)
    obtain ⟨most, least⟩ := covered line List.mem_cons_self
    rw [paintSelectionStart]
    by_cases passed : selection.selectionMin.charIndex ≥ line.endCharIndex
    · rw [if_pos passed]
      refine Started.skip (ih next coveredRest passed) ?_
      rw [Part.touches, starts, Option.all_some, decide_eq_false (Nat.not_lt.mpr passed), Bool.false_and]
    have inside := Nat.not_le.mp passed
    have behind : part.from_.all (· < line.endCharIndex) = true := by
      rw [starts]
      exact decide_eq_true inside
    have shape := @highlight_start advance c part line _ starts before
    have touches : part.touches line = part.to_.all (line.startCharIndex < ·) := by
      rw [Part.touches, behind, Bool.true_and]
    have found : selection.selectionMin.charIndex + 1 ≠ line.endCharIndex →
        ∃ x, c.xAt advance line selection.selectionMin.charIndex = some x := by
      intro other
      refine Option.ne_none_iff_exists'.mp fun none_ => ?_
      have beyond := (xAtLoop_none_iff before).mp none_
      omega
    rw [if_neg passed]
    by_cases here : selection.selectionMax.messageIndex = messageIndex
    · -- the selection ends in this message
      rw [if_pos here] at ends
      have within := less here
      have touched : part.touches line = true := by
        rw [touches, ends]
        exact decide_eq_true (before.trans_lt within)
      rw [ends, Option.bind_some] at shape
      have goesOn : line.endCharIndex ≤ selection.selectionMax.charIndex →
          Painted advance c part rest (c.paintSelectionEnd advance selection rest) :=
        paintSelectionEnd_painted next (fun other member => (coveredRest other member).1) behind ends
      by_cases newline : selection.selectionMin.charIndex = line.endCharIndex - 1
      · rw [if_pos newline, if_neg (not_not.mpr here)]
        have on : line.endCharIndex ≤ selection.selectionMax.charIndex := by omega
        refine Started.goesOn (goesOn on) ?_ touched
        rw [shape, if_pos (by omega), xAt_none (by omega) (most.trans on)]
        rfl
      · obtain ⟨x, at_⟩ := found (by omega)
        rw [if_neg newline, at_]
        rw [if_neg (by omega), at_] at shape
        by_cases same : selection.selectionMax.charIndex < line.endCharIndex
        · dsimp only
          rw [if_pos ⟨here, same⟩]
          exact Painted.cons (painted_nothing (untouched_behind next ends same.le)) shape.symm (.inl touched)
        · dsimp only
          rw [if_neg (fun both => same both.2), if_neg (not_not.mpr here)]
          have on := Nat.not_lt.mp same
          refine Started.goesOn (goesOn on) ?_ touched
          rw [shape, xAt_none (by omega) (most.trans on)]
          rfl
    · rw [if_neg here] at ends
      have touched : part.touches line = true := by
        rw [touches, ends]
        rfl
      rw [ends, Option.bind_none, Option.getD_none] at shape
      have whole : Painted advance c part rest (rest.map c.wholeLine) := painted_whole next behind ends
      by_cases newline : selection.selectionMin.charIndex = line.endCharIndex - 1
      · rw [if_pos newline, if_pos here]
        refine Painted.cons whole ?_ (.inl touched)
        rw [shape, if_pos (by omega)]
      · obtain ⟨x, at_⟩ := found (by omega)
        rw [if_neg newline, at_]
        rw [if_neg (by omega), at_] at shape
        dsimp only
        rw [if_neg (fun both => here both.1), if_pos here]
        exact Painted.cons whole shape.symm (.inl touched)

/-! ### A message -/

theorem paintSelection_painted {messageIndex : Nat} (lined : c.Lined)
    (less : selection.selectionMin.lt selection.selectionMax = true)
    (starts : selection.selectionMin.messageIndex ≤ messageIndex) (ends : messageIndex ≤ selection.selectionMax.messageIndex) :
    Painted advance c (Part.of selection messageIndex) c.lines (c.paintSelection advance messageIndex selection) := by
  have covered := fun line member => (lined.covered line member).1
  rw [paintSelection, if_neg (by omega)]
  split
  · next whole =>
    refine painted_whole lined.charChained ?_ ?_
    · rw [Part.of, if_neg (by omega)]
      rfl
    · exact if_neg (by omega)
  · split
    · next here =>
      have within : selection.selectionMax.messageIndex = messageIndex →
          selection.selectionMin.charIndex < selection.selectionMax.charIndex := by
        intro same
        simp only [SelectionItem.lt, Bool.or_eq_true, Bool.and_eq_true, decide_eq_true_eq, beq_iff_eq] at less
        omega
      have started : Started advance c (Part.of selection messageIndex) selection 0 c.lines
          (c.paintSelectionStart advance messageIndex selection 0 c.lines) :=
        paintSelectionStart_painted lined.charChained lined.covered (if_pos here) rfl within (Nat.zero_le _)
      rcases painted : c.paintSelectionStart advance messageIndex selection 0 c.lines with ⟨rects, none | next⟩
      · rw [painted] at started
        exact started
      · rw [painted] at started
        exact started.2
    · next earlier =>
      refine paintSelectionEnd_painted lined.charChained covered ?_ ?_ (Nat.zero_le _)
      · rw [Part.of, if_neg earlier]
        rfl
      · exact if_pos (by omega)

/-! ## Messages that are laid out -/

theorem charChained_of_covers {elements : List MessageLayoutElement} {start stop : Nat} (chained : Chained stop start lines)
    (covers : ∀ line ∈ lines, Covers elements line) : CharChained (selectionLength (elements.take start)) lines := by
  induction lines generalizing start with
  | nil => trivial
  | cons line rest ih =>
    obtain ⟨rfl, le, next⟩ := chained
    obtain ⟨starts, ends⟩ := covers line List.mem_cons_self
    refine ⟨starts, ?_, ?_⟩
    · rw [ends, ← List.take_append_drop line.startIndex (elements.take line.endIndex), List.take_take, Nat.min_eq_left le,
        selectionLength, selectionLength, List.map_append, List.sum_append]
      exact Nat.le_add_right _ _
    · rw [ends]
      exact ih next fun other member => covers other (List.mem_cons_of_mem line member)

theorem selectionLength_elementsOf (line : Line) (le : line.startIndex ≤ line.endIndex) :
    selectionLength (c.elements.take line.startIndex) + selectionLength (c.elementsOf line) =
      selectionLength (c.elements.take line.endIndex) := by
  have parts : c.elements.take line.endIndex = c.elements.take line.startIndex ++ c.elementsOf line := by
    rw [elementsOf, ← List.take_add, Nat.add_sub_cancel' le]
  rw [parts, selectionLength, selectionLength, selectionLength, List.map_append, List.sum_append]

/-- The last space is one index at most. -/
theorem selectionLength_withoutLastSpace (elements : List MessageLayoutElement) :
    selectionLength (withoutLastSpace elements) ≤ selectionLength elements ∧
      selectionLength elements ≤ selectionLength (withoutLastSpace elements) + 1 := by
  rcases List.eq_nil_or_concat' elements with rfl | ⟨front, last, rfl⟩
  · exact ⟨le_rfl, Nat.le_succ _⟩
  · rw [withoutLastSpace_concat, selectionLength_concat, selectionLength_concat]
    obtain ⟨kind, flags, text, trailingSpace, x, width, line⟩ := last
    cases kind <;> cases trailingSpace <;> simp [MessageLayoutElement.getSelectionIndexCount, Nat.add_assoc]

theorem withoutLastSpace_take (elements : List MessageLayoutElement) {i : Nat} (less : i < elements.length) :
    (withoutLastSpace elements).take i = elements.take i := by
  rcases List.eq_nil_or_concat' elements with rfl | ⟨front, last, rfl⟩
  · cases less
  · rw [List.length_append, List.length_singleton] at less
    have le := Nat.le_of_lt_succ less
    rw [withoutLastSpace_concat, List.take_append_of_le_length le, List.take_append_of_le_length le]

variable {context : LayoutContext} {final : MessageLayoutContainer}

/-- Messages that are collapsed can be broken within a line; their elements then must not be sorted. -/
def Settled (context : LayoutContext) (c : MessageLayoutContainer) : Prop :=
  c.canAddMessages = true ∨ (c.finish context).anyReorderingDone = false

/-- Sorting does not move an element over the start of a line. -/
theorem SortedAs.take_boundary (sortedAs : SortedAs context c final) {i : Nat} (boundary : (c.ended context).Boundary i) :
    selectionLength (final.elements.take i) = selectionLength ((withoutLastSpace (c.ended context).elements).take i) := by
  have numbers : (withoutLastSpace (c.ended context).elements).map MessageLayoutElement.line = (c.ended context).numbers :=
    withoutLastSpace_map MessageLayoutElement.line fun _ _ _ => rfl
  rcases sortedAs.sorted with same | sorted
  · rw [same]
  · obtain ⟨m, -, before, behind⟩ := boundary
    rw [← numbers, ← List.map_take] at before
    rw [← numbers, ← List.map_drop] at behind
    exact selectionLength_perm (take_perm sortedAs.perm sorted
      (fun e member => before e.line (List.mem_map_of_mem member))
      (fun e member => behind e.line (List.mem_map_of_mem member)))

theorem EndsAs.lined (ends : c.EndsAs context final) (ruled : c.Ruled) (noEmpty : c.NoEmpty) (settled : c.Settled context) :
    final.Lined := by
  have ended := @Ruled.ended context c ruled
  have sortedAs := ends.sortedAs ended
  have chained := ended.ruled.chained
  rw [ended.whole] at chained
  have length : final.elements.length = (c.ended context).elements.length := by
    rw [sortedAs.perm.length_eq, ← List.length_map (f := fun _ => ()), withoutLastSpace_map _ (fun _ _ _ => rfl),
      List.length_map]
  have filled := ended.noEmpty.mpr noEmpty
  have same : ∀ line ∈ (c.ended context).closed, selectionLength (final.elements.take line.startIndex) =
      selectionLength ((withoutLastSpace (c.ended context).elements).take line.startIndex) := by
    intro line member
    rcases settled with can | unsorted
    · exact sortedAs.take_boundary (ended.boundaries can line member)
    · unfold EndsAs at ends
      dsimp only at ends
      rw [if_neg (Bool.eq_false_iff.mp unsorted)] at ends
      rw [ends]
      rfl
  have atStart : ∀ line ∈ (c.ended context).closed,
      selectionLength (final.elements.take line.startIndex) = line.startCharIndex := by
    intro line member
    obtain ⟨-, stop⟩ := (chained_bounds chained).2 line member
    rw [same line member, (ended.ruled.covers line member).1, withoutLastSpace_take _ ((filled line member).trans_le stop)]
  constructor
  case consecutive =>
    rw [sortedAs.lines, length]
    exact (consecutive_iff chained).mpr filled
  case charChained =>
    rw [sortedAs.lines]
    exact charChained_of_covers chained ended.ruled.covers
  case covered =>
    rw [sortedAs.lines]
    intro line member
    have parts := selectionLength_elementsOf (c := final) line (filled line member).le
    rw [atStart line member] at parts
    rw [parts]
    rcases chained_ends chained line member with last | ⟨next, nextMember, here⟩
    · -- the last line has the index of the space that was taken away
      obtain ⟨most, least⟩ := selectionLength_withoutLastSpace (c.ended context).elements
      rw [(ended.ruled.covers line member).2, last, List.take_length, ← length, List.take_length,
        selectionLength_perm sortedAs.perm]
      exact ⟨most, least⟩
    · have stop := (ended.ruled.covers line member).2
      rw [← here] at stop ⊢
      rw [atStart next nextMember, (ended.ruled.covers next nextMember).1, ← stop]
      exact ⟨le_rfl, Nat.le_succ _⟩

end MessageLayoutContainer

end Forserino.Layouts
