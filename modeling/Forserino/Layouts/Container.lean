import Forserino.Foundation.Runs
import Forserino.Layouts.Element
import Forserino.Messages.LimitedQueue

/-! Laying out the elements of a message line by line
(messages/layouts/MessageLayoutContainer.cpp).

Where an element is in its line is computed as in the source; the heights, which do not decide where
a line is broken, are not.
-/

set_option autoImplicit false

namespace Forserino.Layouts

open Forserino.Foundation Forserino.Qt Forserino.Messages

inductive TextDirection where
  | neutral | rtl | ltr
  deriving DecidableEq, Repr

/-- A line covers the elements from startIndex to endIndex, and so for their selection indices. -/
structure Line where
  startIndex : Nat
  endIndex : Nat
  startCharIndex : Nat
  endCharIndex : Nat
  deriving DecidableEq, Repr

/-- What does not change during a layout: the width and the scaled margins, the widths in the font of
the messages, the settings, the flags of the message, and what Qt tells about a text. -/
structure LayoutContext where
  width : Int
  marginLeft : Int
  marginRight : Int
  spaceWidth : Int
  dotdotdotWidth : Int
  maxUncollapsedLines : Int
  removeSpacesBetweenEmotes : Bool
  collapsed : Bool
  centered : Bool
  isRightToLeft : QString → Bool
  isNeutral : QString → Bool

namespace MessageLayoutElement

def left (e : MessageLayoutElement) : Int := e.x

/-- QRect::right() -/
def right (e : MessageLayoutElement) : Int := e.x + e.width - 1

end MessageLayoutElement

structure MessageLayoutContainer where
  elements : List MessageLayoutElement
  lines : List Line
  line : Nat
  currentX : Int
  lineStart : Nat
  charIndex : Nat
  canAddMessages : Bool
  isCollapsed : Bool
  lineContainsRTL : Bool
  anyReorderingDone : Bool
  textDirection : TextDirection

/-- The container that is laid out again still has the direction of the text. -/
def beginLayout (textDirection : TextDirection) : MessageLayoutContainer :=
  ⟨[], [], 0, 0, 0, 0, true, false, false, false, textDirection⟩

/-- Which element was placed before an element: the last one when an element is added, and otherwise none or
that at an index. -/
inductive PrevIndex where
  | adding
  | first
  | at (index : Nat)
  deriving DecidableEq, Repr

/-- The indices behind the elements that are read from right to left, and those that are still to be reversed. -/
structure Reordering where
  correctSequence : List Nat
  swappedSequence : List Nat
  isReversing : Bool

/-- lines_.back() ends here. -/
def closeLine : List Line → Nat → Nat → List Line
  | [], _, _ => []
  | [line], endIndex, endCharIndex => [{ line with endIndex, endCharIndex }]
  | line :: next :: rest, endIndex, endCharIndex => line :: closeLine (next :: rest) endIndex endCharIndex

namespace MessageLayoutContainer

def canAddElements (c : MessageLayoutContainer) : Bool := c.canAddMessages

def atStartOfLine (c : MessageLayoutContainer) : Bool := c.lineStart == c.elements.length

def isRTL (c : MessageLayoutContainer) : Bool := c.textDirection == .rtl

variable (context : LayoutContext)

def canCollapse : Bool := context.maxUncollapsedLines > 0 && context.collapsed

def remainingWidth (c : MessageLayoutContainer) : Int :=
  (context.width - context.marginLeft - context.marginRight -
    if toInt (c.line + 1) = context.maxUncollapsedLines then context.dotdotdotWidth else 0) - c.currentX

def fitsInLine (c : MessageLayoutContainer) (width : Int) : Bool := width ≤ c.remainingWidth context

def previousElement (c : MessageLayoutContainer) : PrevIndex → Option MessageLayoutElement
  | .adding => c.elements.getLast?
  | .first => none
  | .at index => c.elements[index]?

def shouldRemoveSpaceBetweenEmotes (c : MessageLayoutContainer) (prevIndex : PrevIndex) : Bool :=
  (c.previousElement prevIndex).any fun lastElement =>
    lastElement.trailingSpace && lastElement.line == c.line && lastElement.flags.emoteImages

/-- The direction of the text, for which the first words decide. -/
def directionWith (c : MessageLayoutContainer) (element : MessageLayoutElement) : TextDirection :=
  if c.textDirection == .neutral && element.flags.text && !element.flags.repliedMessage then
    if context.isRightToLeft element.text then .rtl
    else if context.isNeutral element.text then c.textDirection
    else .ltr
  else c.textDirection

/-- What addElement does to an element that is added, or that is placed anew, from right to left if the text is. -/
def place (c : MessageLayoutContainer) (element : MessageLayoutElement) (prevIndex : PrevIndex) :
    MessageLayoutContainer × MessageLayoutElement :=
  let isAddingMode := prevIndex == .adding
  let isRTLAdjusting := c.isRTL && !isAddingMode
  let hugs := context.removeSpacesBetweenEmotes && element.flags.emoteImages && c.shouldRemoveSpaceBetweenEmotes prevIndex
  let startX :=
    if hugs then if isRTLAdjusting then c.currentX + context.spaceWidth else c.currentX - context.spaceWidth
    else c.currentX
  let x := if isRTLAdjusting then startX - element.width else startX
  let endX := if isRTLAdjusting then startX - element.width else startX + element.width
  let currentX :=
    if element.trailingSpace then if isRTLAdjusting then endX - context.spaceWidth else endX + context.spaceWidth
    else endX
  ({ c with
      currentX
      lineContainsRTL := context.isRightToLeft element.text || c.lineContainsRTL
      textDirection := if isAddingMode then c.directionWith context element else c.textDirection },
    { element with x, line := c.line })

/-- addElement of a new element, which is dropped when the message is full. -/
def pushElement (c : MessageLayoutContainer) (element : MessageLayoutElement) (forceAdd : Bool) : MessageLayoutContainer :=
  if !c.canAddElements && !forceAdd then c
  else
    let (placed, element) := c.place context element .adding
    { placed with elements := placed.elements ++ [element] }

/-- addElement of an element that is there already. -/
def replaceElement (c : MessageLayoutContainer) (index : Nat) (prevIndex : PrevIndex) : MessageLayoutContainer :=
  match c.elements[index]? with
  | some element =>
      if !c.canAddElements then c
      else
        let (placed, element) := c.place context element prevIndex
        { placed with elements := placed.elements.set index element }
  | none => c

def replaceElements (c : MessageLayoutContainer) (prevIndex : PrevIndex) : List Nat → MessageLayoutContainer
  | [] => c
  | index :: rest => (c.replaceElement context index prevIndex).replaceElements (.at index) rest

/-- One round of the loop over the elements that are reordered. -/
def reorder (c : MessageLayoutContainer) (r : Reordering) (i : Nat) : Reordering :=
  match c.elements[i]? with
  | none => r
  | some element =>
      let neutralOrUsername := context.isNeutral element.text || element.flags.mention
      if context.isRightToLeft element.text != c.isRTL && !neutralOrUsername || neutralOrUsername && r.isReversing then
        { r with swappedSequence := r.swappedSequence ++ [i], isReversing := true }
      else ⟨r.correctSequence ++ r.swappedSequence.reverse ++ [i], [], false⟩

def reorderRTL (c : MessageLayoutContainer) (firstTextIndex : Nat) : MessageLayoutContainer :=
  let endIndex := c.elements.length - 1
  if c.elements.isEmpty || firstTextIndex ≥ endIndex || c.lineStart ≥ c.elements.length then c
  else
    let startIndex := max c.lineStart firstTextIndex
    let r := (List.range' startIndex (endIndex + 1 - startIndex)).foldl (c.reorder context) ⟨[], [], false⟩
    let currentX :=
      if c.isRTL then (c.elements[endIndex]?.map MessageLayoutElement.right).getD c.currentX
      else (c.elements[startIndex]?.map MessageLayoutElement.left).getD c.currentX
    ({ c with currentX } : MessageLayoutContainer).replaceElements context .first
      (r.correctSequence ++ r.swappedSequence.reverse)

/-- The line is reordered if it has text that is read from right to left, or the message is. -/
def reordered (c : MessageLayoutContainer) : MessageLayoutContainer :=
  if c.lineContainsRTL || c.isRTL then
    let c :=
      match c.elements.findIdx? fun element => element.flags.username with
      | some i => c.reorderRTL context (i + 1)
      | none => c
    { c with lineContainsRTL := false, anyReorderingDone := true }
  else c

def centerOffset (c : MessageLayoutContainer) : Int :=
  if context.centered then
    match c.elements.getLast? with
    | some element => (context.width - (context.marginLeft + context.marginRight) - element.right).tdiv 2
    | none => 0
  else 0

/-- The elements from an index on are shifted. -/
def shiftFrom (start : Nat) (offset : Int) (elements : List MessageLayoutElement) : List MessageLayoutElement :=
  elements.take start ++ (elements.drop start).map fun element => { element with x := element.x + offset }

def breakLine (c : MessageLayoutContainer) : MessageLayoutContainer :=
  let c := c.reordered context
  let elements := shiftFrom c.lineStart (c.centerOffset context + context.marginLeft) c.elements
  let lines := closeLine c.lines c.lineStart c.charIndex ++ [⟨c.lineStart, 0, c.charIndex, 0⟩]
  let charIndex := c.charIndex + ((elements.drop c.lineStart).map MessageLayoutElement.getSelectionIndexCount).sum
  let broken := { c with elements, lines, charIndex, lineStart := elements.length }
  if canCollapse context && toInt (c.line + 1) ≥ context.maxUncollapsedLines then { broken with canAddMessages := false }
  else { broken with currentX := 0, line := c.line + 1 }

def addElement (c : MessageLayoutContainer) (element : MessageLayoutElement) : MessageLayoutContainer :=
  (if c.fitsInLine context element.width then c else c.breakLine context).pushElement context element false

def addElementNoLineBreak (c : MessageLayoutContainer) (element : MessageLayoutElement) : MessageLayoutContainer :=
  c.pushElement context element false

def dotdotdot : MessageLayoutElement :=
  ⟨.text, ⟨false, false, false, false, false, false, false, false⟩, qs "...", true, 0, context.dotdotdotWidth, 0⟩

/-- In a message that is read from right to left, the elements of the last line make room for the dots. -/
def shiftedForDots (c : MessageLayoutContainer) : List MessageLayoutElement :=
  if c.isRTL then
    match c.lines.getLast? with
    | some line => shiftFrom line.startIndex context.dotdotdotWidth c.elements
    | none => c.elements
  else c.elements

/-- The end of a message that is full. -/
def collapse (c : MessageLayoutContainer) : MessageLayoutContainer :=
  { ({ c with elements := c.shiftedForDots context } : MessageLayoutContainer).pushElement context (dotdotdot context) true with
    isCollapsed := true }

/-- elements_.back()->setTrailingSpace(false) -/
def withoutLastSpace : List MessageLayoutElement → List MessageLayoutElement
  | [] => []
  | [element] => [{ element with trailingSpace := false }]
  | element :: next :: rest => element :: withoutLastSpace (next :: rest)

/-- endLayout, up to sorting the elements. -/
def finish (c : MessageLayoutContainer) : MessageLayoutContainer :=
  let c := if c.canAddElements then c else c.collapse context
  let c := if c.atStartOfLine then c else c.breakLine context
  { c with
    lines := closeLine c.lines c.elements.length c.charIndex
    elements := withoutLastSpace c.elements }

/-- The order in which reordered elements are sorted. -/
def isBefore (a b : MessageLayoutElement) : Bool := if a.line = b.line then a.x < b.x else a.line < b.line

/-- What endLayout can leave: elements that are in the same place are in any order behind std::ranges::sort. -/
def EndsAs (c final : MessageLayoutContainer) : Prop :=
  let c := c.finish context
  if c.anyReorderingDone then
    ∃ elements, elements.Perm c.elements ∧ elements.Pairwise (fun a b => isBefore b a = false) ∧
      final = { c with elements }
  else final = c

end MessageLayoutContainer

/-- What the elements of a message call. -/
inductive Call where
  | addElement (element : MessageLayoutElement)
  | addElementNoLineBreak (element : MessageLayoutElement)
  | breakLine

def MessageLayoutContainer.step (context : LayoutContext) (c : MessageLayoutContainer) :
    Call → Option MessageLayoutContainer
  | .addElement element => some (c.addElement context element)
  | .addElementNoLineBreak element => some (c.addElementNoLineBreak context element)
  | .breakLine => some (c.breakLine context)

end Forserino.Layouts
