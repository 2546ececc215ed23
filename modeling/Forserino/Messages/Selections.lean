import Forserino.Messages.ScrollBounds
import Forserino.Messages.ViewFillIn

/-! The selected text of a channel view, whose messages move under it
(widgets/helper/ChannelView.cpp, messages/Selection.hpp).

While the view is paused it shows the layouts of before, and what the selection is to be moved by is counted.
-/

set_option autoImplicit false

namespace Forserino.Messages

open Forserino.Foundation Forserino.Qt

universe u

structure SelectionItem where
  messageIndex : Nat
  charIndex : Nat
  deriving DecidableEq, Repr

namespace SelectionItem

def lt (a b : SelectionItem) : Bool :=
  a.messageIndex < b.messageIndex || (a.messageIndex == b.messageIndex && a.charIndex < b.charIndex)

def gt (a b : SelectionItem) : Bool := a != b && b.lt a

/-- What shiftMessageIndex does to each of its items. -/
def shift (item : SelectionItem) (offset : Nat) : SelectionItem :=
  if offset > item.messageIndex then ⟨0, 0⟩ else { item with messageIndex := item.messageIndex - offset }

end SelectionItem

structure Selection where
  start : SelectionItem
  «end» : SelectionItem
  selectionMin : SelectionItem
  selectionMax : SelectionItem
  deriving DecidableEq, Repr

namespace Selection

/-- A selection before anything was selected. -/
def none : Selection := ⟨⟨0, 0⟩, ⟨0, 0⟩, ⟨0, 0⟩, ⟨0, 0⟩⟩

def of (start «end» : SelectionItem) : Selection :=
  if start.gt «end» then ⟨start, «end», «end», start⟩ else ⟨start, «end», start, «end»⟩

/-- operator==, which does not look at the other two items -/
def same (a b : Selection) : Bool := a.start == b.start && a.end == b.end

/-- Shift all message selection indices back -/
def shiftMessageIndex (selection : Selection) (offset : Nat) : Selection where
  selectionMin := selection.selectionMin.shift offset
  selectionMax := selection.selectionMax.shift offset
  start := selection.start.shift offset
  «end» := selection.end.shift offset

/-- The other two items are the smaller and the larger one of start and end. -/
def Ordered (selection : Selection) : Prop :=
  if selection.end.lt selection.start then
    selection.selectionMin = selection.end ∧ selection.selectionMax = selection.start
  else selection.selectionMin = selection.start ∧ selection.selectionMax = selection.end

end Selection

/-- A channel view with its selection. -/
structure SelectingView (M : Type u) (Highlight : Type u) where
  base : PausableView M Highlight
  selection : Selection
  pauseSelectionOffset : Nat

inductive SelectionEvent (M : Type u) where
  | messageAppended (message : Item M)
  | messageAddedAtStart (messages : List (Item M))
  | messageReplaced (hint : Nat) (prev replacement : Item M)
  | messagesUpdated (channel : Channel (Item M))
  | pause (reason : PauseReason) (hasEnd : Bool)
  | unpause (reason : PauseReason)
  | pauseTimer
  | setSelection (start «end» : SelectionItem)

namespace SelectingView

variable {M : Type u} {Highlight : Type u} (getScrollBarHighlight : Item M → Highlight) (ignoresHighlights : Bool)

def paused (s : SelectingView M Highlight) : Bool := s.base.paused

def unpaused (s : SelectingView M Highlight) : SelectingView M Highlight :=
  { s with selection := s.selection.shiftMessageIndex s.pauseSelectionOffset, pauseSelectionOffset := 0 }

/-- What updatePauses does to the selection. -/
def updatePauses (s : SelectingView M Highlight) : SelectingView M Highlight :=
  if s.base.pauses.isEmpty then s.unpaused else s

/-- Where the first layout was deleted, the selection is moved, or is to be moved behind the pause. -/
def messageAppended (s : SelectingView M Highlight) (message : Item M) : SelectingView M Highlight :=
  let base := s.base.messageAppended getScrollBarHighlight ignoresHighlights message
  let deleted := (s.base.view.messages.pushBack
    ⟨message, s.base.view.lastMessageHasAlternateBackground, ignoresHighlights⟩).2
  if deleted then
    if s.base.paused then { s with base, pauseSelectionOffset := s.pauseSelectionOffset + 1 }
    else { s with base, selection := s.selection.shiftMessageIndex 1 }
  else { s with base }

def setSelection (s : SelectingView M Highlight) (newSelection : Selection) : SelectingView M Highlight :=
  if s.selection.same newSelection then s else { s with selection := newSelection }

def step [DecidableEq M] (s : SelectingView M Highlight) : SelectionEvent M → Option (SelectingView M Highlight)
  | .messageAppended message => some (s.messageAppended getScrollBarHighlight ignoresHighlights message)
  | .messageAddedAtStart messages =>
      (s.base.messageAddedAtStart getScrollBarHighlight messages).map fun base => { s with base }
  | .messageReplaced hint prev replacement =>
      some { s with base := s.base.messageReplaced getScrollBarHighlight hint prev replacement }
  | .messagesUpdated channel =>
      (s.base.step getScrollBarHighlight ignoresHighlights (.messagesUpdated channel)).map fun base => { s with base }
  | .pause reason hasEnd => some ({ s with base := s.base.pause reason hasEnd } : SelectingView M Highlight).updatePauses
  | .unpause reason =>
      if s.base.pauses.any fun other => other.1 == reason then
        some ({ s with base := s.base.unpause reason } : SelectingView M Highlight).updatePauses
      else some s
  | .pauseTimer => some ({ s with base := s.base.pauseTimer } : SelectingView M Highlight).updatePauses
  | .setSelection start «end» => some (s.setSelection (.of start «end»))

/-- The messages of the layouts. -/
def rows (s : SelectingView M Highlight) : List (Item M) := s.base.view.messages.getSnapshot.map MessageLayout.message

end SelectingView

/-! ## Where the messages go -/

/-- The messages for which a view has room. -/
def lastMessages {M : Type u} (limit : Nat) (channel : Channel (Item M)) : List (Item M) :=
  channel.getMessageSnapshot.drop (channel.getMessageSnapshot.length - limit)

/-- The row of a message behind an event, if it is still in the view. -/
def SelectionEvent.follow {M : Type u} {Highlight : Type u} [DecidableEq M] (s : SelectingView M Highlight) (row : Nat) :
    SelectionEvent M → Option Nat
  | .messageAppended _ =>
      if s.base.view.messages.buffer.full then if row = 0 then none else some (row - 1) else some row
  | .messageAddedAtStart messages => some (row + min messages.length s.base.view.messages.space)
  | .messagesUpdated channel =>
      let messages := lastMessages s.base.view.messages.limit channel
      if messages[row]? = s.rows[row]? then some row
      else s.rows[row]?.bind fun message => messages.findIdx? (· == message)
  | .messageReplaced _ _ _ | .pause _ _ | .unpause _ | .pauseTimer | .setSelection _ _ => some row

/-- A message that was selected, as long as it is in the view, and a place in it. -/
structure Target where
  row : Option Nat
  char : Nat
  deriving DecidableEq, Repr

/-- A message that is not in the view any more leaves the first position behind. -/
def Target.item (target : Target) : SelectionItem :=
  match target.row with
  | some row => ⟨row, target.char⟩
  | none => ⟨0, 0⟩

/-- A view, where the messages are now that it shows, and what was selected of them. -/
structure Followed (M : Type u) (Highlight : Type u) where
  selecting : SelectingView M Highlight
  shown : List (Option Nat)
  start : Target
  «end» : Target

namespace Followed

variable {M : Type u} {Highlight : Type u}

/-- The view shows its layouts. -/
def layouts (s : SelectingView M Highlight) : List (Option Nat) := (List.range s.rows.length).map some

/-- A view in which nothing was selected. -/
def new (base : PausableView M Highlight) : Followed M Highlight :=
  ⟨⟨base, .none, 0⟩, layouts ⟨base, .none, 0⟩, ⟨none, 0⟩, ⟨none, 0⟩⟩

section
variable [DecidableEq M] (getScrollBarHighlight : Item M → Highlight) (ignoresHighlights : Bool)

def follow (f : Followed M Highlight) (event : SelectionEvent M) (row : Option Nat) : Option Nat :=
  row.bind fun row => event.follow f.selecting row

/-- A paused view goes on to show the layouts that it had. -/
def shownBehind (f : Followed M Highlight) (event : SelectionEvent M) (next : SelectingView M Highlight) :
    List (Option Nat) :=
  if next.paused then f.shown.map (f.follow event) else layouts next

/-- What is selected behind an event; text can be selected in the messages that the view shows. -/
def targets (f : Followed M Highlight) (event : SelectionEvent M) : Option (Target × Target) :=
  match event with
  | .setSelection start «end» =>
      match f.shown[start.messageIndex]?, f.shown[«end».messageIndex]? with
      | some startRow, some endRow => some (⟨startRow, start.charIndex⟩, ⟨endRow, «end».charIndex⟩)
      | _, _ => none
  | _ => some ({ f.start with row := f.follow event f.start.row }, { f.end with row := f.follow event f.end.row })

def step (f : Followed M Highlight) (event : SelectionEvent M) : Option (Followed M Highlight) :=
  match f.selecting.step getScrollBarHighlight ignoresHighlights event, f.targets event with
  | some next, some (start, «end») => some ⟨next, f.shownBehind event next, start, «end»⟩
  | _, _ => none

/-- The row of a shown message was only moved by the layouts that were deleted since. -/
def AtHand (f : Followed M Highlight) (index : Nat) : Prop :=
  f.shown[index]? = some (if index < f.selecting.pauseSelectionOffset then none
    else some (index - f.selecting.pauseSelectionOffset))

/-- No message is added in front of a selected one, and none goes to another row when the layouts
are made anew. -/
def Undisturbed (f : Followed M Highlight) (event : SelectionEvent M) : Prop :=
  match event with
  | .messageAddedAtStart messages =>
      min messages.length f.selecting.base.view.messages.space = 0 ∨ f.start.row = none ∧ f.end.row = none
  | .messagesUpdated _ => f.follow event f.start.row = f.start.row ∧ f.follow event f.end.row = f.end.row
  | .setSelection start «end» => f.AtHand start.messageIndex ∧ f.AtHand «end».messageIndex
  | _ => True

end

end Followed

/-! ## Shifting -/

namespace SelectionItem

@[simp] theorem shift_zero (item : SelectionItem) : item.shift 0 = item := rfl

@[simp] theorem shift_first (offset : Nat) : shift ⟨0, 0⟩ offset = ⟨0, 0⟩ := by
  unfold shift
  split
  · rfl
  · rw [Nat.zero_sub]

/-- Two shifts are one. -/
theorem shift_shift (item : SelectionItem) (offset more : Nat) :
    (item.shift offset).shift more = item.shift (offset + more) := by
  by_cases before : offset > item.messageIndex
  · have gone : item.shift offset = ⟨0, 0⟩ := if_pos before
    rw [gone, shift_first, shift, if_pos (Nat.lt_add_right more before)]
  · have kept : item.shift offset = { item with messageIndex := item.messageIndex - offset } := if_neg before
    rw [kept, shift, shift, Nat.sub_sub]
    by_cases beyond : offset + more > item.messageIndex
    · rw [if_pos beyond, if_pos (by omega : more > item.messageIndex - offset)]
    · rw [if_neg beyond, if_neg (by omega : ¬ more > item.messageIndex - offset)]

theorem lt_iff {a b : SelectionItem} : a.lt b = true ↔
    a.messageIndex < b.messageIndex ∨ a.messageIndex = b.messageIndex ∧ a.charIndex < b.charIndex := by
  simp [lt]

/-- What comes first after a shift came first before it. -/
theorem lt_of_shift {a b : SelectionItem} {offset : Nat} (before : (a.shift offset).lt (b.shift offset) = true) :
    a.lt b = true := by
  rw [lt_iff] at before ⊢
  unfold shift at before
  split at before <;> split at before <;> grind

/-- Items that a shift does not keep apart are both clamped. -/
theorem shift_eq {a b : SelectionItem} {offset : Nat} (before : a.lt b = true)
    (after : (a.shift offset).lt (b.shift offset) ≠ true) : a.shift offset = b.shift offset := by
  rw [Ne, lt_iff] at after
  rw [lt_iff] at before
  unfold shift at after ⊢
  split at after <;> split at after <;> grind

end SelectionItem

namespace Selection

theorem Ordered.shift {selection : Selection} (ordered : selection.Ordered) (offset : Nat) :
    (selection.shiftMessageIndex offset).Ordered := by
  unfold Ordered shiftMessageIndex at *
  dsimp only
  split at ordered
  case isTrue before =>
    obtain ⟨minimum, maximum⟩ := ordered
    rw [minimum, maximum]
    split
    case isTrue => exact ⟨rfl, rfl⟩
    case isFalse after =>
      have same := SelectionItem.shift_eq before after
      exact ⟨same, same.symm⟩
  case isFalse notBefore =>
    obtain ⟨minimum, maximum⟩ := ordered
    rw [minimum, maximum, if_neg fun after => notBefore (SelectionItem.lt_of_shift after)]
    exact ⟨rfl, rfl⟩

theorem gt_iff (a b : SelectionItem) : a.gt b = b.lt a := by
  rw [Bool.eq_iff_iff, SelectionItem.gt, Bool.and_eq_true, bne_iff_ne]
  refine ⟨And.right, fun before => ⟨?_, before⟩⟩
  rintro rfl
  rw [SelectionItem.lt_iff] at before
  omega

theorem ordered_of (start «end» : SelectionItem) : (of start «end»).Ordered := by
  unfold of Ordered
  rw [gt_iff]
  split
  case isTrue => exact ⟨rfl, rfl⟩
  case isFalse => exact ⟨rfl, rfl⟩

theorem of_start (start «end» : SelectionItem) : (of start «end»).start = start ∧ (of start «end»).end = «end» := by
  unfold of
  split <;> exact ⟨rfl, rfl⟩

theorem shift_shift (selection : Selection) (offset more : Nat) :
    (selection.shiftMessageIndex offset).shiftMessageIndex more = selection.shiftMessageIndex (offset + more) := by
  simp only [shiftMessageIndex, SelectionItem.shift_shift]

theorem shift_zero (selection : Selection) : selection.shiftMessageIndex 0 = selection := rfl

end Selection

/-! ## Steps -/

namespace PausableView

variable {M : Type u} {Highlight : Type u} {getScrollBarHighlight : Item M → Highlight} {ignoresHighlights : Bool}

theorem updatePauses_pauses (s : PausableView M Highlight) :
    s.updatePauses.pauses = s.pauses ∧ s.updatePauses.pausable = s.pausable ∧ s.updatePauses.view = s.view := by
  unfold updatePauses
  split <;> exact ⟨rfl, rfl, rfl⟩

theorem unpause_pausable (s : PausableView M Highlight) (reason : PauseReason) :
    (s.unpause reason).pausable = s.pausable := by
  unfold unpause
  split
  · exact (updatePauses_pauses _).2.1
  · rfl

theorem unpause_view (s : PausableView M Highlight) (reason : PauseReason) : (s.unpause reason).view = s.view := by
  unfold unpause
  split
  · exact (updatePauses_pauses _).2.2
  · rfl

theorem messageAppended_paused (s : PausableView M Highlight) (message : Item M) :
    (s.messageAppended getScrollBarHighlight ignoresHighlights message).paused = s.paused := by
  have maximum := (moveMaximum_moved s).paused
  have minimum := (moveMinimum_moved s.moveMaximum).paused
  unfold messageAppended
  dsimp only
  split
  · exact minimum.trans maximum
  · exact maximum

theorem messageAddedAtStart_paused {s next : PausableView M Highlight} {messages : List (Item M)}
    (added : s.messageAddedAtStart getScrollBarHighlight messages = some next) : next.paused = s.paused := by
  obtain ⟨pushed, -, rest⟩ := Option.bind_eq_some_iff.mp added
  obtain ⟨view, -, rest⟩ := Option.bind_eq_some_iff.mp rest
  cases rest
  rfl

theorem messageReplaced_paused [DecidableEq M] (s : PausableView M Highlight) (hint : Nat) (prev replacement : Item M) :
    (s.messageReplaced getScrollBarHighlight hint prev replacement).paused = s.paused := by
  unfold messageReplaced
  split <;> rfl

end PausableView

namespace SelectingView

variable {M : Type u} {Highlight : Type u} {getScrollBarHighlight : Item M → Highlight} {ignoresHighlights : Bool}
  {s next : SelectingView M Highlight}

/-- The selection as it will be behind the pause. -/
def behind (s : SelectingView M Highlight) : Selection := s.selection.shiftMessageIndex s.pauseSelectionOffset

/-- Nothing is left to be moved in a view that is not paused. -/
def Settled (s : SelectingView M Highlight) : Prop := s.paused = false → s.pauseSelectionOffset = 0

theorem Settled.of_same (settled : s.Settled) (paused : next.paused = s.paused)
    (offset : next.pauseSelectionOffset = s.pauseSelectionOffset) : next.Settled := by
  intro unpaused
  rw [offset]
  exact settled (paused ▸ unpaused)

theorem messageAppended_paused (s : SelectingView M Highlight) (message : Item M) :
    (s.messageAppended getScrollBarHighlight ignoresHighlights message).paused = s.paused := by
  have paused : (s.base.messageAppended getScrollBarHighlight ignoresHighlights message).paused = s.base.paused :=
    s.base.messageAppended_paused message
  unfold messageAppended
  dsimp only
  split
  · split <;> exact paused
  · exact paused

theorem messageAppended_settled (settled : s.Settled) (message : Item M) :
    (s.messageAppended getScrollBarHighlight ignoresHighlights message).Settled := by
  intro unpaused
  rw [messageAppended_paused] at unpaused
  have none_ := settled unpaused
  unfold messageAppended
  dsimp only
  split
  · rw [if_neg (show ¬ s.base.paused = true from Bool.eq_false_iff.mp unpaused)]
    exact none_
  · exact none_

/-- The selection moves with the layouts, at once or behind the pause. -/
theorem messageAppended_behind (settled : s.Settled) (message : Item M) :
    (s.messageAppended getScrollBarHighlight ignoresHighlights message).behind =
      s.behind.shiftMessageIndex (if s.base.view.messages.buffer.full then 1 else 0) := by
  unfold messageAppended behind
  dsimp only [LimitedQueue.pushBack]
  cases s.base.view.messages.buffer.full with
  | false => rfl
  | true =>
    rw [if_pos rfl, if_pos rfl, Selection.shift_shift]
    split
    case isTrue => rfl
    case isFalse unpaused =>
      have none_ := settled (Bool.eq_false_iff.mpr unpaused)
      rw [Selection.shift_shift, none_]

theorem updatePauses_behind (s : SelectingView M Highlight) : s.updatePauses.behind = s.behind := by
  unfold updatePauses
  split <;> rfl

theorem updatePauses_settled (settled : s.Settled) {base : PausableView M Highlight}
    (pausable : base.pausable = s.base.pausable) :
    ({ s with base } : SelectingView M Highlight).updatePauses.Settled := by
  unfold updatePauses
  split
  case isTrue => exact fun _ => rfl
  case isFalse some_ =>
    -- there is a pause, so the view is not paused only if it never is
    intro unpaused
    refine settled ?_
    have never : base.pausable = false := by
      have paused : (base.pausable && !base.pauses.isEmpty) = false := unpaused
      rwa [Bool.eq_false_iff.mpr some_, Bool.not_false, Bool.and_true] at paused
    show (s.base.pausable && _) = false
    rw [← pausable, never, Bool.false_and]

theorem setSelection_start (s : SelectingView M Highlight) (newSelection : Selection) :
    (s.setSelection newSelection).selection.start = newSelection.start ∧
      (s.setSelection newSelection).selection.end = newSelection.end ∧
      (s.setSelection newSelection).base = s.base ∧
      (s.setSelection newSelection).pauseSelectionOffset = s.pauseSelectionOffset := by
  unfold setSelection
  split
  case isTrue same =>
    rw [Selection.same, Bool.and_eq_true, beq_iff_eq, beq_iff_eq] at same
    exact ⟨same.1, same.2, rfl, rfl⟩
  case isFalse => exact ⟨rfl, rfl, rfl, rfl⟩

/-- Nothing is moved as long as the view stays paused. -/
theorem updatePauses_offset {base : PausableView M Highlight}
    (paused : ({ s with base } : SelectingView M Highlight).updatePauses.paused = true) :
    ({ s with base } : SelectingView M Highlight).updatePauses.pauseSelectionOffset = s.pauseSelectionOffset := by
  unfold updatePauses at paused ⊢
  split at paused
  case isTrue none_ =>
    have paused : (base.pausable && !base.pauses.isEmpty) = true := paused
    rw [none_, Bool.not_true, Bool.and_false] at paused
    cases paused
  case isFalse some_ => rw [if_neg some_]

variable [DecidableEq M] {event : SelectionEvent M}

theorem step_settled (settled : s.Settled) (taken : s.step getScrollBarHighlight ignoresHighlights event = some next) :
    next.Settled := by
  cases event with
  | messageAppended message =>
    cases taken
    exact messageAppended_settled settled message
  | messageAddedAtStart messages =>
    obtain ⟨base, added, rfl⟩ := Option.map_eq_some_iff.mp taken
    exact settled.of_same (PausableView.messageAddedAtStart_paused added) rfl
  | messageReplaced hint prev replacement =>
    cases taken
    exact settled.of_same (s.base.messageReplaced_paused hint prev replacement) rfl
  | messagesUpdated channel =>
    cases taken
    exact settled.of_same rfl rfl
  | pause reason hasEnd =>
    cases taken
    exact updatePauses_settled settled (PausableView.updatePauses_pauses _).2.1
  | unpause reason =>
    rw [step] at taken
    split at taken
    · cases taken
      exact updatePauses_settled settled (s.base.unpause_pausable reason)
    · cases taken
      exact settled
  | pauseTimer =>
    cases taken
    exact updatePauses_settled settled (PausableView.updatePauses_pauses _).2.1
  | setSelection start «end» =>
    cases taken
    obtain ⟨-, -, base, offset⟩ := s.setSelection_start (.of start «end»)
    exact settled.of_same (congrArg PausableView.paused base) offset

/-- What does not delete a layout and is no new selection leaves the selection where it is. -/
theorem step_behind (taken : s.step getScrollBarHighlight ignoresHighlights event = some next)
    (notAppended : ∀ message, event ≠ .messageAppended message)
    (notSet : ∀ start «end», event ≠ .setSelection start «end») : next.behind = s.behind := by
  cases event with
  | messageAppended message => exact absurd rfl (notAppended message)
  | setSelection start «end» => exact absurd rfl (notSet start «end»)
  | messageAddedAtStart messages =>
    obtain ⟨base, -, rfl⟩ := Option.map_eq_some_iff.mp taken
    rfl
  | messageReplaced hint prev replacement =>
    cases taken
    rfl
  | messagesUpdated channel =>
    cases taken
    rfl
  | pause reason hasEnd =>
    cases taken
    exact updatePauses_behind _
  | unpause reason =>
    rw [step] at taken
    split at taken
    · cases taken
      exact updatePauses_behind _
    · cases taken
      rfl
  | pauseTimer =>
    cases taken
    exact updatePauses_behind _

theorem step_ordered (ordered : s.selection.Ordered)
    (taken : s.step getScrollBarHighlight ignoresHighlights event = some next) : next.selection.Ordered := by
  have updated (s : SelectingView M Highlight) (ordered : s.selection.Ordered) : s.updatePauses.selection.Ordered := by
    unfold updatePauses
    split
    · exact ordered.shift _
    · exact ordered
  cases event with
  | messageAppended message =>
    cases taken
    unfold messageAppended
    dsimp only
    split
    · split
      · exact ordered
      · exact ordered.shift 1
    · exact ordered
  | messageAddedAtStart messages =>
    obtain ⟨base, -, rfl⟩ := Option.map_eq_some_iff.mp taken
    exact ordered
  | messageReplaced hint prev replacement =>
    cases taken
    exact ordered
  | messagesUpdated channel =>
    cases taken
    exact ordered
  | pause reason hasEnd =>
    cases taken
    exact updated _ ordered
  | unpause reason =>
    rw [step] at taken
    split at taken
    · cases taken
      exact updated _ ordered
    · cases taken
      exact ordered
  | pauseTimer =>
    cases taken
    exact updated _ ordered
  | setSelection start «end» =>
    cases taken
    unfold setSelection
    split
    · exact ordered
    · exact Selection.ordered_of start «end»

end SelectingView

/-! ## The rows -/

section
variable {M : Type u} {ignoresHighlights : Bool}

def ChannelView.rows (view : ChannelView M) : List (Item M) := view.messages.getSnapshot.map MessageLayout.message

theorem messageAppended_rows (view : ChannelView M) (message : Item M) :
    (view.messageAppended ignoresHighlights message).rows =
      (view.rows ++ [message]).drop (if view.messages.buffer.full then 1 else 0) := by
  have layouts := pushBack_items view.messages ⟨message, view.lastMessageHasAlternateBackground, ignoresHighlights⟩
  have items := congrArg (List.map MessageLayout.message) layouts
  rw [List.map_drop, List.map_append] at items
  exact items

/-- Of all messages that are appended, the last ones stay for which there is room. -/
theorem messagesAppended_rows (messages : List (Item M)) (view : ChannelView M) :
    (messages.foldl (ChannelView.messageAppended ignoresHighlights) view).rows =
      (view.rows ++ messages).drop (view.rows.length + messages.length - view.messages.limit) := by
  have size : view.rows.length ≤ view.messages.limit := by
    rw [ChannelView.rows, List.length_map]
    exact view.messages.buffer.size_le
  induction messages generalizing view with
  | nil =>
    rw [List.length_nil, Nat.add_zero, Nat.sub_eq_zero_of_le size, List.append_nil]
    rfl
  | cons message messages ih =>
    have first := @messageAppended_rows M ignoresHighlights view message
    have full : view.messages.buffer.full = true ↔ view.rows.length = view.messages.limit := by
      rw [CircularBuffer.full_iff, ChannelView.rows, List.length_map]
      rfl
    have limit : (view.messageAppended ignoresHighlights message).messages.limit = view.messages.limit := rfl
    have few : (if view.messages.buffer.full then 1 else 0) ≤ (view.rows ++ [message]).length := by
      rw [List.length_append, List.length_singleton]
      split <;> omega
    have length := congrArg List.length first
    rw [List.length_drop, List.length_append, List.length_singleton] at length
    rw [List.foldl_cons, ih _ (by rw [limit, length]; split <;> grind), limit, first,
      ← List.drop_append_of_le_length few, List.append_assoc, List.drop_drop, List.singleton_append, List.length_drop,
      List.length_append, List.length_singleton, List.length_cons]
    congr 1
    split <;> grind

theorem messagesUpdated_rows [DecidableEq M] (view : ChannelView M) :
    (view.messagesUpdated ignoresHighlights).rows = lastMessages view.messages.limit view.channel := by
  unfold ChannelView.messagesUpdated
  rw [messagesAppended_rows]
  show List.drop (0 + _ - _) _ = _
  rw [Nat.zero_add]
  rfl

theorem messageAddedAtStart_rows {view after : ChannelView M} {messages : List (Item M)}
    (added : view.messageAddedAtStart messages = some after) :
    after.rows = messages.drop (messages.length - min messages.length view.messages.space) ++ view.rows := by
  let layouts := ChannelView.startLayouts view.lastMessageHasAlternateBackgroundReverse messages
  have same := startLayouts_messages view.lastMessageHasAlternateBackgroundReverse messages
  have length : layouts.length = messages.length := by
    rw [← List.length_map, same]
  obtain ⟨buffer, pushed, items⟩ := view.messages.pushFront_pushed layouts
  unfold ChannelView.messageAddedAtStart at added
  rw [pushed] at added
  cases added
  show buffer.items.map _ = _
  rw [items, List.map_append, List.map_drop, same, length]
  rfl

theorem findHint_fits {T : Type u} {queue : LimitedQueue T} {hint index : Nat} {pred : T → Bool} {item : T}
    (found : queue.findHint hint pred = some (index, item)) : pred item = true := by
  unfold LimitedQueue.findHint at found
  split at found
  case h_1 hinted =>
    cases found
    exact (Option.filter_eq_some_iff.mp hinted).2
  case h_2 =>
    obtain ⟨first, isFirst, mapped⟩ := Option.bind_eq_some_iff.mp found
    obtain ⟨there, isThere, same⟩ := Option.map_eq_some_iff.mp mapped
    obtain ⟨inside, fits, -⟩ := List.findIdx?_eq_some_iff_getElem.mp isFirst
    rw [List.getElem?_eq_getElem inside] at isThere
    cases isThere
    cases same
    exact fits

/-- What is replaced is where it was. -/
theorem messageReplaced_rows [DecidableEq M] (view : ChannelView M) (hint : Nat) (prev replacement : Item M) (row : Nat) :
    (view.messageReplaced hint prev replacement).rows[row]? = view.rows[row]? ∨
      view.rows[row]? = some prev ∧ (view.messageReplaced hint prev replacement).rows[row]? = some replacement := by
  unfold ChannelView.messageReplaced
  cases found : view.messages.findHint hint fun layout => layout.message == prev with
  | none => exact .inl rfl
  | some there =>
    obtain ⟨index, oldItem⟩ := there
    have fits : (oldItem.message == prev) = true := (findHint_fits found :)
    have isPrev : oldItem.message = prev := beq_iff_eq.mp fits
    have isThere : view.messages.buffer.items[index]? = some oldItem := getElem_of_findHint found
    have replaced : (view.messages.replaceItemAt index ⟨replacement, oldItem.alternateBackground, false⟩).1.getSnapshot =
        view.messages.getSnapshot.set index ⟨replacement, oldItem.alternateBackground, false⟩ := by
      rw [LimitedQueue.replaceItemAt, isThere]
      rfl
    unfold ChannelView.rows
    dsimp only
    rw [replaced, List.map_set]
    by_cases same : index = row
    · subst same
      have shown : (view.messages.getSnapshot.map MessageLayout.message)[index]? = some prev := by
        rw [List.getElem?_map, LimitedQueue.getSnapshot, isThere, Option.map_some, isPrev]
      have inside := (List.getElem?_eq_some_iff.mp shown).1
      exact .inr ⟨shown, List.getElem?_set_self inside⟩
    · exact .inl (List.getElem?_set_ne same)

end

namespace SelectingView

variable {M : Type u} {Highlight : Type u} {getScrollBarHighlight : Item M → Highlight} {ignoresHighlights : Bool}
  {s next : SelectingView M Highlight}

theorem updatePauses_rows (s : SelectingView M Highlight) : s.updatePauses.rows = s.rows := by
  unfold updatePauses
  split <;> rfl

theorem base_rows {base : PausableView M Highlight} (same : base.view = s.base.view) :
    ({ s with base } : SelectingView M Highlight).rows = s.rows := by
  unfold rows
  dsimp only
  rw [same]

theorem messageAppended_view (s : PausableView M Highlight) (message : Item M) :
    (s.messageAppended getScrollBarHighlight ignoresHighlights message).view =
      s.view.messageAppended ignoresHighlights message := by
  have maximum := (PausableView.moveMaximum_moved s).view
  have minimum := (PausableView.moveMinimum_moved s.moveMaximum).view
  unfold PausableView.messageAppended
  dsimp only
  split
  · rw [minimum, maximum]
  · rw [maximum]

theorem appended_rows (s : SelectingView M Highlight) (message : Item M) :
    (s.messageAppended getScrollBarHighlight ignoresHighlights message).rows =
      (s.rows ++ [message]).drop (if s.base.view.messages.buffer.full then 1 else 0) := by
  have base : (s.messageAppended getScrollBarHighlight ignoresHighlights message).base =
      s.base.messageAppended getScrollBarHighlight ignoresHighlights message := by
    unfold messageAppended
    dsimp only
    split
    · split <;> rfl
    · rfl
  show ChannelView.rows (s.messageAppended getScrollBarHighlight ignoresHighlights message).base.view = _
  rw [base, messageAppended_view]
  exact messageAppended_rows s.base.view message

variable [DecidableEq M] {event : SelectionEvent M}

variable {row behind : Nat}

theorem follow_appended {message : Item M} (inside : row < s.rows.length)
    (followed : (SelectionEvent.messageAppended message).follow s row = some behind) :
    (s.messageAppended getScrollBarHighlight ignoresHighlights message).rows[behind]? = s.rows[row]? := by
  unfold SelectionEvent.follow at followed
  rw [appended_rows, List.getElem?_drop]
  cases full : s.base.view.messages.buffer.full with
  | false =>
    rw [full] at followed
    cases followed
    rw [if_neg Bool.false_ne_true, Nat.zero_add, List.getElem?_append_left inside]
  | true =>
    rw [full] at followed
    dsimp only at followed
    rw [if_pos rfl] at followed
    split at followed
    · cases followed
    · cases followed
      rw [if_pos rfl, show 1 + (row - 1) = row by omega, List.getElem?_append_left inside]

theorem follow_addedAtStart {messages : List (Item M)} {view : ChannelView M}
    (added : s.base.view.messageAddedAtStart messages = some view)
    (followed : (SelectionEvent.messageAddedAtStart messages).follow s row = some behind) :
    view.rows[behind]? = s.rows[row]? := by
  cases followed
  have length : (messages.drop (messages.length - min messages.length s.base.view.messages.space)).length =
      min messages.length s.base.view.messages.space := by
    rw [List.length_drop]
    omega
  rw [messageAddedAtStart_rows added, List.getElem?_append_right (by omega), length, Nat.add_sub_cancel]
  rfl

/-- The replacement comes into the row of the message. -/
theorem follow_replaced (hint : Nat) (prev replacement : Item M) (row : Nat) :
    (s.base.messageReplaced getScrollBarHighlight hint prev replacement).view.rows[row]? = s.rows[row]? ∨
      s.rows[row]? = some prev ∧
        (s.base.messageReplaced getScrollBarHighlight hint prev replacement).view.rows[row]? = some replacement := by
  have view : (s.base.messageReplaced getScrollBarHighlight hint prev replacement).view =
      s.base.view.messageReplaced hint prev replacement := by
    unfold PausableView.messageReplaced ChannelView.messageReplaced
    cases s.base.view.messages.findHint hint fun layout => layout.message == prev with
    | none => rfl
    | some pair => rfl
  rw [view]
  exact messageReplaced_rows s.base.view hint prev replacement row

theorem follow_updated {channel : Channel (Item M)}
    (followed : (SelectionEvent.messagesUpdated channel).follow s row = some behind) :
    (({ s.base.view with channel } : ChannelView M).messagesUpdated ignoresHighlights).rows[behind]? = s.rows[row]? := by
  rw [messagesUpdated_rows]
  unfold SelectionEvent.follow at followed
  dsimp only at followed
  split at followed
  case isTrue same =>
    cases followed
    exact same
  case isFalse =>
    obtain ⟨message, isThere, found⟩ := Option.bind_eq_some_iff.mp followed
    obtain ⟨bound, same, -⟩ := List.findIdx?_eq_some_iff_getElem.mp found
    rw [isThere, ← beq_iff_eq.mp same]
    exact List.getElem?_eq_getElem bound

/-- A message is in the row to which an event is followed, or was replaced there. -/
theorem follow_rows (taken : s.step getScrollBarHighlight ignoresHighlights event = some next)
    (inside : row < s.rows.length) (followed : event.follow s row = some behind) :
    next.rows[behind]? = s.rows[row]? ∨ ∃ hint prev replacement, event = .messageReplaced hint prev replacement ∧
      s.rows[row]? = some prev ∧ next.rows[behind]? = some replacement := by
  have stays (same : next.rows = s.rows) (stayed : event.follow s row = some row) :
      next.rows[behind]? = s.rows[row]? := by
    cases followed.symm.trans stayed
    rw [same]
  cases event with
  | messageAppended message =>
    cases (Option.some.inj taken).symm
    exact .inl (follow_appended inside followed)
  | messageAddedAtStart messages =>
    obtain ⟨base, added, rfl⟩ := Option.map_eq_some_iff.mp taken
    obtain ⟨pushed, -, rest⟩ := Option.bind_eq_some_iff.mp added
    obtain ⟨view, addedToView, rest⟩ := Option.bind_eq_some_iff.mp rest
    cases rest
    exact .inl (follow_addedAtStart addedToView followed)
  | messageReplaced hint prev replacement =>
    cases taken
    cases followed
    rcases follow_replaced hint prev replacement row with same | ⟨before, behind⟩
    · exact .inl same
    · exact .inr ⟨hint, prev, replacement, rfl, before, behind⟩
  | messagesUpdated channel =>
    cases taken
    exact .inl (follow_updated followed)
  | pause reason hasEnd =>
    cases taken
    exact .inl (stays ((updatePauses_rows _).trans (base_rows (PausableView.updatePauses_pauses _).2.2)) rfl)
  | unpause reason =>
    rw [step] at taken
    split at taken
    · cases taken
      exact .inl (stays ((updatePauses_rows _).trans (base_rows (s.base.unpause_view reason))) rfl)
    · cases taken
      exact .inl (stays rfl rfl)
  | pauseTimer =>
    cases taken
    exact .inl (stays ((updatePauses_rows _).trans (base_rows (PausableView.updatePauses_pauses _).2.2)) rfl)
  | setSelection start «end» =>
    cases taken
    refine .inl (stays ?_ rfl)
    unfold setSelection
    split <;> rfl

end SelectingView

/-! ## Runs -/

namespace Followed

variable {M : Type u} {Highlight : Type u} {getScrollBarHighlight : Item M → Highlight} {ignoresHighlights : Bool}
  {f next : Followed M Highlight}

/-- The selection is, or will be behind the pause, where the selected messages are. -/
structure Kept (f : Followed M Highlight) : Prop where
  settled : f.selecting.Settled
  start : f.selecting.behind.start = f.start.item
  «end» : f.selecting.behind.end = f.end.item

theorem kept_new (base : PausableView M Highlight) : (new base).Kept := ⟨fun _ => rfl, rfl, rfl⟩

/-- What is selected in a message that is at hand. -/
theorem AtHand.item {item : SelectionItem} {row : Option Nat} (atHand : f.AtHand item.messageIndex)
    (shown : f.shown[item.messageIndex]? = some row) :
    item.shift f.selecting.pauseSelectionOffset = Target.item ⟨row, item.charIndex⟩ := by
  rw [AtHand, shown] at atHand
  cases atHand
  unfold SelectionItem.shift
  split <;> rfl

variable [DecidableEq M] {event : SelectionEvent M}

theorem step_some (taken : f.step getScrollBarHighlight ignoresHighlights event = some next) :
    ∃ selecting start «end», f.selecting.step getScrollBarHighlight ignoresHighlights event = some selecting ∧
      f.targets event = some (start, «end») ∧ next = ⟨selecting, f.shownBehind event selecting, start, «end»⟩ := by
  unfold step at taken
  split at taken
  case h_1 selecting start «end» stepped targets =>
    exact ⟨selecting, start, «end», stepped, targets, (Option.some.inj taken).symm⟩
  case h_2 => cases taken

/-- A target whose layout is deleted leaves the first position behind. -/
theorem item_deleted (target : Target) (full : Bool) :
    ({ target with row := target.row.bind fun row =>
      if full then if row = 0 then none else some (row - 1) else some row } : Target).item =
        target.item.shift (if full then 1 else 0) := by
  obtain ⟨row, char⟩ := target
  cases full with
  | false =>
    show Target.item ⟨row.bind some, char⟩ = _
    rw [Option.bind_fun_some]
    rfl
  | true =>
    cases row with
    | none => rfl
    | some row =>
      cases row with
      | zero => rfl
      | succ row => rfl

/-- Where nothing disturbs it and no layout is deleted, a target keeps its row. -/
theorem follow_same (undisturbed : f.Undisturbed event) (notAppended : ∀ message, event ≠ .messageAppended message) :
    f.follow event f.start.row = f.start.row ∧ f.follow event f.end.row = f.end.row := by
  cases event with
  | messageAppended message => exact absurd rfl (notAppended message)
  | messageAddedAtStart messages =>
    rcases undisturbed with nothing | ⟨start, «end»⟩
    · unfold follow SelectionEvent.follow
      dsimp only
      rw [nothing]
      exact ⟨Option.bind_fun_some _, Option.bind_fun_some _⟩
    · rw [start, «end»]
      exact ⟨rfl, rfl⟩
  | messagesUpdated channel => exact undisturbed
  | messageReplaced | pause | unpause | pauseTimer | setSelection =>
    exact ⟨Option.bind_fun_some _, Option.bind_fun_some _⟩

theorem Kept.step (kept : f.Kept) (undisturbed : f.Undisturbed event)
    (taken : f.step getScrollBarHighlight ignoresHighlights event = some next) : next.Kept := by
  obtain ⟨selecting, start, «end», stepped, targets, rfl⟩ := step_some taken
  have settled := SelectingView.step_settled kept.settled stepped
  -- without a new selection and a deleted layout, everything stays where it is
  have stays (notAppended : ∀ message, event ≠ .messageAppended message)
      (notSet : ∀ start «end», event ≠ .setSelection start «end»)
      (followed : f.targets event = some ({ f.start with row := f.follow event f.start.row },
        { f.end with row := f.follow event f.end.row })) :
      Kept ⟨selecting, f.shownBehind event selecting, start, «end»⟩ := by
    have behind := SelectingView.step_behind stepped notAppended notSet
    obtain ⟨sameStart, sameEnd⟩ := follow_same undisturbed notAppended
    rw [sameStart, sameEnd, targets] at followed
    cases followed
    exact ⟨settled, behind ▸ kept.start, behind ▸ kept.end⟩
  cases event with
  | messageAppended message =>
    cases targets
    cases stepped
    have behind : SelectingView.behind (f.selecting.messageAppended getScrollBarHighlight ignoresHighlights message) = _ :=
      SelectingView.messageAppended_behind kept.settled message
    refine ⟨settled, ?_, ?_⟩
    · exact (congrArg Selection.start behind).trans
        ((congrArg (SelectionItem.shift · _) kept.start).trans (item_deleted f.start _).symm)
    · exact (congrArg Selection.end behind).trans
        ((congrArg (SelectionItem.shift · _) kept.end).trans (item_deleted f.end _).symm)
  | setSelection first last =>
    cases stepped
    obtain ⟨isStart, isEnd, -, offset⟩ := f.selecting.setSelection_start (.of first last)
    obtain ⟨ofStart, ofEnd⟩ := Selection.of_start first last
    unfold Followed.targets at targets
    dsimp only at targets
    split at targets
    case h_1 startRow endRow startShown endShown =>
      cases targets
      refine ⟨settled, ?_, ?_⟩
      · show SelectionItem.shift _ _ = _
        rw [isStart, ofStart, offset]
        exact undisturbed.1.item startShown
      · show SelectionItem.shift _ _ = _
        rw [isEnd, ofEnd, offset]
        exact undisturbed.2.item endShown
    case h_2 => cases targets
  | messageAddedAtStart | messageReplaced | messagesUpdated | pause | unpause | pauseTimer =>
    exact stays (fun _ same => by cases same) (fun _ _ same => by cases same) rfl

/-! ## Without messages at the start -/

/-- The rows of what the view shows were only moved by the layouts that were deleted. -/
def InOrder (f : Followed M Highlight) : Prop := ∀ index, index < f.shown.length → f.AtHand index

/-- Nothing comes to the start, and nothing is made anew. -/
def AtTheEnd (_ : Followed M Highlight) : SelectionEvent M → Prop
  | .messageAddedAtStart _ | .messagesUpdated _ => False
  | _ => True

instance (f : Followed M Highlight) : ∀ event, Decidable (f.AtTheEnd event)
  | .messageAddedAtStart _ | .messagesUpdated _ => isFalse id
  | .messageAppended _ | .messageReplaced _ _ _ | .pause _ _ | .unpause _ | .pauseTimer | .setSelection _ _ => isTrue trivial

/-- What is to be moved behind a pause that goes on. -/
theorem step_offset {s next : SelectingView M Highlight}
    (taken : s.step getScrollBarHighlight ignoresHighlights event = some next) (paused : next.paused = true) :
    next.pauseSelectionOffset = s.pauseSelectionOffset +
      match event with
      | .messageAppended _ => if s.base.view.messages.buffer.full then 1 else 0
      | _ => 0 := by
  cases event with
  | messageAppended message =>
    cases taken
    have isPaused : s.base.paused = true := (SelectingView.messageAppended_paused s message).symm.trans paused
    unfold SelectingView.messageAppended
    dsimp only [LimitedQueue.pushBack]
    cases s.base.view.messages.buffer.full with
    | false => rfl
    | true => rw [if_pos rfl, if_pos rfl, if_pos isPaused]
  | messageAddedAtStart messages =>
    obtain ⟨base, -, rfl⟩ := Option.map_eq_some_iff.mp taken
    rfl
  | messageReplaced hint prev replacement =>
    cases taken
    rfl
  | messagesUpdated channel =>
    cases taken
    rfl
  | pause reason hasEnd =>
    cases taken
    exact SelectingView.updatePauses_offset paused
  | unpause reason =>
    rw [SelectingView.step] at taken
    split at taken
    · cases taken
      exact SelectingView.updatePauses_offset paused
    · cases taken
      rfl
  | pauseTimer =>
    cases taken
    exact SelectingView.updatePauses_offset paused
  | setSelection start «end» =>
    cases taken
    exact (s.setSelection_start (.of start «end»)).2.2.2

theorem InOrder.step (inOrder : f.InOrder) (kept : f.selecting.Settled) (atTheEnd : f.AtTheEnd event)
    (taken : f.step getScrollBarHighlight ignoresHighlights event = some next) : next.InOrder := by
  obtain ⟨selecting, start, «end», stepped, -, rfl⟩ := step_some taken
  intro index inside
  have settled := SelectingView.step_settled kept stepped
  unfold AtHand shownBehind at *
  dsimp only at inside ⊢
  cases paused : selecting.paused with
  | false =>
    rw [paused, if_neg Bool.false_ne_true, layouts, List.length_map, List.length_range] at inside
    rw [if_neg Bool.false_ne_true, settled paused, layouts, List.getElem?_map, List.getElem?_range inside]
    rfl
  | true =>
    rw [paused, if_pos rfl, List.length_map] at inside
    have shown := inOrder index inside
    have offset := step_offset stepped paused
    unfold AtHand at shown
    rw [if_pos rfl, List.getElem?_map, shown, Option.map_some, offset]
    congr 1
    unfold follow
    cases event with
    | messageAppended message =>
      unfold SelectionEvent.follow
      cases f.selecting.base.view.messages.buffer.full with
      | false => exact Option.bind_fun_some _
      | true =>
        dsimp only
        rw [if_pos rfl]
        by_cases deleted : index < f.selecting.pauseSelectionOffset
        · rw [if_pos deleted, if_pos (Nat.lt_succ_of_lt deleted)]
          rfl
        · rw [if_neg deleted, Option.bind_some, if_pos rfl]
          grind
    | messageAddedAtStart | messagesUpdated => exact atTheEnd.elim
    | messageReplaced | pause | unpause | pauseTimer | setSelection => exact Option.bind_fun_some _

/-- Where nothing comes to the start and nothing is made anew, nothing disturbs the selection. -/
theorem undisturbed_of_atTheEnd {base : PausableView M Highlight} {events : List (SelectionEvent M)}
    (along : Along (step getScrollBarHighlight ignoresHighlights) AtTheEnd (new base) events)
    (ran : run (step getScrollBarHighlight ignoresHighlights) (new base) events = some f) :
    Along (step getScrollBarHighlight ignoresHighlights) Undisturbed (new base) events := by
  have start : (new base).InOrder := by
    intro index inside
    have below : index < (SelectingView.rows ⟨base, .none, 0⟩).length := by
      rwa [new, layouts, List.length_map, List.length_range] at inside
    rw [AtHand, new, layouts, List.getElem?_map, List.getElem?_range below]
    rfl
  have settled : (new base).selecting.Settled := (kept_new base).settled
  generalize new base = first at along ran start settled ⊢
  induction events generalizing first with
  | nil => trivial
  | cons event events ih =>
    obtain ⟨next, taken, rest⟩ := run_cons ran
    obtain ⟨selecting, _, _, stepped, targets, same⟩ := step_some taken
    refine .start ?_ taken (ih next (along.next taken) rest (start.step settled along.1 taken) ?_)
    · cases event with
      | messageAddedAtStart | messagesUpdated => exact along.1.elim
      | messageAppended | messageReplaced | pause | unpause | pauseTimer => trivial
      | setSelection first_ last =>
        unfold Followed.targets at targets
        dsimp only at targets
        split at targets
        case h_1 startShown endShown =>
          exact ⟨start _ (List.getElem?_eq_some_iff.mp startShown).1, start _ (List.getElem?_eq_some_iff.mp endShown).1⟩
        case h_2 => cases targets
    · rw [same]
      exact SelectingView.step_settled settled stepped

/-! ## The selection -/

/-- In every run the other two items are the smaller and the larger one, and where nothing disturbs
the selection, it designates in a view that is not paused what was selected. -/
theorem selection_follows {base : PausableView M Highlight} {events : List (SelectionEvent M)}
    (ran : run (step getScrollBarHighlight ignoresHighlights) (new base) events = some f) :
    f.selecting.selection.Ordered ∧
      (Along (step getScrollBarHighlight ignoresHighlights) Undisturbed (new base) events →
        f.selecting.paused = false →
          f.selecting.selection.start = f.start.item ∧ f.selecting.selection.end = f.end.item) := by
  constructor
  · have keeps (f : Followed M Highlight) (event : SelectionEvent M) (next : Followed M Highlight)
        (ordered : f.selecting.selection.Ordered)
        (taken : f.step getScrollBarHighlight ignoresHighlights event = some next) : next.selecting.selection.Ordered := by
      obtain ⟨selecting, -, -, stepped, -, rfl⟩ := step_some taken
      exact SelectingView.step_ordered ordered stepped
    exact @run_keeps _ _ _ _ _ (fun f => f.selecting.selection.Ordered) keeps _ ran ⟨rfl, rfl⟩
  · -- behind the last pause, the selection is where the selected messages are
    intro along unpaused
    have kept : f.Kept := run_invariant (fun _ _ _ kept undisturbed taken => kept.step undisturbed taken) along ran
      (kept_new base)
    have start := kept.start
    have «end» := kept.end
    rw [SelectingView.behind, kept.settled unpaused] at start «end»
    exact ⟨start, «end»⟩

/-- A view without messages. -/
def emptyView (messagesLimit : Nat) : PausableView Nat Unit :=
  ⟨⟨⟨.new messagesLimit, 0⟩, .new messagesLimit, false, true⟩, .new messagesLimit, true, [], 0, 0⟩

/-- The message of one end is let go while the view is paused. -/
def heldSelection : List (SelectionEvent Nat) :=
  [.messageAppended (.message 1), .messageAppended (.message 2), .setSelection ⟨1, 4⟩ ⟨0, 3⟩, .pause .mouse false,
    .messageAppended (.message 3), .unpause .mouse]

theorem heldSelection_follows : ∃ final, run (step (fun _ => ()) false) (new (emptyView 2)) heldSelection = some final ∧
    final.selecting.selection.start = ⟨0, 4⟩ ∧ final.selecting.selection.end = ⟨0, 0⟩ := by
  have result : (run (step (fun _ => ()) false) (new (emptyView 2)) heldSelection).map
      (fun f => (f.selecting.paused, f.start, f.end)) = some (false, ⟨some 0, 4⟩, ⟨none, 3⟩) := rfl
  obtain ⟨final, ran, same⟩ := Option.map_eq_some_iff.mp result
  obtain ⟨paused, start, «end»⟩ : final.selecting.paused = false ∧ final.start = ⟨some 0, 4⟩ ∧ final.end = ⟨none, 3⟩ := by
    simpa using same
  have along := undisturbed_of_atTheEnd (by decide) ran
  obtain ⟨isStart, isEnd⟩ := (selection_follows ran).2 along paused
  exact ⟨final, ran, by rw [isStart, start]; rfl, by rw [isEnd, «end»]; rfl⟩

/-- A message that comes to the start takes the place of the selected one. -/
theorem added_at_start_selected : ¬ ∀ (base : PausableView Nat Unit) (events : List (SelectionEvent Nat))
    (final : Followed Nat Unit), run (step (fun _ => ()) false) (new base) events = some final →
      final.selecting.paused = false → final.selecting.selection.end = final.end.item := by
  intro follows
  let events : List (SelectionEvent Nat) :=
    [.messageAppended (.message 1), .setSelection ⟨0, 0⟩ ⟨0, 3⟩, .messageAddedAtStart [.message 2]]
  have result : (run (step (fun _ => ()) false) (new (emptyView 2)) events).map
      (fun f => (f.selecting.paused, f.selecting.selection.end, f.end)) = some (false, ⟨0, 3⟩, ⟨some 1, 3⟩) := rfl
  obtain ⟨final, ran, same⟩ := Option.map_eq_some_iff.mp result
  obtain ⟨paused, selected, «end»⟩ : final.selecting.paused = false ∧ final.selecting.selection.end = ⟨0, 3⟩ ∧
      final.end = ⟨some 1, 3⟩ := by
    simpa using same
  have isEnd := follows (emptyView 2) events final ran paused
  rw [selected, «end»] at isEnd
  cases isEnd

end Followed

end Forserino.Messages
