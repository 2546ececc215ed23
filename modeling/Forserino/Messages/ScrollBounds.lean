import Forserino.Messages.ViewMirror

/-! The bounds and the highlights of the scrollbar beside a channel view that shows highlights
(widgets/helper/ChannelView.cpp, widgets/Scrollbar.cpp).

While the view is paused, the bounds stay, and what they are to be moved by is counted. Where a
handler scrolls, the bounds can be reset; it makes no difference whether this is in its middle or
behind it, so it is an event of its own.
-/

set_option autoImplicit false

namespace Forserino.Messages

open Forserino.Foundation Forserino.Qt

universe u

inductive PauseReason where
  | mouse | selection | doubleClick | keyboardModifier
  deriving DecidableEq, Repr

/-- The bounds are whole numbers of messages. -/
structure Scrollbar (Highlight : Type u) where
  messagesLimit : Nat
  highlights : CircularBuffer Highlight messagesLimit
  maximum : Int
  minimum : Int

namespace Scrollbar

variable {Highlight : Type u}

def new (messagesLimit : Nat) : Scrollbar Highlight := ⟨messagesLimit, .empty messagesLimit, 0, 0⟩

def addHighlight (bar : Scrollbar Highlight) (highlight : Highlight) : Scrollbar Highlight :=
  { bar with highlights := bar.highlights.push_back highlight }

/-- As many as there is room for, the last one first. -/
def addHighlightsAtStart (bar : Scrollbar Highlight) (highlights : List Highlight) : Scrollbar Highlight :=
  let nItems := min highlights.length (bar.messagesLimit - bar.highlights.items.length)
  { bar with highlights := (highlights.reverse.take nItems).foldl CircularBuffer.push_front bar.highlights }

def replaceHighlight (bar : Scrollbar Highlight) (index : Nat) (replacement : Highlight) : Scrollbar Highlight :=
  if bar.highlights.items.length ≤ index then bar
  else { bar with highlights := bar.highlights.set index replacement }

def clearHighlights (bar : Scrollbar Highlight) : Scrollbar Highlight :=
  { bar with highlights := bar.highlights.clear }

def setMaximum (bar : Scrollbar Highlight) (value : Int) : Scrollbar Highlight := { bar with maximum := value }

def offsetMaximum (bar : Scrollbar Highlight) (value : Int) : Scrollbar Highlight :=
  { bar with maximum := bar.maximum + value }

def setMinimum (bar : Scrollbar Highlight) (value : Int) : Scrollbar Highlight := { bar with minimum := value }

def offsetMinimum (bar : Scrollbar Highlight) (value : Int) : Scrollbar Highlight :=
  { bar with minimum := bar.minimum + value }

def resetBounds (bar : Scrollbar Highlight) : Scrollbar Highlight :=
  if 0 < bar.minimum then { bar with maximum := bar.maximum - bar.minimum, minimum := 0 } else bar

end Scrollbar

/-- A channel view with its scrollbar and pauses. Of a pause it is kept whether it has an end. -/
structure PausableView (M : Type u) (Highlight : Type u) where
  view : ChannelView M
  scrollBar : Scrollbar Highlight
  pausable : Bool
  pauses : List (PauseReason × Bool)
  pauseScrollMinimumOffset : Int
  pauseScrollMaximumOffset : Int

namespace PausableView

variable {M : Type u} {Highlight : Type u}

def paused (s : PausableView M Highlight) : Bool := s.pausable && !s.pauses.isEmpty

def updatePauses (s : PausableView M Highlight) : PausableView M Highlight :=
  if s.pauses.isEmpty then
    { s with
      scrollBar := (s.scrollBar.offsetMaximum s.pauseScrollMaximumOffset).offsetMinimum s.pauseScrollMinimumOffset
      pauseScrollMinimumOffset := 0
      pauseScrollMaximumOffset := 0 }
  else s

/-- A pause with an end does not replace one without. -/
def pause (s : PausableView M Highlight) (reason : PauseReason) (hasEnd : Bool) : PausableView M Highlight :=
  let pauses :=
    if hasEnd && s.pauses.any (fun other => other.1 == reason) then s.pauses
    else (reason, hasEnd) :: s.pauses.filter fun other => other.1 != reason
  ({ s with pauses } : PausableView M Highlight).updatePauses

def unpause (s : PausableView M Highlight) (reason : PauseReason) : PausableView M Highlight :=
  if s.pauses.any fun other => other.1 == reason then
    ({ s with pauses := s.pauses.filter fun other => other.1 != reason } : PausableView M Highlight).updatePauses
  else s

/-- The timer of the pauses removes those with an end. -/
def pauseTimer (s : PausableView M Highlight) : PausableView M Highlight :=
  ({ s with pauses := s.pauses.filter fun other => !other.2 } : PausableView M Highlight).updatePauses

variable (getScrollBarHighlight : Item M → Highlight) (ignoresHighlights : Bool)

/-- The maximum is moved, or is to be moved behind the pause. -/
def moveMaximum (s : PausableView M Highlight) : PausableView M Highlight :=
  if s.paused then { s with pauseScrollMaximumOffset := s.pauseScrollMaximumOffset + 1 }
  else { s with scrollBar := s.scrollBar.offsetMaximum 1 }

def moveMinimum (s : PausableView M Highlight) : PausableView M Highlight :=
  if s.paused then { s with pauseScrollMinimumOffset := s.pauseScrollMinimumOffset + 1 }
  else { s with scrollBar := s.scrollBar.offsetMinimum 1 }

def messageAppended (s : PausableView M Highlight) (message : Item M) : PausableView M Highlight :=
  let s := s.moveMaximum
  -- pushBack tells whether the first layout was deleted
  let deleted := (s.view.messages.pushBack ⟨message, s.view.lastMessageHasAlternateBackground, ignoresHighlights⟩).2
  let s := if deleted then s.moveMinimum else s
  { s with
    view := s.view.messageAppended ignoresHighlights message
    scrollBar := s.scrollBar.addHighlight (getScrollBarHighlight message) }

def messageAddedAtStart (s : PausableView M Highlight) (messages : List (Item M)) : Option (PausableView M Highlight) := do
  let (_, addedMessages) ← s.view.messages.pushFront
    (ChannelView.startLayouts s.view.lastMessageHasAlternateBackgroundReverse messages)
  let view ← s.view.messageAddedAtStart messages
  let scrollBar := if addedMessages.isEmpty then s.scrollBar else s.scrollBar.offsetMaximum addedMessages.length
  return { s with view, scrollBar := scrollBar.addHighlightsAtStart (messages.map getScrollBarHighlight) }

def messageReplaced [DecidableEq M] (s : PausableView M Highlight) (hint : Nat) (prev replacement : Item M) :
    PausableView M Highlight :=
  match s.view.messages.findHint hint fun layout => layout.message == prev with
  | none => s
  | some (index, _) =>
      { s with
        view := s.view.messageReplaced hint prev replacement
        scrollBar := s.scrollBar.replaceHighlight index (getScrollBarHighlight replacement) }

/-- The layouts and the highlights are made anew from the proxy channel. -/
def messagesUpdated (s : PausableView M Highlight) : PausableView M Highlight :=
  let snapshot := s.view.channel.getMessageSnapshot
  let cleared := s.scrollBar.clearHighlights.resetBounds
  { s with
    view := s.view.messagesUpdated ignoresHighlights
    scrollBar := snapshot.foldl (fun bar message => bar.addHighlight (getScrollBarHighlight message))
      ((cleared.setMaximum snapshot.length).setMinimum 0) }

def clearMessages (s : PausableView M Highlight) : PausableView M Highlight :=
  { s with
    view := s.view.clearMessages
    scrollBar := (s.scrollBar.clearHighlights.resetBounds.setMaximum 0).setMinimum 0 }

/-- The view of a channel that is set for the first time. -/
def setChannel (filters : Filters M) (scrollbackSplitLimit messagesLimit : Nat) (currentDate : Int) (snapshot : List M) :
    Option (PausableView M Highlight) :=
  (ChannelView.setChannel ignoresHighlights filters scrollbackSplitLimit messagesLimit currentDate snapshot).map fun view =>
    let included := snapshot.filter filters.shouldIncludeMessage
    let scrollBar := included.foldl (fun bar m => bar.addHighlight (getScrollBarHighlight (.message m)))
      (Scrollbar.new messagesLimit)
    ⟨view, scrollBar.setMaximum (min included.length messagesLimit : Nat), false, [], 0, 0⟩

end PausableView

/-- What the proxy channel signals, the pauses, and that the bounds are reset. -/
inductive ViewEvent (M : Type u) where
  | messageAppended (message : Item M)
  | messageAddedAtStart (messages : List (Item M))
  | messageReplaced (hint : Nat) (prev replacement : Item M)
  | messagesUpdated (channel : Channel (Item M))
  | clearMessages
  | pause (reason : PauseReason) (hasEnd : Bool)
  | unpause (reason : PauseReason)
  | pauseTimer
  | setPausable (value : Bool)
  | resetBounds

namespace PausableView

variable {M : Type u} {Highlight : Type u} [DecidableEq M] (getScrollBarHighlight : Item M → Highlight)
  (ignoresHighlights : Bool)

def step (s : PausableView M Highlight) : ViewEvent M → Option (PausableView M Highlight)
  | .messageAppended message => some (s.messageAppended getScrollBarHighlight ignoresHighlights message)
  | .messageAddedAtStart messages => s.messageAddedAtStart getScrollBarHighlight messages
  | .messageReplaced hint prev replacement => some (s.messageReplaced getScrollBarHighlight hint prev replacement)
  | .messagesUpdated channel =>
      some (({ s with view := { s.view with channel } } : PausableView M Highlight).messagesUpdated getScrollBarHighlight
        ignoresHighlights)
  | .clearMessages => some s.clearMessages
  | .pause reason hasEnd => some (s.pause reason hasEnd)
  | .unpause reason => some (s.unpause reason)
  | .pauseTimer => some s.pauseTimer
  | .setPausable value => some { s with pausable := value }
  | .resetBounds => some { s with scrollBar := s.scrollBar.resetBounds }

/-- How far the bounds are apart, with what they are to be moved by. -/
def distance (s : PausableView M Highlight) : Int :=
  s.scrollBar.maximum - s.scrollBar.minimum + (s.pauseScrollMaximumOffset - s.pauseScrollMinimumOffset)

/-- The bounds are as far apart as there are layouts, and every layout has its highlight. -/
structure Kept (s : PausableView M Highlight) : Prop where
  bounds : s.distance = s.view.messages.getSnapshot.length
  highlights : s.scrollBar.highlights.items =
    s.view.messages.getSnapshot.map fun layout => getScrollBarHighlight layout.message

/-- Where everything is made anew, nothing may be left to be moved, and the layouts have to have
room for all messages of the proxy channel. -/
def Anew (s : PausableView M Highlight) : ViewEvent M → Prop
  | .messagesUpdated channel =>
      s.pauseScrollMaximumOffset = s.pauseScrollMinimumOffset ∧
        channel.getMessageSnapshot.length ≤ s.view.messages.limit
  | .clearMessages => s.pauseScrollMaximumOffset = s.pauseScrollMinimumOffset
  | _ => True

instance : ∀ (s : PausableView M Highlight) (event : ViewEvent M), Decidable (s.Anew event)
  | _, .messagesUpdated _ => inferInstanceAs (Decidable (_ ∧ _))
  | s, .clearMessages => inferInstanceAs (Decidable (s.pauseScrollMaximumOffset = s.pauseScrollMinimumOffset))
  | _, .messageAppended _ | _, .messageAddedAtStart _ | _, .messageReplaced _ _ _ | _, .pause _ _ | _, .unpause _
  | _, .pauseTimer | _, .setPausable _ | _, .resetBounds => isTrue trivial

end PausableView

/-! ## Highlights -/

section
variable {T H : Type u} {capacity limit : Nat} {highlights : CircularBuffer H capacity} {layouts : CircularBuffer T limit}
  {f : T → H}

/-- Two buffers of one size stay alike when one item is added to each. -/
theorem push_back_map (sameSize : capacity = limit) (alike : highlights.items = layouts.items.map f) (item : T) :
    (highlights.push_back (f item)).items = (layouts.push_back item).items.map f := by
  have full : highlights.full = layouts.full := by
    rw [CircularBuffer.full, CircularBuffer.full, alike, List.length_map, sameSize]
  unfold CircularBuffer.push_back
  dsimp only
  rw [full, alike]
  split
  · rw [List.map_tail, List.map_append]
    rfl
  · rw [List.map_append]
    rfl

theorem push_back_length (buffer : CircularBuffer T limit) (item : T) :
    ((buffer.push_back item).items.length : Int) = buffer.items.length + 1 - if buffer.full then 1 else 0 := by
  unfold CircularBuffer.push_back
  split
  · simp
  · simp

/-- Items come to the front of a buffer that has room for them. -/
theorem push_front_foldl (items : List H) {buffer : CircularBuffer H limit}
    (room : buffer.items.length + items.length ≤ limit) :
    (items.foldl CircularBuffer.push_front buffer).items = items.reverse ++ buffer.items := by
  induction items generalizing buffer with
  | nil => rfl
  | cons item items ih =>
    rw [List.length_cons] at room
    -- a full buffer would not take the item
    have notFull : ¬ buffer.full = true := by
      rw [CircularBuffer.full_iff]
      omega
    have pushed : (buffer.push_front item).items = item :: buffer.items := if_neg notFull
    have roomBehind : (buffer.push_front item).items.length + items.length ≤ limit := by
      rw [pushed, List.length_cons]
      omega
    rw [List.foldl_cons, ih roomBehind, pushed, List.reverse_cons, List.append_assoc]
    rfl

end

section
variable {H : Type u}

theorem addHighlightsAtStart_items (bar : Scrollbar H) (highlights : List H) :
    (bar.addHighlightsAtStart highlights).highlights.items =
      highlights.drop (highlights.length - min highlights.length (bar.messagesLimit - bar.highlights.items.length)) ++
        bar.highlights.items := by
  have size := bar.highlights.size_le
  unfold Scrollbar.addHighlightsAtStart
  dsimp only
  rw [push_front_foldl, List.reverse_take, List.reverse_reverse, List.length_reverse]
  rw [List.length_take, List.length_reverse]
  omega

theorem resetBounds_distance (bar : Scrollbar H) :
    bar.resetBounds.maximum - bar.resetBounds.minimum = bar.maximum - bar.minimum := by
  unfold Scrollbar.resetBounds
  split
  · exact Int.sub_zero _
  · rfl

theorem resetBounds_highlights (bar : Scrollbar H) :
    bar.resetBounds.highlights.items = bar.highlights.items ∧ bar.resetBounds.messagesLimit = bar.messagesLimit := by
  by_cases moved : 0 < bar.minimum
  · have reset : bar.resetBounds = { bar with maximum := bar.maximum - bar.minimum, minimum := 0 } := if_pos moved
    rw [reset]
    exact ⟨rfl, rfl⟩
  · have reset : bar.resetBounds = bar := if_neg moved
    rw [reset]
    exact ⟨rfl, rfl⟩

end

/-! ## Steps -/

theorem getElem_of_findHint {T : Type u} {queue : LimitedQueue T} {hint index : Nat} {pred : T → Bool} {item : T}
    (found : queue.findHint hint pred = some (index, item)) : queue.getSnapshot[index]? = some item := by
  unfold LimitedQueue.findHint at found
  split at found
  · next hinted =>
    obtain ⟨rfl, rfl⟩ := Prod.mk.inj (Option.some.inj found)
    exact (Option.filter_eq_some_iff.mp hinted).1
  · obtain ⟨i, -, mapped⟩ := Option.bind_eq_some_iff.mp found
    obtain ⟨there, isThere, same⟩ := Option.map_eq_some_iff.mp mapped
    obtain ⟨rfl, rfl⟩ := Prod.mk.inj same
    exact isThere

namespace PausableView

variable {M : Type u} {Highlight : Type u} (getScrollBarHighlight : Item M → Highlight)

/-- Besides, both buffers have one limit, and no more is to be moved at the bottom than at the top. -/
structure Bookkept (s : PausableView M Highlight) : Prop extends Kept getScrollBarHighlight s where
  limit : s.scrollBar.messagesLimit = s.view.messages.limit
  pending : s.pauseScrollMinimumOffset ≤ s.pauseScrollMaximumOffset

variable {getScrollBarHighlight} {ignoresHighlights : Bool} {s : PausableView M Highlight}

/-- The layouts are not touched, and the bounds only together with what is pending. -/
theorem Bookkept.moved {next : PausableView M Highlight} (kept : s.Bookkept getScrollBarHighlight)
    (view : next.view = s.view) (highlights : next.scrollBar.highlights.items = s.scrollBar.highlights.items)
    (limit : next.scrollBar.messagesLimit = s.scrollBar.messagesLimit)
    (pending : next.pauseScrollMinimumOffset ≤ next.pauseScrollMaximumOffset) (distance : next.distance = s.distance) :
    next.Bookkept getScrollBarHighlight where
  bounds := by rw [distance, view, kept.bounds]
  highlights := by rw [highlights, view, kept.highlights]
  limit := by rw [limit, view, kept.limit]
  pending := pending

theorem updatePauses_bookkept (kept : s.Bookkept getScrollBarHighlight) : s.updatePauses.Bookkept getScrollBarHighlight := by
  unfold updatePauses
  split
  · refine kept.moved rfl rfl rfl (Int.le_refl (0 : Int)) ?_
    show s.scrollBar.maximum + s.pauseScrollMaximumOffset - (s.scrollBar.minimum + s.pauseScrollMinimumOffset) + (0 - 0) = _
    unfold distance
    omega
  · exact kept

/-- Which pauses there are does not matter here. -/
theorem Bookkept.pauses (kept : s.Bookkept getScrollBarHighlight) (pauses : List (PauseReason × Bool)) :
    ({ s with pauses } : PausableView M Highlight).Bookkept getScrollBarHighlight :=
  kept.moved rfl rfl rfl kept.pending rfl

theorem pause_bookkept (kept : s.Bookkept getScrollBarHighlight) (reason : PauseReason) (hasEnd : Bool) :
    (s.pause reason hasEnd).Bookkept getScrollBarHighlight :=
  updatePauses_bookkept (kept.pauses _)

theorem unpause_bookkept (kept : s.Bookkept getScrollBarHighlight) (reason : PauseReason) :
    (s.unpause reason).Bookkept getScrollBarHighlight := by
  unfold unpause
  split
  · exact updatePauses_bookkept (kept.pauses _)
  · exact kept

theorem resetBounds_bookkept (kept : s.Bookkept getScrollBarHighlight) :
    ({ s with scrollBar := s.scrollBar.resetBounds } : PausableView M Highlight).Bookkept getScrollBarHighlight := by
  obtain ⟨highlights, limit⟩ := resetBounds_highlights s.scrollBar
  refine kept.moved rfl highlights limit kept.pending ?_
  show s.scrollBar.resetBounds.maximum - s.scrollBar.resetBounds.minimum + _ = _
  rw [resetBounds_distance, distance]

/-- The distance has changed, and what is pending, and neither the layouts nor the highlights. -/
structure Moved (s next : PausableView M Highlight) (change pending : Int) : Prop where
  view : next.view = s.view
  paused : next.paused = s.paused
  highlights : next.scrollBar.highlights.items = s.scrollBar.highlights.items
  limit : next.scrollBar.messagesLimit = s.scrollBar.messagesLimit
  distance : next.distance = s.distance + change
  pending : next.pauseScrollMaximumOffset - next.pauseScrollMinimumOffset =
    s.pauseScrollMaximumOffset - s.pauseScrollMinimumOffset + pending

theorem pending_moved (s : PausableView M Highlight) (maximum minimum : Int) :
    s.Moved { s with
      pauseScrollMaximumOffset := s.pauseScrollMaximumOffset + maximum
      pauseScrollMinimumOffset := s.pauseScrollMinimumOffset + minimum } (maximum - minimum) (maximum - minimum) := by
  constructor
  case distance =>
    simp only [distance]
    omega
  case pending =>
    show s.pauseScrollMaximumOffset + maximum - (s.pauseScrollMinimumOffset + minimum) = _
    omega
  all_goals rfl

theorem bounds_moved (s : PausableView M Highlight) (maximum minimum : Int) :
    s.Moved { s with scrollBar := (s.scrollBar.offsetMaximum maximum).offsetMinimum minimum } (maximum - minimum) 0 := by
  constructor
  case distance =>
    simp only [distance, Scrollbar.offsetMaximum, Scrollbar.offsetMinimum]
    omega
  case pending => exact (Int.add_zero _).symm
  all_goals rfl

theorem moveMaximum_moved (s : PausableView M Highlight) : s.Moved s.moveMaximum 1 (if s.paused then 1 else 0) := by
  unfold moveMaximum
  cases s.paused with
  | true =>
    have moved := s.pending_moved 1 0
    rw [Int.add_zero] at moved
    exact moved
  | false =>
    have moved := s.bounds_moved 1 0
    rw [Scrollbar.offsetMinimum, Int.add_zero] at moved
    exact moved

theorem moveMinimum_moved (s : PausableView M Highlight) : s.Moved s.moveMinimum (-1) (if s.paused then -1 else 0) := by
  unfold moveMinimum
  cases s.paused with
  | true =>
    have moved := s.pending_moved 0 1
    rw [Int.add_zero] at moved
    exact moved
  | false =>
    have moved := s.bounds_moved 0 1
    rw [Scrollbar.offsetMaximum, Int.add_zero] at moved
    exact moved

theorem Moved.trans {middle next : PausableView M Highlight} {change changeToo pending pendingToo : Int}
    (first : s.Moved middle change pending) (second : middle.Moved next changeToo pendingToo) :
    s.Moved next (change + changeToo) (pending + pendingToo) where
  view := second.view.trans first.view
  paused := second.paused.trans first.paused
  highlights := second.highlights.trans first.highlights
  limit := second.limit.trans first.limit
  distance := by rw [second.distance, first.distance, Int.add_assoc]
  pending := by rw [second.pending, first.pending, Int.add_assoc]

/-- The message is laid out behind the moves. -/
theorem messageAppended_of_moved {moved : PausableView M Highlight} {change pending : Int}
    (kept : s.Bookkept getScrollBarHighlight) (message : Item M) (moves : s.Moved moved change pending)
    (exact : change = 1 - if s.view.messages.buffer.full then 1 else 0) (grows : 0 ≤ pending) :
    ({ moved with
        view := s.view.messageAppended ignoresHighlights message
        scrollBar := moved.scrollBar.addHighlight (getScrollBarHighlight message) } :
      PausableView M Highlight).Bookkept getScrollBarHighlight := by
  let layout : MessageLayout M := ⟨message, s.view.lastMessageHasAlternateBackground, ignoresHighlights⟩
  have length := push_back_length s.view.messages.buffer layout
  have distance := moves.distance
  have bounds : s.distance = s.view.messages.buffer.items.length := kept.bounds
  refine ⟨⟨?bounds, ?highlights⟩, ?limit, ?pending⟩
  case bounds =>
    show moved.distance = ((s.view.messages.buffer.push_back layout).items.length : Int)
    omega
  case highlights =>
    have alike : moved.scrollBar.highlights.items = s.view.messages.buffer.items.map fun layout =>
        getScrollBarHighlight layout.message := moves.highlights.trans kept.highlights
    exact push_back_map (f := fun layout : MessageLayout M => getScrollBarHighlight layout.message)
      (moves.limit.trans kept.limit) alike layout
  case limit =>
    show moved.scrollBar.messagesLimit = _
    rw [moves.limit, kept.limit]
    rfl
  case pending =>
    have behind := moves.pending
    have before := kept.pending
    show moved.pauseScrollMinimumOffset ≤ moved.pauseScrollMaximumOffset
    omega

theorem messageAppended_bookkept (kept : s.Bookkept getScrollBarHighlight) (message : Item M) :
    (s.messageAppended getScrollBarHighlight ignoresHighlights message).Bookkept getScrollBarHighlight := by
  have maximum := moveMaximum_moved s
  have minimum := moveMinimum_moved s.moveMaximum
  -- moving the maximum does not touch the layouts, so pushBack deletes one where the buffer was full
  have deleted : (s.moveMaximum.view.messages.pushBack
      ⟨message, s.moveMaximum.view.lastMessageHasAlternateBackground, ignoresHighlights⟩).2 =
        s.view.messages.buffer.full := by
    rw [maximum.view]
    rfl
  unfold messageAppended
  dsimp only
  rw [deleted]
  cases full : s.view.messages.buffer.full with
  | true =>
    rw [if_pos rfl, minimum.view, maximum.view]
    refine messageAppended_of_moved kept message (maximum.trans minimum) ?_ ?_
    · rw [full]
      rfl
    · rw [maximum.paused]
      split <;> omega
  | false =>
    rw [if_neg Bool.false_ne_true, maximum.view]
    refine messageAppended_of_moved kept message maximum ?_ ?_
    · rw [full]
      rfl
    · split <;> omega

theorem startLayouts_highlights (alternate : Bool) (messages : List (Item M)) :
    (ChannelView.startLayouts alternate messages).map (fun layout => getScrollBarHighlight layout.message) =
      messages.map getScrollBarHighlight := by
  conv_rhs => rw [← startLayouts_messages alternate messages, List.map_map]
  rfl

/-- As many messages come to the start as there is room for, among the layouts as among the highlights. -/
theorem messageAddedAtStart_bookkept (kept : s.Bookkept getScrollBarHighlight) (messages : List (Item M)) :
    ∃ next, s.messageAddedAtStart getScrollBarHighlight messages = some next ∧ next.Bookkept getScrollBarHighlight := by
  let layouts := ChannelView.startLayouts s.view.lastMessageHasAlternateBackgroundReverse messages
  have length : layouts.length = messages.length := by
    have same := congrArg List.length (startLayouts_messages s.view.lastMessageHasAlternateBackgroundReverse messages)
    rwa [List.length_map] at same
  have size := s.view.messages.buffer.size_le
  have space : s.view.messages.space = s.view.messages.limit - s.view.messages.buffer.items.length := rfl
  have bounds : s.distance = s.view.messages.buffer.items.length := kept.bounds
  have shown : s.scrollBar.highlights.items = s.view.messages.buffer.items.map fun layout =>
    getScrollBarHighlight layout.message := kept.highlights
  obtain ⟨buffer, pushed, items⟩ := s.view.messages.pushFront_pushed layouts
  have looped : s.view.messageAddedAtStart messages = some _ := congrArg (Option.map _) pushed
  unfold messageAddedAtStart
  dsimp only
  rw [pushed]
  simp only [bind, Option.bind]
  rw [looped]
  -- where nothing was added, the maximum is moved by nothing
  have moved : ∀ added : List (MessageLayout M),
      (if added.isEmpty then s.scrollBar else s.scrollBar.offsetMaximum added.length) =
        s.scrollBar.offsetMaximum added.length := by
    intro added
    cases added with
    | nil =>
      show s.scrollBar = { s.scrollBar with maximum := s.scrollBar.maximum + 0 }
      rw [Int.add_zero]
    | cons => rfl
  rw [moved]
  refine ⟨_, rfl, ⟨?bounds, ?highlights⟩, kept.limit, kept.pending⟩
  case bounds =>
    have longer := congrArg List.length items
    rw [List.length_append, List.length_drop] at longer
    show s.scrollBar.maximum + ((layouts.drop (layouts.length - min layouts.length s.view.messages.space)).length : Int) -
      s.scrollBar.minimum + (s.pauseScrollMaximumOffset - s.pauseScrollMinimumOffset) = (buffer.items.length : Int)
    unfold distance at bounds
    rw [List.length_drop, longer]
    show _ = ((_ + s.view.messages.buffer.items.length : Nat) : Int)
    omega
  case highlights =>
    have added := addHighlightsAtStart_items (s.scrollBar.offsetMaximum
      (layouts.drop (layouts.length - min layouts.length s.view.messages.space)).length) (messages.map getScrollBarHighlight)
    refine added.trans ?_
    show _ = buffer.items.map _
    have shownLength := congrArg List.length shown
    have limit := kept.limit
    rw [List.length_map] at shownLength
    -- there are as many highlights as layouts, so as many fit before them
    have room : s.scrollBar.messagesLimit - s.scrollBar.highlights.items.length =
        s.view.messages.limit - s.view.messages.buffer.items.length := by omega
    rw [items, List.map_append, List.map_drop, startLayouts_highlights, List.length_map, length, space, ← room]
    exact congrArg (_ ++ ·) shown

/-- What is found is replaced in both, and the highlight is there whenever the layout is. -/
theorem messageReplaced_bookkept [DecidableEq M] (kept : s.Bookkept getScrollBarHighlight) (hint : Nat)
    (prev replacement : Item M) :
    (s.messageReplaced getScrollBarHighlight hint prev replacement).Bookkept getScrollBarHighlight := by
  unfold messageReplaced
  cases found : s.view.messages.findHint hint fun layout => layout.message == prev with
  | none => exact kept
  | some place =>
    obtain ⟨index, oldItem⟩ := place
    have there : s.view.messages.buffer.items[index]? = some oldItem := getElem_of_findHint found
    have inside := (List.getElem?_eq_some_iff.mp there).1
    have shown : s.scrollBar.highlights.items = s.view.messages.buffer.items.map fun layout =>
      getScrollBarHighlight layout.message := kept.highlights
    have highlighted : s.scrollBar.replaceHighlight index (getScrollBarHighlight replacement) =
        { s.scrollBar with highlights := s.scrollBar.highlights.set index (getScrollBarHighlight replacement) } := by
      apply if_neg
      rw [shown, List.length_map]
      omega
    have laidOut : s.view.messageReplaced hint prev replacement = { s.view with messages := { s.view.messages with
        buffer := s.view.messages.buffer.set index ⟨replacement, oldItem.alternateBackground, false⟩ } } := by
      unfold ChannelView.messageReplaced LimitedQueue.replaceItemAt
      rw [found]
      dsimp only
      rw [there]
    dsimp only
    rw [highlighted, laidOut]
    refine ⟨⟨?bounds, ?highlights⟩, kept.limit, kept.pending⟩
    case bounds =>
      show s.distance = ((s.view.messages.buffer.items.set _ _).length : Int)
      rw [List.length_set]
      exact kept.bounds
    case highlights =>
      show s.scrollBar.highlights.items.set _ _ = (s.view.messages.buffer.items.set _ _).map _
      rw [List.map_set, shown]

/-! ## Making everything anew -/

/-- What is shown of so many messages that were added one after the other. -/
structure Rebuilt (getScrollBarHighlight : Item M → Highlight) (bar : Scrollbar Highlight) (view : ChannelView M)
    (count : Nat) : Prop where
  limit : bar.messagesLimit = view.messages.limit
  highlights : bar.highlights.items =
    view.messages.getSnapshot.map fun layout => getScrollBarHighlight layout.message
  length : view.messages.getSnapshot.length = min count view.messages.limit

theorem Rebuilt.append {bar : Scrollbar Highlight} {view : ChannelView M} {count : Nat}
    (rebuilt : Rebuilt getScrollBarHighlight bar view count) (message : Item M) :
    Rebuilt getScrollBarHighlight (bar.addHighlight (getScrollBarHighlight message))
      (view.messageAppended ignoresHighlights message) (count + 1) where
  limit := rebuilt.limit
  highlights := push_back_map (f := fun layout : MessageLayout M => getScrollBarHighlight layout.message) rebuilt.limit
    rebuilt.highlights ⟨message, view.lastMessageHasAlternateBackground, ignoresHighlights⟩
  length := by
    have length := push_back_length view.messages.buffer
      ⟨message, view.lastMessageHasAlternateBackground, ignoresHighlights⟩
    have before : view.messages.buffer.items.length = min count view.messages.limit := rebuilt.length
    show (view.messages.buffer.push_back _).items.length = min (count + 1) view.messages.limit
    split at length
    · next full =>
      have size := CircularBuffer.full_iff.mp full
      omega
    · next notFull =>
      have size := CircularBuffer.size_lt_of_not_full notFull
      omega

theorem Rebuilt.fold {bar : Scrollbar Highlight} {view : ChannelView M} {count : Nat} (ignoresHighlights : Bool)
    (messages : List (Item M))
    (rebuilt : Rebuilt getScrollBarHighlight bar view count) :
    Rebuilt getScrollBarHighlight
      (messages.foldl (fun bar message => bar.addHighlight (getScrollBarHighlight message)) bar)
      (messages.foldl (ChannelView.messageAppended ignoresHighlights) view) (count + messages.length) := by
  induction messages generalizing bar view count with
  | nil => exact rebuilt
  | cons message messages ih =>
    have counted : count + (message :: messages).length = count + 1 + messages.length := by
      rw [List.length_cons]
      omega
    rw [counted]
    exact ih (rebuilt.append message)

/-- The highlights are those of the included messages of the channel, like the layouts. -/
theorem Rebuilt.copied {bar : Scrollbar Highlight} {view after : ChannelView M} {count : Nat} {filters : Filters M}
    (messages : List M) (rebuilt : Rebuilt getScrollBarHighlight bar view count)
    (copied : messages.foldlM (ChannelView.copyMessage ignoresHighlights filters) view = some after) :
    Rebuilt getScrollBarHighlight
      ((messages.filter filters.shouldIncludeMessage).foldl
        (fun bar m => bar.addHighlight (getScrollBarHighlight (.message m))) bar)
      after (count + (messages.filter filters.shouldIncludeMessage).length) := by
  induction messages generalizing bar view count with
  | nil => exact Option.some.inj copied ▸ rebuilt
  | cons m messages ih =>
    rw [List.foldlM_cons] at copied
    obtain ⟨next, taken, rest⟩ := Option.bind_eq_some_iff.mp copied
    unfold ChannelView.copyMessage at taken
    split at taken
    · next included =>
      obtain ⟨channel, -, rfl⟩ := Option.map_eq_some_iff.mp taken
      have counted : count + ((m :: messages).filter filters.shouldIncludeMessage).length =
          count + 1 + (messages.filter filters.shouldIncludeMessage).length := by
        rw [List.filter_cons_of_pos included, List.length_cons]
        omega
      rw [counted, List.filter_cons_of_pos included]
      -- the proxy channel got the message as well, which is of no matter for what is shown
      have laidOut : Rebuilt getScrollBarHighlight bar ({ view with channel } : ChannelView M) count :=
        ⟨rebuilt.limit, rebuilt.highlights, rebuilt.length⟩
      exact ih (laidOut.append (.message m)) rest
    · next excluded =>
      obtain rfl := Option.some.inj taken
      rw [List.filter_cons_of_neg excluded]
      exact ih rebuilt rest

theorem addHighlight_bounds {T : Type u} (highlight : T → Highlight) (items : List T) (bar : Scrollbar Highlight) :
    let after := items.foldl (fun bar item => bar.addHighlight (highlight item)) bar
    after.maximum = bar.maximum ∧ after.minimum = bar.minimum ∧ after.messagesLimit = bar.messagesLimit := by
  induction items generalizing bar with
  | nil => exact ⟨rfl, rfl, rfl⟩
  | cons item items ih => exact ih (bar.addHighlight (highlight item))

theorem setChannel_bookkept {filters : Filters M} {scrollbackSplitLimit messagesLimit : Nat} {currentDate : Int}
    {snapshot : List M}
    (started : setChannel getScrollBarHighlight ignoresHighlights filters scrollbackSplitLimit messagesLimit currentDate
      snapshot = some s) : s.Bookkept getScrollBarHighlight := by
  obtain ⟨view, copied, rfl⟩ := Option.map_eq_some_iff.mp started
  have nothing : Rebuilt getScrollBarHighlight (Scrollbar.new messagesLimit)
      (⟨⟨.new scrollbackSplitLimit, currentDate⟩, .new messagesLimit, false, true⟩ : ChannelView M) 0 :=
    ⟨rfl, rfl, (Nat.zero_min _).symm⟩
  have rebuilt := nothing.copied snapshot copied
  obtain ⟨-, minimum, limit⟩ := addHighlight_bounds (fun m => getScrollBarHighlight (.message m))
    (snapshot.filter filters.shouldIncludeMessage) (Scrollbar.new messagesLimit)
  have layouts : view.messages.limit = messagesLimit := rebuilt.limit.symm.trans limit
  refine ⟨⟨?bounds, rebuilt.highlights⟩, rebuilt.limit, Int.le_refl 0⟩
  rw [rebuilt.length, Nat.zero_add, layouts]
  simp only [distance, Scrollbar.setMaximum]
  rw [minimum]
  simp [Scrollbar.new]

/-- The bounds are those of all messages, whatever there is room for and whatever is pending. -/
theorem messagesUpdated_rebuilt (ignoresHighlights : Bool) (kept : s.Bookkept getScrollBarHighlight)
    (channel : Channel (Item M)) :
    let next := ({ s with view := { s.view with channel } } : PausableView M Highlight).messagesUpdated getScrollBarHighlight
      ignoresHighlights
    Rebuilt getScrollBarHighlight next.scrollBar next.view channel.getMessageSnapshot.length ∧
      next.view.messages.limit = s.view.messages.limit ∧
      next.distance = channel.getMessageSnapshot.length + (s.pauseScrollMaximumOffset - s.pauseScrollMinimumOffset) := by
  let snapshot := channel.getMessageSnapshot
  let cleared := (s.scrollBar.clearHighlights.resetBounds.setMaximum snapshot.length).setMinimum 0
  obtain ⟨highlights, clearedLimit⟩ := resetBounds_highlights s.scrollBar.clearHighlights
  have nothing : Rebuilt getScrollBarHighlight cleared
      ({ s.view with
          channel := channel
          messages := s.view.messages.clear
          lastMessageHasAlternateBackground := false
          lastMessageHasAlternateBackgroundReverse := true } : ChannelView M) 0 :=
    ⟨clearedLimit.trans kept.limit, highlights, (Nat.zero_min _).symm⟩
  have rebuilt := nothing.fold ignoresHighlights snapshot
  obtain ⟨maximum, minimum, limit⟩ := addHighlight_bounds getScrollBarHighlight snapshot cleared
  rw [Nat.zero_add] at rebuilt
  refine ⟨rebuilt, ?layouts, ?distance⟩
  case layouts => exact rebuilt.limit.symm.trans (limit.trans (clearedLimit.trans kept.limit))
  case distance =>
    show (snapshot.foldl _ cleared).maximum - (snapshot.foldl _ cleared).minimum + _ = _
    rw [maximum, minimum]
    show (snapshot.length : Int) - 0 + (s.pauseScrollMaximumOffset - s.pauseScrollMinimumOffset) = snapshot.length + _
    omega

/-- The bounds are apart by what is pending, and there is nothing to show. -/
theorem clearMessages_cleared (kept : s.Bookkept getScrollBarHighlight) :
    s.clearMessages.distance = s.pauseScrollMaximumOffset - s.pauseScrollMinimumOffset ∧
      s.clearMessages.scrollBar.highlights.items = [] ∧ s.clearMessages.view.messages.getSnapshot = [] ∧
      s.clearMessages.scrollBar.messagesLimit = s.clearMessages.view.messages.limit := by
  obtain ⟨highlights, limit⟩ := resetBounds_highlights s.scrollBar.clearHighlights
  refine ⟨?_, highlights, rfl, limit.trans kept.limit⟩
  show (0 : Int) - 0 + (s.pauseScrollMaximumOffset - s.pauseScrollMinimumOffset) = _
  omega

/-! ## Runs -/

variable [DecidableEq M] {event : ViewEvent M} {next : PausableView M Highlight}

theorem step_total (ignoresHighlights : Bool) (kept : s.Bookkept getScrollBarHighlight) (event : ViewEvent M)
    (allowed : s.Anew event) :
    ∃ next, s.step getScrollBarHighlight ignoresHighlights event = some next ∧ next.Bookkept getScrollBarHighlight := by
  cases event with
  | messageAppended message => exact ⟨_, rfl, messageAppended_bookkept kept message⟩
  | messageAddedAtStart messages => exact messageAddedAtStart_bookkept kept messages
  | messageReplaced hint prev replacement => exact ⟨_, rfl, messageReplaced_bookkept kept hint prev replacement⟩
  | messagesUpdated channel =>
    obtain ⟨pending, room⟩ := allowed
    obtain ⟨rebuilt, layouts, distance⟩ := messagesUpdated_rebuilt ignoresHighlights kept channel
    refine ⟨_, rfl, ⟨?_, rebuilt.highlights⟩, rebuilt.limit, kept.pending⟩
    rw [rebuilt.length, distance, layouts]
    omega
  | clearMessages =>
    obtain ⟨distance, highlights, layouts, limit⟩ := clearMessages_cleared kept
    have pending : s.pauseScrollMaximumOffset = s.pauseScrollMinimumOffset := allowed
    refine ⟨_, rfl, ⟨?_, ?_⟩, limit, kept.pending⟩
    · rw [distance, layouts, pending]
      simp
    · rw [highlights, layouts]
      rfl
  | pause reason hasEnd => exact ⟨_, rfl, pause_bookkept kept reason hasEnd⟩
  | unpause reason => exact ⟨_, rfl, unpause_bookkept kept reason⟩
  | pauseTimer => exact ⟨_, rfl, updatePauses_bookkept (kept.pauses _)⟩
  | setPausable value => exact ⟨_, rfl, kept.moved rfl rfl rfl kept.pending rfl⟩
  | resetBounds => exact ⟨_, rfl, resetBounds_bookkept kept⟩

theorem step_breaks (kept : s.Bookkept getScrollBarHighlight) (refused : ¬ s.Anew event)
    (taken : s.step getScrollBarHighlight ignoresHighlights event = some next) : ¬ next.Kept getScrollBarHighlight := by
  intro keptBehind
  have bounds := keptBehind.bounds
  have pending := kept.pending
  cases event with
  | messagesUpdated channel =>
    obtain rfl := Option.some.inj taken
    obtain ⟨rebuilt, layouts, distance⟩ := messagesUpdated_rebuilt ignoresHighlights kept channel
    -- the distance is that of all messages, while only as many are laid out as there is room for
    rw [distance, rebuilt.length, layouts] at bounds
    apply refused
    show _ = _ ∧ _
    omega
  | clearMessages =>
    obtain rfl := Option.some.inj taken
    obtain ⟨distance, -, layouts, -⟩ := clearMessages_cleared kept
    rw [distance, layouts] at bounds
    apply refused
    show _ = _
    rw [List.length_nil] at bounds
    omega
  | messageAppended | messageAddedAtStart | messageReplaced | pause | unpause | pauseTimer | setPausable | resetBounds =>
    exact refused trivial

theorem step_possible (getScrollBarHighlight : Item M → Highlight) (ignoresHighlights : Bool)
    (s : PausableView M Highlight) (event : ViewEvent M) :
    ∃ next, s.step getScrollBarHighlight ignoresHighlights event = some next := by
  cases event with
  | messageAddedAtStart messages =>
    obtain ⟨buffer, pushed, -⟩ := s.view.messages.pushFront_pushed
      (ChannelView.startLayouts s.view.lastMessageHasAlternateBackgroundReverse messages)
    have looped : s.view.messageAddedAtStart messages = some _ := congrArg (Option.map _) pushed
    unfold step messageAddedAtStart
    dsimp only
    rw [pushed, looped]
    exact ⟨_, rfl⟩
  | messageAppended | messageReplaced | messagesUpdated | clearMessages | pause | unpause | pauseTimer | setPausable
  | resetBounds => exact ⟨_, rfl⟩

variable {filters : Filters M} {scrollbackSplitLimit messagesLimit : Nat} {currentDate : Int} {snapshot : List M}

/-- From the time the channel is set, the bounds and the highlights fit the layouts if and only if
nothing is to be moved and there is room whenever everything is made anew. -/
theorem bounds_kept_iff
    (started : setChannel getScrollBarHighlight ignoresHighlights filters scrollbackSplitLimit messagesLimit currentDate
      snapshot = some s) (events : List (ViewEvent M)) :
    Along (step getScrollBarHighlight ignoresHighlights) Anew s events ↔
      ∀ before, before <+: events → ∃ behind, run (step getScrollBarHighlight ignoresHighlights) s before = some behind ∧
        behind.Kept getScrollBarHighlight := by
  have start := setChannel_bookkept started
  have possible := run_possible (step_possible getScrollBarHighlight ignoresHighlights) s
  have preserves : ∀ (s : PausableView M Highlight) event next, s.Bookkept getScrollBarHighlight → s.Anew event →
      s.step getScrollBarHighlight ignoresHighlights event = some next → next.Bookkept getScrollBarHighlight := by
    intro s event next kept allowed taken
    obtain ⟨reached, isNext, keptBehind⟩ := step_total ignoresHighlights kept event allowed
    exact Option.some.inj (isNext.symm.trans taken) ▸ keptBehind
  obtain ⟨final, ran⟩ := possible events
  rw [along_iff preserves (fun s event next kept refused taken => step_breaks kept refused taken)
    (fun s kept => kept.toKept) ran start]
  constructor
  · intro holds before isPrefix
    obtain ⟨behind, reached⟩ := possible before
    exact ⟨behind, reached, holds before isPrefix behind reached⟩
  · intro holds before isPrefix state reached
    obtain ⟨behind, reachedToo, kept⟩ := holds before isPrefix
    exact Option.some.inj (reachedToo.symm.trans reached) ▸ kept

/-- Two messages come in a pause, for which the first two make room. -/
theorem bounds_kept_evicting : ∃ s,
    setChannel id false ⟨none, false, fun _ => false⟩ 3 2 0 [1, 2] = some s ∧
      ∀ before, before <+: [.setPausable true, .pause .mouse false, .messageAppended (.message 3),
          .messageAppended (.message 4), .unpause .mouse, .clearMessages] →
        ∃ behind, run (step id false) s before = some behind ∧ behind.Kept (id : Item Nat → Item Nat) := by
  have started : setChannel (id : Item Nat → Item Nat) false ⟨none, false, fun _ => false⟩ 3 2 0 [1, 2] = some _ := rfl
  exact ⟨_, started, (bounds_kept_iff started _).mp (by decide)⟩

/-- The messages are cleared in the pause, and the message that came in it is still to be moved. -/
theorem cleared_while_paused : ∃ s behind,
    setChannel id false ⟨none, false, fun _ => false⟩ 3 2 0 [] = some s ∧
      run (step id false) s [.setPausable true, .pause .mouse false, .messageAppended (.message 3), .clearMessages] =
        some behind ∧
      ¬ behind.Kept (id : Item Nat → Item Nat) := by
  refine ⟨_, _, rfl, rfl, ?_⟩
  intro kept
  exact absurd kept.bounds (by decide)

end PausableView

end Forserino.Messages
