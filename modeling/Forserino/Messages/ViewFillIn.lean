import Forserino.Messages.ViewMirror

/-! Filling missing messages into the proxy channel of a view, and its layouts made anew. -/

set_option autoImplicit false

namespace Forserino.Messages

open Forserino.Qt

universe u

/-! ## The layouts made anew -/

section
variable {M : Type u} (ignoresHighlights : Bool)

/-- Where there is room, every item gets its layout. -/
theorem messageAppended_each (items : List (Item M)) (view : ChannelView M)
    (room : view.messages.getSnapshot.length + items.length ≤ view.messages.limit) :
    (items.foldl (ChannelView.messageAppended ignoresHighlights) view).channel = view.channel ∧
      (items.foldl (ChannelView.messageAppended ignoresHighlights) view).messages.getSnapshot.map
          MessageLayout.message =
        view.messages.getSnapshot.map MessageLayout.message ++ items := by
  induction items generalizing view with
  | nil => exact ⟨rfl, (List.append_nil _).symm⟩
  | cons item items ih =>
    rw [List.length_cons] at room
    have spare : overflow view.messages = 0 := by
      rw [overflow_eq, if_neg (by omega)]
    have layouts := pushBack_items view.messages
      ⟨item, view.lastMessageHasAlternateBackground, ignoresHighlights⟩
    rw [spare, List.drop_zero] at layouts
    have after : (view.messageAppended ignoresHighlights item).messages.getSnapshot =
        view.messages.getSnapshot ++
          [⟨item, view.lastMessageHasAlternateBackground, ignoresHighlights⟩] := layouts
    have limit : (view.messageAppended ignoresHighlights item).messages.limit = view.messages.limit := rfl
    obtain ⟨channel, laidOut⟩ := ih (view.messageAppended ignoresHighlights item)
      (by rw [after, limit, List.length_append, List.length_singleton]; omega)
    rw [List.foldl_cons]
    refine ⟨channel, ?_⟩
    rw [laidOut, after, List.map_append, List.append_assoc]
    rfl

theorem messagesUpdated_laidOut [DecidableEq M] (view : ChannelView M)
    (room : view.items.length ≤ view.messages.limit) :
    (view.messagesUpdated ignoresHighlights).channel = view.channel ∧
      (view.messagesUpdated ignoresHighlights).LaidOut := by
  have cleared : view.messages.clear.getSnapshot.length + view.items.length ≤ view.messages.clear.limit := by
    show 0 + _ ≤ view.messages.limit
    omega
  obtain ⟨channel, laidOut⟩ := messageAppended_each ignoresHighlights view.items
    { view with
      messages := view.messages.clear
      lastMessageHasAlternateBackground := false
      lastMessageHasAlternateBackgroundReverse := true } cleared
  refine ⟨channel, ?_⟩
  unfold ChannelView.LaidOut
  rw [ChannelView.items, show (view.messagesUpdated ignoresHighlights).channel = view.channel from channel]
  exact laidOut

end

/-! ## What is filled in -/

section
variable {M : Type u} [DecidableEq M] (info : M → MessageInfo)

theorem insert_length_le {T : Type u} {capacity : Nat} (buffer : CircularBuffer T capacity) (pos : Nat) (item : T) :
    (buffer.insert pos item).items.length ≤ buffer.items.length + 1 := by
  unfold CircularBuffer.insert
  simp only
  split
  · split
    · omega
    · simp only [List.length_tail, List.length_append, List.length_take, List.length_cons, List.length_drop]
      omega
  · simp only [List.length_append, List.length_take, List.length_cons, List.length_drop]
    omega

theorem queueBefore_length_le {T : Type u} [DecidableEq T] (needle item : T) (queue : LimitedQueue T) :
    (queueBefore needle item queue).getSnapshot.length ≤ queue.getSnapshot.length + 1 := by
  unfold queueBefore LimitedQueue.insertBefore
  split
  · exact insert_length_le _ _ _
  · exact Nat.le_succ _

theorem queueAfter_length_le {T : Type u} [DecidableEq T] (needle item : T) (queue : LimitedQueue T) :
    (queueAfter needle item queue).getSnapshot.length ≤ queue.getSnapshot.length + 1 := by
  unfold queueAfter LimitedQueue.insertAfter
  split
  · exact insert_length_le _ _ _
  · exact Nat.le_succ _

theorem fillLoop_length_le {T : Type u} [DecidableEq T] (infoOf : T → MessageInfo) (snapshot messages : List T)
    (lastMsg : T) (queue : LimitedQueue T) (anyInserted : Bool) :
    (fillLoop infoOf queueBefore queueAfter snapshot messages lastMsg queue
      anyInserted).1.getSnapshot.length ≤ queue.getSnapshot.length + messages.length := by
  induction messages generalizing lastMsg queue anyInserted with
  | nil => exact Nat.le_refl _
  | cons msg rest ih =>
    rw [fillLoop, List.length_cons]
    split
    · exact (ih lastMsg queue anyInserted).trans (by omega)
    · split
      · next snapshotMsg _ =>
        have one := queueBefore_length_le snapshotMsg msg queue
        exact (ih _ _ _).trans (by omega)
      · have one := queueAfter_length_le lastMsg msg queue
        exact (ih _ _ _).trans (by omega)

/-- The proxy channel behind filling in messages. -/
structure FilledIn (channel after : Channel (Item M)) (filledIn : Bool) (shown : List M) (more : Nat) : Prop where
  limit : after.messages.limit = channel.messages.limit
  shows : Shows channel.messages.limit shown after.getMessageSnapshot
  last : ∀ item, after.getMessageSnapshot.getLast? = some item → ∃ m, item = .message m
  length : after.getMessageSnapshot.length ≤ channel.getMessageSnapshot.length + more
  unchanged : filledIn = false → after.getMessageSnapshot = channel.getMessageSnapshot

variable {info} {filters : Filters M} {limit : Nat} {watched : Watched M} {messages : List M}

/-- The messages are in order of their time, none of them is there yet, and those that pass the
filters come to the same place in the proxy channel. -/
structure InPlace (info : M → MessageInfo) (filters : Filters M) (watched : Watched M) (messages : List M) :
    Prop where
  ascending : messages.Pairwise fun a b => (info a).serverReceivedTime ≤ (info b).serverReceivedTime
  distinct : (watched.signalled ++ messages).Nodup
  placed : ∀ m ∈ messages, filters.shouldIncludeMessage m = true →
    Placed info filters.shouldIncludeMessage watched.view.limit watched.signalled watched.view.items m

theorem filledIn_loop {signalled : List M} {lastMsg : M} (last : signalled.getLast? = some lastMsg) :
    filledIn info signalled messages =
      (fillLoop info putBefore putAfter signalled messages lastMsg signalled false).1 := by
  rw [filledIn, last]

omit [DecidableEq M] in
theorem existingMessageIds_mono {some_ all : List M} (subset : some_ ⊆ all) (id : QString)
    (known : (existingMessageIds info some_).contains id = true) :
    (existingMessageIds info all).contains id = true := by
  rw [List.contains_iff_mem] at known ⊢
  obtain ⟨m, counted, same⟩ := List.mem_map.mp known
  obtain ⟨member, counts⟩ := List.mem_filter.mp counted
  exact List.mem_map.mpr ⟨m, List.mem_filter.mpr ⟨subset member, counts⟩, same⟩

/-- Where nothing is shown yet, all that passes the filters is new. -/
theorem filledIn_hidden (settled : watched.Settled filters limit) (positive : 0 < limit)
    (inPlace : watched.signalled = [] ∨ InPlace info filters watched messages)
    (nothing : watched.view.items = []) :
    (filledIn info watched.signalled messages).filter filters.shouldIncludeMessage =
      messages.filter filters.shouldIncludeMessage := by
  have hidden : watched.signalled.filter filters.shouldIncludeMessage = [] := by
    obtain ⟨evicted, whole, room⟩ := settled.shown
    rw [nothing] at whole room
    rcases room with none_ | full
    · rw [whole, none_]
      rfl
    · rw [List.length_nil, settled.limited] at full
      omega
  cases isLast : watched.signalled.getLast? with
  | none => rw [filledIn, isLast]
  | some lastMsg =>
    rcases inPlace with empty | inPlace
    · rw [empty] at isLast
      cases isLast
    · rw [filledIn_loop isLast]
      have new : ∀ m ∈ messages, filters.shouldIncludeMessage m = true →
          ¬ (existingMessageIds info watched.signalled).contains (info m).id = true := by
        intro m member passes existing
        rcases inPlace.placed m member passes with known | placed
        · rw [nothing] at known
          cases known
        · rw [if_pos existing, nothing, settled.limited] at placed
          have full : 0 = limit := placed.1
          omega
      have filled := @fillLoop_hidden _ info filters.shouldIncludeMessage watched.signalled messages [] 0
        lastMsg _ hidden isLast inPlace.distinct (fun _ _ => Nat.zero_le _) inPlace.ascending new false
      simpa using filled

/-- The messages are added in front of an empty proxy channel. -/
theorem fillInMissingMessages_empty (settled : watched.Settled filters limit) (positive : 0 < limit)
    (inPlace : watched.signalled = [] ∨ InPlace info filters watched messages)
    (nothing : watched.view.items = []) :
    ∃ after filledIn_, watched.view.channel.fillInMissingMessages (Item.info info)
        ((messages.filter filters.shouldIncludeMessage).map Item.message) = some (after, filledIn_) ∧
      FilledIn watched.view.channel after filledIn_
        ((filledIn info watched.signalled messages).filter filters.shouldIncludeMessage)
        (messages.filter filters.shouldIncludeMessage).length := by
  -- nothing is shown yet, so that all of the new messages are
  have shown := filledIn_hidden settled positive inPlace nothing
  rw [shown]
  generalize messages.filter filters.shouldIncludeMessage = filtered
  have snapshot : watched.view.channel.getMessageSnapshot = [] := nothing
  unfold Channel.fillInMissingMessages
  by_cases none_ : filtered = []
  · refine ⟨watched.view.channel, false, by simp [none_], ?_⟩
    constructor
    case limit => rfl
    case shows =>
      rw [none_, snapshot]
      exact ⟨[], rfl, .inl rfl⟩
    case last => exact settled.last
    case length => exact Nat.le_add_right _ _
    case unchanged => exact fun _ => rfl
  · obtain ⟨buffer, pushed, items⟩ :=
      watched.view.channel.messages.pushFront_pushed (filtered.map Item.message)
    have buffered : watched.view.channel.messages.buffer.items = [] := nothing
    have space : watched.view.channel.messages.space = watched.view.channel.messages.limit := by
      rw [LimitedQueue.space, buffered]
      rfl
    have stored : watched.view.channel.messages.getSnapshot = [] := nothing
    rw [List.length_map, space, stored, List.append_nil] at items
    rw [if_neg (by simpa using none_), snapshot, List.getLast?_nil]
    simp only [pushed, Option.map_some]
    refine ⟨_, _, rfl, ?_⟩
    constructor
    case limit => rfl
    case shows =>
      have started := @addedAtStart_shows M watched.view.channel.messages.limit [] filtered []
        (Nat.zero_le _) ⟨[], rfl, .inl rfl⟩
      rw [List.append_nil, List.append_nil] at started
      show Shows _ _ buffer.items
      rw [items]
      exact started
    case last =>
      intro item found
      have member : item ∈ buffer.items := List.mem_of_getLast? found
      rw [items] at member
      obtain ⟨m, _, same⟩ := List.mem_map.mp (List.mem_of_mem_drop member)
      exact ⟨m, same.symm⟩
    case length =>
      show buffer.items.length ≤ _
      rw [items, List.length_drop, List.length_map]
      omega
    case unchanged => exact fun other => nomatch other

/-- The messages are filled in between those of the proxy channel. -/
theorem fillInMissingMessages_between (settled : watched.Settled filters limit) {lastItem : Item M}
    (lastItem_ : watched.view.items.getLast? = some lastItem)
    (inPlace : watched.signalled = [] ∨ InPlace info filters watched messages) :
    ∃ after filledIn_, watched.view.channel.fillInMissingMessages (Item.info info)
        ((messages.filter filters.shouldIncludeMessage).map Item.message) = some (after, filledIn_) ∧
      FilledIn watched.view.channel after filledIn_
        ((filledIn info watched.signalled messages).filter filters.shouldIncludeMessage)
        (messages.filter filters.shouldIncludeMessage).length := by
  obtain ⟨lastShown, isMessage⟩ := settled.last lastItem lastItem_
  have subset : messagesOf watched.view.items ⊆ watched.signalled :=
    fun m member => (List.mem_filter.mp (settled.shown.subset member)).1
  -- what is shown was signalled before
  have signalled : watched.signalled ≠ [] := by
    intro empty
    have member : lastShown ∈ messagesOf watched.view.items :=
      List.mem_filterMap.mpr ⟨lastItem, List.mem_of_getLast? lastItem_, by rw [isMessage]; rfl⟩
    rw [empty] at subset
    exact List.not_mem_nil (subset member)
  have inPlace := inPlace.resolve_left signalled
  have isLast := List.getLast?_eq_some_getLast signalled
  rw [filledIn_loop isLast]
  have filling : Filling info filters.shouldIncludeMessage watched.signalled watched.view.items messages
      [] 0 (watched.signalled.getLast signalled) watched.view.channel.messages [] 0 lastItem := by
    constructor
    case last => exact isLast
    case distinct => exact inPlace.distinct
    case ahead => exact fun _ _ => Nat.zero_le _
    case ascending => exact inPlace.ascending
    case queued => rfl
    case lastQueued => exact lastItem_
    case isMessage => exact ⟨lastShown, isMessage⟩
    case aheadItems => exact fun _ _ _ => Nat.zero_le _
    case shows => exact settled.shown
  have known (id : QString) (queued : (existingMessageIds (Item.info info) watched.view.items).contains id = true) :
      (existingMessageIds info watched.signalled).contains id = true := by
    rw [existingMessageIds_items] at queued
    exact existingMessageIds_mono subset id queued
  obtain ⟨limitBehind, ⟨lastBehind, isLastBehind⟩, shows⟩ :=
    fillLoop_shows filling known inPlace.placed false false
  have length := fillLoop_length_le (Item.info info) watched.view.items
    ((messages.filter filters.shouldIncludeMessage).map Item.message) lastItem watched.view.channel.messages false
  rw [List.length_map] at length
  have whole : FilledIn watched.view.channel
      { watched.view.channel with
        messages := (fillLoop (Item.info info) queueBefore queueAfter watched.view.items
          ((messages.filter filters.shouldIncludeMessage).map Item.message) lastItem
          watched.view.channel.messages false).1 }
      (fillLoop (Item.info info) queueBefore queueAfter watched.view.items
          ((messages.filter filters.shouldIncludeMessage).map Item.message) lastItem
          watched.view.channel.messages false).2
      ((fillLoop info putBefore putAfter watched.signalled messages (watched.signalled.getLast signalled)
        watched.signalled false).1.filter filters.shouldIncludeMessage)
      (messages.filter filters.shouldIncludeMessage).length := by
    constructor
    case limit => exact limitBehind
    case shows => exact shows
    case last =>
      intro item found
      exact ⟨lastBehind, Option.some.inj (found.symm.trans isLastBehind)⟩
    case length => exact length
    case unchanged =>
      intro nothing
      exact congrArg LimitedQueue.getSnapshot (fillLoop_unchanged (Item.info info) nothing).1
  -- the loop starts from the item that is shown last
  have snapshot : watched.view.channel.getMessageSnapshot.getLast? = some lastItem := lastItem_
  unfold Channel.fillInMissingMessages
  by_cases none_ : messages.filter filters.shouldIncludeMessage = []
  · rw [if_pos (by simpa using none_)]
    rw [none_] at whole
    rw [none_]
    exact ⟨_, _, rfl, whole⟩
  · rw [if_neg (by simpa using none_), snapshot]
    exact ⟨_, _, rfl, whole⟩

theorem onFilledInMessages_settled (ignoresHighlights : Bool) (settled : watched.Settled filters limit)
    (positive : 0 < limit)
    (room : watched.view.HasRoom (messages.filter filters.shouldIncludeMessage).length)
    (inPlace : watched.signalled = [] ∨ InPlace info filters watched messages) :
    ∃ after, watched.view.onFilledInMessages ignoresHighlights filters info messages = some after ∧
      Watched.Settled filters limit ⟨filledIn info watched.signalled messages, after⟩ := by
  have filledIn_ : ∃ after filledIn_, watched.view.channel.fillInMissingMessages (Item.info info)
        ((messages.filter filters.shouldIncludeMessage).map Item.message) = some (after, filledIn_) ∧
      FilledIn watched.view.channel after filledIn_
        ((filledIn info watched.signalled messages).filter filters.shouldIncludeMessage)
        (messages.filter filters.shouldIncludeMessage).length := by
    cases last : watched.view.items.getLast? with
    | none =>
      exact fillInMissingMessages_empty settled positive inPlace (List.getLast?_eq_none_iff.mp last)
    | some lastItem => exact fillInMissingMessages_between settled last inPlace
  obtain ⟨channel, anyInserted, filled, isFilled⟩ := filledIn_
  let view : ChannelView M := { watched.view with channel }
  have fits : view.items.length ≤ view.messages.limit := by
    -- the items fit the proxy channel, and the layouts have as much room or enough for the new ones
    have queue : view.items.length ≤ channel.messages.limit := channel.messages.buffer.size_le
    have length : view.items.length ≤ watched.view.items.length +
        (messages.filter filters.shouldIncludeMessage).length := isFilled.length
    have same : channel.messages.limit = watched.view.limit := isFilled.limit
    rcases room with limits | ⟨layouts, _⟩
    · have limits' : view.messages.limit = watched.view.limit := limits
      omega
    · exact length.trans layouts
  unfold ChannelView.onFilledInMessages
  simp only [filled, Option.map_some]
  cases anyInserted with
  | true =>
    obtain ⟨same, laidOut⟩ := messagesUpdated_laidOut ignoresHighlights view fits
    refine ⟨_, rfl, ⟨⟨?_, laidOut⟩, ?_, ?_⟩⟩
    · show Shows (view.messagesUpdated ignoresHighlights).limit _ (view.messagesUpdated ignoresHighlights).items
      rw [ChannelView.limit, ChannelView.items, same, show view.channel.messages.limit = _ from isFilled.limit]
      exact isFilled.shows
    · show ∀ item, (view.messagesUpdated ignoresHighlights).items.getLast? = some item → _
      rw [ChannelView.items, same]
      exact isFilled.last
    · show (view.messagesUpdated ignoresHighlights).limit = limit
      rw [ChannelView.limit, same]
      exact isFilled.limit.trans settled.limited
  | false =>
    refine ⟨view, rfl, ⟨⟨?_, ?_⟩, isFilled.last, isFilled.limit.trans settled.limited⟩⟩
    · show Shows channel.messages.limit _ channel.getMessageSnapshot
      rw [isFilled.limit]
      exact isFilled.shows
    · show view.messages.getSnapshot.map MessageLayout.message = channel.getMessageSnapshot
      rw [isFilled.unchanged rfl]
      exact settled.laidOut

end

end Forserino.Messages
