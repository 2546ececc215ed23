import Forserino.Foundation.Runs
import Forserino.Messages.Shown

/-! A channel view mirrors its underlying channel: the proxy channel shows the messages that
pass the filters and the layouts are those of the proxy channel, as long as no signal comes
that a handler does not pass on.
-/

set_option autoImplicit false

namespace Forserino.Messages

open Forserino.Qt
open Foundation

universe u

section
variable {M : Type u}

def ChannelView.items (view : ChannelView M) : List (Item M) := view.channel.getMessageSnapshot

/-- The limit of the proxy channel. -/
def ChannelView.limit (view : ChannelView M) : Nat := view.channel.messages.limit

/-- The proxy channel and the layouts let go of a message at the same time, or have room for as
many more. -/
def ChannelView.HasRoom (view : ChannelView M) (more : Nat) : Prop :=
  view.messages.limit = view.limit ∨
    view.items.length + more ≤ view.messages.limit ∧ view.items.length + more ≤ view.limit

instance (view : ChannelView M) (more : Nat) : Decidable (view.HasRoom more) :=
  inferInstanceAs (Decidable (_ ∨ _))

/-- There is one layout for each message of the proxy channel. -/
def ChannelView.LaidOut (view : ChannelView M) : Prop :=
  view.messages.getSnapshot.map MessageLayout.message = view.items

/-- What the view should show. -/
structure Watched.Mirrors (filters : Filters M) (watched : Watched M) : Prop where
  shown : Shows watched.view.limit (watched.signalled.filter filters.shouldIncludeMessage) watched.view.items
  laidOut : watched.view.LaidOut

instance [DecidableEq M] (filters : Filters M) (watched : Watched M) : Decidable (watched.Mirrors filters) :=
  decidable_of_iff
    (Shows watched.view.limit (watched.signalled.filter filters.shouldIncludeMessage) watched.view.items ∧
      watched.view.messages.getSnapshot.map MessageLayout.message = watched.view.items)
    ⟨fun both => ⟨both.1, both.2⟩, fun mirrors => ⟨mirrors.shown, mirrors.laidOut⟩⟩

/-- A day-change message is not the last one. -/
structure Watched.Settled (filters : Filters M) (limit : Nat) (watched : Watched M) : Prop
    extends watched.Mirrors filters where
  last : ∀ item, watched.view.items.getLast? = some item → ∃ m, item = .message m
  limited : watched.view.limit = limit

/-! ## Replacing -/

section
variable {T : Type u} [DecidableEq T] {items : List T} {needle : T}

theorem map_absent (absent : needle ∉ items) (replacement : T) :
    items.map (fun item => if item = needle then replacement else item) = items := by
  conv_rhs => rw [← List.map_id items]
  apply List.map_congr_left
  intro item member
  rw [if_neg]
  · rfl
  · rintro rfl
    exact absent member

/-- A message that is there once is replaced wherever it is. -/
theorem set_eq_map (once : items.count needle ≤ 1) {i : Nat} (there : items[i]? = some needle)
    (replacement : T) :
    items.set i replacement = items.map fun item => if item = needle then replacement else item := by
  induction items generalizing i with
  | nil => cases there
  | cons first rest ih =>
    cases i with
    | zero =>
      obtain rfl := Option.some.inj there
      have others : first ∉ rest := by
        intro member
        have some_ := List.count_pos_iff.mpr member
        rw [List.count_cons_self] at once
        omega
      rw [List.set_cons_zero, List.map_cons, if_pos rfl, map_absent others]
    | succ i =>
      have behind := List.count_pos_iff.mpr (List.mem_of_getElem? there)
      have other : first ≠ needle := by
        rintro rfl
        rw [List.count_cons_self] at once
        have again : 0 < rest.count first := List.count_pos_iff.mpr (List.mem_of_getElem? there)
        omega
      rw [List.count_cons_of_ne other] at once
      rw [List.set_cons_succ, List.map_cons, if_neg other, ih once there]

theorem replace_eq_map (once : items.count needle ≤ 1) (replacement : T) :
    items.replace needle replacement =
      items.map fun item => if item = needle then replacement else item := by
  induction items with
  | nil => rfl
  | cons first rest ih =>
    by_cases same : first = needle
    · subst same
      have others : first ∉ rest := by
        intro member
        have some_ := List.count_pos_iff.mpr member
        rw [List.count_cons_self] at once
        omega
      rw [List.replace_cons_self, List.map_cons, if_pos rfl, map_absent others]
    · rw [List.count_cons_of_ne same] at once
      have other : (needle == first) = false := by
        rw [beq_eq_false_iff_ne]
        exact fun equal => same equal.symm
      rw [List.replace_cons, other, List.map_cons, if_neg same, ← ih once]

/-- Where the hint is wrong, the first match is replaced; there is only one. -/
theorem replaceItemHint_items {queue : LimitedQueue T} (once : queue.getSnapshot.count needle ≤ 1) (hint : Nat)
    (replacement : T) (small : queue.limit ≤ 2 ^ 31) :
    (queue.replaceItemHint hint needle replacement).1.limit = queue.limit ∧
      (queue.replaceItemHint hint needle replacement).1.getSnapshot =
        queue.getSnapshot.map (fun item => if item = needle then replacement else item) ∧
      (0 ≤ (queue.replaceItemHint hint needle replacement).2 ↔ needle ∈ queue.getSnapshot) := by
  have size : queue.getSnapshot.length ≤ queue.limit := queue.buffer.size_le
  have replaced {i : Nat} (there : queue.getSnapshot[i]? = some needle) :
      (queue.buffer.set i replacement).items =
          queue.getSnapshot.map (fun item => if item = needle then replacement else item) ∧
        (0 ≤ toInt i ↔ needle ∈ queue.getSnapshot) := by
    obtain ⟨inside, _⟩ := List.getElem?_eq_some_iff.mp there
    refine ⟨set_eq_map once there replacement, ?_⟩
    have nonnegative : 0 ≤ toInt i := by
      unfold toInt
      split <;> omega
    simp only [nonnegative, List.mem_of_getElem? there]
  unfold LimitedQueue.replaceItemHint
  split
  · next hinted =>
    have there : queue.getSnapshot[hint]? = some needle := by
      show queue.buffer.items[hint]? = some needle
      cases found : queue.buffer.items[hint]? with
      | none =>
        rw [found] at hinted
        cases hinted
      | some item =>
        rw [found] at hinted
        rw [beq_iff_eq.mp hinted]
    exact ⟨rfl, replaced there⟩
  · split
    · next i found =>
      obtain ⟨inside, same, _⟩ := List.findIdx?_eq_some_iff_getElem.mp found
      have there : queue.getSnapshot[i]? = some needle := by
        rw [← beq_iff_eq.mp same]
        exact List.getElem?_eq_getElem inside
      exact ⟨rfl, replaced there⟩
    · next missing =>
      have absent : needle ∉ queue.getSnapshot := by
        intro member
        have other := List.findIdx?_eq_none_iff.mp missing needle member
        simp at other
      refine ⟨rfl, (map_absent absent replacement).symm, ?_⟩
      simp only [absent, iff_false]
      decide

end

/-! ## Adding to the proxy channel -/

theorem pushBack_items {T : Type u} (queue : LimitedQueue T) (item : T) :
    (queue.buffer.push_back item).items = (queue.getSnapshot ++ [item]).drop (overflow queue) := by
  unfold CircularBuffer.push_back overflow LimitedQueue.getSnapshot
  split
  · exact (List.drop_one).symm
  · rfl

theorem pushBackDeleted_items {T : Type u} {queue : LimitedQueue T} (item : T) (positive : 0 < queue.limit) :
    ∃ behind full deleted, queue.pushBackDeleted item = some (behind, full, deleted) ∧
      behind.limit = queue.limit ∧
      behind.getSnapshot = (queue.getSnapshot ++ [item]).drop (overflow queue) := by
  obtain ⟨deleted, pushed, _⟩ := LimitedQueue.pushBackDeleted_front item positive
  exact ⟨_, _, _, pushed, rfl, pushBack_items queue item⟩

/-- What holds of a view behind an item that the proxy channel has added. -/
structure Added (view after : ChannelView M) (item : Item M) : Prop where
  items : after.items = (view.items ++ [item]).drop (if view.items.length = view.limit then 1 else 0)
  laidOut : after.LaidOut
  limit : after.limit = view.limit
  layoutLimit : after.messages.limit = view.messages.limit
  lastDate : after.channel.lastDate = view.channel.lastDate

theorem Added.length_le {view after : ChannelView M} {item : Item M} (added : Added view after item) :
    after.items.length ≤ view.items.length + 1 := by
  rw [added.items, List.length_drop, List.length_append, List.length_singleton]
  omega

theorem addMessage_added (ignoresHighlights : Bool) {view : ChannelView M} (item : Item M)
    (positive : 0 < view.limit) (laidOut : view.LaidOut) (room : view.HasRoom 1) :
    ∃ after, view.addMessage ignoresHighlights item = some after ∧ Added view after item := by
  obtain ⟨queue, full, deleted, pushed, limit, items⟩ := pushBackDeleted_items item positive
  have same : overflow view.messages = overflow view.channel.messages := by
    have size : view.messages.getSnapshot.length ≤ view.messages.limit := view.messages.buffer.size_le
    have lengths := congrArg List.length laidOut
    rw [List.length_map] at lengths
    have lengths' : view.messages.getSnapshot.length = view.channel.messages.getSnapshot.length := lengths
    rw [overflow_eq, overflow_eq, lengths']
    rcases room with limits | ⟨layouts, proxy⟩
    · have limits' : view.messages.limit = view.channel.messages.limit := limits
      rw [limits']
    · have layouts' : view.channel.messages.getSnapshot.length + 1 ≤ view.messages.limit := layouts
      have proxy' : view.channel.messages.getSnapshot.length + 1 ≤ view.channel.messages.limit := proxy
      rw [if_neg (by omega), if_neg (by omega)]
  have sized := overflow_eq view.channel.messages
  refine ⟨_, by rw [ChannelView.addMessage, Channel.addMessage, pushed]; rfl, ?_⟩
  constructor
  case items => exact sized ▸ items
  case laidOut =>
    have layouts := pushBack_items view.messages
      ⟨item, view.lastMessageHasAlternateBackground, ignoresHighlights⟩
    unfold ChannelView.LaidOut ChannelView.items Channel.getMessageSnapshot at laidOut ⊢
    simp only [ChannelView.messageAppended, LimitedQueue.pushBack]
    rw [items]
    unfold LimitedQueue.getSnapshot at layouts ⊢
    rw [layouts, same, List.map_drop, List.map_append]
    unfold LimitedQueue.getSnapshot at laidOut
    rw [laidOut]
    rfl
  case limit => exact limit
  case layoutLimit => rfl
  case lastDate => rfl

theorem Added.shows {view after : ChannelView M} {item : Item M} (added : Added view after item)
    {shown : List M} (shows : Shows view.limit shown view.items) :
    Shows after.limit (shown ++ messagesOf [item]) after.items := by
  have whole : Shows view.limit shown (view.items ++ []) := by
    rw [List.append_nil]
    exact shows
  have inserted := @Shows.insert _ _ _ shown _ _ whole (by simp) item
  rw [added.limit, added.items]
  simpa using inserted

theorem Added.hasRoom {view after : ChannelView M} {item : Item M} (added : Added view after item)
    {more : Nat} (room : view.HasRoom (more + 1)) : after.HasRoom more := by
  unfold ChannelView.HasRoom at room ⊢
  rw [added.layoutLimit, added.limit]
  rcases room with same | ⟨layouts, proxy⟩
  · exact .inl same
  · right
    have length := added.length_le
    omega

theorem ChannelView.HasRoom.weaken {view : ChannelView M} {more fewer : Nat} (room : view.HasRoom more)
    (le : fewer ≤ more) : view.HasRoom fewer := by
  rcases room with same | ⟨layouts, proxy⟩
  · exact .inl same
  · exact .inr ⟨by omega, by omega⟩

/-- A message that passes the filters is appended. -/
theorem Added.settled {filters : Filters M} {limit : Nat} {signalled : List M} {view after : ChannelView M}
    {m : M} (added : Added view after (.message m)) (positive : 0 < limit) (limited : view.limit = limit)
    (shown : Shows view.limit (signalled.filter filters.shouldIncludeMessage) view.items)
    (passes : filters.shouldIncludeMessage m = true) :
    Watched.Settled filters limit ⟨signalled ++ [m], after⟩ := by
  have shows := added.shows shown
  have few : (if view.items.length = view.limit then 1 else 0) ≤ view.items.length := by
    split <;> omega
  have items := added.items
  rw [List.drop_append_of_le_length few] at items
  constructor
  case toMirrors =>
    constructor
    case shown =>
      rw [List.filter_append, List.filter_cons_of_pos passes]
      exact shows
    case laidOut => exact added.laidOut
  case last =>
    intro item last
    rw [items, List.getLast?_append] at last
    exact ⟨m, (Option.some.inj last).symm⟩
  case limited => rw [added.limit, limited]

/-- A day-change message is added in front of another one. -/
theorem Added.day {view after : ChannelView M} {date : Int} (added : Added view after (.dayChange date))
    {shown : List M} (shows : Shows view.limit shown view.items) : Shows after.limit shown after.items := by
  have inserted := added.shows shows
  simpa using inserted

/-! ## The handlers -/

section
variable {filters : Filters M} {limit : Nat} {watched : Watched M}

theorem onMessageAppended_settled (ignoresHighlights : Bool) {m : M} {currentDate : Int}
    (settled : watched.Settled filters limit) (positive : 0 < limit)
    (room : filters.shouldIncludeMessage m = true →
      watched.view.HasRoom (if watched.view.channel.lastDate = currentDate then 1 else 2)) :
    ∃ after, watched.view.onMessageAppended ignoresHighlights filters currentDate m = some after ∧
      Watched.Settled filters limit ⟨watched.signalled ++ [m], after⟩ := by
  have limited := settled.limited
  unfold ChannelView.onMessageAppended
  by_cases passes : filters.shouldIncludeMessage m = true
  · rw [if_pos passes]
    by_cases sameDay : watched.view.channel.lastDate = currentDate
    · have enough := room passes
      rw [if_pos sameDay] at enough
      obtain ⟨after, added, isAdded⟩ := addMessage_added ignoresHighlights (.message m)
        (by omega) settled.laidOut enough
      refine ⟨after, ?_, isAdded.settled positive limited settled.shown passes⟩
      rw [if_pos sameDay]
      exact added
    · -- The day-change message comes first.
      have enough := room passes
      rw [if_neg sameDay] at enough
      let dated : ChannelView M :=
        { watched.view with channel := { watched.view.channel with lastDate := currentDate } }
      have datedRoom : dated.HasRoom 2 := enough
      have datedPositive : 0 < dated.limit := limited ▸ positive
      obtain ⟨next, addedDay, isDay⟩ := addMessage_added ignoresHighlights (.dayChange currentDate)
        datedPositive settled.laidOut (datedRoom.weaken (Nat.le_succ 1))
      obtain ⟨after, added, isAdded⟩ := addMessage_added ignoresHighlights (.message m)
        (isDay.limit ▸ datedPositive) isDay.laidOut (isDay.hasRoom datedRoom)
      refine ⟨after, ?_, isAdded.settled positive (isDay.limit.trans limited) (isDay.day settled.shown) passes⟩
      rw [if_neg sameDay]
      exact Option.bind_eq_some_iff.mpr ⟨next, addedDay, added⟩
  · rw [if_neg passes]
    refine ⟨watched.view, rfl, ?_⟩
    have shown := settled.shown
    constructor
    case toMirrors =>
      constructor
      case shown =>
        rw [List.filter_append, List.filter_cons_of_neg passes]
        simpa using shown
      case laidOut => exact settled.laidOut
    case last => exact settled.last
    case limited => exact limited

/-- As many messages are added at the start as there is room for. -/
theorem addedAtStart_shows {shown filtered : List M} {items : List (Item M)} (size : items.length ≤ limit)
    (shows : Shows limit shown items) :
    Shows limit (filtered ++ shown)
      ((filtered.map Item.message).drop (filtered.length - min filtered.length (limit - items.length)) ++
        items) := by
  obtain ⟨evicted, rfl, room⟩ := shows
  refine ⟨filtered.take (filtered.length - min filtered.length (limit - items.length)) ++ evicted, ?_, ?_⟩
  · rw [messagesOf_append, ← List.map_drop, messagesOf_map]
    rcases room with rfl | full
    · rw [List.append_nil, List.nil_append, ← List.append_assoc, List.take_append_drop]
    · rw [full, Nat.sub_self, Nat.min_zero, Nat.sub_zero, List.take_length, List.drop_length]
      simp
  · rw [List.length_append, List.length_drop, List.length_map]
    rcases room with rfl | full
    · by_cases fits : filtered.length ≤ limit - items.length
      · left
        rw [Nat.min_eq_left fits, Nat.sub_self]
        rfl
      · right
        omega
    · right
      omega

theorem startLayouts_messages (alternate : Bool) (messages : List (Item M)) :
    (ChannelView.startLayouts alternate messages).map MessageLayout.message = messages := by
  induction messages generalizing alternate with
  | nil => rfl
  | cons message rest ih => rw [ChannelView.startLayouts, List.map_cons, ih]

/-- The layouts of messages for which there is room come to the start. -/
theorem messageAddedAtStart_laidOut (view : ChannelView M) (messages : List (Item M))
    (fits : messages.length ≤ view.messages.limit - view.messages.getSnapshot.length) :
    ∃ after, view.messageAddedAtStart messages = some after ∧ after.channel = view.channel ∧
      after.messages.getSnapshot.map MessageLayout.message =
        messages ++ view.messages.getSnapshot.map MessageLayout.message := by
  let layouts := ChannelView.startLayouts view.lastMessageHasAlternateBackgroundReverse messages
  have length : layouts.length = messages.length := by
    have same := congrArg List.length
      (startLayouts_messages view.lastMessageHasAlternateBackgroundReverse messages)
    rw [List.length_map] at same
    exact same
  have room : min layouts.length view.messages.space = layouts.length := by
    apply Nat.min_eq_left
    rw [length]
    exact fits
  obtain ⟨buffer, pushed, items⟩ := view.messages.pushFront_pushed layouts
  rw [room, Nat.sub_self, List.drop_zero] at pushed items
  have laidOut : buffer.items.map MessageLayout.message =
      messages ++ view.messages.getSnapshot.map MessageLayout.message := by
    rw [items, List.map_append, startLayouts_messages]
  unfold ChannelView.messageAddedAtStart
  rw [pushed]
  exact ⟨_, rfl, rfl, laidOut⟩

theorem onMessagesAddedAtStart_settled {messages : List M} (settled : watched.Settled filters limit)
    (room : watched.view.HasRoom (messages.filter filters.shouldIncludeMessage).length) :
    ∃ after, watched.view.onMessagesAddedAtStart filters messages = some after ∧
      Watched.Settled filters limit ⟨messages ++ watched.signalled, after⟩ := by
  have limited := settled.limited
  unfold ChannelView.onMessagesAddedAtStart
  generalize filtered_ : messages.filter filters.shouldIncludeMessage = filtered at room
  have shown : Shows watched.view.limit (filtered ++ watched.signalled.filter filters.shouldIncludeMessage)
      ((filtered.map Item.message).drop (filtered.length -
        min filtered.length (watched.view.limit - watched.view.items.length)) ++ watched.view.items) :=
    addedAtStart_shows watched.view.channel.messages.buffer.size_le settled.shown
  have shape : (messages ++ watched.signalled).filter filters.shouldIncludeMessage =
      filtered ++ watched.signalled.filter filters.shouldIncludeMessage := by
    rw [List.filter_append, filtered_]
  -- where none passes the filters, the view stays and still shows what it should
  have nothing : filtered = [] → Watched.Settled filters limit ⟨messages ++ watched.signalled, watched.view⟩ := by
    intro empty
    subst empty
    refine ⟨⟨?_, settled.laidOut⟩, settled.last, limited⟩
    rw [shape]
    exact settled.shown
  by_cases empty : filtered = []
  · exact ⟨watched.view, by simp [empty], nothing empty⟩
  · rw [if_neg (by simpa using empty)]
    obtain ⟨buffer, pushed, items⟩ := watched.view.channel.messages.pushFront_pushed (filtered.map Item.message)
    have space : watched.view.channel.messages.space = watched.view.limit - watched.view.items.length := rfl
    rw [List.length_map, space] at pushed items
    generalize kept_ : (filtered.map Item.message).drop (filtered.length -
      min filtered.length (watched.view.limit - watched.view.items.length)) = kept at pushed items shown
    let view : ChannelView M :=
      { watched.view with channel := { watched.view.channel with messages := ⟨_, buffer⟩ } }
    have viewItems : view.items = kept ++ watched.view.items := items
    have last : ∀ item, view.items.getLast? = some item → ∃ m, item = .message m := by
      intro item found
      rw [viewItems, List.getLast?_append, Option.or_eq_some_iff] at found
      rcases found with old | ⟨_, new⟩
      · exact settled.last item old
      · rw [← kept_] at new
        have member := List.mem_of_mem_drop (List.mem_of_getLast? new)
        obtain ⟨m, _, same⟩ := List.mem_map.mp member
        exact ⟨m, same.symm⟩
    have step : watched.view.channel.addMessagesAtStart (filtered.map Item.message) = some (view.channel, kept) := by
      rw [Channel.addMessagesAtStart, pushed]
      rfl
    rw [step, Option.bind_eq_bind, Option.bind_some]
    have shows : Shows view.limit ((messages ++ watched.signalled).filter filters.shouldIncludeMessage) view.items := by
      rw [shape, viewItems]
      exact shown
    by_cases none_ : kept = []
    · refine ⟨view, by simp [none_, view], ⟨⟨shows, ?_⟩, last, limited⟩⟩
      have laidOut := settled.laidOut
      unfold ChannelView.LaidOut at laidOut ⊢
      rw [viewItems, none_, List.nil_append]
      exact laidOut
    -- there is a layout for each item, so that there is room for the layouts of what was kept
    · have fits : kept.length ≤ view.messages.limit - view.messages.getSnapshot.length := by
        have lengths := congrArg List.length settled.laidOut
        rw [List.length_map] at lengths
        have layouts : view.messages.getSnapshot.length = watched.view.items.length := lengths
        rw [← kept_, List.length_drop, List.length_map, layouts]
        rcases room with same | ⟨layoutRoom, _⟩
        · have same' : view.messages.limit = watched.view.limit := same
          omega
        · have layoutRoom' : watched.view.items.length + filtered.length ≤ view.messages.limit := layoutRoom
          omega
      obtain ⟨after, added, channel, laidOut⟩ := messageAddedAtStart_laidOut view kept fits
      have itemsAfter : after.items = view.items := by rw [ChannelView.items, channel]; rfl
      refine ⟨after, by simp [none_, view] at added ⊢; exact added, ⟨⟨?_, ?_⟩, ?_, ?_⟩⟩
      · rw [itemsAfter, ChannelView.limit, channel]
        exact shows
      · unfold ChannelView.LaidOut
        rw [laidOut, itemsAfter, viewItems]
        congr 1
        exact settled.laidOut
      · rw [itemsAfter]
        exact last
      · rw [ChannelView.limit, channel]
        exact limited

variable [DecidableEq M]

theorem count_messagesOf (items : List (Item M)) (m : M) :
    items.count (.message m) = (messagesOf items).count m := by
  induction items with
  | nil => rfl
  | cons item items ih =>
    cases item with
    | message other => simp [List.count_cons, ih]
    | dayChange date => simp [ih]

theorem messagesOf_replaced (items : List (Item M)) (prev replacement : M) :
    messagesOf (items.map fun item => if item = .message prev then .message replacement else item) =
      (messagesOf items).map fun m => if m = prev then replacement else m := by
  induction items with
  | nil => rfl
  | cons item items ih =>
    cases item with
    | message m =>
      by_cases same : m = prev
      · simp [same, ih]
      · simp [same, ih]
    | dayChange date => simp [ih]

/-- What is found with a hint is there and fits. -/
theorem findHint_there {T : Type u} {queue : LimitedQueue T} {pred : T → Bool} (hint : Nat)
    (present : ∃ item ∈ queue.getSnapshot, pred item = true) :
    ∃ index item, queue.findHint hint pred = some (index, item) ∧
      queue.getSnapshot[index]? = some item ∧ pred item = true := by
  unfold LimitedQueue.findHint
  split
  · next item hinted =>
    obtain ⟨there, fits⟩ := Option.filter_eq_some_iff.mp hinted
    exact ⟨hint, item, rfl, there, fits⟩
  · obtain ⟨item, member, fits⟩ := present
    cases found : queue.buffer.items.findIdx? pred with
    | none =>
      have other := List.findIdx?_eq_none_iff.mp found item member
      rw [fits] at other
      cases other
    | some index =>
      obtain ⟨inside, isFound, _⟩ := List.findIdx?_eq_some_iff_getElem.mp found
      refine ⟨index, queue.buffer.items[index], ?_, List.getElem?_eq_getElem inside, isFound⟩
      rw [Option.bind_some, List.getElem?_eq_getElem inside, Option.map_some]

/-- The layout of the replaced message is replaced. -/
theorem messageReplaced_laidOut (view : ChannelView M) {items : List (Item M)} (hint : Nat)
    {prev : Item M} (replacement : Item M) (once : items.count prev ≤ 1) (there : prev ∈ items)
    (laidOut : view.messages.getSnapshot.map MessageLayout.message = items) :
    (view.messageReplaced hint prev replacement).channel = view.channel ∧
      (view.messageReplaced hint prev replacement).messages.getSnapshot.map MessageLayout.message =
        items.map fun item => if item = prev then replacement else item := by
  have present : ∃ layout ∈ view.messages.getSnapshot, (layout.message == prev) = true := by
    rw [← laidOut] at there
    obtain ⟨layout, member, same⟩ := List.mem_map.mp there
    exact ⟨layout, member, beq_iff_eq.mpr same⟩
  obtain ⟨index, old, found, layoutThere, fits⟩ := findHint_there hint present
  have itemThere : items[index]? = some prev := by
    rw [← laidOut, List.getElem?_map, layoutThere, Option.map_some, beq_iff_eq.mp fits]
  unfold ChannelView.messageReplaced
  rw [found]
  refine ⟨rfl, ?_⟩
  have replaced : (view.messages.replaceItemAt index ⟨replacement, old.alternateBackground, false⟩).1.getSnapshot =
      view.messages.getSnapshot.set index ⟨replacement, old.alternateBackground, false⟩ := by
    have bufferThere : view.messages.buffer.items[index]? = some old := layoutThere
    unfold LimitedQueue.replaceItemAt
    rw [bufferThere]
    rfl
  show (view.messages.replaceItemAt index _).1.getSnapshot.map MessageLayout.message = _
  rw [replaced, List.map_set, laidOut, set_eq_map once itemThere]

/-- A message that is filtered out is replaced by another one. -/
theorem filter_replace_excluded {included : M → Bool} {signalled : List M} {prev replacement : M}
    (prevOut : ¬ included prev = true) (replacementOut : ¬ included replacement = true) :
    (signalled.replace prev replacement).filter included = signalled.filter included := by
  induction signalled with
  | nil => rfl
  | cons m signalled ih =>
    rw [List.replace_cons]
    by_cases same : prev = m
    · subst same
      simp [prevOut, replacementOut]
    · have other : (prev == m) = false := beq_eq_false_iff_ne.mpr same
      rw [other]
      simp only [List.filter_cons, ih]

/-- The replaced message is replaced in the proxy channel and in the layouts. -/
theorem onMessageReplaced_items (view : ChannelView M) (index : Nat) {prev replacement : M}
    (passes : filters.shouldIncludeMessage replacement = true) (laidOut : view.LaidOut)
    (once : view.items.count (.message prev) ≤ 1) (small : view.limit ≤ 2 ^ 31) :
    (view.onMessageReplaced filters index prev replacement).limit = view.limit ∧
      (view.onMessageReplaced filters index prev replacement).items =
        view.items.map (fun item => if item = .message prev then .message replacement else item) ∧
      (view.onMessageReplaced filters index prev replacement).LaidOut := by
  obtain ⟨limit, items, replaced⟩ := replaceItemHint_items once index (.message replacement) small
  unfold ChannelView.onMessageReplaced
  rw [if_pos passes]
  unfold Channel.replaceMessage
  by_cases there : Item.message prev ∈ view.items
  · have found := replaced.mpr there
    simp only [found, decide_true, if_true]
    let between : ChannelView M :=
      { view with channel := { view.channel with
          messages := (view.channel.messages.replaceItemHint index (.message prev) (.message replacement)).1 } }
    obtain ⟨channel, layouts⟩ := messageReplaced_laidOut between index (.message replacement) once there laidOut
    have itemsBehind : (between.messageReplaced index (.message prev) (.message replacement)).items =
        view.items.map (fun item => if item = .message prev then .message replacement else item) := by
      rw [ChannelView.items, channel]
      exact items
    refine ⟨?_, itemsBehind, ?_⟩
    · show (between.messageReplaced index (.message prev) (.message replacement)).limit = view.limit
      rw [ChannelView.limit, channel]
      exact limit
    · show (between.messageReplaced index (.message prev) (.message replacement)).LaidOut
      rw [ChannelView.LaidOut, itemsBehind]
      exact layouts
  · have missing := mt replaced.mp there
    simp only [missing, decide_false, Bool.false_eq_true, if_false]
    refine ⟨limit, items, ?_⟩
    unfold ChannelView.LaidOut at laidOut ⊢
    rw [laidOut]
    have unchanged := map_absent there (.message replacement)
    exact unchanged.symm.trans items.symm

/-- Where both messages pass the filters or neither does, it does not matter whether the
filters come before or behind the replacement. -/
theorem filter_map_replaced {included : M → Bool} {signalled : List M} {prev replacement : M}
    (same : prev ∈ signalled → included prev = included replacement) :
    (signalled.map fun m => if m = prev then replacement else m).filter included =
      (signalled.filter included).map fun m => if m = prev then replacement else m := by
  rw [List.filter_map]
  congr 1
  apply List.filter_congr
  intro m member
  show included (if m = prev then replacement else m) = included m
  split
  · next isPrev =>
    subst isPrev
    exact (same member).symm
  · rfl

/-- A replacement keeps what is shown in step. -/
theorem Shows.replaced {shown : List M} {items : List (Item M)} (shows : Shows limit shown items)
    (prev replacement : M) :
    Shows limit (shown.map fun m => if m = prev then replacement else m)
      (items.map fun item => if item = .message prev then .message replacement else item) := by
  obtain ⟨evicted, whole, room⟩ := shows
  refine ⟨evicted.map fun m => if m = prev then replacement else m, ?_, ?_⟩
  · rw [whole, List.map_append, messagesOf_replaced]
  · rw [List.map_eq_nil_iff, List.length_map]
    exact room

/-- The proxy channel is full of messages that were signalled behind this one. -/
def Watched.Evicted (filters : Filters M) (watched : Watched M) (m : M) : Prop :=
  watched.view.items.length = watched.view.limit ∧
    (messagesOf watched.view.items).length ≤
      ((watched.signalled.drop (watched.signalled.idxOf m + 1)).filter filters.shouldIncludeMessage).length

instance (filters : Filters M) (watched : Watched M) (m : M) : Decidable (watched.Evicted filters m) :=
  inferInstanceAs (Decidable (_ ∧ _))

/-- All that is shown was signalled behind a message that was evicted. -/
theorem Watched.Evicted.behind {m : M} (evicted : watched.Evicted filters m) (settled : watched.Settled filters limit)
    (member : m ∈ watched.signalled) :
    ∃ front back, watched.signalled = front ++ m :: back ∧ m ∉ front ∧
      messagesOf watched.view.items <:+ back.filter filters.shouldIncludeMessage := by
  obtain ⟨front, back, whole, new⟩ := List.eq_append_cons_of_mem member
  refine ⟨front, back, whole, new, ?_⟩
  obtain ⟨_, count⟩ := evicted
  have index : watched.signalled.idxOf m = front.length := by
    rw [whole, List.idxOf_append, if_neg new, List.idxOf_cons_self, Nat.zero_add]
  have rest : watched.signalled.drop (watched.signalled.idxOf m + 1) = back := by
    rw [index, whole]
    simp
  rw [rest] at count
  obtain ⟨gone, shown, _⟩ := settled.shown
  have isShown : messagesOf watched.view.items <:+ watched.signalled.filter filters.shouldIncludeMessage :=
    ⟨gone, shown.symm⟩
  have isBehind : back.filter filters.shouldIncludeMessage <:+
      watched.signalled.filter filters.shouldIncludeMessage := by
    rw [whole]
    exact ((List.suffix_cons m back).trans (List.suffix_append front _)).filter _
  exact List.suffix_of_suffix_length_le isShown isBehind count

/-- What comes in the place of a message that was evicted is not shown either. -/
theorem Watched.Evicted.shows {m : M} (evicted : watched.Evicted filters m) (settled : watched.Settled filters limit)
    (member : m ∈ watched.signalled) (replacement : M) :
    Shows watched.view.limit ((watched.signalled.replace m replacement).filter filters.shouldIncludeMessage)
      watched.view.items := by
  obtain ⟨front, back, whole, new, between_, same⟩ := evicted.behind settled member
  refine ⟨(front ++ [replacement]).filter filters.shouldIncludeMessage ++ between_, ?_, .inr evicted.1⟩
  rw [whole, List.replace_append_right new, List.replace_cons_self, List.append_assoc, same,
    ← List.filter_append]
  simp

theorem Watched.Evicted.absent {m : M} (evicted : watched.Evicted filters m) (settled : watched.Settled filters limit)
    (member : m ∈ watched.signalled)
    (once : filters.shouldIncludeMessage m = true → watched.signalled.count m = 1) :
    Item.message m ∉ watched.view.items := by
  obtain ⟨front, back, whole, _, isSuffix⟩ := evicted.behind settled member
  intro shown
  have inBehind := isSuffix.subset (List.mem_filterMap.mpr ⟨_, shown, rfl⟩)
  obtain ⟨inBack, passes⟩ := List.mem_filter.mp inBehind
  have again : 0 < back.count m := List.count_pos_iff.mpr inBack
  have one := once passes
  rw [whole, List.count_append, List.count_cons_self] at one
  omega

/-- A replacement that passes the filters where the replaced message does comes in its place. -/
theorem onMessageReplaced_same {index : Nat} {prev replacement : M} (settled : watched.Settled filters limit)
    (small : limit ≤ 2 ^ 31)
    (once : prev ∈ watched.signalled → filters.shouldIncludeMessage prev = true →
      watched.signalled.count prev = 1)
    (same : prev ∈ watched.signalled →
      filters.shouldIncludeMessage prev = filters.shouldIncludeMessage replacement) :
    Watched.Settled filters limit
      ⟨watched.signalled.replace prev replacement,
        watched.view.onMessageReplaced filters index prev replacement⟩ := by
  by_cases passes : filters.shouldIncludeMessage replacement = true
  · have few : watched.signalled.count prev ≤ 1 := by
      by_cases member : prev ∈ watched.signalled
      · exact Nat.le_of_eq (once member ((same member).trans passes))
      · rw [List.count_eq_zero.mpr member]
        exact Nat.zero_le 1
    -- what is shown was signalled, so it is there once as well
    have fewItems : watched.view.items.count (.message prev) ≤ 1 := by
      obtain ⟨evicted, whole, _⟩ := settled.shown
      have sub : (messagesOf watched.view.items).Sublist watched.signalled :=
        (List.sublist_append_right evicted _).trans (whole ▸ List.filter_sublist)
      rw [count_messagesOf]
      exact (sub.count_le prev).trans few
    obtain ⟨limitBehind, items, laidOut⟩ := onMessageReplaced_items watched.view index passes
      settled.laidOut fewItems (settled.limited ▸ small)
    constructor
    case toMirrors =>
      constructor
      case shown =>
        rw [replace_eq_map few, filter_map_replaced same, limitBehind, items]
        exact settled.shown.replaced prev replacement
      case laidOut => exact laidOut
    case last =>
      intro item found
      rw [items, List.getLast?_map, Option.map_eq_some_iff] at found
      obtain ⟨old, isLast, rfl⟩ := found
      obtain ⟨m, rfl⟩ := settled.last old isLast
      by_cases isPrev : Item.message m = .message prev
      · exact ⟨replacement, if_pos isPrev⟩
      · exact ⟨m, if_neg isPrev⟩
    case limited => rw [limitBehind, settled.limited]
  · unfold ChannelView.onMessageReplaced
    rw [if_neg passes]
    have unchanged : (watched.signalled.replace prev replacement).filter filters.shouldIncludeMessage =
        watched.signalled.filter filters.shouldIncludeMessage := by
      by_cases member : prev ∈ watched.signalled
      · exact filter_replace_excluded (by rw [same member]; exact passes) passes
      · rw [List.replace_of_not_mem member]
    refine ⟨⟨?_, settled.laidOut⟩, settled.last, settled.limited⟩
    rw [unchanged]
    exact settled.shown

/-- Where the replaced message was evicted, the view stays as it is. -/
theorem onMessageReplaced_evicted {index : Nat} {prev replacement : M} (settled : watched.Settled filters limit)
    (small : limit ≤ 2 ^ 31) (member : prev ∈ watched.signalled)
    (once : filters.shouldIncludeMessage prev = true → watched.signalled.count prev = 1)
    (evicted : watched.Evicted filters prev) :
    Watched.Settled filters limit
      ⟨watched.signalled.replace prev replacement,
        watched.view.onMessageReplaced filters index prev replacement⟩ := by
  have shown := evicted.shows settled member replacement
  by_cases passes : filters.shouldIncludeMessage replacement = true
  · have absent := evicted.absent settled member once
    have none_ : watched.view.items.count (.message prev) ≤ 1 := by
      rw [List.count_eq_zero.mpr absent]
      exact Nat.zero_le 1
    obtain ⟨limitBehind, items, laidOut⟩ := onMessageReplaced_items watched.view index passes
      settled.laidOut none_ (settled.limited ▸ small)
    rw [map_absent absent] at items
    refine ⟨⟨?_, laidOut⟩, ?_, limitBehind.trans settled.limited⟩
    · rw [limitBehind, items]
      exact shown
    · rw [items]
      exact settled.last
  · unfold ChannelView.onMessageReplaced
    rw [if_neg passes]
    exact ⟨⟨shown, settled.laidOut⟩, settled.last, settled.limited⟩

theorem onMessageReplaced_settled {index : Nat} {prev replacement : M} (settled : watched.Settled filters limit)
    (small : limit ≤ 2 ^ 31)
    (same : prev ∈ watched.signalled →
      (filters.shouldIncludeMessage prev = true → watched.signalled.count prev = 1) ∧
        (filters.shouldIncludeMessage prev = filters.shouldIncludeMessage replacement ∨
          watched.Evicted filters prev)) :
    Watched.Settled filters limit
      ⟨watched.signalled.replace prev replacement,
        watched.view.onMessageReplaced filters index prev replacement⟩ := by
  by_cases member : prev ∈ watched.signalled
  · obtain ⟨once, alike | evicted⟩ := same member
    · exact onMessageReplaced_same settled small (fun _ => once) (fun _ => alike)
    · exact onMessageReplaced_evicted settled small member once evicted
  · exact onMessageReplaced_same settled small (fun member' => absurd member' member)
      (fun member' => absurd member' member)

end

end

end Forserino.Messages
