import Forserino.Messages.BoundedList
import Forserino.Messages.Filling
import Forserino.Messages.ChannelView

/-! What a bounded list of items shows of the messages that it should show: the last ones,
and all of them as long as it has never been full.
-/

set_option autoImplicit false

namespace Forserino.Messages

open Forserino.Qt

universe u

section
variable {M : Type u}

/-- The messages of the underlying channel among the items of the proxy channel. -/
def messagesOf (items : List (Item M)) : List M := items.filterMap Item.message?

@[simp] theorem messagesOf_nil : messagesOf ([] : List (Item M)) = [] := rfl

@[simp] theorem messagesOf_append (front back : List (Item M)) :
    messagesOf (front ++ back) = messagesOf front ++ messagesOf back := List.filterMap_append

@[simp] theorem messagesOf_message (m : M) (items : List (Item M)) :
    messagesOf (.message m :: items) = m :: messagesOf items := rfl

@[simp] theorem messagesOf_dayChange (date : Int) (items : List (Item M)) :
    messagesOf (.dayChange date :: items) = messagesOf items := rfl

@[simp] theorem messagesOf_map (messages : List M) :
    messagesOf (messages.map Item.message) = messages := by
  induction messages with
  | nil => rfl
  | cons m messages ih => simp only [List.map_cons, messagesOf_message, ih]

def Shows (limit : Nat) (shown : List M) (items : List (Item M)) : Prop :=
  ∃ evicted, shown = evicted ++ messagesOf items ∧ (evicted = [] ∨ items.length = limit)

theorem Shows.subset {limit : Nat} {shown : List M} {items : List (Item M)}
    (shows : Shows limit shown items) : messagesOf items ⊆ shown := by
  obtain ⟨evicted, rfl, _⟩ := shows
  exact List.subset_append_right _ _

theorem shows_iff {limit : Nat} {shown : List M} {items : List (Item M)} :
    Shows limit shown items ↔
      messagesOf items <:+ shown ∧ (shown.length = (messagesOf items).length ∨ items.length = limit) := by
  constructor
  · rintro ⟨evicted, rfl, room⟩
    refine ⟨List.suffix_append evicted _, ?_⟩
    rcases room with rfl | full
    · exact .inl rfl
    · exact .inr full
  · rintro ⟨⟨evicted, rfl⟩, room⟩
    refine ⟨evicted, rfl, ?_⟩
    rcases room with same | full
    · rw [List.length_append] at same
      exact .inl (List.eq_nil_of_length_eq_zero (by omega))
    · exact .inr full

instance [DecidableEq M] (limit : Nat) (shown : List M) (items : List (Item M)) :
    Decidable (Shows limit shown items) :=
  decidable_of_iff _ shows_iff.symm

/-- A new item comes to its place, and the first one goes where there is no room. -/
theorem Shows.insert {limit : Nat} {shown pre : List M} {front back : List (Item M)}
    (shows : Shows limit shown (front ++ back)) (behind : shown = pre ++ messagesOf back)
    (item : Item M) :
    Shows limit (pre ++ messagesOf [item] ++ messagesOf back)
      ((front ++ [item]).drop (if (front ++ back).length = limit then 1 else 0) ++ back) := by
  obtain ⟨evicted, same, room⟩ := shows
  have front_ : pre = evicted ++ messagesOf front := by
    rw [behind, messagesOf_append, ← List.append_assoc] at same
    exact List.append_cancel_right same
  have length : (front ++ [item]).length = front.length + 1 := by simp
  refine ⟨evicted ++ messagesOf ((front ++ [item]).take (if (front ++ back).length = limit then 1 else 0)),
    ?_, ?_⟩
  · rw [messagesOf_append _ back, ← List.append_assoc, List.append_assoc evicted, ← messagesOf_append,
      List.take_append_drop, front_, messagesOf_append]
    simp only [List.append_assoc]
  · by_cases full : (front ++ back).length = limit
    · right
      rw [List.length_append] at full
      simp only [List.length_append, List.length_drop, full, if_true]
      simp only [List.length_cons, List.length_nil]
      omega
    · left
      have nothing : evicted = [] := by
        rcases room with nothing | full'
        · exact nothing
        · exact absurd full' full
      rw [if_neg full, List.take_zero, nothing]
      rfl

theorem message_new {items init tail : List (Item M)} {m : M} (distinct : (messagesOf items).Nodup)
    (shape : items = init ++ .message m :: tail) : Item.message m ∉ init := by
  intro member
  rw [shape, messagesOf_append, messagesOf_message] at distinct
  have inInit : m ∈ messagesOf init := List.mem_filterMap.mpr ⟨_, member, rfl⟩
  exact (List.nodup_append.mp distinct).2.2 m inInit m List.mem_cons_self rfl

/-- Day-change messages are system messages, so they have no id that counts. -/
theorem existingMessageIds_items (info : M → MessageInfo) (items : List (Item M)) :
    existingMessageIds (Item.info info) items = existingMessageIds info (messagesOf items) := by
  unfold existingMessageIds
  induction items with
  | nil => rfl
  | cons item items ih =>
    cases item with
    | message m =>
      by_cases counts : (!((info m).system || (info m).id.isEmpty)) = true
      · simp only [messagesOf_message, List.filter_cons, Item.info_message, counts, if_true,
          List.map_cons, ih]
      · simp only [messagesOf_message, List.filter_cons, Item.info_message, counts]
        exact ih
    | dayChange date =>
      simp only [messagesOf_dayChange, List.filter_cons, Item.info_dayChange]
      exact ih

end

/-! ## Filling in -/

section
variable {M : Type u} (info : M → MessageInfo) (included : M → Bool)

/-- The queue is full and would have to let the message go for itself. -/
def Lost (limit : Nat) (items : List (Item M)) (m : M) : Prop :=
  items.length = limit ∧ place (Item.info info) items (.message m) = 0

/-- A message that the proxy does not know already comes to the same place as in the underlying
channel, in front of as many shown messages, or it belongs to those that were let go. -/
def Placed (limit : Nat) (signalled : List M) (items : List (Item M)) (m : M) : Prop :=
  (existingMessageIds (Item.info info) items).contains (info m).id = true ∨
    if (existingMessageIds info signalled).contains (info m).id then Lost info limit items m
    else
      ((signalled.drop (place info signalled m)).filter included).length =
          (messagesOf (items.drop (place (Item.info info) items (.message m)))).length ∨
        Lost info limit items m ∧
          (messagesOf (items.drop (place (Item.info info) items (.message m)))).length ≤
            ((signalled.drop (place info signalled m)).filter included).length

instance (limit : Nat) (items : List (Item M)) (m : M) : Decidable (Lost info limit items m) :=
  inferInstanceAs (Decidable (_ ∧ _))

instance (limit : Nat) (signalled : List M) (items : List (Item M)) (m : M) :
    Decidable (Placed info included limit signalled items m) :=
  inferInstanceAs (Decidable (_ ∨ _))

/-- The loops over the messages that were signalled and over those that pass the filters have
come to places of the two snapshots. -/
structure Filling (signalled : List M) (items : List (Item M)) (messages front : List M) (k : Nat)
    (lastMsg : M) (queue : LimitedQueue (Item M)) (frontItems : List (Item M)) (j : Nat)
    (lastItem : Item M) : Prop where
  last : (front ++ signalled.drop k).getLast? = some lastMsg
  distinct : (front ++ signalled.drop k ++ messages).Nodup
  ahead : ∀ m ∈ messages, k ≤ place info signalled m
  ascending : messages.Pairwise fun a b => (info a).serverReceivedTime ≤ (info b).serverReceivedTime
  queued : queue.getSnapshot = frontItems ++ items.drop j
  lastQueued : (frontItems ++ items.drop j).getLast? = some lastItem
  isMessage : ∃ m, lastItem = .message m
  aheadItems : ∀ m ∈ messages, included m = true → j ≤ place (Item.info info) items (.message m)
  shows : Shows queue.limit ((front ++ signalled.drop k).filter included) (frontItems ++ items.drop j)

variable {info included} {signalled : List M} {items : List (Item M)} {messages front : List M} {k : Nat}
  {lastMsg m : M} {queue : LimitedQueue (Item M)} {frontItems : List (Item M)} {j : Nat}
  {lastItem : Item M}

/-- A message that comes to its place is no longer among those that are left. -/
theorem put_perm (signalled front messages : List M) {k i : Nat} (ordered : k ≤ i) (m : M) :
    (front ++ between signalled k i ++ [m] ++ signalled.drop i ++ messages).Perm
      (front ++ signalled.drop k ++ m :: messages) := by
  rw [drop_split signalled ordered]
  simp only [List.append_assoc, List.cons_append, List.nil_append]
  apply List.Perm.append_left
  apply List.Perm.append_left
  exact List.perm_middle.symm

/-- The next message is not to be filled in. -/
theorem Filling.skip (filling : Filling info included signalled items (m :: messages) front k lastMsg
      queue frontItems j lastItem) :
    Filling info included signalled items messages front k lastMsg queue frontItems j lastItem := by
  have distinct := filling.distinct
  constructor
  case last => exact filling.last
  case distinct => exact distinct.sublist (List.Sublist.append_left (List.sublist_cons_self _ _) _)
  case ahead => exact fun other member => filling.ahead other (List.mem_cons_of_mem _ member)
  case ascending => exact (List.pairwise_cons.mp filling.ascending).2
  case queued => exact filling.queued
  case lastQueued => exact filling.lastQueued
  case isMessage => exact filling.isMessage
  case aheadItems => exact fun other member => filling.aheadItems other (List.mem_cons_of_mem _ member)
  case shows => exact filling.shows

/-- The next message comes to its place among those that were signalled. What the queue does
meanwhile is left open. -/
theorem Filling.put (filling : Filling info included signalled items (m :: messages) front k lastMsg
      queue frontItems j lastItem) {next : M} {behind : LimitedQueue (Item M)}
    {frontBehind : List (Item M)} {jBehind : Nat} {lastBehind : Item M}
    (last : (front ++ between signalled k (place info signalled m) ++ m ::
      signalled.drop (place info signalled m)).getLast? = some next)
    (queued : behind.getSnapshot = frontBehind ++ items.drop jBehind)
    (lastQueued : (frontBehind ++ items.drop jBehind).getLast? = some lastBehind)
    (isMessage : ∃ m, lastBehind = .message m)
    (aheadItems : ∀ other ∈ messages, included other = true →
      jBehind ≤ place (Item.info info) items (.message other))
    (shows : Shows behind.limit ((front ++ between signalled k (place info signalled m) ++ m ::
      signalled.drop (place info signalled m)).filter included) (frontBehind ++ items.drop jBehind)) :
    Filling info included signalled items messages
      (front ++ between signalled k (place info signalled m) ++ [m]) (place info signalled m)
      next behind frontBehind jBehind lastBehind := by
  have shape : front ++ between signalled k (place info signalled m) ++ [m] ++
      signalled.drop (place info signalled m) =
      front ++ between signalled k (place info signalled m) ++ m ::
        signalled.drop (place info signalled m) := by
    simp
  have ascending := List.pairwise_cons.mp filling.ascending
  constructor
  case last => rw [shape, last]
  case distinct =>
    have moved := put_perm signalled front messages (filling.ahead m List.mem_cons_self) m
    exact moved.nodup_iff.mpr filling.distinct
  case ahead => exact fun other member => place_mono info signalled (ascending.1 other member)
  case ascending => exact ascending.2
  case queued => exact queued
  case lastQueued => exact lastQueued
  case isMessage => exact isMessage
  case aheadItems => exact aheadItems
  case shows => rw [shape]; exact shows

/-- Which units are behind a place is the same on both sides where their number is. -/
theorem shows_behind {limit : Nat} {pre shownBehind : List M} {front back : List (Item M)}
    (shows : Shows limit (pre ++ shownBehind) (front ++ back))
    (same : shownBehind.length = (messagesOf back).length) : shownBehind = messagesOf back := by
  obtain ⟨evicted, whole, _⟩ := shows
  rw [messagesOf_append, ← List.append_assoc] at whole
  exact (List.append_inj' whole same).2

theorem Filling.unique (filling : Filling info included signalled items messages front k lastMsg
      queue frontItems j lastItem) :
    ∀ init x tail, frontItems ++ items.drop j = init ++ x :: tail →
      (Item.info info x).system = false ∨ x = lastItem → x ∉ init := by
  obtain ⟨evicted, shown, _⟩ := filling.shows
  have distinct : (messagesOf (frontItems ++ items.drop j)).Nodup := by
    have kept := (List.nodup_append.mp filling.distinct).1
    have filtered := kept.filter included
    rw [shown] at filtered
    exact (List.nodup_append.mp filtered).2.1
  intro init x tail shape needle
  cases x with
  | message m => exact message_new distinct shape
  | dayChange date =>
    rcases needle with notSystem | last
    · cases notSystem
    · obtain ⟨m, same⟩ := filling.isMessage
      rw [same] at last
      cases last

theorem overflow_eq {T : Type u} (queue : LimitedQueue T) :
    overflow queue = if queue.getSnapshot.length = queue.limit then 1 else 0 := by
  have size : queue.getSnapshot.length ≤ queue.limit := queue.buffer.size_le
  have full := LimitedQueue.full_iff (q := queue)
  unfold overflow
  by_cases isFull : queue.buffer.full = true
  · rw [if_pos isFull, if_pos (by have := full.mp isFull; omega)]
  · rw [if_neg isFull, if_neg (by intro same; exact isFull (full.mpr (by omega)))]

/-- A message that is lost would come to the front of a full queue, which then stays as it is. -/
theorem Filling.lost (filling : Filling info included signalled items (m :: messages) front k lastMsg
      queue frontItems j lastItem) (passes : included m = true) (lost : Lost info queue.limit items m) :
    frontItems ++ items.drop j = items ∧
      (frontItems ++ between items j (place (Item.info info) items (.message m)) ++ [Item.message m]).drop
        (overflow queue) ++ items.drop (place (Item.info info) items (.message m)) = items := by
  have size : queue.getSnapshot.length ≤ queue.limit := queue.buffer.size_le
  have ahead := filling.aheadItems m List.mem_cons_self passes
  obtain ⟨full, first⟩ := lost
  rw [first] at ahead
  have start : j = 0 := Nat.le_zero.mp ahead
  subst start
  rw [filling.queued, List.length_append, List.drop_zero] at size
  have nothing : frontItems = [] := List.eq_nil_of_length_eq_zero (by omega)
  have isFull : overflow queue = 1 := by
    rw [overflow_eq, filling.queued, nothing, if_pos]
    simpa using full
  rw [first, isFull, nothing]
  exact ⟨rfl, rfl⟩

/-- The message is shown where it comes to, or would be shown before what the queue still has. -/
theorem Filling.shows_put (filling : Filling info included signalled items (m :: messages) front k lastMsg
      queue frontItems j lastItem) (passes : included m = true)
    (counts : ((signalled.drop (place info signalled m)).filter included).length =
          (messagesOf (items.drop (place (Item.info info) items (.message m)))).length ∨
        Lost info queue.limit items m ∧
          (messagesOf (items.drop (place (Item.info info) items (.message m)))).length ≤
            ((signalled.drop (place info signalled m)).filter included).length) :
    Shows queue.limit ((front ++ between signalled k (place info signalled m) ++ m ::
        signalled.drop (place info signalled m)).filter included)
      ((frontItems ++ between items j (place (Item.info info) items (.message m)) ++ [Item.message m]).drop
        (overflow queue) ++ items.drop (place (Item.info info) items (.message m))) := by
  have split := drop_split signalled (filling.ahead m List.mem_cons_self)
  have splitItems := drop_split items (filling.aheadItems m List.mem_cons_self passes)
  have shows := filling.shows
  rw [split, ← List.append_assoc, List.filter_append] at shows
  rw [List.filter_append, List.filter_cons_of_pos passes]
  rcases counts with same | ⟨lost, fewer⟩
  · rw [splitItems, ← List.append_assoc] at shows
    have behind := shows_behind shows same
    have inserted := shows.insert (by rw [behind]) (.message m)
    have isFull : overflow queue = if (frontItems ++ between items j
        (place (Item.info info) items (.message m)) ++
        items.drop (place (Item.info info) items (.message m))).length = queue.limit then 1 else 0 := by
      rw [overflow_eq, filling.queued, splitItems, ← List.append_assoc]
    rw [isFull, behind]
    simpa using inserted
  · obtain ⟨whole, stays⟩ := filling.lost passes lost
    rw [whole] at shows
    rw [stays]
    obtain ⟨evicted, shown, _⟩ := shows
    have first : place (Item.info info) items (.message m) = 0 := lost.2
    rw [first, List.drop_zero] at fewer
    have suffix : messagesOf items <:+ (signalled.drop (place info signalled m)).filter included :=
      List.suffix_of_suffix_length_le ⟨evicted, shown.symm⟩ (List.suffix_append _ _) fewer
    obtain ⟨between_, same⟩ := suffix
    refine ⟨(front ++ between signalled k (place info signalled m)).filter included ++ m :: between_, ?_, ?_⟩
    · rw [← same]
      simp
    · exact .inr lost.1

variable [DecidableEq M]

/-- What passes the filters is filled into the queue as it is into the underlying channel. -/
theorem fillLoop_shows (filling : Filling info included signalled items messages front k lastMsg
      queue frontItems j lastItem)
    (known : ∀ id, (existingMessageIds (Item.info info) items).contains id = true →
      (existingMessageIds info signalled).contains id = true)
    (placed : ∀ m ∈ messages, included m = true → Placed info included queue.limit signalled items m)
    (anyInserted anyQueued : Bool) :
    let behind := (fillLoop (Item.info info) queueBefore queueAfter items
      ((messages.filter included).map Item.message) lastItem queue anyQueued).1
    behind.limit = queue.limit ∧ (∃ m, behind.getSnapshot.getLast? = some (.message m)) ∧
      Shows queue.limit ((fillLoop info putBefore putAfter signalled messages lastMsg
        (front ++ signalled.drop k) anyInserted).1.filter included) behind.getSnapshot := by
  induction messages generalizing front k lastMsg queue frontItems j lastItem anyInserted anyQueued with
  | nil =>
    obtain ⟨m, same⟩ := filling.isMessage
    refine ⟨rfl, ⟨m, ?_⟩, ?_⟩
    · show queue.getSnapshot.getLast? = _
      rw [filling.queued, filling.lastQueued, same]
    · show Shows _ _ queue.getSnapshot
      rw [filling.queued]
      exact filling.shows
  | cons m messages ih =>
    rw [List.forall_mem_cons] at placed
    have ascending := (List.pairwise_cons.mp filling.ascending).1
    by_cases passes : included m = true
    · have placed_ := placed.1 passes
      rw [List.filter_cons_of_pos passes, List.map_cons]
      by_cases queued : (existingMessageIds (Item.info info) items).contains (info m).id = true
      · rw [fillLoop_known (Item.info info) queued, fillLoop_known info (known _ queued)]
        exact ih filling.skip placed.2 anyInserted anyQueued
      · -- The queue takes the message in, or lets it go at once.
        rcases placed_ with isQueued | placed_
        · exact absurd isQueued queued
        have new : ¬ (existingMessageIds (Item.info info) items).contains
            (Item.info info (.message m)).id = true := queued
        obtain ⟨nextItem, behind, which, limit, inserted, lastBehind, taken⟩ :=
          fillLoop_queue (Item.info info) filling.queued new
            (filling.aheadItems m List.mem_cons_self passes) filling.lastQueued filling.unique
            ((messages.filter included).map Item.message) anyQueued
        rw [taken]
        have isMessage : ∃ other, nextItem = .message other := by
          rcases which with same | same
          · exact same ▸ filling.isMessage
          · exact ⟨m, same⟩
        have aheadItems : ∀ other ∈ messages, included other = true →
            place (Item.info info) items (.message m) ≤ place (Item.info info) items (.message other) :=
          fun other member _ => place_mono (Item.info info) items (ascending other member)
        rw [← limit] at placed
        by_cases existing : (existingMessageIds info signalled).contains (info m).id = true
        · rw [if_pos existing] at placed_
          rw [fillLoop_known info existing]
          obtain ⟨whole, stays⟩ := filling.lost passes placed_
          have shows := filling.shows
          rw [whole, ← stays] at shows
          have next : Filling info included signalled items messages front k lastMsg behind _ _ nextItem :=
            { filling.skip with
              queued := inserted
              lastQueued := inserted ▸ lastBehind
              isMessage := isMessage
              aheadItems := aheadItems
              shows := limit ▸ shows }
          rw [← limit]
          exact ih next placed.2 anyInserted true
        · rw [if_neg existing] at placed_
          obtain ⟨next, last, put⟩ := fillLoop_put info existing
            (filling.ahead m List.mem_cons_self) filling.last (List.nodup_append.mp filling.distinct).1
            messages anyInserted
          rw [put]
          have shows := filling.shows_put passes placed_
          rw [← limit] at shows
          have filled := filling.put last inserted (inserted ▸ lastBehind) isMessage aheadItems shows
          have filledIn := ih filled placed.2 true true
          rw [List.append_assoc _ [m], List.singleton_append, limit] at filledIn
          exact filledIn
    · rw [List.filter_cons_of_neg passes]
      by_cases existing : (existingMessageIds info signalled).contains (info m).id = true
      · rw [fillLoop_known info existing]
        exact ih filling.skip placed.2 anyInserted anyQueued
      · -- Only the underlying channel takes the message in.
        have split := drop_split signalled (filling.ahead m List.mem_cons_self)
        obtain ⟨next, last, put⟩ := fillLoop_put info existing
          (filling.ahead m List.mem_cons_self) filling.last (List.nodup_append.mp filling.distinct).1
          messages anyInserted
        rw [put]
        have shows := filling.shows
        rw [split, ← List.append_assoc, List.filter_append] at shows
        have filled := filling.put last filling.queued filling.lastQueued filling.isMessage
          (fun other member => filling.aheadItems other (List.mem_cons_of_mem _ member))
          (by rw [List.filter_append, List.filter_cons_of_neg passes]; exact shows)
        have filledIn := ih filled placed.2 true anyQueued
        rw [List.append_assoc _ [m], List.singleton_append] at filledIn
        exact filledIn

/-- Where nothing is shown yet, the new messages are shown in their order. -/
theorem fillLoop_hidden (hidden : signalled.filter included = [])
    (last : (front ++ signalled.drop k).getLast? = some lastMsg)
    (distinct : (front ++ signalled.drop k ++ messages).Nodup)
    (ahead : ∀ m ∈ messages, k ≤ place info signalled m)
    (ascending : messages.Pairwise fun a b => (info a).serverReceivedTime ≤ (info b).serverReceivedTime)
    (new : ∀ m ∈ messages, included m = true →
      ¬ (existingMessageIds info signalled).contains (info m).id = true) (anyInserted : Bool) :
    (fillLoop info putBefore putAfter signalled messages lastMsg (front ++ signalled.drop k)
      anyInserted).1.filter included = front.filter included ++ messages.filter included := by
  have hiddenBehind (i : Nat) : (signalled.drop i).filter included = [] := by
    have sub := (List.drop_sublist i signalled).filter included
    rw [hidden] at sub
    exact List.sublist_nil.mp sub
  induction messages generalizing front k lastMsg anyInserted with
  | nil =>
    rw [fillLoop, List.filter_append, hiddenBehind]
    rfl
  | cons m messages ih =>
    rw [List.forall_mem_cons] at new ahead
    have kept := (List.nodup_append.mp distinct).1
    by_cases existing : (existingMessageIds info signalled).contains (info m).id = true
    · have excluded : ¬ included m = true := fun passes => new.1 passes existing
      rw [fillLoop_known info existing, List.filter_cons_of_neg excluded]
      apply ih last _ ahead.2 (List.pairwise_cons.mp ascending).2 new.2
      exact distinct.sublist (List.Sublist.append_left (List.sublist_cons_self _ _) _)
    · obtain ⟨next, nextLast, put⟩ := fillLoop_put info existing ahead.1 last kept messages anyInserted
      have shape : front ++ between signalled k (place info signalled m) ++ m ::
          signalled.drop (place info signalled m) =
          front ++ between signalled k (place info signalled m) ++ [m] ++
            signalled.drop (place info signalled m) := by
        simp
      have split := drop_split signalled ahead.1
      have moved := put_perm signalled front messages ahead.1 m
      have middle : (between signalled k (place info signalled m)).filter included = [] := by
        have none := hiddenBehind k
        rw [split, List.filter_append] at none
        exact (List.append_eq_nil_iff.mp none).1
      rw [put, shape]
      rw [ih (shape ▸ nextLast) (moved.nodup_iff.mpr distinct)
        (fun other member => place_mono info signalled ((List.pairwise_cons.mp ascending).1 other member))
        (List.pairwise_cons.mp ascending).2 new.2 true]
      rw [List.filter_append, List.filter_append, middle, List.append_nil, List.append_assoc,
        ← List.filter_append]
      rfl

end

end Forserino.Messages
