import Forserino.Messages.BoundedList
import Forserino.Messages.Filling
import Mathlib.Data.List.Nodup
import Mathlib.Data.List.Perm.Subperm

/-! What filling in missing messages does to a channel: the messages stay in the order of
their times, and where there is room none is lost or told twice.

A message is found again as the same object, so a channel that holds one object twice can
mix up its places.
-/

set_option autoImplicit false

namespace Forserino.Messages

open Forserino.Qt

universe u

section
variable {T : Type u} (info : T → MessageInfo)

def InOrder (messages : List T) : Prop :=
  messages.Pairwise fun a b => (info a).serverReceivedTime ≤ (info b).serverReceivedTime

/-- The messages that are filled in. -/
def missing (snapshot messages : List T) : List T :=
  messages.filter fun msg => !(existingMessageIds info snapshot).contains (info msg).id

theorem missing_cons_known {snapshot : List T} {msg : T} (known : (existingMessageIds info snapshot).contains (info msg).id = true)
    (rest : List T) : missing info snapshot (msg :: rest) = missing info snapshot rest := by
  rw [missing, List.filter_cons_of_neg (by simpa using known)]
  rfl

theorem missing_cons_new {snapshot : List T} {msg : T} (new : ¬ (existingMessageIds info snapshot).contains (info msg).id = true)
    (rest : List T) : missing info snapshot (msg :: rest) = msg :: missing info snapshot rest := by
  rw [missing, List.filter_cons_of_pos (by simpa using new)]
  rfl

/-- A message is missing if no message of the channel has its id. -/
theorem mem_missing {snapshot messages : List T} {msg : T} (given : msg ∈ messages)
    (absent : ∀ m ∈ snapshot, (info m).id ≠ (info msg).id) : msg ∈ missing info snapshot messages := by
  apply List.mem_filter.mpr
  refine ⟨given, ?_⟩
  rw [Bool.not_eq_true', ← Bool.not_eq_true, List.contains_iff_mem]
  intro known
  obtain ⟨m, member, same⟩ := List.mem_map.mp known
  exact absent m (List.mem_filter.mp member).1 same

section
variable {info}

/-- A message in front of the place does not come later. -/
theorem not_later_of_between {snapshot : List T} {k : Nat} {msg m : T}
    (among : m ∈ between snapshot k (place info snapshot msg)) :
    comesLater info msg m = false := by
  obtain ⟨j, inside, rfl⟩ := List.mem_iff_getElem.mp among
  simp only [between, List.length_take, List.length_drop] at inside
  simp only [between, List.getElem_take, List.getElem_drop]
  exact List.not_of_lt_findIdx (show k + j < place info snapshot msg by omega)

/-- From the place on, the messages of the server come later. -/
theorem later_of_drop {snapshot : List T} {msg y : T} (ascending : InOrder info (snapshot.filter fun m => !(info m).system))
    (among : y ∈ snapshot.drop (place info snapshot msg)) (server : (info y).system = false) :
    (info msg).serverReceivedTime < (info y).serverReceivedTime := by
  cases found : snapshot.find? (comesLater info msg) with
  | none =>
    rw [find_none_place info found, List.drop_length] at among
    cases among
  | some needle =>
    have later := List.find?_some found
    simp only [comesLater, Bool.and_eq_true, Bool.not_eq_true', decide_eq_true_eq] at later
    have behind := find_place info found
    rw [behind] at among
    rcases List.mem_cons.mp among with rfl | after
    · exact later.2
    · have kept : InOrder info ((snapshot.drop (place info snapshot msg)).filter fun m => !(info m).system) :=
        ascending.sublist ((List.drop_sublist _ _).filter _)
      rw [behind, List.filter_cons_of_pos (by simp [later.1])] at kept
      have next := (List.pairwise_cons.mp kept).1 y (List.mem_filter.mpr ⟨after, by simp [server]⟩)
      exact Int.lt_of_lt_of_le later.2 next

end

/-! ## What an insertion adds and loses -/

/-- The queue has taken the item somewhere, or it is as it was. -/
def Takes (queue : LimitedQueue T) (item : T) (taken : LimitedQueue T) : Prop :=
  taken = queue ∨ ∃ pos, taken = { queue with buffer := queue.buffer.insert pos item }

theorem Takes.cases {queue taken : LimitedQueue T} {item : T} (takes : Takes queue item taken) :
    taken.getSnapshot = queue.getSnapshot ∨ ∃ front back n, queue.getSnapshot = front ++ back ∧
      taken.getSnapshot = (front ++ item :: back).drop n := by
  rcases takes with rfl | ⟨pos, rfl⟩
  · exact .inl rfl
  · have split : queue.getSnapshot = queue.buffer.items.take pos ++ queue.buffer.items.drop pos :=
      (List.take_append_drop _ _).symm
    show (queue.buffer.insert pos item).items = _ ∨ ∃ front back n, _ ∧ (queue.buffer.insert pos item).items = _
    unfold CircularBuffer.insert
    split
    · split
      · exact .inl rfl
      · exact .inr ⟨_, _, 1, split, List.drop_one.symm⟩
    · exact .inr ⟨_, _, 0, split, rfl⟩

/-- Nothing but the item is new. -/
theorem Takes.subperm {queue taken : LimitedQueue T} {item : T} (takes : Takes queue item taken) :
    taken.getSnapshot.Subperm (item :: queue.getSnapshot) := by
  rcases takes.cases with same | ⟨front, back, n, split, inserted⟩
  · rw [same]
    exact (List.sublist_cons_self _ _).subperm
  · rw [inserted, split]
    exact (List.drop_sublist _ _).subperm.trans List.perm_middle.subperm

/-- Of the other items a first part goes, and the rest stays in its order. -/
theorem Takes.suffix {queue taken : LimitedQueue T} {item : T} (takes : Takes queue item taken) {p : T → Bool}
    (other : p item = false) : taken.getSnapshot.filter p <:+ queue.getSnapshot.filter p := by
  rcases takes.cases with same | ⟨front, back, n, split, inserted⟩
  · rw [same]
  · have whole : queue.getSnapshot.filter p = (front ++ item :: back).filter p := by
      rw [split, List.filter_append, List.filter_append, List.filter_cons_of_neg (by simp [other])]
    rw [inserted, whole]
    exact (List.drop_suffix n _).filter p

/-- With room, the item is there behind the insertion next to an item of the queue. -/
theorem insert_perm {queue : LimitedQueue T} (room : queue.getSnapshot.length < queue.limit) (pos : Nat) (item : T) :
    ({ queue with buffer := queue.buffer.insert pos item } : LimitedQueue T).getSnapshot.Perm
      (item :: queue.getSnapshot) := by
  have notFull : ¬ queue.buffer.full = true := by
    rw [LimitedQueue.full_iff, not_not]
    exact room
  show (queue.buffer.insert pos item).items.Perm _
  rw [CircularBuffer.insert]
  simp only [if_neg notFull]
  have moved : (queue.buffer.items.take pos ++ item :: queue.buffer.items.drop pos).Perm
      (item :: (queue.buffer.items.take pos ++ queue.buffer.items.drop pos)) := List.perm_middle
  rw [List.take_append_drop] at moved
  exact moved

variable [DecidableEq T]

theorem queueBefore_takes (needle item : T) (queue : LimitedQueue T) : Takes queue item (queueBefore needle item queue) := by
  unfold queueBefore LimitedQueue.insertBefore
  split
  · next i _ => exact .inr ⟨i, rfl⟩
  · exact .inl rfl

theorem queueAfter_takes (needle item : T) (queue : LimitedQueue T) : Takes queue item (queueAfter needle item queue) := by
  unfold queueAfter LimitedQueue.insertAfter
  split
  · next i _ => exact .inr ⟨i + 1, rfl⟩
  · exact .inl rfl

theorem findIdx_of_mem {needle : T} {items : List T} (there : needle ∈ items) :
    ∃ i, items.findIdx? (fun other => other == needle) = some i := by
  rw [← Option.isSome_iff_exists, List.findIdx?_isSome]
  exact List.any_eq_true.mpr ⟨needle, there, beq_self_eq_true needle⟩

theorem queueBefore_perm {queue : LimitedQueue T} {needle : T} (there : needle ∈ queue.getSnapshot) (item : T)
    (room : queue.getSnapshot.length < queue.limit) :
    (queueBefore needle item queue).getSnapshot.Perm (item :: queue.getSnapshot) ∧
      (queueBefore needle item queue).limit = queue.limit := by
  obtain ⟨i, index⟩ := findIdx_of_mem there
  have found : queueBefore needle item queue = { queue with buffer := queue.buffer.insert i item } := by
    unfold queueBefore LimitedQueue.insertBefore
    rw [show queue.buffer.items = queue.getSnapshot from rfl, index]
  rw [found]
  exact ⟨insert_perm room i item, rfl⟩

theorem queueAfter_perm {queue : LimitedQueue T} {needle : T} (there : needle ∈ queue.getSnapshot) (item : T)
    (room : queue.getSnapshot.length < queue.limit) :
    (queueAfter needle item queue).getSnapshot.Perm (item :: queue.getSnapshot) ∧
      (queueAfter needle item queue).limit = queue.limit := by
  obtain ⟨i, index⟩ := findIdx_of_mem there
  have found : queueAfter needle item queue = { queue with buffer := queue.buffer.insert (i + 1) item } := by
    unfold queueAfter LimitedQueue.insertAfter
    rw [show queue.buffer.items = queue.getSnapshot from rfl, index]
  rw [found]
  exact ⟨insert_perm room (i + 1) item, rfl⟩

/-! ## What the loop adds and loses -/

/-- Nothing but the missing messages is new. -/
theorem fillLoop_subperm (snapshot messages : List T) (lastMsg : T) (queue : LimitedQueue T) (anyInserted : Bool) :
    (fillLoop info queueBefore queueAfter snapshot messages lastMsg queue anyInserted).1.getSnapshot.Subperm
      (missing info snapshot messages ++ queue.getSnapshot) := by
  induction messages generalizing lastMsg queue anyInserted with
  | nil => exact List.Subperm.refl _
  | cons msg rest ih =>
    by_cases known : (existingMessageIds info snapshot).contains (info msg).id = true
    · rw [fillLoop_known info known, missing_cons_known info known]
      exact ih lastMsg queue anyInserted
    · have step : ∀ taken, Takes queue msg taken →
          (missing info snapshot rest ++ taken.getSnapshot).Subperm (missing info snapshot (msg :: rest) ++ queue.getSnapshot) := by
        intro taken takes
        rw [missing_cons_new info known]
        exact ((List.subperm_append_left _).mpr takes.subperm).trans List.perm_middle.subperm
      rw [fillLoop, if_neg known]
      split
      · exact (ih _ _ _).trans (step _ (queueBefore_takes _ _ _))
      · exact (ih _ _ _).trans (step _ (queueAfter_takes _ _ _))

/-- Of the messages that are not given a first part goes, and the rest stays in its order. -/
theorem fillLoop_suffix {snapshot messages : List T} {p : T → Bool} (others : ∀ msg ∈ messages, p msg = false)
    (lastMsg : T) (queue : LimitedQueue T) (anyInserted : Bool) :
    (fillLoop info queueBefore queueAfter snapshot messages lastMsg queue anyInserted).1.getSnapshot.filter p <:+
      queue.getSnapshot.filter p := by
  induction messages generalizing lastMsg queue anyInserted with
  | nil => exact List.suffix_refl _
  | cons msg rest ih =>
    rw [List.forall_mem_cons] at others
    by_cases known : (existingMessageIds info snapshot).contains (info msg).id = true
    · rw [fillLoop_known info known]
      exact ih others.2 lastMsg queue anyInserted
    · rw [fillLoop, if_neg known]
      split
      · exact (ih others.2 _ _ _).trans ((queueBefore_takes _ _ _).suffix others.1)
      · exact (ih others.2 _ _ _).trans ((queueAfter_takes _ _ _).suffix others.1)

/-- With room for the missing messages all of them are there, with all that was there before. -/
theorem fillLoop_perm {snapshot messages : List T} {lastMsg : T} {queue : LimitedQueue T}
    (room : queue.getSnapshot.length + (missing info snapshot messages).length ≤ queue.limit)
    (there : ∀ m ∈ snapshot, m ∈ queue.getSnapshot) (last : lastMsg ∈ queue.getSnapshot) (anyInserted : Bool) :
    (fillLoop info queueBefore queueAfter snapshot messages lastMsg queue anyInserted).1.getSnapshot.Perm
      (missing info snapshot messages ++ queue.getSnapshot) := by
  induction messages generalizing lastMsg queue anyInserted with
  | nil => exact List.Perm.refl _
  | cons msg rest ih =>
    by_cases known : (existingMessageIds info snapshot).contains (info msg).id = true
    · rw [missing_cons_known info known] at room ⊢
      rw [fillLoop_known info known]
      exact ih room there last anyInserted
    · rw [missing_cons_new info known, List.length_cons] at room
      have step : ∀ (next : T) (taken : LimitedQueue T), next = lastMsg ∨ next = msg →
          taken.getSnapshot.Perm (msg :: queue.getSnapshot) ∧ taken.limit = queue.limit →
          (fillLoop info queueBefore queueAfter snapshot rest next taken true).1.getSnapshot.Perm
            (missing info snapshot (msg :: rest) ++ queue.getSnapshot) := by
        intro next taken which same
        have contained : ∀ m, m = msg ∨ m ∈ queue.getSnapshot → m ∈ taken.getSnapshot :=
          fun m among => same.1.mem_iff.mpr (List.mem_cons.mpr among)
        have more : taken.getSnapshot.length + (missing info snapshot rest).length ≤ taken.limit := by
          rw [same.1.length_eq, List.length_cons, same.2]
          omega
        have nextThere : next ∈ taken.getSnapshot := by
          rcases which with rfl | rfl
          · exact contained _ (.inr last)
          · exact contained _ (.inl rfl)
        rw [missing_cons_new info known]
        exact (ih more (fun m member => contained m (.inr (there m member))) nextThere true).trans
          ((same.1.append_left _).trans List.perm_middle)
      rw [fillLoop, if_neg known]
      split
      · next snapshotMsg found =>
        exact step _ _ (.inl rfl) (queueBefore_perm (there _ (List.mem_of_find?_eq_some found)) msg (by omega))
      · exact step _ _ (.inr rfl) (queueAfter_perm last msg (by omega))

/-! ## The order of the messages -/

/-- The messages of the server, and those that were filled in. -/
def recorded (given : List T) (m : T) : Bool := !(info m).system || decide (m ∈ given)

theorem filter_recorded {given snapshot part : List T} (apart : ∀ x ∈ given, x ∉ snapshot) (within : part ⊆ snapshot) :
    part.filter (recorded info given) = part.filter fun m => !(info m).system := by
  apply List.filter_congr
  intro x member
  have notGiven : x ∉ given := fun isGiven => apart x isGiven (within member)
  simp [recorded, notGiven]

/-- The loop is at place k of the snapshot: the messages in front of it have their final order. -/
structure Ordering (snapshot given rest front : List T) (k : Nat) (lastMsg : T) (queue : LimitedQueue T) : Prop where
  queued : queue.getSnapshot = front ++ snapshot.drop k
  ahead : ∀ m ∈ rest, k ≤ place info snapshot m
  last : queue.getSnapshot.getLast? = some lastMsg
  once : queue.getSnapshot.count lastMsg ≤ 1
  new : ∀ m ∈ rest, m ∉ queue.getSnapshot
  distinct : rest.Nodup
  ascending : InOrder info rest
  ordered : InOrder info (front.filter (recorded info given))
  before : ∀ x ∈ front, recorded info given x = true → ∀ m ∈ rest, (info x).serverReceivedTime ≤ (info m).serverReceivedTime
  behind : ∀ x ∈ front, recorded info given x = true → ∀ y ∈ snapshot.drop k, (info y).system = false →
    (info x).serverReceivedTime ≤ (info y).serverReceivedTime

section
variable {info} {snapshot given rest front : List T} {k : Nat} {msg lastMsg : T} {queue : LimitedQueue T}

theorem Ordering.skip (ordering : Ordering info snapshot given (msg :: rest) front k lastMsg queue) :
    Ordering info snapshot given rest front k lastMsg queue :=
  { ordering with
    ahead := fun m member => ordering.ahead m (List.mem_cons_of_mem msg member)
    new := fun m member => ordering.new m (List.mem_cons_of_mem msg member)
    distinct := (List.nodup_cons.mp ordering.distinct).2
    ascending := (List.pairwise_cons.mp ordering.ascending).2
    before := fun x member relevant m later => ordering.before x member relevant m (List.mem_cons_of_mem msg later) }

/-- One more message comes to its place. -/
theorem Ordering.insert (ordering : Ordering info snapshot given (msg :: rest) front k lastMsg queue)
    (ascending : InOrder info (snapshot.filter fun m => !(info m).system)) (apart : ∀ m ∈ given, m ∉ snapshot)
    (isGiven : msg ∈ given) {next : T} {taken : LimitedQueue T} (which : next = lastMsg ∨ next = msg)
    (queued : taken.getSnapshot = (front ++ between snapshot k (place info snapshot msg) ++ [msg]).drop (overflow queue) ++
      snapshot.drop (place info snapshot msg)) (last : taken.getSnapshot.getLast? = some next) :
    Ordering info snapshot given rest
      ((front ++ between snapshot k (place info snapshot msg) ++ [msg]).drop (overflow queue))
      (place info snapshot msg) next taken := by
  have skipped := ordering.skip
  have ahead := ordering.ahead msg List.mem_cons_self
  have fresh := ordering.new msg List.mem_cons_self
  have split := drop_split snapshot ahead
  have following := (List.pairwise_cons.mp ordering.ascending).1
  -- the queue gains the message and nothing else, though it may lose some at its front
  have only : taken.getSnapshot.Subperm (msg :: queue.getSnapshot) := by
    rw [queued, ordering.queued, split, ← List.append_assoc]
    apply ((List.drop_sublist _ _).append_right _).subperm.trans
    rw [List.append_assoc, List.singleton_append]
    exact List.perm_middle.subperm
  have betweenSub : ∀ x ∈ between snapshot k (place info snapshot msg), x ∈ snapshot.drop k := by
    intro x member
    rw [split]
    exact List.mem_append_left _ member
  have betweenServer : ∀ x ∈ between snapshot k (place info snapshot msg), recorded info given x = true →
      (info x).system = false := by
    intro x member relevant
    have inSnapshot := List.mem_of_mem_drop (betweenSub x member)
    -- what lies between was in the channel before, so it counts only if it is not of the system
    have notGiven : x ∉ given := fun isGiven => apart x isGiven inSnapshot
    simpa [recorded, notGiven] using relevant
  have betweenBefore : ∀ x ∈ between snapshot k (place info snapshot msg), recorded info given x = true →
      (info x).serverReceivedTime ≤ (info msg).serverReceivedTime := by
    intro x member relevant
    have notLater := not_later_of_between member
    simpa [comesLater, betweenServer x member relevant] using notLater
  have beforeMsg : ∀ x ∈ front ++ between snapshot k (place info snapshot msg), recorded info given x = true →
      (info x).serverReceivedTime ≤ (info msg).serverReceivedTime := by
    intro x member relevant
    rcases List.mem_append.mp member with early | late
    · exact ordering.before x early relevant msg List.mem_cons_self
    · exact betweenBefore x late relevant
  constructor
  · exact queued
  · exact fun m member => place_mono info snapshot (following m member)
  · exact last
  · refine (only.count_le next).trans ?_
    rcases which with rfl | rfl
    · have other : msg ≠ next := by
        rintro rfl
        exact fresh (List.mem_of_getLast? ordering.last)
      rw [List.count_cons_of_ne other]
      exact ordering.once
    · rw [List.count_cons_self, List.count_eq_zero.mpr fresh]
  · intro m member found
    rcases List.mem_cons.mp (only.subset found) with rfl | old
    · exact (List.nodup_cons.mp ordering.distinct).1 member
    · exact skipped.new m member old
  · exact skipped.distinct
  · exact skipped.ascending
  · refine List.Pairwise.sublist ((List.drop_sublist _ _).filter _) ?_
    rw [List.filter_append, List.filter_append]
    apply List.pairwise_append.mpr
    refine ⟨List.pairwise_append.mpr ⟨ordering.ordered, ?_, ?_⟩, ?_, ?_⟩
    -- the front, what lies between and the message are in order, each in itself and towards the next
    · have inOrder : InOrder info ((between snapshot k (place info snapshot msg)).filter fun m => !(info m).system) :=
        ascending.sublist (((List.take_sublist _ _).trans (List.drop_sublist _ _)).filter _)
      rw [filter_recorded info apart fun x member => List.mem_of_mem_drop (betweenSub x member)]
      exact inOrder
    · intro x xMember y yMember
      obtain ⟨inFront, relevant⟩ := List.mem_filter.mp xMember
      obtain ⟨inBetween, yRelevant⟩ := List.mem_filter.mp yMember
      exact ordering.behind x inFront relevant y (betweenSub y inBetween) (betweenServer y inBetween yRelevant)
    · exact (List.pairwise_singleton _ _).sublist List.filter_sublist
    · intro x xMember y yMember
      rw [← List.filter_append] at xMember
      obtain ⟨inFront, relevant⟩ := List.mem_filter.mp xMember
      rw [List.mem_singleton.mp (List.mem_filter.mp yMember).1]
      exact beforeMsg x inFront relevant
  · intro x member relevant m later
    have after := following m later
    rcases List.mem_append.mp (List.mem_of_mem_drop member) with early | isMsg
    · exact Int.le_trans (beforeMsg x early relevant) after
    · rw [List.mem_singleton.mp isMsg]
      exact after
  · intro x member relevant y among server
    have after := later_of_drop ascending among server
    rcases List.mem_append.mp (List.mem_of_mem_drop member) with early | isMsg
    · exact Int.le_trans (beforeMsg x early relevant) (Int.le_of_lt after)
    · rw [List.mem_singleton.mp isMsg]
      exact Int.le_of_lt after

/-- The loop leaves all messages in their order. -/
theorem fillLoop_ordered (ordering : Ordering info snapshot given rest front k lastMsg queue)
    (ascending : InOrder info (snapshot.filter fun m => !(info m).system)) (apart : ∀ m ∈ given, m ∉ snapshot)
    (isGiven : ∀ m ∈ rest, m ∈ given) (anyInserted : Bool) :
    InOrder info ((fillLoop info queueBefore queueAfter snapshot rest lastMsg queue anyInserted).1.getSnapshot.filter
      (recorded info given)) := by
  induction rest generalizing front k lastMsg queue anyInserted with
  | nil =>
    show InOrder info (queue.getSnapshot.filter _)
    rw [ordering.queued, List.filter_append]
    rw [filter_recorded info apart (List.drop_subset k snapshot)]
    apply List.pairwise_append.mpr
    refine ⟨ordering.ordered, ascending.sublist ((List.drop_sublist _ _).filter _), ?_⟩
    intro x xMember y yMember
    obtain ⟨inFront, relevant⟩ := List.mem_filter.mp xMember
    obtain ⟨inside, server⟩ := List.mem_filter.mp yMember
    exact ordering.behind x inFront relevant y inside (by simpa using server)
  | cons msg rest ih =>
    rw [List.forall_mem_cons] at isGiven
    by_cases known : (existingMessageIds info snapshot).contains (info msg).id = true
    · rw [fillLoop_known info known]
      exact ih ordering.skip isGiven.2 anyInserted
    · have last := ordering.last
      have once := ordering.once
      rw [ordering.queued] at last once
      have needleNew : ∀ needle, snapshot.find? (comesLater info msg) = some needle →
          needle ∉ front ++ between snapshot k (place info snapshot msg) := by
        intro needle found member
        have later := List.find?_some found
        rcases List.mem_append.mp member with early | late
        · simp only [comesLater, Bool.and_eq_true, Bool.not_eq_true', decide_eq_true_eq] at later
          have relevant : recorded info given needle = true := by simp [recorded, later.1]
          have notLater := ordering.before needle early relevant msg List.mem_cons_self
          omega
        · rw [not_later_of_between late] at later
          cases later
      have lastNew : ∀ init, front ++ snapshot.drop k = init ++ [lastMsg] → lastMsg ∉ init := by
        intro init whole member
        rw [whole, List.count_append, List.count_singleton_self] at once
        have positive := List.count_pos_iff.mpr member
        omega
      obtain ⟨next, taken, which, -, queued, lastTaken, filled⟩ := fillLoop_insert info ordering.queued known
        (ordering.ahead msg List.mem_cons_self) last needleNew lastNew rest anyInserted
      rw [filled]
      exact ih (ordering.insert ascending apart isGiven.1 which queued lastTaken) isGiven.2 true

end

/-! ## The channel -/

/-- The message objects can be told apart: the last one of the channel is there once, and the
given ones are new and different. -/
structure Separate (snapshot messages : List T) : Prop where
  lastOnce : ∀ lastMsg ∈ snapshot.getLast?, snapshot.count lastMsg ≤ 1
  distinct : messages.Nodup
  apart : ∀ m ∈ messages, m ∉ snapshot

/-- What is promised of a channel that the messages were filled into. -/
structure Chronicle (limit : Nat) (snapshot messages filled : List T) : Prop where
  ascending : InOrder info (filled.filter (recorded info messages))
  present : filled.filter (fun m => decide (m ∈ snapshot)) <:+ snapshot
  complete : snapshot.length + (missing info snapshot messages).length ≤ limit →
    filled.filter (fun m => decide (m ∈ snapshot)) = snapshot ∧
      ∀ msg ∈ messages, (∀ m ∈ snapshot, (info m).id ≠ (info msg).id) → filled.count msg = 1

section
variable {info} {snapshot messages filled : List T} {limit : Nat}

/-- Where all are there, the present ones are there in their order. -/
theorem complete_of_perm (separate : Separate snapshot messages)
    (present : filled.filter (fun m => decide (m ∈ snapshot)) <:+ snapshot)
    (all : filled.Perm (missing info snapshot messages ++ snapshot)) :
    filled.filter (fun m => decide (m ∈ snapshot)) = snapshot ∧
      ∀ msg ∈ messages, (∀ m ∈ snapshot, (info m).id ≠ (info msg).id) → filled.count msg = 1 := by
  constructor
  · apply present.eq_of_length
    rw [(all.filter _).length_eq, List.filter_append, List.filter_eq_nil_iff.mpr, List.filter_eq_self.mpr, List.nil_append]
    · exact fun m member => decide_eq_true member
    · intro m member
      have notThere := separate.apart m (List.mem_filter.mp member).1
      simpa using notThere
  · intro msg given absent
    have once : (missing info snapshot messages).count msg = 1 :=
      List.count_eq_one_of_mem (separate.distinct.filter _) (mem_missing info given absent)
    rw [all.count_eq, List.count_append, once, List.count_eq_zero.mpr (separate.apart msg given)]

/-- At its start the loop has nothing in front of its place. -/
theorem Ordering.start {queue : LimitedQueue T} {lastMsg : T} (queued : queue.getSnapshot = snapshot)
    (last : snapshot.getLast? = some lastMsg) (separate : Separate snapshot messages) (given : InOrder info messages) :
    Ordering info snapshot messages messages [] 0 lastMsg queue where
  queued := queued
  ahead := fun _ _ => Nat.zero_le _
  last := queued ▸ last
  once := queued ▸ separate.lastOnce lastMsg last
  new := fun m member => queued ▸ separate.apart m member
  distinct := separate.distinct
  ascending := given
  ordered := List.Pairwise.nil
  before := fun _ member => (List.not_mem_nil member).elim
  behind := fun _ member => (List.not_mem_nil member).elim

/-- Filling in messages keeps their order, and with room it loses nothing. -/
theorem fillInMissingMessages_chronicle {channel : Channel T}
    (ascending : InOrder info (channel.getMessageSnapshot.filter fun m => !(info m).system))
    (given : InOrder info messages) (separate : Separate channel.getMessageSnapshot messages) :
    ∃ filled invoked, channel.fillInMissingMessages info messages = some (filled, invoked) ∧
      Chronicle info channel.messages.limit channel.getMessageSnapshot messages filled.getMessageSnapshot := by
  have whole : channel.getMessageSnapshot.filter (fun m => decide (m ∈ channel.getMessageSnapshot)) =
      channel.getMessageSnapshot := List.filter_eq_self.mpr fun m member => decide_eq_true member
  unfold Channel.fillInMissingMessages
  split
  · next nothing =>
    rw [List.isEmpty_iff.mp nothing]
    refine ⟨channel, false, rfl, ?_, ?_, ?_⟩
    · have same : recorded info ([] : List T) = fun m => !(info m).system := by
        funext m
        simp [recorded]
      rw [same]
      exact ascending
    · rw [whole]
    · exact fun _ => ⟨whole, fun _ member => (List.not_mem_nil member).elim⟩
  · split
    · next empty =>
      -- there is no message yet, and the last ones come to the front
      have nothing : channel.getMessageSnapshot = [] := List.getLast?_eq_none_iff.mp empty
      obtain ⟨behind, pushed, items⟩ := channel.messages.pushFront_pushed messages
      rw [pushed]
      refine ⟨_, true, rfl, ?_⟩
      have shows : ({ channel with messages := ⟨channel.messages.limit, behind⟩ } : Channel T).getMessageSnapshot =
          messages.drop (messages.length - min messages.length channel.messages.space) := by
        show behind.items = _
        rw [items, show channel.messages.getSnapshot = [] from nothing, List.append_nil]
      rw [shows, nothing]
      have present : (messages.drop (messages.length - min messages.length channel.messages.space)).filter
          (fun m => decide (m ∈ ([] : List T))) <:+ [] := by simp
      refine ⟨?_, present, fun room => ?_⟩
      · exact given.sublist (List.filter_sublist.trans (List.drop_sublist _ _))
      · have space : channel.messages.space = channel.messages.limit := by
          rw [LimitedQueue.space, show channel.messages.buffer.items = [] from nothing, List.length_nil, Nat.sub_zero]
        have all : missing info [] messages = messages := List.filter_eq_self.mpr fun _ _ => rfl
        rw [all, List.length_nil, Nat.zero_add] at room
        apply complete_of_perm (nothing ▸ separate) present
        rw [all, space, Nat.min_eq_left room, Nat.sub_self, List.drop_zero, List.append_nil]
    · next lastMsg last =>
      refine ⟨_, _, rfl, ?_⟩
      have others : ∀ m ∈ messages, decide (m ∈ channel.getMessageSnapshot) = false :=
        fun m member => decide_eq_false (separate.apart m member)
      have present := @fillLoop_suffix _ info _ channel.getMessageSnapshot _ _ others lastMsg channel.messages false
      rw [show channel.messages.getSnapshot = channel.getMessageSnapshot from rfl, whole] at present
      refine ⟨?_, present, fun room => ?_⟩
      · exact fillLoop_ordered (.start rfl last separate given) ascending separate.apart (fun _ member => member) false
      · exact complete_of_perm separate present
          (fillLoop_perm info room (fun _ member => member) (List.mem_of_getLast? last) false)

end

/-! ## Message objects that cannot be told apart -/

/-- Numbers as messages: 0 is one of the system, and each has its own id and time. -/
def timed (n : Nat) : MessageInfo := ⟨n == 0, [UInt16.ofNat n], n⟩

/-- The same without ids. -/
def anonymous (n : Nat) : MessageInfo := ⟨n == 0, [], n⟩

def channelOf (messages : List Nat) : Channel Nat :=
  ⟨(messages.foldl (fun queue message => (queue.pushBack message).1) (LimitedQueue.new 10)), 0⟩

/-- What is in order is in order behind filling in as well. -/
def KeepsOrder (channel : Channel T) (messages : List T) : Prop :=
  InOrder info (channel.getMessageSnapshot.filter fun m => !(info m).system) → InOrder info messages →
    ∀ filled ∈ channel.fillInMissingMessages info messages,
      InOrder info (filled.1.getMessageSnapshot.filter (recorded info messages))

instance (messages : List T) : Decidable (InOrder info messages) := inferInstanceAs (Decidable (List.Pairwise _ _))

instance (channel : Channel T) (messages : List T) : Decidable (KeepsOrder info channel messages) :=
  inferInstanceAs (Decidable (_ → _ → ∀ filled ∈ channel.fillInMissingMessages info messages, _))

/-- The order is lost where the last message of the channel is there twice, where a message is
given twice, and where a given one is there already. -/
theorem order_lost : ¬ KeepsOrder timed (channelOf [0, 1, 0]) [2] ∧ ¬ KeepsOrder timed (channelOf [1]) [2, 2, 3] ∧
    ¬ KeepsOrder anonymous (channelOf [1]) [1, 2] := by
  decide

theorem fillInMissingMessages_chronicle_numbered :
    ∃ filled invoked, (channelOf [1, 0, 4]).fillInMissingMessages timed [2, 3, 5] = some (filled, invoked) ∧
      Chronicle timed 10 [1, 0, 4] [2, 3, 5] filled.getMessageSnapshot :=
  @fillInMissingMessages_chronicle _ timed _ [2, 3, 5] (channelOf [1, 0, 4]) (by decide) (by decide)
    ⟨by decide, by decide, by decide⟩

end

end Forserino.Messages
