import Forserino.Messages.Channel

/-! Filling in messages in ascending order, into a list and into a queue.

The messages come to their places from the front to the back, so that behind the place of
the last one everything is as it was at first.
-/

set_option autoImplicit false

namespace Forserino.Messages

open Forserino.Qt

universe u

section
variable {T : Type u} (info : T → MessageInfo)

/-- How many messages of the snapshot stay in front of the message. -/
def place (snapshot : List T) (msg : T) : Nat := snapshot.findIdx (comesLater info msg)

/-- A later message does not come in front of an earlier one. -/
theorem place_mono (snapshot : List T) {msg next : T}
    (ascending : (info msg).serverReceivedTime ≤ (info next).serverReceivedTime) :
    place info snapshot msg ≤ place info snapshot next := by
  apply List.findIdx_le_findIdx
  intro other _ later
  simp only [comesLater, Bool.and_eq_true, decide_eq_true_eq] at later ⊢
  exact ⟨later.1, Int.lt_of_le_of_lt ascending later.2⟩

theorem find_place {snapshot : List T} {msg snapshotMsg : T}
    (found : snapshot.find? (comesLater info msg) = some snapshotMsg) :
    snapshot.drop (place info snapshot msg) =
      snapshotMsg :: snapshot.drop (place info snapshot msg + 1) := by
  rw [List.find?_eq_getElem?_findIdx] at found
  obtain ⟨inside, same⟩ := List.getElem?_eq_some_iff.mp found
  rw [← same]
  exact List.drop_eq_getElem_cons inside

theorem find_none_place {snapshot : List T} {msg : T}
    (missing : snapshot.find? (comesLater info msg) = none) :
    place info snapshot msg = snapshot.length := by
  apply List.findIdx_eq_length_of_false
  intro other member
  simpa using List.find?_eq_none.mp missing other member

/-- From one place to a later one. -/
def between {T : Type u} (snapshot : List T) (k i : Nat) : List T := (snapshot.drop k).take (i - k)

theorem drop_split (snapshot : List T) {k i : Nat} (ordered : k ≤ i) :
    snapshot.drop k = between snapshot k i ++ snapshot.drop i := by
  have rest : (snapshot.drop k).drop (i - k) = snapshot.drop i := by
    rw [List.drop_drop, Nat.add_sub_cancel' ordered]
  rw [between, ← rest, List.take_append_drop]

theorem fillLoop_known {S : Type u} {insertBefore insertAfter : T → T → S → S} {snapshot : List T} {msg : T}
    (known : (existingMessageIds info snapshot).contains (info msg).id = true) (rest : List T)
    (lastMsg : T) (store : S) (anyInserted : Bool) :
    fillLoop info insertBefore insertAfter snapshot (msg :: rest) lastMsg store anyInserted =
      fillLoop info insertBefore insertAfter snapshot rest lastMsg store anyInserted := by
  rw [fillLoop, if_pos known]

/-- Where nothing is inserted, the store stays as it is. -/
theorem fillLoop_unchanged {S : Type u} {insertBefore insertAfter : T → T → S → S} {snapshot messages : List T}
    {lastMsg : T} {store : S} {anyInserted : Bool}
    (nothing : (fillLoop info insertBefore insertAfter snapshot messages lastMsg store anyInserted).2 = false) :
    (fillLoop info insertBefore insertAfter snapshot messages lastMsg store anyInserted).1 = store ∧
      anyInserted = false := by
  induction messages generalizing lastMsg store anyInserted with
  | nil => exact ⟨rfl, nothing⟩
  | cons msg rest ih =>
    by_cases known : (existingMessageIds info snapshot).contains (info msg).id = true
    · rw [fillLoop_known info known] at nothing ⊢
      exact ih nothing
    · rw [fillLoop, if_neg known] at nothing
      split at nothing
      · exact absurd (ih nothing).2 Bool.true_eq_false.mp
      · exact absurd (ih nothing).2 Bool.true_eq_false.mp

variable [DecidableEq T]

theorem findIdx_split {front back : List T} {needle : T} (new : needle ∉ front) :
    (front ++ needle :: back).findIdx? (fun other => other == needle) = some front.length := by
  have absent : front.findIdx? (fun other => other == needle) = none := by
    rw [List.findIdx?_eq_none_iff]
    intro other member
    rw [beq_eq_false_iff_ne]
    rintro rfl
    exact new member
  rw [List.findIdx?_append, absent, List.findIdx?_cons]
  simp

theorem putBefore_split {front back : List T} {needle : T} (item : T) (new : needle ∉ front) :
    putBefore needle item (front ++ needle :: back) = front ++ item :: needle :: back := by
  rw [putBefore, findIdx_split new]
  simp

theorem putAfter_last {front : List T} {needle : T} (item : T) (new : needle ∉ front) :
    putAfter needle item (front ++ [needle]) = front ++ [needle, item] := by
  have length : front.length + 1 = (front ++ [needle]).length := by simp
  rw [putAfter, findIdx_split new]
  simp only [length, List.take_length, List.drop_length, List.append_assoc, List.cons_append,
    List.nil_append]

/-! ## Into a list -/

/-- The next message that is new comes directly to its place, with everything that was filled in
before it in front. -/
theorem fillLoop_put {snapshot front : List T} {k : Nat} {msg lastMsg : T}
    (new : ¬ (existingMessageIds info snapshot).contains (info msg).id)
    (ordered : k ≤ place info snapshot msg) (last : (front ++ snapshot.drop k).getLast? = some lastMsg)
    (distinct : (front ++ snapshot.drop k).Nodup) (rest : List T) (anyInserted : Bool) :
    ∃ next, (front ++ between snapshot k (place info snapshot msg) ++ msg ::
        snapshot.drop (place info snapshot msg)).getLast? = some next ∧
      fillLoop info putBefore putAfter snapshot (msg :: rest) lastMsg (front ++ snapshot.drop k)
          anyInserted =
        fillLoop info putBefore putAfter snapshot rest next
          (front ++ between snapshot k (place info snapshot msg) ++ msg ::
            snapshot.drop (place info snapshot msg)) true := by
  have split := drop_split snapshot ordered
  rw [fillLoop, if_neg new]
  cases found : snapshot.find? (comesLater info msg) with
  | some snapshotMsg =>
    have behind := find_place info found
    have whole : front ++ snapshot.drop k =
        (front ++ between snapshot k (place info snapshot msg)) ++
          snapshotMsg :: snapshot.drop (place info snapshot msg + 1) := by
      rw [List.append_assoc, ← behind, ← split]
    rw [whole] at last distinct ⊢
    rw [behind]
    have before : snapshotMsg ∉ front ++ between snapshot k (place info snapshot msg) := by
      intro member
      exact (List.nodup_append.mp distinct).2.2 _ member _ List.mem_cons_self rfl
    refine ⟨lastMsg, ?_, ?_⟩
    · simpa [List.getLast?_append] using last
    · simp only [putBefore_split msg before]
  | none =>
    have ends := find_none_place info found
    have nothing : snapshot.drop (place info snapshot msg) = [] := by
      rw [ends, List.drop_length]
    rw [nothing, List.append_nil] at split
    rw [nothing, ← split]
    have shape := List.getLast?_eq_some_iff.mp last
    obtain ⟨init, whole⟩ := shape
    refine ⟨msg, by simp, ?_⟩
    rw [whole] at distinct ⊢
    have before : lastMsg ∉ init := by
      intro member
      exact (List.nodup_append.mp distinct).2.2 _ member _ List.mem_cons_self rfl
    simp only [putAfter_last msg before, List.append_assoc, List.cons_append, List.nil_append]

/-! ## Into a queue -/

/-- How many items a queue lets go for a new one. -/
def overflow {T : Type u} (queue : LimitedQueue T) : Nat := if queue.buffer.full then 1 else 0

theorem insert_items {T : Type u} (queue : LimitedQueue T) (front back : List T) (item : T)
    (items : queue.getSnapshot = front ++ back) :
    (queue.buffer.insert front.length item).items = (front ++ [item]).drop (overflow queue) ++ back := by
  have shape : queue.buffer.items = front ++ back := items
  unfold CircularBuffer.insert overflow
  by_cases full : queue.buffer.full = true
  · simp only [full, if_true, shape]
    cases front with
    | nil => simp
    | cons first front => simp
  · simp [full, shape]

theorem queueBefore_split {queue : LimitedQueue T} {front back : List T} {needle : T} (item : T)
    (items : queue.getSnapshot = front ++ needle :: back) (new : needle ∉ front) :
    (queueBefore needle item queue).limit = queue.limit ∧
      (queueBefore needle item queue).getSnapshot =
        (front ++ [item]).drop (overflow queue) ++ needle :: back := by
  have index : queue.buffer.items.findIdx? (fun other => other == needle) = some front.length := by
    have shape : queue.buffer.items = front ++ needle :: back := items
    rw [shape, findIdx_split new]
  unfold queueBefore LimitedQueue.insertBefore
  rw [index]
  exact ⟨rfl, insert_items queue front (needle :: back) item items⟩

theorem queueAfter_last {queue : LimitedQueue T} {front : List T} {needle : T} (item : T)
    (items : queue.getSnapshot = front ++ [needle]) (new : needle ∉ front) :
    (queueAfter needle item queue).limit = queue.limit ∧
      (queueAfter needle item queue).getSnapshot =
        (front ++ [needle]).drop (overflow queue) ++ [item] := by
  have index : queue.buffer.items.findIdx? (fun other => other == needle) = some front.length := by
    have shape : queue.buffer.items = front ++ [needle] := items
    rw [shape, findIdx_split new]
  have length : (front ++ [needle]).length = front.length + 1 := by simp
  have few : overflow queue ≤ (front ++ [needle]).length := by
    rw [length]
    unfold overflow
    split <;> omega
  have inserted := insert_items queue (front ++ [needle]) [] item (by rw [items, List.append_nil])
  rw [length, List.append_nil, List.drop_append_of_le_length few] at inserted
  unfold queueAfter LimitedQueue.insertAfter
  rw [index]
  exact ⟨rfl, inserted⟩

/-- The same in a queue, which lets go of its first item when it is full. A message is put next
to the first place of another one, which has to be the place that is meant. -/
theorem fillLoop_insert {snapshot front : List T} {k : Nat} {msg lastMsg : T}
    {queue : LimitedQueue T} (items : queue.getSnapshot = front ++ snapshot.drop k)
    (new : ¬ (existingMessageIds info snapshot).contains (info msg).id)
    (ordered : k ≤ place info snapshot msg) (last : (front ++ snapshot.drop k).getLast? = some lastMsg)
    (needleNew : ∀ needle, snapshot.find? (comesLater info msg) = some needle →
      needle ∉ front ++ between snapshot k (place info snapshot msg))
    (lastNew : ∀ init, front ++ snapshot.drop k = init ++ [lastMsg] → lastMsg ∉ init) (rest : List T)
    (anyInserted : Bool) :
    ∃ next behind, (next = lastMsg ∨ next = msg) ∧ behind.limit = queue.limit ∧
      behind.getSnapshot = (front ++ between snapshot k (place info snapshot msg) ++ [msg]).drop
        (overflow queue) ++ snapshot.drop (place info snapshot msg) ∧
      behind.getSnapshot.getLast? = some next ∧
      fillLoop info queueBefore queueAfter snapshot (msg :: rest) lastMsg queue anyInserted =
        fillLoop info queueBefore queueAfter snapshot rest next behind true := by
  have split := drop_split snapshot ordered
  rw [fillLoop, if_neg new]
  cases found : snapshot.find? (comesLater info msg) with
  | some snapshotMsg =>
    have behind := find_place info found
    have before := needleNew snapshotMsg found
    have whole : front ++ snapshot.drop k =
        (front ++ between snapshot k (place info snapshot msg)) ++
          snapshotMsg :: snapshot.drop (place info snapshot msg + 1) := by
      rw [List.append_assoc, ← behind, ← split]
    rw [whole] at items last
    obtain ⟨limit, inserted⟩ := queueBefore_split msg items before
    rw [behind]
    refine ⟨lastMsg, _, .inl rfl, limit, inserted, ?_, rfl⟩
    rw [inserted]
    simpa [List.getLast?_append] using last
  | none =>
    have ends := find_none_place info found
    have nothing : snapshot.drop (place info snapshot msg) = [] := by
      rw [ends, List.drop_length]
    rw [nothing, List.append_nil] at split
    rw [nothing, ← split, List.append_nil]
    obtain ⟨init, whole⟩ := List.getLast?_eq_some_iff.mp last
    have before := lastNew init whole
    rw [whole] at items ⊢
    obtain ⟨limit, inserted⟩ := queueAfter_last msg items before
    have few : overflow queue ≤ (init ++ [lastMsg]).length := by
      rw [List.length_append, List.length_singleton]
      unfold overflow
      split <;> omega
    refine ⟨msg, _, .inr rfl, limit, ?_, ?_, rfl⟩
    · rw [inserted, List.drop_append_of_le_length few]
    · rw [inserted, List.getLast?_append]
      rfl

/-- The places are found where no message that is not of the system is there twice. -/
theorem fillLoop_queue {snapshot front : List T} {k : Nat} {msg lastMsg : T}
    {queue : LimitedQueue T} (items : queue.getSnapshot = front ++ snapshot.drop k)
    (new : ¬ (existingMessageIds info snapshot).contains (info msg).id)
    (ordered : k ≤ place info snapshot msg) (last : (front ++ snapshot.drop k).getLast? = some lastMsg)
    (distinct : ∀ init x tail, front ++ snapshot.drop k = init ++ x :: tail →
      (info x).system = false ∨ x = lastMsg → x ∉ init) (rest : List T) (anyInserted : Bool) :
    ∃ next behind, (next = lastMsg ∨ next = msg) ∧ behind.limit = queue.limit ∧
      behind.getSnapshot = (front ++ between snapshot k (place info snapshot msg) ++ [msg]).drop
        (overflow queue) ++ snapshot.drop (place info snapshot msg) ∧
      behind.getSnapshot.getLast? = some next ∧
      fillLoop info queueBefore queueAfter snapshot (msg :: rest) lastMsg queue anyInserted =
        fillLoop info queueBefore queueAfter snapshot rest next behind true := by
  apply fillLoop_insert info items new ordered last _ _ rest anyInserted
  · intro needle found
    have later := List.find?_some found
    simp only [comesLater, Bool.and_eq_true, Bool.not_eq_true'] at later
    apply distinct _ needle (snapshot.drop (place info snapshot msg + 1)) _ (.inl later.1)
    rw [List.append_assoc, ← find_place info found, ← drop_split snapshot ordered]
  · intro init whole
    exact distinct init lastMsg [] whole (.inr rfl)

end

end Forserino.Messages
