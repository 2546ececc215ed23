import Forserino.Foundation.Runs
import Forserino.Foundation.Selected
import Forserino.Messages.LimitedQueue

/-! A list of bounded length, as what LimitedQueue is meant to be, and the operations in
which the queue does the same.
-/

set_option autoImplicit false

namespace Forserino.Messages

open Foundation

universe u

variable {T : Type u}

namespace BoundedList

/-- The list with the item behind it, and the element that has to go for it. -/
def pushBack (limit : Nat) (items : List T) (item : T) : List T × Option T :=
  if items.length < limit then (items ++ [item], none) else ((items ++ [item]).tail, items.head?)

/-- The list with the first match replaced, and its index. -/
def replaceFirst (eq : T → Bool) (items : List T) (replacement : T) : List T × Int :=
  match items.findIdx? eq with
  | some i => (items.set i replacement, toInt i)
  | none => (items, -1)

/-- The list with the item at an index; the first element goes where there is no room. -/
def insertAt (limit : Nat) (items : List T) (index : Nat) (item : T) : List T :=
  let inserted := items.take index ++ item :: items.drop index
  if items.length < limit then inserted else inserted.tail

/-- The item comes directly before the first match, unless that would have to go for it. -/
def insertBefore (limit : Nat) (eq : T → Bool) (items : List T) (item : T) : List T × Bool :=
  match items.findIdx? eq with
  | some i => if i = 0 ∧ ¬ items.length < limit then (items, false) else (insertAt limit items i item, true)
  | none => (items, false)

/-- The item comes directly after the first match, unless that would have to go for it. -/
def insertAfter (limit : Nat) (eq : T → Bool) (items : List T) (item : T) : List T × Bool :=
  match items.findIdx? eq with
  | some i => if i = 0 ∧ ¬ items.length < limit then (items, false) else (insertAt limit items (i + 1) item, true)
  | none => (items, false)

/-- What was in the list is still there, but for the first element where there is no room. -/
def Kept (limit : Nat) (items kept : List T) : Prop := kept = if items.length < limit then items else items.tail

def SitsBefore (limit : Nat) (eq : T → Bool) (items : List T) (item : T) (inserted : List T) : Prop :=
  ∃ front x back, inserted = front ++ item :: x :: back ∧ eq x = true ∧ Kept limit items (front ++ x :: back)

def SitsAfter (limit : Nat) (eq : T → Bool) (items : List T) (item : T) (inserted : List T) : Prop :=
  ∃ front x back, inserted = front ++ x :: item :: back ∧ eq x = true ∧ Kept limit items (front ++ x :: back)

theorem insertBefore_sits {limit : Nat} {eq : T → Bool} {items inserted : List T} {item : T}
    (answer : insertBefore limit eq items item = (inserted, true)) : SitsBefore limit eq items item inserted := by
  unfold insertBefore at answer
  split at answer
  · next i found =>
    split at answer
    · cases answer
    · next possible =>
      obtain ⟨rfl, _⟩ := Prod.mk.inj answer
      obtain ⟨front, x, back, rfl, rfl, isMatch, -⟩ := split_findIdx found
      unfold insertAt SitsBefore Kept
      simp only [List.take_left, List.drop_left]
      split
      · exact ⟨front, x, back, rfl, isMatch, rfl⟩
      · next full =>
        cases front with
        | nil => exact absurd ⟨rfl, full⟩ possible
        | cons first front => exact ⟨front, x, back, rfl, isMatch, rfl⟩
  · cases answer

theorem insertAfter_sits {limit : Nat} {eq : T → Bool} {items inserted : List T} {item : T}
    (answer : insertAfter limit eq items item = (inserted, true)) : SitsAfter limit eq items item inserted := by
  unfold insertAfter at answer
  split at answer
  · next i found =>
    split at answer
    · cases answer
    · next possible =>
      obtain ⟨rfl, _⟩ := Prod.mk.inj answer
      obtain ⟨front, x, back, rfl, rfl, isMatch, -⟩ := split_findIdx found
      have whole : front ++ x :: back = (front ++ [x]) ++ back := by simp
      have index : front.length + 1 = (front ++ [x]).length := by simp
      unfold insertAt SitsAfter Kept
      rw [whole, index]
      simp only [List.take_left, List.drop_left]
      split
      · exact ⟨front, x, back, by simp, isMatch, by simp⟩
      · next full =>
        cases front with
        | nil => exact absurd ⟨rfl, whole ▸ full⟩ possible
        | cons first front => exact ⟨front, x, back, by simp, isMatch, by simp⟩
  · cases answer

theorem insertBefore_false {limit : Nat} {eq : T → Bool} {items inserted : List T} {item : T}
    (answer : insertBefore limit eq items item = (inserted, false)) : inserted = items := by
  unfold insertBefore at answer
  split at answer
  · split at answer
    · exact (Prod.mk.inj answer).1.symm
    · cases answer
  · exact (Prod.mk.inj answer).1.symm

theorem insertAfter_false {limit : Nat} {eq : T → Bool} {items inserted : List T} {item : T}
    (answer : insertAfter limit eq items item = (inserted, false)) : inserted = items := by
  unfold insertAfter at answer
  split at answer
  · split at answer
    · exact (Prod.mk.inj answer).1.symm
    · cases answer
  · exact (Prod.mk.inj answer).1.symm

end BoundedList

/-- An operation of the queue, with the comparisons and predicates that it is called with. -/
inductive Op (T : Type u) where
  | clear
  | pushBack (item : T)
  | pushBackDeleted (item : T)
  | pushFront (items : List T)
  | replaceItem (eq : T → T → Bool) (needle replacement : T)
  | replaceItemAt (index : Nat) (replacement : T)
  | replaceItemHint (hint : Nat) (needle replacement : T)
  | insertBefore (eq : T → T → Bool) (needle item : T)
  | insertAfter (eq : T → T → Bool) (needle item : T)
  | find (pred : T → Bool)
  | findHint (hint : Nat) (pred : T → Bool)

/-- What an operation answers. -/
inductive Answer (T : Type u) where
  | nothing
  | flag (done : Bool)
  | deleted (full : Bool) (item : Option T)
  | pushed (items : List T)
  | index (i : Int)
  | previous (replaced : Bool) (prev : Option T)
  | item (found : Option T)
  | located (found : Option (Nat × T))

namespace LimitedQueue

theorem full_iff {q : LimitedQueue T} : q.buffer.full = true ↔ ¬ q.getSnapshot.length < q.limit := by
  have size := q.buffer.size_le
  rw [CircularBuffer.full_iff, getSnapshot]
  omega

theorem push_back_items (q : LimitedQueue T) (item : T) :
    (q.buffer.push_back item).items = (BoundedList.pushBack q.limit q.getSnapshot item).1 := by
  unfold CircularBuffer.push_back BoundedList.pushBack
  by_cases full : q.buffer.full = true
  · rw [if_neg (full_iff.mp full)]
    exact if_pos full
  · rw [if_pos (Decidable.not_not.mp (mt full_iff.mpr full))]
    exact if_neg full

theorem full_eq (q : LimitedQueue T) : q.buffer.full = decide (q.limit ≤ q.getSnapshot.length) := by
  rw [Bool.eq_iff_iff, full_iff, decide_eq_true_iff, Nat.not_lt]

/-- In every round one more item comes to the front, and the pushed items are the same. -/
theorem pushFrontLoop_pushed {limit : Nat} (items : List T) (rounds f b : Nat) (buffer : CircularBuffer T limit)
    (pushed : List T) (front : f + rounds ≤ items.length) (back : rounds ≤ b + 1)
    (inside : 0 < rounds → b < items.length) (room : buffer.items.length + rounds ≤ limit) :
    ∃ behind : CircularBuffer T limit,
      pushFrontLoop items rounds f b buffer pushed = some (behind, pushed ++ (items.drop f).take rounds) ∧
      behind.items = (items.take (b + 1)).drop (b + 1 - rounds) ++ buffer.items := by
  induction rounds generalizing f b buffer pushed with
  | zero =>
    refine ⟨buffer, by simp [pushFrontLoop], ?_⟩
    rw [Nat.sub_zero, List.drop_eq_nil_of_le (List.length_take_le _ _), List.nil_append]
  | succ rounds ih =>
    have lastInside : b < items.length := inside (Nat.succ_pos rounds)
    have firstInside : f < items.length := by omega
    have notFull : ¬ buffer.full = true := by
      rw [CircularBuffer.full_iff]
      omega
    have fronted : (buffer.push_front items[b]).items = items[b] :: buffer.items := if_neg notFull
    obtain ⟨behind, looped, same⟩ := ih (f + 1) (b - 1) (buffer.push_front items[b]) (pushed ++ [items[f]])
      (by omega) (by omega) (by omega) (by rw [fronted, List.length_cons]; omega)
    refine ⟨behind, ?_, ?_⟩
    · unfold pushFrontLoop
      rw [List.getElem?_eq_getElem lastInside, List.getElem?_eq_getElem firstInside]
      dsimp only
      rw [looped, List.drop_eq_getElem_cons firstInside, List.take_succ_cons, List.append_assoc, List.singleton_append]
    · rw [same, fronted, ← List.take_concat_get' items b lastInside, List.append_cons]
      congr 1
      have shorter : (items.take b).length = b := List.length_take_of_le (Nat.le_of_lt lastInside)
      have index : b + 1 - (rounds + 1) ≤ (items.take b).length := by omega
      rw [List.drop_append_of_le_length index, List.append_left_inj]
      rcases Nat.eq_zero_or_pos b with rfl | positive
      · have none : rounds = 0 := by omega
        subst none
        simp
      · rw [Nat.sub_add_cancel positive]
        congr 1
        omega

theorem pushFront_pushed (q : LimitedQueue T) (items : List T) :
    ∃ behind : CircularBuffer T q.limit,
      q.pushFront items = some (⟨q.limit, behind⟩, items.drop (items.length - min items.length q.space)) ∧
      behind.items = items.drop (items.length - min items.length q.space) ++ q.getSnapshot := by
  have size := q.buffer.size_le
  have space : q.space = q.limit - q.buffer.items.length := rfl
  obtain ⟨behind, looped, same⟩ := pushFrontLoop_pushed items (min items.length q.space)
    (items.length - min items.length q.space) (items.length - 1) q.buffer [] (by omega) (by omega) (by omega)
    (by omega)
  refine ⟨behind, ?_, ?_⟩
  · unfold pushFront
    dsimp only
    rw [looped, Option.map_some, List.nil_append, List.take_of_length_le]
    rw [List.length_drop]
    omega
  · rw [same]
    congr 1
    cases items with
    | nil => rfl
    | cons first rest => simp

/-- A new queue of the size of the items has room for all of them. -/
theorem pushFront_new (items : List T) :
    ((new items.length).pushFront items).map (fun (queue, _) => queue.getSnapshot) = some items := by
  obtain ⟨behind, pushed, held⟩ := pushFront_pushed (new items.length) items
  have room : (new (T := T) items.length).space = items.length := rfl
  have empty : (new (T := T) items.length).getSnapshot = [] := rfl
  rw [room, empty, Nat.min_self, Nat.sub_self, List.drop_zero, List.append_nil] at held
  rw [pushed, Option.map_some]
  exact congrArg some held

/-- The only match is where the hint says, or anywhere if the hint is wrong. -/
theorem findIdx_hint {pred : T → Bool} {items : List T} (once : items.countP pred ≤ 1) {hint : Nat} {x : T}
    (there : items[hint]? = some x) (isMatch : pred x = true) : items.findIdx? pred = some hint := by
  induction items generalizing hint with
  | nil => cases there
  | cons first rest ih =>
    cases hint with
    | zero =>
      obtain rfl := Option.some.inj there
      rw [List.findIdx?_cons, if_pos isMatch]
    | succ hint =>
      have other : ¬ pred first = true := by
        intro also
        have some : 0 < rest.countP pred := List.countP_pos_iff.mpr ⟨x, List.mem_of_getElem? there, isMatch⟩
        rw [List.countP_cons, if_pos also] at once
        omega
      rw [List.countP_cons, if_neg other, Nat.add_zero] at once
      rw [List.findIdx?_cons, if_neg other, ih once there, Option.map_some]

theorem insert_items {q : LimitedQueue T} {index : Nat} (item : T) (possible : index = 0 → ¬ q.buffer.full = true) :
    (q.buffer.insert index item).items = BoundedList.insertAt q.limit q.getSnapshot index item := by
  unfold CircularBuffer.insert BoundedList.insertAt
  dsimp only
  by_cases full : q.buffer.full = true
  · rw [if_pos full, if_neg fun none => possible none full, if_neg (full_iff.mp full)]
    rfl
  · rw [if_neg full, if_pos (Decidable.not_not.mp (mt full_iff.mpr full))]
    rfl

theorem replaceItem_first (q : LimitedQueue T) (eq : T → T → Bool) (needle replacement : T) :
    ((q.replaceItem eq needle replacement).1.getSnapshot, (q.replaceItem eq needle replacement).2) =
      BoundedList.replaceFirst (eq · needle) q.getSnapshot replacement := by
  unfold replaceItem BoundedList.replaceFirst getSnapshot
  cases q.buffer.items.findIdx? (fun x => eq x needle) with
  | some i => rfl
  | none => rfl

theorem findHint_find (q : LimitedQueue T) (hint : Nat) (pred : T → Bool) (once : q.getSnapshot.countP pred ≤ 1) :
    (q.findHint hint pred).map Prod.fst = q.getSnapshot.findIdx? pred ∧
      (q.findHint hint pred).map Prod.snd = q.getSnapshot.find? pred := by
  rw [List.find?_eq_bind_findIdx?_getElem?]
  unfold findHint
  split
  · next x hinted =>
    obtain ⟨there, isMatch⟩ := Option.filter_eq_some_iff.mp hinted
    rw [findIdx_hint once there isMatch]
    exact ⟨rfl, there.symm⟩
  · change _ = q.buffer.items.findIdx? pred ∧ _ = (q.buffer.items.findIdx? pred).bind fun i => q.buffer.items[i]?
    cases found : q.buffer.items.findIdx? pred with
    | none => exact ⟨rfl, rfl⟩
    | some i =>
      obtain ⟨inside, _⟩ := List.findIdx?_eq_some_iff_getElem.mp found
      simp only [Option.bind_some, List.getElem?_eq_getElem inside, Option.map_some, and_self]

/-- Where the first element matches, it is the first match. -/
theorem findIdx_of_first {q : LimitedQueue T} {pred : T → Bool} (isMatch : q.first.any pred = true) :
    q.buffer.items.findIdx? pred = some 0 := by
  unfold first at isMatch
  cases items : q.buffer.items with
  | nil => simp [items] at isMatch
  | cons x rest =>
    rw [items] at isMatch
    rw [List.findIdx?_cons, if_pos (by simpa using isMatch)]

theorem first_of_findIdx {q : LimitedQueue T} {pred : T → Bool} (found : q.buffer.items.findIdx? pred = some 0) :
    q.first.any pred = true := by
  obtain ⟨inside, isMatch, _⟩ := List.findIdx?_eq_some_iff_getElem.mp found
  rw [first, List.head?_eq_getElem?, List.getElem?_eq_getElem inside]
  exact isMatch

theorem insertBefore_possible {q : LimitedQueue T} {eq : T → T → Bool} {needle : T} (item : T)
    (possible : q.buffer.full = true → q.first.any (eq · needle) = false) :
    ((q.insertBefore eq needle item).1.getSnapshot, (q.insertBefore eq needle item).2) =
      BoundedList.insertBefore q.limit (eq · needle) q.getSnapshot item := by
  unfold insertBefore BoundedList.insertBefore
  split
  · next i found =>
    have room : i = 0 → ¬ q.buffer.full = true := by
      rintro rfl full
      rw [first_of_findIdx found] at possible
      cases possible full
    change _ = (match q.getSnapshot.findIdx? (eq · needle) with | some i => _ | none => _)
    rw [getSnapshot, getSnapshot, found]
    dsimp only
    rw [if_neg fun impossible => room impossible.1 (full_iff.mpr impossible.2), insert_items item room]
    rfl
  · next missing =>
    rw [getSnapshot, missing]

theorem insertAfter_possible {q : LimitedQueue T} {eq : T → T → Bool} {needle : T} (item : T)
    (possible : q.buffer.full = true → q.first.any (eq · needle) = false) :
    ((q.insertAfter eq needle item).1.getSnapshot, (q.insertAfter eq needle item).2) =
      BoundedList.insertAfter q.limit (eq · needle) q.getSnapshot item := by
  unfold insertAfter BoundedList.insertAfter
  split
  · next i found =>
    have room : i = 0 → ¬ q.buffer.full = true := by
      rintro rfl full
      rw [first_of_findIdx found] at possible
      cases possible full
    rw [getSnapshot, getSnapshot, found]
    dsimp only
    rw [if_neg fun impossible => room impossible.1 (full_iff.mpr impossible.2),
      insert_items item fun impossible => absurd impossible (Nat.succ_ne_zero i)]
    rfl
  · next missing =>
    rw [getSnapshot, missing]

theorem replaceItemAt_set (q : LimitedQueue T) (index : Nat) (replacement : T) :
    (q.replaceItemAt index replacement).1.getSnapshot = q.getSnapshot.set index replacement ∧
      (q.replaceItemAt index replacement).2 = (decide (index < q.getSnapshot.length), q.getSnapshot[index]?) := by
  unfold replaceItemAt
  split
  · next outside =>
    have beyond := List.getElem?_eq_none_iff.mp outside
    unfold getSnapshot
    rw [outside, decide_eq_false (Nat.not_lt.mpr beyond)]
    exact ⟨(List.set_eq_of_length_le beyond).symm, rfl⟩
  · next prev there =>
    obtain ⟨inside, _⟩ := List.getElem?_eq_some_iff.mp there
    unfold getSnapshot
    rw [there, decide_eq_true inside]
    exact ⟨rfl, rfl⟩

/-- A full queue says that it has inserted the item next to its first element, and a bounded
list does not do so. -/
theorem insert_full {q : LimitedQueue T} {eq : T → T → Bool} {needle : T} (item : T) (full : q.buffer.full = true)
    (isMatch : q.first.any (eq · needle) = true) :
    (q.insertBefore eq needle item).2 = true ∧ (q.insertAfter eq needle item).2 = true ∧
      (BoundedList.insertBefore q.limit (eq · needle) q.getSnapshot item).2 = false ∧
      (BoundedList.insertAfter q.limit (eq · needle) q.getSnapshot item).2 = false := by
  have found := findIdx_of_first isMatch
  unfold insertBefore insertAfter BoundedList.insertBefore BoundedList.insertAfter
  rw [getSnapshot, found]
  dsimp only
  rw [if_pos ⟨rfl, full_iff.mp full⟩, if_pos ⟨rfl, full_iff.mp full⟩]
  exact ⟨rfl, rfl, rfl, rfl⟩

/-- A queue with room for anything has a first element when it is full. -/
theorem pushBackDeleted_front {q : LimitedQueue T} (item : T) (some_room : 0 < q.limit) :
    ∃ deleted, q.pushBackDeleted item = some ({ q with buffer := q.buffer.push_back item }, q.buffer.full, deleted) ∧
      (BoundedList.pushBack q.limit q.getSnapshot item).2 = deleted := by
  unfold pushBackDeleted BoundedList.pushBack
  dsimp only
  split
  · next full =>
    rw [if_neg (full_iff.mp full), full]
    have filled := CircularBuffer.full_iff.mp full
    rw [getSnapshot]
    cases items : q.buffer.items with
    | nil =>
      rw [items] at filled
      exact absurd filled (Nat.ne_of_lt some_room)
    | cons front rest => exact ⟨some front, rfl, rfl⟩
  · next notFull =>
    rw [if_pos (Decidable.not_not.mp (mt full_iff.mpr notFull)), Bool.eq_false_iff.mpr notFull]
    exact ⟨none, rfl, rfl⟩

variable [BEq T]

/-- The queue behind the operation, and its answer. -/
def perform (q : LimitedQueue T) : Op T → Option (LimitedQueue T × Answer T)
  | .clear => some (q.clear, .nothing)
  | .pushBack item => some ((q.pushBack item).1, .flag (q.pushBack item).2)
  | .pushBackDeleted item => (q.pushBackDeleted item).map fun (q, full, deleted) => (q, .deleted full deleted)
  | .pushFront items => (q.pushFront items).map fun (q, pushed) => (q, .pushed pushed)
  | .replaceItem eq needle replacement =>
      some ((q.replaceItem eq needle replacement).1, .index (q.replaceItem eq needle replacement).2)
  | .replaceItemAt index replacement =>
      let (q, replaced, prev) := q.replaceItemAt index replacement
      some (q, .previous replaced prev)
  | .replaceItemHint hint needle replacement =>
      some ((q.replaceItemHint hint needle replacement).1, .index (q.replaceItemHint hint needle replacement).2)
  | .insertBefore eq needle item =>
      some ((q.insertBefore eq needle item).1, .flag (q.insertBefore eq needle item).2)
  | .insertAfter eq needle item => some ((q.insertAfter eq needle item).1, .flag (q.insertAfter eq needle item).2)
  | .find pred => some (q, .item (q.find pred))
  | .findHint hint pred => some (q, .located (q.findHint hint pred))

def step (q : LimitedQueue T) (op : Op T) : Option (LimitedQueue T) := (q.perform op).map Prod.fst

/-- What the operation is to do with a list of bounded length, and what it is to answer. -/
def Specified (limit : Nat) (items : List T) (answer : Answer T) (behind : List T) : Op T → Prop
  | .clear => behind = [] ∧ answer = .nothing
  | .pushBack item => behind = (BoundedList.pushBack limit items item).1 ∧ answer = .flag (limit ≤ items.length)
  | .pushBackDeleted item => behind = (BoundedList.pushBack limit items item).1 ∧
      answer = .deleted (limit ≤ items.length) (BoundedList.pushBack limit items item).2
  | .pushFront new => ∃ pushed, answer = .pushed pushed ∧ behind = pushed ++ items ∧ pushed <:+ new ∧
      pushed.length = min new.length (limit - items.length)
  | .replaceItem eq needle replacement =>
      ∃ i, answer = .index i ∧ (behind, i) = BoundedList.replaceFirst (eq · needle) items replacement
  | .replaceItemAt index replacement =>
      behind = items.set index replacement ∧ answer = .previous (index < items.length) items[index]?
  | .replaceItemHint _ needle replacement => items.countP (· == needle) ≤ 1 →
      ∃ i, answer = .index i ∧ (behind, i) = BoundedList.replaceFirst (· == needle) items replacement
  | .insertBefore eq needle item => ∃ done, answer = .flag done ∧
      (behind, done) = BoundedList.insertBefore limit (eq · needle) items item ∧
      (done = true → BoundedList.SitsBefore limit (eq · needle) items item behind) ∧ (done = false → behind = items)
  | .insertAfter eq needle item => ∃ done, answer = .flag done ∧
      (behind, done) = BoundedList.insertAfter limit (eq · needle) items item ∧
      (done = true → BoundedList.SitsAfter limit (eq · needle) items item behind) ∧ (done = false → behind = items)
  | .find pred => behind = items ∧ answer = .item (items.find? pred)
  | .findHint _ pred => behind = items ∧ (items.countP pred ≤ 1 →
      ∃ found, answer = .located found ∧ found.map Prod.fst = items.findIdx? pred ∧
        found.map Prod.snd = items.find? pred)

/-- The operation does with the items of the queue what it is to do with the list. -/
def Conforms (q : LimitedQueue T) (op : Op T) : Prop :=
  ∃ behind answer, q.perform op = some (behind, answer) ∧
    Specified q.limit q.getSnapshot answer behind.getSnapshot op

/-- The operation does not ask a queue without room for the first element, which the queue
does not have or loses. -/
def Possible (q : LimitedQueue T) : Op T → Prop
  | .pushBackDeleted _ => 0 < q.limit
  | .insertBefore eq needle _ | .insertAfter eq needle _ =>
      q.buffer.full = true → q.first.any (eq · needle) = false
  | _ => True

instance (q : LimitedQueue T) : ∀ op, Decidable (q.Possible op)
  | .pushBackDeleted _ => inferInstanceAs (Decidable (_ < _))
  | .insertBefore _ _ _ | .insertAfter _ _ _ => inferInstanceAs (Decidable (_ → _))
  | .clear | .pushBack _ | .pushFront _ | .replaceItem _ _ _ | .replaceItemAt _ _ | .replaceItemHint _ _ _ | .find _
  | .findHint _ _ => isTrue trivial

theorem replaceItemHint_first (q : LimitedQueue T) (hint : Nat) (needle replacement : T)
    (once : q.getSnapshot.countP (· == needle) ≤ 1) :
    ((q.replaceItemHint hint needle replacement).1.getSnapshot, (q.replaceItemHint hint needle replacement).2) =
      BoundedList.replaceFirst (· == needle) q.getSnapshot replacement := by
  unfold replaceItemHint
  split
  · next hinted =>
    rw [Option.any_eq_true] at hinted
    obtain ⟨x, there, isMatch⟩ := hinted
    unfold BoundedList.replaceFirst
    rw [findIdx_hint once there isMatch]
    rfl
  · exact replaceItem_first q (fun x y => x == y) needle replacement

theorem conforms_of_possible {q : LimitedQueue T} {op : Op T} (possible : q.Possible op) : q.Conforms op := by
  cases op with
  | clear => exact ⟨_, _, rfl, rfl, rfl⟩
  | pushBack item => exact ⟨_, _, rfl, push_back_items q item, congrArg Answer.flag (full_eq q)⟩
  | pushBackDeleted item =>
    obtain ⟨deleted, pushed, reported⟩ := pushBackDeleted_front item possible
    refine ⟨{ q with buffer := q.buffer.push_back item }, .deleted q.buffer.full deleted, by rw [perform, pushed]; rfl,
      push_back_items q item, ?_⟩
    rw [full_eq, reported]
  | pushFront items =>
    obtain ⟨behind, pushed, same⟩ := pushFront_pushed q items
    refine ⟨⟨q.limit, behind⟩, .pushed _, by rw [perform, pushed]; rfl, _, rfl, same, List.drop_suffix _ _, ?_⟩
    rw [List.length_drop]
    show _ = min items.length q.space
    omega
  | replaceItem eq needle replacement => exact ⟨_, _, rfl, _, rfl, replaceItem_first q eq needle replacement⟩
  | replaceItemAt index replacement =>
    obtain ⟨replaced, same⟩ := replaceItemAt_set q index replacement
    exact ⟨_, _, rfl, replaced, congrArg (fun found => Answer.previous found.1 found.2) same⟩
  | replaceItemHint hint needle replacement =>
    exact ⟨_, _, rfl, fun once => ⟨_, rfl, replaceItemHint_first q hint needle replacement once⟩⟩
  | insertBefore eq needle item =>
    have same := insertBefore_possible item possible
    refine ⟨_, _, rfl, _, rfl, same, fun done => ?_, fun missed => ?_⟩
    · exact BoundedList.insertBefore_sits (by rw [← same, done])
    · exact BoundedList.insertBefore_false (by rw [← same, missed])
  | insertAfter eq needle item =>
    have same := insertAfter_possible item possible
    refine ⟨_, _, rfl, _, rfl, same, fun done => ?_, fun missed => ?_⟩
    · exact BoundedList.insertAfter_sits (by rw [← same, done])
    · exact BoundedList.insertAfter_false (by rw [← same, missed])
  | find pred => exact ⟨q, _, rfl, rfl, rfl⟩
  | findHint hint pred => exact ⟨q, _, rfl, rfl, fun once => ⟨_, rfl, findHint_find q hint pred once⟩⟩

/-- A full queue says that it has inserted the item next to its first element, but it has not. -/
theorem possible_of_conforms {q : LimitedQueue T} {op : Op T} (conforms : q.Conforms op) : q.Possible op := by
  obtain ⟨behind, answer, performed, specified⟩ := conforms
  cases op with
  | pushBackDeleted item =>
    show 0 < q.limit
    by_contra nothing
    have size := q.buffer.size_le
    have empty : q.buffer.items = [] := List.eq_nil_of_length_eq_zero (by omega)
    have full : q.buffer.full = true := full_iff.mpr (by omega)
    have undefined : q.pushBackDeleted item = none := by simp only [pushBackDeleted, full, empty, if_true]
    rw [perform, undefined] at performed
    cases performed
  | insertBefore eq needle item =>
    intro full
    by_contra isMatch
    obtain ⟨yes, _, no, _⟩ := insert_full item full (Bool.not_eq_false _ ▸ isMatch)
    obtain ⟨_, rfl⟩ := Prod.mk.inj (Option.some.inj performed)
    obtain ⟨done, answered, same, _⟩ := specified
    rw [yes] at answered
    rw [← same] at no
    cases answered
    cases no
  | insertAfter eq needle item =>
    intro full
    by_contra isMatch
    obtain ⟨_, yes, _, no⟩ := insert_full item full (Bool.not_eq_false _ ▸ isMatch)
    obtain ⟨_, rfl⟩ := Prod.mk.inj (Option.some.inj performed)
    obtain ⟨done, answered, same, _⟩ := specified
    rw [yes] at answered
    rw [← same] at no
    cases answered
    cases no
  | clear | pushBack _ | pushFront _ | replaceItem _ _ _ | replaceItemAt _ _ | replaceItemHint _ _ _ | find _
  | findHint _ _ => trivial

theorem step_limit {q next : LimitedQueue T} {op : Op T} (taken : q.step op = some next) : next.limit = q.limit := by
  obtain ⟨⟨behind, answer⟩, performed, rfl⟩ := Option.map_eq_some_iff.mp taken
  cases op with
  | pushBackDeleted item =>
    obtain ⟨⟨pushed, full, deleted⟩, popped, same⟩ := Option.map_eq_some_iff.mp performed
    obtain ⟨rfl, _⟩ := Prod.mk.inj same
    unfold pushBackDeleted at popped
    dsimp only at popped
    split at popped
    · split at popped
      · cases popped
      · exact (Prod.mk.inj (Option.some.inj popped)).1 ▸ rfl
    · exact (Prod.mk.inj (Option.some.inj popped)).1 ▸ rfl
  | pushFront items =>
    obtain ⟨pushed, looped, _⟩ := pushFront_pushed q items
    rw [perform, looped] at performed
    exact (Prod.mk.inj (Option.some.inj performed)).1 ▸ rfl
  | replaceItem eq needle replacement =>
    obtain ⟨rfl, _⟩ := Prod.mk.inj (Option.some.inj performed)
    unfold replaceItem
    split <;> rfl
  | replaceItemAt index replacement =>
    obtain ⟨rfl, _⟩ := Prod.mk.inj (Option.some.inj performed)
    split <;> rfl
  | replaceItemHint hint needle replacement =>
    obtain ⟨rfl, _⟩ := Prod.mk.inj (Option.some.inj performed)
    unfold replaceItemHint
    split
    · rfl
    · split <;> rfl
  | insertBefore eq needle item =>
    obtain ⟨rfl, _⟩ := Prod.mk.inj (Option.some.inj performed)
    unfold insertBefore
    split <;> rfl
  | insertAfter eq needle item =>
    obtain ⟨rfl, _⟩ := Prod.mk.inj (Option.some.inj performed)
    unfold insertAfter
    split <;> rfl
  | clear | pushBack _ | find _ | findHint _ _ => exact (Prod.mk.inj (Option.some.inj performed)).1 ▸ rfl

theorem conforms_iff {q : LimitedQueue T} {op : Op T} : q.Conforms op ↔ q.Possible op :=
  ⟨possible_of_conforms, conforms_of_possible⟩

/-- Every operation of a run does with the queue what it is to do with a bounded list exactly
when none asks a queue without room for its first element; the queue is never too long. -/
theorem refines_bounded_list {limit : Nat} {ops : List (Op T)} :
    (Along step Conforms (.new limit) ops ↔ Along step Possible (.new limit) ops) ∧
      ∀ q, run step (.new limit) ops = some q → q.getSnapshot.length ≤ limit := by
  constructor
  · exact along_congr fun _ _ => conforms_iff
  · intro q ran
    have kept : q.limit = limit :=
      @run_keeps _ _ step _ _ (fun q => q.limit = limit) (fun _ _ _ same taken => (step_limit taken).trans same) _ ran rfl
    exact kept ▸ q.buffer.size_le

/-- Two items in a queue with room for two, and one behind the first of them. -/
theorem refines_bounded_list_full :
    Along step Conforms (.new 2) [.pushBack 1, .insertAfter (· == ·) 1 2, .pushBackDeleted 3, .replaceItemHint 0 3 (4 : Nat)] ∧
      (LimitedQueue.mk 2 ⟨[2, 4], by decide⟩).getSnapshot.length ≤ 2 :=
  ⟨refines_bounded_list.1.mpr (by decide), (@refines_bounded_list _ _ _
    [.pushBack 1, .insertAfter (· == ·) 1 2, .pushBackDeleted 3, .replaceItemHint 0 3 4]).2 _ rfl⟩

/-- An item before the first element of a full queue is reported, but not inserted. -/
theorem inserted_nowhere : ¬ ∀ (limit : Nat) (ops : List (Op Nat)), Along step Conforms (.new limit) ops := by
  intro holds
  have possible := (along_congr fun _ _ => conforms_iff).mp (holds 1 [.pushBack 1, .insertBefore (· == ·) 1 2])
  exact absurd possible (by decide)

end LimitedQueue

end Forserino.Messages
