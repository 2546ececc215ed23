import Mathlib.Algebra.Group.Int.Defs
import Mathlib.Algebra.GroupWithZero.Nat
import Mathlib.Data.List.Basic

/-! messages/LimitedQueue.hpp over boost::circular_buffer.

The buffer is taken as boost documents it: a list of at most capacity elements, whose
first element makes room when an element is added to a full one.
-/

set_option autoImplicit false

namespace Forserino.Messages

universe u

/-- boost::circular_buffer -/
structure CircularBuffer (T : Type u) (capacity : Nat) where
  items : List T
  size_le : items.length ≤ capacity

namespace CircularBuffer

variable {T : Type u} {capacity : Nat}

def empty (capacity : Nat) : CircularBuffer T capacity := ⟨[], Nat.zero_le capacity⟩

def full (b : CircularBuffer T capacity) : Bool := capacity == b.items.length

theorem full_iff {b : CircularBuffer T capacity} : b.full = true ↔ b.items.length = capacity := by
  rw [full, beq_iff_eq, eq_comm]

theorem size_lt_of_not_full {b : CircularBuffer T capacity} (notFull : ¬ b.full = true) : b.items.length < capacity :=
  Nat.lt_of_le_of_ne b.size_le fun same => notFull (full_iff.mpr same)

/-- In a full buffer the first element is overwritten. -/
def push_back (b : CircularBuffer T capacity) (item : T) : CircularBuffer T capacity where
  items := if b.full then (b.items ++ [item]).tail else b.items ++ [item]
  size_le := by
    split
    · simpa using b.size_le
    · next notFull => simpa [Nat.succ_le_iff] using size_lt_of_not_full notFull

/-- In a full buffer the last element is overwritten. -/
def push_front (b : CircularBuffer T capacity) (item : T) : CircularBuffer T capacity where
  items := if b.full then (item :: b.items).dropLast else item :: b.items
  size_le := by
    split
    · simpa using b.size_le
    · next notFull => simpa [Nat.succ_le_iff] using size_lt_of_not_full notFull

/-- In a full buffer the first element is overwritten, and nothing is inserted at begin(). -/
def insert (b : CircularBuffer T capacity) (pos : Nat) (item : T) : CircularBuffer T capacity where
  items :=
    if b.full then
      if pos = 0 then b.items else (b.items.take pos ++ item :: b.items.drop pos).tail
    else b.items.take pos ++ item :: b.items.drop pos
  size_le := by
    have size := b.size_le
    split
    · split
      · exact size
      · simp only [List.length_tail, List.length_append, List.length_take, List.length_cons, List.length_drop]
        omega
    · next notFull =>
      have room := size_lt_of_not_full notFull
      simp only [List.length_append, List.length_take, List.length_cons, List.length_drop]
      omega

def set (b : CircularBuffer T capacity) (index : Nat) (item : T) : CircularBuffer T capacity where
  items := b.items.set index item
  size_le := by rw [List.length_set]; exact b.size_le

def clear (_ : CircularBuffer T capacity) : CircularBuffer T capacity := empty capacity

end CircularBuffer

/-- static_cast<int> of a size_t -/
def toInt (n : Nat) : Int := if n % 2 ^ 32 < 2 ^ 31 then n % 2 ^ 32 else n % 2 ^ 32 - 2 ^ 32

/-- LimitedQueue: the buffer has the limit as its capacity. -/
structure LimitedQueue (T : Type u) where
  limit : Nat
  buffer : CircularBuffer T limit

namespace LimitedQueue

variable {T : Type u}

def new (limit : Nat) : LimitedQueue T := ⟨limit, .empty limit⟩

def getSnapshot (q : LimitedQueue T) : List T := q.buffer.items

def space (q : LimitedQueue T) : Nat := q.limit - q.buffer.items.length

def get (q : LimitedQueue T) (index : Nat) : Option T := q.buffer.items[index]?

def first (q : LimitedQueue T) : Option T := q.buffer.items.head?

def last (q : LimitedQueue T) : Option T := q.buffer.items.getLast?

def clear (q : LimitedQueue T) : LimitedQueue T := { q with buffer := q.buffer.clear }

/-- pushBack with an out parameter; there is none where front() of an empty buffer is read. -/
def pushBackDeleted (q : LimitedQueue T) (item : T) : Option (LimitedQueue T × Bool × Option T) :=
  let pushed : LimitedQueue T := { q with buffer := q.buffer.push_back item }
  if q.buffer.full then
    match q.buffer.items with
    | [] => none
    | front :: _ => some (pushed, true, some front)
  else some (pushed, false, none)

def pushBack (q : LimitedQueue T) (item : T) : LimitedQueue T × Bool :=
  ({ q with buffer := q.buffer.push_back item }, q.buffer.full)

/-- The loop of pushFront, with the number of its rounds that are left. There is none where
an item outside of the vector is read. -/
def pushFrontLoop {limit : Nat} (items : List T) :
    Nat → Nat → Nat → CircularBuffer T limit → List T → Option (CircularBuffer T limit × List T)
  | 0, _, _, buffer, pushed => some (buffer, pushed)
  | rounds + 1, f, b, buffer, pushed =>
      match items[b]?, items[f]? with
      | some back, some front => pushFrontLoop items rounds (f + 1) (b - 1) (buffer.push_front back) (pushed ++ [front])
      | _, _ => none

def pushFront (q : LimitedQueue T) (items : List T) : Option (LimitedQueue T × List T) :=
  let numToPush := min items.length q.space
  (pushFrontLoop items numToPush (items.length - numToPush) (items.length - 1) q.buffer []).map
    fun (buffer, pushed) => ({ q with buffer }, pushed)

def replaceItem (q : LimitedQueue T) (eq : T → T → Bool) (needle replacement : T) : LimitedQueue T × Int :=
  match q.buffer.items.findIdx? (eq · needle) with
  | some i => ({ q with buffer := q.buffer.set i replacement }, toInt i)
  | none => (q, -1)

/-- replaceItem at an index, with the item that was there. -/
def replaceItemAt (q : LimitedQueue T) (index : Nat) (replacement : T) : LimitedQueue T × Bool × Option T :=
  match q.buffer.items[index]? with
  | none => (q, false, none)
  | some prev => ({ q with buffer := q.buffer.set index replacement }, true, some prev)

def replaceItemHint [BEq T] (q : LimitedQueue T) (hint : Nat) (needle replacement : T) : LimitedQueue T × Int :=
  if (q.buffer.items[hint]?).any (· == needle) then
    ({ q with buffer := q.buffer.set hint replacement }, toInt hint)
  else
    match q.buffer.items.findIdx? (· == needle) with
    | some i => ({ q with buffer := q.buffer.set i replacement }, toInt i)
    | none => (q, -1)

def insertBefore (q : LimitedQueue T) (eq : T → T → Bool) (needle item : T) : LimitedQueue T × Bool :=
  match q.buffer.items.findIdx? (eq · needle) with
  | some i => ({ q with buffer := q.buffer.insert i item }, true)
  | none => (q, false)

def insertAfter (q : LimitedQueue T) (eq : T → T → Bool) (needle item : T) : LimitedQueue T × Bool :=
  match q.buffer.items.findIdx? (eq · needle) with
  | some i => ({ q with buffer := q.buffer.insert (i + 1) item }, true)
  | none => (q, false)

def find (q : LimitedQueue T) (pred : T → Bool) : Option T := q.buffer.items.find? pred

def findHint (q : LimitedQueue T) (hint : Nat) (pred : T → Bool) : Option (Nat × T) :=
  match q.buffer.items[hint]?.filter pred with
  | some item => some (hint, item)
  | none => (q.buffer.items.findIdx? pred).bind fun i => q.buffer.items[i]?.map fun item => (i, item)

def rfind (q : LimitedQueue T) (pred : T → Bool) : Option T := q.buffer.items.reverse.find? pred

end LimitedQueue

end Forserino.Messages
