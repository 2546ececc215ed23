import Forserino.Foundation.Sorting
import Forserino.Messages.BoundedList
import Forserino.Qt.Text
import Mathlib.Data.List.Lex
import Mathlib.Order.WithBot

/-! The messages that SearchPopup searches, and when combining them keeps the order of each view.

A message is a pointer, compared as one. A message without a valid time is less than all others.
-/

set_option autoImplicit false

namespace Forserino.Messages

open Foundation Qt

universe u

variable {M : Type u}

/-- What is read of the messages. -/
structure SearchInfo (M : Type u) where
  id : M → QString
  serverReceivedTime : M → Option Int

/-- A view that is searched: its filter, if it has one, and the messages of its channel. -/
structure SearchedView (M : Type u) where
  filterSet : Option (M → Bool)
  snapshot : List M

namespace SearchInfo

variable (info : SearchInfo M)

/-- a->id > b->id, by the units of the ids -/
def idLater (a b : M) : Bool := lessBy (fun message => (info.id message).map UInt16.toNat) b a

/-- (a->id != nullptr) && a->id == b->id -/
def sameId (a b : M) : Bool := !(info.id a).isEmpty && info.id a == info.id b

def timeKey (message : M) : WithBot Int := info.serverReceivedTime message

/-- a->serverReceivedTime < b->serverReceivedTime -/
def earlier (a b : M) : Bool := lessBy info.timeKey a b

variable {info} {a b c : M}

theorem idLater_order : StrictWeakOrder info.idLater :=
  (StrictWeakOrder.lessBy fun message => (info.id message).map UInt16.toNat).flip

theorem earlier_order : StrictWeakOrder info.earlier := StrictWeakOrder.lessBy info.timeKey

theorem sameId_iff : info.sameId a b = true ↔ info.id a ≠ [] ∧ info.id a = info.id b := by simp [sameId]

/-- By a later id, or one of two without an id. -/
def Above (info : SearchInfo M) (a b : M) : Prop :=
  (info.id b).map UInt16.toNat < (info.id a).map UInt16.toNat ∨ info.id a = [] ∧ info.id b = []

theorem Above.trans (first : info.Above a b) (second : info.Above b c) : info.Above a c := by
  rcases first with first | ⟨noneA, noneB⟩ <;> rcases second with second | ⟨noneB', noneC⟩
  · exact Or.inl (second.trans first)
  · exact Or.inl (by rw [noneC, ← noneB']; exact first)
  · rw [noneB, List.map_nil] at second
    exact absurd second (List.not_lt_nil _)
  · exact Or.inr ⟨noneA, noneC⟩

/-- What neither comes behind the other nor is the same. -/
theorem above_of_not (notLater : info.idLater b a = false) (notSame : ¬ info.sameId a b = true) : info.Above a b := by
  rcases (lessBy_eq_false.mp notLater).lt_or_eq with below | same
  · exact Or.inl below
  · have same : info.id a = info.id b := (map_toNat_inj.mp same).symm
    have none : info.id a = [] := by
      by_contra some
      exact notSame (sameId_iff.mpr ⟨some, same⟩)
    exact Or.inr ⟨none, same ▸ none⟩

end SearchInfo

/-- The messages of the view that its filter lets through. -/
def SearchedView.passing (view : SearchedView M) : List M := view.snapshot.filter (view.filterSet.getD fun _ => true)

namespace SearchPopup

variable (info : SearchInfo M) (sort : Sorting M)

/-- The loop over the views. -/
def combinedSnapshot (views : List (SearchedView M)) : List M := views.flatMap SearchedView.passing

/-- The combined messages, sorted by id and with the duplicates erased. -/
def erased (views : List (SearchedView M)) : List M :=
  uniqueBy info.sameId (sort.apply info.idLater (combinedSnapshot views))

/-- There is none where pushFront reads outside of the vector. -/
def buildSnapshot (views : List (SearchedView M)) : Option (List M) :=
  match views with
  | [view] => some view.snapshot
  | views =>
    let combined := sort.apply info.earlier (erased info sort views)
    ((LimitedQueue.new combined.length).pushFront combined).map fun (queue, _) => queue.getSnapshot

/-- The list has every message that passes, none twice and no id twice, and the messages of a view in their order. -/
structure KeepsChat (views : List (SearchedView M)) (list : List M) : Prop where
  complete : ∀ view ∈ views, ∀ message ∈ view.passing, message ∈ list
  once : list.Nodup
  ids : ∀ a ∈ list, ∀ b ∈ list, info.id a = info.id b → info.id a ≠ [] → a = b
  ordered : ∀ view ∈ views, ∀ a b, a ≠ b → [a, b].Sublist view.snapshot → a ∈ list → b ∈ list → [a, b].Sublist list

variable [DecidableEq M] in
/-- What keeps the list in order, whatever the sorts do with messages that compare as equal. -/
structure Sortable (views : List (SearchedView M)) : Prop where
  withoutId : ∀ message, info.id message = [] → (combinedSnapshot views).count message ≤ 1
  sameId : ∀ a ∈ combinedSnapshot views, ∀ b ∈ combinedSnapshot views, info.id a = info.id b → info.id a ≠ [] → a = b
  ascending : ∀ view ∈ views, ∀ a b, a ≠ b → [a, b].Sublist view.snapshot → a ∈ combinedSnapshot views →
    b ∈ combinedSnapshot views → info.earlier a b = true

variable {info sort} {views : List (SearchedView M)}

theorem mem_combinedSnapshot {message : M} :
    message ∈ combinedSnapshot views ↔ ∃ view ∈ views, message ∈ view.passing :=
  List.mem_flatMap

/-- With several views the queue has room for all of the messages. -/
theorem buildSnapshot_several (several : 2 ≤ views.length) :
    buildSnapshot info sort views = some (sort.apply info.earlier (erased info sort views)) := by
  match views, several with
  | first :: second :: rest, _ =>
    rw [buildSnapshot]
    · exact LimitedQueue.pushFront_new _
    · intro view single
      cases single

theorem mem_combinedSnapshot_of_erased {message : M} (left : message ∈ erased info sort views) :
    message ∈ combinedSnapshot views :=
  (sort.perm _ _).subset ((uniqueBy_sublist _).subset left)

/-- Of a message that passes, it or one of the same id is left. -/
theorem exists_mem_erased {message : M} (passes : message ∈ combinedSnapshot views) :
    ∃ kept ∈ erased info sort views, kept = message ∨ info.sameId kept message = true :=
  exists_mem_uniqueBy ((sort.perm _ _).mem_iff.mpr passes)

theorem erased_pairwise : (erased info sort views).Pairwise info.Above := by
  have sorted := sort.sorted info.idLater (combinedSnapshot views) SearchInfo.idLater_order
  have left : Sorted info.idLater (erased info sort views) := sorted.sublist (uniqueBy_sublist _)
  have apart : (erased info sort views).IsChain fun a b => ¬ info.sameId a b = true := isChain_uniqueBy _
  have transitive : IsTrans M info.Above := ⟨fun _ _ _ => SearchInfo.Above.trans⟩
  refine List.isChain_iff_pairwise.mp (List.isChain_iff_forall_rel_of_append_cons_cons.mpr ?_)
  intro a b front back parts
  have neighbours : [a, b].Sublist (erased info sort views) :=
    parts ▸ (List.sublist_append_left [a, b] back).trans (List.sublist_append_right front _)
  have notLater := List.rel_of_pairwise_cons (left.sublist neighbours) (List.mem_singleton_self b)
  exact SearchInfo.above_of_not notLater (List.isChain_iff_forall_rel_of_append_cons_cons.mp apart parts)

section Count

variable [DecidableEq M]

/-- A message without an id is left as often as it was there. -/
theorem count_erased {message : M} (none : info.id message = []) :
    (erased info sort views).count message = (combinedSnapshot views).count message := by
  have exempt : ∀ a b, info.sameId a b = true → (info.id b).isEmpty = false := by
    intro a b same
    obtain ⟨some, same⟩ := SearchInfo.sameId_iff.mp same
    rw [← same]
    simpa using some
  have kept : (info.id message).isEmpty = true := by rw [none]; rfl
  rw [← List.count_filter (p := fun message => (info.id message).isEmpty) kept, erased, filter_uniqueBy exempt,
    List.count_filter (p := fun message => (info.id message).isEmpty) kept]
  exact (sort.perm _ _).count_eq message

theorem Sortable.nodup (sortable : Sortable info views) : (erased info sort views).Nodup := by
  rw [List.nodup_iff_sublist]
  intro message twice
  have above : info.Above message message := List.rel_of_pairwise_cons (erased_pairwise.sublist twice) (by simp)
  rcases above with below | ⟨none, -⟩
  · exact absurd below (lt_irrefl _)
  -- without an id, it would have come up twice before
  · have counted := twice.count_le message
    have once := sortable.withoutId message none
    rw [count_erased none] at counted
    simp at counted
    omega

theorem Sortable.mem_iff (sortable : Sortable info views) {message : M} :
    message ∈ erased info sort views ↔ message ∈ combinedSnapshot views := by
  refine ⟨mem_combinedSnapshot_of_erased, fun passes => ?_⟩
  have left : ∃ kept ∈ erased info sort views, kept = message ∨ info.sameId kept message = true :=
    exists_mem_erased passes
  obtain ⟨kept, left, same⟩ := left
  rcases same with rfl | same
  · exact left
  -- the one that is left for its id is the message itself
  · obtain ⟨some, same⟩ := SearchInfo.sameId_iff.mp same
    cases sortable.sameId kept (mem_combinedSnapshot_of_erased left) message passes same some
    exact left

theorem Sortable.keepsChat (sortable : Sortable info views) :
    KeepsChat info views (sort.apply info.earlier (erased info sort views)) where
  complete view member message passes :=
    (sort.perm _ _).mem_iff.mpr (sortable.mem_iff.mpr (mem_combinedSnapshot.mpr ⟨view, member, passes⟩))
  once := (sort.perm _ _).nodup_iff.mpr sortable.nodup
  ids a memberA b memberB := by
    rw [(sort.perm _ _).mem_iff, sortable.mem_iff] at memberA memberB
    exact sortable.sameId a memberA b memberB
  ordered view member a b other before memberA memberB := by
    have earlier : info.earlier a b = true := by
      refine sortable.ascending view member a b other before ?_ ?_
      · exact sortable.mem_iff.mp ((sort.perm _ _).mem_iff.mp memberA)
      · exact sortable.mem_iff.mp ((sort.perm _ _).mem_iff.mp memberB)
    rcases pair_sublist_or memberA memberB other with inOrder | reversed
    · exact inOrder
    · have sorted := (sort.sorted info.earlier _ SearchInfo.earlier_order).sublist reversed
      have notEarlier := List.rel_of_pairwise_cons sorted (List.mem_singleton_self a)
      rw [notEarlier] at earlier
      cases earlier

/-- If every sort leaves the messages in order, no sort had a choice. -/
theorem Sortable.of_keepsChat
    (keeps : ∀ sort : Sorting M, KeepsChat info views (sort.apply info.earlier (erased info sort views))) :
    Sortable info views where
  withoutId message none := by
    have once := List.nodup_iff_count_le_one.mp (keeps default).once message
    rw [(default : Sorting M).perm _ _ |>.count_eq, count_erased none] at once
    exact once
  sameId a passesA b passesB := by
    obtain ⟨viewA, inA, passesA⟩ := mem_combinedSnapshot.mp passesA
    obtain ⟨viewB, inB, passesB⟩ := mem_combinedSnapshot.mp passesB
    exact (keeps default).ids a ((keeps default).complete viewA inA a passesA) b
      ((keeps default).complete viewB inB b passesB)
  ascending view member a b other before passesA passesB := by
    by_contra notEarlier
    obtain ⟨viewA, inA, passesA⟩ := mem_combinedSnapshot.mp passesA
    obtain ⟨viewB, inB, passesB⟩ := mem_combinedSnapshot.mp passesB
    -- the sort may put the later one in front
    have kept := keeps (.preferring [b, a])
    have memberA := kept.complete viewA inA a passesA
    have memberB := kept.complete viewB inB b passesB
    have sorted : Sorted info.earlier [b, a] := by simp [Sorted, eq_false_of_ne_true notEarlier]
    have within : [b, a].Subperm (erased info (.preferring [b, a]) views) := by
      refine List.subperm_of_subset (by simp [Ne.symm other]) ?_
      have perm := (Sorting.preferring [b, a]).perm info.earlier (erased info (.preferring [b, a]) views)
      simp [perm.mem_iff.mp memberA, perm.mem_iff.mp memberB]
    have reversed := Sorting.sublist_preferring SearchInfo.earlier_order sorted within
    exact not_pair_sublist kept.once reversed (kept.ordered view member a b other before memberA memberB)

/-- The combined list keeps the order of every view exactly if the messages leave the two sorts no choice. -/
theorem buildSnapshot_keepsChat_iff (info : SearchInfo M) (views : List (SearchedView M))
    (several : 2 ≤ views.length) :
    (∀ sort : Sorting M, ∃ list, buildSnapshot info sort views = some list ∧ KeepsChat info views list) ↔
      Sortable info views := by
  simp only [buildSnapshot_several several, Option.some.injEq, exists_eq_left']
  exact ⟨Sortable.of_keepsChat, fun sortable _ => sortable.keepsChat⟩

end Count

/-- A view and one of the same channel with a filter. -/
def sharedViews : List (SearchedView Nat) := [⟨none, [1, 2]⟩, ⟨some (· != 3), [1, 2, 3, 4]⟩]

/-- Messages with an id and a time. -/
def numbered : SearchInfo Nat where
  id message := [message.toUInt16]
  serverReceivedTime message := some message

theorem buildSnapshot_keepsChat_iff_shared : 2 ≤ sharedViews.length ∧
    ∀ sort : Sorting Nat, ∃ list, buildSnapshot numbered sort sharedViews = some list ∧
      KeepsChat numbered sharedViews list := by
  refine ⟨by decide, (buildSnapshot_keepsChat_iff numbered sharedViews (by decide)).mpr ⟨?_, by decide, ?_⟩⟩
  · intro message none
    cases none
  · have ascending : ∀ view ∈ sharedViews, view.snapshot.Pairwise fun a b => numbered.earlier a b = true := by
      decide
    intro view member a b _ before _ _
    exact List.pairwise_iff_forall_sublist.mp (ascending view member) before

/-- A message without an id of a channel that is shown in two views is listed twice. -/
theorem not_keepsChat_system : ¬ ∀ (info : SearchInfo Nat) (sort : Sorting Nat) (views : List (SearchedView Nat)),
    2 ≤ views.length →
    (∀ view ∈ views, (view.snapshot.filterMap info.serverReceivedTime).Pairwise (· ≤ ·)) →
    ∃ list, buildSnapshot info sort views = some list ∧ KeepsChat info views list := by
  intro keeps
  let info : SearchInfo Nat := ⟨fun _ => [], fun _ => none⟩
  let views : List (SearchedView Nat) := [⟨none, [0]⟩, ⟨none, [0]⟩]
  obtain ⟨list, built, kept⟩ := keeps info default views (by decide) (by decide)
  rw [buildSnapshot_several (by decide), Option.some.injEq] at built
  have once := List.nodup_iff_count_le_one.mp kept.once 0
  have twice : list.count 0 = 2 := by
    rw [← built, ((default : Sorting Nat).perm _ _).count_eq, count_erased rfl]
    rfl
  omega

end SearchPopup

end Forserino.Messages
