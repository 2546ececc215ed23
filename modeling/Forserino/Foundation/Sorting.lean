import Forserino.Foundation.Neighbours
import Mathlib.Data.List.Lex
import Mathlib.Data.List.Pairwise
import Mathlib.Data.List.Perm.Subperm
import Mathlib.Order.Lattice

/-! The orders in which a sort may leave a list, and sets that are kept sorted.
-/

set_option autoImplicit false

namespace Forserino.Foundation

universe u v

variable {α : Type u} {β : Type v}

/-- What std::sort and std::set ask of a comparison. -/
structure StrictWeakOrder (less : α → α → Bool) : Prop where
  asymm : ∀ a b, less a b = true → less b a = false
  trans : ∀ a b c, less b a = false → less c b = false → less c a = false

/-- One comes before the other by its key. -/
def lessBy [LinearOrder β] (key : α → β) (a b : α) : Bool := decide (key a < key b)

/-- One comes before the other by its key, or by another comparison if they have the same key. -/
def lexBy [LinearOrder β] (key : α → β) (less : α → α → Bool) (a b : α) : Bool :=
  if key a = key b then less a b else lessBy key a b

theorem lessBy_eq_false [LinearOrder β] {key : α → β} {a b : α} : lessBy key a b = false ↔ key b ≤ key a := by
  rw [lessBy, decide_eq_false_iff_not, not_lt]

theorem StrictWeakOrder.lessBy [LinearOrder β] (key : α → β) : StrictWeakOrder (lessBy key) := by
  constructor
  · intro a b before
    exact lessBy_eq_false.mpr (of_decide_eq_true before).le
  · intro a b c first second
    rw [lessBy_eq_false] at first second ⊢
    exact first.trans second

theorem StrictWeakOrder.flip {less : α → α → Bool} (order : StrictWeakOrder less) :
    StrictWeakOrder fun a b => less b a where
  asymm a b := order.asymm b a
  trans a b c first second := order.trans c b a second first

theorem StrictWeakOrder.comap {less : β → β → Bool} (order : StrictWeakOrder less) (key : α → β) :
    StrictWeakOrder fun a b => less (key a) (key b) where
  asymm a b := order.asymm (key a) (key b)
  trans a b c := order.trans (key a) (key b) (key c)

theorem lexBy_eq_false [LinearOrder β] {key : α → β} {less : α → α → Bool} {a b : α} :
    lexBy key less b a = false ↔ key a < key b ∨ key a = key b ∧ less b a = false := by
  rw [lexBy]
  by_cases same : key b = key a
  · simp [same]
  · rw [if_neg same, lessBy_eq_false, le_iff_lt_or_eq]
    simp [Ne.symm same]

theorem StrictWeakOrder.lexBy [LinearOrder β] (key : α → β) {less : α → α → Bool} (order : StrictWeakOrder less) :
    StrictWeakOrder (lexBy key less) := by
  constructor
  · intro a b before
    rw [Foundation.lexBy] at before
    rw [lexBy_eq_false]
    by_cases same : key a = key b
    · rw [if_pos same] at before
      exact .inr ⟨same, order.asymm a b before⟩
    · rw [if_neg same] at before
      exact .inl (of_decide_eq_true before)
  · intro a b c first second
    rw [lexBy_eq_false] at first second ⊢
    rcases first with first | ⟨sameFirst, first⟩ <;> rcases second with second | ⟨sameSecond, second⟩
    · exact .inl (first.trans second)
    · exact .inl (sameSecond ▸ first)
    · exact .inl (sameFirst ▸ second)
    · exact .inr ⟨sameFirst.trans sameSecond, order.trans a b c first second⟩

/-- Nothing stands behind what it is less than. -/
def Sorted (less : α → α → Bool) (l : List α) : Prop := l.Pairwise fun a b => less b a = false

/-- std::sort, which leaves elements of which none is less in an order of its own. -/
structure Sorting (α : Type u) where
  apply : (α → α → Bool) → List α → List α
  perm : ∀ less l, (apply less l).Perm l
  sorted : ∀ less l, StrictWeakOrder less → Sorted less (apply less l)

theorem StrictWeakOrder.trans' {less : α → α → Bool} (order : StrictWeakOrder less) (a b c : α)
    (first : (!less b a) = true) (second : (!less c b) = true) : (!less c a) = true := by
  simp only [Bool.not_eq_true'] at first second ⊢
  exact order.trans a b c first second

theorem StrictWeakOrder.total {less : α → α → Bool} (order : StrictWeakOrder less) (a b : α) :
    (!less b a || !less a b) = true := by
  cases before : less b a with
  | false => rfl
  | true =>
    rw [order.asymm b a before]
    rfl

/-- A stable sort. -/
def stableSort (less : α → α → Bool) (l : List α) : List α := l.mergeSort fun a b => !less b a

theorem sorted_stableSort {less : α → α → Bool} (order : StrictWeakOrder less) (l : List α) :
    Sorted less (stableSort less l) := by
  have sorted : (stableSort less l).Pairwise fun a b => (!less b a) = true :=
    List.pairwise_mergeSort order.trans' order.total l
  exact sorted.imp fun notBefore => by simpa using notBefore

theorem sublist_stableSort {less : α → α → Bool} (order : StrictWeakOrder less) {s l : List α} (sorted : Sorted less s)
    (within : s.Sublist l) : s.Sublist (stableSort less l) := by
  refine List.sublist_mergeSort order.trans' order.total (sorted.imp fun notBefore => ?_) within
  rw [notBefore]
  rfl

section Prefer

variable [DecidableEq α]

/-- The list with the chosen elements in front, if it has them. -/
def prefer (chosen l : List α) : List α := if chosen.Subperm l then chosen ++ l.diff chosen else l

theorem prefer_perm (chosen l : List α) : (prefer chosen l).Perm l := by
  rw [prefer]
  split
  next within => exact List.subperm_append_diff_self_of_count_le (List.subperm_ext_iff.mp within)
  next => exact List.Perm.refl l

/-- The sort that leaves the chosen elements in their order, where it may. -/
def Sorting.preferring (chosen : List α) : Sorting α where
  apply less l := stableSort less (prefer chosen l)
  perm _ l := (List.mergeSort_perm _ _).trans (prefer_perm chosen l)
  sorted _ _ order := sorted_stableSort order _

instance : Inhabited (Sorting α) := ⟨.preferring []⟩

theorem Sorting.sublist_preferring {less : α → α → Bool} (order : StrictWeakOrder less) {chosen l : List α}
    (sorted : Sorted less chosen) (within : chosen.Subperm l) :
    chosen.Sublist ((Sorting.preferring chosen).apply less l) := by
  refine sublist_stableSort order sorted ?_
  rw [prefer, if_pos within]
  exact List.sublist_append_left chosen _

/-- What is sorted already may be left as it is. -/
theorem Sorting.exists_sublist {less : α → α → Bool} (order : StrictWeakOrder less) {chosen l : List α}
    (sorted : Sorted less chosen) (within : chosen.Subperm l) : ∃ sort : Sorting α, chosen.Sublist (sort.apply less l) :=
  ⟨.preferring chosen, Sorting.sublist_preferring order sorted within⟩

end Prefer

/-- A list in which every element is less than the next is the only sorted one of its elements. -/
theorem Sorted.eq_of_perm {less : α → α → Bool} {l l' : List α} (sorted : Sorted less l)
    (strict : l'.Pairwise fun a b => less a b = true) (order : StrictWeakOrder less) (same : l.Perm l') : l = l' := by
  refine List.Perm.eq_of_pairwise ?_ sorted (strict.imp fun before => order.asymm _ _ before) same
  intro a b memberA memberB notBefore notBehind
  by_contra other
  have symmetric : Std.Symm fun a b => less a b = true ∨ less b a = true := ⟨fun _ _ => Or.symm⟩
  have compared := List.Pairwise.forall (R := fun a b => less a b = true ∨ less b a = true)
    (strict.imp Or.inl) (same.subset memberA) memberB other
  rw [notBefore, notBehind] at compared
  cases compared with
  | inl before => cases before
  | inr before => cases before

/-! ## Sets -/

/-- std::set::insert, which leaves the set as it is if it has an equivalent element. -/
def setInsert (less : α → α → Bool) (a : α) : List α → List α
  | [] => [a]
  | b :: s =>
      if less a b then a :: b :: s
      else if less b a then b :: setInsert less a s
      else b :: s

/-- The set of the elements, put into it one after the other. -/
def sortedSet (less : α → α → Bool) (l : List α) : List α := l.foldl (fun s a => setInsert less a s) []

theorem StrictWeakOrder.lt_trans {less : α → α → Bool} (order : StrictWeakOrder less) {a b c : α}
    (first : less a b = true) (second : less b c = true) : less a c = true := by
  by_contra notBefore
  have notBefore := eq_false_of_ne_true notBefore
  have absurd_ := order.trans b c a (order.asymm b c second) notBefore
  rw [first] at absurd_
  cases absurd_

theorem mem_setInsert {less : α → α → Bool} {a x : α} {s : List α} (member : x ∈ setInsert less a s) :
    x = a ∨ x ∈ s := by
  induction s with
  | nil => exact .inl (List.mem_singleton.mp member)
  | cons b s ih =>
    rw [setInsert] at member
    split at member
    · exact List.mem_cons.mp member
    · split at member
      · rcases List.mem_cons.mp member with rfl | member
        · exact .inr List.mem_cons_self
        · exact (ih member).imp_right (List.mem_cons_of_mem b)
      · exact .inr member

/-- Where only equal elements are equivalent, nothing is left out. -/
theorem mem_setInsert_iff {less : α → α → Bool} (equal : ∀ a b, less a b = false → less b a = false → a = b)
    {a x : α} {s : List α} : x ∈ setInsert less a s ↔ x = a ∨ x ∈ s := by
  refine ⟨mem_setInsert, fun member => ?_⟩
  induction s with
  | nil => exact List.mem_singleton.mpr (member.resolve_right (by simp))
  | cons b s ih =>
    rw [setInsert]
    split
    next => exact List.mem_cons.mpr member
    next notBefore =>
      split
      next =>
        rw [List.mem_cons] at member ⊢
        exact (or_left_comm.mp member).imp_right ih
      next notBehind =>
        cases equal a b (eq_false_of_ne_true notBefore) (eq_false_of_ne_true notBehind)
        exact member.elim (fun same => same ▸ List.mem_cons_self) id

theorem mem_sortedSet {less : α → α → Bool} (equal : ∀ a b, less a b = false → less b a = false → a = b)
    {x : α} {l : List α} : x ∈ sortedSet less l ↔ x ∈ l := by
  suffices kept : ∀ s : List α, x ∈ l.foldl (fun s a => setInsert less a s) s ↔ x ∈ s ∨ x ∈ l from
    (kept []).trans (by simp)
  induction l with
  | nil => simp
  | cons a l ih =>
    intro s
    rw [List.foldl_cons, ih, mem_setInsert_iff equal, List.mem_cons, or_comm (a := x = a), or_assoc]

theorem setInsert_strict {less : α → α → Bool} (order : StrictWeakOrder less) (a : α) {s : List α}
    (strict : s.Pairwise fun a b => less a b = true) : (setInsert less a s).Pairwise fun a b => less a b = true := by
  induction s with
  | nil => exact List.pairwise_singleton _ a
  | cons b s ih =>
    have least : ∀ x ∈ s, less b x = true := fun x => List.rel_of_pairwise_cons strict
    rw [setInsert]
    split
    next before =>
      refine strict.cons fun x member => ?_
      rcases List.mem_cons.mp member with rfl | member
      · exact before
      · exact order.lt_trans before (least x member)
    next =>
      split
      next behind =>
        refine (ih strict.of_cons).cons fun x member => ?_
        rcases mem_setInsert member with rfl | member
        · exact behind
        · exact least x member
      next => exact strict

theorem sortedSet_strict {less : α → α → Bool} (order : StrictWeakOrder less) (l : List α) :
    (sortedSet less l).Pairwise fun a b => less a b = true := by
  suffices kept : ∀ s : List α, s.Pairwise (fun a b => less a b = true) →
      (l.foldl (fun s a => setInsert less a s) s).Pairwise fun a b => less a b = true from kept [] List.Pairwise.nil
  induction l with
  | nil => exact fun s strict => strict
  | cons a l ih => exact fun s strict => ih _ (setInsert_strict order a strict)

section Firsts

variable {key : α → β} {less : α → α → Bool} {a : α} {s : List α}

theorem setInsert_of_mem (order : StrictWeakOrder less)
    (equivalent : ∀ a b, key a = key b ↔ less a b = false ∧ less b a = false)
    (strict : s.Pairwise fun a b => less a b = true) (present : key a ∈ s.map key) : setInsert less a s = s := by
  induction s with
  | nil => cases present
  | cons b s ih =>
    rw [List.map_cons, List.mem_cons] at present
    rcases present with same | present
    · have neither := (equivalent a b).mp same
      rw [setInsert, neither.1, neither.2]
      rfl
    · obtain ⟨x, member, same⟩ := List.mem_map.mp present
      have neither := (equivalent a x).mp same.symm
      have least := List.rel_of_pairwise_cons strict member
      have notBefore : ¬ less a b = true := by
        intro before
        rw [order.lt_trans before least] at neither
        cases neither.1
      have behind : less b a = true := by
        by_contra notBehind
        -- b is less than x, to which a is equivalent
        have notLeast := order.trans x a b neither.1 (eq_false_of_ne_true notBehind)
        rw [least] at notLeast
        cases notLeast
      rw [setInsert, if_neg notBefore, if_pos behind, ih strict.of_cons present]

theorem setInsert_perm (equivalent : ∀ a b, key a = key b ↔ less a b = false ∧ less b a = false)
    (absent : key a ∉ s.map key) : (setInsert less a s).Perm (a :: s) := by
  induction s with
  | nil => exact List.Perm.refl [a]
  | cons b s ih =>
    rw [List.map_cons, List.mem_cons, not_or] at absent
    rw [setInsert]
    split
    next => exact List.Perm.refl _
    next notBefore =>
      split
      next => exact ((ih absent.2).cons b).trans (List.Perm.swap a b s)
      next notBehind =>
        have same := (equivalent a b).mpr
          ⟨eq_false_of_ne_true notBefore, eq_false_of_ne_true notBehind⟩
        exact absurd same absent.1

variable [DecidableEq β]

variable (key) in
/-- Of the elements with one key the first one, if the key was not seen before. -/
def firsts : List β → List α → List α
  | _, [] => []
  | seen, a :: l => if key a ∈ seen then firsts seen l else a :: firsts (key a :: seen) l

/-- The set keeps the first of the elements that are equivalent. -/
theorem foldl_setInsert_perm (order : StrictWeakOrder less)
    (equivalent : ∀ a b, key a = key b ↔ less a b = false ∧ less b a = false) (l : List α) {seen : List β}
    (strict : s.Pairwise fun a b => less a b = true) (known : ∀ k, k ∈ seen ↔ k ∈ s.map key) :
    (l.foldl (fun s a => setInsert less a s) s).Perm (s ++ firsts key seen l) := by
  induction l generalizing s seen with
  | nil => rw [firsts, List.append_nil]; exact List.Perm.refl s
  | cons a l ih =>
    rw [List.foldl_cons, firsts]
    by_cases present : key a ∈ seen
    · rw [if_pos present, setInsert_of_mem order equivalent strict ((known _).mp present)]
      exact ih strict known
    · have inserted := setInsert_perm equivalent fun member => present ((known _).mpr member)
      rw [if_neg present]
      have knownBehind : ∀ k, k ∈ key a :: seen ↔ k ∈ (setInsert less a s).map key := by
        intro k
        rw [(inserted.map key).mem_iff, List.map_cons, List.mem_cons, List.mem_cons, known]
      have behind := ih (setInsert_strict order a strict) knownBehind
      exact behind.trans ((inserted.append_right _).trans List.perm_middle.symm)

theorem sortedSet_perm (order : StrictWeakOrder less)
    (equivalent : ∀ a b, key a = key b ↔ less a b = false ∧ less b a = false) (l : List α) :
    (sortedSet less l).Perm (firsts key [] l) :=
  foldl_setInsert_perm order equivalent l List.Pairwise.nil fun _ => Iff.rfl

theorem notMem_of_firsts {seen : List β} {l : List α} (member : a ∈ firsts key seen l) : key a ∉ seen := by
  induction l generalizing seen with
  | nil => cases member
  | cons b l ih =>
    rw [firsts] at member
    split at member
    next => exact ih member
    next absent =>
      rcases List.mem_cons.mp member with rfl | member
      · exact absent
      · exact fun inside => ih member (List.mem_cons_of_mem _ inside)

theorem firsts_subset (seen : List β) (l : List α) : firsts key seen l ⊆ l := by
  induction l generalizing seen with
  | nil => exact List.Subset.refl []
  | cons a l ih =>
    rw [firsts]
    split
    · exact List.subset_cons_of_subset a (ih seen)
    · exact List.cons_subset_cons a (ih _)

end Firsts

/-! ## Sorted lists of which equal neighbours are merged -/

/-- What a sort may leave of the elements. -/
structure Outcomes (less : α → α → Bool) (kept : List α) (outcome : List α → Prop) : Prop where
  perm : ∀ l, outcome l → l.Perm kept
  sorted : ∀ l, outcome l → Sorted less l
  complete : ∀ chosen, Sorted less chosen → chosen.Subperm kept → ∃ l, outcome l ∧ chosen.Sublist l

theorem Outcomes.ofSort [DecidableEq α] {less : α → α → Bool} (order : StrictWeakOrder less) (kept : List α) :
    Outcomes less kept fun l => ∃ sort : Sorting α, l = sort.apply less kept := by
  constructor
  · rintro l ⟨sort, rfl⟩
    exact sort.perm less kept
  · rintro l ⟨sort, rfl⟩
    exact sort.sorted less kept order
  · intro chosen sorted within
    obtain ⟨sort, stays⟩ := Sorting.exists_sublist order sorted within
    exact ⟨_, ⟨sort, rfl⟩, stays⟩

/-- If no two elements are equivalent, there is only one order. -/
theorem Outcomes.ofStrict [DecidableEq α] {less : α → α → Bool} (order : StrictWeakOrder less) {kept l : List α}
    (strict : l.Pairwise fun a b => less a b = true) (perm : l.Perm kept) : Outcomes less kept (· = l) := by
  constructor
  · rintro _ rfl
    exact perm
  · rintro _ rfl
    exact strict.imp fun before => order.asymm _ _ before
  · intro chosen sorted within
    obtain ⟨sort, stays⟩ := Sorting.exists_sublist order sorted within
    have same := (sort.sorted less kept order).eq_of_perm strict order ((sort.perm less kept).trans perm.symm)
    exact ⟨l, rfl, same ▸ stays⟩

/-- Equal texts of the sorted elements and of the others behind them come to stand next to each other. -/
structure Together (less : α → α → Bool) (text : α → β) (kept : List α) (others : List β) : Prop where
  sorted : ∀ a c b, [a, c, b].Subperm kept → text a = text b → text c ≠ text a → less c a = true ∨ less b c = true
  last : ∀ a ∈ kept, ∀ c ∈ kept, text a ∈ others → text c ≠ text a → less c a = true
  first : ∀ a ∈ kept, ∀ t, [t, text a].Sublist others → t = text a
  others : ∀ t t', [t, t', t].Sublist others → t' = t

section Together

variable {less : α → α → Bool} {text : α → β} {kept : List α} {others : List β} {outcome : List α → Prop}

theorem Outcomes.together_of_between (outcomes : Outcomes less kept outcome) (order : StrictWeakOrder less)
    (together : ∀ l, outcome l → ∀ t t', [t, t', t].Sublist (l.map text ++ others) → t' = t) :
    Together less text kept others := by
  constructor
  · intro a c b within same other
    by_contra neither
    rw [not_or, Bool.not_eq_true, Bool.not_eq_true] at neither
    have chosen : Sorted less [a, c, b] := by
      simp [Sorted, neither.1, neither.2, order.trans a c b neither.1 neither.2]
    obtain ⟨l, leaves, between⟩ := outcomes.complete _ chosen within
    have between := (between.map text).trans (List.sublist_append_left _ others)
    rw [List.map_cons, List.map_cons, List.map_cons, List.map_nil, ← same] at between
    exact other (together l leaves (text a) (text c) between)
  · intro a memberA c memberC again other
    by_contra notBefore
    have chosen : Sorted less [a, c] := by simp [Sorted, eq_false_of_ne_true notBefore]
    have distinct : [a, c].Nodup := by
      rw [List.nodup_cons, List.mem_singleton]
      exact ⟨fun same => other (congrArg text same.symm), List.nodup_singleton c⟩
    have within : [a, c].Subperm kept := List.subperm_of_subset distinct (by simp [memberA, memberC])
    obtain ⟨l, leaves, between⟩ := outcomes.complete _ chosen within
    exact other (together l leaves (text a) (text c)
      ((between.map text).append (List.singleton_sublist.mpr again)))
  · intro a member t behind
    have chosen : Sorted less [a] := List.pairwise_singleton _ a
    obtain ⟨l, leaves, between⟩ := outcomes.complete _ chosen (List.singleton_subperm_iff.mpr member)
    exact together l leaves (text a) t ((between.map text).append behind)
  · intro t t' between
    obtain ⟨l, leaves, -⟩ := outcomes.complete [] List.Pairwise.nil List.nil_subperm
    exact together l leaves t t' (between.trans (List.sublist_append_right _ others))

/-- Where two equal texts stand, and one between them. -/
theorem three_of_append {l r : List β} {t t' : β} (between : [t, t', t].Sublist (l ++ r)) :
    [t, t', t].Sublist l ∨ [t, t'].Sublist l ∧ t ∈ r ∨ t ∈ l ∧ [t', t].Sublist r ∨ [t, t', t].Sublist r := by
  obtain ⟨front, back, parts, inFront, inBack⟩ := List.sublist_append_iff.mp between
  rcases front with _ | ⟨a, _ | ⟨b, _ | ⟨c, rest⟩⟩⟩
  · exact .inr (.inr (.inr (parts ▸ inBack)))
  · rw [List.cons_append, List.nil_append, List.cons.injEq] at parts
    cases parts.1
    exact .inr (.inr (.inl ⟨List.singleton_sublist.mp inFront, parts.2 ▸ inBack⟩))
  · simp only [List.cons_append, List.nil_append, List.cons.injEq] at parts
    obtain ⟨rfl, rfl, rfl⟩ := parts
    exact .inr (.inl ⟨inFront, List.singleton_sublist.mp inBack⟩)
  · simp only [List.cons_append, List.cons.injEq, List.nil_eq, List.append_eq_nil_iff] at parts
    obtain ⟨rfl, rfl, rfl, rfl, rfl⟩ := parts
    exact .inl inFront

theorem Together.between (together : Together less text kept others) (outcomes : Outcomes less kept outcome)
    {l : List α} (leaves : outcome l) {t t' : β} (between : [t, t', t].Sublist (l.map text ++ others)) : t' = t := by
  have sorted := outcomes.sorted l leaves
  have perm := outcomes.perm l leaves
  by_contra other
  rcases three_of_append between with inside | ⟨inside, again⟩ | ⟨member, behind⟩ | behind
  · obtain ⟨chosen, within, texts⟩ := List.sublist_map_iff.mp inside
    have parts := texts.symm
    simp only [List.map_eq_cons_iff, List.map_eq_nil_iff] at parts
    obtain ⟨a, _, rfl, rfl, c, _, rfl, rfl, b, _, rfl, same, rfl⟩ := parts
    have apart := sorted.sublist within
    have notBefore := List.rel_of_pairwise_cons apart List.mem_cons_self
    have notBehind := List.rel_of_pairwise_cons apart.of_cons List.mem_cons_self
    rcases together.sorted a c b (within.subperm.trans perm.subperm) same.symm other with before | before
    · rw [notBefore] at before
      cases before
    · rw [notBehind] at before
      cases before
  · obtain ⟨chosen, within, texts⟩ := List.sublist_map_iff.mp inside
    have parts := texts.symm
    simp only [List.map_eq_cons_iff, List.map_eq_nil_iff] at parts
    obtain ⟨a, _, rfl, rfl, c, _, rfl, rfl, rfl⟩ := parts
    have members : ∀ x ∈ [a, c], x ∈ kept := fun x member => perm.subset (within.subset member)
    have before := together.last a (members a (by simp)) c (members c (by simp)) again other
    rw [List.rel_of_pairwise_cons (sorted.sublist within) List.mem_cons_self] at before
    cases before
  · obtain ⟨a, inside, rfl⟩ := List.mem_map.mp member
    exact other (together.first a (perm.mem_iff.mp inside) t' behind)
  · exact other (together.others t t' behind)

variable [DecidableEq β]

/-- No text is left twice exactly if equal texts come to stand next to each other. -/
theorem Outcomes.nodup_iff (outcomes : Outcomes less kept outcome) (order : StrictWeakOrder less) :
    (∀ l, outcome l → (unique (l.map text ++ others)).Nodup) ↔ Together less text kept others := by
  constructor
  · intro distinct
    exact outcomes.together_of_between order fun l leaves => unique_nodup_iff.mp (distinct l leaves)
  · intro together l leaves
    exact unique_nodup_iff.mpr fun _ _ => together.between outcomes leaves

end Together

end Forserino.Foundation
