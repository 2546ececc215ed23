import Forserino.Foundation.Runs
import Forserino.Foundation.Ahead
import Forserino.Qt.Text
import Mathlib.Data.List.Nodup

/-! The splits that were closed, and the tabs that they name.

An entry holds the address of a tab. The address of a widget that is gone may be that of another one later.
-/

set_option autoImplicit false

namespace Forserino.Splits

open Foundation Qt

universe u v

/-- tab is a non owning pointer. -/
structure SplitInfo (Address : Type u) (QUuid : Type v) where
  channelName : QString
  filters : List QUuid
  tab : Option Address

variable {Address : Type u} {QUuid : Type v} [DecidableEq Address]

namespace ClosedSplits

/-- The first entry of the tab gets a null pointer. -/
def invalidateTab (tab : Address) : List (SplitInfo Address QUuid) → List (SplitInfo Address QUuid)
  | [] => []
  | item :: rest => if item.tab = some tab then { item with tab := none } :: rest else item :: invalidateTab tab rest

/-- How many entries name the tab. -/
def named (splits : List (SplitInfo Address QUuid)) (tab : Address) : Nat :=
  splits.countP fun item => item.tab = some tab

theorem named_invalidateTab (splits : List (SplitInfo Address QUuid)) (tab other : Address) :
    named (invalidateTab tab splits) other = named splits other - if tab = other then 1 else 0 := by
  induction splits with
  | nil => simp [invalidateTab, named]
  | cons item rest ih =>
    unfold named at ih ⊢
    rw [invalidateTab]
    by_cases here : item.tab = some tab
    · rw [if_pos here]
      by_cases same : tab = other <;> simp [here, same]
    · rw [if_neg here, List.countP_cons, List.countP_cons, ih]
      by_cases same : tab = other
      · subst same
        simp [here]
      · simp [same]

/-- Every call takes one entry, if there is one left. -/
theorem named_foldl (tabs : List Address) (splits : List (SplitInfo Address QUuid)) (other : Address) :
    named (tabs.foldl (fun splits t => invalidateTab t splits) splits) other = named splits other - tabs.count other := by
  induction tabs generalizing splits with
  | nil => simp
  | cons tab tabs ih =>
    rw [List.foldl_cons, ih, named_invalidateTab, List.count_cons, Nat.sub_sub, Nat.add_comm]
    simp

theorem named_pos {splits : List (SplitInfo Address QUuid)} {item : SplitInfo Address QUuid} {tab : Address}
    (member : item ∈ splits) (names : item.tab = some tab) : 0 < named splits tab :=
  List.countP_pos_iff.mpr ⟨item, member, decide_eq_true names⟩

end ClosedSplits

open ClosedSplits

structure Page (Address : Type u) where
  address : Address
  notebook : Address
  tab_ : Option Address

structure Tab (Address : Type u) where
  address : Address
  notebook : Address

inductive Widget (Address : Type u) where
  | page (address : Address)
  | tab (address : Address)
  deriving DecidableEq

/-- The widgets that exist, and of the QWidget::destroyed signals the tabs that the slots name.
Pages and tabs that are to be deleted later wait in the order of the calls. -/
structure Widgets (Address : Type u) (QUuid : Type v) where
  pages : List (Page Address)
  tabs : List (Tab Address)
  connections : List Address
  deferred : List (Widget Address)
  closedSplits : List (SplitInfo Address QUuid)

inductive Widgets.Event (Address : Type u) (QUuid : Type v) where
  /-- A container, and the tab that it gets from its notebook. -/
  | addPage (notebook page tab : Address)
  /-- A container that is in no notebook. -/
  | newContainer (parent page : Address)
  /-- Split::Action::Delete of a split in the container. -/
  | delete (page : Address) (channelName : QString) (filters : List QUuid)
  /-- The page that is added if the split has no tab and no page is selected. -/
  | reopenSplit (added : Option (Address × Address × Address))
  | removePage (page : Address)
  /-- The event loop deletes what waits longest. -/
  | deferredDelete
  /-- A window is closed, with all that is in its notebook. -/
  | destroyNotebook (notebook : Address)

namespace Widgets

def initial : Widgets Address QUuid := ⟨[], [], [], [], []⟩

def addPage (w : Widgets Address QUuid) (notebook page tab : Address) : Option (Widgets Address QUuid) :=
  if page ∈ w.pages.map Page.address ∨ tab ∈ w.tabs.map Tab.address then none
  else some { w with pages := w.pages ++ [⟨page, notebook, some tab⟩], tabs := w.tabs ++ [⟨tab, notebook⟩] }

/-- The slots of the tab run one after the other, each invalidates one entry. -/
def destroyTab (w : Widgets Address QUuid) (tab : Address) : Widgets Address QUuid :=
  { w with
    tabs := w.tabs.filter fun t => t.address ≠ tab
    connections := w.connections.filter fun t => t ≠ tab
    deferred := w.deferred.filter fun object => object ≠ .tab tab
    closedSplits := (w.connections.filter fun t => t = tab).foldl (fun splits t => invalidateTab t splits)
      w.closedSplits }

def destroyPage (w : Widgets Address QUuid) (page : Address) : Widgets Address QUuid :=
  { w with
    pages := w.pages.filter fun p => p.address ≠ page
    deferred := w.deferred.filter fun object => object ≠ .page page }

def destroyNotebook (w : Widgets Address QUuid) (notebook : Address) : Widgets Address QUuid :=
  let pages := (w.pages.filter fun p => p.notebook = notebook).map Page.address
  let tabs := (w.tabs.filter fun t => t.notebook = notebook).map Tab.address
  tabs.foldl destroyTab (pages.foldl destroyPage w)

/-- An event can happen only to widgets that exist, and a new widget is nowhere else. -/
def step (w : Widgets Address QUuid) : Event Address QUuid → Option (Widgets Address QUuid)
  | .addPage notebook page tab => w.addPage notebook page tab
  | .newContainer parent page =>
      if page ∈ w.pages.map Page.address then none
      else some { w with pages := w.pages ++ [⟨page, parent, none⟩] }
  | .delete page channelName filters =>
      match w.pages.find? fun p => p.address = page with
      | none => none
      | some container =>
          -- nothing can be connected to a null pointer
          some { w with
            connections := w.connections ++ container.tab_.toList
            closedSplits := w.closedSplits ++ [⟨channelName, filters, container.tab_⟩] }
  | .reopenSplit added =>
      match w.closedSplits.getLast? with
      | none => some w
      | some si =>
          let w := { w with closedSplits := w.closedSplits.dropLast }
          match si.tab, added with
          | some _, _ => some w
          | none, none => some w
          | none, some (notebook, page, tab) => w.addPage notebook page tab
  | .removePage page =>
      match w.pages.find? fun p => p.address = page with
      | none => none
      | some container =>
          match container.tab_ with
          | none => none
          | some tab =>
              -- a page that was removed is not among the items any more
              if .page page ∈ w.deferred then none
              else some { w with deferred := w.deferred ++ [.page page, .tab tab] }
  | .deferredDelete =>
      match w.deferred with
      | [] => none
      | .page page :: _ => some (w.destroyPage page)
      | .tab tab :: _ => some (w.destroyTab tab)
  | .destroyNotebook notebook => some (w.destroyNotebook notebook)

/-- A page is deleted before its tab, and no tab is named by more entries than slots. -/
structure Consistent (w : Widgets Address QUuid) : Prop where
  live : ∀ p ∈ w.pages, ∀ t, p.tab_ = some t → ∃ tab ∈ w.tabs, tab.address = t ∧ tab.notebook = p.notebook
  distinct : (w.tabs.map Tab.address).Nodup
  own : ∀ p ∈ w.pages, ∀ q ∈ w.pages, ∀ t, p.tab_ = some t → q.tab_ = some t → p.address = q.address
  ahead : ∀ p ∈ w.pages, ∀ t, p.tab_ = some t → Ahead (.page p.address) (.tab t) w.deferred
  pending : ∀ t, .tab t ∈ w.deferred → t ∈ w.tabs.map Tab.address
  connected : ∀ t ∈ w.connections, t ∈ w.tabs.map Tab.address
  counted : ∀ t, named w.closedSplits t ≤ w.connections.count t

variable {w next : Widgets Address QUuid}

theorem initial_consistent : Consistent (initial : Widgets Address QUuid) := by
  constructor <;> simp [initial, named]

theorem Consistent.destroyPage (consistent : Consistent w) (page : Address) : Consistent (w.destroyPage page) where
  live := fun p member => consistent.live p (List.mem_filter.mp member).1
  distinct := consistent.distinct
  own := fun p member q memberToo => consistent.own p (List.mem_filter.mp member).1 q (List.mem_filter.mp memberToo).1
  ahead := by
    intro p member t holds
    obtain ⟨old, other⟩ := List.mem_filter.mp member
    apply (consistent.ahead p old t holds).filter
    simpa using other
  pending := fun t member => consistent.pending t (List.mem_filter.mp member).1
  connected := consistent.connected
  counted := consistent.counted

/-- A tab may be destroyed when its page is. -/
theorem Consistent.destroyTab (consistent : Consistent w) {tab : Address} (unowned : ∀ p ∈ w.pages, p.tab_ ≠ some tab) :
    Consistent (w.destroyTab tab) where
  live := by
    intro p member t holds
    obtain ⟨owner, among, rfl, notebook⟩ := consistent.live p member t holds
    have other : owner.address ≠ tab := fun same => unowned p member (same ▸ holds)
    exact ⟨owner, List.mem_filter.mpr ⟨among, decide_eq_true other⟩, rfl, notebook⟩
  distinct := consistent.distinct.sublist (List.filter_sublist.map _)
  own := consistent.own
  ahead := fun p member t holds => (consistent.ahead p member t holds).filter (by simp)
  pending := by
    intro t member
    obtain ⟨old, other⟩ := List.mem_filter.mp member
    obtain ⟨owner, among, rfl⟩ := List.mem_map.mp (consistent.pending t old)
    exact List.mem_map_of_mem (List.mem_filter.mpr ⟨among, by simpa using other⟩)
  connected := by
    intro t member
    obtain ⟨old, other⟩ := List.mem_filter.mp member
    obtain ⟨owner, among, rfl⟩ := List.mem_map.mp (consistent.connected t old)
    exact List.mem_map_of_mem (List.mem_filter.mpr ⟨among, other⟩)
  counted := by
    intro t
    have before := consistent.counted t
    simp only [Widgets.destroyTab, named_foldl]
    by_cases same : t = tab
    · have all : (w.connections.filter fun t => t = tab).count t = w.connections.count t :=
        List.count_filter (by simp [same])
      omega
    · have others : (w.connections.filter fun t => t ≠ tab).count t = w.connections.count t :=
        List.count_filter (by simp [same])
      omega

theorem destroyPages_consistent (consistent : Consistent w) (pages : List Address) :
    Consistent (pages.foldl Widgets.destroyPage w) := by
  induction pages generalizing w with
  | nil => exact consistent
  | cons page pages ih => exact ih (consistent.destroyPage page)

theorem destroyTabs_consistent (consistent : Consistent w) {tabs : List Address}
    (unowned : ∀ t ∈ tabs, ∀ p ∈ w.pages, p.tab_ ≠ some t) : Consistent (tabs.foldl Widgets.destroyTab w) := by
  induction tabs generalizing w with
  | nil => exact consistent
  | cons tab tabs ih =>
    apply ih (consistent.destroyTab (unowned tab List.mem_cons_self))
    exact fun t member => unowned t (List.mem_cons_of_mem tab member)

theorem pages_destroyPages (w : Widgets Address QUuid) (pages : List Address) :
    (pages.foldl Widgets.destroyPage w).pages = w.pages.filter fun p => p.address ∉ pages := by
  induction pages generalizing w with
  | nil => simp
  | cons page pages ih =>
    rw [List.foldl_cons, ih, Widgets.destroyPage, List.filter_filter]
    apply List.filter_congr
    intro p _
    simp [Bool.and_comm]

theorem Consistent.destroyNotebook (consistent : Consistent w) (notebook : Address) :
    Consistent (w.destroyNotebook notebook) := by
  apply destroyTabs_consistent (destroyPages_consistent consistent _)
  intro t member p left holds
  rw [pages_destroyPages] at left
  obtain ⟨among, away⟩ := List.mem_filter.mp left
  obtain ⟨tab, inside, rfl⟩ := List.mem_map.mp member
  obtain ⟨tabAmong, tabNotebook⟩ := List.mem_filter.mp inside
  -- the tab of a page that is left is in the same notebook as the page
  obtain ⟨owner, ownerAmong, sameAddress, sameNotebook⟩ := consistent.live p among _ holds
  obtain rfl := List.inj_on_of_nodup_map consistent.distinct ownerAmong tabAmong sameAddress
  apply of_decide_eq_true away
  refine List.mem_map.mpr ⟨p, List.mem_filter.mpr ⟨among, ?_⟩, rfl⟩
  rwa [← sameNotebook]

theorem Consistent.addPage {notebook page tab : Address} (consistent : Consistent w)
    (added : w.addPage notebook page tab = some next) : Consistent next := by
  obtain ⟨fresh, same⟩ := Option.ite_none_left_eq_some.mp added
  obtain rfl := Option.some.inj same
  rw [not_or] at fresh
  -- no page has the new tab
  have unowned : ∀ p ∈ w.pages, p.tab_ ≠ some tab := by
    intro p member holds
    obtain ⟨owner, among, rfl, _⟩ := consistent.live p member tab holds
    exact fresh.2 (List.mem_map_of_mem among)
  refine ⟨?_, ?_, ?_, ?_, ?_, ?_, consistent.counted⟩
  · intro p member t holds
    rcases List.mem_append.mp member with old | latest
    · obtain ⟨owner, among, both⟩ := consistent.live p old t holds
      exact ⟨owner, List.mem_append_left _ among, both⟩
    · obtain rfl := List.mem_singleton.mp latest
      exact ⟨⟨tab, notebook⟩, List.mem_append_right _ List.mem_cons_self, Option.some.inj holds, rfl⟩
  · rw [List.map_append, List.map_singleton, List.nodup_append]
    refine ⟨consistent.distinct, List.nodup_singleton _, ?_⟩
    intro t old other latest same
    rw [same, List.mem_singleton.mp latest] at old
    exact fresh.2 old
  · intro p member q memberToo t holds holdsToo
    rcases List.mem_append.mp member with old | latest <;> rcases List.mem_append.mp memberToo with oldToo | latestToo
    · exact consistent.own p old q oldToo t holds holdsToo
    · obtain rfl := List.mem_singleton.mp latestToo
      exact absurd (holds.trans holdsToo.symm) (unowned p old)
    · obtain rfl := List.mem_singleton.mp latest
      exact absurd (holdsToo.trans holds.symm) (unowned q oldToo)
    · rw [List.mem_singleton.mp latest, List.mem_singleton.mp latestToo]
  · intro p member t holds
    rcases List.mem_append.mp member with old | latest
    · exact consistent.ahead p old t holds
    · obtain rfl := List.mem_singleton.mp latest
      obtain rfl := Option.some.inj holds
      exact ahead_of_notMem fun waiting => fresh.2 (consistent.pending tab waiting)
  · intro t member
    rw [List.map_append]
    exact List.mem_append_left _ (consistent.pending t member)
  · intro t member
    rw [List.map_append]
    exact List.mem_append_left _ (consistent.connected t member)

theorem Consistent.newContainer {parent page : Address} (consistent : Consistent w) :
    Consistent { w with pages := w.pages ++ [⟨page, parent, none⟩] } := by
  have owned : ∀ p ∈ w.pages ++ [⟨page, parent, none⟩], ∀ t, p.tab_ = some t → p ∈ w.pages := by
    intro p member t holds
    rcases List.mem_append.mp member with old | latest
    · exact old
    · obtain rfl := List.mem_singleton.mp latest
      cases holds
  constructor
  · exact fun p member t holds => consistent.live p (owned p member t holds) t holds
  · exact consistent.distinct
  · exact fun p member q memberToo t holds holdsToo =>
      consistent.own p (owned p member t holds) q (owned q memberToo t holdsToo) t holds holdsToo
  · exact fun p member t holds => consistent.ahead p (owned p member t holds) t holds
  · exact consistent.pending
  · exact consistent.connected
  · exact consistent.counted

/-- The entry comes with a slot of its tab. -/
theorem Consistent.delete {p : Page Address} (consistent : Consistent w) (member : p ∈ w.pages) (channelName : QString)
    (filters : List QUuid) : Consistent { w with
      connections := w.connections ++ p.tab_.toList
      closedSplits := w.closedSplits ++ [⟨channelName, filters, p.tab_⟩] } := by
  refine ⟨consistent.live, consistent.distinct, consistent.own, consistent.ahead, consistent.pending, ?_, ?_⟩
  · intro t connected
    rcases List.mem_append.mp connected with old | latest
    · exact consistent.connected t old
    · obtain ⟨owner, among, rfl, _⟩ := consistent.live p member t (Option.mem_toList.mp latest)
      exact List.mem_map_of_mem among
  · intro t
    have before := consistent.counted t
    unfold named at before ⊢
    rw [List.countP_append, List.count_append]
    cases p.tab_ with
    | none => simpa using before
    | some tab => by_cases same : tab = t <;> simpa [same] using before

theorem Consistent.pop (consistent : Consistent w) : Consistent { w with closedSplits := w.closedSplits.dropLast } where
  live := consistent.live
  distinct := consistent.distinct
  own := consistent.own
  ahead := consistent.ahead
  pending := consistent.pending
  connected := consistent.connected
  counted := fun t => Nat.le_trans ((List.dropLast_sublist _).countP_le) (consistent.counted t)

theorem Consistent.removePage {p : Page Address} {tab : Address} (consistent : Consistent w) (member : p ∈ w.pages)
    (holds : p.tab_ = some tab) :
    Consistent { w with deferred := w.deferred ++ [.page p.address, .tab tab] } where
  live := consistent.live
  distinct := consistent.distinct
  own := consistent.own
  ahead := by
    intro q memberToo t holdsToo
    apply (consistent.ahead q memberToo t holdsToo).append
    by_cases same : t = tab
    · subst same
      left
      rw [consistent.own p member q memberToo t holds holdsToo]
    · apply ahead_of_notMem
      simp [same]
  pending := by
    intro t waiting
    rcases List.mem_append.mp waiting with old | latest
    · exact consistent.pending t old
    · obtain ⟨owner, among, rfl, _⟩ := consistent.live p member tab holds
      have same : t = owner.address := by simpa using latest
      rw [same]
      exact List.mem_map_of_mem among
  connected := consistent.connected
  counted := consistent.counted

/-- What waits longest is no tab of a page that is left. -/
theorem Consistent.unowned {tab : Address} {rest : List (Widget Address)} (consistent : Consistent w)
    (waiting : w.deferred = .tab tab :: rest) : ∀ p ∈ w.pages, p.tab_ ≠ some tab := by
  intro p member holds
  have ahead := consistent.ahead p member tab holds
  rw [waiting] at ahead
  rcases ahead with same | ⟨other, _⟩
  · cases same
  · exact other rfl

theorem Consistent.step {e : Event Address QUuid} (consistent : Consistent w) (taken : w.step e = some next) :
    Consistent next := by
  cases e with
  | addPage notebook page tab => exact consistent.addPage taken
  | newContainer parent page =>
    obtain ⟨_, same⟩ := Option.ite_none_left_eq_some.mp taken
    obtain rfl := Option.some.inj same
    exact consistent.newContainer
  | delete page channelName filters =>
    rw [Widgets.step] at taken
    cases found : w.pages.find? fun p => p.address = page with
    | none =>
      rw [found] at taken
      cases taken
    | some container =>
      rw [found] at taken
      obtain rfl := Option.some.inj taken
      exact consistent.delete (List.mem_of_find?_eq_some found) channelName filters
  | reopenSplit added =>
    rw [Widgets.step] at taken
    cases last : w.closedSplits.getLast? with
    | none =>
      rw [last] at taken
      exact Option.some.inj taken ▸ consistent
    | some si =>
      rw [last] at taken
      cases tab : si.tab with
      | some tab =>
        simp only [tab] at taken
        exact Option.some.inj taken ▸ consistent.pop
      | none =>
        simp only [tab] at taken
        cases added with
        | none => exact Option.some.inj taken ▸ consistent.pop
        | some added => exact consistent.pop.addPage taken
  | removePage page =>
    rw [Widgets.step] at taken
    cases found : w.pages.find? fun p => p.address = page with
    | none =>
      rw [found] at taken
      cases taken
    | some container =>
      rw [found] at taken
      cases tab : container.tab_ with
      | none =>
        simp only [tab] at taken
        cases taken
      | some tab' =>
        simp only [tab] at taken
        obtain ⟨_, same⟩ := Option.ite_none_left_eq_some.mp taken
        obtain rfl := Option.some.inj same
        obtain rfl : container.address = page := by simpa using List.find?_some found
        exact consistent.removePage (List.mem_of_find?_eq_some found) tab
  | deferredDelete =>
    rw [Widgets.step] at taken
    cases waiting : w.deferred with
    | nil =>
      rw [waiting] at taken
      cases taken
    | cons widget rest =>
      rw [waiting] at taken
      cases widget with
      | page page => exact Option.some.inj taken ▸ consistent.destroyPage page
      | tab tab => exact Option.some.inj taken ▸ consistent.destroyTab (consistent.unowned waiting)
  | destroyNotebook notebook => exact Option.some.inj taken ▸ consistent.destroyNotebook notebook

/-- The tab of every entry is null or exists. -/
def NoDanglingTab (w : Widgets Address QUuid) : Prop :=
  ∀ si ∈ w.closedSplits, ∀ t, si.tab = some t → t ∈ w.tabs.map Tab.address

theorem Consistent.noDanglingTab (consistent : Consistent w) : NoDanglingTab w := by
  intro si member t names
  have slots := Nat.lt_of_lt_of_le (named_pos member names) (consistent.counted t)
  exact consistent.connected t (List.count_pos_iff.mp slots)

/-- Whatever splits are deleted and opened again, and whatever tabs are destroyed. -/
theorem run_noDanglingTab (events : List (Event Address QUuid)) (final : Widgets Address QUuid)
    (ran : run step initial events = some final) : NoDanglingTab final :=
  (run_keeps (fun _ _ _ consistent taken => Consistent.step consistent taken) ran initial_consistent).noDanglingTab

/-- Two entries of a tab, one of which is opened again before the tab is destroyed. -/
theorem run_noDanglingTab_removed : NoDanglingTab ((run step (initial : Widgets Nat Nat)
    [.addPage 0 1 2, .addPage 0 3 4, .delete 1 (qs "a") [], .delete 3 (qs "b") [7], .delete 1 (qs "c") [],
      .delete 1 (qs "d") [], .reopenSplit none, .removePage 1, .deferredDelete, .deferredDelete]).getD initial) :=
  run_noDanglingTab [.addPage 0 1 2, .addPage 0 3 4, .delete 1 (qs "a") [], .delete 3 (qs "b") [7],
    .delete 1 (qs "c") [], .delete 1 (qs "d") [], .reopenSplit none, .removePage 1, .deferredDelete,
    .deferredDelete] _ rfl

end Widgets

end Forserino.Splits
