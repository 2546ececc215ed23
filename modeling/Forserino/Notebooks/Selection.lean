import Forserino.Notebooks.Notebook
import Mathlib.Data.List.InsertIdx
import Mathlib.Data.List.Perm.Basic

/-! Which page of a notebook is selected, through all calls.

The tab of the selected page always is visible, and the search for the next visible tab ends
where it started at the latest, unless there is no page to start from.
-/

set_option autoImplicit false

namespace Forserino.Notebooks.Notebook

open Forserino.Foundation

universe u

variable {Page : Type u} [DecidableEq Page]

/-! ## Tabs -/

@[simp] theorem pages_updateTab (page : Page) (change : TabState → TabState) (items : List (Item Page)) :
    (updateTab page change items).map Item.page = items.map Item.page := by
  induction items with
  | nil => rfl
  | cons item rest ih =>
    rw [updateTab]
    split
    · rfl
    · rw [List.map_cons, List.map_cons, ih]

/-- Where no page is there twice, the tab of one page changes. -/
theorem mem_updateTab {page : Page} {change : TabState → TabState} {items : List (Item Page)}
    (distinct : (items.map Item.page).Nodup) {item : Item Page} (member : item ∈ updateTab page change items) :
    ∃ old ∈ items, item.page = old.page ∧ item.tab = if old.page = page then change old.tab else old.tab := by
  induction items with
  | nil => cases member
  | cons first rest ih =>
    obtain ⟨new, others⟩ := List.nodup_cons.mp distinct
    rw [updateTab] at member
    split at member
    · next isFirst =>
      rcases List.mem_cons.mp member with rfl | later
      · exact ⟨first, List.mem_cons_self, rfl, by rw [if_pos isFirst]⟩
      · refine ⟨item, List.mem_cons_of_mem _ later, rfl, ?_⟩
        rw [if_neg]
        intro same
        exact new (isFirst.trans same.symm ▸ List.mem_map_of_mem later)
    · next notFirst =>
      rcases List.mem_cons.mp member with rfl | later
      · exact ⟨item, List.mem_cons_self, rfl, by rw [if_neg notFirst]⟩
      · obtain ⟨old, there, same⟩ := ih others later
        exact ⟨old, List.mem_cons_of_mem _ there, same⟩

/-! ## The selection -/

/-- No page is there twice, and the only tab that is selected is the one of the selected page. -/
structure Marked (n : Notebook Page) : Prop where
  distinct : n.pages.Nodup
  marks : ∀ item ∈ n.items, item.tab.isSelected = true ↔ n.selectedPage = some item.page
  contained : ∀ page, n.selectedPage = some page → page ∈ n.pages

/-- Besides, some page is selected unless there is none. -/
structure WellSelected (n : Notebook Page) : Prop extends Marked n where
  selects : n.selectedPage = none → n.items = []

theorem contains_iff {n : Notebook Page} {page : Page} : n.contains page = true ↔ page ∈ n.pages := by
  simp [contains, pages]

omit [DecidableEq Page] in
theorem Marked.unique {n : Notebook Page} (marked : n.Marked) {item other : Item Page} (member : item ∈ n.items)
    (otherToo : other ∈ n.items) (same : item.page = other.page) : item = other :=
  List.inj_on_of_nodup_map marked.distinct member otherToo same

omit [DecidableEq Page] in
/-- The item of the selected page. -/
theorem Marked.selectedItem {n : Notebook Page} (marked : n.Marked) {page : Page} (selected : n.selectedPage = some page) :
    ∃ item ∈ n.items, item.page = page ∧ item.tab.isSelected = true := by
  obtain ⟨item, member, same⟩ := List.mem_map.mp (marked.contained page selected)
  exact ⟨item, member, same, (marked.marks item member).mpr (selected.trans (congrArg some same.symm))⟩

/-- What is selected is the page, and everything else stays. -/
structure Selects (n : Notebook Page) (page : Option Page) (next : Notebook Page) : Prop where
  marked : next.Marked
  selected : next.selectedPage = page
  pages : next.pages = n.pages
  liveOnly : next.liveOnly = n.liveOnly

omit [DecidableEq Page] in
theorem Selects.of_marks {n next : Notebook Page} (marked : n.Marked) {page : Option Page}
    (there : ∀ p, page = some p → p ∈ n.pages) (selected : next.selectedPage = page) (pages : next.pages = n.pages)
    (liveOnly : next.liveOnly = n.liveOnly)
    (marks : ∀ item ∈ next.items, item.tab.isSelected = true ↔ page = some item.page) : n.Selects page next where
  marked := by
    refine ⟨?_, ?_, ?_⟩
    · rw [pages]
      exact marked.distinct
    · rw [selected]
      exact marks
    · rw [selected, pages]
      exact there
  selected := selected
  pages := pages
  liveOnly := liveOnly

theorem select_first {n : Notebook Page} {page : Page} (nothing : n.selectedPage = none) (there : page ∈ n.pages) :
    n.select (some page) =
      { n with items := updateTab page (setSelected true) n.items, selectedPage := some page } := by
  simp [Notebook.select, nothing, contains_iff.mpr there]

theorem select_nothing {n : Notebook Page} {previous : Page} (selected : n.selectedPage = some previous)
    (previousToo : previous ∈ n.pages) :
    n.select none = { n with items := updateTab previous (setSelected false) n.items, selectedPage := none } := by
  simp [Notebook.select, selected, contains_iff.mpr previousToo]

theorem select_other {n : Notebook Page} {page previous : Page} (selected : n.selectedPage = some previous)
    (apart : page ≠ previous) (there : page ∈ n.pages) (previousToo : previous ∈ n.pages) :
    n.select (some page) =
      { n with
        items := updateTab previous (setSelected false) (updateTab page (setSelected true) n.items)
        selectedPage := some page } := by
  simp [Notebook.select, selected, apart, contains_iff.mpr there, contains_iff.mpr previousToo]

theorem selects_first {n : Notebook Page} (marked : n.Marked) {page : Page} (nothing : n.selectedPage = none)
    (there : page ∈ n.pages) : n.Selects (some page) (n.select (some page)) := by
  have same := pages_updateTab page (setSelected true) n.items
  rw [select_first nothing there]
  refine .of_marks marked (fun p isPage => Option.some.inj isPage ▸ there) rfl same rfl ?_
  intro item member
  obtain ⟨old, oldToo, samePage, tab⟩ := mem_updateTab marked.distinct member
  -- nothing was selected, so no tab was marked
  have unmarked := mt (marked.marks old oldToo).mp (by rw [nothing]; exact nofun)
  rw [tab, samePage, Option.some_inj]
  split
  · next isPage => exact iff_of_true rfl isPage.symm
  · next other => exact iff_of_false unmarked (Ne.symm other)

theorem selects_nothing {n : Notebook Page} (marked : n.Marked) {previous : Page}
    (selected : n.selectedPage = some previous) : n.Selects none (n.select none) := by
  have same := pages_updateTab previous (setSelected false) n.items
  rw [select_nothing selected (marked.contained previous selected)]
  refine .of_marks marked nofun rfl same rfl ?_
  intro item member
  obtain ⟨old, oldToo, samePage, tab⟩ := mem_updateTab marked.distinct member
  rw [tab]
  refine iff_of_false ?_ nofun
  split
  · exact Bool.false_ne_true
  · next other =>
    intro isSelected
    have isPrevious := (marked.marks old oldToo).mp isSelected
    rw [selected] at isPrevious
    exact other (Option.some.inj isPrevious).symm

theorem selects_other {n : Notebook Page} (marked : n.Marked) {page previous : Page}
    (selected : n.selectedPage = some previous) (apart : page ≠ previous) (there : page ∈ n.pages) :
    n.Selects (some page) (n.select (some page)) := by
  have first := pages_updateTab page (setSelected true) n.items
  have same : (updateTab previous (setSelected false) (updateTab page (setSelected true) n.items)).map Item.page =
      n.items.map Item.page := (pages_updateTab previous (setSelected false) _).trans first
  rw [select_other selected apart there (marked.contained previous selected)]
  refine .of_marks marked (fun p isPage => Option.some.inj isPage ▸ there) rfl same rfl ?_
  intro item member
  obtain ⟨middle, middleToo, samePage, tab⟩ := mem_updateTab (first.symm ▸ marked.distinct) member
  obtain ⟨old, oldToo, oldPage, oldTab⟩ := mem_updateTab marked.distinct middleToo
  rw [tab, samePage, oldTab, oldPage, Option.some_inj]
  -- the mark of the previous page is taken away after the new one is set
  by_cases isPrevious : old.page = previous
  · rw [if_pos isPrevious, isPrevious]
    exact iff_of_false Bool.false_ne_true apart
  · rw [if_neg isPrevious]
    split
    · next isPage => exact iff_of_true rfl isPage.symm
    · next other =>
      refine iff_of_false ?_ (Ne.symm other)
      intro isSelected
      have wasSelected := (marked.marks old oldToo).mp isSelected
      rw [selected] at wasSelected
      exact isPrevious (Option.some.inj wasSelected).symm

theorem select_selects {n : Notebook Page} (marked : n.Marked) {page : Option Page}
    (there : ∀ p, page = some p → p ∈ n.pages) : n.Selects page (n.select page) := by
  by_cases same : page = n.selectedPage
  · have unchanged : n.select page = n := if_pos same
    rw [unchanged]
    exact ⟨marked, same.symm, rfl, rfl⟩
  · cases page with
    | none =>
      cases selected : n.selectedPage with
      | none => exact absurd selected.symm same
      | some previous => exact selects_nothing marked selected
    | some page =>
      cases selected : n.selectedPage with
      | none => exact selects_first marked selected (there page rfl)
      | some previous =>
        refine selects_other marked selected ?_ (there page rfl)
        rintro rfl
        exact same selected.symm

/-- A page of the notebook can be selected. -/
theorem Marked.select {n : Notebook Page} (marked : n.Marked) {page : Page} (there : page ∈ n.pages) :
    (n.select (some page)).WellSelected := by
  have selects := select_selects marked fun p same => Option.some.inj same ▸ there
  exact ⟨selects.marked, fun nothing => by rw [selects.selected] at nothing; cases nothing⟩

/-! ## Positions -/

omit [DecidableEq Page] in
theorem itemAt_natCast (n : Notebook Page) (i : Nat) : n.itemAt i = n.items[i]? := by
  rw [itemAt, if_neg (by omega), Int.toNat_natCast]

/-- The page stands at its index. -/
theorem indexOf_there {n : Notebook Page} {page : Page} (there : page ∈ n.pages) :
    ∃ (k : Nat) (item : Item Page), n.indexOf (some page) = k ∧ n.items[k]? = some item ∧ item.page = page := by
  have found : (n.items.findIdx? fun item => item.page == page).isSome := by
    rw [List.findIdx?_isSome]
    exact contains_iff.mpr there
  obtain ⟨k, index⟩ := Option.isSome_iff_exists.mp found
  obtain ⟨inside, isPage, -⟩ := List.findIdx?_eq_some_iff_getElem.mp index
  refine ⟨k, n.items[k], ?_, List.getElem?_eq_getElem inside, eq_of_beq isPage⟩
  rw [indexOf, Option.bind_some, index]

omit [DecidableEq Page] in
theorem Marked.sameIndex {n : Notebook Page} (marked : n.Marked) {i k : Nat} {item other : Item Page}
    (here : n.items[i]? = some item) (there : n.items[k]? = some other) (same : item.page = other.page) : i = k := by
  obtain ⟨inside, rfl⟩ := List.getElem?_eq_some_iff.mp here
  obtain ⟨within, rfl⟩ := List.getElem?_eq_some_iff.mp there
  have insideToo : i < n.pages.length := by rwa [Notebook.pages, List.length_map]
  have withinToo : k < n.pages.length := by rwa [Notebook.pages, List.length_map]
  have pages : n.pages[i] = n.pages[k] := by simpa [Notebook.pages] using same
  exact (List.Nodup.getElem_inj_iff marked.distinct).mp pages

/-- Whether the tab is among those that are gone through. -/
def shows (n : Notebook Page) (item : Item Page) : Bool := !n.liveOnly || tabVisibilityFilter item.tab

/-- Another page is selected. -/
def Moves (n : Notebook Page) (result : Option (Notebook Page)) : Prop :=
  ∃ item ∈ n.items, n.selectedPage ≠ some item.page ∧ result = some (n.select (some item.page))

/-- Either another page is selected, or no other one can be gone to. -/
def Turns (n : Notebook Page) (result : Option (Notebook Page)) : Prop :=
  (result = some n ∧ ∀ item ∈ n.items, n.shows item = true → n.selectedPage = some item.page) ∨ n.Moves result

theorem Turns.wellSelected {n : Notebook Page} {result : Option (Notebook Page)} (turns : n.Turns result)
    (good : n.WellSelected) : ∃ next, result = some next ∧ next.WellSelected := by
  rcases turns with ⟨same, -⟩ | ⟨item, member, -, selected⟩
  · exact ⟨n, same, good⟩
  · exact ⟨_, selected, good.toMarked.select (List.mem_map_of_mem member)⟩

/-- The loop goes from position to position until it finds a visible tab or is back at the start. -/
theorem searchLoop_finds {n : Notebook Page} {k : Nat} {advance : Int → Int} (pos : Nat → Nat) {m rounds : Nat}
    (next : ∀ j < m, advance (pos j) = pos (j + 1)) (inside : ∀ j < m, pos j < n.items.length)
    (apart : ∀ j < m, pos j ≠ k) (last : pos m = k) (enough : m < rounds) :
    (n.searchLoop k advance rounds (pos 0) = some n ∧
      ∀ j < m, ∀ item, n.items[pos j]? = some item → tabVisibilityFilter item.tab = false) ∨
    ∃ j < m, ∃ item, n.items[pos j]? = some item ∧
      n.searchLoop k advance rounds (pos 0) = some (n.select (some item.page)) := by
  induction m generalizing pos rounds with
  | zero =>
    obtain ⟨rounds, rfl⟩ : ∃ r, rounds = r + 1 := ⟨rounds - 1, by omega⟩
    left
    refine ⟨?_, fun j early => by omega⟩
    rw [searchLoop, last, if_pos rfl]
  | succ m ih =>
    obtain ⟨rounds, rfl⟩ : ∃ r, rounds = r + 1 := ⟨rounds - 1, by omega⟩
    have within := inside 0 (Nat.succ_pos m)
    have notStart : ¬ (pos 0 : Int) = k := by
      have apartHere := apart 0 (Nat.succ_pos m)
      omega
    have here := List.getElem?_eq_getElem within
    -- one round looks at the first position and goes on from the next
    have unfolded : n.searchLoop k advance (rounds + 1) (pos 0) =
        if tabVisibilityFilter n.items[pos 0].tab then some (n.select (some n.items[pos 0].page))
        else n.searchLoop k advance rounds (pos 1) := by
      rw [searchLoop, if_neg notStart, itemAt_natCast, here, next 0 (Nat.succ_pos m)]
    rw [unfolded]
    split
    · exact .inr ⟨0, Nat.succ_pos m, n.items[pos 0], here, rfl⟩
    · next hidden =>
      have later := ih (fun j => pos (j + 1)) (fun j early => next (j + 1) (by omega))
        (fun j early => inside (j + 1) (by omega)) (fun j early => apart (j + 1) (by omega)) last
        (show m < rounds by omega)
      rcases later with ⟨same, others⟩ | ⟨j, early, item, there, selected⟩
      · left
        refine ⟨same, ?_⟩
        intro j early item there
        cases j with
        | zero =>
          rw [here] at there
          obtain rfl := Option.some.inj there
          exact Bool.eq_false_iff.mpr hidden
        | succ j => exact others j (by omega) item there
      · exact .inr ⟨j + 1, by omega, item, there, selected⟩

/-- Where the positions are all those but the start, the loop turns to another page. -/
theorem searchLoop_turns {n : Notebook Page} (marked : n.Marked) (filtered : n.liveOnly = true) {k : Nat}
    {start : Item Page} (startThere : n.items[k]? = some start) (selected : n.selectedPage = some start.page)
    {advance : Int → Int} (pos : Nat → Nat) {m : Nat} (next : ∀ j < m, advance (pos j) = pos (j + 1))
    (inside : ∀ j < m, pos j < n.items.length) (apart : ∀ j < m, pos j ≠ k) (last : pos m = k)
    (all : ∀ i < n.items.length, i ≠ k → ∃ j < m, pos j = i) (enough : m ≤ n.items.length) :
    n.Turns (n.searchLoop k advance (n.items.length + 1) (pos 0)) := by
  rcases searchLoop_finds pos next inside apart last (Nat.lt_succ_of_le enough) with
    ⟨same, hidden⟩ | ⟨j, early, item, there, isSelected⟩
  · left
    refine ⟨same, ?_⟩
    intro item member visible
    obtain ⟨i, within, rfl⟩ := List.mem_iff_getElem.mp member
    by_cases isStart : i = k
    · subst isStart
      rw [List.getElem?_eq_getElem within] at startThere
      rw [selected, Option.some.inj startThere]
    · obtain ⟨j, early, rfl⟩ := all i within isStart
      have invisible := hidden j early _ (List.getElem?_eq_getElem within)
      rw [shows, filtered, invisible] at visible
      cases visible
  · right
    refine ⟨item, List.mem_of_getElem? there, ?_, isSelected⟩
    intro samePage
    rw [selected] at samePage
    exact apart j early (marked.sameIndex there startThere (Option.some.inj samePage).symm)

/-- A remainder of a sum of two remainders. -/
theorem mod_wrap {a s : Nat} (bound : a < 2 * s) : a % s = if a < s then a else a - s := by
  split
  · next below => exact Nat.mod_eq_of_lt below
  · next above =>
    rw [Nat.mod_eq_sub_mod (by omega)]
    exact Nat.mod_eq_of_lt (by omega)

theorem tmod_natCast_succ (a s : Nat) : ((a : Int) + 1).tmod s = ((a + 1) % s : Nat) := rfl

/-- One of two or more items is not selected. -/
theorem moves_itemAt {n : Notebook Page} (marked : n.Marked) {k i : Nat} {start : Item Page}
    (startThere : n.items[k]? = some start) (selected : n.selectedPage = some start.page) (inside : i < n.items.length)
    (apart : i ≠ k) : n.Moves ((n.itemAt i).map fun item => n.select (some item.page)) := by
  rw [itemAt_natCast, List.getElem?_eq_getElem inside]
  refine ⟨n.items[i], List.getElem_mem inside, ?_, rfl⟩
  intro samePage
  rw [selected] at samePage
  exact apart (marked.sameIndex (List.getElem?_eq_getElem inside) startThere (Option.some.inj samePage).symm)

/-- With one item at most there is no other one. -/
theorem turns_single {n : Notebook Page} (good : n.WellSelected) (few : n.items.length ≤ 1) : n.Turns (some n) := by
  left
  refine ⟨rfl, ?_⟩
  intro item member _
  cases selected : n.selectedPage with
  | none =>
    rw [good.selects selected] at member
    cases member
  | some page =>
    obtain ⟨other, otherToo, rfl, -⟩ := good.selectedItem selected
    obtain ⟨only, isOnly⟩ := List.length_eq_one_iff.mp (Nat.le_antisymm few (List.length_pos_of_mem member))
    rw [isOnly, List.mem_singleton] at member otherToo
    rw [member, otherToo]

/-- The selected page and where it is. -/
theorem WellSelected.start {n : Notebook Page} (good : n.WellSelected) (some_item : n.items ≠ []) :
    ∃ (k : Nat) (start : Item Page), n.indexOf n.selectedPage = k ∧ n.items[k]? = some start ∧
      n.selectedPage = some start.page ∧ k < n.items.length := by
  cases selected : n.selectedPage with
  | none => exact absurd (good.selects selected) some_item
  | some page =>
    obtain ⟨k, start, index, there, rfl⟩ := indexOf_there (good.contained page selected)
    exact ⟨k, start, index, there, rfl, (List.getElem?_eq_some_iff.mp there).1⟩

/-- Only without pages and with a filter there is no page to start from. -/
def Startable (n : Notebook Page) : Prop := ¬ (n.liveOnly = true ∧ n.items = [])

omit [DecidableEq Page] in
theorem Startable.items {n : Notebook Page} (startable : n.Startable) (many : ¬ (n.items.length ≤ 1 ∧ n.liveOnly = false)) :
    n.items ≠ [] := by
  intro nothing
  cases filtered : n.liveOnly with
  | true => exact startable ⟨filtered, nothing⟩
  | false => exact many ⟨by rw [nothing]; exact Nat.zero_le 1, filtered⟩

omit [DecidableEq Page] in
theorem several_items {n : Notebook Page} (unfiltered : ¬ n.liveOnly = true)
    (many : ¬ (n.items.length ≤ 1 ∧ n.liveOnly = false)) : 1 < n.items.length := by
  by_contra single
  exact many ⟨by omega, Bool.eq_false_iff.mpr unfiltered⟩

theorem selectNextTab_turns {n : Notebook Page} (good : n.WellSelected) (startable : n.Startable) :
    n.Turns n.selectNextTab := by
  unfold selectNextTab
  dsimp only
  by_cases few : n.items.length ≤ 1 ∧ n.liveOnly = false
  · rw [few.2]
    simp only [Bool.false_eq_true, if_false]
    rw [if_pos (by omega)]
    exact turns_single good few.1
  · obtain ⟨k, start, index, there, selected, inside⟩ := good.start (startable.items few)
    rw [index]
    split
    · next filtered =>
      rw [if_neg (by omega), tmod_natCast_succ]
      -- the positions behind the start in turn, which pass the end once
      have wrap (j : Nat) (early : j < n.items.length) := @mod_wrap (k + 1 + j) n.items.length (by omega)
      refine searchLoop_turns good.toMarked filtered there selected (fun j => (k + 1 + j) % n.items.length)
        (m := n.items.length - 1) ?_ ?_ ?_ ?_ ?_ (by omega)
      · intro j early
        rw [tmod_natCast_succ, Nat.mod_add_mod]
        rfl
      · exact fun j early => Nat.mod_lt _ (by omega)
      · intro j early
        rw [wrap j (by omega)]
        split <;> omega
      · rw [wrap _ (by omega)]
        split <;> omega
      · intro i within other
        rcases Nat.lt_or_gt_of_ne other with before | behind
        · refine ⟨i + n.items.length - k - 1, by omega, ?_⟩
          rw [wrap _ (by omega), if_neg (by omega)]
          omega
        · refine ⟨i - k - 1, by omega, ?_⟩
          rw [wrap _ (by omega), if_pos (by omega)]
          omega
    · next unfiltered =>
      have many := several_items unfiltered few
      rw [if_neg (by omega), tmod_natCast_succ]
      right
      apply moves_itemAt good.toMarked there selected (Nat.mod_lt _ (by omega))
      rw [@mod_wrap (k + 1) n.items.length (by omega)]
      split <;> omega

theorem selectPreviousTab_turns {n : Notebook Page} (good : n.WellSelected) (startable : n.Startable) :
    n.Turns n.selectPreviousTab := by
  unfold selectPreviousTab
  dsimp only
  by_cases few : n.items.length ≤ 1 ∧ n.liveOnly = false
  · rw [few.2]
    simp only [Bool.false_eq_true, if_false]
    rw [if_pos (by omega)]
    exact turns_single good few.1
  · obtain ⟨k, start, index, there, selected, inside⟩ := good.start (startable.items few)
    rw [index]
    split
    · next filtered =>
      -- the positions before the start in turn, the last one behind the first
      have wrap (j : Nat) (early : j < n.items.length) := @mod_wrap (k + n.items.length - 1 - j) n.items.length (by omega)
      have first : (if (k : Int) = 0 then (n.items.length : Int) - 1 else (k : Int) - 1) =
          ((k + n.items.length - 1 - 0) % n.items.length : Nat) := by
        rw [wrap 0 (by omega)]
        split <;> split <;> omega
      rw [first]
      refine searchLoop_turns good.toMarked filtered there selected (fun j => (k + n.items.length - 1 - j) % n.items.length)
        (m := n.items.length - 1) ?_ ?_ ?_ ?_ ?_ (by omega)
      · intro j early
        rw [wrap j (by omega), wrap (j + 1) (by omega)]
        split <;> split <;> split <;> omega
      · exact fun j early => Nat.mod_lt _ (by omega)
      · intro j early
        rw [wrap j (by omega)]
        split <;> omega
      · rw [wrap _ (by omega)]
        split <;> omega
      · intro i within other
        rcases Nat.lt_or_gt_of_ne other with before | behind
        · refine ⟨k - 1 - i, by omega, ?_⟩
          rw [wrap _ (by omega), if_neg (by omega)]
          omega
        · refine ⟨k + n.items.length - 1 - i, by omega, ?_⟩
          rw [wrap _ (by omega), if_pos (by omega)]
          omega
    · next unfiltered =>
      have many := several_items unfiltered few
      rw [if_neg (by omega)]
      obtain ⟨i, same, within, apart⟩ : ∃ i : Nat,
          (if (k : Int) - 1 < 0 then (k : Int) - 1 + n.items.length else (k : Int) - 1) = i ∧
            i < n.items.length ∧ i ≠ k := by
        by_cases atStart : k = 0
        · exact ⟨n.items.length - 1, by split <;> omega, by omega, by omega⟩
        · exact ⟨k - 1, by split <;> omega, by omega, by omega⟩
      rw [same]
      exact .inr (moves_itemAt good.toMarked there selected within apart)

/-! ## The calls -/

omit [DecidableEq Page] in
theorem insertItem_perm (items : List (Item Page)) (position : Nat) (item : Item Page) :
    (insertItem items position item).Perm (item :: items) := by
  have middle := @List.perm_middle _ item (items.take position) (items.drop position)
  rwa [List.take_append_drop] at middle

omit [DecidableEq Page] in
/-- The order of the items does not matter. -/
theorem Marked.perm {n : Notebook Page} (marked : n.Marked) {items : List (Item Page)} (same : items.Perm n.items) :
    ({ n with items } : Notebook Page).Marked where
  distinct := (same.map Item.page).nodup_iff.mpr marked.distinct
  marks := fun item member => marked.marks item (same.mem_iff.mp member)
  contained := fun page selected => (same.map Item.page).mem_iff.mpr (marked.contained page selected)

omit [DecidableEq Page] in
/-- A new item comes with a tab that is not selected. -/
theorem Marked.add {n : Notebook Page} (marked : n.Marked) {page : Page} (new : page ∉ n.pages) {isLive : Bool}
    {items : List (Item Page)} (added : items.Perm (⟨⟨false, isLive⟩, page⟩ :: n.items)) :
    ({ n with items } : Notebook Page).Marked where
  distinct := (added.map Item.page).nodup_iff.mpr (List.nodup_cons.mpr ⟨new, marked.distinct⟩)
  marks := by
    intro item member
    rcases List.mem_cons.mp (added.mem_iff.mp member) with rfl | old
    · exact iff_of_false Bool.false_ne_true fun selected => new (marked.contained page selected)
    · exact marked.marks item old
  contained := fun other selected =>
    (added.map Item.page).mem_iff.mpr (List.mem_cons_of_mem _ (marked.contained other selected))

theorem addPageAt_spec {n : Notebook Page} (good : n.WellSelected) {page : Page} (new : page ∉ n.pages) {position : Int}
    (inside : -1 ≤ position ∧ position ≤ n.items.length) (select : Bool) :
    ∃ next, n.addPageAt page position select = some next ∧ next.WellSelected := by
  -- where the page is put does not matter for the selection
  have settled {items : List (Item Page)} (added : items.Perm (⟨⟨false, false⟩, page⟩ :: n.items)) :
      (if select = true ∨ items.length = 1 then ({ n with items } : Notebook Page).select (some page)
        else { n with items }).WellSelected := by
    have marked := good.add new added
    split
    · exact marked.select ((added.map Item.page).mem_iff.mpr List.mem_cons_self)
    · next notAlone =>
      refine ⟨marked, fun nothing => ?_⟩
      have empty := good.selects nothing
      rw [added.length_eq, empty] at notAlone
      exact absurd (.inr rfl) notAlone
  unfold addPageAt
  dsimp only
  split
  · exact ⟨_, rfl, settled (List.perm_append_singleton _ _)⟩
  · rw [if_pos ⟨by omega, inside.2⟩]
    exact ⟨_, rfl, settled (insertItem_perm _ _ _)⟩

theorem selectIndex_spec {n : Notebook Page} (good : n.WellSelected) (index : Int) :
    ∃ next, n.selectIndex index = some next ∧ next.WellSelected := by
  unfold selectIndex
  split
  · exact ⟨n, rfl, good⟩
  · obtain ⟨i, rfl⟩ := Int.eq_ofNat_of_zero_le (show 0 ≤ index by omega)
    have inside : i < n.items.length := by omega
    rw [itemAt_natCast, List.getElem?_eq_getElem inside]
    exact ⟨_, rfl, good.toMarked.select (List.mem_map_of_mem (List.getElem_mem inside))⟩

omit [DecidableEq Page] in
theorem visibleItem_mem {index i : Int} {items : List (Item Page)} {item : Item Page}
    (found : visibleItem index items i = some item) : item ∈ items := by
  induction items generalizing i with
  | nil => cases found
  | cons first rest ih =>
    rw [visibleItem] at found
    split at found
    · split at found
      · obtain rfl := Option.some.inj found
        exact List.mem_cons_self
      · exact List.mem_cons_of_mem _ (ih found)
    · exact List.mem_cons_of_mem _ (ih found)

theorem selectVisibleIndex_spec {n : Notebook Page} (good : n.WellSelected) (index : Int) :
    ∃ next, n.selectVisibleIndex index = some next ∧ next.WellSelected := by
  unfold selectVisibleIndex
  split
  · split
    · next item found => exact ⟨_, rfl, good.toMarked.select (List.mem_map_of_mem (visibleItem_mem found))⟩
    · exact ⟨n, rfl, good⟩
  · exact selectIndex_spec good index

theorem selectLastTab_spec {n : Notebook Page} (good : n.WellSelected) :
    ∃ next, n.selectLastTab = some next ∧ next.WellSelected := by
  unfold selectLastTab
  dsimp only
  split
  · split
    · next item found =>
      have member := List.mem_reverse.mp (List.mem_of_find?_eq_some found)
      exact ⟨_, rfl, good.toMarked.select (List.mem_map_of_mem member)⟩
    · exact ⟨n, rfl, good⟩
  · split
    · exact ⟨n, rfl, good⟩
    · have last : ((n.items.length : Int) - 1) = (n.items.length - 1 : Nat) := by omega
      have inside : n.items.length - 1 < n.items.length := by omega
      rw [last, itemAt_natCast, List.getElem?_eq_getElem inside]
      exact ⟨_, rfl, good.toMarked.select (List.mem_map_of_mem (List.getElem_mem inside))⟩

theorem rearrangePage_spec {n : Notebook Page} (good : n.WellSelected) {page : Page} (there : page ∈ n.pages) {index : Int}
    (inside : 0 ≤ index ∧ index < n.items.length) :
    ∃ next, n.rearrangePage page index = some next ∧ next.WellSelected := by
  unfold rearrangePage
  by_cases locked : n.lockNotebookLayout = true
  · rw [if_pos locked]
    exact ⟨n, rfl, good⟩
  · obtain ⟨k, item, place, held, -⟩ := indexOf_there there
    obtain ⟨within, rfl⟩ := List.getElem?_eq_some_iff.mp held
    rw [if_neg locked, place, itemAt_natCast, held, Int.toNat_natCast]
    refine ⟨_, if_pos inside, good.perm ?_, ?_⟩
    · exact (insertItem_perm _ _ _).trans (List.getElem_cons_eraseIdx_perm within)
    · intro nothing
      have empty := good.selects nothing
      rw [empty] at within
      cases within

/-! ## Removing a page -/

/-- The selected page is visible, so that it has an index among the visible ones. -/
theorem visibleIndexLoop_spec {page : Page} {items : List (Item Page)} (there : page ∈ items.map Item.page)
    (visible : ∀ item ∈ items, item.page = page → tabVisibilityFilter item.tab = true) (i : Nat) :
    ∃ j : Nat, visibleIndexLoop page items i = some (j : Int) := by
  induction items generalizing i with
  | nil => cases there
  | cons item rest ih =>
    rw [List.forall_mem_cons] at visible
    rw [visibleIndexLoop]
    split
    · next isPage =>
      rw [if_pos (visible.1 isPage)]
      exact ⟨i, rfl⟩
    · next other =>
      have later : page ∈ rest.map Item.page := (List.mem_cons.mp there).resolve_left (Ne.symm other)
      split
      · exact ih later visible.2 (i + 1)
      · exact ih later visible.2 i

theorem visibleIndexOf_spec {n : Notebook Page} (marked : n.Marked) {page : Page} (selected : n.selectedPage = some page) :
    ∃ j : Nat, n.visibleIndexOf page = some (j : Int) := by
  have there := marked.contained page selected
  unfold visibleIndexOf
  split
  · refine visibleIndexLoop_spec there ?_ 0
    intro item member isPage
    have isSelected := (marked.marks item member).mpr (isPage.symm ▸ selected)
    rw [tabVisibilityFilter, isSelected, Bool.true_or]
  · obtain ⟨k, item, index, -, -⟩ := indexOf_there there
    exact ⟨k, congrArg some index⟩

/-- Where more than the selected tab is visible, another page is turned to. -/
theorem Turns.moves {n : Notebook Page} {result : Option (Notebook Page)} (turns : n.Turns result) (marked : n.Marked)
    {page : Page} (selected : n.selectedPage = some page) (several : n.getVisibleTabCount ≠ 1) : n.Moves result := by
  refine turns.resolve_left ?_
  rintro ⟨-, others⟩
  -- if no other page can be gone to, the selected tab is the only visible one
  have count : n.getVisibleTabCount = n.items.countP n.shows := by
    unfold getVisibleTabCount shows
    cases n.liveOnly <;> simp
  have same : n.items.countP n.shows = n.items.countP fun item => item.page == page := by
    apply List.countP_congr
    intro item member
    rw [beq_iff_eq]
    constructor
    · intro visible
      have isSelected := others item member visible
      rw [selected] at isSelected
      exact (Option.some.inj isSelected).symm
    · intro isPage
      have isSelected := (marked.marks item member).mpr (isPage.symm ▸ selected)
      rw [shows, tabVisibilityFilter, isSelected, Bool.true_or, Bool.or_true]
  have once : n.items.countP (fun item => item.page == page) = 1 := by
    have single := List.count_eq_one_of_mem marked.distinct (marked.contained page selected)
    rwa [List.count, Notebook.pages, List.countP_map] at single
  exact several (by rw [count, same, once]; rfl)

/-- What holds before the page is taken out: another one is selected, or it was the only one. -/
structure Left (n : Notebook Page) (page : Page) (next : Notebook Page) : Prop where
  marked : next.Marked
  pages : next.pages = n.pages
  leaves : next.selectedPage ≠ some page
  single : next.selectedPage = none → n.items.length = 1

theorem Moves.left {n : Notebook Page} {result : Option (Notebook Page)} (moves : n.Moves result) (marked : n.Marked)
    {page : Page} (selected : n.selectedPage = some page) : ∃ next, result = some next ∧ n.Left page next := by
  obtain ⟨item, member, other, rfl⟩ := moves
  have selects := select_selects marked fun p same => Option.some.inj same ▸ List.mem_map_of_mem member
  refine ⟨_, rfl, selects.marked, selects.pages, ?_, ?_⟩
  · rw [selects.selected]
    intro same
    exact other (selected.trans same.symm)
  · intro nothing
    rw [selects.selected] at nothing
    cases nothing

theorem selectInstead_left {n : Notebook Page} (good : n.WellSelected) {page : Page} {k : Nat} {item : Item Page}
    (held : n.items[k]? = some item) (isPage : item.page = page) :
    ∃ next, n.selectInstead page k = some next ∧ n.Left page next := by
  have inside := (List.getElem?_eq_some_iff.mp held).1
  unfold selectInstead
  split
  · next selected =>
    obtain ⟨j, visibleIndex⟩ := visibleIndexOf_spec good.toMarked selected
    have startable : n.Startable := by
      rintro ⟨-, nothing⟩
      rw [nothing] at inside
      cases inside
    simp only [visibleIndex]
    rw [if_neg (by omega)]
    split
    · next single =>
      have selects := selects_nothing good.toMarked selected
      refine ⟨_, rfl, selects.marked, selects.pages, ?_, fun _ => single⟩
      rw [selects.selected]
      exact nofun
    · next several =>
      split
      · rw [tmod_natCast_succ]
        refine Moves.left (moves_itemAt good.toMarked held (isPage ▸ selected) (Nat.mod_lt _ (by omega)) ?_) good.toMarked
          selected
        rw [@mod_wrap (k + 1) n.items.length (by omega)]
        split <;> omega
      · next notOne =>
        split
        · exact ((selectPreviousTab_turns good startable).moves good.toMarked selected notOne).left good.toMarked selected
        · exact ((selectNextTab_turns good startable).moves good.toMarked selected notOne).left good.toMarked selected
  · next other =>
    refine ⟨n, rfl, good.toMarked, rfl, other, fun nothing => ?_⟩
    rw [good.selects nothing] at inside
    cases inside

theorem removePage_spec {n : Notebook Page} (good : n.WellSelected) {page : Page} (there : page ∈ n.pages) :
    ∃ next, n.removePage page = some next ∧ next.WellSelected := by
  obtain ⟨k, item, index, held, isPage⟩ := indexOf_there there
  obtain ⟨next, left, marked, pages, leaves, single⟩ := selectInstead_left good held isPage
  unfold removePage
  dsimp only
  rw [index, if_neg (by omega), left, Int.toNat_natCast]
  refine ⟨_, rfl, ⟨?_, ?_, ?_⟩, ?_⟩
  · exact marked.distinct.sublist ((List.eraseIdx_sublist next.items k).map Item.page)
  · exact fun other member => marked.marks other (List.eraseIdx_subset member)
  · intro other selected
    -- the page that is selected now is not the one that is taken out
    obtain ⟨i, here⟩ := List.mem_iff_getElem?.mp (pages ▸ marked.contained other selected)
    show other ∈ (next.items.eraseIdx k).map Item.page
    rw [← List.eraseIdx_map, List.mem_eraseIdx_iff_getElem?, show next.items.map Item.page = n.pages from pages]
    refine ⟨i, ?_, here⟩
    rintro rfl
    rw [Notebook.pages, List.getElem?_map, held] at here
    obtain rfl : item.page = other := Option.some.inj here
    exact leaves (isPage ▸ selected)
  · intro nothing
    -- nothing is selected only where the page was the last one
    have one := single nothing
    have inside := (List.getElem?_eq_some_iff.mp held).1
    have lengths := congrArg List.length pages
    simp only [Notebook.pages, List.length_map] at lengths
    obtain ⟨only, isOnly⟩ := List.length_eq_one_iff.mp (lengths.trans one)
    obtain rfl : k = 0 := by omega
    show next.items.eraseIdx 0 = []
    rw [isOnly]
    rfl

/-! ## Runs -/

/-- The next or the previous tab is gone to where there is a page to start from. -/
def Allowed (n : Notebook Page) : Event Page → Prop
  | .selectNextTab | .selectPreviousTab => n.Startable
  | _ => True

instance (n : Notebook Page) : ∀ e, Decidable (n.Allowed e)
  | .selectNextTab | .selectPreviousTab => inferInstanceAs (Decidable (¬ (_ ∧ _)))
  | .addPageAt _ _ _ | .removePage _ | .select _ | .selectIndex _ | .selectVisibleIndex _ | .selectLastTab
  | .rearrangePage _ _ | .setTabVisibilityFilter _ | .setLockNotebookLayout _ | .setLive _ _ =>
    inferInstanceAs (Decidable True)

theorem step_spec {n : Notebook Page} (good : n.WellSelected) {e : Event Page} (proper : n.Proper e)
    (allowed : n.Allowed e) :
    ∃ next, n.step e = some next ∧ next.WellSelected := by
  cases e with
  | addPageAt page position select => exact addPageAt_spec good proper.1 proper.2 select
  | removePage page => exact removePage_spec good proper
  | select page => exact ⟨_, rfl, good.toMarked.select proper⟩
  | selectIndex index => exact selectIndex_spec good index
  | selectVisibleIndex index => exact selectVisibleIndex_spec good index
  | selectNextTab => exact (selectNextTab_turns good allowed).wellSelected good
  | selectPreviousTab => exact (selectPreviousTab_turns good allowed).wellSelected good
  | selectLastTab => exact selectLastTab_spec good
  | rearrangePage page index => exact rearrangePage_spec good proper.1 proper.2
  | setTabVisibilityFilter liveOnly => exact ⟨_, rfl, ⟨good.distinct, good.marks, good.contained⟩, good.selects⟩
  | setLockNotebookLayout value => exact ⟨_, rfl, ⟨good.distinct, good.marks, good.contained⟩, good.selects⟩
  | setLive page isLive =>
    have pages := pages_updateTab page (setLive isLive) n.items
    refine ⟨_, rfl, ⟨?_, ?_, ?_⟩, fun nothing => ?_⟩
    · show ((updateTab page (setLive isLive) n.items).map Item.page).Nodup
      rw [pages]
      exact good.distinct
    · intro item member
      obtain ⟨old, oldToo, samePage, tab⟩ := mem_updateTab good.distinct member
      have sameMark : item.tab.isSelected = old.tab.isSelected := by
        rw [tab]
        split <;> rfl
      rw [sameMark, samePage]
      exact good.marks old oldToo
    · intro other selected
      show other ∈ (updateTab page (setLive isLive) n.items).map Item.page
      rw [pages]
      exact good.contained other selected
    · show updateTab page (setLive isLive) n.items = []
      rw [good.selects nothing]
      rfl

/-- Without a page to start from, there is a division by zero, or the item in front of the first
one is read. -/
theorem allowed_of_step {n next : Notebook Page} {e : Event Page} (taken : n.step e = some next) : n.Allowed e := by
  have nowhere (items : n.items = []) : n.indexOf n.selectedPage = -1 := by
    unfold indexOf
    rw [items]
    cases n.selectedPage <;> rfl
  cases e with
  | selectNextTab =>
    rintro ⟨filtered, items⟩
    unfold step selectNextTab at taken
    simp [filtered, items] at taken
  | selectPreviousTab =>
    rintro ⟨filtered, items⟩
    unfold step selectPreviousTab at taken
    simp [filtered, nowhere items, searchLoop, itemAt] at taken
  | _ => trivial

/-- No call of a run fails and the selection is right behind each of them if and only if no next or
previous tab is gone to while there is a filter and no page. -/
theorem selection_safe_iff {events : List (Event Page)} (proper : Along step Proper new events) :
    Along step Allowed new events ↔
      (∃ final, run step new events = some final) ∧
        ∀ before, before <+: events → ∀ n, run step new before = some n → n.WellSelected := by
  have start : (new : Notebook Page).WellSelected :=
    ⟨⟨List.nodup_nil, fun _ member => (List.not_mem_nil member).elim, nofun⟩, fun _ => rfl⟩
  constructor
  · intro allowed
    have along := proper.and allowed
    have total : ∀ (n : Notebook Page) e, n.WellSelected → n.Proper e ∧ n.Allowed e →
        ∃ next, n.step e = some next ∧ next.WellSelected := fun n e good both => step_spec good both.1 both.2
    obtain ⟨final, ran, -⟩ := run_total total along start
    refine ⟨⟨final, ran⟩, ?_⟩
    intro before isPrefix n reached
    obtain ⟨state, ranToo, good⟩ := run_total total (along.of_prefix isPrefix) start
    rw [reached] at ranToo
    exact Option.some.inj ranToo ▸ good
  · rintro ⟨⟨final, ran⟩, -⟩
    exact along_of_run (fun n e next taken => allowed_of_step taken) ran

theorem selection_safe_hidden :
    (∃ final, run step (new : Notebook Nat)
      [.addPageAt 0 (-1) false, .addPageAt 1 0 true, .setTabVisibilityFilter true, .selectNextTab, .removePage 1] =
        some final) ∧
      ∀ before, before <+: [.addPageAt 0 (-1) false, .addPageAt 1 0 true, .setTabVisibilityFilter true, .selectNextTab,
        .removePage 1] → ∀ n, run step new before = some n → n.WellSelected :=
  (selection_safe_iff (by decide)).mp (by decide)

/-- The live tabs are to be shown, there is none at all, and the next one is gone to. -/
theorem next_of_nothing : ¬ ∀ events : List (Event Nat), Along step Proper new events →
    ∃ final, run step new events = some final := by
  intro holds
  obtain ⟨final, ran⟩ := holds [.setTabVisibilityFilter true, .selectNextTab] (by decide)
  have nothing : run step (new : Notebook Nat) [.setTabVisibilityFilter true, .selectNextTab] = none := rfl
  rw [nothing] at ran
  cases ran

end Forserino.Notebooks.Notebook
