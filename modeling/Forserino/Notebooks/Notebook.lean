import Forserino.Foundation.Runs
import Mathlib.Data.List.Nodup

/-! The pages of a notebook and the one that is selected (widgets/Notebook.cpp).

There is no result where a number is divided by zero, where an index is out of the range of the
items, where an assertion is violated and where a loop does not end.
-/

set_option autoImplicit false

namespace Forserino.Notebooks

open Forserino.Foundation

universe u

/-- What is read of the tab of a page. -/
structure TabState where
  isSelected : Bool
  isLive : Bool
  deriving DecidableEq, Repr

structure Item (Page : Type u) where
  tab : TabState
  page : Page
  deriving DecidableEq, Repr

/-- The filter is set when only live tabs are to be visible. -/
structure Notebook (Page : Type u) where
  items : List (Item Page)
  selectedPage : Option Page
  liveOnly : Bool
  lockNotebookLayout : Bool
  deriving DecidableEq, Repr

/-- The filter for live tabs, wrapped to always accept selected ones. -/
def tabVisibilityFilter (tab : TabState) : Bool := tab.isSelected || tab.isLive

namespace Notebook

variable {Page : Type u} [DecidableEq Page]

def new : Notebook Page := ⟨[], none, false, false⟩

def pages (n : Notebook Page) : List Page := n.items.map Item.page

def indexOf (n : Notebook Page) (page : Option Page) : Int :=
  match page.bind fun page => n.items.findIdx? fun item => item.page == page with
  | some i => i
  | none => -1

/-- The item at an index, which has to be in range. -/
def itemAt (n : Notebook Page) (index : Int) : Option (Item Page) :=
  if index < 0 then none else n.items[index.toNat]?

/-- The loop of visibleIndexOf, which asserts that the page is visible. -/
def visibleIndexLoop (page : Page) : List (Item Page) → Int → Option Int
  | [], _ => some (-1)
  | item :: rest, i =>
      if item.page = page then
        if tabVisibilityFilter item.tab then some i else none
      else visibleIndexLoop page rest (if tabVisibilityFilter item.tab then i + 1 else i)

def visibleIndexOf (n : Notebook Page) (page : Page) : Option Int :=
  if n.liveOnly then visibleIndexLoop page n.items 0 else some (n.indexOf (some page))

def getVisibleTabCount (n : Notebook Page) : Int :=
  if n.liveOnly then n.items.countP fun item => tabVisibilityFilter item.tab else n.items.length

/-- The tab of the first item with the page changes. -/
def updateTab (page : Page) (change : TabState → TabState) : List (Item Page) → List (Item Page)
  | [] => []
  | item :: rest =>
      if item.page = page then { item with tab := change item.tab } :: rest
      else item :: updateTab page change rest

def setSelected (value : Bool) (tab : TabState) : TabState := { tab with isSelected := value }

def setLive (isLive : Bool) (tab : TabState) : TabState := { tab with isLive }

def contains (n : Notebook Page) (page : Page) : Bool := n.items.any fun item => item.page == page

def select (n : Notebook Page) (page : Option Page) : Notebook Page :=
  if page = n.selectedPage then n
  else
    let missing := page.any fun page => !n.contains page
    if missing then n
    else
      let marked := match page with
        | some page => { n with items := updateTab page (setSelected true) n.items }
        | none => n
      match n.selectedPage with
      | none => { marked with selectedPage := page }
      | some previous =>
          if !n.contains previous then marked
          else { marked with items := updateTab previous (setSelected false) marked.items, selectedPage := page }

def selectIndex (n : Notebook Page) (index : Int) : Option (Notebook Page) :=
  if index < 0 ∨ n.items.length ≤ index then some n
  else (n.itemAt index).map fun item => n.select (some item.page)

/-- The index'th item that is visible. -/
def visibleItem (index : Int) : List (Item Page) → Int → Option (Item Page)
  | [], _ => none
  | item :: rest, i =>
      if tabVisibilityFilter item.tab then
        if i = index then some item else visibleItem index rest (i + 1)
      else visibleItem index rest i

def selectVisibleIndex (n : Notebook Page) (index : Int) : Option (Notebook Page) :=
  if n.liveOnly then
    match visibleItem index n.items 0 with
    | some item => some (n.select (some item.page))
    | none => some n
  else n.selectIndex index

/-- The loops of selectNextTab and selectPreviousTab. The index depends on the one before only,
and once it has been through all of them without an end, there is none. -/
def searchLoop (n : Notebook Page) (startIndex : Int) (advance : Int → Int) : Nat → Int → Option (Notebook Page)
  | 0, _ => none
  | rounds + 1, index =>
      if index = startIndex then some n
      else
        match n.itemAt index with
        | none => none
        | some item =>
            if tabVisibilityFilter item.tab then some (n.select (some item.page))
            else n.searchLoop startIndex advance rounds (advance index)

def selectNextTab (n : Notebook Page) : Option (Notebook Page) :=
  let size : Int := n.items.length
  let startIndex := n.indexOf n.selectedPage
  if n.liveOnly then
    if size = 0 then none
    else n.searchLoop startIndex (fun index => (index + 1).tmod size) (n.items.length + 1) ((startIndex + 1).tmod size)
  else if size ≤ 1 then some n
  else (n.itemAt ((startIndex + 1).tmod size)).map fun item => n.select (some item.page)

def selectPreviousTab (n : Notebook Page) : Option (Notebook Page) :=
  let size : Int := n.items.length
  let startIndex := n.indexOf n.selectedPage
  let before (index : Int) : Int := if index = 0 then size - 1 else index - 1
  if n.liveOnly then n.searchLoop startIndex before (n.items.length + 1) (before startIndex)
  else if size ≤ 1 then some n
  else
    let index := startIndex - 1
    (n.itemAt (if index < 0 then index + size else index)).map fun item => n.select (some item.page)

def selectLastTab (n : Notebook Page) : Option (Notebook Page) :=
  let size : Int := n.items.length
  if n.liveOnly then
    match n.items.reverse.find? fun item => tabVisibilityFilter item.tab with
    | some item => some (n.select (some item.page))
    | none => some n
  else if size ≤ 1 then some n
  else (n.itemAt (size - 1)).map fun item => n.select (some item.page)

def insertItem (items : List (Item Page)) (position : Nat) (item : Item Page) : List (Item Page) :=
  items.take position ++ item :: items.drop position

def addPageAt (n : Notebook Page) (page : Page) (position : Int) (select : Bool) : Option (Notebook Page) :=
  let item : Item Page := ⟨⟨false, false⟩, page⟩
  let inserted :=
    if position = -1 then some (n.items ++ [item])
    else if 0 ≤ position ∧ position ≤ n.items.length then some (insertItem n.items position.toNat item)
    else none
  inserted.map fun items =>
    let n := { n with items }
    if select ∨ n.items.length = 1 then n.select (some page) else n

/-- What is selected instead of a page before it is removed. -/
def selectInstead (n : Notebook Page) (page : Page) (removingIndex : Int) : Option (Notebook Page) :=
  if n.selectedPage = some page then
    let countVisible := n.getVisibleTabCount
    match n.visibleIndexOf page with
    | none => none
    | some visibleIndex =>
        if visibleIndex = -1 then none
        else if n.items.length = 1 then some (n.select none)
        else if countVisible = 1 then
          (n.itemAt ((removingIndex + 1).tmod n.items.length)).map fun item => n.select (some item.page)
        else if visibleIndex = countVisible - 1 then n.selectPreviousTab
        else n.selectNextTab
  else some n

def removePage (n : Notebook Page) (page : Page) : Option (Notebook Page) :=
  let removingIndex := n.indexOf (some page)
  if removingIndex = -1 then none
  else
    (n.selectInstead page removingIndex).map fun n =>
      { n with items := n.items.eraseIdx removingIndex.toNat }

def rearrangePage (n : Notebook Page) (page : Page) (index : Int) : Option (Notebook Page) :=
  if n.lockNotebookLayout then some n
  else
    match n.itemAt (n.indexOf (some page)) with
    | none => none
    | some item =>
        if 0 ≤ index ∧ index < n.items.length then
          some { n with items := insertItem (n.items.eraseIdx (n.indexOf (some page)).toNat) index.toNat item }
        else none

/-- The calls, and that a tab goes live or offline. -/
inductive Event (Page : Type u) where
  | addPageAt (page : Page) (position : Int) (select : Bool)
  | removePage (page : Page)
  | select (page : Page)
  | selectIndex (index : Int)
  | selectVisibleIndex (index : Int)
  | selectNextTab
  | selectPreviousTab
  | selectLastTab
  | rearrangePage (page : Page) (index : Int)
  | setTabVisibilityFilter (liveOnly : Bool)
  | setLockNotebookLayout (value : Bool)
  | setLive (page : Page) (isLive : Bool)
  deriving DecidableEq, Repr

def step (n : Notebook Page) : Event Page → Option (Notebook Page)
  | .addPageAt page position select => n.addPageAt page position select
  | .removePage page => n.removePage page
  | .select page => some (n.select (some page))
  | .selectIndex index => n.selectIndex index
  | .selectVisibleIndex index => n.selectVisibleIndex index
  | .selectNextTab => n.selectNextTab
  | .selectPreviousTab => n.selectPreviousTab
  | .selectLastTab => n.selectLastTab
  | .rearrangePage page index => n.rearrangePage page index
  | .setTabVisibilityFilter liveOnly => some { n with liveOnly }
  | .setLockNotebookLayout value => some { n with lockNotebookLayout := value }
  | .setLive page isLive => some { n with items := updateTab page (setLive isLive) n.items }

/-- What the callers see to: a page that is added is new, and other pages are of the notebook; an
index to move a page to is one of an item. -/
def Proper (n : Notebook Page) : Event Page → Prop
  | .addPageAt page position _ => page ∉ n.pages ∧ -1 ≤ position ∧ position ≤ n.items.length
  | .removePage page => page ∈ n.pages
  | .select page => page ∈ n.pages
  | .rearrangePage page index => page ∈ n.pages ∧ 0 ≤ index ∧ index < n.items.length
  | _ => True

instance (n : Notebook Page) : ∀ e, Decidable (n.Proper e)
  | .addPageAt _ _ _ => inferInstanceAs (Decidable (_ ∧ _ ∧ _))
  | .removePage _ | .select _ => inferInstanceAs (Decidable (_ ∈ _))
  | .rearrangePage _ _ => inferInstanceAs (Decidable (_ ∧ _ ∧ _))
  | .selectIndex _ | .selectVisibleIndex _ | .selectNextTab | .selectPreviousTab | .selectLastTab
  | .setTabVisibilityFilter _ | .setLockNotebookLayout _ | .setLive _ _ => inferInstanceAs (Decidable True)

example : (run step (Notebook.new : Notebook Nat)
    [.addPageAt 0 (-1) false, .addPageAt 1 0 true, .setTabVisibilityFilter true, .setLive 0 true, .selectNextTab,
      .removePage 0]).map selectedPage = some (some 1) := by decide

end Notebook

end Forserino.Notebooks
