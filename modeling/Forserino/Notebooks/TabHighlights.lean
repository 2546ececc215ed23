import Forserino.Foundation.Runs
import Mathlib.Data.List.AList
import Mathlib.Data.List.ReduceOption
import Mathlib.Logic.Function.Basic

/-! The highlight states of tabs, and the channel views that they come from
(widgets/helper/NotebookTab.cpp).

A channel view that shows the same as one that is read is no source any longer in any tab. A
violated assertion ends a run.
-/

set_option autoImplicit false

namespace Forserino.Notebooks

open Forserino.Foundation

universe u v

inductive HighlightState where
  | none | highlighted | newMessage
  deriving DecidableEq, Repr

/-- A new message is more than nothing, and a highlight is more than a new message. -/
def HighlightState.rank : HighlightState → Nat
  | .none => 0
  | .newMessage => 1
  | .highlighted => 2

/-- The sources are the ids of channel views. -/
abbrev HighlightSources (Source : Type v) := AList fun _ : Source => HighlightState

structure NotebookTab (Source : Type v) where
  selected : Bool
  highlightState : HighlightState
  highlightSources : HighlightSources Source
  highlightEnabled : Bool

/-- What a call reads of the notebook: the tabs of the pages that are split containers (there is
none for a page without a tab), if it is a SplitNotebook, and the channel views that the selected
page shows, if that is a split container. -/
structure Surroundings (Tab : Type u) (Source : Type v) where
  splitNotebook : Option (List (Option Tab))
  visibleSplits : Option (List Source)
  deriving Repr

namespace NotebookTab

variable {Source : Type v} [DecidableEq Source]

def new : NotebookTab Source := ⟨false, .none, ∅, true⟩

omit [DecidableEq Source] in
def hasSource (tab : NotebookTab Source) (state : HighlightState) : Bool :=
  tab.highlightSources.entries.any fun keyval => keyval.2 == state

def removeHighlightSource (tab : NotebookTab Source) (source : Source) : NotebookTab Source :=
  { tab with highlightSources := tab.highlightSources.erase source }

def removeHighlightStateChangeSources (toRemove : HighlightSources Source) (tab : NotebookTab Source) :
    NotebookTab Source :=
  toRemove.entries.foldl (fun tab keyval => tab.removeHighlightSource keyval.1) tab

omit [DecidableEq Source] in
def updateHighlightStateDueSourcesChange (tab : NotebookTab Source) : Option (NotebookTab Source) :=
  if tab.hasSource .highlighted then
    if tab.highlightState = .highlighted then some tab else none
  else
    let updated : NotebookTab Source :=
      if tab.hasSource .newMessage then { tab with highlightState := .newMessage }
      else { tab with highlightState := .none }
    if updated.highlightState ≠ .highlighted then some updated else none

omit [DecidableEq Source] in
/-- What the calls begin with: nothing is done to a selected tab, for which there are assertions. -/
def unlessSelected (tab : NotebookTab Source) (call : NotebookTab Source → NotebookTab Source) :
    Option (NotebookTab Source) :=
  if tab.selected then
    if tab.highlightSources.entries.isEmpty ∧ tab.highlightState = .none then some tab else none
  else some (call tab)

omit [DecidableEq Source] in
/-- What the calls end with: a state is not lowered from a highlight. -/
def raise (tab : NotebookTab Source) (newHighlightStyle : HighlightState) : NotebookTab Source :=
  if tab.highlightState = newHighlightStyle ∨ tab.highlightState = .highlighted then tab
  else { tab with highlightState := newHighlightStyle }

omit [DecidableEq Source] in
def setHighlightState (tab : NotebookTab Source) (newHighlightStyle : HighlightState) : Option (NotebookTab Source) :=
  tab.unlessSelected fun tab =>
    let tab := { tab with highlightSources := ∅ }
    if !tab.highlightEnabled && newHighlightStyle == .newMessage then tab else tab.raise newHighlightStyle

omit [DecidableEq Source] in
def copyHighlightStateAndSourcesFrom (tab sourceTab : NotebookTab Source) : Option (NotebookTab Source) :=
  tab.unlessSelected fun tab =>
    let tab := { tab with highlightSources := sourceTab.highlightSources }
    if !tab.highlightEnabled && sourceTab.highlightState == .newMessage then tab else tab.raise sourceTab.highlightState

def shouldMessageHighlight (visibleSplits : Option (List Source)) (channelViewId : Source) : Bool :=
  match visibleSplits with
  | some splits => !splits.contains channelViewId
  | none => true

/-- The switch falls through from a highlight to a new message. -/
def addSource (tab : NotebookTab Source) (channelViewId : Source) : HighlightState → NotebookTab Source
  | .highlighted =>
      let inserted := tab.highlightSources.insert channelViewId .highlighted
      { tab with highlightSources :=
          if channelViewId ∈ inserted then inserted else inserted.insert channelViewId .highlighted }
  | .newMessage =>
      if channelViewId ∈ tab.highlightSources then tab
      else { tab with highlightSources := tab.highlightSources.insert channelViewId .newMessage }
  | .none => tab

def updateHighlightState (tab : NotebookTab Source) (newHighlightStyle : HighlightState) (channelViewId : Source)
    (visibleSplits : Option (List Source)) : Option (NotebookTab Source) :=
  tab.unlessSelected fun tab =>
    if !shouldMessageHighlight visibleSplits channelViewId then tab
    else if !tab.highlightEnabled && newHighlightStyle == .newMessage then tab
    else (tab.addSource channelViewId newHighlightStyle).raise newHighlightStyle

end NotebookTab

/-! ## The tabs of a notebook -/

variable {Tab : Type u} {Source : Type v} [DecidableEq Tab] [DecidableEq Source]

abbrev Tabs (Tab : Type u) (Source : Type v) := Tab → NotebookTab Source

/-- The loop over the pages, in which sources are removed from every tab but this one. -/
def updateOthers (this : Tab) (remove : NotebookTab Source → NotebookTab Source) :
    List (Option Tab) → Tabs Tab Source → Option (Tabs Tab Source)
  | [], tabs => some tabs
  | none :: pages, tabs => updateOthers this remove pages tabs
  | some tab :: pages, tabs =>
      if tab = this then updateOthers this remove pages tabs
      else
        (remove (tabs tab)).updateHighlightStateDueSourcesChange.bind fun updated =>
          updateOthers this remove pages (Function.update tabs tab updated)

def newHighlightSourceAdded (tabs : Tabs Tab Source) (this : Tab) (channelViewId : Source)
    (around : Surroundings Tab Source) : Option (Tabs Tab Source) :=
  ((tabs this).removeHighlightSource channelViewId).updateHighlightStateDueSourcesChange.bind fun updated =>
    updateOthers this (fun tab => tab.removeHighlightSource channelViewId) (around.splitNotebook.getD [])
      (Function.update tabs this updated)

def setSelected (tabs : Tabs Tab Source) (this : Tab) (value : Bool) (around : Surroundings Tab Source) :
    Option (Tabs Tab Source) :=
  let tabs := Function.update tabs this { tabs this with selected := value }
  let others :=
    if value then
      updateOthers this (NotebookTab.removeHighlightStateChangeSources (tabs this).highlightSources)
        (around.splitNotebook.getD []) tabs
    else some tabs
  others.map fun tabs =>
    Function.update tabs this { tabs this with highlightSources := ∅, highlightState := .none }

/-- The calls, and that highlights are enabled or disabled in the menu of a tab. -/
inductive TabCall (Tab : Type u) (Source : Type v) where
  | updateHighlightState (tab : Tab) (newHighlightStyle : HighlightState) (channelViewId : Source)
      (around : Surroundings Tab Source)
  | setHighlightState (tab : Tab) (newHighlightStyle : HighlightState)
  | newHighlightSourceAdded (tab : Tab) (channelViewId : Source) (around : Surroundings Tab Source)
  | copyHighlightStateAndSourcesFrom (tab sourceTab : Tab)
  | setSelected (tab : Tab) (value : Bool) (around : Surroundings Tab Source)
  | setHighlightsEnabled (tab : Tab) (newVal : Bool)

def tabStep (tabs : Tabs Tab Source) : TabCall Tab Source → Option (Tabs Tab Source)
  | .updateHighlightState tab newHighlightStyle channelViewId around =>
      ((tabs tab).updateHighlightState newHighlightStyle channelViewId around.visibleSplits).map (Function.update tabs tab)
  | .setHighlightState tab newHighlightStyle =>
      ((tabs tab).setHighlightState newHighlightStyle).map (Function.update tabs tab)
  | .newHighlightSourceAdded tab channelViewId around => newHighlightSourceAdded tabs tab channelViewId around
  | .copyHighlightStateAndSourcesFrom tab sourceTab =>
      ((tabs tab).copyHighlightStateAndSourcesFrom (tabs sourceTab)).map (Function.update tabs tab)
  | .setSelected tab value around => setSelected tabs tab value around
  | .setHighlightsEnabled tab newVal => some (Function.update tabs tab { tabs tab with highlightEnabled := newVal })

/-- The tabs whose state a call derives from their sources again. -/
def TabCall.refreshed : TabCall Tab Source → List Tab
  | .newHighlightSourceAdded this _ around => this :: (around.splitNotebook.getD []).reduceOption
  | .setSelected this true around => (around.splitNotebook.getD []).reduceOption.filter fun tab => tab ≠ this
  | _ => []

namespace NotebookTab

omit [DecidableEq Source]

/-- A tab with a highlight among its sources is highlighted, and a selected one has no sources and
no state. -/
structure Consistent (tab : NotebookTab Source) : Prop where
  highlighted : ∀ keyval ∈ tab.highlightSources.entries, keyval.2 = .highlighted → tab.highlightState = .highlighted
  selected : tab.selected = true → tab.highlightSources.entries = [] ∧ tab.highlightState = .none

/-- The state is the maximum of the states of the sources, or none if there are none. -/
structure IsMaximum (tab : NotebookTab Source) : Prop where
  above : ∀ keyval ∈ tab.highlightSources.entries, keyval.2.rank ≤ tab.highlightState.rank
  reached : tab.highlightState = .none ∨ ∃ keyval ∈ tab.highlightSources.entries, keyval.2 = tab.highlightState

theorem Consistent.of_unselected {tab : NotebookTab Source} (unselected : tab.selected = false)
    (highlighted : ∀ keyval ∈ tab.highlightSources.entries, keyval.2 = .highlighted → tab.highlightState = .highlighted) :
    tab.Consistent :=
  ⟨highlighted, fun selected => by rw [unselected] at selected; cases selected⟩

theorem hasSource_iff {tab : NotebookTab Source} {state : HighlightState} :
    tab.hasSource state = true ↔ ∃ keyval ∈ tab.highlightSources.entries, keyval.2 = state := by
  simp [hasSource]

/-- No assertion is violated, and the state is the maximum behind the call. -/
theorem updateHighlightStateDueSourcesChange_spec {tab : NotebookTab Source} (consistent : tab.Consistent) :
    ∃ updated, tab.updateHighlightStateDueSourcesChange = some updated ∧ updated.Consistent ∧ updated.IsMaximum := by
  unfold updateHighlightStateDueSourcesChange
  split
  · next found =>
    obtain ⟨keyval, member, isHighlight⟩ := hasSource_iff.mp found
    have state := consistent.highlighted keyval member isHighlight
    rw [if_pos state]
    refine ⟨tab, rfl, consistent, ?_, .inr ⟨keyval, member, isHighlight.trans state.symm⟩⟩
    intro other _
    rw [state]
    cases other.2 <;> decide
  · next noHighlight =>
    have other : ∀ keyval ∈ tab.highlightSources.entries, keyval.2 ≠ .highlighted := by
      intro keyval member isHighlight
      exact noHighlight (hasSource_iff.mpr ⟨keyval, member, isHighlight⟩)
    split
    · next found =>
      obtain ⟨keyval, member, isMessage⟩ := hasSource_iff.mp found
      refine ⟨_, if_pos (by simp), ⟨?_, ?_⟩, ?_, .inr ⟨keyval, member, isMessage⟩⟩
      · exact fun keyval member isHighlight => absurd isHighlight (other keyval member)
      · intro selected
        rw [(consistent.selected selected).1] at member
        cases member
      · intro keyval member
        have notHighlight := other keyval member
        show keyval.2.rank ≤ HighlightState.newMessage.rank
        revert notHighlight
        cases keyval.2 <;> decide
    · next noMessage =>
      refine ⟨_, if_pos (by simp), ⟨?_, ?_⟩, ?_, .inl rfl⟩
      · exact fun keyval member isHighlight => absurd isHighlight (other keyval member)
      · exact fun selected => ⟨(consistent.selected selected).1, rfl⟩
      · intro keyval member
        have notHighlight := other keyval member
        have notMessage : keyval.2 ≠ .newMessage := fun isMessage =>
          noMessage (hasSource_iff.mpr ⟨keyval, member, isMessage⟩)
        show keyval.2.rank ≤ HighlightState.none.rank
        revert notHighlight notMessage
        cases keyval.2 <;> decide

/-- A tab may lose sources. -/
theorem Consistent.fewer {tab : NotebookTab Source} (consistent : tab.Consistent) {sources : HighlightSources Source}
    (subset : sources.entries ⊆ tab.highlightSources.entries) :
    ({ tab with highlightSources := sources } : NotebookTab Source).Consistent where
  highlighted := fun keyval member => consistent.highlighted keyval (subset member)
  selected := fun selected => by
    obtain ⟨nothing, state⟩ := consistent.selected selected
    rw [nothing] at subset
    exact ⟨List.subset_nil.mp subset, state⟩

theorem unlessSelected_spec {tab : NotebookTab Source} {call : NotebookTab Source → NotebookTab Source}
    (consistent : tab.Consistent) (called : tab.selected = false → (call tab).Consistent) :
    ∃ updated, tab.unlessSelected call = some updated ∧ updated.Consistent := by
  unfold unlessSelected
  split
  · next selected =>
    obtain ⟨nothing, state⟩ := consistent.selected selected
    rw [if_pos ⟨by rw [nothing]; rfl, state⟩]
    exact ⟨tab, rfl, consistent⟩
  · next unselected => exact ⟨_, rfl, called (Bool.eq_false_iff.mpr unselected)⟩

theorem raise_sources (tab : NotebookTab Source) (style : HighlightState) :
    (tab.raise style).highlightSources = tab.highlightSources ∧ (tab.raise style).selected = tab.selected := by
  unfold raise
  split <;> exact ⟨rfl, rfl⟩

theorem raise_highlighted {tab : NotebookTab Source} {style : HighlightState}
    (highlight : tab.highlightState = .highlighted ∨ style = .highlighted) :
    (tab.raise style).highlightState = .highlighted := by
  unfold raise
  split
  · next same =>
    rcases same with same | state
    · rcases highlight with state | isHighlight
      · exact state
      · exact same.trans isHighlight
    · exact state
  · next other =>
    rcases highlight with state | isHighlight
    · exact absurd (.inr state) other
    · exact isHighlight

/-- A state is raised rightly if it stands for every highlight among the sources. -/
theorem raise_consistent {tab : NotebookTab Source} {style : HighlightState} (unselected : tab.selected = false)
    (highlighted : ∀ keyval ∈ tab.highlightSources.entries, keyval.2 = .highlighted →
      tab.highlightState = .highlighted ∨ style = .highlighted) : (tab.raise style).Consistent := by
  obtain ⟨sources, same⟩ := raise_sources tab style
  apply Consistent.of_unselected (same.trans unselected)
  rw [sources]
  exact fun keyval member isHighlight => raise_highlighted (highlighted keyval member isHighlight)

theorem setHighlightState_spec {tab : NotebookTab Source} (consistent : tab.Consistent) (style : HighlightState) :
    ∃ updated, tab.setHighlightState style = some updated ∧ updated.Consistent := by
  apply unlessSelected_spec consistent
  intro unselected
  dsimp only
  split
  · exact .of_unselected unselected fun _ member => nomatch member
  · exact raise_consistent unselected fun _ member => nomatch member

theorem copyHighlightStateAndSourcesFrom_spec {tab sourceTab : NotebookTab Source} (consistent : tab.Consistent)
    (source : sourceTab.Consistent) :
    ∃ updated, tab.copyHighlightStateAndSourcesFrom sourceTab = some updated ∧ updated.Consistent := by
  apply unlessSelected_spec consistent
  intro unselected
  dsimp only
  split
  · next disabled =>
    refine Consistent.of_unselected unselected fun keyval member isHighlight => ?_
    have state := source.highlighted keyval member isHighlight
    -- a source tab with a highlight is highlighted, which is copied in any case
    simp [state] at disabled
  · exact raise_consistent unselected fun keyval member isHighlight =>
      .inr (source.highlighted keyval member isHighlight)

variable [DecidableEq Source]

theorem erase_subset (sources : HighlightSources Source) (source : Source) :
    (sources.erase source).entries ⊆ sources.entries := (List.kerase_sublist source sources.entries).subset

theorem removeHighlightSource_consistent {tab : NotebookTab Source} (consistent : tab.Consistent) (source : Source) :
    (tab.removeHighlightSource source).Consistent := consistent.fewer (erase_subset _ source)

theorem removeHighlightStateChangeSources_consistent {tab : NotebookTab Source} (consistent : tab.Consistent)
    (toRemove : HighlightSources Source) : (tab.removeHighlightStateChangeSources toRemove).Consistent := by
  unfold removeHighlightStateChangeSources
  induction toRemove.entries generalizing tab with
  | nil => exact consistent
  | cons keyval rest ih => exact ih (removeHighlightSource_consistent consistent keyval.1)

/-- A channel view comes to the sources with the style of the call. -/
theorem mem_addSource {tab : NotebookTab Source} {channelViewId : Source} {style : HighlightState}
    {keyval : (_ : Source) × HighlightState}
    (member : keyval ∈ (tab.addSource channelViewId style).highlightSources.entries) :
    keyval ∈ tab.highlightSources.entries ∨ keyval.2 = style := by
  -- an insertion leaves the other sources alone
  have inserted {value : HighlightState} (among : keyval ∈ (tab.highlightSources.insert channelViewId value).entries) :
      keyval ∈ tab.highlightSources.entries ∨ keyval.2 = value := by
    rw [AList.entries_insert] at among
    rcases List.mem_cons.mp among with rfl | old
    · exact .inr rfl
    · exact .inl ((List.kerase_sublist _ _).subset old)
  cases style with
  | none => exact .inl member
  | highlighted =>
    -- insert_or_assign comes first, so that nothing is emplaced behind it
    have there : channelViewId ∈ tab.highlightSources.insert channelViewId .highlighted := by simp
    rw [addSource, if_pos there] at member
    exact inserted member
  | newMessage =>
    rw [addSource] at member
    split at member
    · exact .inl member
    · exact inserted member

theorem addSource_state (tab : NotebookTab Source) (channelViewId : Source) (style : HighlightState) :
    (tab.addSource channelViewId style).highlightState = tab.highlightState ∧
      (tab.addSource channelViewId style).selected = tab.selected := by
  unfold addSource
  split
  · exact ⟨rfl, rfl⟩
  · split <;> exact ⟨rfl, rfl⟩
  · exact ⟨rfl, rfl⟩

theorem updateHighlightState_spec {tab : NotebookTab Source} (consistent : tab.Consistent) (style : HighlightState)
    (channelViewId : Source) (visibleSplits : Option (List Source)) :
    ∃ updated, tab.updateHighlightState style channelViewId visibleSplits = some updated ∧ updated.Consistent := by
  apply unlessSelected_spec consistent
  intro unselected
  split
  · exact consistent
  · split
    · exact consistent
    · obtain ⟨state, selected⟩ := addSource_state tab channelViewId style
      apply raise_consistent (selected.trans unselected)
      intro keyval member isHighlight
      rw [state]
      rcases mem_addSource member with old | same
      · exact .inl (consistent.highlighted keyval old isHighlight)
      · exact .inr (same.symm.trans isHighlight)

end NotebookTab

/-! ## All tabs -/

omit [DecidableEq Source] in
/-- The loop is about the other tabs, and each of the pages' is as its sources say behind it. -/
theorem updateOthers_spec (this : Tab) {remove : NotebookTab Source → NotebookTab Source}
    (keeps : ∀ tab : NotebookTab Source, tab.Consistent → (remove tab).Consistent) (pages : List (Option Tab))
    {tabs : Tabs Tab Source} (consistent : ∀ tab, tab ≠ this → (tabs tab).Consistent) :
    ∃ updated, updateOthers this remove pages tabs = some updated ∧ updated this = tabs this ∧
      (∀ tab, tab ≠ this → (updated tab).Consistent) ∧ (∀ tab, (tabs tab).IsMaximum → (updated tab).IsMaximum) ∧
      ∀ tab, some tab ∈ pages → tab ≠ this → (updated tab).IsMaximum := by
  induction pages generalizing tabs with
  | nil => exact ⟨tabs, rfl, rfl, consistent, fun _ => id, fun _ member => nomatch member⟩
  | cons page pages ih =>
    cases page with
    | none =>
      obtain ⟨updated, looped, same, kept, stay, refreshed⟩ := ih consistent
      refine ⟨updated, looped, same, kept, stay, ?_⟩
      intro tab member other
      exact refreshed tab ((List.mem_cons.mp member).resolve_left (by simp)) other
    | some first =>
      rw [updateOthers]
      split
      · next isThis =>
        obtain ⟨updated, looped, same, kept, stay, refreshed⟩ := ih consistent
        refine ⟨updated, looped, same, kept, stay, ?_⟩
        intro tab member other
        refine refreshed tab ((List.mem_cons.mp member).resolve_left ?_) other
        rintro ⟨⟩
        exact other isThis
      · next notThis =>
        obtain ⟨state, derived, consistentToo, maximum⟩ :=
          NotebookTab.updateHighlightStateDueSourcesChange_spec (keeps _ (consistent first notThis))
        -- the rest of the loop runs behind the update of the first page's tab
        have behind : ∀ tab, tab ≠ this → (Function.update tabs first state tab).Consistent := by
          intro tab other
          by_cases isFirst : tab = first
          · rw [isFirst, Function.update_self]
            exact consistentToo
          · rw [Function.update_of_ne isFirst]
            exact consistent tab other
        obtain ⟨updated, looped, same, kept, stay, refreshed⟩ := ih behind
        rw [derived]
        refine ⟨updated, looped, ?_, kept, ?_, ?_⟩
        · rw [same, Function.update_of_ne (Ne.symm notThis)]
        · intro tab isMaximum
          apply stay
          by_cases isFirst : tab = first
          · rw [isFirst, Function.update_self]
            exact maximum
          · rw [Function.update_of_ne isFirst]
            exact isMaximum
        · intro tab member other
          rcases List.mem_cons.mp member with isFirst | later
          · obtain rfl := Option.some.inj isFirst
            apply stay
            rw [Function.update_self]
            exact maximum
          · exact refreshed tab later other

omit [DecidableEq Source] in
theorem update_consistent {tabs : Tabs Tab Source} (consistent : ∀ tab, (tabs tab).Consistent) (this : Tab)
    {state : NotebookTab Source} (stateToo : state.Consistent) (tab : Tab) :
    (Function.update tabs this state tab).Consistent := by
  by_cases isThis : tab = this
  · rw [isThis, Function.update_self]
    exact stateToo
  · rw [Function.update_of_ne isThis]
    exact consistent tab

/-- A call violates no assertion and leaves every tab consistent. -/
theorem tabStep_spec {tabs : Tabs Tab Source} (consistent : ∀ tab, (tabs tab).Consistent) (call : TabCall Tab Source) :
    ∃ next, tabStep tabs call = some next ∧ (∀ tab, (next tab).Consistent) ∧
      ∀ tab ∈ call.refreshed, (next tab).IsMaximum := by
  -- most calls change one tab only, and derive no state again
  have single {result : Option (NotebookTab Source)} (this : Tab)
      (spec : ∃ updated, result = some updated ∧ updated.Consistent) :
      ∃ next, result.map (Function.update tabs this) = some next ∧ (∀ tab, (next tab).Consistent) ∧
        ∀ tab ∈ ([] : List Tab), (next tab).IsMaximum := by
    obtain ⟨updated, rfl, updatedToo⟩ := spec
    exact ⟨_, rfl, update_consistent consistent this updatedToo, fun _ member => nomatch member⟩
  cases call with
  | updateHighlightState this style channelViewId around =>
    exact single this (NotebookTab.updateHighlightState_spec (consistent this) style channelViewId around.visibleSplits)
  | setHighlightState this style => exact single this (NotebookTab.setHighlightState_spec (consistent this) style)
  | copyHighlightStateAndSourcesFrom this source =>
    exact single this (NotebookTab.copyHighlightStateAndSourcesFrom_spec (consistent this) (consistent source))
  | setHighlightsEnabled this newVal =>
    refine ⟨_, rfl, update_consistent consistent this ?_, fun _ member => nomatch member⟩
    exact ⟨(consistent this).highlighted, (consistent this).selected⟩
  | newHighlightSourceAdded this channelViewId around =>
    obtain ⟨state, derived, stateToo, maximum⟩ := NotebookTab.updateHighlightStateDueSourcesChange_spec
      (NotebookTab.removeHighlightSource_consistent (consistent this) channelViewId)
    have behind := update_consistent consistent this stateToo
    obtain ⟨updated, looped, same, kept, -, refreshed⟩ := updateOthers_spec this
      (fun tab tabToo => NotebookTab.removeHighlightSource_consistent tabToo channelViewId)
      (around.splitNotebook.getD []) fun tab _ => behind tab
    rw [Function.update_self] at same
    refine ⟨updated, ?_, ?_, ?_⟩
    · rw [tabStep, newHighlightSourceAdded, derived]
      exact looped
    · intro tab
      by_cases isThis : tab = this
      · rw [isThis, same]
        exact stateToo
      · exact kept tab isThis
    · intro tab member
      by_cases isThis : tab = this
      · rw [isThis, same]
        exact maximum
      · have among := (List.mem_cons.mp member).resolve_left isThis
        exact refreshed tab (List.reduceOption_mem_iff.mp among) isThis
  | setSelected this value around =>
    have others : ∀ tab, tab ≠ this →
        (Function.update tabs this { tabs this with selected := value } tab).Consistent := by
      intro tab other
      rw [Function.update_of_ne other]
      exact consistent tab
    have cleared (updated : Tabs Tab Source) (kept : ∀ tab, tab ≠ this → (updated tab).Consistent) (tab : Tab) :
        (Function.update updated this { updated this with
          highlightSources := ∅
          highlightState := .none } tab).Consistent := by
      by_cases isThis : tab = this
      · rw [isThis, Function.update_self]
        exact ⟨fun _ member => (List.not_mem_nil member).elim, fun _ => ⟨rfl, rfl⟩⟩
      · rw [Function.update_of_ne isThis]
        exact kept tab isThis
    cases value with
    | false => exact ⟨_, rfl, cleared _ others, fun _ member => nomatch member⟩
    | true =>
      obtain ⟨updated, looped, -, kept, -, refreshed⟩ := updateOthers_spec this
        (fun tab tabToo => NotebookTab.removeHighlightStateChangeSources_consistent tabToo
          (Function.update tabs this { tabs this with selected := true } this).highlightSources)
        (around.splitNotebook.getD []) others
      refine ⟨_, ?_, cleared updated kept, ?_⟩
      · rw [tabStep, setSelected]
        simp only [if_true]
        rw [looped]
        rfl
      · intro tab member
        obtain ⟨among, other⟩ := List.mem_filter.mp member
        have notThis : tab ≠ this := of_decide_eq_true other
        rw [Function.update_of_ne notThis]
        exact refreshed tab (List.reduceOption_mem_iff.mp among) notThis

/-- No call violates an assertion, the tabs stay consistent, and a state that was derived from the
sources again is their maximum. -/
theorem tabs_consistent (calls : List (TabCall Tab Source)) :
    ∃ final, run tabStep (fun _ => .new) calls = some final ∧ (∀ tab, (final tab).Consistent) ∧
      ∀ before call, calls = before ++ [call] → ∀ tab ∈ call.refreshed, (final tab).IsMaximum := by
  induction calls using List.reverseRecOn with
  | nil =>
    refine ⟨_, rfl, fun _ => ⟨fun _ member => (List.not_mem_nil member).elim, fun _ => ⟨rfl, rfl⟩⟩, ?_⟩
    intro before call same
    simp at same
  | append_singleton calls call ih =>
    obtain ⟨tabs, ran, consistent, -⟩ := ih
    obtain ⟨next, taken, kept, refreshed⟩ := tabStep_spec consistent call
    refine ⟨next, ?_, kept, ?_⟩
    · rw [run_concat, ran, Option.bind_some, run, taken]
      rfl
    · intro before last same
      obtain rfl : call = last := List.singleton_inj.mp (List.append_inj' same rfl).2
      exact refreshed

end Forserino.Notebooks
