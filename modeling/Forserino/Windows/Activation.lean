import Mathlib.Data.List.TakeWhile
import Forserino.Foundation.Selected
import Forserino.Windows.Descriptors

/-! Selecting the tab of a channel in a layout of windows, or adding one.
-/

set_option autoImplicit false

namespace Forserino.Windows

open Foundation Qt

inductive WindowType where
  | main
  | popup
  | attached
  deriving DecidableEq, Repr

inductive WindowState where
  | none
  | minimized
  | maximized
  deriving DecidableEq, Repr

/-- The only provider there is. -/
inductive ProviderId where
  | twitch
  deriving DecidableEq, Repr

/-- x, y, width and height. -/
structure QRect where
  x : Int
  y : Int
  width : Int
  height : Int
  deriving DecidableEq, Repr

structure WindowDescriptor (QUuid : Type) where
  type_ : WindowType
  state_ : WindowState
  geometry_ : QRect
  tabs_ : List (TabDescriptor QUuid)
  deriving Repr

structure WindowLayout (QUuid : Type) where
  emotePopupBounds_ : QRect
  windows_ : List (WindowDescriptor QUuid)
  deriving Repr

variable {QUuid : Type}

/-! ## The visitor -/

structure Visitor where
  score : Nat := 0
  hasChannel : Bool := false
  deriving DecidableEq, Repr

def Visitor.visitSplit (spec : QString) (visitor : Visitor) (split : SplitNodeDescriptor QUuid) : Visitor :=
  let visitor := { visitor with score := visitor.score + 2 }
  if split.channelName_ = spec then
    let visitor := { visitor with hasChannel := true }
    if split.filters_.isEmpty then visitor else { visitor with score := visitor.score + 1 }
  else visitor

mutual
def Visitor.visit (spec : QString) (visitor : Visitor) : NodeDescriptor QUuid → Visitor
  | .split descriptor => visitor.visitSplit spec descriptor
  | .container _ _ _ items_ => Visitor.visitItems spec visitor items_

def Visitor.visitItems (spec : QString) (visitor : Visitor) : List (NodeDescriptor QUuid) → Visitor
  | [] => visitor
  | item :: items => Visitor.visitItems spec (Visitor.visit spec visitor item) items
end

/-! ## The tabs of the main window -/

def TabDescriptor.deselect (tab : TabDescriptor QUuid) : TabDescriptor QUuid := { tab with selected_ := false }

def TabDescriptor.select (tab : TabDescriptor QUuid) : TabDescriptor QUuid := { tab with selected_ := true }

/-- The loop over the tabs: the position of the best tab and its score. As long as there is no best tab every
score is low enough, since no tree in memory has a score of 2^64 - 1. -/
def bestTab (spec : QString) : List (TabDescriptor QUuid) → Nat → Option (Nat × Nat) → Option (Nat × Nat)
  | [], _, best => best
  | tab :: tabs, i, best =>
      match tab.rootNode_ with
      | none => bestTab spec tabs (i + 1) best
      | some rootNode =>
          let visitor := Visitor.visit spec {} rootNode
          if visitor.hasChannel && best.all (fun best => decide (visitor.score < best.2)) then
            bestTab spec tabs (i + 1) (some (i, visitor.score))
          else bestTab spec tabs (i + 1) best

/-- A tab with one split of the channel. -/
def newTab (name : QString) : TabDescriptor QUuid where
  customTitle_ := []
  selected_ := true
  highlightsEnabled_ := true
  rootNode_ := some (.split ⟨⟨qs "twitch", name, -1, false, []⟩, 1, 1⟩)

def activateTab (name : QString) (tabs : List (TabDescriptor QUuid)) : List (TabDescriptor QUuid) :=
  let deselected := tabs.map TabDescriptor.deselect
  match bestTab name tabs 0 none with
  | some (i, _) => deselected.modify i TabDescriptor.select
  | none => deselected ++ [newTab name]

def newWindow (name : QString) : WindowDescriptor QUuid := ⟨.main, .none, ⟨-1, -1, -1, -1⟩, [newTab name]⟩

def WindowLayout.activateOrAddChannel (layout : WindowLayout QUuid) (provider : ProviderId) (name : QString) :
    WindowLayout QUuid :=
  if provider ≠ .twitch ∨ name.startsWith (qs "/") ∨ name.startsWith (qs "$") then layout
  else
    match layout.windows_.findIdx? fun win => decide (win.type_ = .main) with
    | none => { layout with windows_ := layout.windows_ ++ [newWindow name] }
    | some mainWindow =>
        { layout with windows_ := layout.windows_.modify mainWindow fun win =>
            { win with tabs_ := activateTab name win.tabs_ } }

/-! ## What the visitor counts -/

mutual
def NodeDescriptor.splits : NodeDescriptor QUuid → List (SplitNodeDescriptor QUuid)
  | .split descriptor => [descriptor]
  | .container _ _ _ items_ => NodeDescriptor.splitsIn items_

def NodeDescriptor.splitsIn : List (NodeDescriptor QUuid) → List (SplitNodeDescriptor QUuid)
  | [] => []
  | item :: items => item.splits ++ NodeDescriptor.splitsIn items
end

def TabDescriptor.splits (tab : TabDescriptor QUuid) : List (SplitNodeDescriptor QUuid) :=
  tab.rootNode_.elim [] NodeDescriptor.splits

def TabDescriptor.Contains (name : QString) (tab : TabDescriptor QUuid) : Prop :=
  ∃ split ∈ tab.splits, split.channelName_ = name

/-- Two for every split, and one more for a split of the channel that has filters. -/
def TabDescriptor.score (name : QString) (tab : TabDescriptor QUuid) : Nat :=
  2 * tab.splits.length +
    tab.splits.countP fun split => decide (split.channelName_ = name) && !split.filters_.isEmpty

variable {name : QString}

theorem visitSplit_foldl (visitor : Visitor) (splits : List (SplitNodeDescriptor QUuid)) :
    splits.foldl (Visitor.visitSplit name) visitor =
      ⟨visitor.score + (2 * splits.length +
          splits.countP fun split => decide (split.channelName_ = name) && !split.filters_.isEmpty),
        visitor.hasChannel || splits.any fun split => decide (split.channelName_ = name)⟩ := by
  induction splits generalizing visitor with
  | nil => simp
  | cons split splits ih =>
    rw [List.foldl_cons, ih, List.length_cons, List.countP_cons, List.any_cons]
    unfold Visitor.visitSplit
    by_cases same : split.channelName_ = name
    · cases filters : split.filters_.isEmpty with
      | true =>
        simp [same]
        omega
      | false =>
        simp [same]
        omega
    · simp [same]
      omega

mutual
theorem visit_eq (visitor : Visitor) : ∀ node : NodeDescriptor QUuid,
    Visitor.visit name visitor node = node.splits.foldl (Visitor.visitSplit name) visitor
  | .split _ => rfl
  | .container _ _ _ items => by
    rw [Visitor.visit, NodeDescriptor.splits]
    exact visitItems_eq visitor items

theorem visitItems_eq (visitor : Visitor) : ∀ items : List (NodeDescriptor QUuid),
    Visitor.visitItems name visitor items = (NodeDescriptor.splitsIn items).foldl (Visitor.visitSplit name) visitor
  | [] => rfl
  | item :: items => by
    rw [Visitor.visitItems, NodeDescriptor.splitsIn, List.foldl_append, visit_eq visitor item]
    exact visitItems_eq _ items
end

/-- What the loop over the tabs has found among the tabs that it has seen. -/
inductive Best (name : QString) (tabs : List (TabDescriptor QUuid)) : Option (Nat × Nat) → Prop where
  | absent (absent : ∀ tab ∈ tabs, ¬ tab.Contains name) : Best name tabs none
  | found {i : Nat} {tab : TabDescriptor QUuid} (there : tabs[i]? = some tab) (contains : tab.Contains name)
      (minimal : ∀ other ∈ tabs, other.Contains name → tab.score name ≤ other.score name) :
      Best name tabs (some (i, tab.score name))

theorem visit_tab {tab : TabDescriptor QUuid} {rootNode : NodeDescriptor QUuid} (root : tab.rootNode_ = some rootNode) :
    (Visitor.visit name {} rootNode).score = tab.score name ∧
      ((Visitor.visit name {} rootNode).hasChannel = true ↔ tab.Contains name) := by
  have splits : tab.splits = rootNode.splits := by
    rw [TabDescriptor.splits, root]
    rfl
  rw [visit_eq, visitSplit_foldl, ← splits]
  constructor
  · exact Nat.zero_add _
  · simp [TabDescriptor.Contains]

theorem Best.other {tabs : List (TabDescriptor QUuid)} {best : Option (Nat × Nat)} (soFar : Best name tabs best)
    {tab : TabDescriptor QUuid}
    (worse : tab.Contains name → ∃ i score, best = some (i, score) ∧ score ≤ tab.score name) :
    Best name (tabs ++ [tab]) best := by
  cases soFar with
  | absent absent =>
    apply Best.absent
    intro other member
    rcases List.mem_append.mp member with earlier | same
    · exact absent other earlier
    · rw [List.mem_singleton.mp same]
      intro contains
      obtain ⟨i, score, impossible, -⟩ := worse contains
      cases impossible
  | @found i bestTab there contains minimal =>
    refine .found ?_ contains ?_
    · exact List.getElem?_append_left (List.getElem?_eq_some_iff.mp there).1 ▸ there
    · intro other member containsToo
      rcases List.mem_append.mp member with earlier | same
      · exact minimal other earlier containsToo
      · rw [List.mem_singleton.mp same] at containsToo ⊢
        obtain ⟨j, score, same, low⟩ := worse containsToo
        obtain rfl : bestTab.score name = score := (Prod.mk.inj (Option.some.inj same)).2
        exact low

theorem Best.better {tabs : List (TabDescriptor QUuid)} {best : Option (Nat × Nat)} (soFar : Best name tabs best)
    {tab : TabDescriptor QUuid} (contains : tab.Contains name)
    (lower : ∀ i score, best = some (i, score) → tab.score name < score) :
    Best name (tabs ++ [tab]) (some (tabs.length, tab.score name)) := by
  refine .found ?_ contains ?_
  · rw [List.getElem?_append_right (Nat.le_refl _), Nat.sub_self]
    rfl
  · intro other member containsToo
    rcases List.mem_append.mp member with earlier | same
    · cases soFar with
      | absent absent => exact absurd containsToo (absent other earlier)
      | @found i bestTab _ _ minimal =>
        exact (lower i _ rfl).le.trans (minimal other earlier containsToo)
    · rw [List.mem_singleton.mp same]

theorem bestTab_best {seen : List (TabDescriptor QUuid)} {best : Option (Nat × Nat)} (soFar : Best name seen best)
    (tabs : List (TabDescriptor QUuid)) : Best name (seen ++ tabs) (bestTab name tabs seen.length best) := by
  induction tabs generalizing seen best with
  | nil => rwa [List.append_nil]
  | cons tab tabs ih =>
    have next {best : Option (Nat × Nat)} (further : Best name (seen ++ [tab]) best) :
        Best name (seen ++ tab :: tabs) (bestTab name tabs (seen.length + 1) best) := by
      have behind := ih further
      rwa [List.append_assoc, List.length_append] at behind
    rw [bestTab]
    split
    · next noRoot =>
      apply next
      apply soFar.other
      rintro ⟨split, member, -⟩
      rw [TabDescriptor.splits, noRoot] at member
      cases member
    · next rootNode root =>
      obtain ⟨score, channel⟩ := visit_tab root
      dsimp only
      rw [score]
      split
      · next taken =>
        rw [Bool.and_eq_true] at taken
        apply next
        apply soFar.better (channel.mp taken.1)
        rintro i score rfl
        exact of_decide_eq_true taken.2
      · next refused =>
        apply next
        apply soFar.other
        intro contains
        rw [channel.mpr contains, Bool.true_and] at refused
        cases best with
        | none => exact absurd rfl refused
        | some best => exact ⟨best.1, best.2, rfl, not_lt.mp fun low => refused (decide_eq_true low)⟩

/-! ## The selected tab -/

/-- One tab is selected. It has the channel, and no tab with the channel has a lower score; at most one tab
is new, and then none of the old ones has the channel. -/
structure Activated (score : TabDescriptor QUuid → Nat) (name : QString) (old new : List (TabDescriptor QUuid)) :
    Prop where
  one : new.countP TabDescriptor.selected_ = 1
  contains : ∀ tab ∈ new, tab.selected_ = true → tab.Contains name
  minimal : ∀ tab ∈ new, tab.selected_ = true → ∀ other ∈ new, other.Contains name → score tab ≤ score other
  tabs : new.map TabDescriptor.deselect = old.map TabDescriptor.deselect ∨
    (∀ tab ∈ old, ¬ tab.Contains name) ∧
      ∃ added, new.map TabDescriptor.deselect = old.map TabDescriptor.deselect ++ [added]

/-- The first main window is activated, or a new window if there is none; the other windows stay. -/
def MainActivated (score : TabDescriptor QUuid → Nat) (name : QString) (windows new : List (WindowDescriptor QUuid)) :
    Prop :=
  ∃ front main behind, new = front ++ main :: behind ∧ main.type_ = .main ∧ (∀ win ∈ front, win.type_ ≠ .main) ∧
    ((∃ old, windows = front ++ old :: behind ∧ main = { old with tabs_ := main.tabs_ } ∧
        Activated score name old.tabs_ main.tabs_) ∨
      windows = front ∧ behind = [] ∧ Activated score name [] main.tabs_)

theorem deselect_deselect (tab : TabDescriptor QUuid) : tab.deselect.deselect = tab.deselect := rfl

theorem deselect_select (tab : TabDescriptor QUuid) : tab.select.deselect = tab.deselect := rfl

theorem deselected_none (tabs : List (TabDescriptor QUuid)) :
    (tabs.map TabDescriptor.deselect).countP TabDescriptor.selected_ = 0 := by
  apply List.countP_eq_zero.mpr
  intro tab member
  obtain ⟨old, -, rfl⟩ := List.mem_map.mp member
  exact Bool.false_ne_true

theorem map_deselect_deselect (tabs : List (TabDescriptor QUuid)) :
    (tabs.map TabDescriptor.deselect).map TabDescriptor.deselect = tabs.map TabDescriptor.deselect := by
  rw [List.map_map]
  rfl

/-- The tabs, deselected, around one that is selected. -/
theorem activated_around (front behind : List (TabDescriptor QUuid)) {tab : TabDescriptor QUuid}
    {score : TabDescriptor QUuid → Nat} {old : List (TabDescriptor QUuid)} (selected : tab.selected_ = true)
    (contains : tab.Contains name)
    (minimal : ∀ other ∈ front.map TabDescriptor.deselect ++ tab :: behind.map TabDescriptor.deselect,
      other.Contains name → score tab ≤ score other)
    (tabs : front.map TabDescriptor.deselect ++ tab.deselect :: behind.map TabDescriptor.deselect =
        old.map TabDescriptor.deselect ∨ (∀ tab ∈ old, ¬ tab.Contains name) ∧
      ∃ added, front.map TabDescriptor.deselect ++ tab.deselect :: behind.map TabDescriptor.deselect =
        old.map TabDescriptor.deselect ++ [added]) :
    Activated score name old (front.map TabDescriptor.deselect ++ tab :: behind.map TabDescriptor.deselect) := by
  have only : ∀ other ∈ front.map TabDescriptor.deselect ++ tab :: behind.map TabDescriptor.deselect,
      other.selected_ = true → other = tab := by
    intro other member isSelected
    rcases List.mem_append.mp member with earlier | here
    · obtain ⟨_, -, rfl⟩ := List.mem_map.mp earlier
      cases isSelected
    · rcases List.mem_cons.mp here with same | later
      · exact same
      · obtain ⟨_, -, rfl⟩ := List.mem_map.mp later
        cases isSelected
  constructor
  case one => rw [List.countP_append, List.countP_cons_of_pos selected, deselected_none, deselected_none]
  case contains =>
    intro other member isSelected
    rw [only other member isSelected]
    exact contains
  case minimal =>
    intro other member isSelected
    rw [only other member isSelected]
    exact minimal
  case tabs =>
    rw [List.map_append, List.map_cons, map_deselect_deselect, map_deselect_deselect]
    exact tabs

theorem contains_newTab (name : QString) : (newTab name : TabDescriptor QUuid).Contains name :=
  ⟨_, List.mem_cons_self, rfl⟩

theorem activateTab_activated (name : QString) (tabs : List (TabDescriptor QUuid)) :
    Activated (TabDescriptor.score name) name tabs (activateTab name tabs) := by
  have best : Best name tabs (bestTab name tabs 0 none) :=
    bestTab_best (.absent fun _ member => absurd member List.not_mem_nil) tabs
  unfold activateTab
  generalize bestTab name tabs 0 none = result at best
  cases best with
  | absent absent =>
    apply activated_around tabs [] rfl (contains_newTab name)
    · intro other member contains
      rcases List.mem_append.mp member with earlier | same
      · obtain ⟨old, among, rfl⟩ := List.mem_map.mp earlier
        exact absurd contains (absent old among)
      · rw [List.mem_singleton.mp same]
    · exact .inr ⟨absent, _, rfl⟩
  | @found i tab there contains minimal =>
    obtain ⟨front, behind, rfl, rfl⟩ := split_at there
    have selected : ((front ++ tab :: behind).map TabDescriptor.deselect).modify front.length TabDescriptor.select =
        front.map TabDescriptor.deselect ++ tab.deselect.select :: behind.map TabDescriptor.deselect := by
      have place : front.length = (front.map TabDescriptor.deselect).length := (List.length_map _).symm
      rw [List.map_append, List.map_cons, place]
      exact modify_append _ _ _ _
    have chosen : tab.deselect.select.Contains name := contains
    dsimp only
    rw [selected]
    apply activated_around front behind rfl chosen
    · intro other member containsToo
      rcases List.mem_append.mp member with earlier | here
      · obtain ⟨old, among, rfl⟩ := List.mem_map.mp earlier
        exact minimal old (List.mem_append_left _ among) containsToo
      · rcases List.mem_cons.mp here with rfl | later
        · exact Nat.le_refl _
        · obtain ⟨old, among, rfl⟩ := List.mem_map.mp later
          exact minimal old (List.mem_append_right _ (List.mem_cons_of_mem _ among)) containsToo
    · left
      rw [List.map_append, List.map_cons, deselect_select, deselect_deselect]

/-- For a channel of Twitch whose name does not begin like that of a special channel, one tab of the main window is
selected, with the lowest score. -/
theorem activateOrAddChannel_activates (layout : WindowLayout QUuid) {name : QString}
    (noSlash : ¬ name.startsWith (qs "/")) (noDollar : ¬ name.startsWith (qs "$")) :
    MainActivated (TabDescriptor.score name) name layout.windows_ (layout.activateOrAddChannel .twitch name).windows_ ∧
      (layout.activateOrAddChannel .twitch name).emotePopupBounds_ = layout.emotePopupBounds_ := by
  unfold WindowLayout.activateOrAddChannel
  rw [if_neg (by simp [noSlash, noDollar])]
  cases search : layout.windows_.findIdx? fun win => decide (win.type_ = .main) with
  | none =>
    refine ⟨⟨layout.windows_, newWindow name, [], rfl, rfl, ?_, .inr ⟨rfl, rfl, ?_⟩⟩, rfl⟩
    · intro win member isMain
      have other := List.findIdx?_eq_none_iff.mp search win member
      rw [isMain] at other
      exact absurd other (by decide)
    · exact activateTab_activated name []
  | some mainWindow =>
    obtain ⟨front, main, behind, shape, place, isMain, others⟩ := split_findIdx search
    refine ⟨⟨front, { main with tabs_ := activateTab name main.tabs_ }, behind, ?_, of_decide_eq_true isMain, ?_,
      .inl ⟨main, shape, rfl, activateTab_activated name main.tabs_⟩⟩, rfl⟩
    · dsimp only
      rw [shape, ← place]
      exact modify_append _ _ _ _
    · exact fun win member => of_decide_eq_false (others win member)

/-- A tab in which splits with these channels and filters stand beside each other. -/
def tabBeside (splits : List (QString × List Nat)) : TabDescriptor Nat where
  customTitle_ := []
  selected_ := false
  highlightsEnabled_ := true
  rootNode_ := some (.container 1 1 false (splits.map fun split =>
    .split ⟨⟨qs "twitch", split.1, -1, false, split.2⟩, 1, 1⟩))

def layoutOf (tabs : List (TabDescriptor Nat)) : WindowLayout Nat :=
  ⟨⟨0, 0, 0, 0⟩, [⟨.main, .none, ⟨0, 0, 0, 0⟩, tabs⟩]⟩

theorem activateOrAddChannel_activates_b :
    MainActivated (TabDescriptor.score (qs "b")) (qs "b") (layoutOf [tabBeside [(qs "a", []), (qs "b", [])]]).windows_
      ((layoutOf [tabBeside [(qs "a", []), (qs "b", [])]]).activateOrAddChannel .twitch (qs "b")).windows_ :=
  (activateOrAddChannel_activates (layoutOf [tabBeside [(qs "a", []), (qs "b", [])]]) (by decide) (by decide)).1

/-- One split of the channel and two others, and two splits of it with filters. -/
def filteredTwice : List (TabDescriptor Nat) :=
  [tabBeside [(qs "a", []), (qs "b", []), (qs "c", [])], tabBeside [(qs "a", [1]), (qs "a", [2])]]

def TabDescriptor.otherSplits (tab : TabDescriptor QUuid) : Nat := tab.splits.length - 1

/-- Nothing is selected for a special channel. Two splits of a channel with filters count as much as three splits
without filters. -/
theorem activateOrAddChannel_exceptions :
    ¬ MainActivated TabDescriptor.otherSplits (qs "/live") (layoutOf [tabBeside [(qs "a", [])]]).windows_
        ((layoutOf [tabBeside [(qs "a", [])]]).activateOrAddChannel .twitch (qs "/live")).windows_ ∧
      ¬ MainActivated TabDescriptor.otherSplits (qs "a") (layoutOf filteredTwice).windows_
        ((layoutOf filteredTwice).activateOrAddChannel .twitch (qs "a")).windows_ := by
  have only {front behind : List (WindowDescriptor Nat)} {win main : WindowDescriptor Nat}
      (shape : [win] = front ++ main :: behind) : main = win := by
    have member : main ∈ [win] := shape ▸ List.mem_append_right front List.mem_cons_self
    exact List.mem_singleton.mp member
  have activated {score : TabDescriptor Nat → Nat} {name : QString} {win : WindowDescriptor Nat}
      {windows : List (WindowDescriptor Nat)} (isActivated : MainActivated score name windows [win]) :
      ∃ old, Activated score name old win.tabs_ := by
    obtain ⟨front, main, behind, shape, -, -, isOld | isNew⟩ := isActivated
    · obtain ⟨old, -, -, holds⟩ := isOld
      exact ⟨_, only shape ▸ holds⟩
    · exact ⟨_, only shape ▸ isNew.2.2⟩
  constructor
  · intro isActivated
    obtain ⟨old, holds⟩ := activated isActivated
    exact absurd holds.one (by decide)
  · intro isActivated
    obtain ⟨old, holds⟩ := activated isActivated
    have low := holds.minimal _ List.mem_cons_self rfl _ (List.mem_cons_of_mem _ List.mem_cons_self)
      ⟨_, List.mem_cons_self, rfl⟩
    exact absurd low (by decide)

end Forserino.Windows
