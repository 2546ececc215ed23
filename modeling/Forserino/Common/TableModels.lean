import Forserino.Common.Mirror

/-! The models of nicknames, accounts and hotkeys, and when a model mirrors its vector.
-/

set_option autoImplicit false

namespace Forserino.Common

open Foundation Qt

/-- A cell of a table, with its text and whether it is checked. -/
structure StandardItem where
  text : QString
  checked : Bool
  deriving DecidableEq, Repr, Inhabited

/-- A value and the role it is set for. -/
inductive ItemData where
  | text (value : QString)
  | checkState (value : Bool)
  deriving DecidableEq, Repr

def StandardItem.setData (item : StandardItem) : ItemData → StandardItem
  | .text value => { item with text := value }
  | .checkState value => { item with checked := value }

def stringItem (value : QString) : StandardItem := { text := value, checked := false }

def boolItem (value : Bool) : StandardItem := { text := [], checked := value }

structure Nickname where
  name : QString
  replace : QString
  isRegex : Bool
  isCaseSensitive : Bool
  deriving DecidableEq, Repr

def NicknamesModel : Virtual Nickname StandardItem ItemData Unit where
  columnCount := 4
  getItemFromRow row _ := (row, {
    name := trimmed (row.getD 0 default).text
    replace := (row.getD 1 default).text
    isRegex := (row.getD 2 default).checked
    isCaseSensitive := (row.getD 3 default).checked })
  getRowFromItem item :=
    [stringItem item.name, stringItem item.replace, boolItem item.isRegex, boolItem item.isCaseSensitive]
  beforeInsert := beforeInsert
  afterRemoved := afterRemoved
  setData := StandardItem.setData

/-- How many items a model shows below each header. -/
abbrev CategoryCount := QString → Nat

def withHeader {T : Type} (rows : List (Row T StandardItem)) (header : List StandardItem) (index : Nat) :
    List (Row T StandardItem) :=
  rows.insertIdx index { items := header, original := none, isCustomRow := true }

/-- The header of a category goes with its last item. -/
def withoutHeader {T : Type} (categoryCount : CategoryCount) (rows : List (Row T StandardItem)) (category : QString)
    (index : Nat) : Option (CategoryCount × List (Row T StandardItem)) := do
  guard (categoryCount category ≠ 0)
  if categoryCount category ≤ 1 then
    guard (1 ≤ index)
    let row ← rows[index - 1]?
    guard row.isCustomRow
    return (Function.update categoryCount category 0, rows.eraseIdx (index - 1))
  else
    return (Function.update categoryCount category (categoryCount category - 1), rows)

structure Account where
  category : QString
  text : QString
  deriving DecidableEq, Repr

namespace AccountModel

def beforeInsert (categoryCount : CategoryCount) (rows : List (Row Account StandardItem)) (item : Account)
    (proposedIndex : Nat) : Option (CategoryCount × List (Row Account StandardItem) × Nat) :=
  let counted := Function.update categoryCount item.category (categoryCount item.category + 1)
  if categoryCount item.category = 0 then
    some (counted, withHeader rows [stringItem item.category] proposedIndex, proposedIndex + 1)
  else some (counted, rows, proposedIndex)

def virtual : Virtual Account StandardItem ItemData CategoryCount where
  columnCount := 1
  getItemFromRow row original := (row, original)
  getRowFromItem item := [stringItem item.text]
  beforeInsert := beforeInsert
  afterRemoved categoryCount rows item index := withoutHeader categoryCount rows item.category index
  setData := StandardItem.setData

end AccountModel

inductive HotkeyCategory where
  | PopupWindow
  | Split
  | SplitInput
  | Window
  deriving DecidableEq, Repr

def hotkeyCategoryDisplayName : HotkeyCategory → QString
  | .PopupWindow => qs "Popup Windows"
  | .Split => qs "Split"
  | .SplitInput => qs "Split input box"
  | .Window => qs "Window"

structure Hotkey where
  category : HotkeyCategory
  name : QString
  keySequence : QString
  deriving DecidableEq, Repr

def hotkeySortCompare (a b : Hotkey) : Bool :=
  if a.category = b.category then decide (a.name < b.name)
  else decide (a.category.ctorIdx < b.category.ctorIdx)

namespace HotkeyModel

/-- The header of a category, and the next header behind it. -/
def getCurrentAndNextCategoryModelIndex (category : QString) :
    List (Row Hotkey StandardItem) → Nat → Option Nat → Option Nat × Option Nat
  | [], _, current => (current, none)
  | row :: rows, modelIndex, current =>
    if row.isCustomRow then
      if current.isSome then (current, some modelIndex)
      else getCurrentAndNextCategoryModelIndex category rows (modelIndex + 1)
        (if (row.items.getD 0 default).text = category then some modelIndex else none)
    else getCurrentAndNextCategoryModelIndex category rows (modelIndex + 1) current

def beforeInsert (categoryCount : CategoryCount) (rows : List (Row Hotkey StandardItem)) (item : Hotkey)
    (proposedIndex : Nat) : Option (CategoryCount × List (Row Hotkey StandardItem) × Nat) :=
  let category := hotkeyCategoryDisplayName item.category
  let counted := Function.update categoryCount category (categoryCount category + 1)
  if categoryCount category = 0 then
    some (counted, withHeader rows [stringItem category, stringItem []] proposedIndex, proposedIndex + 1)
  else
    match (getCurrentAndNextCategoryModelIndex category rows 0 none).2 with
    | some next => some (counted, rows, if next ≤ proposedIndex then proposedIndex - 1 else proposedIndex)
    | none => some (counted, rows, proposedIndex)

def virtual : Virtual Hotkey StandardItem ItemData CategoryCount where
  columnCount := 2
  getItemFromRow row original := (row, original)
  getRowFromItem item := [stringItem item.name, stringItem item.keySequence]
  beforeInsert := beforeInsert
  afterRemoved categoryCount rows item index :=
    withoutHeader categoryCount rows (hotkeyCategoryDisplayName item.category) index
  setData := StandardItem.setData

end HotkeyModel

theorem nicknamesModel_keepsPlace : NicknamesModel.KeepsPlace := keepsPlace_of_base rfl rfl

theorem withoutHeader_shown {T : Type} {categoryCount counted : CategoryCount} {rows rows' : List (Row T StandardItem)}
    {category : QString} {index : Nat} (taken : withoutHeader categoryCount rows category index = some (counted, rows')) :
    rows'.filter isShown = rows.filter isShown := by
  simp only [withoutHeader, Option.bind_eq_bind, Option.bind_eq_some_iff] at taken
  obtain ⟨_, _, taken⟩ := taken
  split at taken
  · simp only [Option.bind_eq_some_iff, Option.pure_def, Option.guard_eq_some', Option.some.injEq,
      Prod.mk.injEq] at taken
    obtain ⟨_, _, row, at_, _, custom, _, rfl⟩ := taken
    exact filter_eraseIdx_other at_ (by simp [isShown, custom])
  · obtain ⟨_, rfl⟩ : _ ∧ _ := by simpa using taken
    rfl

/-- A header in front of a new row changes nothing for the others. -/
theorem accountModel_keepsPlace : AccountModel.virtual.KeepsPlace := by
  constructor
  · intro categoryCount rows item index counted rows' index' taken inside
    simp only [AccountModel.virtual, AccountModel.beforeInsert] at taken
    split at taken
    · obtain ⟨_, rfl, rfl⟩ : _ ∧ _ ∧ _ := by simpa using taken
      exact ⟨filter_insertIdx_other inside rfl, rank_insertIdx_other inside rfl⟩
    · obtain ⟨_, rfl, rfl⟩ : _ ∧ _ ∧ _ := by simpa using taken
      exact ⟨rfl, rfl⟩
  · intro categoryCount rows item index counted rows' taken
    simp only [AccountModel.virtual] at taken
    exact withoutHeader_shown taken

variable {T Cell Value Extra : Type}

namespace SignalVectorModel

instance [DecidableEq Cell] (virtual : Virtual T Cell Value Extra) (model : SignalVectorModel T Cell Extra)
    (action : Action T Cell Value) : Decidable (model.Faithful virtual action) :=
  match action with
  | .setData row column value => inferInstanceAs (Decidable (∀ edit ∈ model.edited virtual row column value,
      virtual.getRowFromItem edit.2.1 = edit.1 ∧ ∀ compare ∈ model.vector.itemCompare,
        SignalVector.lowerBound compare (model.vector.items.eraseIdx edit.2.2) edit.2.1 = edit.2.2))
  | .insert _ _ | .removeAt _ | .moveRows _ _ _ | .removeRows _ _ | .insertCustomRow _ _ | .removeCustomRow _ =>
    isTrue trivial

end SignalVectorModel

end Forserino.Common
