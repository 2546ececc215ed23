import Forserino.Foundation.Sorting
import Forserino.Qt.PlaceMarkers
import Forserino.Qt.Utf8

/-! The hotkeys, and those that are added by default.
-/

set_option autoImplicit false

namespace Forserino.Hotkeys

open Foundation Qt

inductive HotkeyCategory where
  | PopupWindow
  | Split
  | SplitInput
  | Window
  deriving DecidableEq

/-- The names of the categories, in the order of the map. -/
def HOTKEY_CATEGORIES : List (HotkeyCategory × QString) := [
  (.PopupWindow, qs "popupWindow"),
  (.Split, qs "split"),
  (.SplitInput, qs "splitInput"),
  (.Window, qs "window")]

def hotkeyCategoryName (category : HotkeyCategory) : QString :=
  ((HOTKEY_CATEGORIES.find? fun entry => entry.1 == category).map Prod.snd).getD []

def hotkeyCategoryFromName (categoryName : QString) : Option HotkeyCategory :=
  (HOTKEY_CATEGORIES.find? fun entry => entry.2 == categoryName).map Prod.fst

theorem hotkeyCategoryFromName_name (category : HotkeyCategory) :
    hotkeyCategoryFromName (hotkeyCategoryName category) = some category := by
  cases category <;> decide

theorem hotkeyCategoryName_ne_nil (category : HotkeyCategory) : hotkeyCategoryName category ≠ [] := by
  cases category <;> decide

/-- QKeySequence, as far as a sequence is read from its text and written as one. -/
structure KeySequences (K : Type) where
  ofString : QString → K
  toString : K → QString
  ZoomIn : K
  ZoomOut : K
  ofString_toString : ∀ keySequence, ofString (toString keySequence) = keySequence
  wellFormed_toString : ∀ keySequence, WellFormed (toString keySequence)

@[ext]
structure Hotkey (K : Type) where
  category : HotkeyCategory
  keySequence : K
  action : QString
  arguments : List QString
  name : QString

/-- The order of the enumeration. -/
def HotkeyCategory.index : HotkeyCategory → Nat
  | .PopupWindow => 0
  | .Split => 1
  | .SplitInput => 2
  | .Window => 3

/-- QString::operator<, by the units. -/
def nameLess (a b : QString) : Bool := lessBy (fun name : QString => name.map UInt16.toNat) a b

def hotkeySortCompare_ {K : Type} (a b : Hotkey K) : Bool :=
  if a.category = b.category then nameLess a.name b.name
  else decide (a.category.index < b.category.index)

section Defaults

variable {K : Type} (keys : KeySequences K)

/-- The hotkeys that addDefaults tries to add for popup windows. -/
def popupWindowDefaults : List (Hotkey K) :=
  ⟨.PopupWindow, keys.ofString (qs "Escape"), qs "delete", [], qs "close popup window"⟩ ::
  ((List.range 8).map fun i =>
    ⟨.PopupWindow, keys.ofString ((qs "Ctrl+%1").arg (number (i + 1))), qs "openTab", [number i],
      (qs "popup select tab #%1").arg (number (i + 1))⟩) ++ [
  ⟨.PopupWindow, keys.ofString (qs "Ctrl+9"), qs "openTab", [qs "last"], qs "popup select last tab"⟩,
  ⟨.PopupWindow, keys.ofString (qs "Ctrl+Tab"), qs "openTab", [qs "next"], qs "popup select next tab"⟩,
  ⟨.PopupWindow, keys.ofString (qs "Ctrl+Shift+Tab"), qs "openTab", [qs "previous"], qs "popup select previous tab"⟩,
  ⟨.PopupWindow, keys.ofString (qs "PgUp"), qs "scrollPage", [qs "up"], qs "popup scroll up"⟩,
  ⟨.PopupWindow, keys.ofString (qs "PgDown"), qs "scrollPage", [qs "down"], qs "popup scroll down"⟩,
  ⟨.PopupWindow, keys.ofString (qs "Return"), qs "accept", [], qs "popup accept"⟩,
  ⟨.PopupWindow, keys.ofString (qs "Escape"), qs "reject", [], qs "popup reject"⟩,
  ⟨.PopupWindow, keys.ofString (qs "Ctrl+F"), qs "search", [], qs "popup focus search box"⟩]

def splitDefaults : List (Hotkey K) := [
  ⟨.Split, keys.ofString (qs "Ctrl+W"), qs "delete", [], qs "delete"⟩,
  ⟨.Split, keys.ofString (qs "Ctrl+R"), qs "changeChannel", [], qs "change channel"⟩,
  ⟨.Split, keys.ofString (qs "Ctrl+F"), qs "showSearch", [], qs "show search"⟩,
  ⟨.Split, keys.ofString (qs "Ctrl+Shift+F"), qs "showGlobalSearch", [], qs "show global search"⟩,
  ⟨.Split, keys.ofString (qs "Ctrl+F5"), qs "reconnect", [], qs "reconnect"⟩,
  ⟨.Split, keys.ofString (qs "F5"), qs "reloadEmotes", [], qs "reload emotes"⟩,
  ⟨.Split, keys.ofString (qs "Alt+x"), qs "createClip", [], qs "create clip"⟩,
  ⟨.Split, keys.ofString (qs "Alt+left"), qs "focus", [qs "left"], qs "focus left"⟩,
  ⟨.Split, keys.ofString (qs "Alt+down"), qs "focus", [qs "down"], qs "focus down"⟩,
  ⟨.Split, keys.ofString (qs "Alt+up"), qs "focus", [qs "up"], qs "focus up"⟩,
  ⟨.Split, keys.ofString (qs "Alt+right"), qs "focus", [qs "right"], qs "focus right"⟩,
  ⟨.Split, keys.ofString (qs "PgUp"), qs "scrollPage", [qs "up"], qs "scroll page up"⟩,
  ⟨.Split, keys.ofString (qs "PgDown"), qs "scrollPage", [qs "down"], qs "scroll page down"⟩,
  ⟨.Split, keys.ofString (qs "Ctrl+End"), qs "scrollToBottom", [], qs "scroll to bottom"⟩,
  ⟨.Split, keys.ofString (qs "Ctrl+Home"), qs "scrollToTop", [], qs "scroll to top"⟩,
  ⟨.Split, keys.ofString (qs "F10"), qs "debug", [], qs "open debug popup"⟩,
  ⟨.Split, keys.ofString (qs "Ctrl+Alt+N"), qs "popupOverlay", [], qs "open overlay"⟩,
  ⟨.Split, keys.ofString (qs "Ctrl+Shift+U"), qs "toggleOverlayInertia", [qs "all"],
    qs "toggle overlay click-through"⟩]

/-- Two pairs of these have the same name. -/
def splitInputDefaults : List (Hotkey K) := [
  ⟨.SplitInput, keys.ofString (qs "Ctrl+E"), qs "openEmotesPopup", [], qs "emote picker"⟩,
  ⟨.SplitInput, keys.ofString (qs "Return"), qs "sendMessage", [], qs "send message"⟩,
  ⟨.SplitInput, keys.ofString (qs "Ctrl+Return"), qs "sendMessage", [qs "keepInput"], qs "send message and keep text"⟩,
  ⟨.SplitInput, keys.ofString (qs "Shift+Return"), qs "sendMessage", [], qs "send message"⟩,
  ⟨.SplitInput, keys.ofString (qs "Ctrl+Shift+Return"), qs "sendMessage", [qs "keepInput"],
    qs "send message and keep text"⟩,
  ⟨.SplitInput, keys.ofString (qs "Home"), qs "cursorToStart", [qs "withoutSelection"], qs "go to start of input"⟩,
  ⟨.SplitInput, keys.ofString (qs "End"), qs "cursorToEnd", [qs "withoutSelection"], qs "go to end of input"⟩,
  ⟨.SplitInput, keys.ofString (qs "Shift+Home"), qs "cursorToStart", [qs "withSelection"],
    qs "go to start of input with selection"⟩,
  ⟨.SplitInput, keys.ofString (qs "Shift+End"), qs "cursorToEnd", [qs "withSelection"],
    qs "go to end of input with selection"⟩,
  ⟨.SplitInput, keys.ofString (qs "Up"), qs "previousMessage", [], qs "previous message"⟩,
  ⟨.SplitInput, keys.ofString (qs "Down"), qs "nextMessage", [], qs "next message"⟩]

def windowDefaults : List (Hotkey K) :=
  ⟨.Window, keys.ofString (qs "Ctrl+P"), qs "openSettings", [], qs "open settings"⟩ ::
  ⟨.Window, keys.ofString (qs "Ctrl+T"), qs "newSplit", [], qs "new split"⟩ ::
  ((List.range 8).map fun i =>
    ⟨.Window, keys.ofString ((qs "Ctrl+%1").arg (number (i + 1))), qs "openTab", [number i],
      (qs "select tab #%1").arg (number (i + 1))⟩) ++ [
  ⟨.Window, keys.ofString (qs "Ctrl+9"), qs "openTab", [qs "last"], qs "select last tab"⟩,
  ⟨.Window, keys.ofString (qs "Ctrl+Tab"), qs "openTab", [qs "next"], qs "select next tab"⟩,
  ⟨.Window, keys.ofString (qs "Ctrl+Shift+Tab"), qs "openTab", [qs "previous"], qs "select previous tab"⟩,
  ⟨.Window, keys.ofString (qs "Ctrl+N"), qs "popup", [qs "split"], qs "new popup window"⟩,
  ⟨.Window, keys.ofString (qs "Ctrl+Shift+N"), qs "popup", [qs "window"], qs "new popup window from tab"⟩,
  ⟨.Window, keys.ZoomIn, qs "zoom", [qs "in"], qs "zoom in"⟩,
  ⟨.Window, keys.ZoomOut, qs "zoom", [qs "out"], qs "zoom out"⟩,
  ⟨.Window, keys.ofString (qs "CTRL+0"), qs "zoom", [qs "reset"], qs "zoom reset"⟩,
  ⟨.Window, keys.ofString (qs "Ctrl+Shift+T"), qs "newTab", [], qs "new tab"⟩,
  ⟨.Window, keys.ofString (qs "Ctrl+Shift+W"), qs "removeTab", [], qs "remove tab"⟩,
  ⟨.Window, keys.ofString (qs "Ctrl+G"), qs "reopenSplit", [], qs "reopen split"⟩,
  ⟨.Window, keys.ofString (qs "Ctrl+H"), qs "toggleLocalR9K", [], qs "toggle local r9k"⟩,
  ⟨.Window, keys.ofString (qs "Ctrl+K"), qs "openQuickSwitcher", [], qs "open quick switcher"⟩,
  ⟨.Window, keys.ofString (qs "Ctrl+U"), qs "setTabVisibility", [qs "toggle"], qs "toggle tab visibility"⟩]

/-- The hotkeys that addDefaults tries to add, one after the other. -/
def defaults : List (Hotkey K) :=
  popupWindowDefaults keys ++ splitDefaults keys ++ splitInputDefaults keys ++ windowDefaults keys

/-- What the settings keep as it is: a name that is one key of its own, and texts without lone surrogates. -/
structure Storable (hotkey : Hotkey K) : Prop where
  plain : u '/' ∉ hotkey.name
  unreserved : hotkey.name ≠ qs "addedDefaults"
  name : WellFormed hotkey.name
  action : WellFormed hotkey.action
  arguments : ∀ argument ∈ hotkey.arguments, WellFormed argument

/-- How the names of the defaults are spelled. -/
def Spelled (name : QString) : Prop := ∀ c ∈ name, c.toNat < 0x80 ∧ c ≠ u '/' ∧ c ≠ u 'D'

instance (name : QString) : Decidable (Spelled name) := inferInstanceAs (Decidable (∀ c ∈ name, _))

def Ascii (text : QString) : Prop := ∀ c ∈ text, c.toNat < 0x80

instance (text : QString) : Decidable (Ascii text) := inferInstanceAs (Decidable (∀ c ∈ text, _))

variable {keys} {category : HotkeyCategory} {keySequence : K}

theorem Ascii.wellFormed {text : QString} (ascii : Ascii text) : WellFormed text :=
  wellFormed_of_small fun c member => Nat.lt_trans (ascii c member) (by decide)

theorem Storable.of_spelled {action name : QString} {arguments : List QString} (spelled : Spelled name)
    (ascii : Ascii action) (asciiArguments : ∀ argument ∈ arguments, Ascii argument) :
    Storable ⟨category, keySequence, action, arguments, name⟩ where
  plain member := (spelled _ member).2.1 rfl
  unreserved same := by
    have capital : u 'D' ∈ qs "addedDefaults" := by decide
    have inName : u 'D' ∈ name := by
      rw [show name = qs "addedDefaults" from same]
      exact capital
    exact (spelled _ inName).2.2 rfl
  name := Ascii.wellFormed fun c member => (spelled c member).1
  action := ascii.wellFormed
  arguments argument member := (asciiArguments argument member).wellFormed

/-- Literals are checked as their characters, see forall_literals. -/
theorem forall_storable {action name : List Char} {others : List (Hotkey K)} (spelled : Spelled (name.map u))
    (ascii : Ascii (action.map u)) (rest : ∀ hotkey ∈ others, Storable hotkey) :
    ∀ hotkey ∈ ⟨category, keySequence, qs (String.ofList action), [], qs (String.ofList name)⟩ :: others,
      Storable hotkey := by
  rw [List.forall_mem_cons, qs_ofList, qs_ofList]
  exact ⟨Storable.of_spelled spelled ascii (by simp), rest⟩

theorem forall_storable_argument {action argument name : List Char} {others : List (Hotkey K)}
    (spelled : Spelled (name.map u)) (ascii : Ascii (action.map u)) (asciiArgument : Ascii (argument.map u))
    (rest : ∀ hotkey ∈ others, Storable hotkey) :
    ∀ hotkey ∈ ⟨category, keySequence, qs (String.ofList action), [qs (String.ofList argument)],
      qs (String.ofList name)⟩ :: others, Storable hotkey := by
  rw [List.forall_mem_cons, qs_ofList, qs_ofList, qs_ofList]
  exact ⟨Storable.of_spelled spelled ascii (by simpa using asciiArgument), rest⟩

/-- The hotkeys that open one of the first eight tabs. -/
theorem openTab_storable {sequence : Nat → K} {name : Nat → QString} (spelled : ∀ i < 8, Spelled (name i)) :
    ∀ hotkey ∈ (List.range 8).map fun i => (⟨category, sequence i, qs "openTab", [number i], name i⟩ : Hotkey K),
      Storable hotkey := by
  rw [List.forall_mem_map]
  intro i member
  have small := List.mem_range.mp member
  have digits : ∀ i : Nat, i < 8 → Ascii (number i) := by decide
  exact Storable.of_spelled (spelled i small) (by decide) (by simpa using digits i small)

theorem popupWindowDefaults_storable : ∀ hotkey ∈ popupWindowDefaults keys, Storable hotkey := by
  unfold popupWindowDefaults
  rw [List.forall_mem_append]
  constructor
  · apply forall_storable
    case rest => exact openTab_storable (by decide +kernel)
    all_goals decide
  · repeat' first | apply forall_storable | apply forall_storable_argument
    all_goals first | decide | simp

theorem splitDefaults_storable : ∀ hotkey ∈ splitDefaults keys, Storable hotkey := by
  unfold splitDefaults
  repeat' first | apply forall_storable | apply forall_storable_argument
  all_goals first | decide | simp

theorem splitInputDefaults_storable : ∀ hotkey ∈ splitInputDefaults keys, Storable hotkey := by
  unfold splitInputDefaults
  repeat' first | apply forall_storable | apply forall_storable_argument
  all_goals first | decide | simp

theorem windowDefaults_storable : ∀ hotkey ∈ windowDefaults keys, Storable hotkey := by
  unfold windowDefaults
  rw [List.forall_mem_append]
  constructor
  · apply forall_storable
    case rest =>
      apply forall_storable
      case rest => exact openTab_storable (by decide +kernel)
      all_goals decide
    all_goals decide
  · repeat' first | apply forall_storable | apply forall_storable_argument
    all_goals first | decide | simp

/-- No default is lost by its own texts. -/
theorem defaults_storable {hotkey : Hotkey K} (member : hotkey ∈ defaults keys) : Storable hotkey := by
  simp only [defaults, List.mem_append, or_assoc] at member
  rcases member with popup | split | input | window
  · exact popupWindowDefaults_storable hotkey popup
  · exact splitDefaults_storable hotkey split
  · exact splitInputDefaults_storable hotkey input
  · exact windowDefaults_storable hotkey window

end Defaults

end Forserino.Hotkeys
