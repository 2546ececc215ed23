import Mathlib.Algebra.GroupWithZero.Nat
import Mathlib.Algebra.Group.Nat.Defs
import Forserino.Qt.Text

/-! The elements of a laid-out message, and what of their text is selected and copied
(messages/layouts/MessageLayoutElement.cpp).

Of the rectangle of an element it is kept where it is in its line.
-/

set_option autoImplicit false

namespace Forserino.Layouts

open Forserino.Qt

/-- The flags of a creator at which the layout looks. -/
structure MessageElementFlags where
  text : Bool
  username : Bool
  timestamp : Bool
  badges : Bool
  channelName : Bool
  emoteImages : Bool
  mention : Bool
  repliedMessage : Bool
  deriving DecidableEq, Repr

/-- The class of an element. An image has the copy string of its creator, if that is an emote, and a
layered image those of all its emotes. -/
inductive Kind where
  | text
  | image (copyString : Option QString)
  | layeredImage (copyStrings : Option (List QString))
  | textIcon
  | replyCurve
  deriving DecidableEq, Repr

structure MessageLayoutElement where
  kind : Kind
  flags : MessageElementFlags
  text : QString
  trailingSpace : Bool
  x : Int
  width : Int
  line : Nat
  deriving DecidableEq, Repr

/-- The codes of emotes that are expressions, and what they stand for. -/
def emoteNameReplacements : List (QString × QString) :=
  [(qs "[oO](_|\\.)[oO]", qs "O_o"), (qs "\\&gt\\;\\(", qs ">("), (qs "\\&lt\\;3", qs "<3"),
    (qs "\\:-?(o|O)", qs ":O"), (qs "\\:-?(p|P)", qs ":P"), (qs "\\:-?[\\\\/]", qs ":/"),
    (qs "\\:-?[z|Z|\\|]", qs ":Z"), (qs "\\:-?\\(", qs ":("), (qs "\\:-?\\)", qs ":)"), (qs "\\:-?D", qs ":D"),
    (qs "\\;-?(p|P)", qs ";P"), (qs "\\;-?\\)", qs ";)"), (qs "R-?\\)", qs "R)"), (qs "B-?\\)", qs "B)")]

def cleanUpEmoteCode (dirtyEmoteCode : QString) : QString :=
  (emoteNameReplacements.lookup dirtyEmoteCode).getD dirtyEmoteCode

def getCleanCopyString (copyStrings : List QString) : QString := join [u ' '] (copyStrings.map cleanUpEmoteCode)

namespace MessageLayoutElement

def getSelectionIndexCount (e : MessageLayoutElement) : Nat :=
  match e.kind with
  | .text => e.text.length + if e.trailingSpace then 1 else 0
  | .image _ | .layeredImage _ | .textIcon => if e.trailingSpace then 2 else 1
  | .replyCurve => 1

/-- The difference of two numbers of 32 bits -/
def difference (a b : Nat) : Nat := (a + 2 ^ 32 - b) % 2 ^ 32

/-- Of an image, the copy string is cleaned together with what has been copied before. -/
def addCopyTextToString (e : MessageLayoutElement) (str : QString) (from_ to_ : Nat) : QString :=
  match e.kind with
  | .text =>
      let copied := str ++ e.text.midN from_ (difference to_ from_)
      if e.trailingSpace && to_ > e.text.length then copied ++ [u ' '] else copied
  | .image (some copyString) =>
      let copied := cleanUpEmoteCode (str ++ copyString)
      if e.trailingSpace && to_ ≥ 2 then copied ++ [u ' '] else copied
  | .layeredImage (some copyStrings) =>
      let copied := str ++ getCleanCopyString copyStrings
      if e.trailingSpace && to_ ≥ 2 then copied ++ [u ' '] else copied
  | .image none | .layeredImage none | .textIcon | .replyCurve => str

/-- The default value of to, which is UINT32_MAX -/
def wholeElement : Nat := 2 ^ 32 - 1

theorem difference_of_le {a b : Nat} (le : b ≤ a) (small : a < 2 ^ 32) : difference a b = a - b := by
  unfold difference
  omega

end MessageLayoutElement

end Forserino.Layouts
