import Forserino.Foundation.Sorting
import Forserino.Qt.Text
import Mathlib.Algebra.Order.Group.Int

/-! The emotes that complete a query by Tab. QChar::isUpper is a parameter, and so is the case
folding, by which Qt compares texts when the case does not matter.
-/

set_option autoImplicit false

namespace Forserino.Completion

open Foundation Qt

/-! ## Comparing texts -/

inductive CaseSensitivity where
  | caseInsensitive
  | caseSensitive
  deriving DecidableEq, Repr

section Texts

variable (foldCase : QString → List Nat)

/-- QString::startsWith with a case sensitivity -/
def startsWith (str start : QString) : CaseSensitivity → Bool
  | .caseSensitive => str.startsWith start
  | .caseInsensitive => start.length ≤ str.length && foldCase (str.take start.length) = foldCase start

/-- QString::contains with a case sensitivity -/
def contains (str part : QString) (caseSensitivity : CaseSensitivity) : Bool :=
  str.tails.any fun rest => startsWith foldCase rest part caseSensitivity

def startsWithOrContains (str1 str2 : QString) (caseSensitivity : CaseSensitivity) (startsWith_ : Bool) : Bool :=
  if startsWith_ then startsWith foldCase str1 str2 caseSensitivity else contains foldCase str1 str2 caseSensitivity

/-- Texts are in the order of their units, the last first, if they only differ in case. -/
def compareEmoteStrings (a b : QString) : Bool :=
  lexBy foldCase (fun a b => lessBy (List.map UInt16.toNat) b a) a b

end Texts

/-! ## The source -/

/-- What is read of an item. -/
structure EmoteItem where
  searchName : QString
  tabCompletionName : QString
  isEmoji : Bool
  deriving DecidableEq, Repr

/-- The emotes of a provider by their names, in the order in which the map has them. -/
structure EmoteMap where
  names : List QString
  distinct : names.Nodup

def addEmotes (out : List EmoteItem) (map : EmoteMap) : List EmoteItem :=
  out ++ map.names.map fun name => ⟨name, name, false⟩

/-- Of every emoji there are its short codes. -/
def addEmojis (out : List EmoteItem) (emojis : List (List QString)) : List EmoteItem :=
  out ++ emojis.flatten.map fun shortCode => ⟨shortCode, [u ':'] ++ shortCode ++ [u ':'], true⟩

/-- The emotes of a Twitch channel, and those of the account that is logged in. -/
structure ChannelEmotes where
  localTwitchEmotes : Option EmoteMap
  accessEmotes : EmoteMap
  bttvEmotes : Option EmoteMap
  ffzEmotes : Option EmoteMap
  seventvEmotes : Option EmoteMap

/-- The emotes that are the same in every channel. -/
structure GlobalEmotes where
  bttvEmotes : Option EmoteMap
  ffzEmotes : Option EmoteMap
  seventvEmotes : Option EmoteMap
  emojis : List (List QString)

/-- Emotes that may not be loaded. -/
def addLoaded (out : List EmoteItem) (map : Option EmoteMap) : List EmoteItem :=
  match map with
  | some map => addEmotes out map
  | none => out

/-- Only Twitch channels have emotes of their own, but special ones do not. -/
def EmoteSource.initializeFromChannel (isTwitchChannel : Bool) (tc : Option ChannelEmotes) (app : GlobalEmotes) :
    List EmoteItem :=
  let emotes :=
    if isTwitchChannel then
      let emotes := match tc with
        | some tc =>
            let emotes := addEmotes (addLoaded [] tc.localTwitchEmotes) tc.accessEmotes
            addLoaded (addLoaded (addLoaded emotes tc.bttvEmotes) tc.ffzEmotes) tc.seventvEmotes
        | none => []
      addLoaded (addLoaded (addLoaded emotes app.bttvEmotes) app.ffzEmotes) app.seventvEmotes
    else []
  addEmojis emotes app.emojis

/-- The text of an item in EmoteSource::addToStringList -/
def EmoteItem.text (item : EmoteItem) : QString := item.tabCompletionName ++ [u ' ']

/-! ## The strategies -/

variable (foldCase : QString → List Nat) (isUpper : QChar → Bool)

/-- How different the emote is from the query. -/
def costOfEmote (query emote : QString) (prioritizeUpper : Bool) : Int :=
  let score : Int :=
    if prioritizeUpper then emote.countP fun i => !isUpper i
    else (query.zip emote).countP fun p => isUpper p.1 ^^ isUpper p.2
  let score := if score = 0 then -10 else score
  let diff : Int := emote.length - query.length
  if diff > 0 then score + diff * 100 else score

/-- The name of an item as it is compared. -/
def EmoteItem.costName (ignoreColonForCost : Bool) (item : EmoteItem) : QString :=
  if ignoreColonForCost && item.searchName.startsWith [u ':'] then item.searchName.mid 1 else item.searchName

/-- The comparison of completeEmotes. -/
def costOrder (query : QString) (ignoreColonForCost prioritizeUpper : Bool) (a b : EmoteItem) : Bool :=
  lexBy (fun item => costOfEmote isUpper query (item.costName ignoreColonForCost) prioritizeUpper)
    (lessBy fun item => foldCase (item.costName ignoreColonForCost)) a b

/-- The searches of completeEmotes. A query with upper case is first looked for as it is; if nothing
is found so, its case does not matter, and names in upper case are preferred. -/
def searchEmotes (items : List EmoteItem) (query : QString) (matchingFunction : EmoteItem → CaseSensitivity → Bool) :
    List EmoteItem × Bool :=
  let haveUpper := query.any isUpper
  let output := items.filter fun item =>
    matchingFunction item (if haveUpper then .caseSensitive else .caseInsensitive)
  if output.isEmpty && haveUpper then (items.filter fun item => matchingFunction item .caseInsensitive, true)
  else (output, false)

def completeEmotes (sort : Sorting EmoteItem) (items : List EmoteItem) (query : QString) (ignoreColonForCost : Bool)
    (matchingFunction : EmoteItem → CaseSensitivity → Bool) : List EmoteItem :=
  let (output, prioritizeUpper) := searchEmotes isUpper items query matchingFunction
  if output.isEmpty then output
  else sort.apply (costOrder foldCase isUpper query ignoreColonForCost prioritizeUpper) output

/-- The query without the colon in front of it. -/
def normalizedQuery (query : QString) : QString := if query.startsWith [u ':'] then query.mid 1 else query

/-- The test of both strategies. Emojis are only completed behind a colon, which emotes have to have then. -/
def isMatch (prefixOnlyEmoteCompletion : Bool) (query : QString) (item : EmoteItem)
    (caseHandling : CaseSensitivity) : Bool :=
  if item.isEmoji then
    query.startsWith [u ':'] &&
      startsWithOrContains foldCase item.searchName (normalizedQuery query) caseHandling prefixOnlyEmoteCompletion
  else startsWithOrContains foldCase item.searchName query caseHandling prefixOnlyEmoteCompletion

def SmartTabEmoteStrategy.apply (sort : Sorting EmoteItem) (prefixOnlyEmoteCompletion : Bool) (items : List EmoteItem)
    (query : QString) : List EmoteItem :=
  completeEmotes foldCase isUpper sort items (normalizedQuery query) false
    (isMatch foldCase prefixOnlyEmoteCompletion query)

/-- CompletionEmoteOrder -/
def completionEmoteOrder (a b : EmoteItem) : Bool := compareEmoteStrings foldCase a.searchName b.searchName

/-- The items that ClassicTabEmoteStrategy puts into its set. -/
def ClassicTabEmoteStrategy.inserted (prefixOnlyEmoteCompletion : Bool) (items : List EmoteItem) (query : QString) :
    List EmoteItem :=
  items.filter fun item => isMatch foldCase prefixOnlyEmoteCompletion query item .caseInsensitive

def ClassicTabEmoteStrategy.apply (prefixOnlyEmoteCompletion : Bool) (items : List EmoteItem) (query : QString) :
    List EmoteItem :=
  sortedSet (completionEmoteOrder foldCase) (inserted foldCase prefixOnlyEmoteCompletion items query)

end Forserino.Completion
