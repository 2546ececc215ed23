import Forserino.Foundation.Runs
import Forserino.LiveEmotes.Bttv

/-! The BetterTTV emotes of a channel on both sides: the JSON that a reload would answer
with, and the map that live updates have made of an earlier answer.
-/

set_option autoImplicit false

namespace Forserino.LiveEmotes.Bttv

open Forserino.Qt Foundation NamedMap

/-! ## The JSON behind an event -/

def channelEmotes : QString := qs "channelEmotes"

def sharedEmotes : QString := qs "sharedEmotes"

def asObject (item : QJsonValue) : QJsonObject := QJsonValue.toObject (some item)

/-- The emotes of one of the two lists. -/
def emotesUnder (jsonRoot : QJsonObject) (key : QString) : List QJsonObject :=
  (QJsonValue.toArray (jsonRoot.value key)).map asObject

/-- All emotes, in the order in which the loader takes them. -/
def emotesOf (jsonRoot : QJsonObject) : List QJsonObject :=
  emotesUnder jsonRoot channelEmotes ++ emotesUnder jsonRoot sharedEmotes

/-- The emote with the members of the update, and its own where the update has none. -/
def merged (jsonEmote update : QJsonObject) : QJsonObject :=
  update.foldr (fun member obj => QJsonObject.insert obj member.1 member.2) jsonEmote

/-- Change one of the two lists. -/
def changeList (jsonRoot : QJsonObject) (key : QString) (change : List QJsonValue → List QJsonValue) : QJsonObject :=
  jsonRoot.insert key (.array (change (QJsonValue.toArray (jsonRoot.value key))))

def changeBoth (jsonRoot : QJsonObject) (change : List QJsonValue → List QJsonValue) : QJsonObject :=
  changeList (changeList jsonRoot channelEmotes change) sharedEmotes change

inductive Event where
  | create (isShared : Bool) (jsonEmote : QJsonObject)
  | update (jsonEmote : QJsonObject)
  | delete (emoteID : QString)

/-- What a reload answers with behind the event. -/
def serve (jsonRoot : QJsonObject) : Event → QJsonObject
  | .create isShared jsonEmote =>
      changeList jsonRoot (if isShared then sharedEmotes else channelEmotes) (· ++ [.object jsonEmote])
  | .update jsonEmote =>
      changeBoth jsonRoot (List.map fun item =>
        if idOf (asObject item) = idOf jsonEmote then .object (merged (asObject item) jsonEmote) else item)
  | .delete emoteID => changeBoth jsonRoot (List.filter fun item => idOf (asObject item) ≠ emoteID)

/-- What the program does with the event. -/
def receive (channelDisplayName : QString) (m : EmoteMap) : Event → EmoteMap
  | .create _ jsonEmote => (addEmote channelDisplayName m ⟨jsonEmote, idOf jsonEmote⟩).1
  | .update jsonEmote => (updateEmote channelDisplayName m ⟨jsonEmote, idOf jsonEmote⟩).1
  | .delete emoteID => (removeEmote m ⟨emoteID⟩).1

structure Sides where
  jsonRoot : QJsonObject
  emotes : EmoteMap

def step (channelDisplayName : QString) (s : Sides) (e : Event) : Option Sides :=
  some ⟨serve s.jsonRoot e, receive channelDisplayName s.emotes e⟩

def start (channelDisplayName : QString) (jsonRoot : QJsonObject) : Sides :=
  ⟨jsonRoot, parseChannelEmotes jsonRoot channelDisplayName⟩

/-- What is shown of an emote. -/
def shown (emote : Emote) : QString × QString × QString := (emote.name, emote.id, emote.tooltip)

/-- The map shows what a reload would show. -/
def Agrees (channelDisplayName : QString) (s : Sides) : Prop :=
  ∀ name, (s.emotes.lookup name).map shown =
    ((parseChannelEmotes s.jsonRoot channelDisplayName).lookup name).map shown

/-! ## The condition -/

/-- The names stay in order when the emote between front and back is renamed. -/
def Renames (front back : List QJsonObject) (oldCode code : QString) : Prop :=
  code = oldCode ∨
  ((∀ other ∈ front ++ back, codeOf other ≠ oldCode) ∧ ∀ other ∈ back, codeOf other ≠ code) ∨
  ((∃ other ∈ back, codeOf other = oldCode) ∧ ∃ other ∈ back, codeOf other = code)

/-- The author that the program credits behind the update is the one in the JSON. -/
def Credits (m : EmoteMap) (jsonEmote update : QJsonObject) : Prop :=
  if update.contains (qs "code") || update.contains (qs "user") then
    ∀ emote, m.lookup (codeOf jsonEmote) = some emote →
      (if update.contains (qs "user") then displayName update else emote.author) = authorOf (merged jsonEmote update)
  else authorOf (merged jsonEmote update) = authorOf jsonEmote

def Careful (s : Sides) : Event → Prop
  | .create isShared jsonEmote =>
      isShared = false → ∀ other ∈ emotesUnder s.jsonRoot sharedEmotes, codeOf other ≠ codeOf jsonEmote
  | .update update =>
      ∀ front jsonEmote back, emotesOf s.jsonRoot = front ++ jsonEmote :: back → idOf jsonEmote = idOf update →
        (∀ other ∈ front ++ back, idOf other ≠ idOf update) ∧
        Renames front back (codeOf jsonEmote) (codeOf (merged jsonEmote update)) ∧
        ((∀ other ∈ back, codeOf other ≠ codeOf jsonEmote) → Credits s.emotes jsonEmote update)
  | .delete emoteID =>
      ∀ front jsonEmote back, emotesOf s.jsonRoot = front ++ jsonEmote :: back → idOf jsonEmote = emoteID →
        (∀ other ∈ front ++ back, idOf other ≠ emoteID) ∧
        ((∀ other ∈ front, codeOf other ≠ codeOf jsonEmote) ∨ ∃ other ∈ back, codeOf other = codeOf jsonEmote)

/-! ## The loader -/

theorem innerParse_eq (jsonRoot : QJsonObject) (channelDisplayName : QString) (emotes : EmoteMap) (key : QString) :
    innerParse jsonRoot channelDisplayName emotes key =
      ((emotesUnder jsonRoot key).map (createChannelEmote channelDisplayName)).foldl (NamedMap.put Emote.name) emotes := by
  rw [innerParse, emotesUnder, List.map_map, List.foldl_map]
  rfl

/-- The loader shows for every name the last emote that has it. -/
theorem lookup_parse (jsonRoot : QJsonObject) (channelDisplayName name : QString) :
    (parseChannelEmotes jsonRoot channelDisplayName).lookup name =
      (latest codeOf (emotesOf jsonRoot) name).map (createChannelEmote channelDisplayName) := by
  have whole : parseChannelEmotes jsonRoot channelDisplayName =
      load Emote.name ((emotesOf jsonRoot).map (createChannelEmote channelDisplayName)) := by
    unfold parseChannelEmotes
    rw [innerParse_eq, innerParse_eq, ← List.foldl_append, ← List.map_append]
    rfl
  rw [whole, lookup_load, latest_map]
  rfl

theorem emotesUnder_changeList (jsonRoot : QJsonObject) (key : QString) (change : List QJsonValue → List QJsonValue) :
    emotesUnder (changeList jsonRoot key change) key =
      (change (QJsonValue.toArray (jsonRoot.value key))).map asObject := by
  rw [emotesUnder, changeList, QJsonObject.value_insert]
  rfl

theorem emotesUnder_changeList_other (jsonRoot : QJsonObject) {key other : QString} (differ : other ≠ key)
    (change : List QJsonValue → List QJsonValue) :
    emotesUnder (changeList jsonRoot key change) other = emotesUnder jsonRoot other := by
  rw [emotesUnder, changeList, QJsonObject.value_insert_other _ differ]
  rfl

theorem lists_differ : channelEmotes ≠ sharedEmotes := by decide

theorem emotesOf_create (jsonRoot jsonEmote : QJsonObject) (isShared : Bool) :
    emotesOf (serve jsonRoot (.create isShared jsonEmote)) =
      if isShared then emotesOf jsonRoot ++ [jsonEmote]
      else emotesUnder jsonRoot channelEmotes ++ jsonEmote :: emotesUnder jsonRoot sharedEmotes := by
  cases isShared with
  | true =>
    simp only [serve, emotesOf, ite_true, emotesUnder_changeList, emotesUnder_changeList_other _ lists_differ,
      List.map_append, List.append_assoc]
    rfl
  | false =>
    simp only [serve, emotesOf, Bool.false_eq_true, ite_false, emotesUnder_changeList,
      emotesUnder_changeList_other _ lists_differ.symm, List.map_append, List.append_assoc]
    rfl

theorem emotesOf_changeBoth (jsonRoot : QJsonObject) {change : List QJsonValue → List QJsonValue}
    {onObjects : List QJsonObject → List QJsonObject}
    (same : ∀ items : List QJsonValue, (change items).map asObject = onObjects (items.map asObject))
    (splits : ∀ front back, onObjects (front ++ back) = onObjects front ++ onObjects back) :
    emotesOf (changeBoth jsonRoot change) = onObjects (emotesOf jsonRoot) := by
  unfold emotesOf changeBoth
  rw [emotesUnder_changeList, same, emotesUnder_changeList_other _ lists_differ, emotesUnder_changeList, same, splits]
  congr 1
  rw [changeList, QJsonObject.value_insert_other _ lists_differ.symm]
  rfl

theorem emotesOf_update (jsonRoot update : QJsonObject) :
    emotesOf (serve jsonRoot (.update update)) = (emotesOf jsonRoot).map fun jsonEmote =>
      if idOf jsonEmote = idOf update then merged jsonEmote update else jsonEmote := by
  apply emotesOf_changeBoth
  · intro items
    rw [List.map_map, List.map_map]
    apply List.map_congr_left
    intro item _
    simp only [Function.comp_apply]
    split <;> rfl
  · intro front back
    exact List.map_append

theorem emotesOf_delete (jsonRoot : QJsonObject) (emoteID : QString) :
    emotesOf (serve jsonRoot (.delete emoteID)) = (emotesOf jsonRoot).filter fun jsonEmote => idOf jsonEmote ≠ emoteID := by
  apply emotesOf_changeBoth
  · intro items
    rw [List.filter_map]
    rfl
  · intro front back
    exact List.filter_append front back

/-! ## Merged emotes -/

theorem value_merged (jsonEmote update : QJsonObject) (key : QString) :
    (merged jsonEmote update).value key = (update.value key).or (jsonEmote.value key) := by
  induction update with
  | nil => rfl
  | cons member rest ih =>
    change (QJsonObject.insert (merged jsonEmote rest) member.1 member.2).value key = _
    by_cases same : key = member.1
    · subst same
      rw [QJsonObject.value_insert]
      simp [QJsonObject.value]
    · rw [QJsonObject.value_insert_other _ same, ih]
      have differ : (member.1 == key) = false := beq_eq_false_iff_ne.mpr (Ne.symm same)
      simp [QJsonObject.value, differ]

theorem idOf_merged {jsonEmote update : QJsonObject} (same : idOf jsonEmote = idOf update) :
    idOf (merged jsonEmote update) = idOf update := by
  unfold idOf at same ⊢
  rw [value_merged]
  cases given : update.value (qs "id") with
  | some value => rfl
  | none =>
    rw [given] at same
    exact same

theorem codeOf_merged (jsonEmote update : QJsonObject) :
    codeOf (merged jsonEmote update) = if update.contains (qs "code") then codeOf update else codeOf jsonEmote := by
  unfold codeOf QJsonObject.contains
  rw [value_merged]
  cases update.value (qs "code") <;> rfl

/-! ## One event -/

section
variable {channelDisplayName : QString} {m : EmoteMap}

/-- The map shows the emotes of the list. -/
def Shows (channelDisplayName : QString) (m : EmoteMap) (emotes : List QJsonObject) : Prop :=
  ∀ name, (m.lookup name).map shown = (latest codeOf emotes name).map fun jsonEmote =>
    shown (createChannelEmote channelDisplayName jsonEmote)

theorem agrees_iff {s : Sides} : Agrees channelDisplayName s ↔ Shows channelDisplayName s.emotes (emotesOf s.jsonRoot) := by
  unfold Agrees Shows
  simp only [lookup_parse, Option.map_map]
  rfl

theorem Shows.held {emotes : List QJsonObject} (shows : Shows channelDisplayName m emotes) {name : QString} {emote : Emote}
    (held : m.lookup name = some emote) :
    ∃ jsonEmote, latest codeOf emotes name = some jsonEmote ∧
      shown emote = shown (createChannelEmote channelDisplayName jsonEmote) := by
  have same := shows name
  rw [held, Option.map_some] at same
  obtain ⟨jsonEmote, found, equal⟩ := Option.map_eq_some_iff.mp same.symm
  exact ⟨jsonEmote, found, equal.symm⟩

theorem Shows.there {emotes : List QJsonObject} (shows : Shows channelDisplayName m emotes) {name : QString}
    {jsonEmote : QJsonObject} (found : latest codeOf emotes name = some jsonEmote) :
    ∃ emote, m.lookup name = some emote ∧ shown emote = shown (createChannelEmote channelDisplayName jsonEmote) := by
  have same := shows name
  rw [found, Option.map_some] at same
  exact Option.map_eq_some_iff.mp same

/-- An entry with the id of an emote that has it alone is the one of this emote. -/
theorem Shows.own {front back : List QJsonObject} {jsonEmote : QJsonObject}
    (shows : Shows channelDisplayName m (front ++ jsonEmote :: back))
    (alone : ∀ other ∈ front ++ back, idOf other ≠ idOf jsonEmote) {name : QString} {emote : Emote}
    (held : m.lookup name = some emote) (same : emote.id = idOf jsonEmote) :
    latest codeOf (front ++ jsonEmote :: back) name = some jsonEmote := by
  obtain ⟨source, found, equal⟩ := shows.held held
  have sourceId : emote.id = idOf source := congrArg (·.2.1) equal
  rcases List.mem_append.mp (latest_some found).1 with before | here
  · exact absurd (sourceId.symm.trans same) (alone source (List.mem_append_left _ before))
  · rcases List.mem_cons.mp here with rfl | behind
    · exact found
    · exact absurd (sourceId.symm.trans same) (alone source (List.mem_append_right _ behind))

/-- An emote that no later one hides is found by its id. -/
theorem Shows.find_visible {front back : List QJsonObject} {jsonEmote : QJsonObject}
    (shows : Shows channelDisplayName m (front ++ jsonEmote :: back))
    (alone : ∀ other ∈ front ++ back, idOf other ≠ idOf jsonEmote)
    (visible : ∀ other ∈ back, codeOf other ≠ codeOf jsonEmote) :
    ∃ emote, m.lookup (codeOf jsonEmote) = some emote ∧ emote.name = codeOf jsonEmote ∧ emote.id = idOf jsonEmote ∧
      m.findEmote [] (idOf jsonEmote) = some (codeOf jsonEmote, emote) := by
  have last : latest codeOf (front ++ jsonEmote :: back) (codeOf jsonEmote) = some jsonEmote := by
    rw [latest_middle, latest_eq_none.mpr visible, if_pos rfl]
    rfl
  obtain ⟨emote, held, equal⟩ := shows.there last
  have sameId : emote.id = idOf jsonEmote := congrArg (·.2.1) equal
  refine ⟨emote, held, congrArg (·.1) equal, sameId, ?_⟩
  cases found : m.findEmote [] (idOf jsonEmote) with
  | none => exact absurd sameId (EmoteMap.findEmote_none found held)
  | some entry =>
    obtain ⟨there, same⟩ := EmoteMap.findEmote_some found
    have name := (latest_some (shows.own alone there same)).2
    rw [← name, held] at there
    exact congrArg some (Prod.ext name.symm (Option.some.inj there).symm)

/-- An emote that a later one hides is not found. -/
theorem Shows.find_hidden {front back : List QJsonObject} {jsonEmote : QJsonObject}
    (shows : Shows channelDisplayName m (front ++ jsonEmote :: back))
    (alone : ∀ other ∈ front ++ back, idOf other ≠ idOf jsonEmote)
    (hidden : ∃ other ∈ back, codeOf other = codeOf jsonEmote) : m.findEmote [] (idOf jsonEmote) = none := by
  cases found : m.findEmote [] (idOf jsonEmote) with
  | none => rfl
  | some entry =>
    obtain ⟨there, same⟩ := EmoteMap.findEmote_some found
    have last := shows.own alone there same
    have name := (latest_some last).2
    rw [latest_middle, if_pos name] at last
    cases behind : latest codeOf back entry.1 with
    | none =>
      obtain ⟨other, among, equal⟩ := hidden
      exact absurd (equal.trans name) (latest_eq_none.mp behind other among)
    | some other =>
      rw [behind, Option.some_or, Option.some.injEq] at last
      obtain ⟨among, -⟩ := latest_some behind
      exact absurd (congrArg idOf last) (alone other (List.mem_append_right _ among))

theorem Shows.find_absent {emotes : List QJsonObject} (shows : Shows channelDisplayName m emotes) {emoteID : QString}
    (absent : ∀ other ∈ emotes, idOf other ≠ emoteID) : m.findEmote [] emoteID = none := by
  cases found : m.findEmote [] emoteID with
  | none => rfl
  | some entry =>
    obtain ⟨there, same⟩ := EmoteMap.findEmote_some found
    obtain ⟨jsonEmote, last, equal⟩ := shows.held there
    have sourceId : entry.2.id = idOf jsonEmote := congrArg (·.2.1) equal
    exact absurd (sourceId.symm.trans same) (absent jsonEmote (latest_some last).1)

/-! ### Creation -/

theorem Shows.create {front back : List QJsonObject} (shows : Shows channelDisplayName m (front ++ back))
    (jsonEmote : QJsonObject) (visible : ∀ other ∈ back, codeOf other ≠ codeOf jsonEmote) :
    Shows channelDisplayName (m.put (createChannelEmote channelDisplayName jsonEmote)) (front ++ jsonEmote :: back) := by
  intro name
  have named : (createChannelEmote channelDisplayName jsonEmote).name = codeOf jsonEmote := rfl
  rw [lookup_put, named, latest_middle]
  by_cases own : name = codeOf jsonEmote
  · subst own
    rw [if_pos rfl, latest_eq_none.mpr visible, if_pos rfl]
    rfl
  · rw [if_neg own, if_neg (Ne.symm own), ← latest_append]
    exact shows name

/-! ### Deletion -/

theorem filter_alone {front back : List QJsonObject} {jsonEmote : QJsonObject} {emoteID : QString}
    (same : idOf jsonEmote = emoteID) (alone : ∀ other ∈ front ++ back, idOf other ≠ emoteID) :
    (front ++ jsonEmote :: back).filter (fun other => idOf other ≠ emoteID) = front ++ back := by
  rw [List.filter_append, List.filter_cons_of_neg (by simp [same]), ← List.filter_append, List.filter_eq_self]
  exact fun other among => decide_eq_true (alone other among)

theorem Shows.delete {front back : List QJsonObject} {jsonEmote : QJsonObject}
    (shows : Shows channelDisplayName m (front ++ jsonEmote :: back))
    (alone : ∀ other ∈ front ++ back, idOf other ≠ idOf jsonEmote)
    (clear : (∀ other ∈ front, codeOf other ≠ codeOf jsonEmote) ∨ ∃ other ∈ back, codeOf other = codeOf jsonEmote) :
    Shows channelDisplayName (removeEmote m ⟨idOf jsonEmote⟩).1 (front ++ back) := by
  by_cases hidden : ∃ other ∈ back, codeOf other = codeOf jsonEmote
  · have unchanged : removeEmote m ⟨idOf jsonEmote⟩ = (m, none) := by
      rw [removeEmote, shows.find_hidden alone hidden]
    rw [unchanged]
    intro name
    rw [shows name, latest_middle, latest_append]
    cases behind : latest codeOf back name with
    | some other => rfl
    | none =>
      obtain ⟨other, among, equal⟩ := hidden
      rw [if_neg (equal ▸ latest_eq_none.mp behind other among)]
  · have visible : ∀ other ∈ back, codeOf other ≠ codeOf jsonEmote := by
      intro other among equal
      exact hidden ⟨other, among, equal⟩
    have lonely := clear.resolve_right hidden
    obtain ⟨emote, held, name, id, found⟩ := shows.find_visible alone visible
    have erased : removeEmote m ⟨idOf jsonEmote⟩ = (m.erase (codeOf jsonEmote), some emote) := by
      rw [removeEmote, found]
    rw [erased]
    intro name
    rw [lookup_erase, latest_append]
    by_cases own : name = codeOf jsonEmote
    · subst own
      rw [if_pos rfl, latest_eq_none.mpr visible, latest_eq_none.mpr lonely]
      rfl
    · rw [if_neg own, shows name, latest_middle, if_neg (Ne.symm own)]

/-! ### Update -/

/-- The emote of the map becomes what the loader makes of the merged JSON. -/
theorem updateChannelEmote_shown {jsonEmote update : QJsonObject} {emote next : Emote}
    (name : emote.name = codeOf jsonEmote) (id : emote.id = idOf jsonEmote) (same : idOf jsonEmote = idOf update)
    (held : m.lookup (codeOf jsonEmote) = some emote) (credits : Credits m jsonEmote update)
    (updated : updateChannelEmote emote channelDisplayName update = some next) :
    shown next = shown (createChannelEmote channelDisplayName (merged jsonEmote update)) := by
  unfold updateChannelEmote at updated
  simp only at updated
  split at updated
  · next changes =>
    rw [Credits, if_pos changes] at credits
    rw [← Option.some.inj updated, credits emote held, name, ← codeOf_merged]
    simp only [shown, createChannelEmote, id, same, idOf_merged same]
  · cases updated

/-- An update that the program passes over leaves the shown emote alone. -/
theorem updateChannelEmote_none {jsonEmote update : QJsonObject} {emote : Emote} (same : idOf jsonEmote = idOf update)
    (credits : Credits m jsonEmote update) (passed : updateChannelEmote emote channelDisplayName update = none) :
    shown (createChannelEmote channelDisplayName (merged jsonEmote update)) =
      shown (createChannelEmote channelDisplayName jsonEmote) := by
  unfold updateChannelEmote at passed
  simp only at passed
  split at passed
  · cases passed
  · next changes =>
    rw [Credits, if_neg changes] at credits
    rw [Bool.or_eq_true, not_or] at changes
    have code : codeOf (merged jsonEmote update) = codeOf jsonEmote := by rw [codeOf_merged, if_neg changes.1]
    simp only [shown, createChannelEmote, idOf_merged same, code, credits, same]

theorem map_alone {front back : List QJsonObject} {jsonEmote update : QJsonObject} (same : idOf jsonEmote = idOf update)
    (alone : ∀ other ∈ front ++ back, idOf other ≠ idOf update) :
    ((front ++ jsonEmote :: back).map fun other => if idOf other = idOf update then merged other update else other) =
      front ++ merged jsonEmote update :: back := by
  have keep (others : List QJsonObject) (apart : ∀ other ∈ others, idOf other ≠ idOf update) :
      (others.map fun other => if idOf other = idOf update then merged other update else other) = others := by
    conv_rhs => rw [← List.map_id others]
    exact List.map_congr_left fun other among => if_neg (apart other among)
  rw [List.map_append, List.map_cons, if_pos same, keep front fun other among => alone other (List.mem_append_left _ among),
    keep back fun other among => alone other (List.mem_append_right _ among)]

theorem Shows.update {front back : List QJsonObject} {jsonEmote update : QJsonObject}
    (shows : Shows channelDisplayName m (front ++ jsonEmote :: back)) (same : idOf jsonEmote = idOf update)
    (alone : ∀ other ∈ front ++ back, idOf other ≠ idOf update)
    (renames : Renames front back (codeOf jsonEmote) (codeOf (merged jsonEmote update)))
    (credits : (∀ other ∈ back, codeOf other ≠ codeOf jsonEmote) → Credits m jsonEmote update) :
    Shows channelDisplayName (updateEmote channelDisplayName m ⟨update, idOf update⟩).1
      (front ++ merged jsonEmote update :: back) := by
  rw [← same] at alone
  by_cases hidden : ∃ other ∈ back, codeOf other = codeOf jsonEmote
  · have unchanged : updateEmote channelDisplayName m ⟨update, idOf update⟩ = (m, none) := by
      rw [updateEmote, ← same, shows.find_hidden alone hidden]
    -- the new name is hidden as the old one was
    have again : ∃ other ∈ back, codeOf other = codeOf (merged jsonEmote update) := by
      rcases renames with kept | ⟨apart, -⟩ | ⟨-, again⟩
      · rw [kept]
        exact hidden
      · obtain ⟨other, among, equal⟩ := hidden
        exact absurd equal (apart other (List.mem_append_right _ among))
      · exact again
    rw [unchanged]
    intro name
    rw [shows name, latest_middle, latest_middle]
    cases behind : latest codeOf back name with
    | some other => rfl
    | none =>
      obtain ⟨other, among, equal⟩ := hidden
      obtain ⟨another, amongToo, equalToo⟩ := again
      rw [if_neg (equal ▸ latest_eq_none.mp behind other among),
        if_neg (equalToo ▸ latest_eq_none.mp behind another amongToo)]
  · have visible : ∀ other ∈ back, codeOf other ≠ codeOf jsonEmote := by
      intro other among equal
      exact hidden ⟨other, among, equal⟩
    replace credits := credits visible
    obtain ⟨emote, held, name, id, found⟩ := shows.find_visible alone visible
    rw [same] at found
    -- no later emote hides the new name either, and no earlier one comes out under the old name
    have visibleToo : ∀ other ∈ back, codeOf other ≠ codeOf (merged jsonEmote update) := by
      rcases renames with kept | ⟨-, apart⟩ | ⟨before, -⟩
      · rw [kept]
        exact visible
      · exact apart
      · exact absurd before hidden
    have cleared : codeOf (merged jsonEmote update) ≠ codeOf jsonEmote → latest codeOf front (codeOf jsonEmote) = none := by
      intro differ
      rcases renames with kept | ⟨apart, -⟩ | ⟨before, -⟩
      · exact absurd kept differ
      · exact latest_eq_none.mpr fun other among => apart other (List.mem_append_left _ among)
      · exact absurd before hidden
    cases updated : updateChannelEmote emote channelDisplayName update with
    | none =>
      have unchanged : updateEmote channelDisplayName m ⟨update, idOf update⟩ = (m, none) := by
        simp only [updateEmote, found, updated]
      rw [unchanged]
      intro key
      have looks := updateChannelEmote_none same credits updated
      have code : codeOf (merged jsonEmote update) = codeOf jsonEmote := congrArg (·.1) looks
      rw [shows key, latest_middle, latest_middle, code]
      by_cases own : codeOf jsonEmote = key
      · subst own
        rw [if_pos rfl, if_pos rfl, latest_eq_none.mpr visible]
        exact congrArg some looks.symm
      · rw [if_neg own, if_neg own]
    | some next =>
      have looks := updateChannelEmote_shown name id same held credits updated
      have changed : (updateEmote channelDisplayName m ⟨update, idOf update⟩).1 =
          EmoteMap.put (m.erase (codeOf jsonEmote)) next := by
        simp only [updateEmote, found, updated]
      have nextName : next.name = codeOf (merged jsonEmote update) := congrArg (·.1) looks
      rw [changed]
      intro key
      rw [lookup_put, lookup_erase, nextName, latest_middle]
      by_cases own : key = codeOf (merged jsonEmote update)
      · subst own
        rw [if_pos rfl, if_pos rfl, latest_eq_none.mpr visibleToo]
        exact congrArg some looks
      · rw [if_neg own, if_neg (Ne.symm own)]
        by_cases old : key = codeOf jsonEmote
        · subst old
          rw [if_pos rfl, latest_eq_none.mpr visible, cleared (Ne.symm own)]
          rfl
        · rw [if_neg old, shows key, latest_middle, if_neg (Ne.symm old)]

/-! ## Runs -/

/-- A careful event keeps the two sides together. -/
theorem agrees_step {s next : Sides} {e : Event} (agrees : Agrees channelDisplayName s) (careful : Careful s e)
    (taken : step channelDisplayName s e = some next) : Agrees channelDisplayName next := by
  cases taken
  rw [agrees_iff] at agrees ⊢
  cases e with
  | create isShared jsonEmote =>
    change Shows channelDisplayName (s.emotes.put (createChannelEmote channelDisplayName jsonEmote))
      (emotesOf (serve s.jsonRoot (.create isShared jsonEmote)))
    rw [emotesOf_create]
    cases isShared with
    | true =>
      rw [← List.append_nil (emotesOf s.jsonRoot)] at agrees
      exact agrees.create jsonEmote fun _ among => nomatch among
    | false => exact agrees.create jsonEmote (careful rfl)
  | update update =>
    change Shows channelDisplayName (updateEmote channelDisplayName s.emotes ⟨update, idOf update⟩).1
      (emotesOf (serve s.jsonRoot (.update update)))
    rw [emotesOf_update]
    by_cases present : ∃ jsonEmote ∈ emotesOf s.jsonRoot, idOf jsonEmote = idOf update
    · obtain ⟨jsonEmote, among, same⟩ := present
      obtain ⟨front, back, whole⟩ := List.append_of_mem among
      -- the map and the reload change the same emote
      obtain ⟨alone, renames, credits⟩ := careful front jsonEmote back whole same
      rw [whole, map_alone same alone]
      rw [whole] at agrees
      exact agrees.update same alone renames credits
    · have absent : ∀ other ∈ emotesOf s.jsonRoot, idOf other ≠ idOf update :=
        fun other among same => present ⟨other, among, same⟩
      rw [updateEmote, agrees.find_absent absent]
      have unchanged : ((emotesOf s.jsonRoot).map fun other =>
          if idOf other = idOf update then merged other update else other) = emotesOf s.jsonRoot := by
        conv_rhs => rw [← List.map_id (emotesOf s.jsonRoot)]
        exact List.map_congr_left fun other among => if_neg (absent other among)
      rw [unchanged]
      exact agrees
  | delete emoteID =>
    change Shows channelDisplayName (removeEmote s.emotes ⟨emoteID⟩).1 (emotesOf (serve s.jsonRoot (.delete emoteID)))
    rw [emotesOf_delete]
    by_cases present : ∃ jsonEmote ∈ emotesOf s.jsonRoot, idOf jsonEmote = emoteID
    · obtain ⟨jsonEmote, among, rfl⟩ := present
      obtain ⟨front, back, whole⟩ := List.append_of_mem among
      obtain ⟨alone, clear⟩ := careful front jsonEmote back whole rfl
      rw [whole, filter_alone rfl alone]
      rw [whole] at agrees
      exact agrees.delete alone clear
    · have absent : ∀ other ∈ emotesOf s.jsonRoot, idOf other ≠ emoteID :=
        fun other among same => present ⟨other, among, same⟩
      rw [removeEmote, agrees.find_absent absent]
      -- neither side has the emote
      have unchanged : ((emotesOf s.jsonRoot).filter fun other => idOf other ≠ emoteID) = emotesOf s.jsonRoot :=
        List.filter_eq_self.mpr fun other among => decide_eq_true (absent other among)
      rw [unchanged]
      exact agrees

end

def forsenE : QJsonObject := [(qs "id", .string (qs "1")), (qs "code", .string (qs "forsenE")),
  (qs "user", .object [(qs "displayName", .string (qs "doge"))])]

def forsenH : QJsonObject := [(qs "id", .string (qs "1")), (qs "code", .string (qs "forsenH"))]

end Forserino.LiveEmotes.Bttv
