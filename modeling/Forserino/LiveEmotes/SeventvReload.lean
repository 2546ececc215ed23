import Forserino.Foundation.Runs
import Forserino.LiveEmotes.Seventv

/-! A 7TV emote set on both sides: the set as the server has it behind a dispatch, and the
map that the program makes of the dispatch one element after the other.
-/

set_option autoImplicit false

namespace Forserino.LiveEmotes.Seventv

open Forserino.Qt Foundation NamedMap

/-! ## What an emote shows -/

/-- What decides the name, the base name and the tooltip of an emote. -/
structure Card where
  name : QString
  base : QString
  author : QString
  id : QString
  deriving DecidableEq, Repr

def card (emote : Emote) : Card := ⟨emote.name, emote.baseName.getD emote.name, emote.author, emote.id⟩

/-- Base name and tooltip are those of the card. -/
structure Regular (emote : Emote) : Prop where
  baseName : emote.baseName = if emote.name = (card emote).base then none else some (card emote).base
  tooltip : emote.tooltip = if emote.name = (card emote).base then createTooltip emote.name emote.author false
    else createAliasedTooltip emote.name (card emote).base emote.author false

/-- Name, id, base name and tooltip. -/
def shown (emote : Emote) : QString × QString × Option QString × QString :=
  (emote.name, emote.id, emote.baseName, emote.tooltip)

theorem shown_of_card {first second : Emote} (regular : Regular first) (also : Regular second)
    (same : card first = card second) : shown first = shown second := by
  have name : first.name = second.name := congrArg Card.name same
  have author : first.author = second.author := congrArg Card.author same
  have id : first.id = second.id := congrArg Card.id same
  simp only [shown, regular.baseName, regular.tooltip, also.baseName, also.tooltip, same, name, author, id]

section
variable {isEmpty : QString → Bool} {showUnlistedSevenTVEmotes : Bool}

theorem shownEmote_some {activeEmote : QJsonObject} {emote : Emote}
    (found : shownEmote isEmpty showUnlistedSevenTVEmotes activeEmote false = some emote) :
    emote.id = idOf activeEmote ∧ emote.name = nameOf activeEmote ∧ Regular emote := by
  unfold shownEmote at found
  simp only at found
  split at found
  · cases found
  · split at found
    · rw [← Option.some.inj found]
      refine ⟨rfl, rfl, ?_⟩
      generalize QJsonValue.toObject (activeEmote.value (qs "data")) = emoteData
      by_cases same : nameOf activeEmote = QJsonValue.toString (emoteData.value (qs "name"))
      · constructor
        · simp [createEmote, card, same]
        · simp [createEmote, card, same]
      · constructor
        · simp [createEmote, card, same]
        · simp [createEmote, card, same]
    · cases found

/-- A renamed emote has a card with the new name and all else as before. -/
theorem card_updated {oldEmote : Emote} (dispatch : EmoteUpdateDispatch) (regular : Regular oldEmote)
    (renames : dispatch.emoteName ≠ oldEmote.name) :
    card (createUpdatedEmote oldEmote dispatch) = { card oldEmote with name := dispatch.emoteName } ∧
      Regular (createUpdatedEmote oldEmote dispatch) := by
  have baseName := regular.baseName
  unfold card at baseName ⊢
  cases held : oldEmote.baseName with
  | none =>
    constructor
    · simp [createUpdatedEmote, held]
    · constructor
      · simp [createUpdatedEmote, card, held, renames]
      · simp [createUpdatedEmote, card, held, renames]
  | some base =>
    by_cases back : base = dispatch.emoteName
    · constructor
      · simp [createUpdatedEmote, held, back]
      · constructor
        · simp [createUpdatedEmote, card, held, back]
        · simp [createUpdatedEmote, card, held, back]
    · have away : ¬ dispatch.emoteName = base := fun same => back same.symm
      constructor
      · simp [createUpdatedEmote, held, back]
      · constructor
        · simp [createUpdatedEmote, card, held, back, away]
        · simp [createUpdatedEmote, card, held, back, away]

/-! ## The elements of a dispatch -/

inductive Change where
  | pushed (value : QJsonObject)
  | updated (oldValue value : QJsonObject)
  | pulled (oldValue : QJsonObject)

/-- The elements in the order in which the program takes them. -/
def changes (dispatch : Dispatch) : List Change :=
  (changesUnder dispatch (qs "pushed")).map (fun pushed => .pushed (valueOf pushed)) ++
  (changesUnder dispatch (qs "updated")).map (fun updated => .updated (oldValueOf updated) (valueOf updated)) ++
  (changesUnder dispatch (qs "pulled")).map (fun pulled => .pulled (oldValueOf pulled))

variable (isEmpty showUnlistedSevenTVEmotes) in
/-- What the program does with one element. -/
def receive (dispatch : Dispatch) (map : EmoteMap) : Change → EmoteMap
  | .pushed value =>
      let added := EmoteAddDispatch.ofJson dispatch value
      if added.validate then (addEmote isEmpty showUnlistedSevenTVEmotes map added).1 else map
  | .updated oldValue value =>
      let update := EmoteUpdateDispatch.ofJson dispatch oldValue value
      if update.validate then (updateEmote map update).1 else map
  | .pulled oldValue =>
      let removed := EmoteRemoveDispatch.ofJson dispatch oldValue
      if removed.validate then (removeEmote map removed).1 else map

theorem onEmoteSetUpdate_eq (map : EmoteMap) (dispatch : Dispatch) :
    onEmoteSetUpdate isEmpty showUnlistedSevenTVEmotes map dispatch =
      (changes dispatch).foldl (receive isEmpty showUnlistedSevenTVEmotes dispatch) map := by
  unfold onEmoteSetUpdate changes
  simp only [List.foldl_append, List.foldl_map]
  rfl

/-- What one element is for the server's set. -/
def serve (set : List QJsonObject) : Change → List QJsonObject
  | .pushed value => set ++ [value]
  | .updated _ value => set.map fun element => if idOf element = idOf value then value else element
  | .pulled oldValue => set.filter fun element => idOf element ≠ idOf oldValue

/-- The server's set behind the whole dispatch. -/
def serverSet (set : List QJsonObject) (dispatch : Dispatch) : List QJsonObject := (changes dispatch).foldl serve set

def Change.pulls : Change → List QString
  | .pulled oldValue => [idOf oldValue]
  | _ => []

/-- The ids that are still to be pulled. -/
def pulls (changes : List Change) : List QString := changes.flatMap Change.pulls

variable (isEmpty showUnlistedSevenTVEmotes) in
/-- The emotes that a reload of the set shows. -/
def shownOf (set : List QJsonObject) : List Emote :=
  set.filterMap fun element => shownEmote isEmpty showUnlistedSevenTVEmotes element false

variable (isEmpty showUnlistedSevenTVEmotes) in
def cards (set : List QJsonObject) : List Card := (shownOf isEmpty showUnlistedSevenTVEmotes set).map card

/-- No emote but one that is pulled afterwards has the name. -/
def Free (cards : List Card) (pulled : List QString) (name id : QString) : Prop :=
  ∀ other ∈ cards, other.id ≠ id → other.name = name → other.id ∈ pulled

variable (isEmpty showUnlistedSevenTVEmotes) in
/-- The element is one the program takes over, and its emote goes to a free name. -/
def CarefulChange (dispatch : Dispatch) (set : List QJsonObject) (pulled : List QString) : Change → Prop
  | .pushed value =>
      ∀ emote, shownEmote isEmpty showUnlistedSevenTVEmotes value false = some emote →
        (EmoteAddDispatch.ofJson dispatch value).validate = true ∧
        (∀ other ∈ cards isEmpty showUnlistedSevenTVEmotes set, other.id ≠ emote.id) ∧
        Free (cards isEmpty showUnlistedSevenTVEmotes set) pulled emote.name emote.id
  | .updated oldValue value =>
      ∀ element ∈ set, idOf element = idOf value →
        ((shownEmote isEmpty showUnlistedSevenTVEmotes value false).map card =
          (shownEmote isEmpty showUnlistedSevenTVEmotes element false).map fun emote =>
            { card emote with name := nameOf value }) ∧
        ∀ emote, shownEmote isEmpty showUnlistedSevenTVEmotes element false = some emote →
          ((EmoteUpdateDispatch.ofJson dispatch oldValue value).validate = true ↔ nameOf value ≠ emote.name) ∧
          (nameOf value ≠ emote.name →
            Free (cards isEmpty showUnlistedSevenTVEmotes set) pulled (nameOf value) emote.id)
  | .pulled oldValue =>
      ∀ other ∈ cards isEmpty showUnlistedSevenTVEmotes set, other.id = idOf oldValue →
        (EmoteRemoveDispatch.ofJson dispatch oldValue).validate = true

variable (isEmpty showUnlistedSevenTVEmotes) in
/-- Every element meets the condition in the set that the elements before it have made. -/
def CarefulChanges (dispatch : Dispatch) : List QJsonObject → List Change → Prop
  | _, [] => True
  | set, change :: rest =>
      CarefulChange isEmpty showUnlistedSevenTVEmotes dispatch set (pulls rest) change ∧
        CarefulChanges dispatch (serve set change) rest

/-! ## The map between the elements -/

/-- The map has the emotes of the cards, those that are still to be pulled perhaps left out. -/
structure Covers (m : EmoteMap) (cards : List Card) (pulled : List QString) : Prop where
  regular : ∀ name emote, m.lookup name = some emote → Regular emote ∧ emote.name = name ∧ card emote ∈ cards
  there : ∀ wanted ∈ cards, wanted.id ∉ pulled → ∃ emote, m.lookup wanted.name = some emote ∧ card emote = wanted
  once : (cards.map Card.id).Nodup

theorem Covers.eq_of_id {m : EmoteMap} {cards : List Card} {pulled : List QString} (covers : Covers m cards pulled)
    {first second : Card} (among : first ∈ cards) (also : second ∈ cards) (same : first.id = second.id) : first = second :=
  List.inj_on_of_nodup_map covers.once among also same

theorem Covers.sound {m : EmoteMap} {cards : List Card} {pulled : List QString} (covers : Covers m cards pulled) :
    m.Sound := by
  constructor
  · exact fun name emote held => (covers.regular name emote held).2.1
  · intro name emote other another held heldToo same
    obtain ⟨-, named, among⟩ := covers.regular name emote held
    obtain ⟨-, namedToo, amongToo⟩ := covers.regular other another heldToo
    have equal := covers.eq_of_id among amongToo same
    rw [← named, ← namedToo]
    exact congrArg Card.name equal

theorem Covers.put {m : EmoteMap} {cards : List Card} {pulled : List QString} (covers : Covers m cards pulled)
    {emote : Emote} (regular : Regular emote) (fresh : ∀ other ∈ cards, other.id ≠ emote.id)
    (free : Free cards pulled emote.name emote.id) : Covers (m.put emote) (cards ++ [card emote]) pulled := by
  constructor
  · intro name held found
    rw [lookup_put] at found
    split at found
    · next same =>
      rw [← Option.some.inj found]
      exact ⟨regular, same.symm, List.mem_append_right _ (List.mem_singleton.mpr rfl)⟩
    · obtain ⟨looks, named, among⟩ := covers.regular name held found
      exact ⟨looks, named, List.mem_append_left _ among⟩
  · intro wanted among remains
    rcases List.mem_append.mp among with old | new
    · obtain ⟨held, found, same⟩ := covers.there wanted old remains
      have elsewhere : wanted.name ≠ emote.name := fun taken => remains (free wanted old (fresh wanted old) taken)
      refine ⟨held, ?_, same⟩
      rw [lookup_put, if_neg elsewhere, found]
    · rw [List.mem_singleton.mp new]
      refine ⟨emote, ?_, rfl⟩
      rw [lookup_put]
      exact if_pos rfl
  · rw [List.map_append, List.nodup_append']
    refine ⟨covers.once, List.nodup_singleton _, ?_⟩
    intro id old new
    obtain ⟨other, among, rfl⟩ := List.mem_map.mp old
    exact fresh other among (List.mem_singleton.mp new)

/-- The card of an id is given another name. -/
def rename (id name : QString) (c : Card) : Card := if c.id = id then { c with name } else c

theorem rename_id (id name : QString) (c : Card) : (rename id name c).id = c.id := by
  unfold rename
  split <;> rfl

theorem rename_own {id name : QString} {c : Card} (own : c.id = id) : rename id name c = { c with name } := if_pos own

theorem rename_other {id name : QString} {c : Card} (other : c.id ≠ id) : rename id name c = c := if_neg other

theorem rename_ids (id name : QString) (cards : List Card) :
    (cards.map (rename id name)).map Card.id = cards.map Card.id := by
  rw [List.map_map]
  exact List.map_congr_left fun c _ => rename_id id name c

/-- The entry of the id is exchanged for one with another name. -/
theorem Covers.exchange {m : EmoteMap} {cards : List Card} {pulled : List QString} (covers : Covers m cards pulled)
    {oldEmote emote : Emote} (held : m.lookup oldEmote.name = some oldEmote) (regular : Regular emote)
    (same : card emote = { card oldEmote with name := emote.name }) (free : Free cards pulled emote.name oldEmote.id) :
    Covers (EmoteMap.put (m.erase oldEmote.name) emote) (cards.map (rename oldEmote.id emote.name)) pulled := by
  obtain ⟨-, -, oldAmong⟩ := covers.regular _ oldEmote held
  have sound := covers.sound
  constructor
  · intro name other found
    rw [lookup_put] at found
    split at found
    · next here =>
      rw [← Option.some.inj found]
      refine ⟨regular, here.symm, List.mem_map.mpr ⟨card oldEmote, oldAmong, ?_⟩⟩
      rw [same]
      exact rename_own rfl
    · obtain differs := sound.erase_absent held found
      rw [lookup_erase] at found
      split at found
      · cases found
      · obtain ⟨looks, named, among⟩ := covers.regular name other found
        exact ⟨looks, named, List.mem_map.mpr ⟨card other, among, rename_other differs⟩⟩
  · intro wanted among remains
    obtain ⟨source, sourceAmong, rfl⟩ := List.mem_map.mp among
    rw [rename_id] at remains
    by_cases own : source.id = oldEmote.id
    · have equal := covers.eq_of_id sourceAmong oldAmong own
      rw [rename_own own]
      refine ⟨emote, ?_, ?_⟩
      · rw [lookup_put]
        exact if_pos rfl
      · rw [equal, same]
    · obtain ⟨other, found, sameCard⟩ := covers.there source sourceAmong remains
      have elsewhere : source.name ≠ emote.name := fun taken => remains (free source sourceAmong own taken)
      have apart : source.name ≠ oldEmote.name := by
        intro taken
        rw [taken, held] at found
        rw [← Option.some.inj found] at sameCard
        exact own (congrArg Card.id sameCard.symm)
      rw [rename_other own]
      refine ⟨other, ?_, sameCard⟩
      rw [lookup_put, if_neg elsewhere, lookup_erase, if_neg apart, found]
  · rw [rename_ids]
    exact covers.once

/-- An emote that is missing already may be renamed on the other side. -/
theorem Covers.skip {m : EmoteMap} {cards : List Card} {pulled : List QString} (covers : Covers m cards pulled)
    {id : QString} (name : QString) (absent : ∀ key emote, m.lookup key = some emote → emote.id ≠ id) :
    Covers m (cards.map (rename id name)) pulled := by
  constructor
  · intro key emote held
    obtain ⟨looks, named, among⟩ := covers.regular key emote held
    exact ⟨looks, named, List.mem_map.mpr ⟨card emote, among, rename_other (absent key emote held)⟩⟩
  · intro wanted among remains
    obtain ⟨source, sourceAmong, rfl⟩ := List.mem_map.mp among
    rw [rename_id] at remains
    obtain ⟨emote, held, same⟩ := covers.there source sourceAmong remains
    have other : source.id ≠ id := by
      rw [← same]
      exact absent _ emote held
    rw [rename_other other]
    exact ⟨emote, held, same⟩
  · rw [rename_ids]
    exact covers.once

theorem Covers.pull {m : EmoteMap} {cards : List Card} {pulled : List QString} {id : QString}
    (covers : Covers m cards (id :: pulled)) (emoteNameHint : QString) :
    Covers (match m.findEmote emoteNameHint id with
      | none => m
      | some (key, _) => m.erase key) (cards.filter fun c => c.id ≠ id) pulled := by
  have sound := covers.sound
  have once : ((cards.filter fun c => c.id ≠ id).map Card.id).Nodup := covers.once.sublist (List.filter_sublist.map _)
  have stays {c : Card} (among : c ∈ cards) (other : c.id ≠ id) : c ∈ cards.filter fun c => c.id ≠ id :=
    List.mem_filter.mpr ⟨among, decide_eq_true other⟩
  have remaining {c : Card} (among : c ∈ cards.filter fun c => c.id ≠ id) (remains : c.id ∉ pulled) :
      ∃ emote, m.lookup c.name = some emote ∧ card emote = c ∧ c.id ≠ id := by
    obtain ⟨old, other⟩ := List.mem_filter.mp among
    replace other := of_decide_eq_true other
    obtain ⟨emote, held, same⟩ := covers.there c old (List.not_mem_cons_of_ne_of_not_mem other remains)
    exact ⟨emote, held, same, other⟩
  cases found : m.findEmote emoteNameHint id with
  | none =>
    refine ⟨fun name emote held => ?_, fun wanted among remains => ?_, once⟩
    · obtain ⟨looks, named, among⟩ := covers.regular name emote held
      exact ⟨looks, named, stays among (EmoteMap.findEmote_none found held)⟩
    · obtain ⟨emote, held, same, -⟩ := remaining among remains
      exact ⟨emote, held, same⟩
  | some entry =>
    obtain ⟨there, same⟩ := EmoteMap.findEmote_some found
    refine ⟨fun name emote held => ?_, fun wanted among remains => ?_, once⟩
    · have other := sound.erase_absent there held
      rw [lookup_erase] at held
      split at held
      · cases held
      · obtain ⟨looks, named, among⟩ := covers.regular name emote held
        exact ⟨looks, named, stays among (same ▸ other)⟩
    · obtain ⟨emote, held, sameCard, other⟩ := remaining among remains
      refine ⟨emote, ?_, sameCard⟩
      have apart : wanted.name ≠ entry.1 := by
        intro taken
        rw [taken, there] at held
        rw [← Option.some.inj held] at sameCard
        exact other (sameCard ▸ same)
      rw [lookup_erase, if_neg apart, held]

/-! ## The set between the elements -/

theorem cards_append (set : List QJsonObject) (value : QJsonObject) :
    cards isEmpty showUnlistedSevenTVEmotes (set ++ [value]) = cards isEmpty showUnlistedSevenTVEmotes set ++
      ((shownEmote isEmpty showUnlistedSevenTVEmotes value false).map card).toList := by
  unfold cards shownOf
  rw [List.filterMap_append, List.map_append]
  cases found : shownEmote isEmpty showUnlistedSevenTVEmotes value false <;> simp [found]

theorem mem_cards {set : List QJsonObject} {c : Card} : c ∈ cards isEmpty showUnlistedSevenTVEmotes set ↔
    ∃ element ∈ set, ∃ emote, shownEmote isEmpty showUnlistedSevenTVEmotes element false = some emote ∧ card emote = c := by
  unfold cards shownOf
  simp only [List.mem_map, List.mem_filterMap]
  constructor
  · rintro ⟨emote, ⟨element, among, found⟩, same⟩
    exact ⟨element, among, emote, found, same⟩
  · rintro ⟨element, among, emote, found, same⟩
    exact ⟨emote, ⟨element, among, found⟩, same⟩

theorem cards_replace {set : List QJsonObject} {value : QJsonObject}
    (looks : ∀ element ∈ set, idOf element = idOf value →
      (shownEmote isEmpty showUnlistedSevenTVEmotes value false).map card =
        (shownEmote isEmpty showUnlistedSevenTVEmotes element false).map fun emote =>
          { card emote with name := nameOf value }) :
    cards isEmpty showUnlistedSevenTVEmotes (set.map fun element => if idOf element = idOf value then value else element) =
      (cards isEmpty showUnlistedSevenTVEmotes set).map (rename (idOf value) (nameOf value)) := by
  induction set with
  | nil => rfl
  | cons element rest ih =>
    have later := ih fun other among => looks other (List.mem_cons_of_mem _ among)
    unfold cards shownOf at later ⊢
    rw [List.map_cons, List.filterMap_cons, List.filterMap_cons]
    by_cases own : idOf element = idOf value
    · have same := looks element List.mem_cons_self own
      rw [if_pos own]
      cases found : shownEmote isEmpty showUnlistedSevenTVEmotes element false with
      | none =>
        rw [found, Option.map_none, Option.map_eq_none_iff] at same
        rw [same]
        exact later
      | some emote =>
        rw [found, Option.map_some] at same
        obtain ⟨next, puts, sameCard⟩ := Option.map_eq_some_iff.mp same
        have id : (card emote).id = idOf value := (shownEmote_some found).1.trans own
        rw [puts]
        simp only [List.map_cons, later, sameCard, rename, id, ite_true]
    · rw [if_neg own]
      cases found : shownEmote isEmpty showUnlistedSevenTVEmotes element false with
      | none => exact later
      | some emote =>
        have id : (card emote).id ≠ idOf value := fun same => own ((shownEmote_some found).1.symm.trans same)
        simp only [List.map_cons, later, rename, id, ite_false]

theorem cards_filter (set : List QJsonObject) (id : QString) :
    cards isEmpty showUnlistedSevenTVEmotes (set.filter fun element => idOf element ≠ id) =
      (cards isEmpty showUnlistedSevenTVEmotes set).filter fun c => c.id ≠ id := by
  induction set with
  | nil => rfl
  | cons element rest ih =>
    unfold cards shownOf at ih ⊢
    rw [List.filter_cons, List.filterMap_cons]
    cases found : shownEmote isEmpty showUnlistedSevenTVEmotes element false with
    | none =>
      split
      · rw [List.filterMap_cons, found]
        exact ih
      · exact ih
    | some emote =>
      have sameId : (card emote).id = idOf element := (shownEmote_some found).1
      simp only [List.map_cons, List.filter_cons, sameId]
      split
      · rw [List.filterMap_cons, found, List.map_cons, ih]
      · exact ih

/-! ## One element -/

theorem covers_pushed {m : EmoteMap} {set : List QJsonObject} {pulled : List QString} {dispatch : Dispatch}
    {value : QJsonObject} (covers : Covers m (cards isEmpty showUnlistedSevenTVEmotes set) pulled)
    (careful : CarefulChange isEmpty showUnlistedSevenTVEmotes dispatch set pulled (.pushed value)) :
    Covers (receive isEmpty showUnlistedSevenTVEmotes dispatch m (.pushed value))
      (cards isEmpty showUnlistedSevenTVEmotes (set ++ [value])) pulled := by
  rw [cards_append]
  cases found : shownEmote isEmpty showUnlistedSevenTVEmotes value false with
  | none =>
    have unchanged : receive isEmpty showUnlistedSevenTVEmotes dispatch m (.pushed value) = m := by
      simp only [receive, addEmote, EmoteAddDispatch.ofJson, found, ite_self]
    rw [unchanged, Option.map_none, Option.toList_none, List.append_nil]
    exact covers
  | some emote =>
    obtain ⟨valid, fresh, free⟩ := careful emote found
    have put : receive isEmpty showUnlistedSevenTVEmotes dispatch m (.pushed value) = m.put emote := by
      simp only [receive, if_pos valid]
      simp only [addEmote, EmoteAddDispatch.ofJson, found]
    rw [put, Option.map_some, Option.toList_some]
    exact covers.put (shownEmote_some found).2.2 fresh free

theorem covers_updated {m : EmoteMap} {set : List QJsonObject} {pulled : List QString} {dispatch : Dispatch}
    {oldValue value : QJsonObject} (covers : Covers m (cards isEmpty showUnlistedSevenTVEmotes set) pulled)
    (careful : CarefulChange isEmpty showUnlistedSevenTVEmotes dispatch set pulled (.updated oldValue value)) :
    Covers (receive isEmpty showUnlistedSevenTVEmotes dispatch m (.updated oldValue value))
      (cards isEmpty showUnlistedSevenTVEmotes
        (set.map fun element => if idOf element = idOf value then value else element)) pulled := by
  rw [cards_replace fun element among same => (careful element among same).1]
  have update_none (absent : ∀ key emote, m.lookup key = some emote → emote.id ≠ idOf value) :
      receive isEmpty showUnlistedSevenTVEmotes dispatch m (.updated oldValue value) = m := by
    have missing : m.findEmote (nameOf value) (idOf value) = none := by
      cases found : m.findEmote (nameOf value) (idOf value) with
      | none => rfl
      | some entry =>
        obtain ⟨held, same⟩ := EmoteMap.findEmote_some found
        exact absurd same (absent entry.1 entry.2 held)
    simp only [receive, updateEmote, EmoteUpdateDispatch.ofJson, missing, ite_self]
  by_cases absent : ∀ key emote, m.lookup key = some emote → emote.id ≠ idOf value
  · rw [update_none absent]
    exact covers.skip (nameOf value) absent
  · push Not at absent
    obtain ⟨key, oldEmote, held, same⟩ := absent
    obtain ⟨regular, named, among⟩ := covers.regular key oldEmote held
    subst named
    obtain ⟨element, inSet, emote, found, sameCard⟩ := mem_cards.mp among
    obtain ⟨id, name, -⟩ := shownEmote_some found
    have emoteId : emote.id = oldEmote.id := congrArg Card.id sameCard
    have emoteName : emote.name = oldEmote.name := congrArg Card.name sameCard
    obtain ⟨valid, free⟩ := (careful element inSet (id.symm.trans (emoteId.trans same))).2 emote found
    rw [emoteName] at valid free
    by_cases renames : nameOf value = oldEmote.name
    -- an update without a new name is refused, and changes no card
    · have refused : (EmoteUpdateDispatch.ofJson dispatch oldValue value).validate ≠ true :=
        fun accepted => valid.mp accepted renames
      have unchanged : receive isEmpty showUnlistedSevenTVEmotes dispatch m (.updated oldValue value) = m := by
        simp only [receive, if_neg refused]
      have kept : (cards isEmpty showUnlistedSevenTVEmotes set).map (rename (idOf value) (nameOf value)) =
          cards isEmpty showUnlistedSevenTVEmotes set := by
        conv_rhs => rw [← List.map_id (cards isEmpty showUnlistedSevenTVEmotes set)]
        apply List.map_congr_left
        intro c inCards
        by_cases own : c.id = idOf value
        · rw [rename_own own, covers.eq_of_id inCards among (own.trans same.symm), renames]
          rfl
        · rw [rename_other own]
          rfl
      rw [unchanged, kept]
      exact covers
    · have accepted := valid.mpr renames
      -- the emote is found by its id under the old name, and comes back under the new one
      have search : m.findEmote (nameOf value) (idOf value) = some (oldEmote.name, oldEmote) :=
        covers.sound.findEmote held same
      obtain ⟨newCard, newRegular⟩ :=
        card_updated (EmoteUpdateDispatch.ofJson dispatch oldValue value) regular renames
      have exchanged : receive isEmpty showUnlistedSevenTVEmotes dispatch m (.updated oldValue value) =
          EmoteMap.put (m.erase oldEmote.name)
            (createUpdatedEmote oldEmote (EmoteUpdateDispatch.ofJson dispatch oldValue value)) := by
        simp only [receive, if_pos accepted]
        simp only [updateEmote, EmoteUpdateDispatch.ofJson, search]
      rw [exchanged, ← same]
      rw [emoteId] at free
      exact covers.exchange held newRegular newCard (free renames)

theorem covers_pulled {m : EmoteMap} {set : List QJsonObject} {pulled : List QString} {dispatch : Dispatch}
    {oldValue : QJsonObject} (covers : Covers m (cards isEmpty showUnlistedSevenTVEmotes set) (idOf oldValue :: pulled))
    (careful : CarefulChange isEmpty showUnlistedSevenTVEmotes dispatch set pulled (.pulled oldValue)) :
    Covers (receive isEmpty showUnlistedSevenTVEmotes dispatch m (.pulled oldValue))
      (cards isEmpty showUnlistedSevenTVEmotes (set.filter fun element => idOf element ≠ idOf oldValue)) pulled := by
  rw [cards_filter]
  have pull := covers.pull (nameOf oldValue)
  by_cases valid : (EmoteRemoveDispatch.ofJson dispatch oldValue).validate = true
  · simp only [receive, if_pos valid, removeEmote]
    simp only [EmoteRemoveDispatch.ofJson]
    cases found : m.findEmote (nameOf oldValue) (idOf oldValue) with
    | none =>
      rw [found] at pull
      exact pull
    | some entry =>
      rw [found] at pull
      exact pull
  · have missing : m.findEmote (nameOf oldValue) (idOf oldValue) = none := by
      cases found : m.findEmote (nameOf oldValue) (idOf oldValue) with
      | none => rfl
      | some entry =>
        obtain ⟨held, same⟩ := EmoteMap.findEmote_some found
        exact absurd (careful _ (covers.regular _ _ held).2.2 same) valid
    simp only [receive, if_neg valid]
    rw [missing] at pull
    exact pull

/-! ## Whole dispatches -/

theorem covers_changes {m : EmoteMap} {set : List QJsonObject} {dispatch : Dispatch} {changes : List Change}
    (covers : Covers m (cards isEmpty showUnlistedSevenTVEmotes set) (pulls changes))
    (careful : CarefulChanges isEmpty showUnlistedSevenTVEmotes dispatch set changes) :
    Covers (changes.foldl (receive isEmpty showUnlistedSevenTVEmotes dispatch) m)
      (cards isEmpty showUnlistedSevenTVEmotes (changes.foldl serve set)) [] := by
  induction changes generalizing m set with
  | nil => exact covers
  | cons change rest ih =>
    apply ih _ careful.2
    cases change with
    | pushed value => exact covers_pushed covers careful.1
    | updated oldValue value => exact covers_updated covers careful.1
    | pulled oldValue => exact covers_pulled covers careful.1

theorem Covers.weaken {m : EmoteMap} {cards : List Card} (covers : Covers m cards []) (pulled : List QString) :
    Covers m cards pulled :=
  ⟨covers.regular, fun wanted among _ => covers.there wanted among List.not_mem_nil, covers.once⟩

structure Sides where
  set : List QJsonObject
  emotes : EmoteMap

variable (isEmpty showUnlistedSevenTVEmotes)

/-- The map of a loaded set. -/
def reload (set : List QJsonObject) : EmoteMap := parseEmotes isEmpty showUnlistedSevenTVEmotes (set.map .object) false

def step (s : Sides) (dispatch : Dispatch) : Option Sides :=
  some ⟨serverSet s.set dispatch, onEmoteSetUpdate isEmpty showUnlistedSevenTVEmotes s.emotes dispatch⟩

def start (set : List QJsonObject) : Sides := ⟨set, reload isEmpty showUnlistedSevenTVEmotes set⟩

/-- The map shows what a reload would show. -/
def Agrees (s : Sides) : Prop :=
  ∀ name, (s.emotes.lookup name).map shown =
    ((reload isEmpty showUnlistedSevenTVEmotes s.set).lookup name).map shown

/-- No two shown emotes of the set have one name or one id. -/
structure Distinct (set : List QJsonObject) : Prop where
  names : ((cards isEmpty showUnlistedSevenTVEmotes set).map Card.name).Nodup
  ids : ((cards isEmpty showUnlistedSevenTVEmotes set).map Card.id).Nodup

def Careful (s : Sides) (dispatch : Dispatch) : Prop :=
  CarefulChanges isEmpty showUnlistedSevenTVEmotes dispatch s.set (changes dispatch)

variable {isEmpty showUnlistedSevenTVEmotes}

theorem lookup_reload (set : List QJsonObject) (name : QString) :
    (reload isEmpty showUnlistedSevenTVEmotes set).lookup name =
      latest Emote.name (shownOf isEmpty showUnlistedSevenTVEmotes set) name := by
  have whole : reload isEmpty showUnlistedSevenTVEmotes set = load Emote.name (shownOf isEmpty showUnlistedSevenTVEmotes set) := by
    unfold reload parseEmotes load shownOf
    rw [List.foldl_map, List.foldl_filterMap]
    congr 1
    funext emotes element
    simp only [QJsonValue.toObject]
    cases shownEmote isEmpty showUnlistedSevenTVEmotes element false <;> rfl
  rw [whole, lookup_load]

theorem mem_shownOf {set : List QJsonObject} {emote : Emote}
    (among : emote ∈ shownOf isEmpty showUnlistedSevenTVEmotes set) :
    Regular emote ∧ card emote ∈ cards isEmpty showUnlistedSevenTVEmotes set := by
  obtain ⟨element, -, found⟩ := List.mem_filterMap.mp among
  exact ⟨(shownEmote_some found).2.2, List.mem_map_of_mem among⟩

theorem Distinct.covers {set : List QJsonObject} (distinct : Distinct isEmpty showUnlistedSevenTVEmotes set) :
    Covers (reload isEmpty showUnlistedSevenTVEmotes set) (cards isEmpty showUnlistedSevenTVEmotes set) [] := by
  constructor
  · intro name emote held
    rw [lookup_reload] at held
    obtain ⟨among, named⟩ := latest_some held
    obtain ⟨regular, inCards⟩ := mem_shownOf among
    exact ⟨regular, named, inCards⟩
  · intro wanted among _
    obtain ⟨emote, inSet, rfl⟩ := List.mem_map.mp among
    cases found : latest Emote.name (shownOf isEmpty showUnlistedSevenTVEmotes set) emote.name with
    | none => exact absurd rfl (latest_eq_none.mp found emote inSet)
    | some other =>
      obtain ⟨otherAmong, named⟩ := latest_some found
      refine ⟨other, (lookup_reload set _).trans found, ?_⟩
      exact List.inj_on_of_nodup_map distinct.names (List.mem_map_of_mem otherAmong) among named
  · exact distinct.ids

theorem Covers.agrees {s : Sides} (covers : Covers s.emotes (cards isEmpty showUnlistedSevenTVEmotes s.set) []) :
    Agrees isEmpty showUnlistedSevenTVEmotes s := by
  intro name
  rw [lookup_reload]
  cases found : latest Emote.name (shownOf isEmpty showUnlistedSevenTVEmotes s.set) name with
  | some emote =>
    obtain ⟨among, named⟩ := latest_some found
    obtain ⟨regular, inCards⟩ := mem_shownOf among
    obtain ⟨other, held, same⟩ := covers.there (card emote) inCards List.not_mem_nil
    rw [show (card emote).name = name from named] at held
    rw [held]
    exact congrArg some (shown_of_card (covers.regular name other held).1 regular same)
  | none =>
    cases held : s.emotes.lookup name with
    | none => rfl
    | some emote =>
      obtain ⟨-, named, among⟩ := covers.regular name emote held
      obtain ⟨other, inSet, same⟩ := List.mem_map.mp among
      have otherName : other.name = name := (congrArg Card.name same).trans named
      exact absurd otherName (latest_eq_none.mp found other inSet)

theorem covers_step {s next : Sides} {dispatch : Dispatch}
    (covers : Covers s.emotes (cards isEmpty showUnlistedSevenTVEmotes s.set) [])
    (careful : Careful isEmpty showUnlistedSevenTVEmotes s dispatch)
    (taken : step isEmpty showUnlistedSevenTVEmotes s dispatch = some next) :
    Covers next.emotes (cards isEmpty showUnlistedSevenTVEmotes next.set) [] := by
  cases taken
  change Covers (onEmoteSetUpdate isEmpty showUnlistedSevenTVEmotes s.emotes dispatch) _ []
  rw [onEmoteSetUpdate_eq]
  exact covers_changes (covers.weaken _) careful

end

/-- A listed emote without an alias. -/
def activeEmote (id name base : QString) : QJsonObject :=
  [(qs "id", .string id), (qs "name", .string name), (qs "data", .object
    [(qs "name", .string base), (qs "listed", .bool true), (qs "owner", .object [(qs "display_name", .string (qs "doge"))]),
      (qs "host", .object [(qs "url", .string (qs "//cdn.7tv.app")), (qs "files", .array
        [.object [(qs "name", .string (qs "1x.webp")), (qs "format", .string (qs "WEBP"))]])])])]

def change (members : List (QString × QJsonObject)) : QJsonValue :=
  .object ((qs "key", .string (qs "emotes")) :: members.map fun member => (member.1, .object member.2))

def pushOf (emote : QJsonObject) : Dispatch :=
  ⟨[(qs "id", .string (qs "set")), (qs "pushed", .array [change [(qs "value", emote)]])]⟩

/-- Two emotes that swap their names; names are distinct before and behind the dispatch. -/
def swap : Dispatch :=
  ⟨[(qs "id", .string (qs "set")), (qs "updated", .array
    [change [(qs "value", activeEmote (qs "1") (qs "B") (qs "A")), (qs "old_value", activeEmote (qs "1") (qs "A") (qs "A"))],
      change [(qs "value", activeEmote (qs "2") (qs "A") (qs "B")), (qs "old_value", activeEmote (qs "2") (qs "B") (qs "B"))]])]⟩

end Forserino.LiveEmotes.Seventv
