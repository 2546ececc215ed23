import Forserino.Foundation.Runs
import Forserino.LiveEmotes.Bttv
import Forserino.LiveEmotes.Seventv

/-! Emote maps under any sequence of live updates. An update or a removal keeps names and
ids in order; an addition does unless another name holds the id of the new emote.
-/

set_option autoImplicit false

namespace Forserino.LiveEmotes

open Forserino.Qt Foundation

/-- The live updates of both providers, with what they read from elsewhere. -/
inductive Dispatch where
  | seventvAdd (isEmpty : QString → Bool) (showUnlistedSevenTVEmotes : Bool) (dispatch : Seventv.EmoteAddDispatch)
  | seventvUpdate (dispatch : Seventv.EmoteUpdateDispatch)
  | seventvRemove (dispatch : Seventv.EmoteRemoveDispatch)
  | bttvAdd (channelDisplayName : QString) (message : Bttv.BttvLiveUpdateEmoteUpdateAddMessage)
  | bttvUpdate (channelDisplayName : QString) (message : Bttv.BttvLiveUpdateEmoteUpdateAddMessage)
  | bttvRemove (message : Bttv.BttvLiveUpdateEmoteRemoveMessage)

namespace Dispatch

/-- The map behind the operation, and whether it reports success. -/
def apply (m : EmoteMap) : Dispatch → EmoteMap × Bool
  | .seventvAdd isEmpty showUnlistedSevenTVEmotes dispatch =>
      let (m, result) := Seventv.addEmote isEmpty showUnlistedSevenTVEmotes m dispatch
      (m, result.isSome)
  | .seventvUpdate dispatch =>
      let (m, result) := Seventv.updateEmote m dispatch
      (m, result.isSome)
  | .seventvRemove dispatch =>
      let (m, result) := Seventv.removeEmote m dispatch
      (m, result.isSome)
  | .bttvAdd channelDisplayName message => ((Bttv.addEmote channelDisplayName m message).1, true)
  | .bttvUpdate channelDisplayName message =>
      let (m, result) := Bttv.updateEmote channelDisplayName m message
      (m, result.isSome)
  | .bttvRemove message =>
      let (m, result) := Bttv.removeEmote m message
      (m, result.isSome)

/-- The id that the operation is to remove. -/
def removed : Dispatch → Option QString
  | .seventvRemove dispatch => some dispatch.emoteID
  | .bttvRemove message => some message.emoteID
  | _ => none

/-- The emote that the operation adds. -/
def added : Dispatch → Option Emote
  | .seventvAdd isEmpty showUnlistedSevenTVEmotes dispatch =>
      Seventv.shownEmote isEmpty showUnlistedSevenTVEmotes dispatch.emoteJson false
  | .bttvAdd channelDisplayName message => some (Bttv.createChannelEmote channelDisplayName message.jsonEmote)
  | _ => none

def step (m : EmoteMap) (dispatch : Dispatch) : Option EmoteMap := some (dispatch.apply m).1

/-- No name but its own holds the id of an added emote. -/
def Careful (m : EmoteMap) (dispatch : Dispatch) : Prop :=
  ∀ emote ∈ dispatch.added, m.Fresh Emote.name Emote.id emote

/-- The operation leaves names and ids in order, changes nothing if it fails, and a removal removes. -/
structure Holds (m : EmoteMap) (dispatch : Dispatch) : Prop where
  sound : EmoteMap.Sound (dispatch.apply m).1
  failed : (dispatch.apply m).2 = false → (dispatch.apply m).1 = m
  gone : ∀ id ∈ dispatch.removed, (dispatch.apply m).2 = true →
    ∀ key emote, (dispatch.apply m).1.lookup key = some emote → emote.id ≠ id

/-! ## Exchanging and removing an emote -/

/-- The emote of an id is exchanged for another one with the id. -/
theorem sound_exchange {m : EmoteMap} {key : QString} {oldEmote emote : Emote} (sound : m.Sound)
    (held : m.lookup key = some oldEmote) (same : emote.id = oldEmote.id) :
    EmoteMap.Sound (EmoteMap.put (m.erase key) emote) := by
  apply (sound.erase key).put
  intro other kept found equal
  exact absurd (equal.trans same) (sound.erase_absent held found)

/-- The two outcomes of an update, whatever the provider. -/
inductive Exchanges (m : EmoteMap) : EmoteMap × Bool → Prop where
  | unchanged : Exchanges m (m, false)
  | exchanged {key : QString} {oldEmote emote : Emote} (held : m.lookup key = some oldEmote)
      (same : emote.id = oldEmote.id) : Exchanges m (EmoteMap.put (m.erase key) emote, true)

theorem bttvUpdate_exchanges (m : EmoteMap) (channelDisplayName : QString)
    (message : Bttv.BttvLiveUpdateEmoteUpdateAddMessage) :
    Exchanges m ((bttvUpdate channelDisplayName message).apply m) := by
  simp only [apply, Bttv.updateEmote]
  split
  · exact .unchanged
  · next key oldEmote found =>
    obtain ⟨held, -⟩ := EmoteMap.findEmote_some found
    split
    · exact .unchanged
    · next emote updated =>
      apply Exchanges.exchanged held
      unfold Bttv.updateChannelEmote at updated
      simp only at updated
      split at updated
      · rw [← Option.some.inj updated]
      · cases updated

theorem seventvUpdate_exchanges {m : EmoteMap} (sound : m.Sound) (dispatch : Seventv.EmoteUpdateDispatch) :
    Exchanges m ((seventvUpdate dispatch).apply m) := by
  simp only [apply, Seventv.updateEmote]
  split
  · exact .unchanged
  · next key oldEmote found =>
    obtain ⟨held, -⟩ := EmoteMap.findEmote_some found
    rw [sound.keyed key oldEmote held]
    exact .exchanged held rfl

theorem Exchanges.sound {m : EmoteMap} {result : EmoteMap × Bool} (exchanges : Exchanges m result) (sound : m.Sound) :
    EmoteMap.Sound result.1 := by
  cases exchanges with
  | unchanged => exact sound
  | exchanged held same => exact sound_exchange sound held same

theorem Exchanges.failed {m : EmoteMap} {result : EmoteMap × Bool} (exchanges : Exchanges m result)
    (failure : result.2 = false) : result.1 = m := by
  cases exchanges with
  | unchanged => rfl
  | exchanged held same => cases failure

/-- The two outcomes of a removal, whatever the provider. -/
inductive Removes (m : EmoteMap) (id : QString) : EmoteMap × Bool → Prop where
  | unchanged : Removes m id (m, false)
  | removed {key : QString} {emote : Emote} (held : m.lookup key = some emote) (same : emote.id = id) :
      Removes m id (m.erase key, true)

theorem bttvRemove_removes (m : EmoteMap) (message : Bttv.BttvLiveUpdateEmoteRemoveMessage) :
    Removes m message.emoteID ((bttvRemove message).apply m) := by
  simp only [apply, Bttv.removeEmote]
  split
  · exact .unchanged
  · next key emote found =>
    obtain ⟨held, same⟩ := EmoteMap.findEmote_some found
    exact .removed held same

theorem seventvRemove_removes (m : EmoteMap) (dispatch : Seventv.EmoteRemoveDispatch) :
    Removes m dispatch.emoteID ((seventvRemove dispatch).apply m) := by
  simp only [apply, Seventv.removeEmote]
  split
  · exact .unchanged
  · next key emote found =>
    obtain ⟨held, same⟩ := EmoteMap.findEmote_some found
    exact .removed held same

theorem Removes.holds {m : EmoteMap} {id : QString} {dispatch : Dispatch} (removes : Removes m id (dispatch.apply m))
    (sound : m.Sound) (target : dispatch.removed = some id) : Holds m dispatch := by
  generalize outcome : dispatch.apply m = result at removes
  constructor
  · rw [outcome]
    cases removes with
    | unchanged => exact sound
    | removed held same => exact sound.erase _
  · rw [outcome]
    intro failure
    cases removes with
    | unchanged => rfl
    | removed held same => cases failure
  · rw [outcome]
    intro wanted asked success key emote found
    obtain rfl := Option.some.inj (target.symm.trans asked)
    cases removes with
    | unchanged => cases success
    | removed held same => exact same ▸ sound.erase_absent held found

theorem Exchanges.holds {m : EmoteMap} {dispatch : Dispatch} (exchanges : Exchanges m (dispatch.apply m))
    (sound : m.Sound) (target : dispatch.removed = none) : Holds m dispatch := by
  refine ⟨exchanges.sound sound, exchanges.failed, ?_⟩
  intro id asked
  rw [target] at asked
  cases asked

/-! ## Every operation -/

/-- An operation of an ordered map holds exactly if it is careful. -/
theorem holds_iff {m : EmoteMap} {dispatch : Dispatch} (sound : m.Sound) : Careful m dispatch ↔ Holds m dispatch := by
  -- updates and removals add nothing
  have harmless (none : dispatch.added = Option.none) (holds : Holds m dispatch) : Careful m dispatch ↔ Holds m dispatch := by
    refine ⟨fun _ => holds, fun _ emote adds => ?_⟩
    rw [none] at adds
    cases adds
  cases dispatch with
  | seventvAdd isEmpty showUnlistedSevenTVEmotes dispatch =>
    cases shown : Seventv.shownEmote isEmpty showUnlistedSevenTVEmotes dispatch.emoteJson false with
    | none =>
      apply harmless shown
      have unchanged : (seventvAdd isEmpty showUnlistedSevenTVEmotes dispatch).apply m = (m, false) := by
        simp only [apply, Seventv.addEmote, shown, Option.isSome_none]
      refine ⟨?_, fun _ => ?_, fun _ asked => nomatch asked⟩
      · rw [unchanged]
        exact sound
      · rw [unchanged]
    | some emote =>
      have result : (seventvAdd isEmpty showUnlistedSevenTVEmotes dispatch).apply m = (m.put emote, true) := by
        simp only [apply, Seventv.addEmote, shown, Option.isSome_some]
      constructor
      · intro careful
        refine ⟨?_, ?_, fun _ asked => nomatch asked⟩
        · rw [result]
          exact sound.put (careful emote shown)
        · rw [result]
          exact fun failure => nomatch failure
      · intro holds other adds
        obtain rfl := Option.some.inj (shown.symm.trans adds)
        by_contra stale
        have ordered := holds.sound
        rw [result] at ordered
        exact NamedMap.not_wellKeyed_put stale ordered
  | bttvAdd channelDisplayName message =>
    constructor
    · intro careful
      exact ⟨sound.put (careful _ rfl), (fun failure => nomatch failure), (fun _ asked => nomatch asked)⟩
    · rintro holds other ⟨⟩
      by_contra stale
      exact NamedMap.not_wellKeyed_put stale holds.sound
  | seventvUpdate dispatch => exact harmless rfl ((seventvUpdate_exchanges sound dispatch).holds sound rfl)
  | bttvUpdate channelDisplayName message =>
    exact harmless rfl ((bttvUpdate_exchanges m channelDisplayName message).holds sound rfl)
  | seventvRemove dispatch => exact harmless rfl ((seventvRemove_removes m dispatch).holds sound rfl)
  | bttvRemove message => exact harmless rfl ((bttvRemove_removes m message).holds sound rfl)

def forsenE : QJsonObject := [(qs "id", .string (qs "1")), (qs "code", .string (qs "forsenE"))]

def forsenH : QJsonObject := [(qs "id", .string (qs "1")), (qs "code", .string (qs "forsenH"))]

end Dispatch

end Forserino.LiveEmotes
