import Forserino.Foundation.NamedMap
import Forserino.Qt.Html
import Forserino.Qt.Json

/-! Emotes of a channel, kept by their names and found by name or id.
-/

set_option autoImplicit false

namespace Forserino.LiveEmotes

open Forserino.Qt Foundation

/-- Images are given by their URLs. -/
structure Emote where
  name : QString
  images : List QString
  tooltip : QString
  homePage : QString
  zeroWidth : Bool := false
  id : QString := []
  author : QString := []
  baseName : Option QString := none
  deriving DecidableEq, Repr

abbrev EmoteMap := NamedMap QString Emote

namespace EmoteMap

/-- The entry under the hinted name if its id is the wanted one, else any entry with the id. -/
def findEmote (m : EmoteMap) (emoteNameHint emoteID : QString) : Option (QString × Emote) :=
  let hinted := if emoteNameHint = [] then none
    else ((m.lookup emoteNameHint).filter (·.id = emoteID)).map (emoteNameHint, ·)
  hinted.or (m.findId Emote.id emoteID)

abbrev put (m : EmoteMap) (emote : Emote) : EmoteMap := NamedMap.put Emote.name m emote

/-- Every emote is kept under its name, and no two of them have one id. -/
abbrev Sound (m : EmoteMap) : Prop := NamedMap.WellKeyed Emote.name Emote.id m

variable {m : EmoteMap} {emoteNameHint emoteID : QString}

theorem findEmote_some {key : QString} {emote : Emote} (found : m.findEmote emoteNameHint emoteID = some (key, emote)) :
    m.lookup key = some emote ∧ emote.id = emoteID := by
  rcases Option.or_eq_some_iff.mp found with hinted | ⟨-, searched⟩
  · split at hinted
    · cases hinted
    · obtain ⟨other, there, same⟩ := Option.map_eq_some_iff.mp hinted
      obtain ⟨rfl, rfl⟩ := Prod.mk.inj same
      rw [Option.filter_eq_some_iff] at there
      exact ⟨there.1, of_decide_eq_true there.2⟩
  · exact NamedMap.findId_some searched

theorem findEmote_none (missing : m.findEmote emoteNameHint emoteID = none) {key : QString} {emote : Emote}
    (held : m.lookup key = some emote) : emote.id ≠ emoteID :=
  NamedMap.findId_none (Option.or_eq_none_iff.mp missing).2 held

/-- Where ids are single, the hint does not matter. -/
theorem Sound.findEmote (sound : m.Sound) {key : QString} {emote : Emote} (held : m.lookup key = some emote)
    (same : emote.id = emoteID) : m.findEmote emoteNameHint emoteID = some (key, emote) := by
  cases found : m.findEmote emoteNameHint emoteID with
  | none => exact absurd same (findEmote_none found held)
  | some entry =>
    obtain ⟨there, also⟩ := findEmote_some found
    obtain rfl := sound.single entry.1 entry.2 key emote there held (also.trans same.symm)
    obtain rfl := Option.some.inj (there.symm.trans held)
    rfl

end EmoteMap

end Forserino.LiveEmotes
