import Forserino.LiveEmotes.SeventvReload
import Forserino.LiveUpdates.SeventvChannels

/-! The 7TV requests of a channel, answered in any order.

A user can switch to another emote set while the emotes of the last one are still on their
way. What has been fetched for which set is remembered beside the state.
-/

set_option autoImplicit false

namespace Forserino.LiveEmotes.Seventv

open Forserino.Qt Forserino.Seventv Foundation

inductive Request where
  | getUserByTwitchID
  | getEmoteSet (emoteSetId : QString)
  deriving DecidableEq, Repr

/-- The set that a request is about. -/
def Request.emoteSet? : Request → Option QString
  | .getUserByTwitchID => none
  | .getEmoteSet emoteSetId => some emoteSetId

structure TwitchChannel where
  seventvEmotes : EmoteMap := ∅
  info : ChannelInfo := {}
  inFlight : List Request := []
  fetched : List (QString × EmoteMap) := []

inductive ChannelEvent where
  | refreshSevenTVChannelEmotes (enableSevenTVChannelEmotes : Bool)
  | userUpdated (dispatch : UserConnectionUpdateDispatch)
  | answered (i : Nat) (response : Option QJsonObject)

section
variable (isEmpty : QString → Bool) (showUnlistedSevenTVEmotes : Bool)

/-- The place of the first connection to Twitch, or the number of connections. -/
def connectionIdx (connections : List QJsonValue) : Nat :=
  connections.findIdx fun conn =>
    QJsonValue.toString ((QJsonValue.toObject (some conn)).value (qs "platform")) = qs "TWITCH"

namespace TwitchChannel

/-- A user without emotes changes nothing. -/
def onUserLoaded (channel : TwitchChannel) (json : QJsonObject) : TwitchChannel :=
  let emoteSet := QJsonValue.toObject (json.value (qs "emote_set"))
  let emoteMap := parseEmotes isEmpty showUnlistedSevenTVEmotes (QJsonValue.toArray (emoteSet.value (qs "emotes"))) false
  let user := QJsonValue.toObject (json.value (qs "user"))
  if emoteMap.entries.isEmpty then channel
  else
    { channel with
      seventvEmotes := emoteMap
      info :=
        { seventvUserID := idOf user
          seventvEmoteSetID := idOf emoteSet
          seventvUserTwitchConnectionIndex := connectionIdx (QJsonValue.toArray (user.value (qs "connections"))) }
      fetched := (idOf emoteSet, emoteMap) :: channel.fetched }

/-- The emotes are shown whatever set the channel has by now. -/
def onEmoteSet (channel : TwitchChannel) (emoteSetId : QString) (json : QJsonObject) : TwitchChannel :=
  let emoteMap := parseEmotes isEmpty showUnlistedSevenTVEmotes (QJsonValue.toArray (json.value (qs "emotes"))) false
  { channel with seventvEmotes := emoteMap, fetched := (emoteSetId, emoteMap) :: channel.fetched }

/-- The update of another user does not come to the channel, and that of another connection is ignored. -/
def updateSeventvUser (channel : TwitchChannel) (dispatch : UserConnectionUpdateDispatch) : TwitchChannel :=
  if channel.info.seventvUserID ≠ dispatch.userID ∨
      dispatch.connectionIndex ≠ channel.info.seventvUserTwitchConnectionIndex then channel
  else
    { channel with
      info := (channel.info.updateSeventvUser dispatch).1
      inFlight := channel.inFlight ++ [.getEmoteSet dispatch.emoteSetID] }

/-- There is none where no such request is in flight. An error leaves the channel without emotes if it
was about a set, and changes nothing else. -/
def step (channel : TwitchChannel) : ChannelEvent → Option TwitchChannel
  | .refreshSevenTVChannelEmotes enabled =>
      if enabled then some { channel with inFlight := channel.inFlight ++ [.getUserByTwitchID] }
      else some { channel with seventvEmotes := ∅ }
  | .userUpdated dispatch => some (channel.updateSeventvUser dispatch)
  | .answered i response => do
      let request ← channel.inFlight[i]?
      let channel := { channel with inFlight := channel.inFlight.eraseIdx i }
      match request, response with
      | .getUserByTwitchID, some json => return channel.onUserLoaded isEmpty showUnlistedSevenTVEmotes json
      | .getUserByTwitchID, none => return channel
      | .getEmoteSet emoteSetId, some json => return channel.onEmoteSet isEmpty showUnlistedSevenTVEmotes emoteSetId json
      | .getEmoteSet _, none => return { channel with seventvEmotes := ∅ }

/-! ## The emotes that are shown -/

/-- No emotes are shown, or some that were fetched for the set of the channel. -/
def Current (channel : TwitchChannel) : Prop :=
  channel.seventvEmotes = ∅ ∨ (channel.info.seventvEmoteSetID, channel.seventvEmotes) ∈ channel.fetched

/-- The emotes of a set come while it is the set of the channel, or while those of the current one are
still on their way; or there are none. -/
def Timely (channel : TwitchChannel) : ChannelEvent → Prop
  | .answered i (some json) => ∀ emoteSetId ∈ channel.inFlight[i]?.bind Request.emoteSet?,
      emoteSetId = channel.info.seventvEmoteSetID ∨
      .getEmoteSet channel.info.seventvEmoteSetID ∈ channel.inFlight.eraseIdx i ∨
      parseEmotes isEmpty showUnlistedSevenTVEmotes (QJsonValue.toArray (json.value (qs "emotes"))) false = ∅
  | .answered _ none | .refreshSevenTVChannelEmotes _ | .userUpdated _ => True

instance (channel : TwitchChannel) : ∀ e, Decidable (channel.Timely isEmpty showUnlistedSevenTVEmotes e)
  | .answered _ (some _) => inferInstanceAs (Decidable (∀ emoteSetId ∈ Option.bind _ _, _ ∨ _ ∨ _))
  | .answered _ none | .refreshSevenTVChannelEmotes _ | .userUpdated _ => isTrue trivial

/-- The emotes are those of the set, or the set is being fetched. -/
def Settling (channel : TwitchChannel) : Prop :=
  channel.Current ∨ .getEmoteSet channel.info.seventvEmoteSetID ∈ channel.inFlight

end TwitchChannel

section
variable {isEmpty showUnlistedSevenTVEmotes} {channel next : TwitchChannel}

open TwitchChannel

theorem onUserLoaded_settling (settling : channel.Settling) (json : QJsonObject) :
    (channel.onUserLoaded isEmpty showUnlistedSevenTVEmotes json).Settling := by
  unfold onUserLoaded
  simp only
  split
  · exact settling
  · exact .inl (.inr List.mem_cons_self)

theorem updateSeventvUser_settling (settling : channel.Settling) (dispatch : UserConnectionUpdateDispatch) :
    (channel.updateSeventvUser dispatch).Settling := by
  unfold TwitchChannel.updateSeventvUser
  split
  · exact settling
  · next mine =>
    rw [not_or, not_ne_iff, not_ne_iff] at mine
    right
    have switched : (channel.info.updateSeventvUser dispatch).1.seventvEmoteSetID = dispatch.emoteSetID := by
      unfold ChannelInfo.updateSeventvUser ChannelInfo.updateSeventvData
      rw [if_neg (not_ne_iff.mpr mine.2)]
      split
      · next same => exact same.2
      · rfl
    simp only [switched]
    exact List.mem_append_right _ List.mem_cons_self

theorem step_settling {e : ChannelEvent} (settling : channel.Settling)
    (timely : channel.Timely isEmpty showUnlistedSevenTVEmotes e)
    (stepped : channel.step isEmpty showUnlistedSevenTVEmotes e = some next) : next.Settling := by
  cases e with
  | refreshSevenTVChannelEmotes enabled =>
    cases enabled with
    | true =>
      rw [← Option.some.inj stepped]
      exact settling.imp_right (List.mem_append_left _)
    | false =>
      rw [← Option.some.inj stepped]
      exact .inl (.inl rfl)
  | userUpdated dispatch =>
    rw [← Option.some.inj stepped]
    exact updateSeventvUser_settling settling dispatch
  | answered i response =>
    obtain ⟨request, asked, rest⟩ := Option.bind_eq_some_iff.mp stepped
    -- an answer to another request leaves the one for the current set in flight
    have stays : ∀ {request : Request}, channel.inFlight[i]? = some request →
        request ≠ .getEmoteSet channel.info.seventvEmoteSetID →
        ({ channel with inFlight := channel.inFlight.eraseIdx i } : TwitchChannel).Settling := by
      intro request asked other
      refine settling.imp_right fun waits => ?_
      obtain ⟨j, there⟩ := List.mem_iff_getElem?.mp waits
      refine List.mem_eraseIdx_iff_getElem?.mpr ⟨j, ?_, there⟩
      rintro rfl
      exact other (Option.some.inj (asked.symm.trans there))
    cases request with
    | getUserByTwitchID =>
      have left := stays asked (fun impossible => nomatch impossible)
      cases response with
      | none =>
        rw [← Option.some.inj rest]
        exact left
      | some json =>
        rw [← Option.some.inj rest]
        exact onUserLoaded_settling left json
    | getEmoteSet emoteSetId =>
      cases response with
      | none =>
        rw [← Option.some.inj rest]
        exact .inl (.inl rfl)
      | some json =>
        rw [← Option.some.inj rest]
        rcases timely emoteSetId (Option.bind_eq_some_iff.mpr ⟨_, asked, rfl⟩) with same | waits | nothing
        · subst same
          exact .inl (.inr List.mem_cons_self)
        · exact .inr waits
        · exact .inl (.inl nothing)

/-- In a run whose answers are timely, the emotes of a channel without requests are those of its set. -/
theorem emotes_current {events : List ChannelEvent} {final : TwitchChannel}
    (timely : Along (TwitchChannel.step isEmpty showUnlistedSevenTVEmotes)
      (TwitchChannel.Timely isEmpty showUnlistedSevenTVEmotes) {} events)
    (ran : run (TwitchChannel.step isEmpty showUnlistedSevenTVEmotes) {} events = some final)
    (idle : final.inFlight = []) : final.Current := by
  have settling : final.Settling :=
    run_invariant (fun _ _ _ settling timely stepped => step_settling settling timely stepped) timely ran (.inl (.inl rfl))
  apply settling.resolve_right
  rw [idle]
  exact List.not_mem_nil

end

end

/-- The answer for a set with one emote. -/
def setJson (id emote : QString) : QJsonObject :=
  [(qs "id", .string id), (qs "emotes", .array [.object (activeEmote emote emote emote)])]

/-- The answer for a user with a connection to Twitch. -/
def userJson (id : QString) (emoteSet : QJsonObject) : QJsonObject :=
  [(qs "emote_set", .object emoteSet), (qs "user", .object
    [(qs "id", .string id), (qs "connections", .array [.object [(qs "platform", .string (qs "TWITCH"))]])])]

/-- A channel whose user switches from one set to a second and a third one. -/
def switches : List ChannelEvent :=
  [.refreshSevenTVChannelEmotes true, .answered 0 (some (userJson (qs "user") (setJson (qs "A") (qs "a")))),
    .userUpdated ⟨qs "user", qs "B", 0⟩, .userUpdated ⟨qs "user", qs "C", 0⟩]

theorem emotes_current_inOrder :
    ∃ final, run (TwitchChannel.step (fun _ => false) false) {} (switches ++
      [.answered 0 (some (setJson (qs "B") (qs "b"))), .answered 0 (some (setJson (qs "C") (qs "c")))]) = some final ∧
      final.Current :=
  ⟨_, rfl, @emotes_current (fun _ => false) false (switches ++
    [.answered 0 (some (setJson (qs "B") (qs "b"))), .answered 0 (some (setJson (qs "C") (qs "c")))]) _ (by decide) rfl rfl⟩

/-- The emotes of the second set come last. -/
theorem emotes_overtaken : ¬ ∀ (isEmpty : QString → Bool) (showUnlistedSevenTVEmotes : Bool) (events : List ChannelEvent)
    (final : TwitchChannel), run (TwitchChannel.step isEmpty showUnlistedSevenTVEmotes) {} events = some final →
      final.inFlight = [] → final.Current := by
  intro claim
  have current := claim (fun _ => false) false (switches ++
    [.answered 1 (some (setJson (qs "C") (qs "c"))), .answered 0 (some (setJson (qs "B") (qs "b")))]) _ rfl rfl
  rcases current with nothing | among
  · exact absurd (congrArg (fun emotes : EmoteMap => emotes.entries.length) nothing) (by decide)
  · -- the third set was fetched without the emote of the second
    have seen := List.mem_map_of_mem (f := fun entry : QString × EmoteMap => (entry.1, (entry.2.lookup (qs "b")).isSome)) among
    exact absurd seen (by decide)

end Forserino.LiveEmotes.Seventv
