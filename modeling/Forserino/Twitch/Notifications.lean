import Forserino.Twitch.LiveController

/-! Notifications of channels that go live. Channels that are not open have no TwitchChannel; the controller asks
for them itself and remembers what it has heard.
-/

set_option autoImplicit false

namespace Forserino.Twitch

open Foundation Qt

/-- The settings that are read when a channel goes live, with whether the streamer mode is enabled. -/
structure NotificationSettings where
  suppressInitialLiveNotification : Bool
  streamerMode : Bool
  streamerModeSuppressLiveNotifications : Bool
  toasts : Bool
  notificationPlaySound : Bool
  notificationFlashTaskbar : Bool
  notificationOnAnyChannel : Bool
  deriving DecidableEq, Repr

structure NotificationPayload where
  channelId : QString
  channelName : QString
  displayName : QString
  title : QString
  isInitialUpdate : Bool
  deriving DecidableEq, Repr

inductive Effect where
  | toast (channelName title : QString)
  | playSound
  | alert
  deriving DecidableEq, Repr

/-- A channel without a TwitchChannel; it has no id before it was live. -/
structure FakeChannel where
  id : Option QString
  isLive : Bool
  deriving DecidableEq, Repr

/-- A message in the channel /live. -/
structure LiveMessage where
  displayName : QString
  id : QString
  disabled : Bool
  deriving DecidableEq, Repr

/-- A stream in an answer, with the login of its user. -/
structure LiveStream where
  userLogin : QString
  stream : HelixStream
  deriving DecidableEq, Repr

/-- Fake channels are named by the folded name. What is said of a channel that was updated is whether it is live and
whether this is the first thing known of it. -/
inductive Notice where
  | erased (key : QString)
  | updated (key : QString) (live : Bool) (said : Option (Bool × Bool))
  deriving DecidableEq, Repr

structure NotificationController where
  channelMap : List QString
  fakeChannels : AList fun _ : QString => FakeChannel
  /-- The batches of which no answer has arrived yet. -/
  fetching : List (List QString)
  liveMessages : List LiveMessage
  effects : List Effect
  history : List Notice

namespace NotificationController

def new (twitchSetting : List QString) : NotificationController := ⟨twitchSetting, ∅, [], [], [], []⟩

variable (caseFold : QString → QString)

def isChannelNotified (controller : NotificationController) (channelName : QString) : Bool :=
  controller.channelMap.any fun name => caseFold name == caseFold channelName

def addChannelNotification (controller : NotificationController) (channelName : QString) : NotificationController :=
  { controller with channelMap := controller.channelMap ++ [channelName] }

/-- The loop stays at its index when an item is removed there. -/
def removeLoop (channelName : QString) (passed : List QString) : List QString → List QString
  | [] => passed
  | name :: rest =>
    if caseFold name = caseFold channelName then removeLoop channelName passed rest
    else removeLoop channelName (passed ++ [name]) rest

def removeChannelNotification (controller : NotificationController) (channelName : QString) : NotificationController :=
  { controller with channelMap := removeLoop caseFold channelName [] controller.channelMap }

def updateChannelNotification (controller : NotificationController) (channelName : QString) : NotificationController :=
  if controller.isChannelNotified caseFold channelName then controller.removeChannelNotification caseFold channelName
  else controller.addChannelNotification channelName

/-- What is shown and played, apart from the message in /live. -/
def liveEffects (settings : NotificationSettings) (notified : Bool) (payload : NotificationPayload) : List Effect :=
  let showNotification := !(settings.suppressInitialLiveNotification && payload.isInitialUpdate) &&
    !(settings.streamerMode && settings.streamerModeSuppressLiveNotifications)
  let playedSound := showNotification && notified && settings.notificationPlaySound
  (if showNotification && notified && settings.toasts then [.toast payload.channelName payload.title] else []) ++
    (if playedSound then [.playSound] else []) ++
    (if showNotification && notified && settings.notificationFlashTaskbar then [.alert] else []) ++
    if showNotification && !playedSound && settings.notificationOnAnyChannel then [.playSound] else []

def notifyTwitchChannelLive (settings : NotificationSettings) (controller : NotificationController)
    (payload : NotificationPayload) : NotificationController :=
  { controller with
    effects := controller.effects ++ liveEffects settings (controller.isChannelNotified caseFold payload.channelName) payload
    liveMessages := controller.liveMessages ++ [⟨payload.displayName, payload.channelId, false⟩] }

/-- The loop over the newest messages, the last one first. -/
def disableNewest (id : QString) : Nat → List LiveMessage → List LiveMessage
  | 0, messages => messages
  | _, [] => []
  | count + 1, s :: rest =>
    if s.id = id then { s with disabled := true } :: rest else s :: disableNewest id count rest

def notifyTwitchChannelOffline (controller : NotificationController) (id : QString) : NotificationController :=
  { controller with liveMessages := (disableNewest id 200 controller.liveMessages.reverse).reverse }

/-- Channels that are open are not fake any more, all others are asked for. -/
def fetchFakeChannels (isOpen : QString → Bool) (controller : NotificationController) : NotificationController :=
  let opened := (controller.channelMap.filter isOpen).map caseFold
  { controller with
    fakeChannels := opened.foldl (fun fakeChannels key => fakeChannels.erase key) controller.fakeChannels
    fetching := controller.fetching ++ splitListIntoBatches BATCH_SIZE (controller.channelMap.filter (!isOpen ·))
    history := controller.history ++ opened.map .erased }

/-- A channel that is not found is made. -/
def updateFound (settings : NotificationSettings) (controller : NotificationController) (channelName : QString)
    (stream : Option HelixStream) (found : Option FakeChannel) : NotificationController :=
  let key := caseFold channelName
  let live := stream.isSome
  let isInitialUpdate := found.isNone
  let channel := found.getD ⟨none, live⟩
  if channel.isLive = live ∧ isInitialUpdate = false then
    { controller with history := controller.history ++ [.updated key live none] }
  else
    let id := channel.id.or (stream.map HelixStream.userId)
    let updated := { controller with
      fakeChannels := controller.fakeChannels.insert key ⟨id, live⟩
      history := controller.history ++ [Notice.updated key live (some (live, isInitialUpdate))] }
    match stream with
    | none => updated.notifyTwitchChannelOffline (id.getD [])
    | some stream =>
      updated.notifyTwitchChannelLive caseFold settings
        ⟨stream.userId, channelName, stream.userName, stream.title, isInitialUpdate⟩

def updateFakeChannel (settings : NotificationSettings) (controller : NotificationController) (channelName : QString)
    (stream : Option HelixStream) : NotificationController :=
  controller.updateFound caseFold settings channelName stream (controller.fakeChannels.lookup (caseFold channelName))

/-- The first stream of a user is kept. -/
def streamOf (streams : List LiveStream) (channelName : QString) : Option HelixStream :=
  (streams.find? fun live => caseFold live.userLogin == caseFold channelName).map LiveStream.stream

def streamsFetched (settings : NotificationSettings) (controller : NotificationController) (batch : List QString)
    (streams : List LiveStream) : NotificationController :=
  batch.foldl (fun controller name => controller.updateFakeChannel caseFold settings name (streamOf caseFold streams name))
    controller

/-- The names can be edited in the settings; an answer is empty when the request has failed. A TwitchChannel notifies of
itself in the same /live channel. -/
inductive Event where
  | namesEdited (names : List QString)
  | updateChannelNotification (channelName : QString)
  | liveStatusTimer (isOpen : QString → Bool)
  | streams (settings : NotificationSettings) (batch : List QString) (answer : Option (List LiveStream))
  | channelLive (settings : NotificationSettings) (payload : NotificationPayload)
  | channelOffline (roomId : QString)

def step (controller : NotificationController) : Event → Option NotificationController
  | .namesEdited names => some { controller with channelMap := names }
  | .updateChannelNotification channelName => some (controller.updateChannelNotification caseFold channelName)
  | .liveStatusTimer isOpen => some (controller.fetchFakeChannels caseFold isOpen)
  | .streams settings batch answer =>
      if controller.fetching.contains batch then
        let controller := { controller with fetching := controller.fetching.erase batch }
        some (match answer with
          | some streams => controller.streamsFetched caseFold settings batch streams
          | none => controller)
      else none
  | .channelLive settings payload => some (controller.notifyTwitchChannelLive caseFold settings payload)
  | .channelOffline roomId => some (controller.notifyTwitchChannelOffline roomId)

/-! ## What the history says -/

/-- Whether the channel is live, as far as it was heard of since it is fake. -/
def hears (key : QString) (known : Option Bool) : Notice → Option Bool
  | .erased erased => if erased = key then none else known
  | .updated updated live _ => if updated = key then some live else known

def known (history : List Notice) (key : QString) : Option Bool := history.foldl (hears key) none

/-- What is to be said of a channel of which it is known whether it was live. -/
def turn (live : Bool) : Option Bool → Option (Bool × Bool)
  | none => some (live, true)
  | some was => if was = live then none else some (live, false)

def Suits (before : List Notice) : Notice → Prop
  | .erased _ => True
  | .updated key live said => said = turn live (known before key)

structure Sound (controller : NotificationController) : Prop where
  remembers : ∀ key, (controller.fakeChannels.lookup key).map FakeChannel.isLive = known controller.history key
  suits : Throughout Suits controller.history

section
variable {history : List Notice}

@[simp] theorem known_concat (notice : Notice) (key : QString) :
    known (history ++ [notice]) key = hears key (known history key) notice := by
  simp [known]

theorem known_erased (opened : List QString) (key : QString) :
    known (history ++ opened.map .erased) key = if key ∈ opened then none else known history key := by
  induction opened generalizing history with
  | nil => simp
  | cons erased opened ih =>
    rw [List.map_cons, List.append_cons, ih, known_concat, hears]
    by_cases same : erased = key
    · simp [same]
    · simp [same, Ne.symm same]

end

theorem lookup_eraseAll (opened : List QString) (channels : AList fun _ : QString => FakeChannel) (key : QString) :
    (opened.foldl (fun fakeChannels key => fakeChannels.erase key) channels).lookup key =
      if key ∈ opened then none else channels.lookup key := by
  induction opened generalizing channels with
  | nil => simp
  | cons erased opened ih =>
    rw [List.foldl_cons, ih]
    by_cases same : key = erased
    · subst same
      simp
    · simp [same, AList.lookup_erase_ne same]

variable {caseFold} {settings : NotificationSettings} {controller next : NotificationController}

theorem sound_new (twitchSetting : List QString) : Sound (new twitchSetting) :=
  ⟨fun _ => rfl, throughout_nil⟩

@[simp] theorem notifyTwitchChannelLive_history (payload : NotificationPayload) :
    (controller.notifyTwitchChannelLive caseFold settings payload).history = controller.history := rfl

@[simp] theorem notifyTwitchChannelLive_fakeChannels (payload : NotificationPayload) :
    (controller.notifyTwitchChannelLive caseFold settings payload).fakeChannels = controller.fakeChannels := rfl

@[simp] theorem notifyTwitchChannelOffline_history (id : QString) :
    (controller.notifyTwitchChannelOffline id).history = controller.history := rfl

@[simp] theorem notifyTwitchChannelOffline_fakeChannels (id : QString) :
    (controller.notifyTwitchChannelOffline id).fakeChannels = controller.fakeChannels := rfl

theorem updateFound_history (channelName : QString) (stream : Option HelixStream) (found : Option FakeChannel) :
    (controller.updateFound caseFold settings channelName stream found).history = controller.history ++
      [.updated (caseFold channelName) stream.isSome (turn stream.isSome (found.map FakeChannel.isLive))] := by
  unfold updateFound
  cases found with
  | none => cases stream <;> simp [turn]
  | some channel =>
    by_cases same : channel.isLive = stream.isSome
    · simp [turn, same]
    · cases stream <;> simp_all [turn]

theorem updateFound_lookup (channelName : QString) (stream : Option HelixStream) (key : QString) :
    ((controller.updateFound caseFold settings channelName stream
        (controller.fakeChannels.lookup (caseFold channelName))).fakeChannels.lookup key).map FakeChannel.isLive =
      if key = caseFold channelName then some stream.isSome
      else (controller.fakeChannels.lookup key).map FakeChannel.isLive := by
  unfold updateFound
  cases found : controller.fakeChannels.lookup (caseFold channelName) with
  | none =>
    by_cases here : key = caseFold channelName
    · subst here
      cases stream <;> simp
    · cases stream <;> simp [here, AList.lookup_insert_ne here]
  | some channel =>
    by_cases same : channel.isLive = stream.isSome
    · by_cases here : key = caseFold channelName
      · subst here
        simp [same, found]
      · simp [same, here]
    · by_cases here : key = caseFold channelName
      · subst here
        cases stream <;> simp_all
      · cases stream <;> simp_all [AList.lookup_insert_ne here]

theorem Sound.updateFakeChannel (sound : Sound controller) (settings : NotificationSettings) (channelName : QString)
    (stream : Option HelixStream) : Sound (controller.updateFakeChannel caseFold settings channelName stream) := by
  constructor
  case remembers =>
    intro key
    rw [NotificationController.updateFakeChannel, updateFound_history, updateFound_lookup, known_concat, hears,
      sound.remembers]
    exact if_congr eq_comm rfl rfl
  case suits =>
    rw [NotificationController.updateFakeChannel, updateFound_history, sound.remembers]
    exact sound.suits.concat rfl

theorem Sound.fetchFakeChannels (sound : Sound controller) (isOpen : QString → Bool) :
    Sound (controller.fetchFakeChannels caseFold isOpen) := by
  constructor
  case remembers =>
    intro key
    rw [NotificationController.fetchFakeChannels, known_erased, lookup_eraseAll, ← sound.remembers]
    split <;> rfl
  case suits =>
    refine sound.suits.append fun before notice member => ?_
    obtain ⟨key, -, rfl⟩ := List.mem_map.mp member
    exact trivial

theorem Sound.streamsFetched (sound : Sound controller) (settings : NotificationSettings) (batch : List QString)
    (streams : List LiveStream) : Sound (controller.streamsFetched caseFold settings batch streams) := by
  unfold NotificationController.streamsFetched
  induction batch generalizing controller with
  | nil => exact sound
  | cons name batch ih => exact ih (sound.updateFakeChannel settings name (streamOf caseFold streams name))

theorem Sound.step {event : Event} (sound : Sound controller) (taken : step caseFold controller event = some next) :
    Sound next := by
  cases event with
  | namesEdited names =>
    obtain rfl := Option.some.inj taken
    exact ⟨sound.remembers, sound.suits⟩
  | updateChannelNotification channelName =>
    obtain rfl := Option.some.inj taken
    unfold NotificationController.updateChannelNotification
    split <;> exact ⟨sound.remembers, sound.suits⟩
  | liveStatusTimer isOpen =>
    obtain rfl := Option.some.inj taken
    exact sound.fetchFakeChannels isOpen
  | streams settings batch answer =>
    obtain ⟨-, answered⟩ := Option.ite_none_right_eq_some.mp taken
    obtain rfl := Option.some.inj answered
    have kept : Sound { controller with fetching := controller.fetching.erase batch } := ⟨sound.remembers, sound.suits⟩
    cases answer with
    | none => exact kept
    | some streams => exact kept.streamsFetched settings batch streams
  | channelLive settings payload =>
    obtain rfl := Option.some.inj taken
    exact ⟨sound.remembers, sound.suits⟩
  | channelOffline roomId =>
    obtain rfl := Option.some.inj taken
    exact ⟨sound.remembers, sound.suits⟩

/-- Nothing is suppressed, and nothing plays or shows. -/
def quiet : NotificationSettings := ⟨false, false, false, false, false, false, false⟩

def Notice.said? : Notice → Option (Bool × Bool)
  | .updated _ _ said => said
  | .erased _ => none

def Entry.announced? : Entry → Option (Bool × Bool)
  | .added _ _ | .updated _ _ _ _ => none
  | .announced _ isLive isInitialUpdate => some (isLive, isInitialUpdate)

/-- What is said of a channel when these are the answers. -/
def turns : Option Bool → List Bool → List (Bool × Bool)
  | _, [] => []
  | known, live :: rest => (turn live known).toList ++ turns (some live) rest

theorem fake_turns (channelName : QString) (answers : List (Option HelixStream)) {known : Option Bool}
    (remembered : (controller.fakeChannels.lookup (caseFold channelName)).map FakeChannel.isLive = known) :
    ∃ notices, (answers.foldl (fun controller answer => controller.updateFakeChannel caseFold settings channelName answer)
        controller).history = controller.history ++ notices ∧
      notices.filterMap Notice.said? = turns known (answers.map Option.isSome) := by
  induction answers generalizing controller known with
  | nil => exact ⟨[], (List.append_nil _).symm, rfl⟩
  | cons answer answers ih =>
    have now : ((controller.updateFakeChannel caseFold settings channelName answer).fakeChannels.lookup
        (caseFold channelName)).map FakeChannel.isLive = some answer.isSome :=
      (updateFound_lookup channelName answer (caseFold channelName)).trans (if_pos rfl)
    obtain ⟨notices, same, said⟩ := ih now
    have taken : (controller.updateFakeChannel caseFold settings channelName answer).history = controller.history ++
        [.updated (caseFold channelName) answer.isSome (turn answer.isSome known)] := by
      rw [updateFakeChannel, updateFound_history, remembered]
    rw [taken] at same
    refine ⟨_, same.trans (List.append_assoc _ _ _), ?_⟩
    rw [List.singleton_append, List.filterMap_cons, said, List.map_cons, turns]
    cases turn answer.isSome known <;> simp [Notice.said?]

/-- A channel with a TwitchChannel is remembered, and offline before it is checked for the first time. -/
theorem real_turns {live : TwitchLiveController} {id : QString} {object : Nat} {wasChecked : Bool} {channel : StreamChannel}
    (added : live.channels.lookup id = some ⟨object, wasChecked⟩) (held : live.lock object = some channel)
    (offline : wasChecked = false → channel.live = false) (answers : List (Option HelixStream)) :
    ∃ entries, (answers.foldl (fun state answer => TwitchLiveController.applyResult state id answer) (live, [])).1.history =
        live.history ++ entries ∧
      (if wasChecked = false ∧ answers.head? = some none then [(false, true)] else []) ++
          entries.filterMap Entry.announced? =
        turns (if wasChecked then some channel.live else none) (answers.map Option.isSome) := by
  induction answers generalizing live wasChecked channel with
  | nil => exact ⟨[], (List.append_nil _).symm, by simp [turns]⟩
  | cons answer answers ih =>
    have now : TwitchLiveController.applyResult (live, []) id answer =
        (live.updateChannel id ⟨object, wasChecked⟩ channel answer, []) := by
      simp [TwitchLiveController.applyResult, added, held]
    have added' : (live.updateChannel id ⟨object, wasChecked⟩ channel answer).channels.lookup id = some ⟨object, true⟩ := by
      rw [TwitchLiveController.updateChannel_channels, AList.lookup_insert]
    have held' : (live.updateChannel id ⟨object, wasChecked⟩ channel answer).lock object = some { channel with
        title := (answer.map HelixStream.title).getD channel.title, live := answer.isSome } :=
      (TwitchLiveController.updateChannel_lock id held answer object).trans (if_pos rfl)
    obtain ⟨entries, same, said⟩ := ih added' held' (fun impossible => by cases impossible)
    rw [TwitchLiveController.updateChannel_history] at same
    rw [List.foldl_cons, now]
    refine ⟨_, same.trans (List.append_assoc _ _ _), ?_⟩
    rw [List.map_cons, turns]
    have rest : entries.filterMap Entry.announced? = turns (some answer.isSome) (answers.map Option.isSome) := by
      simpa using said
    cases wasChecked with
    | true =>
      by_cases stays : channel.live = answer.isSome <;> simp [turn, stays, rest, Entry.announced?, List.filterMap_cons]
    | false =>
      rw [offline rfl]
      cases answer <;> simp [turn, rest, Entry.announced?, List.filterMap_cons]

/-- The same answers make a channel that is not open say what a channel that is open would announce; it only says too
that it is offline at first. -/
theorem fake_as_real (settings : NotificationSettings) {channelName : QString}
    (unknown : controller.fakeChannels.lookup (caseFold channelName) = none) {live : TwitchLiveController} {id : QString}
    {object : Nat} {channel : StreamChannel} (added : live.channels.lookup id = some ⟨object, false⟩)
    (held : live.lock object = some channel) (offline : channel.live = false) (answers : List (Option HelixStream)) :
    ∃ notices entries,
      (answers.foldl (fun controller answer => controller.updateFakeChannel caseFold settings channelName answer)
        controller).history = controller.history ++ notices ∧
      (answers.foldl (fun state answer => TwitchLiveController.applyResult state id answer) (live, [])).1.history =
        live.history ++ entries ∧
      notices.filterMap Notice.said? =
        (if answers.head? = some none then [(false, true)] else []) ++ entries.filterMap Entry.announced? := by
  have remembered : (controller.fakeChannels.lookup (caseFold channelName)).map FakeChannel.isLive = none := by
    rw [unknown]
    rfl
  obtain ⟨notices, fake, said⟩ := @fake_turns caseFold settings controller channelName answers none remembered
  obtain ⟨entries, real, announced⟩ := real_turns added held (fun _ => offline) answers
  refine ⟨notices, entries, fake, real, ?_⟩
  simpa using said.trans announced.symm

theorem fake_as_real_late : ∃ live, run TwitchLiveController.step TwitchLiveController.new
    [.created, .roomIdChanged 0 [0x31]] = some live ∧ ∃ notices entries,
      ([none, some ⟨[0x31], [], []⟩].foldl (fun controller answer => controller.updateFakeChannel id quiet [0x61] answer)
        (new [[0x61]])).history = (new [[0x61]]).history ++ notices ∧
      ([none, some ⟨[0x31], [], []⟩].foldl (fun state answer => TwitchLiveController.applyResult state [0x31] answer)
        (live, [])).1.history = live.history ++ entries ∧
      notices.filterMap Notice.said? =
        (if [none, some (⟨[0x31], [], []⟩ : HelixStream)].head? = some none then [(false, true)] else []) ++
          entries.filterMap Entry.announced? := by
  obtain ⟨live, ran, added, held⟩ : ∃ live, run TwitchLiveController.step TwitchLiveController.new
    [.created, .roomIdChanged 0 [0x31]] = some live ∧ live.channels.lookup [0x31] = some ⟨0, false⟩ ∧
      live.lock 0 = some ⟨[0x31], [], false, true⟩ := ⟨_, rfl, rfl, rfl⟩
  exact ⟨live, ran, fake_as_real quiet rfl added held rfl _⟩

/-! ## Which channels are notified -/

theorem removeLoop_eq (channelName : QString) (passed names : List QString) :
    removeLoop caseFold channelName passed names =
      passed ++ names.filter fun name => caseFold name ≠ caseFold channelName := by
  induction names generalizing passed with
  | nil => simp [removeLoop]
  | cons name names ih =>
    rw [removeLoop]
    by_cases same : caseFold name = caseFold channelName <;> simp [same, ih]

/-- What is switched is this channel, in whatever case it is written, and no other one. -/
theorem updateChannelNotification_toggles (channelName other : QString) :
    (controller.updateChannelNotification caseFold channelName).isChannelNotified caseFold other =
      if caseFold other = caseFold channelName then !controller.isChannelNotified caseFold other
      else controller.isChannelNotified caseFold other := by
  have same_as : caseFold other = caseFold channelName →
      controller.isChannelNotified caseFold other = controller.isChannelNotified caseFold channelName := by
    intro same
    simp only [isChannelNotified, same]
  unfold updateChannelNotification
  cases notified : controller.isChannelNotified caseFold channelName with
  | true =>
    rw [if_pos rfl, isChannelNotified, removeChannelNotification, removeLoop_eq, List.nil_append, List.any_filter]
    by_cases same : caseFold other = caseFold channelName
    · rw [if_pos same, same_as same, notified, same]
      simp
    · rw [if_neg same, isChannelNotified]
      refine congrArg (List.any controller.channelMap) (funext fun name => ?_)
      by_cases here : caseFold name = caseFold other <;> simp [here, same]
  | false =>
    rw [if_neg Bool.false_ne_true, isChannelNotified, addChannelNotification, List.any_append]
    by_cases same : caseFold other = caseFold channelName
    · rw [if_pos same, same_as same, notified, same]
      simp
    · rw [if_neg same]
      simp [isChannelNotified, Ne.symm same]

/-- However many things there are to play for, it is played once at most, and not at all in the streamer mode. -/
theorem liveEffects_sounds (settings : NotificationSettings) (notified : Bool) (payload : NotificationPayload) :
    (liveEffects settings notified payload).count .playSound ≤ 1 ∧
      ((settings.streamerMode && settings.streamerModeSuppressLiveNotifications) = true →
        liveEffects settings notified payload = []) := by
  unfold liveEffects
  constructor
  · dsimp only
    generalize (!(settings.suppressInitialLiveNotification && payload.isInitialUpdate) &&
      !(settings.streamerMode && settings.streamerModeSuppressLiveNotifications)) = showNotification
    -- it is played for the channel or, if not, for any channel
    generalize (showNotification && notified && settings.notificationPlaySound) = playedSound
    cases playedSound <;> split_ifs <;> simp_all
  · intro suppressed
    simp_all

end NotificationController

end Forserino.Twitch
