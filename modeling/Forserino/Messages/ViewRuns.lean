import Forserino.Foundation.Runs
import Forserino.Messages.ViewFillIn

/-! A channel view over whole runs of its underlying channel.

The view mirrors the channel as long as every signal is one that its handlers pass on. A
replacement has to pass the filters where the replaced message does, messages that are
filled in have to come to the same place among those that pass the filters, and there must
be nothing to clear, as only the layouts are cleared.
-/

set_option autoImplicit false

namespace Forserino.Messages

open Forserino.Qt
open Foundation

universe u

section
variable {M : Type u} [DecidableEq M] (info : M → MessageInfo) (ignoresHighlights : Bool) (filters : Filters M)

instance (watched : Watched M) (messages : List M) : Decidable (InPlace info filters watched messages) :=
  decidable_of_iff
    (messages.Pairwise (fun a b => (info a).serverReceivedTime ≤ (info b).serverReceivedTime) ∧
      (watched.signalled ++ messages).Nodup ∧
      ∀ m ∈ messages, filters.shouldIncludeMessage m = true →
        Placed info filters.shouldIncludeMessage watched.view.limit watched.signalled watched.view.items m)
    ⟨fun parts => ⟨parts.1, parts.2.1, parts.2.2⟩,
      fun inPlace => ⟨inPlace.ascending, inPlace.distinct, inPlace.placed⟩⟩

/-- The signal is one that the handlers of the view pass on. -/
def Watched.Handles (watched : Watched M) : Signal M → Prop
  | .messageAppended message currentDate =>
      filters.shouldIncludeMessage message = true →
        watched.view.HasRoom (if watched.view.channel.lastDate = currentDate then 1 else 2)
  | .messagesAddedAtStart messages =>
      watched.view.HasRoom (messages.filter filters.shouldIncludeMessage).length
  | .messageReplaced _ prev replacement =>
      prev ∈ watched.signalled →
        (filters.shouldIncludeMessage prev = true → watched.signalled.count prev = 1) ∧
          (filters.shouldIncludeMessage prev = filters.shouldIncludeMessage replacement ∨
            watched.Evicted filters prev)
  | .filledInMessages messages =>
      watched.view.HasRoom (messages.filter filters.shouldIncludeMessage).length ∧
        (watched.signalled = [] ∨ InPlace info filters watched messages)
  | .messagesCleared => watched.view.items = []

instance (watched : Watched M) : ∀ signal, Decidable (watched.Handles info filters signal)
  | .messageAppended _ _ => inferInstanceAs (Decidable (_ → _))
  | .messagesAddedAtStart _ => inferInstanceAs (Decidable (ChannelView.HasRoom _ _))
  | .messageReplaced _ _ _ => inferInstanceAs (Decidable (_ → _))
  | .filledInMessages _ => inferInstanceAs (Decidable (_ ∧ _))
  | .messagesCleared => inferInstanceAs (Decidable (_ = _))

variable {info ignoresHighlights filters} {limit : Nat}

omit [DecidableEq M] in
/-- Only the layouts are cleared, which is enough where there are none. -/
theorem clearMessages_settled {watched : Watched M} (settled : watched.Settled filters limit)
    (nothing : watched.view.items = []) :
    Watched.Settled filters limit ⟨[], watched.view.clearMessages⟩ := by
  constructor
  case toMirrors =>
    constructor
    case shown =>
      refine ⟨[], ?_, .inl rfl⟩
      show [] = [] ++ messagesOf watched.view.items
      rw [nothing]
      rfl
    case laidOut =>
      show [] = watched.view.items
      rw [nothing]
  case last => exact settled.last
  case limited => exact settled.limited

/-- A signal that is passed on keeps the view in step with the channel. -/
theorem step_settled {watched : Watched M} (settled : watched.Settled filters limit) (positive : 0 < limit)
    (small : limit ≤ 2 ^ 31) {signal : Signal M} (handles : watched.Handles info filters signal) :
    ∃ next, watched.step info ignoresHighlights filters signal = some next ∧ next.Settled filters limit := by
  cases signal with
  | messageAppended message currentDate =>
    obtain ⟨after, received, isSettled⟩ := onMessageAppended_settled ignoresHighlights settled positive handles
    exact ⟨_, Option.map_eq_some_iff.mpr ⟨after, received, rfl⟩, isSettled⟩
  | messagesAddedAtStart messages =>
    obtain ⟨after, received, isSettled⟩ := onMessagesAddedAtStart_settled settled handles
    exact ⟨_, Option.map_eq_some_iff.mpr ⟨after, received, rfl⟩, isSettled⟩
  | messageReplaced index prev replacement =>
    exact ⟨_, rfl, onMessageReplaced_settled settled small handles⟩
  | filledInMessages messages =>
    obtain ⟨room, inPlace⟩ := handles
    obtain ⟨after, received, isSettled⟩ :=
      onFilledInMessages_settled ignoresHighlights settled positive room inPlace
    exact ⟨_, Option.map_eq_some_iff.mpr ⟨after, received, rfl⟩, isSettled⟩
  | messagesCleared => exact ⟨_, rfl, clearMessages_settled settled handles⟩

theorem run_settled {watched : Watched M} (settled : watched.Settled filters limit) (positive : 0 < limit)
    (small : limit ≤ 2 ^ 31) {signals : List (Signal M)}
    (along : Along (Watched.step info ignoresHighlights filters) (Watched.Handles info filters) watched signals) :
    ∃ final, run (Watched.step info ignoresHighlights filters) watched signals = some final ∧
      final.Settled filters limit := by
  induction signals generalizing watched with
  | nil => exact ⟨watched, rfl, settled⟩
  | cons signal signals ih =>
    obtain ⟨next, taken, isSettled⟩ := step_settled settled positive small along.1
    obtain ⟨final, ran, finally_⟩ := ih isSettled (along.next taken)
    exact ⟨final, Option.bind_eq_some_iff.mpr ⟨next, taken, ran⟩, finally_⟩

/-! ## The start -/

omit [DecidableEq M] in
/-- The messages of the channel are copied one after the other. -/
theorem copyMessages_settled {seen : List M} {view : ChannelView M} (messages : List M)
    (settled : Watched.Settled filters limit ⟨seen, view⟩) (positive : 0 < limit)
    (room : view.HasRoom (messages.filter filters.shouldIncludeMessage).length) :
    ∃ after, messages.foldlM (ChannelView.copyMessage ignoresHighlights filters) view = some after ∧
      Watched.Settled filters limit ⟨seen ++ messages, after⟩ := by
  induction messages generalizing seen view with
  | nil => exact ⟨view, rfl, by simpa using settled⟩
  | cons m messages ih =>
    rw [List.foldlM_cons]
    have copied : ∃ next, view.copyMessage ignoresHighlights filters m = some next ∧
        Watched.Settled filters limit ⟨seen ++ [m], next⟩ ∧
        next.HasRoom (messages.filter filters.shouldIncludeMessage).length := by
      unfold ChannelView.copyMessage
      by_cases passes : filters.shouldIncludeMessage m = true
      · rw [List.filter_cons_of_pos passes, List.length_cons] at room
        have limited : view.limit = limit := settled.limited
        obtain ⟨next, added, isAdded⟩ := addMessage_added ignoresHighlights (.message m)
          (limited ▸ positive) settled.laidOut (room.weaken (by omega))
        rw [if_pos passes]
        exact ⟨next, added, isAdded.settled positive limited settled.shown passes, isAdded.hasRoom room⟩
      · rw [List.filter_cons_of_neg passes] at room
        rw [if_neg passes]
        refine ⟨view, rfl, ⟨⟨?_, settled.laidOut⟩, settled.last, settled.limited⟩, room⟩
        rw [List.filter_append, List.filter_cons_of_neg passes, List.filter_nil, List.append_nil]
        exact settled.shown
    obtain ⟨next, copiedOne, isSettled, roomBehind⟩ := copied
    obtain ⟨after, copiedAll, finally_⟩ := ih isSettled roomBehind
    rw [List.append_assoc, List.singleton_append] at finally_
    exact ⟨after, Option.bind_eq_some_iff.mpr ⟨next, copiedOne, copiedAll⟩, finally_⟩

omit [DecidableEq M] in
theorem setChannel_settled {scrollbackSplitLimit messagesLimit : Nat} (positive : 0 < scrollbackSplitLimit)
    (currentDate : Int) {snapshot : List M}
    (room : messagesLimit = scrollbackSplitLimit ∨
      (snapshot.filter filters.shouldIncludeMessage).length ≤ messagesLimit ∧
        (snapshot.filter filters.shouldIncludeMessage).length ≤ scrollbackSplitLimit) :
    ∃ view, ChannelView.setChannel ignoresHighlights filters scrollbackSplitLimit messagesLimit currentDate
        snapshot = some view ∧
      Watched.Settled filters scrollbackSplitLimit ⟨snapshot, view⟩ := by
  have empty : Watched.Settled filters scrollbackSplitLimit
      ⟨[], ⟨⟨.new scrollbackSplitLimit, currentDate⟩, .new messagesLimit, false, true⟩⟩ := by
    refine ⟨⟨⟨[], rfl, .inl rfl⟩, rfl⟩, ?_, rfl⟩
    intro item none_
    cases none_
  apply copyMessages_settled snapshot empty positive
  rcases room with same | ⟨layouts, proxy⟩
  · exact .inl same
  · right
    show 0 + _ ≤ messagesLimit ∧ 0 + _ ≤ scrollbackSplitLimit
    omega

/-! ## Every run -/

/-- The view mirrors the channel in every run in which each signal is passed on. -/
theorem view_mirrors (info : M → MessageInfo) (ignoresHighlights : Bool) (filters : Filters M)
    {scrollbackSplitLimit messagesLimit : Nat} (positive : 0 < scrollbackSplitLimit)
    (small : scrollbackSplitLimit ≤ 2 ^ 31) (currentDate : Int) {snapshot : List M}
    (room : messagesLimit = scrollbackSplitLimit ∨
      (snapshot.filter filters.shouldIncludeMessage).length ≤ messagesLimit ∧
        (snapshot.filter filters.shouldIncludeMessage).length ≤ scrollbackSplitLimit) :
    ∃ view, ChannelView.setChannel ignoresHighlights filters scrollbackSplitLimit messagesLimit currentDate
        snapshot = some view ∧
      ∀ signals, Along (Watched.step info ignoresHighlights filters) (Watched.Handles info filters)
          ⟨snapshot, view⟩ signals →
        ∃ final, run (Watched.step info ignoresHighlights filters) ⟨snapshot, view⟩ signals = some final ∧
          final.Mirrors filters := by
  obtain ⟨view, set_, settled⟩ := @setChannel_settled _ ignoresHighlights _ _ _ positive currentDate _ room
  refine ⟨view, set_, ?_⟩
  intro signals along
  obtain ⟨final, ran, finally_⟩ := run_settled settled positive small along
  exact ⟨final, ran, finally_.toMirrors⟩

end

/-! ## Runs with and without the mirror -/

/-- Messages that are numbers, signed with their number and received at that time. -/
def numbered (m : Nat) : MessageInfo := ⟨false, [UInt16.ofNat (48 + m)], m⟩

def evenOnes : Filters Nat := ⟨some fun m => m % 2 == 0, false, fun _ => false⟩

/-- A run in which one of the messages is evicted. -/
theorem view_mirrors_run :
    ∃ view, ChannelView.setChannel false evenOnes 4 4 0 [2, 6] = some view ∧
      ∃ final, run (Watched.step numbered false evenOnes) ⟨[2, 6], view⟩
          [.messageAppended 8 0, .messagesAddedAtStart [1, 0], .messageReplaced 1 6 4,
            .filledInMessages [3, 6, 7], .messageAppended 10 1] = some final ∧
        final.Mirrors evenOnes := by
  obtain ⟨view, set_, mirrors⟩ := view_mirrors numbered false evenOnes (by decide : 0 < 4) (by decide) 0
    (.inl rfl : 4 = 4 ∨ ([2, 6].filter evenOnes.shouldIncludeMessage).length ≤ 4 ∧ _)
  refine ⟨view, set_, mirrors _ ?_⟩
  obtain rfl := Option.some.inj set_
  decide

/-- A replacement that passes the filters is missing where the replaced message did not pass them,
one that does not pass leaves the replaced message, and a cleared message comes back. -/
theorem view_diverges :
    (∃ view final, ChannelView.setChannel false evenOnes 4 4 0 [1] = some view ∧
      run (Watched.step numbered false evenOnes) ⟨[1], view⟩ [.messageReplaced 0 1 2] = some final ∧
      final.view.items = [] ∧ ¬ final.Mirrors evenOnes) ∧
    (∃ view final, ChannelView.setChannel false evenOnes 4 4 0 [2] = some view ∧
      run (Watched.step numbered false evenOnes) ⟨[2], view⟩ [.messageReplaced 0 2 3] = some final ∧
      final.view.items = [.message 2] ∧ ¬ final.Mirrors evenOnes) ∧
    ∃ view final, ChannelView.setChannel false evenOnes 4 4 0 [2] = some view ∧
      run (Watched.step numbered false evenOnes) ⟨[2], view⟩ [.messagesCleared, .filledInMessages [4]] =
        some final ∧
      final.view.messages.getSnapshot.map MessageLayout.message = [.message 2, .message 4] ∧
      ¬ final.Mirrors evenOnes := by
  refine ⟨⟨_, _, rfl, rfl, ?_⟩, ⟨_, _, rfl, rfl, ?_⟩, ⟨_, _, rfl, rfl, ?_⟩⟩
  · decide
  · decide
  · decide

end Forserino.Messages
