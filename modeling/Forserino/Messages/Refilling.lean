import Forserino.Messages.Chronology

/-! Filling in the same messages once more.

A message is known by its id. One without an id or of the system does not make its id known,
so it is inserted again with every call.
-/

set_option autoImplicit false

namespace Forserino.Messages

open Forserino.Qt

universe u

section
variable {T : Type u} {info : T → MessageInfo}

theorem mem_existingMessageIds {snapshot : List T} {id : QString} :
    id ∈ existingMessageIds info snapshot ↔
      id ≠ [] ∧ ∃ m ∈ snapshot, (info m).system = false ∧ (info m).id = id := by
  unfold existingMessageIds
  constructor
  · intro known
    obtain ⟨m, member, rfl⟩ := List.mem_map.mp known
    obtain ⟨inside, named⟩ := List.mem_filter.mp member
    simp only [Bool.not_eq_true', Bool.or_eq_false_iff, List.isEmpty_eq_false_iff] at named
    exact ⟨named.2, m, inside, named.1, rfl⟩
  · rintro ⟨named, m, inside, server, rfl⟩
    apply List.mem_map.mpr
    refine ⟨m, List.mem_filter.mpr ⟨inside, ?_⟩, rfl⟩
    simp only [server, Bool.false_or, Bool.not_eq_true', List.isEmpty_eq_false_iff]
    exact named

theorem missing_eq_nil_iff {snapshot messages : List T} :
    missing info snapshot messages = [] ↔ ∀ msg ∈ messages, (info msg).id ∈ existingMessageIds info snapshot := by
  simp [missing, List.filter_eq_nil_iff]

/-- Something is inserted if and only if a message is missing. -/
theorem fillLoop_anyInserted {S : Type u} {insertBefore insertAfter : T → T → S → S} {snapshot : List T}
    (messages : List T) (lastMsg : T) (store : S) (anyInserted : Bool) :
    (fillLoop info insertBefore insertAfter snapshot messages lastMsg store anyInserted).2 =
      (anyInserted || !(missing info snapshot messages).isEmpty) := by
  induction messages generalizing lastMsg store anyInserted with
  | nil => simp [fillLoop, missing]
  | cons msg rest ih =>
    by_cases known : (existingMessageIds info snapshot).contains (info msg).id = true
    · rw [fillLoop_known info known, missing_cons_known info known]
      exact ih lastMsg store anyInserted
    · rw [fillLoop, if_neg known, missing_cons_new info known]
      split
      · rw [ih]
        simp
      · rw [ih]
        simp

variable [DecidableEq T]

/-- Nothing happens to a channel that misses none of the messages. -/
theorem fillInMissingMessages_nothing_iff {channel : Channel T} {messages : List T}
    (shown : messages ≠ [] → channel.getMessageSnapshot ≠ []) :
    channel.fillInMissingMessages info messages = some (channel, false) ↔
      missing info channel.getMessageSnapshot messages = [] := by
  unfold Channel.fillInMissingMessages
  by_cases given : messages = []
  · rw [given]
    exact iff_of_true rfl rfl
  · rw [if_neg (by simpa using given)]
    cases last : channel.getMessageSnapshot.getLast? with
    | none => exact absurd (List.getLast?_eq_none_iff.mp last) (shown given)
    | some lastMsg =>
      -- whether filledInMessages is invoked tells whether the queue has changed
      have flag : (fillLoop info queueBefore queueAfter channel.getMessageSnapshot messages lastMsg channel.messages
          false).2 = (false || !(missing info channel.getMessageSnapshot messages).isEmpty) :=
        fillLoop_anyInserted messages lastMsg channel.messages false
      rw [Bool.false_or] at flag
      constructor
      · intro same
        have quiet := congrArg Prod.snd (Option.some.inj same)
        rw [show Prod.snd _ = _ from flag] at quiet
        simpa using quiet
      · intro nothing
        rw [nothing] at flag
        have same := (fillLoop_unchanged info flag).1
        simp only [same, flag, List.isEmpty_nil, Bool.not_true]

/-- With room for them, the missing messages are added to the channel. -/
theorem fillInMissingMessages_perm {channel filled : Channel T} {messages : List T} {invoked : Bool}
    (room : channel.getMessageSnapshot.length + (missing info channel.getMessageSnapshot messages).length ≤
      channel.messages.limit)
    (taken : channel.fillInMissingMessages info messages = some (filled, invoked)) :
    filled.getMessageSnapshot.Perm (missing info channel.getMessageSnapshot messages ++ channel.getMessageSnapshot) := by
  unfold Channel.fillInMissingMessages at taken
  split at taken
  · next nothing =>
    rw [List.isEmpty_iff.mp nothing]
    cases taken
    exact List.Perm.refl _
  -- without any message the given ones are pushed to the front, otherwise the loop goes over them
  · cases last : channel.getMessageSnapshot.getLast? with
    | none =>
      have empty : channel.getMessageSnapshot = [] := List.getLast?_eq_none_iff.mp last
      have all : missing info [] messages = messages := List.filter_eq_self.mpr fun _ _ => rfl
      obtain ⟨behind, pushed, items⟩ := channel.messages.pushFront_pushed messages
      rw [last, pushed] at taken
      cases taken
      rw [empty, all, List.length_nil, Nat.zero_add] at room
      have space : channel.messages.space = channel.messages.limit := by
        rw [LimitedQueue.space, show channel.messages.buffer.items = [] from empty, List.length_nil, Nat.sub_zero]
      rw [space, Nat.min_eq_left room, Nat.sub_self, List.drop_zero] at items
      rw [empty, all]
      show behind.items.Perm _
      rw [items, show channel.messages.getSnapshot = [] from empty]
    | some lastMsg =>
      rw [last] at taken
      cases taken
      exact fillLoop_perm info room (fun _ member => member) (List.mem_of_getLast? last) false

/-- A message of the channel or among the given ones that is not of the system has the id of
the message. -/
def Recognized (info : T → MessageInfo) (snapshot messages : List T) (msg : T) : Prop :=
  (info msg).id ≠ [] ∧ ∃ m ∈ snapshot ++ messages, (info m).system = false ∧ (info m).id = (info msg).id

omit [DecidableEq T] in
/-- Behind the call the ids are known of the channel's messages and of the given ones. -/
theorem known_iff {snapshot messages filled : List T} (all : filled.Perm (missing info snapshot messages ++ snapshot))
    (msg : T) : (info msg).id ∈ existingMessageIds info filled ↔ Recognized info snapshot messages msg := by
  rw [mem_existingMessageIds, Recognized]
  constructor
  · rintro ⟨named, m, inside, server, same⟩
    refine ⟨named, m, ?_, server, same⟩
    rcases List.mem_append.mp (all.mem_iff.mp inside) with new | old
    · exact List.mem_append_right _ (List.mem_filter.mp new).1
    · exact List.mem_append_left _ old
  · rintro ⟨named, m, inside, server, same⟩
    refine ⟨named, ?_⟩
    by_cases old : (info msg).id ∈ existingMessageIds info snapshot
    · -- the message was not missing, so an older one has its id
      obtain ⟨-, older, there, serverToo, sameToo⟩ := mem_existingMessageIds.mp old
      exact ⟨older, all.mem_iff.mpr (List.mem_append_right _ there), serverToo, sameToo⟩
    · refine ⟨m, all.mem_iff.mpr ?_, server, same⟩
      rcases List.mem_append.mp inside with there | given
      · exact List.mem_append_right _ there
      · apply List.mem_append_left
        apply List.mem_filter.mpr
        refine ⟨given, ?_⟩
        rw [same]
        simpa using old

/-- The messages can be filled in a second time without any change. -/
def Idempotent (info : T → MessageInfo) (channel : Channel T) (messages : List T) : Prop :=
  ∀ filled ∈ channel.fillInMissingMessages info messages,
    filled.1.fillInMissingMessages info messages = some (filled.1, false)

/-- Where none is evicted, a second call does nothing if and only if every message that is given
can be recognized by its id. -/
theorem fillInMissingMessages_idempotent_iff {channel : Channel T} {messages : List T}
    (room : channel.getMessageSnapshot.length + (missing info channel.getMessageSnapshot messages).length ≤
      channel.messages.limit) :
    Idempotent info channel messages ↔ ∀ msg ∈ messages, Recognized info channel.getMessageSnapshot messages msg := by
  -- the second call finds the ids of the channel and of what the first one has inserted
  have second : ∀ filled invoked, channel.fillInMissingMessages info messages = some (filled, invoked) →
      (filled.fillInMissingMessages info messages = some (filled, false) ↔
        ∀ msg ∈ messages, Recognized info channel.getMessageSnapshot messages msg) := by
    intro filled invoked taken
    have all := fillInMissingMessages_perm room taken
    have shown : messages ≠ [] → filled.getMessageSnapshot ≠ [] := by
      intro given nothing
      rw [nothing] at all
      obtain ⟨none, empty⟩ := List.append_eq_nil_iff.mp all.symm.eq_nil
      rw [empty] at none
      have same : missing info [] messages = messages := List.filter_eq_self.mpr fun _ _ => rfl
      exact given (same ▸ none)
    rw [fillInMissingMessages_nothing_iff shown, missing_eq_nil_iff]
    exact forall₂_congr fun msg _ => known_iff all msg
  obtain ⟨filled, invoked, taken⟩ :
      ∃ filled invoked, channel.fillInMissingMessages info messages = some (filled, invoked) := by
    unfold Channel.fillInMissingMessages
    split
    · exact ⟨_, _, rfl⟩
    · split
      · obtain ⟨behind, pushed, -⟩ := channel.messages.pushFront_pushed messages
        rw [pushed]
        exact ⟨_, _, rfl⟩
      · exact ⟨_, _, rfl⟩
  rw [← second filled invoked taken]
  constructor
  · exact fun again => again (filled, invoked) taken
  · rintro again other same
    rw [taken] at same
    cases same
    exact again

theorem fillInMissingMessages_idempotent_numbered : Idempotent timed (channelOf [1, 0, 4]) [2, 3, 4, 5] :=
  (fillInMissingMessages_idempotent_iff (by decide)).mpr (by unfold Recognized; decide)

/-- A message without an id is inserted twice, and so is one of the system. -/
theorem inserted_again : ¬ ∀ (info : Nat → MessageInfo) (channel : Channel Nat) (messages : List Nat),
    channel.getMessageSnapshot.length + 2 * messages.length ≤ channel.messages.limit → Idempotent info channel messages := by
  intro holds
  have again := holds anonymous (channelOf [1]) [2] (by decide) (channelOf [1, 2], true) rfl
  exact absurd (congrArg (Option.map Prod.snd) again) (by decide)

end

end Forserino.Messages
