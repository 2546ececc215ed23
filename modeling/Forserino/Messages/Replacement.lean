import Forserino.Messages.Chronology

/-! Channel::replaceMessage and the place that messageReplaced tells.

The overload with a hint signals the hint, also where the message was found elsewhere.
-/

set_option autoImplicit false

namespace Forserino.Messages

universe u

/-- messageReplaced(index, prev-message, replacement) -/
structure MessageReplaced (T : Type u) where
  index : Nat
  prev : T
  replacement : T
  deriving DecidableEq, Repr

/-- A call of one of the overloads of replaceMessage. -/
inductive Replacing (T : Type u) where
  | byMessage (message replacement : T)
  | byIndex (index : Nat) (replacement : T)
  | byHint (hint : Nat) (message replacement : T)
  deriving DecidableEq, Repr

section
variable {T : Type u} [DecidableEq T]

namespace Channel

def replaceByMessage (channel : Channel T) (message replacement : T) : Channel T × Option (MessageReplaced T) :=
  let replaced := channel.messages.replaceItem (fun a b => a == b) message replacement
  ({ channel with messages := replaced.1 },
    if 0 ≤ replaced.2 then some ⟨replaced.2.toNat, message, replacement⟩ else none)

omit [DecidableEq T] in
def replaceByIndex (channel : Channel T) (index : Nat) (replacement : T) : Channel T × Option (MessageReplaced T) :=
  match channel.messages.replaceItemAt index replacement with
  | (messages, true, some prev) => ({ channel with messages }, some ⟨index, prev, replacement⟩)
  | (messages, _, _) => ({ channel with messages }, none)

def replaceByHint (channel : Channel T) (hint : Nat) (message replacement : T) :
    Channel T × Option (MessageReplaced T) :=
  let replaced := channel.replaceMessage hint message replacement
  (replaced.1, if replaced.2 then some ⟨hint, message, replacement⟩ else none)

def replace (channel : Channel T) : Replacing T → Channel T × Option (MessageReplaced T)
  | .byMessage message replacement => channel.replaceByMessage message replacement
  | .byIndex index replacement => channel.replaceByIndex index replacement
  | .byHint hint message replacement => channel.replaceByHint hint message replacement

end Channel

/-- Whether there is something to replace. -/
def Replacing.replaces (items : List T) : Replacing T → Bool
  | .byMessage message _ => items.contains message
  | .byIndex index _ => decide (index < items.length)
  | .byHint _ message _ => items.contains message

/-- What messageReplaced tells of a call is so, and it tells nothing where nothing is replaced. -/
structure Truthful (channel : Channel T) (call : Replacing T) : Prop where
  told : ∀ signal ∈ (channel.replace call).2,
    channel.getMessageSnapshot[signal.index]? = some signal.prev ∧
      (channel.replace call).1.getMessageSnapshot[signal.index]? = some signal.replacement
  silent : call.replaces channel.getMessageSnapshot = false → (channel.replace call).2 = none

/-- Where the message is, seen from the index or the hint. An int cannot hold every index, and
a negative one is not signalled. -/
def Replacing.Located (items : List T) : Replacing T → Prop
  | .byMessage message _ => ∀ i ∈ items.findIdx? (fun other => other == message), toInt i < 0 ∨ toInt i = i
  | .byIndex _ _ => True
  | .byHint hint message _ =>
      items[hint]? = some message ∨ ∀ i ∈ items.findIdx? (fun other => other == message), toInt i < 0

theorem toInt_le (n : Nat) : toInt n ≤ n := by
  unfold toInt
  split <;> omega

theorem getElem_of_findIdx {items : List T} {message : T} {i : Nat}
    (found : items.findIdx? (fun other => other == message) = some i) :
    items[i]? = some message ∧ ∀ j, items[j]? = some message → i ≤ j := by
  obtain ⟨inside, isMatch, first⟩ := List.findIdx?_eq_some_iff_getElem.mp found
  constructor
  · rw [List.getElem?_eq_getElem inside, eq_of_beq isMatch]
  · intro j there
    by_contra before
    obtain ⟨within, same⟩ := List.getElem?_eq_some_iff.mp there
    exact first j (by omega) (beq_iff_eq.mpr same)

theorem not_mem_of_findIdx {items : List T} {message : T}
    (missing : items.findIdx? (fun other => other == message) = none) : message ∉ items := by
  intro member
  have different := List.findIdx?_eq_none_iff.mp missing message member
  simp at different

/-! ## By the message -/

theorem replaceByMessage_found {channel : Channel T} {message : T} {i : Nat} (replacement : T)
    (found : channel.getMessageSnapshot.findIdx? (fun other => other == message) = some i) :
    (channel.replaceByMessage message replacement).1.getMessageSnapshot = channel.getMessageSnapshot.set i replacement ∧
      (channel.replaceByMessage message replacement).2 =
        if 0 ≤ toInt i then some ⟨(toInt i).toNat, message, replacement⟩ else none := by
  have index : channel.messages.buffer.items.findIdx? (fun other => other == message) = some i := found
  unfold Channel.replaceByMessage LimitedQueue.replaceItem
  rw [index]
  exact ⟨rfl, rfl⟩

theorem replaceByMessage_missing {channel : Channel T} {message : T} (replacement : T)
    (missing : channel.getMessageSnapshot.findIdx? (fun other => other == message) = none) :
    channel.replaceByMessage message replacement = (channel, none) := by
  have index : channel.messages.buffer.items.findIdx? (fun other => other == message) = none := missing
  unfold Channel.replaceByMessage LimitedQueue.replaceItem
  rw [index]
  rfl

theorem truthful_byMessage {channel : Channel T} {message replacement : T} :
    Truthful channel (.byMessage message replacement) ↔
      (Replacing.byMessage message replacement).Located channel.getMessageSnapshot := by
  simp only [Replacing.Located]
  cases found : channel.getMessageSnapshot.findIdx? (fun other => other == message) with
  | none =>
    have nothing : channel.replace (.byMessage message replacement) = (channel, none) :=
      replaceByMessage_missing replacement found
    apply iff_of_true
    · exact ⟨by rw [nothing]; simp, fun _ => by rw [nothing]⟩
    · simp
  | some i =>
    obtain ⟨there, first⟩ := getElem_of_findIdx found
    obtain ⟨behind, signalled⟩ := replaceByMessage_found replacement found
    change (channel.replace (.byMessage message replacement)).1.getMessageSnapshot = _ at behind
    change (channel.replace (.byMessage message replacement)).2 = _ at signalled
    have inside := (List.getElem?_eq_some_iff.mp there).1
    have applies : (Replacing.byMessage message replacement).replaces channel.getMessageSnapshot ≠ false := by
      simpa [Replacing.replaces] using List.mem_of_getElem? there
    constructor
    · rintro ⟨told, -⟩ j isFirst
      obtain rfl : i = j := Option.some.inj isFirst
      by_cases negative : toInt i < 0
      · exact .inl negative
      · rw [signalled, if_pos (by omega)] at told
        have tells : channel.getMessageSnapshot[(toInt i).toNat]? = some message := (told _ rfl).1
        -- the position that is told is not before the first one, and not behind it either
        have least := first _ tells
        have most := toInt_le i
        omega
    · intro located
      refine ⟨?_, fun none => absurd none applies⟩
      intro signal invoked
      rw [signalled] at invoked
      split at invoked
      · next positive =>
        obtain rfl := Option.some.inj invoked
        have exact : toInt i = i := by
          rcases located i rfl with negative | same
          · omega
          · exact same
        rw [behind, exact, Int.toNat_natCast, List.getElem?_set_self inside]
        exact ⟨there, rfl⟩
      · cases invoked

/-! ## At an index -/

omit [DecidableEq T] in
theorem replaceByIndex_inside {channel : Channel T} {index : Nat} {prev : T} (replacement : T)
    (there : channel.getMessageSnapshot[index]? = some prev) :
    (channel.replaceByIndex index replacement).1.getMessageSnapshot = channel.getMessageSnapshot.set index replacement ∧
      (channel.replaceByIndex index replacement).2 = some ⟨index, prev, replacement⟩ := by
  have held : channel.messages.buffer.items[index]? = some prev := there
  unfold Channel.replaceByIndex LimitedQueue.replaceItemAt
  rw [held]
  exact ⟨rfl, rfl⟩

omit [DecidableEq T] in
theorem replaceByIndex_outside {channel : Channel T} {index : Nat} (replacement : T)
    (beyond : channel.getMessageSnapshot[index]? = none) : channel.replaceByIndex index replacement = (channel, none) := by
  have held : channel.messages.buffer.items[index]? = none := beyond
  unfold Channel.replaceByIndex LimitedQueue.replaceItemAt
  rw [held]

theorem truthful_byIndex (channel : Channel T) (index : Nat) (replacement : T) :
    Truthful channel (.byIndex index replacement) := by
  cases there : channel.getMessageSnapshot[index]? with
  | none =>
    have nothing : channel.replace (.byIndex index replacement) = (channel, none) :=
      replaceByIndex_outside replacement there
    exact ⟨by rw [nothing]; simp, fun _ => by rw [nothing]⟩
  | some prev =>
    obtain ⟨behind, signalled⟩ := replaceByIndex_inside replacement there
    change (channel.replace (.byIndex index replacement)).1.getMessageSnapshot = _ at behind
    change (channel.replace (.byIndex index replacement)).2 = _ at signalled
    have inside := (List.getElem?_eq_some_iff.mp there).1
    constructor
    · intro signal invoked
      rw [signalled] at invoked
      obtain rfl := Option.some.inj invoked
      rw [behind, List.getElem?_set_self inside]
      exact ⟨there, rfl⟩
    · intro outside
      exact absurd inside (of_decide_eq_false outside)

/-! ## With a hint -/

theorem replaceByHint_right {channel : Channel T} {hint : Nat} {message : T} (replacement : T)
    (there : channel.getMessageSnapshot[hint]? = some message) :
    (channel.replaceByHint hint message replacement).1.getMessageSnapshot = channel.getMessageSnapshot.set hint replacement ∧
      (channel.replaceByHint hint message replacement).2 =
        if 0 ≤ toInt hint then some ⟨hint, message, replacement⟩ else none := by
  have held : channel.messages.buffer.items[hint]? = some message := there
  unfold Channel.replaceByHint Channel.replaceMessage LimitedQueue.replaceItemHint
  rw [held, Option.any_some, beq_self_eq_true, if_pos rfl]
  simp only [decide_eq_true_eq]
  exact ⟨rfl, trivial⟩

theorem replaceByHint_wrong {channel : Channel T} {hint i : Nat} {message : T} (replacement : T)
    (wrong : channel.getMessageSnapshot[hint]? ≠ some message)
    (found : channel.getMessageSnapshot.findIdx? (fun other => other == message) = some i) :
    (channel.replaceByHint hint message replacement).2 =
      if 0 ≤ toInt i then some ⟨hint, message, replacement⟩ else none := by
  have held : (channel.messages.buffer.items[hint]?).any (fun other => other == message) = false := by
    rw [Option.any_eq_false]
    intro other there
    rw [beq_eq_false_iff_ne]
    rintro rfl
    exact wrong there
  have index : channel.messages.buffer.items.findIdx? (fun other => other == message) = some i := found
  unfold Channel.replaceByHint Channel.replaceMessage LimitedQueue.replaceItemHint
  rw [held, index]
  simp

theorem replaceByHint_missing {channel : Channel T} {message : T} (hint : Nat) (replacement : T)
    (missing : channel.getMessageSnapshot.findIdx? (fun other => other == message) = none) :
    (channel.replaceByHint hint message replacement).2 = none := by
  have held : (channel.messages.buffer.items[hint]?).any (fun other => other == message) = false := by
    rw [Option.any_eq_false]
    intro other there
    exact List.findIdx?_eq_none_iff.mp missing other (List.mem_of_getElem? there)
  have index : channel.messages.buffer.items.findIdx? (fun other => other == message) = none := missing
  unfold Channel.replaceByHint Channel.replaceMessage LimitedQueue.replaceItemHint
  rw [held, index]
  simp

theorem truthful_byHint {channel : Channel T} {hint : Nat} {message replacement : T} :
    Truthful channel (.byHint hint message replacement) ↔
      (Replacing.byHint hint message replacement).Located channel.getMessageSnapshot := by
  simp only [Replacing.Located]
  by_cases there : channel.getMessageSnapshot[hint]? = some message
  · obtain ⟨behind, signalled⟩ := replaceByHint_right replacement there
    change (channel.replace (.byHint hint message replacement)).1.getMessageSnapshot = _ at behind
    change (channel.replace (.byHint hint message replacement)).2 = _ at signalled
    have inside := (List.getElem?_eq_some_iff.mp there).1
    refine iff_of_true ⟨?_, fun none => ?_⟩ (.inl there)
    · intro signal invoked
      rw [signalled] at invoked
      split at invoked
      · obtain rfl := Option.some.inj invoked
        rw [behind, List.getElem?_set_self inside]
        exact ⟨there, rfl⟩
      · cases invoked
    · have member := List.mem_of_getElem? there
      simp [Replacing.replaces, member] at none
  · cases found : channel.getMessageSnapshot.findIdx? (fun other => other == message) with
    | none =>
      have signalled : (channel.replace (.byHint hint message replacement)).2 = none :=
        replaceByHint_missing hint replacement found
      apply iff_of_true
      · exact ⟨by rw [signalled]; simp, fun _ => signalled⟩
      · simp
    | some i =>
      have signalled : (channel.replace (.byHint hint message replacement)).2 = _ :=
        replaceByHint_wrong replacement there found
      constructor
      · rintro ⟨told, -⟩
        right
        intro j isFirst
        obtain rfl : i = j := Option.some.inj isFirst
        by_contra positive
        rw [signalled, if_pos (by omega)] at told
        -- the hint is signalled, where another message is
        exact there (told _ rfl).1
      · rintro (hinted | negative)
        · exact absurd hinted there
        · rw [if_neg (by have := negative i rfl; omega)] at signalled
          exact ⟨by rw [signalled]; simp, fun _ => signalled⟩

/-- What messageReplaced tells is so if and only if the message is where the call looks first, or
the call finds it by itself. -/
theorem messageReplaced_truthful_iff {channel : Channel T} {call : Replacing T} :
    Truthful channel call ↔ call.Located channel.getMessageSnapshot := by
  cases call with
  | byMessage message replacement => exact truthful_byMessage
  | byIndex index replacement => exact iff_of_true (truthful_byIndex channel index replacement) trivial
  | byHint hint message replacement => exact truthful_byHint

/-- The third message is replaced, and the first one is signalled. -/
theorem hint_told : ¬ ∀ (channel : Channel Nat) (call : Replacing Nat), Truthful channel call := by
  intro holds
  have told := (holds (channelOf [1, 2, 3]) (.byHint 0 3 4)).told ⟨0, 3, 4⟩ (by decide)
  exact absurd told.1 (by decide)

end

end Forserino.Messages
