import Forserino.Foundation.Runs
import Forserino.Messages.TimeoutStacking

/-! The messages that a VectorMessageSink stores, and the flags that it gives to them.
-/

set_option autoImplicit false

namespace Forserino.Messages

open Forserino.Foundation Forserino.Qt

inductive MessageContext where
  | original | repost
  deriving DecidableEq

/-- The message has all of the flags. -/
def Message.Marked (additionalFlags : MessageFlags) (message : Message) : Prop :=
  message.flags ||| additionalFlags = message.flags

instance (additionalFlags : MessageFlags) (message : Message) : Decidable (message.Marked additionalFlags) :=
  inferInstanceAs (Decidable (_ = _))

def Message.mark (additionalFlags : MessageFlags) (message : Message) : Message :=
  { message with flags := message.flags ||| additionalFlags }

theorem Message.mark_marked (additionalFlags : MessageFlags) (message : Message) :
    (message.mark additionalFlags).Marked additionalFlags := by
  simp [Marked, mark, BitVec.or_assoc]

theorem Message.mark_of_marked {additionalFlags : MessageFlags} {message : Message}
    (marked : message.Marked additionalFlags) : message.mark additionalFlags = message := by
  rw [mark, marked]

namespace VectorMessageSink

/-- The object at the address gets the flags, wherever it is stored. -/
def setFlags (additionalFlags : MessageFlags) (address : Nat) (messages : List Message) : List Message :=
  messages.map fun message => if message.address = address then message.mark additionalFlags else message

structure State where
  messages_ : List Message
  additionalFlags : MessageFlags

/-- The callbacks of the sink. The one that adds a message sets no flags. -/
def performs (additionalFlags : MessageFlags) (messages : List Message) : SinkCall → List Message
  | .replaceMessage index _ replacement =>
      setFlags additionalFlags replacement.address (messages.set index replacement)
  | .setDisabled message =>
      messages.map fun other => if other.address = message.address then other.disable else other
  | .addMessage message => messages ++ [message]

namespace State

/-- There is no result where an assertion fails. -/
def addMessage (sink : State) (message : Message) (ctx : MessageContext) (overridingFlags : Option MessageFlags) :
    Option State :=
  if overridingFlags.isSome then none
  else if ctx ≠ .original then none
  else some { sink with messages_ := setFlags sink.additionalFlags message.address (sink.messages_ ++ [message]) }

def addOrReplaceTimeout (sink : State) (style : TimeoutStackStyle) (address : Nat) (clearchatMessage : Message)
    (now : Int) : State :=
  let calls := addOrReplaceChannelTimeout style address clearchatMessage sink.messages_ now false
  { sink with messages_ := calls.foldl (performs sink.additionalFlags) sink.messages_ }

def addOrReplaceClearChat (sink : State) (style : TimeoutStackStyle) (address : Nat) (clearchatMessage : Message)
    (now : Int) : State :=
  let calls := addOrReplaceChannelClear style address clearchatMessage sink.messages_ now
  { sink with messages_ := calls.foldl (performs sink.additionalFlags) sink.messages_ }

end State

/-- The address is that of the message which is built for the call. -/
inductive Event where
  | addMessage (message : Message) (ctx : MessageContext) (overridingFlags : Option MessageFlags)
  | addOrReplaceTimeout (style : TimeoutStackStyle) (address : Nat) (clearchatMessage : Message) (now : Int)
  | addOrReplaceClearChat (style : TimeoutStackStyle) (address : Nat) (clearchatMessage : Message) (now : Int)

def step (sink : State) : Event → Option State
  | .addMessage message ctx overridingFlags => sink.addMessage message ctx overridingFlags
  | .addOrReplaceTimeout style address clearchatMessage now =>
      some (sink.addOrReplaceTimeout style address clearchatMessage now)
  | .addOrReplaceClearChat style address clearchatMessage now =>
      some (sink.addOrReplaceClearChat style address clearchatMessage now)

/-- Every stored message has all of the flags of the sink. -/
def AllMarked (sink : State) : Prop := ∀ message ∈ sink.messages_, message.Marked sink.additionalFlags

/-- Nothing, one entry that is changed, or one that is appended. -/
inductive Changes (before : List Message) : List Message → Prop where
  | none : Changes before before
  | replaced (index : Nat) (message : Message) : index < before.length → Changes before (before.set index message)
  | appended (message : Message) : Changes before (before ++ [message])

/-- Of the last messages, the newest one at which a round ends decides whether the new message is added. -/
def shouldAddMessage (round : Message → Option (Option Message × Bool)) (buffer : List Message) : Bool :=
  (((recent buffer).findSome? round).map Prod.snd).getD true

/-- What is appended by a callback has the flags already. -/
def Carries (sink : State) : Event → Prop
  | .addMessage .. => True
  | .addOrReplaceTimeout style address message now =>
      shouldAddMessage (timeoutRound style address message (now - 5000)) sink.messages_ = true →
        message.Marked sink.additionalFlags
  | .addOrReplaceClearChat style address message now =>
      style = .dontStack ∨ shouldAddMessage (clearRound style address message (now - 5000)) sink.messages_ = true →
        message.Marked sink.additionalFlags

/-! ## The loops -/

/-- A loop either replaces a message of the buffer, or says whether to add the new one. -/
theorem scan_outcome {round : Message → Option (Option Message × Bool)}
    (rounds : ∀ s replacement should, round s = some (some replacement, should) → should = false)
    {buffer : List Message} (stop : Nat) {i : Nat} (inside : i ≤ buffer.length) :
    (scan round buffer stop i).2 = ((((buffer.take i).drop stop).reverse.findSome? round).map Prod.snd).getD true ∧
      ((scan round buffer stop i).1 = none ∨ (scan round buffer stop i).2 = false ∧
        ∃ j s replacement, j < buffer.length ∧ (scan round buffer stop i).1 = some (.replaceMessage j s replacement)) := by
  induction i with
  | zero => simp [scan]
  | succ i ih =>
    rw [scan]
    by_cases ended : i < stop
    -- the loop ends behind the last twenty messages
    · have nothing : (buffer.take (i + 1)).drop stop = [] := by
        rw [List.drop_eq_nil_iff, List.length_take]
        omega
      rw [if_pos ended, nothing]
      simp
    -- the message at i is the newest one that is left
    · have more : ((buffer.take (i + 1)).drop stop).reverse = buffer[i] :: ((buffer.take i).drop stop).reverse := by
        rw [List.take_succ_eq_append_getElem inside, List.drop_append_of_le_length, List.reverse_concat]
        rw [List.length_take]
        omega
      rw [if_neg ended, more, List.getElem?_eq_getElem inside, List.findSome?_cons]
      cases decided : round buffer[i] with
      | none =>
        simp only [decided]
        exact ih (Nat.le_of_succ_le inside)
      | some decision =>
        obtain ⟨replacement, should⟩ := decision
        simp only [decided, Option.map_some, Option.getD_some, true_and]
        cases replacement with
        | none => exact Or.inl rfl
        | some replacement => exact Or.inr ⟨rounds _ _ _ decided, i, _, _, inside, rfl⟩

/-- The loop over the last twenty messages. -/
theorem scan_recent {round : Message → Option (Option Message × Bool)}
    (rounds : ∀ s replacement should, round s = some (some replacement, should) → should = false)
    (buffer : List Message) :
    (scan round buffer (buffer.length - 20) buffer.length).2 = shouldAddMessage round buffer ∧
      ((scan round buffer (buffer.length - 20) buffer.length).1 = none ∨
        (scan round buffer (buffer.length - 20) buffer.length).2 = false ∧ ∃ j s replacement, j < buffer.length ∧
          (scan round buffer (buffer.length - 20) buffer.length).1 = some (.replaceMessage j s replacement)) := by
  have outcome := scan_outcome rounds (buffer.length - 20) (Nat.le_refl buffer.length)
  rwa [List.take_length] at outcome

theorem timeoutRound_replaces {style : TimeoutStackStyle} {address : Nat} {message s replacement : Message}
    {minimumTime : Int} {should : Bool}
    (round : timeoutRound style address message minimumTime s = some (some replacement, should)) : should = false := by
  unfold timeoutRound at round
  grind

theorem clearRound_replaces {style : TimeoutStackStyle} {address : Nat} {message s replacement : Message}
    {minimumTime : Int} {should : Bool}
    (round : clearRound style address message minimumTime s = some (some replacement, should)) : should = false := by
  unfold clearRound at round
  grind

/-! ## The calls -/

section
variable {additionalFlags : MessageFlags} {messages : List Message}

theorem setFlags_of_marked (marked : ∀ message ∈ messages, message.Marked additionalFlags) (address : Nat) :
    setFlags additionalFlags address messages = messages := by
  have same : ∀ message ∈ messages,
      (if message.address = address then message.mark additionalFlags else message) = message := by
    intro message member
    split
    · exact Message.mark_of_marked (marked message member)
    · rfl
  rw [setFlags, List.map_congr_left same, List.map_id']

/-- Where the stored messages have the flags, only the replacement gets them. -/
theorem performs_replaceMessage (marked : ∀ message ∈ messages, message.Marked additionalFlags) (index : Nat)
    (s replacement : Message) : performs additionalFlags messages (.replaceMessage index s replacement) =
      messages.set index (replacement.mark additionalFlags) := by
  have others := setFlags_of_marked marked replacement.address
  unfold setFlags at others
  rw [performs, setFlags, List.map_set, others, if_pos rfl]

/-- What follows from the two outcomes of a loop. -/
theorem performs_outcome (marked : ∀ message ∈ messages, message.Marked additionalFlags)
    {replaced : Option SinkCall} {should : Bool} (message : Message)
    (outcome : replaced = none ∨ should = false ∧
      ∃ j s replacement, j < messages.length ∧ replaced = some (.replaceMessage j s replacement)) :
    ∃ after, after = (replaced.toList ++ if should then [SinkCall.addMessage message] else []).foldl
        (performs additionalFlags) messages ∧ Changes messages after ∧
      ((∀ message ∈ after, message.Marked additionalFlags) ↔ (should = true → message.Marked additionalFlags)) := by
  rcases outcome with rfl | ⟨rfl, j, s, replacement, inside, rfl⟩
  · cases should with
    | false => exact ⟨messages, rfl, .none, by simpa using marked⟩
    | true =>
      refine ⟨messages ++ [message], rfl, .appended message, ?_⟩
      simp only [List.mem_append, List.mem_singleton, forall_true_left]
      exact ⟨fun all => all message (Or.inr rfl), fun new other member => member.elim (marked other) (· ▸ new)⟩
  · refine ⟨messages.set j (replacement.mark additionalFlags), ?_, .replaced j _ inside, ?_⟩
    · exact (performs_replaceMessage marked j s replacement).symm
    · refine ⟨fun _ impossible => absurd impossible Bool.false_ne_true, fun _ other member => ?_⟩
      rcases List.mem_or_eq_of_mem_set member with old | rfl
      · exact marked other old
      · exact Message.mark_marked additionalFlags replacement

/-- What the loop over the last messages stores, and whether it is all marked. -/
theorem scan_marks (marked : ∀ message ∈ messages, message.Marked additionalFlags)
    {round : Message → Option (Option Message × Bool)}
    (rounds : ∀ s replacement should, round s = some (some replacement, should) → should = false) (message : Message) :
    ∃ after, after = ((scan round messages (messages.length - 20) messages.length).1.toList ++
        if (scan round messages (messages.length - 20) messages.length).2 then [SinkCall.addMessage message]
        else []).foldl (performs additionalFlags) messages ∧ Changes messages after ∧
      ((∀ message ∈ after, message.Marked additionalFlags) ↔
        (shouldAddMessage round messages = true → message.Marked additionalFlags)) := by
  obtain ⟨decides, outcome⟩ := scan_recent rounds messages
  rw [← decides]
  exact performs_outcome marked message outcome

/-- What is stored by addMessage gets the flags, and the others have them. -/
theorem setFlags_append (marked : ∀ message ∈ messages, message.Marked additionalFlags) (message : Message) :
    setFlags additionalFlags message.address (messages ++ [message]) = messages ++ [message.mark additionalFlags] := by
  have others := setFlags_of_marked marked message.address
  unfold setFlags at others ⊢
  rw [List.map_append, others, List.map_singleton, if_pos rfl]

end

/-- From a sink whose messages are marked, a call changes one entry or appends one, and the messages
are marked again exactly when the call carries the flags. -/
theorem step_marks {sink next : State} {e : Event} (marked : AllMarked sink) (taken : step sink e = some next) :
    Changes sink.messages_ next.messages_ ∧ next.additionalFlags = sink.additionalFlags ∧
      (AllMarked next ↔ Carries sink e) := by
  cases e with
  | addMessage message ctx overridingFlags =>
    obtain ⟨_, taken⟩ := Option.ite_none_left_eq_some.mp taken
    obtain ⟨_, taken⟩ := Option.ite_none_left_eq_some.mp taken
    obtain rfl := Option.some.inj taken
    have appended := setFlags_append marked message
    refine ⟨?_, rfl, fun _ => trivial, fun _ => ?_⟩
    · rw [appended]
      exact .appended _
    · intro other member
      rw [appended] at member
      rcases List.mem_append.mp member with old | latest
      · exact marked other old
      · rw [List.mem_singleton.mp latest]
        exact Message.mark_marked _ message
  | addOrReplaceTimeout style address message now =>
    obtain rfl := Option.some.inj taken
    have rounds : ∀ s replacement should, timeoutRound style address message (now - 5000) s =
        some (some replacement, should) → should = false := fun _ _ _ => timeoutRound_replaces
    obtain ⟨after, performed, changes, kept⟩ := scan_marks marked rounds message
    have stored : (sink.addOrReplaceTimeout style address message now).messages_ = after := by
      rw [performed]
      simp [State.addOrReplaceTimeout, addOrReplaceChannelTimeout]
    unfold AllMarked
    rw [stored]
    exact ⟨changes, rfl, kept⟩
  | addOrReplaceClearChat style address message now =>
    obtain rfl := Option.some.inj taken
    by_cases apart : style = .dontStack
    · -- the message is added before the loop
      obtain ⟨after, performed, changes, kept⟩ := @performs_outcome _ _ marked none true message (Or.inl rfl)
      have stored : (sink.addOrReplaceClearChat style address message now).messages_ = after := by
        rw [performed]
        simp [State.addOrReplaceClearChat, addOrReplaceChannelClear, apart]
      unfold AllMarked
      rw [stored]
      refine ⟨changes, rfl, kept.trans ?_⟩
      simp [Carries, apart]
    · have rounds : ∀ s replacement should, clearRound style address message (now - 5000) s =
          some (some replacement, should) → should = false := fun _ _ _ => clearRound_replaces
      -- the message is added if the loop does not replace one
      obtain ⟨after, performed, changes, kept⟩ := scan_marks marked rounds message
      have stored : (sink.addOrReplaceClearChat style address message now).messages_ = after := by
        rw [performed]
        simp [State.addOrReplaceClearChat, addOrReplaceChannelClear, apart]
      unfold AllMarked
      rw [stored]
      refine ⟨changes, rfl, kept.trans ?_⟩
      simp [Carries, apart]

/-- In a run from an empty sink, every message is marked and every call changes one entry or appends one, exactly
when every call carries the flags. -/
theorem run_marks_iff (additionalFlags : MessageFlags) (events : List Event) (final : State)
    (ran : run step ⟨[], additionalFlags⟩ events = some final) :
    Along step Carries ⟨[], additionalFlags⟩ events ↔
      (∀ before, before <+: events → ∀ sink, run step ⟨[], additionalFlags⟩ before = some sink → AllMarked sink) ∧
        ∀ before e, before ++ [e] <+: events → ∀ sink next, run step ⟨[], additionalFlags⟩ before = some sink →
          step sink e = some next → Changes sink.messages_ next.messages_ := by
  have empty : AllMarked ⟨[], additionalFlags⟩ := fun _ member => absurd member List.not_mem_nil
  have preserves : ∀ sink e next, AllMarked sink → Carries sink e → step sink e = some next → AllMarked next :=
    fun _ _ _ marked carries taken => (step_marks marked taken).2.2.mpr carries
  have breaks : ∀ sink e next, AllMarked sink → ¬ Carries sink e → step sink e = some next → ¬ AllMarked next :=
    fun _ _ _ marked refused taken kept => refused ((step_marks marked taken).2.2.mp kept)
  have marks := along_iff preserves breaks (fun _ marked => marked) ran empty
  rw [marks]
  constructor
  · intro all
    refine ⟨all, ?_⟩
    intro before e isPrefix sink next reached taken
    have marked := all before ((List.prefix_append before [e]).trans isPrefix) sink reached
    exact (step_marks marked taken).1
  · exact And.left

/-- A message with the flags, received at the time 0. -/
def received (address : Nat) (flags : MessageFlags) (timeoutUser : QString) : Message :=
  { address, flags, searchText := [], loginName := [], timeoutUser, channelName := [], serverReceivedTime := 0, count := 1 }

/-- MessageFlag::RecentMessage -/
def recentMessage : MessageFlags := 1 <<< 15

/-- A timeout is stored like any message, and then it is replaced by that of the other source. -/
theorem run_marks_iff_replaced :
    Along step Carries ⟨[], recentMessage⟩
        [.addMessage (received 1 (.of [.timeout]) []) .original none,
          .addOrReplaceTimeout .stackHard 3 (received 2 (.of [.timeout, .pubSub]) []) 0] ↔
      (∀ before, before <+: [.addMessage (received 1 (.of [.timeout]) []) .original none,
          .addOrReplaceTimeout .stackHard 3 (received 2 (.of [.timeout, .pubSub]) []) 0] →
        ∀ sink, run step ⟨[], recentMessage⟩ before = some sink → AllMarked sink) ∧
      ∀ before e, before ++ [e] <+: [.addMessage (received 1 (.of [.timeout]) []) .original none,
          .addOrReplaceTimeout .stackHard 3 (received 2 (.of [.timeout, .pubSub]) []) 0] →
        ∀ sink next, run step ⟨[], recentMessage⟩ before = some sink → step sink e = some next →
          Changes sink.messages_ next.messages_ :=
  run_marks_iff recentMessage _ ⟨[(received 2 (.of [.timeout, .pubSub]) []).mark recentMessage], recentMessage⟩ rfl

/-- The first message that the sink gets is a timeout. -/
theorem not_allMarked_appended : ¬ ∀ (additionalFlags : MessageFlags) (events : List Event) (final : State),
    run step ⟨[], additionalFlags⟩ events = some final → AllMarked final := by
  intro holds
  have marked := holds recentMessage [.addOrReplaceTimeout .stackHard 2 (received 1 (.of [.timeout]) []) 0]
    ⟨[received 1 (.of [.timeout]) []], recentMessage⟩ rfl
  exact absurd (marked _ List.mem_cons_self) (by decide)

/-- As long as the object of the replacement is not stored, the callbacks do what a sink that keeps every message does. -/
theorem performs_of_new {additionalFlags : MessageFlags} {messages : List Message} (call : SinkCall)
    (new : ∀ index s replacement, call = .replaceMessage index s replacement →
      ∀ message ∈ messages, message.address ≠ replacement.address) :
    performs additionalFlags messages call = bufferPerforms additionalFlags messages call := by
  cases call with
  | addMessage message => rfl
  | setDisabled message => rfl
  | replaceMessage index s replacement =>
    have same : ∀ message ∈ messages, (if message.address = replacement.address then message.mark additionalFlags
        else message) = message := fun message member => if_neg (new index s replacement rfl message member)
    rw [performs, setFlags, List.map_set, if_pos rfl, List.map_congr_left same, List.map_id']
    rfl

end VectorMessageSink

end Forserino.Messages
