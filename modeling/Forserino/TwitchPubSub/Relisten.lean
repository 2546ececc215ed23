import Forserino.TwitchPubSub.Topics

/-! Topics that are unlistened from are not listened to again, and no topic is listened to
twice, as long as nobody asks for or unlistens from a topic that is still in the requests.
-/

set_option autoImplicit false

namespace Forserino.TwitchPubSub

open Qt Foundation

namespace PubSub

/-- The event neither asks for a topic of the requests nor unlistens from one. -/
def Careful (ps : PubSub) (e : Event) : Prop :=
  (∀ topic ∈ ps.asked e, topic ∉ ps.requests) ∧
    ∀ start ∈ unlistened e, ∀ topic ∈ ps.requests, topic.startsWith start = false

instance (ps : PubSub) (e : Event) : Decidable (ps.Careful e) :=
  inferInstanceAs (Decidable ((∀ _ ∈ _, _) ∧ ∀ _ ∈ _, ∀ _ ∈ _, _))

/-- No topic with the prefix is listened to or requested. -/
def Absent (start : QString) (ps : PubSub) : Prop := ∀ topic ∈ ps.topics, topic.startsWith start = false

/-- Nobody asks for a topic with the prefix. -/
def Unasked (start : QString) (ps : PubSub) (e : Event) : Prop := ∀ topic ∈ ps.asked e, topic.startsWith start = false

instance (start : QString) (ps : PubSub) (e : Event) : Decidable (ps.Unasked start e) :=
  inferInstanceAs (Decidable (∀ _ ∈ _, _))

theorem mem_topics {ps : PubSub} {topic : QString} :
    topic ∈ ps.topics ↔ ps.isListeningToTopic topic = true ∨ topic ∈ ps.requests := by
  unfold PubSub.topics isListeningToTopic PubSubClient.isListeningToTopic
  simp only [Multiset.mem_add, Multiset.mem_coe, List.mem_flatMap, List.any_eq_true, List.contains_iff_mem]

theorem not_listening_of_asked {ps : PubSub} {e : Event} {topic : QString} (asked : ps.asked e = some topic) :
    ps.isListeningToTopic topic = false := by
  cases e with
  | listenTo request channelID enableExperimentalEventSub connects =>
    obtain ⟨fresh, same⟩ := Option.ite_none_right_eq_some.mp asked
    obtain rfl := Option.some.inj same
    exact (Bool.not_eq_true' _).mp (Bool.and_eq_true_iff.mp fresh).2
  | unlistenPrefix _ | currentUserChanged _ _ | opened _ _ | failed | closed _ _ | reconnect _ _ => cases asked

theorem Removes.subset {ps next : PubSub} {starts : List QString} (removes : Removes ps next starts) {topic : QString}
    (member : topic ∈ next.topics) : topic ∈ ps.topics := by
  obtain ⟨removed, topics, _⟩ := removes.topics
  exact topics ▸ Multiset.mem_add.mpr (.inl member)

theorem Absent.removes {ps next : PubSub} {start : QString} {starts : List QString} (absent : Absent start ps)
    (removes : Removes ps next starts) : Absent start next := fun topic member =>
  absent topic (removes.subset member)

theorem unlistenPrefix_absent {ps : PubSub} {start : QString}
    (clean : ∀ topic ∈ ps.requests, topic.startsWith start = false) : Absent start (ps.unlistenPrefix start) := by
  intro topic member
  rw [unlistenPrefix_topics] at member
  rcases Multiset.mem_add.mp member with listened | requested
  · exact (Bool.not_eq_true' _).mp (List.mem_filter.mp listened).2
  · exact clean topic requested

/-- Behind an unlisten, no topic with its prefix is left if none was in the requests. -/
theorem absent_of_unlistened {ps next : PubSub} {e : Event} {start : QString} (taken : ps.step e = some next)
    (known : start ∈ unlistened e) (clean : ∀ topic ∈ ps.requests, topic.startsWith start = false) :
    Absent start next := by
  cases e with
  | unlistenPrefix other =>
    obtain rfl := Option.some.inj taken
    obtain rfl := List.mem_singleton.mp known
    exact unlistenPrefix_absent clean
  | currentUserChanged token userID =>
    obtain rfl := Option.some.inj taken
    -- the requests are the same at each of the four calls, and the later calls only remove
    have account (ps : PubSub) (absent : Absent start ps) : Absent start (ps.setAccount token userID) := absent
    apply account
    simp only [unlistened, List.mem_cons, List.not_mem_nil, or_false] at known
    rcases known with rfl | rfl | rfl | rfl
    · exact (((unlistenPrefix_absent clean).removes (unlistenPrefix_removes _ _)).removes
        (unlistenPrefix_removes _ _)).removes (unlistenPrefix_removes _ _)
    · exact ((@unlistenPrefix_absent (ps.unlistenPrefix moderatorActions) _ clean).removes
        (unlistenPrefix_removes _ _)).removes (unlistenPrefix_removes _ _)
    · exact (@unlistenPrefix_absent ((ps.unlistenPrefix moderatorActions).unlistenPrefix automodQueue) _ clean).removes
        (unlistenPrefix_removes _ _)
    · exact @unlistenPrefix_absent
        (((ps.unlistenPrefix moderatorActions).unlistenPrefix automodQueue).unlistenPrefix lowTrustUsers) _ clean
  | listenTo _ _ _ _ | opened _ _ | failed | closed _ _ | reconnect _ _ => cases known

/-- The manager has sent these frames from the one state to the other, and none of them asks
for a topic with the prefix. -/
def Silent (start : QString) (ps next : PubSub) : Prop :=
  ∃ frames, next.sent = ps.sent ++ frames ∧
    ∀ frame ∈ frames, ∀ topic ∈ frame.listens, topic.startsWith start = false

theorem Silent.refl (start : QString) (ps : PubSub) : Silent start ps ps :=
  ⟨[], (List.append_nil _).symm, fun _ member => absurd member List.not_mem_nil⟩

theorem Silent.trans {start : QString} {ps next final : PubSub} (first : Silent start ps next)
    (second : Silent start next final) : Silent start ps final := by
  obtain ⟨frames, sent, silent⟩ := first
  obtain ⟨frames', sent', silent'⟩ := second
  refine ⟨frames ++ frames', by rw [sent', sent, List.append_assoc], ?_⟩
  intro frame member
  rcases List.mem_append.mp member with earlier | later
  · exact silent frame earlier
  · exact silent' frame later

theorem Absent.step {ps next : PubSub} {e : Event} {start : QString} (absent : Absent start ps)
    (unasked : ps.Unasked start e) (taken : ps.step e = some next) : Absent start next ∧ Silent start ps next := by
  have of_adds {added : Multiset QString} (adds : Adds ps next added)
      (clean : ∀ topic ∈ added, topic.startsWith start = false) : Absent start next ∧ Silent start ps next := by
    have still : Absent start next := by
      intro topic member
      rw [adds.topics] at member
      rcases Multiset.mem_add.mp member with fresh | old
      · exact clean topic fresh
      · exact absent topic old
    obtain ⟨frames, sent, known⟩ := adds.sent
    exact ⟨still, frames, sent, fun frame member topic listens => still topic (known frame member topic listens)⟩
  cases step_topics taken with
  | adds topic asked adds =>
    apply of_adds adds
    intro other member
    rw [Multiset.mem_singleton.mp member]
    exact unasked topic asked
  | moves asked starts moves => exact of_adds moves fun _ member => absurd member (Multiset.notMem_zero _)
  | removes asked removes =>
    obtain ⟨frames, sent, silent⟩ := removes.sent
    refine ⟨absent.removes removes, frames, sent, fun frame member topic listens => ?_⟩
    rw [silent frame member] at listens
    exact absurd listens List.not_mem_nil

theorem Absent.run {ps final : PubSub} {events : List Event} {start : QString} (absent : Absent start ps)
    (unasked : Along PubSub.step (Unasked start) ps events) (ran : Foundation.run PubSub.step ps events = some final) :
    Silent start ps final := by
  induction events generalizing ps with
  | nil => exact Option.some.inj ran ▸ .refl start ps
  | cons e events ih =>
    obtain ⟨next, taken, rest⟩ := run_cons ran
    obtain ⟨still, silent⟩ := absent.step unasked.1 taken
    exact silent.trans (ih still (unasked.next taken) rest)

theorem count_step {ps next : PubSub} {e : Event} (once : ∀ topic, ps.topics.count topic ≤ 1)
    (careful : ps.Careful e) (taken : ps.step e = some next) : ∀ topic, next.topics.count topic ≤ 1 := by
  intro topic
  cases step_topics taken with
  | adds fresh asked adds =>
    have unknown : fresh ∉ ps.topics := by
      intro member
      rcases mem_topics.mp member with listening | requested
      · rw [not_listening_of_asked asked] at listening
        cases listening
      · exact careful.1 fresh asked requested
    rw [adds.topics, Multiset.count_add, Multiset.count_singleton]
    split
    · next same => rw [same, Multiset.count_eq_zero.mpr unknown]
    · rw [Nat.zero_add]
      exact once topic
  | moves asked starts moves =>
    rw [moves.topics, zero_add]
    exact once topic
  | removes asked removes =>
    obtain ⟨removed, topics, _⟩ := removes.topics
    have less : next.topics ≤ ps.topics := topics ▸ Multiset.le_add_right _ _
    exact (Multiset.count_le_of_le topic less).trans (once topic)

/-- In a careful run every topic is listened to or requested at most once, and behind an
unlisten no LISTEN carries a topic with its prefix before somebody asks for one again. -/
theorem unlistened_stays_unlistened {events : List Event} {final : PubSub} (ran : run step {} events = some final)
    (careful : Along step Careful {} events) :
    (∀ topic, final.topics.count topic ≤ 1) ∧
    ∀ before e behind state start, events = before ++ e :: behind → start ∈ unlistened e →
      run step {} (before ++ [e]) = some state → Along step (Unasked start) state behind →
      ∃ frames, final.sent = state.sent ++ frames ∧
        ∀ frame ∈ frames, ∀ topic ∈ frame.listens, topic.startsWith start = false := by
  constructor
  · exact run_invariant (fun _ _ _ once careful taken => count_step once careful taken) careful ran
      fun topic => Nat.zero_le 1
  · rintro before e behind state start rfl known reached unasked
    obtain ⟨ps, earlier, last⟩ := run_append reached
    obtain ⟨next, taken, same⟩ := run_cons last
    obtain rfl := Option.some.inj same
    obtain ⟨ps', earlier', rest⟩ := run_append ran
    obtain rfl := Option.some.inj (earlier.symm.trans earlier')
    obtain ⟨next', taken', rest⟩ := run_cons rest
    obtain rfl := Option.some.inj (taken.symm.trans taken')
    have clean := (careful.behind earlier).1.2 start known
    exact (absent_of_unlistened taken known clean).run unasked rest

/-- An account switch behind the connection of a topic, and a request of the new user. -/
theorem unlistened_stays_unlistened_switch :
    ∃ frames, [Frame.LISTEN [communityPoints ++ qs "11"] [], .UNLISTEN [communityPoints ++ qs "11"],
        .LISTEN [automodQueue ++ qs "1.11"] []] =
        [Frame.LISTEN [communityPoints ++ qs "11"] [], .UNLISTEN [communityPoints ++ qs "11"]] ++ frames ∧
      ∀ frame ∈ frames, ∀ topic ∈ frame.listens, topic.startsWith communityPoints = false := by
  have holds := (@unlistened_stays_unlistened [.listenTo .channelPointRewards (qs "11") false true,
    .opened 0 true, .currentUserChanged [] (qs "1"), .listenTo .automod (qs "11") false true] _ rfl (by decide)).2
  exact holds [.listenTo .channelPointRewards (qs "11") false true, .opened 0 true] (.currentUserChanged [] (qs "1"))
    [.listenTo .automod (qs "11") false true] _ communityPoints rfl (by decide) rfl (by decide)

/-- A topic that is requested twice before the connection opens, and one that is unlistened
from before it opens. -/
theorem relistened :
    (¬ ∀ events final, run step {} events = some final → ∀ topic, final.topics.count topic ≤ 1) ∧
    ¬ ∀ before e behind state final start, start ∈ unlistened e → run step {} (before ++ [e]) = some state →
      run step state behind = some final → Along step (Unasked start) state behind →
      ∃ frames, final.sent = state.sent ++ frames ∧
        ∀ frame ∈ frames, ∀ topic ∈ frame.listens, topic.startsWith start = false := by
  constructor
  · intro holds
    have twice := holds [.listenTo .channelPointRewards (qs "11") false true,
      .listenTo .channelPointRewards (qs "11") false true] _ rfl (communityPoints ++ qs "11")
    exact absurd twice (by decide)
  · intro holds
    obtain ⟨frames, sent, silent⟩ := holds [.listenTo .channelPointRewards (qs "11") false true]
      (.unlistenPrefix communityPoints) [.opened 0 true] _ _ communityPoints (by decide) rfl rfl (by decide)
    obtain rfl : [Frame.LISTEN [communityPoints ++ qs "11"] []] = frames := sent
    have listened := silent _ (List.mem_singleton.mpr rfl) _ (List.mem_singleton.mpr rfl)
    exact absurd listened (by decide)

end PubSub

end Forserino.TwitchPubSub
