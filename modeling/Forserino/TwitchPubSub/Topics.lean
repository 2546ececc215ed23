import Mathlib.Algebra.Order.Group.Multiset
import Forserino.TwitchPubSub.Manager

/-! Where the topics are: among the listeners of the clients, and in the requests.
Requests and connections that close or open move topics; none gets lost.
-/

set_option autoImplicit false

namespace Forserino.TwitchPubSub

open Qt Foundation

namespace PubSubClient

/-- The counter of the client counts its listeners, and there are not too many of them. -/
structure Counted (client : PubSubClient) : Prop where
  numListens : client.numListens.toNat = client.listeners.length
  bounded : client.listeners.length ≤ MAX_LISTENS

theorem listen_some {client listening : PubSubClient} {topics : List QString}
    (answer : client.listen topics = some listening) :
    listening.listeners = client.listeners ++ topics ∧ (client.Counted → listening.Counted) := by
  unfold listen at answer
  split at answer
  · cases answer
  · next room =>
    obtain rfl := Option.some.inj answer
    refine ⟨rfl, fun counted => ?_⟩
    rw [counted.numListens] at room
    have small : client.listeners.length + topics.length ≤ MAX_LISTENS := Nat.not_lt.mp room
    have added : (UInt16.ofNat topics.length).toNat = topics.length := by
      apply UInt16.toNat_ofNat_of_lt'
      unfold MAX_LISTENS at small
      show topics.length < 65536
      omega
    constructor
    · show (client.numListens + UInt16.ofNat topics.length).toNat = (client.listeners ++ topics).length
      rw [UInt16.toNat_add, counted.numListens, added, List.length_append]
      unfold MAX_LISTENS at small
      omega
    · rwa [List.length_append]

theorem Counted.unlistenPrefix {client : PubSubClient} (counted : client.Counted) (start : QString) :
    (client.unlistenPrefix start).1.Counted := by
  unfold PubSubClient.unlistenPrefix
  dsimp only
  split
  · exact counted
  · have parts := List.length_eq_length_filter_add (l := client.listeners) (·.startsWith start)
    have bounded := counted.bounded
    have removed : (UInt16.ofNat (client.listeners.filter (·.startsWith start)).length).toNat =
        (client.listeners.filter (·.startsWith start)).length := by
      apply UInt16.toNat_ofNat_of_lt'
      unfold MAX_LISTENS at bounded
      show _ < 65536
      omega
    have enough : UInt16.ofNat (client.listeners.filter (·.startsWith start)).length ≤ client.numListens := by
      rw [UInt16.le_iff_toNat_le, removed, counted.numListens]
      omega
    constructor
    · show (client.numListens - _).toNat = (client.listeners.filter (!·.startsWith start)).length
      rw [UInt16.toNat_sub_of_le _ _ enough, removed, counted.numListens]
      omega
    · show (client.listeners.filter (!·.startsWith start)).length ≤ MAX_LISTENS
      omega

theorem unlistenPrefix_listeners (client : PubSubClient) (start : QString) :
    (client.unlistenPrefix start).1.listeners = client.listeners.filter (!·.startsWith start) := by
  unfold unlistenPrefix
  dsimp only
  split
  · next none =>
    rw [List.isEmpty_iff, List.filter_eq_nil_iff] at none
    symm
    rw [List.filter_eq_self]
    intro topic member
    rw [Bool.not_eq_true', ← Bool.not_eq_true]
    exact none topic member
  · rfl

end PubSubClient

namespace PubSub

/-- All topics, as often as they are among the listeners of the clients and in the requests. -/
def topics (ps : PubSub) : Multiset QString := ↑(ps.clients.flatMap (·.listeners)) + ↑ps.requests

def Counted (ps : PubSub) : Prop := ∀ client ∈ ps.clients, client.Counted

/-- The manager has these topics more, asks in its frames only for topics that it has, and
still counts them. -/
structure Adds (ps next : PubSub) (added : Multiset QString) : Prop where
  topics : next.topics = added + ps.topics
  sent : ∃ frames, next.sent = ps.sent ++ frames ∧ ∀ frame ∈ frames, ∀ topic ∈ frame.listens, topic ∈ next.topics
  counted : ps.Counted → next.Counted

namespace Adds

theorem of_frame {ps next : PubSub} (clients : next.clients = ps.clients) (requests : next.requests = ps.requests)
    (sent : next.sent = ps.sent) : Adds ps next 0 := by
  constructor
  · rw [PubSub.topics, PubSub.topics, clients, requests, Multiset.zero_add]
  · exact ⟨[], by rw [sent, List.append_nil], fun _ member => absurd member List.not_mem_nil⟩
  · intro counted
    rwa [PubSub.Counted, clients]

theorem trans {ps next final : PubSub} {first second : Multiset QString} (left : Adds ps next first)
    (right : Adds next final second) : Adds ps final (second + first) := by
  constructor
  · rw [right.topics, left.topics, add_assoc]
  · obtain ⟨before, sent, asked⟩ := left.sent
    obtain ⟨behind, sent', asked'⟩ := right.sent
    refine ⟨before ++ behind, by rw [sent', sent, List.append_assoc], ?_⟩
    intro frame member topic listens
    rcases List.mem_append.mp member with earlier | later
    · rw [right.topics]
      exact Multiset.mem_add.mpr (.inr (asked frame earlier topic listens))
    · exact asked' frame later topic listens
  · exact fun counted => right.counted (left.counted counted)

end Adds

theorem addClient_adds (ps : PubSub) (connects : Bool) : Adds ps (ps.addClient connects) 0 := by
  unfold addClient
  split
  · exact .of_frame rfl rfl rfl
  · split <;> exact .of_frame rfl rfl rfl

theorem tryListenAmong_some {topics : List QString} {clients answered : List PubSubClient}
    (found : tryListenAmong topics clients = some answered) :
    ∃ front client listening back, clients = front ++ client :: back ∧ answered = front ++ listening :: back ∧
      client.listen topics = some listening := by
  induction clients generalizing answered with
  | nil => cases found
  | cons client rest ih =>
    unfold tryListenAmong at found
    split at found
    · next listening answer =>
      obtain rfl := Option.some.inj found
      exact ⟨[], client, listening, rest, rfl, rfl, answer⟩
    · obtain ⟨rest, answers, rfl⟩ := Option.map_eq_some_iff.mp found
      obtain ⟨front, asked, listening, back, rfl, rfl, answer⟩ := ih answers
      exact ⟨client :: front, asked, listening, back, rfl, rfl, answer⟩

theorem listen_adds (ps : PubSub) (topics : List QString) (token : QString) (connects : Bool) :
    Adds ps (ps.listen topics token connects) ↑topics := by
  unfold PubSub.listen
  split
  · next tried =>
    obtain ⟨answered, found, rfl⟩ := Option.map_eq_some_iff.mp tried
    obtain ⟨front, client, listening, back, clients, rfl, answer⟩ := tryListenAmong_some found
    obtain ⟨listeners, counts⟩ := PubSubClient.listen_some answer
    have all : PubSub.topics { ps with clients := front ++ listening :: back, sent := ps.sent ++ [.LISTEN topics token] } =
        ↑topics + ps.topics := by
      simp only [PubSub.topics, clients, List.flatMap_append, List.flatMap_cons, listeners, ← Multiset.coe_add]
      ac_rfl
    constructor
    · exact all
    · refine ⟨[.LISTEN topics token], rfl, ?_⟩
      intro frame member topic listens
      obtain rfl := List.mem_singleton.mp member
      rw [all]
      exact Multiset.mem_add.mpr (.inl listens)
    · intro counted other member
      unfold PubSub.Counted at counted
      rw [clients] at counted
      rcases List.mem_append.mp member with before | rest
      · exact counted other (List.mem_append_left _ before)
      · rcases List.mem_cons.mp rest with rfl | behind
        · exact counts (counted client (List.mem_append_right _ List.mem_cons_self))
        · exact counted other (List.mem_append_right _ (List.mem_cons_of_mem _ behind))
  · have waiting : Adds (ps.addClient connects)
        { ps.addClient connects with requests := (ps.addClient connects).requests ++ topics } ↑topics := by
      constructor
      · simp only [PubSub.topics, ← Multiset.coe_add]
        ac_rfl
      · exact ⟨[], (List.append_nil _).symm, fun _ member => absurd member List.not_mem_nil⟩
      · exact id
    have both := (addClient_adds ps connects).trans waiting
    rwa [add_zero] at both

theorem listenToTopic_adds (connects : Bool) (ps : PubSub) (topic : QString) :
    Adds ps (ps.listenToTopic connects topic) {topic} :=
  listen_adds ps [topic] _ connects

/-- The listeners of a closed client are all requested again. -/
theorem relisten_adds (connects : Bool) (ps : PubSub) (listeners : List QString) :
    Adds ps (listeners.foldl (listenToTopic connects) ps) ↑listeners := by
  induction listeners generalizing ps with
  | nil => exact .of_frame rfl rfl rfl
  | cons topic listeners ih =>
    have both := (listenToTopic_adds connects ps topic).trans (ih (ps.listenToTopic connects topic))
    rwa [Multiset.add_comm, ← Multiset.coe_singleton, Multiset.coe_add] at both

/-- A new client takes the first requests, and always has room for them. -/
theorem onConnectionOpen_adds (ps : PubSub) (place : Nat) (connects : Bool) :
    Adds ps (ps.onConnectionOpen place connects) 0 := by
  have room : ∃ client, PubSubClient.listen {} (ps.requests.take (min ps.requests.length MAX_LISTENS)) = some client := by
    unfold PubSubClient.listen
    rw [if_neg]
    · exact ⟨_, rfl⟩
    · rw [List.length_take]
      show ¬ 0 + _ > MAX_LISTENS
      omega
  obtain ⟨client, answer⟩ := room
  obtain ⟨listeners, counts⟩ := PubSubClient.listen_some answer
  have moved (opened : PubSub) (clients : opened.clients = ps.clients.take place ++ client :: ps.clients.drop place)
      (requests : opened.requests = ps.requests.drop (min ps.requests.length MAX_LISTENS))
      (sent : opened.sent = ps.sent ++ [.LISTEN (ps.requests.take (min ps.requests.length MAX_LISTENS)) ps.token]) :
      Adds ps opened 0 := by
    have same : opened.topics = 0 + ps.topics := by
      have whole : (ps.requests : Multiset QString) = ↑(ps.requests.take (min ps.requests.length MAX_LISTENS)) +
          ↑(ps.requests.drop (min ps.requests.length MAX_LISTENS)) := by
        rw [Multiset.coe_add, List.take_append_drop]
      have all : (ps.clients.flatMap (·.listeners) : Multiset QString) = ↑((ps.clients.take place).flatMap (·.listeners)) +
          ↑((ps.clients.drop place).flatMap (·.listeners)) := by
        rw [Multiset.coe_add, ← List.flatMap_append, List.take_append_drop]
      simp only [PubSub.topics, clients, requests, whole, all, List.flatMap_append, List.flatMap_cons, listeners,
        List.nil_append, ← Multiset.coe_add, zero_add]
      ac_rfl
    constructor
    · exact same
    · refine ⟨_, sent, ?_⟩
      intro frame member topic listens
      obtain rfl := List.mem_singleton.mp member
      rw [same, zero_add]
      exact Multiset.mem_add.mpr (.inr (List.mem_of_mem_take listens))
    · intro counted other member
      rw [clients] at member
      rcases List.mem_append.mp member with before | rest
      · exact counted other (List.mem_of_mem_take before)
      · rcases List.mem_cons.mp rest with rfl | behind
        · exact counts ⟨rfl, Nat.zero_le _⟩
        · exact counted other (List.mem_of_mem_drop behind)
  unfold onConnectionOpen
  dsimp only
  rw [answer]
  dsimp only
  split
  · exact moved _ rfl rfl rfl
  · exact (moved _ rfl rfl rfl).trans (addClient_adds _ connects)

theorem onConnectionFail_adds (ps : PubSub) : Adds ps ps.onConnectionFail 0 := by
  unfold onConnectionFail
  dsimp only
  split <;> exact .of_frame rfl rfl rfl

theorem onConnectionClose_adds {ps : PubSub} {place : Nat} {client : PubSubClient}
    (closed : ps.clients[place]? = some client) (connects : Bool) : Adds ps (ps.onConnectionClose place client connects) 0 := by
  have moved := relisten_adds connects { ps with clients := ps.clients.eraseIdx place } client.listeners
  have without : ps.topics = ↑client.listeners + PubSub.topics { ps with clients := ps.clients.eraseIdx place } := by
    obtain ⟨inside, rfl⟩ := List.getElem?_eq_some_iff.mp closed
    have whole : ps.clients = ps.clients.take place ++ ps.clients[place] :: ps.clients.drop (place + 1) := by
      rw [← List.drop_eq_getElem_cons inside, List.take_append_drop]
    simp only [PubSub.topics, List.eraseIdx_eq_take_drop_succ, List.flatMap_append, ← Multiset.coe_add]
    conv_lhs => rw [whole, List.flatMap_append, List.flatMap_cons]
    simp only [← Multiset.coe_add]
    ac_rfl
  constructor
  · rw [zero_add, without]
    exact moved.topics
  · exact moved.sent
  · intro counted
    exact moved.counted fun other member => counted other (List.mem_of_mem_eraseIdx member)

theorem unlistenPrefix_topics (ps : PubSub) (start : QString) : (ps.unlistenPrefix start).topics =
    ↑((ps.clients.flatMap (·.listeners)).filter (!·.startsWith start)) + ↑ps.requests := by
  simp only [PubSub.topics, unlistenPrefix, List.flatMap_map, PubSubClient.unlistenPrefix_listeners,
    List.filter_flatMap]

/-- The manager has lost topics that start with one of these, has asked for none, and still
counts them. -/
structure Removes (ps next : PubSub) (starts : List QString) : Prop where
  topics : ∃ removed, next.topics + removed = ps.topics ∧
    ∀ topic ∈ removed, ∃ start ∈ starts, topic.startsWith start = true
  sent : ∃ frames, next.sent = ps.sent ++ frames ∧ ∀ frame ∈ frames, frame.listens = []
  counted : ps.Counted → next.Counted

theorem Removes.trans {ps next final : PubSub} {first second : List QString} (left : Removes ps next first)
    (right : Removes next final second) : Removes ps final (first ++ second) := by
  obtain ⟨removed, topics, starts⟩ := left.topics
  obtain ⟨removed', topics', starts'⟩ := right.topics
  obtain ⟨frames, sent, silent⟩ := left.sent
  obtain ⟨frames', sent', silent'⟩ := right.sent
  refine ⟨⟨removed' + removed, by rw [← add_assoc, topics', topics], ?_⟩,
    ⟨frames ++ frames', by rw [sent', sent, List.append_assoc], ?_⟩, fun counted => right.counted (left.counted counted)⟩
  · intro topic member
    rcases Multiset.mem_add.mp member with later | earlier
    · obtain ⟨start, known, starting⟩ := starts' topic later
      exact ⟨start, List.mem_append_right _ known, starting⟩
    · obtain ⟨start, known, starting⟩ := starts topic earlier
      exact ⟨start, List.mem_append_left _ known, starting⟩
  · intro frame member
    rcases List.mem_append.mp member with earlier | later
    · exact silent frame earlier
    · exact silent' frame later

theorem unlistenPrefix_removes (ps : PubSub) (start : QString) : Removes ps (ps.unlistenPrefix start) [start] := by
  constructor
  · refine ⟨↑((ps.clients.flatMap (·.listeners)).filter (·.startsWith start)), ?_, ?_⟩
    · have parts := List.filter_append_perm (·.startsWith start) (ps.clients.flatMap (·.listeners))
      rw [unlistenPrefix_topics, PubSub.topics, ← Multiset.coe_eq_coe.mpr parts, ← Multiset.coe_add]
      ac_rfl
    · intro topic member
      exact ⟨start, List.mem_singleton.mpr rfl, (List.mem_filter.mp member).2⟩
  · refine ⟨_, rfl, ?_⟩
    intro frame member
    obtain ⟨client, _, unlistened⟩ := List.mem_filterMap.mp member
    dsimp only at unlistened
    split at unlistened
    · cases unlistened
    · obtain rfl := Option.some.inj unlistened
      rfl
  · intro counted other member
    obtain ⟨client, known, rfl⟩ := List.mem_map.mp member
    exact (counted client known).unlistenPrefix start

/-- The topic that a request stands for. -/
def topicOf (ps : PubSub) (channelID : QString) : Request → QString
  | .channelModerationActions => moderatorActions ++ ps.userID ++ qs "." ++ channelID
  | .automod => automodQueue ++ ps.userID ++ qs "." ++ channelID
  | .lowTrustUsers => lowTrustUsers ++ ps.userID ++ qs "." ++ channelID
  | .channelPointRewards => communityPoints ++ channelID

/-- The request is not ignored from the start. -/
def accepts (ps : PubSub) (enableExperimentalEventSub : Bool) : Request → Bool
  | .channelPointRewards => true
  | _ => !enableExperimentalEventSub && !ps.userID.isEmpty

/-- The topic with which the event calls listenToTopic. -/
def asked (ps : PubSub) : Event → Option QString
  | .listenTo request channelID enableExperimentalEventSub _ =>
      let topic := ps.topicOf channelID request
      if ps.accepts enableExperimentalEventSub request && !ps.isListeningToTopic topic then some topic else none
  | _ => none

/-- The prefixes for which the event calls unlistenPrefix. -/
def unlistened : Event → List QString
  | .unlistenPrefix start => [start]
  | .currentUserChanged _ _ => [moderatorActions, automodQueue, lowTrustUsers, communityPoints]
  | _ => []

theorem listenTo_asked (ps : PubSub) (request : Request) (channelID : QString) (enableExperimentalEventSub connects : Bool) :
    ps.listenTo request channelID enableExperimentalEventSub connects =
      match ps.asked (.listenTo request channelID enableExperimentalEventSub connects) with
      | some topic => ps.listenToTopic connects topic
      | none => ps := by
  have user (start : QString) : listenToUserTopic start ps channelID enableExperimentalEventSub connects =
      match (if (!enableExperimentalEventSub && !ps.userID.isEmpty) &&
          !ps.isListeningToTopic (start ++ ps.userID ++ qs "." ++ channelID)
        then some (start ++ ps.userID ++ qs "." ++ channelID) else none) with
      | some topic => ps.listenToTopic connects topic
      | none => ps := by
    unfold listenToUserTopic
    cases enableExperimentalEventSub with
    | true => rfl
    | false =>
      cases ps.userID.isEmpty with
      | true => rfl
      | false =>
        dsimp only
        cases ps.isListeningToTopic (start ++ ps.userID ++ qs "." ++ channelID) <;> rfl
  cases request with
  | channelModerationActions => exact user moderatorActions
  | automod => exact user automodQueue
  | lowTrustUsers => exact user lowTrustUsers
  | channelPointRewards =>
    unfold PubSub.listenTo PubSub.asked listenToChannelPointRewards topicOf accepts
    dsimp only
    cases ps.isListeningToTopic (communityPoints ++ channelID) <;> rfl

theorem Removes.setAccount {ps next : PubSub} {starts : List QString} (removes : Removes ps next starts)
    (token userID : QString) : Removes ps (next.setAccount token userID) starts :=
  ⟨removes.topics, removes.sent, removes.counted⟩

theorem currentUserChanged_removes (ps : PubSub) (token userID : QString) :
    Removes ps (ps.currentUserChanged token userID)
      [moderatorActions, automodQueue, lowTrustUsers, communityPoints] := by
  let actions := ps.unlistenChannelModerationActions
  let automod := actions.unlistenAutomod
  let lowTrust := automod.unlistenLowTrustUsers
  have first : Removes ps actions [moderatorActions] := unlistenPrefix_removes ps moderatorActions
  have second : Removes actions automod [automodQueue] := unlistenPrefix_removes actions automodQueue
  have third : Removes automod lowTrust [lowTrustUsers] := unlistenPrefix_removes automod lowTrustUsers
  have fourth : Removes lowTrust lowTrust.unlistenChannelPointRewards [communityPoints] :=
    unlistenPrefix_removes lowTrust communityPoints
  exact (((first.trans second).trans third).trans fourth).setAccount token userID

/-- What a step does to the topics: it adds the topic that it calls listenToTopic with, it
removes topics that it unlistens from, or it moves them. -/
inductive TopicStep (ps next : PubSub) (e : Event) : Prop
  | adds (topic : QString) (asked : ps.asked e = some topic) (adds : Adds ps next {topic})
  | moves (asked : ps.asked e = none) (starts : unlistened e = []) (moves : Adds ps next 0)
  | removes (asked : ps.asked e = none) (removes : Removes ps next (unlistened e))

theorem step_topics {ps next : PubSub} {e : Event} (taken : ps.step e = some next) : TopicStep ps next e := by
  cases e with
  | listenTo request channelID enableExperimentalEventSub connects =>
    obtain rfl := Option.some.inj taken
    rw [listenTo_asked]
    cases asked : ps.asked (.listenTo request channelID enableExperimentalEventSub connects) with
    | none => exact .moves asked rfl (.of_frame rfl rfl rfl)
    | some topic => exact .adds topic asked (listenToTopic_adds connects ps topic)
  | unlistenPrefix start =>
    obtain rfl := Option.some.inj taken
    exact .removes rfl (unlistenPrefix_removes ps start)
  | currentUserChanged token userID =>
    obtain rfl := Option.some.inj taken
    exact .removes rfl (currentUserChanged_removes ps token userID)
  | opened place connects =>
    obtain ⟨_, same⟩ := Option.ite_none_right_eq_some.mp taken
    obtain rfl := Option.some.inj same
    have moves := onConnectionOpen_adds { ps with attempts := ps.attempts - 1 } place connects
    exact .moves rfl rfl ⟨moves.topics, moves.sent, moves.counted⟩
  | failed =>
    obtain ⟨_, same⟩ := Option.ite_none_right_eq_some.mp taken
    obtain rfl := Option.some.inj same
    have moves := onConnectionFail_adds { ps with attempts := ps.attempts - 1 }
    exact .moves rfl rfl ⟨moves.topics, moves.sent, moves.counted⟩
  | closed place connects =>
    unfold PubSub.step at taken
    dsimp only at taken
    split at taken
    · cases taken
    · next client closed =>
      obtain rfl := Option.some.inj taken
      exact .moves rfl rfl (onConnectionClose_adds closed connects)
  | reconnect timer connects =>
    obtain ⟨_, same⟩ := Option.ite_none_right_eq_some.mp taken
    obtain rfl := Option.some.inj same
    have moves := addClient_adds { ps with timers := ps.timers.eraseIdx timer } connects
    exact .moves rfl rfl ⟨moves.topics, moves.sent, moves.counted⟩

theorem Counted.step {ps next : PubSub} {e : Event} (counted : ps.Counted) (taken : ps.step e = some next) :
    next.Counted := by
  cases step_topics taken with
  | adds topic asked adds => exact adds.counted counted
  | moves asked starts moves => exact moves.counted counted
  | removes asked removes => exact removes.counted counted

/-- A step from a reachable state adds the topic that it calls listenToTopic with, and removes
only topics that it unlistens from; every client counts its listeners, and has room for them. -/
theorem topics_conserved {events : List Event} {ps next : PubSub} {e : Event} (ran : run step {} events = some ps)
    (taken : ps.step e = some next) :
    (∃ removed, next.topics + removed = (ps.asked e).elim 0 ({·}) + ps.topics ∧
      ∀ topic ∈ removed, ∃ start ∈ unlistened e, topic.startsWith start = true) ∧
    ∀ client ∈ next.clients, client.numListens.toNat = client.listeners.length ∧
      client.numListens.toNat ≤ MAX_LISTENS := by
  have counted : next.Counted := by
    have before : ps.Counted := run_keeps (fun _ _ _ counted taken => counted.step taken) ran
      fun _ member => absurd member List.not_mem_nil
    exact before.step taken
  refine ⟨?_, fun client member => ⟨(counted client member).numListens, ?_⟩⟩
  · cases step_topics taken with
    | adds topic asked adds =>
      rw [asked]
      exact ⟨0, by rw [add_zero]; exact adds.topics, fun _ member => absurd member (Multiset.notMem_zero _)⟩
    | moves asked starts moves =>
      rw [asked]
      exact ⟨0, by rw [add_zero]; exact moves.topics, fun _ member => absurd member (Multiset.notMem_zero _)⟩
    | removes asked removes =>
      obtain ⟨removed, topics, starts⟩ := removes.topics
      rw [asked]
      exact ⟨removed, by rw [topics]; exact (zero_add _).symm, starts⟩
  · rw [(counted client member).numListens]
    exact (counted client member).bounded

/-- The connection opens for a queued topic. -/
theorem topics_conserved_opened :
    (run step {} [.listenTo .channelPointRewards (qs "11") false true, .opened 0 true]).map PubSub.clients =
        some [{ numListens := 1, listeners := [communityPoints ++ qs "11"] }] ∧
      ∀ client ∈ [({ numListens := 1, listeners := [communityPoints ++ qs "11"] } : PubSubClient)],
        client.numListens.toNat = client.listeners.length ∧ client.numListens.toNat ≤ MAX_LISTENS := by
  have conserved := @topics_conserved [.listenTo .channelPointRewards (qs "11") false true] _ _ (.opened 0 true) rfl rfl
  constructor
  · rfl
  · exact conserved.2

end PubSub

end Forserino.TwitchPubSub
