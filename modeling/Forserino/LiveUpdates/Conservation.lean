import Forserino.LiveUpdates.PubSub

/-! Where a subscription is: in the subscription sets of the clients, and among the pending
subscriptions. Connections move it around; only unsubscribe takes it away.
-/

set_option autoImplicit false

namespace Forserino.LiveUpdates

open Foundation

variable {Subscription : Type}

namespace Manager

/-- One client answers, the ones before it do not, and the ones behind it are not asked. -/
theorem firstClient_some {change : Client Subscription → Option (Client Subscription)}
    {clients answered : List (Client Subscription)} (found : firstClient change clients = some answered) :
    ∃ front client changed back, clients = front ++ client :: back ∧ answered = front ++ changed :: back ∧
      change client = some changed ∧ ∀ other ∈ front, change other = none := by
  induction clients generalizing answered with
  | nil => cases found
  | cons client rest ih =>
    unfold firstClient at found
    split at found
    · next changed answer =>
      obtain rfl := Option.some.inj found
      exact ⟨[], client, changed, rest, rfl, rfl, answer, fun _ member => nomatch member⟩
    · next silent =>
      obtain ⟨rest, answers, rfl⟩ := Option.map_eq_some_iff.mp found
      obtain ⟨front, answering, changed, back, rfl, rfl, answer, before⟩ := ih answers
      exact ⟨client :: front, answering, changed, back, rfl, rfl, answer, List.forall_mem_cons.mpr ⟨silent, before⟩⟩

theorem firstClient_none {change : Client Subscription → Option (Client Subscription)}
    {clients : List (Client Subscription)} (found : firstClient change clients = none) :
    ∀ client ∈ clients, change client = none := by
  induction clients with
  | nil => exact fun _ member => nomatch member
  | cons client rest ih =>
    unfold firstClient at found
    split at found
    · cases found
    · next silent => exact List.forall_mem_cons.mpr ⟨silent, ih (Option.map_eq_none_iff.mp found)⟩

theorem addClient_frame (m : Manager Subscription) (connects : Bool) :
    (m.addClient connects).clients = m.clients ∧
      (m.addClient connects).pendingSubscriptions = m.pendingSubscriptions := by
  unfold addClient
  split
  · exact ⟨rfl, rfl⟩
  · split <;> exact ⟨rfl, rfl⟩

theorem onConnectionFail_frame (m : Manager Subscription) :
    m.onConnectionFail.clients = m.clients ∧ m.onConnectionFail.pendingSubscriptions = m.pendingSubscriptions := by
  unfold onConnectionFail
  dsimp only
  split <;> exact ⟨rfl, rfl⟩

variable [DecidableEq Subscription]

/-- How often the subscription is held over all clients and the pending subscriptions. -/
def copies (m : Manager Subscription) (subscription : Subscription) : Nat :=
  m.pendingSubscriptions.count subscription + m.clients.countP (subscription ∈ ·.subscriptions)

/-- No client holds more than its maximum. -/
def Bounded (m : Manager Subscription) : Prop :=
  ∀ client ∈ m.clients, client.subscriptions.card ≤ client.maxSubscriptions

theorem copies_pos {m : Manager Subscription} {subscription : Subscription} :
    0 < m.copies subscription ↔
      (∃ client ∈ m.clients, subscription ∈ client.subscriptions) ∨ subscription ∈ m.pendingSubscriptions := by
  rw [copies, Nat.add_pos_iff_pos_or_pos, List.count_pos_iff, List.countP_pos_iff, or_comm]
  simp only [decide_eq_true_eq]

theorem subscribe_client {client subscribed : Client Subscription} {subscription : Subscription}
    (took : client.subscribe subscription = some subscribed) :
    client.subscriptions.card < client.maxSubscriptions ∧
      subscribed = { client with subscriptions := insert subscription client.subscriptions } := by
  unfold Client.subscribe at took
  split at took
  · cases took
  · next room => exact ⟨Nat.not_le.mp room, (Option.some.inj took).symm⟩

theorem subscribe_bounded {client subscribed : Client Subscription} {subscription : Subscription}
    (took : client.subscribe subscription = some subscribed) :
    subscribed.subscriptions.card ≤ subscribed.maxSubscriptions := by
  obtain ⟨room, rfl⟩ := subscribe_client took
  exact (Finset.card_insert_le _ _).trans room

/-- What subscribe does to a manager: a client has the subscription now, or it is pending. -/
inductive Subscribed (m : Manager Subscription) (subscription : Subscription) : Manager Subscription → Prop
  | client (front back : List (Client Subscription)) (client : Client Subscription)
      (clients : m.clients = front ++ client :: back) (room : client.subscriptions.card < client.maxSubscriptions) :
      Subscribed m subscription { m with
        clients := front ++ { client with subscriptions := insert subscription client.subscriptions } :: back }
  | pending (m' : Manager Subscription) (clients : m'.clients = m.clients)
      (pending : m'.pendingSubscriptions = m.pendingSubscriptions ++ [subscription]) : Subscribed m subscription m'

theorem subscribe_subscribed (m : Manager Subscription) (connects : Bool) (subscription : Subscription) :
    Subscribed m subscription (m.subscribe connects subscription) := by
  unfold Manager.subscribe
  split
  · next subscribed tried =>
    obtain ⟨answered, found, rfl⟩ := Option.map_eq_some_iff.mp tried
    obtain ⟨front, client, changed, back, clients, rfl, took, _⟩ := firstClient_some found
    obtain ⟨room, rfl⟩ := subscribe_client took
    exact .client front back client clients room
  · obtain ⟨clients, pending⟩ := addClient_frame m connects
    exact .pending _ clients (congrArg (· ++ [subscription]) pending)

namespace Subscribed

variable {m m' : Manager Subscription} {subscription : Subscription}

theorem copies_self (subscribed : Subscribed m subscription m') :
    0 < m'.copies subscription ∧ m'.copies subscription ≤ m.copies subscription + 1 := by
  cases subscribed with
  | client front back client clients room =>
    simp only [copies, clients, List.countP_append, List.countP_cons, Finset.mem_insert_self, decide_true, if_true]
    omega
  | pending _ clients pending =>
    simp only [copies, clients, pending, List.count_append, List.count_singleton_self]
    omega

theorem copies_other (subscribed : Subscribed m subscription m') {other : Subscription} (apart : other ≠ subscription) :
    m'.copies other = m.copies other := by
  cases subscribed with
  | client front back client clients room =>
    simp only [copies, clients, List.countP_append, List.countP_cons, Finset.mem_insert, apart, false_or]
  | pending _ clients pending =>
    simp only [copies, clients, pending, List.count_append, List.count_singleton, beq_eq_false_iff_ne.mpr apart.symm,
      Bool.false_eq_true, if_false, Nat.add_zero]

theorem bounded (subscribed : Subscribed m subscription m') (bounded : m.Bounded) : m'.Bounded := by
  cases subscribed with
  | client front back client clients room =>
    intro other member
    unfold Bounded at bounded
    rw [clients] at bounded
    rcases List.mem_append.mp member with before | rest
    · exact bounded other (List.mem_append_left _ before)
    · rcases List.mem_cons.mp rest with rfl | behind
      · exact (Finset.card_insert_le _ _).trans room
      · exact bounded other (List.mem_append_right _ (List.mem_cons_of_mem _ behind))
  | pending _ clients pending =>
    unfold Bounded
    rwa [clients]

end Subscribed

/-- Every subscription is held where it was held before, and no more often. -/
def Moves (m m' : Manager Subscription) : Prop :=
  ∀ subscription, (0 < m.copies subscription → 0 < m'.copies subscription) ∧
    m'.copies subscription ≤ m.copies subscription

theorem Moves.of_frame {m m' : Manager Subscription} (clients : m'.clients = m.clients)
    (pending : m'.pendingSubscriptions = m.pendingSubscriptions) : Moves m m' := by
  intro subscription
  simp only [copies, clients, pending]
  exact ⟨id, Nat.le_refl _⟩

/-- What unsubscribe does to the subscription that it is called for, and to the others. -/
theorem unsubscribe_copies_self (m : Manager Subscription) (subscription : Subscription) :
    (m.unsubscribe subscription).copies subscription =
      m.pendingSubscriptions.count subscription + (m.clients.countP (subscription ∈ ·.subscriptions) - 1) := by
  unfold Manager.unsubscribe
  split
  · next answered found =>
    obtain ⟨front, client, changed, back, clients, rfl, answer, _⟩ := firstClient_some found
    obtain ⟨member, same⟩ := Option.ite_none_right_eq_some.mp answer
    obtain rfl := Option.some.inj same
    simp only [copies, clients, List.countP_append, List.countP_cons, Finset.notMem_erase, member, decide_true,
      decide_false, Bool.false_eq_true, if_true, if_false]
    omega
  · next nowhere =>
    have absent : m.clients.countP (subscription ∈ ·.subscriptions) = 0 := by
      apply List.countP_eq_zero.mpr
      intro client member held
      have silent := firstClient_none nowhere client member
      rw [Client.unsubscribe, if_pos (of_decide_eq_true held)] at silent
      cases silent
    rw [copies, absent]

theorem unsubscribe_copies_other (m : Manager Subscription) {subscription other : Subscription}
    (apart : other ≠ subscription) : (m.unsubscribe subscription).copies other = m.copies other := by
  unfold Manager.unsubscribe
  split
  · next answered found =>
    obtain ⟨front, client, changed, back, clients, rfl, answer, _⟩ := firstClient_some found
    obtain ⟨member, same⟩ := Option.ite_none_right_eq_some.mp answer
    obtain rfl := Option.some.inj same
    simp only [copies, clients, List.countP_append, List.countP_cons, Finset.mem_erase, ne_eq, apart, not_false_iff,
      true_and]
  · rfl

theorem unsubscribe_bounded {m : Manager Subscription} (bounded : m.Bounded) (subscription : Subscription) :
    (m.unsubscribe subscription).Bounded := by
  unfold Manager.unsubscribe
  split
  · next answered found =>
    obtain ⟨front, client, changed, back, clients, rfl, answer, _⟩ := firstClient_some found
    obtain ⟨member, same⟩ := Option.ite_none_right_eq_some.mp answer
    obtain rfl := Option.some.inj same
    unfold Bounded at bounded
    rw [clients] at bounded
    intro other asked
    rcases List.mem_append.mp asked with before | rest
    · exact bounded other (List.mem_append_left _ before)
    · rcases List.mem_cons.mp rest with rfl | behind
      · exact (Finset.card_erase_le).trans (bounded client (List.mem_append_right _ List.mem_cons_self))
      · exact bounded other (List.mem_append_right _ (List.mem_cons_of_mem _ behind))
  · exact bounded

/-- What a new client takes from the pending subscriptions it then has. -/
theorem takePending_copies {pendingSubsToTake : Nat} {client taken : Client Subscription}
    {pending left : List Subscription} {complete : Bool}
    (took : takePending pendingSubsToTake client pending = (taken, left, complete))
    (room : client.subscriptions.card + pendingSubsToTake ≤ client.maxSubscriptions) (subscription : Subscription) :
    (subscription ∈ client.subscriptions ∨ subscription ∈ pending →
      subscription ∈ taken.subscriptions ∨ subscription ∈ left) ∧
      left.count subscription + (if subscription ∈ taken.subscriptions then 1 else 0) ≤
        pending.count subscription + (if subscription ∈ client.subscriptions then 1 else 0) := by
  induction pendingSubsToTake generalizing client pending with
  | zero =>
    obtain ⟨rfl, rfl, rfl⟩ := took
    exact ⟨id, Nat.le_refl _⟩
  | succ pendingSubsToTake ih =>
    rcases pending.eq_nil_or_concat' with rfl | ⟨front, last, rfl⟩
    · obtain ⟨rfl, rfl, rfl⟩ := took
      exact ⟨id, Nat.le_refl _⟩
    · have notFull : ¬ client.maxSubscriptions ≤ client.subscriptions.card := by omega
      have grows := Finset.card_insert_le last client.subscriptions
      simp only [takePending, List.getLast?_concat, Client.subscribe, if_neg notFull, List.dropLast_concat] at took
      obtain ⟨keeps, least⟩ := ih took
        (by show (insert last client.subscriptions).card + _ ≤ client.maxSubscriptions; omega)
      simp only [Finset.mem_insert] at keeps least
      simp only [List.mem_append, List.mem_singleton, List.count_append, List.count_singleton]
      constructor
      · rintro (member | waiting | rfl)
        · exact keeps (.inl (.inr member))
        · exact keeps (.inr waiting)
        · exact keeps (.inl (.inl rfl))
      · grind

theorem takePending_bounded {pendingSubsToTake : Nat} {client taken : Client Subscription}
    {pending left : List Subscription} {complete : Bool}
    (took : takePending pendingSubsToTake client pending = (taken, left, complete))
    (bounded : client.subscriptions.card ≤ client.maxSubscriptions) :
    taken.subscriptions.card ≤ taken.maxSubscriptions := by
  induction pendingSubsToTake generalizing client pending with
  | zero =>
    obtain ⟨rfl, rfl, rfl⟩ := took
    exact bounded
  | succ pendingSubsToTake ih =>
    unfold takePending at took
    split at took
    · obtain ⟨rfl, rfl, rfl⟩ := took
      exact bounded
    · split at took
      · obtain ⟨rfl, rfl, rfl⟩ := took
        exact bounded
      · next subscribed answer => exact ih took (subscribe_bounded answer)

theorem onConnectionOpen_frame (m : Manager Subscription) (place maxSubscriptions : Nat) (connects : Bool) :
    ∃ client pending complete, takePending (min m.pendingSubscriptions.length maxSubscriptions) { maxSubscriptions }
        m.pendingSubscriptions = (client, pending, complete) ∧
      (m.onConnectionOpen place maxSubscriptions connects).clients =
        m.clients.take place ++ client :: m.clients.drop place ∧
      (m.onConnectionOpen place maxSubscriptions connects).pendingSubscriptions = pending := by
  refine ⟨_, _, _, rfl, ?_⟩
  unfold onConnectionOpen
  dsimp only
  split
  · exact addClient_frame _ _
  · exact ⟨rfl, rfl⟩

theorem countP_take_drop (subscription : Subscription) (clients : List (Client Subscription)) (place : Nat) :
    clients.countP (subscription ∈ ·.subscriptions) = (clients.take place).countP (subscription ∈ ·.subscriptions) +
      (clients.drop place).countP (subscription ∈ ·.subscriptions) := by
  rw [← List.countP_append, List.take_append_drop]

theorem onConnectionOpen_moves (m : Manager Subscription) (place maxSubscriptions : Nat) (connects : Bool) :
    Moves m (m.onConnectionOpen place maxSubscriptions connects) := by
  obtain ⟨client, pending, complete, took, clients, left⟩ :=
    onConnectionOpen_frame m place maxSubscriptions connects
  intro subscription
  obtain ⟨keeps, least⟩ := takePending_copies took (by simp) subscription
  simp only [Finset.notMem_empty, false_or, if_false, Nat.add_zero, ← List.count_pos_iff (l := pending),
    ← List.count_pos_iff (l := m.pendingSubscriptions)] at keeps least
  simp only [copies, clients, left, countP_take_drop subscription m.clients place, List.countP_append,
    List.countP_cons, decide_eq_true_eq]
  by_cases member : subscription ∈ client.subscriptions
  · simp only [member, if_true] at least ⊢
    omega
  · simp only [member, if_false, false_or, Nat.add_zero] at keeps least ⊢
    omega

theorem onConnectionOpen_bounded {m : Manager Subscription} (bounded : m.Bounded) (place maxSubscriptions : Nat)
    (connects : Bool) : (m.onConnectionOpen place maxSubscriptions connects).Bounded := by
  obtain ⟨client, pending, complete, took, clients, _⟩ := onConnectionOpen_frame m place maxSubscriptions connects
  intro other member
  rw [clients] at member
  rcases List.mem_append.mp member with before | rest
  · exact bounded other (List.mem_of_mem_take before)
  · rcases List.mem_cons.mp rest with rfl | behind
    · exact takePending_bounded took (Nat.zero_le _)
    · exact bounded other (List.mem_of_mem_drop behind)

/-- The subscriptions of a closed client are subscribed again, each of them once. -/
theorem subscribeAll_copies (m : Manager Subscription) (connects : Bool) {order : List Subscription}
    (nodup : order.Nodup) (subscription : Subscription) :
    (0 < m.copies subscription ∨ subscription ∈ order → 0 < (m.subscribeAll connects order).copies subscription) ∧
      (m.subscribeAll connects order).copies subscription ≤
        m.copies subscription + if subscription ∈ order then 1 else 0 := by
  induction order generalizing m with
  | nil => exact ⟨fun held => held.resolve_right List.not_mem_nil, Nat.le_refl _⟩
  | cons first order ih =>
    obtain ⟨fresh, nodup⟩ := List.nodup_cons.mp nodup
    obtain ⟨keeps, least⟩ := ih (m.subscribe connects first) nodup
    have subscribed := subscribe_subscribed m connects first
    show (_ → 0 < ((m.subscribe connects first).subscribeAll connects order).copies subscription) ∧
      ((m.subscribe connects first).subscribeAll connects order).copies subscription ≤ _
    by_cases same : subscription = first
    · subst same
      obtain ⟨held, more⟩ := subscribed.copies_self
      refine ⟨fun _ => keeps (.inl held), ?_⟩
      rw [if_neg fresh] at least
      rw [if_pos List.mem_cons_self]
      omega
    · rw [subscribed.copies_other same] at keeps least
      simp only [List.mem_cons, same, false_or]
      exact ⟨keeps, least⟩

theorem onConnectionClose_moves {m : Manager Subscription} {place : Nat} {order : List Subscription}
    {client : Client Subscription} (closed : m.clients[place]? = some client) (nodup : order.Nodup)
    (all : order.toFinset = client.subscriptions) (connects : Bool) :
    Moves m (m.onConnectionClose place order connects) := by
  intro subscription
  obtain ⟨keeps, least⟩ := subscribeAll_copies { m with clients := m.clients.eraseIdx place } connects nodup subscription
  have without : m.copies subscription =
      Manager.copies { m with clients := m.clients.eraseIdx place } subscription +
        if subscription ∈ order then 1 else 0 := by
    obtain ⟨inside, rfl⟩ := List.getElem?_eq_some_iff.mp closed
    have whole : m.clients = m.clients.take place ++ m.clients[place] :: m.clients.drop (place + 1) := by
      rw [← List.drop_eq_getElem_cons inside, List.take_append_drop]
    have member : subscription ∈ order ↔ subscription ∈ m.clients[place].subscriptions := by
      rw [← all, List.mem_toFinset]
    simp only [member, copies, List.eraseIdx_eq_take_drop_succ]
    rw [List.countP_append]
    conv_lhs => rw [whole, List.countP_append, List.countP_cons]
    simp only [decide_eq_true_eq]
    omega
  rw [onConnectionClose, without]
  refine ⟨fun held => keeps ?_, least⟩
  by_cases member : subscription ∈ order
  · exact .inr member
  · rw [if_neg member] at held
    exact .inl held

theorem subscribeAll_bounded {m : Manager Subscription} (bounded : m.Bounded) (connects : Bool)
    (order : List Subscription) : (m.subscribeAll connects order).Bounded := by
  induction order generalizing m with
  | nil => exact bounded
  | cons first order ih => exact ih ((subscribe_subscribed m connects first).bounded bounded)

end Manager

/-- The event comes from a connection or a timer. -/
def Event.isNetwork : Event Subscription → Bool
  | .subscribe _ _ | .unsubscribe _ => false
  | .opened _ _ _ | .failed | .closed _ _ _ | .reconnect _ _ => true

variable [DecidableEq Subscription]

namespace Manager

/-- Connections and timers only move subscriptions. -/
theorem moves_of_network {m next : Manager Subscription} {e : Event Subscription} (network : e.isNetwork = true)
    (taken : m.step e = some next) : Moves m next := by
  cases e with
  | subscribe subscription connects => cases network
  | unsubscribe subscription => cases network
  | opened place maxSubscriptions connects =>
    obtain ⟨_, same⟩ := Option.ite_none_right_eq_some.mp taken
    obtain rfl := Option.some.inj same
    exact onConnectionOpen_moves { m with attempts := m.attempts - 1 } place maxSubscriptions connects
  | failed =>
    obtain ⟨_, same⟩ := Option.ite_none_right_eq_some.mp taken
    obtain rfl := Option.some.inj same
    obtain ⟨clients, pending⟩ := onConnectionFail_frame { m with attempts := m.attempts - 1 }
    exact .of_frame clients pending
  | closed place order connects =>
    unfold Manager.step at taken
    dsimp only at taken
    split at taken
    · cases taken
    · next client closed =>
      obtain ⟨⟨nodup, all⟩, same⟩ := Option.ite_none_right_eq_some.mp taken
      obtain rfl := Option.some.inj same
      exact onConnectionClose_moves closed nodup all connects
  | reconnect timer connects =>
    obtain ⟨_, same⟩ := Option.ite_none_right_eq_some.mp taken
    obtain rfl := Option.some.inj same
    obtain ⟨clients, pending⟩ := addClient_frame { m with timers := m.timers.eraseIdx timer } connects
    exact .of_frame clients pending

theorem Bounded.step {m next : Manager Subscription} (bounded : m.Bounded) {e : Event Subscription}
    (taken : m.step e = some next) : next.Bounded := by
  cases e with
  | subscribe subscription connects =>
    obtain rfl := Option.some.inj taken
    exact (subscribe_subscribed m connects subscription).bounded bounded
  | unsubscribe subscription =>
    obtain rfl := Option.some.inj taken
    exact unsubscribe_bounded bounded subscription
  | opened place maxSubscriptions connects =>
    obtain ⟨_, same⟩ := Option.ite_none_right_eq_some.mp taken
    obtain rfl := Option.some.inj same
    exact onConnectionOpen_bounded (m := { m with attempts := m.attempts - 1 }) bounded place maxSubscriptions connects
  | failed =>
    obtain ⟨_, same⟩ := Option.ite_none_right_eq_some.mp taken
    obtain rfl := Option.some.inj same
    unfold Bounded
    rwa [(onConnectionFail_frame { m with attempts := m.attempts - 1 }).1]
  | closed place order connects =>
    unfold Manager.step at taken
    dsimp only at taken
    split at taken
    · cases taken
    · obtain ⟨_, same⟩ := Option.ite_none_right_eq_some.mp taken
      obtain rfl := Option.some.inj same
      exact subscribeAll_bounded (m := { m with clients := m.clients.eraseIdx place })
        (fun client member => bounded client (List.mem_of_mem_eraseIdx member)) connects order
  | reconnect timer connects =>
    obtain ⟨_, same⟩ := Option.ite_none_right_eq_some.mp taken
    obtain rfl := Option.some.inj same
    unfold Bounded
    rwa [(addClient_frame { m with timers := m.timers.eraseIdx timer } connects).1]

/-- Only unsubscribe takes a subscription away. -/
theorem held_of_step {m next : Manager Subscription} {e : Event Subscription} {subscription : Subscription}
    (taken : m.step e = some next) (other : e ≠ .unsubscribe subscription) (held : 0 < m.copies subscription) :
    0 < next.copies subscription := by
  cases e with
  | subscribe first connects =>
    obtain rfl := Option.some.inj taken
    by_cases same : subscription = first
    · exact same ▸ (subscribe_subscribed m connects first).copies_self.1
    · rwa [(subscribe_subscribed m connects first).copies_other same]
  | unsubscribe first =>
    obtain rfl := Option.some.inj taken
    have apart : subscription ≠ first := fun same => other (same ▸ rfl)
    rwa [unsubscribe_copies_other m apart]
  | opened _ _ _ | failed | closed _ _ _ | reconnect _ _ => exact (moves_of_network rfl taken subscription).1 held

theorem held_of_run {m final : Manager Subscription} {events : List (Event Subscription)} {subscription : Subscription}
    (ran : run Manager.step m events = some final) (kept : .unsubscribe subscription ∉ events)
    (held : 0 < m.copies subscription) : 0 < final.copies subscription := by
  induction events generalizing m with
  | nil => exact Option.some.inj ran ▸ held
  | cons e events ih =>
    obtain ⟨next, taken, rest⟩ := run_cons ran
    obtain ⟨other, kept⟩ := List.ne_and_not_mem_of_not_mem_cons kept
    exact ih rest kept (held_of_step taken other.symm held)

/-- What was passed to subscribe and not later to unsubscribe is held by a client or pending,
and no client holds more than its maximum. -/
theorem subscriptions_kept {events : List (Event Subscription)} {m : Manager Subscription}
    (ran : run Manager.step {} events = some m) :
    (∀ subscription, (∃ before connects behind, events = before ++ .subscribe subscription connects :: behind ∧
        .unsubscribe subscription ∉ behind) →
      (∃ client ∈ m.clients, subscription ∈ client.subscriptions) ∨ subscription ∈ m.pendingSubscriptions) ∧
    ∀ client ∈ m.clients, client.subscriptions.card ≤ client.maxSubscriptions := by
  have bounded : m.Bounded :=
    run_keeps (fun _ _ _ bounded taken => bounded.step taken) ran fun _ member => absurd member List.not_mem_nil
  refine ⟨?_, bounded⟩
  rintro subscription ⟨before, connects, behind, rfl, kept⟩
  obtain ⟨state, _, rest⟩ := run_append ran
  obtain ⟨next, taken, rest⟩ := run_cons rest
  obtain rfl := Option.some.inj taken
  exact copies_pos.mp (held_of_run rest kept (subscribe_subscribed state connects subscription).copies_self.1)

/-- A full client leaves the third of three subscriptions for the next connection. -/
theorem subscriptions_kept_full :
    (∃ client ∈ [({ maxSubscriptions := 2, subscriptions := {8, 9} } : Client Nat)], 9 ∈ client.subscriptions) ∨
      9 ∈ [7] :=
  (@subscriptions_kept _ _
    [.subscribe 7 true, .subscribe 8 true, .subscribe 9 true, .opened 0 2 true] {
      clients := [{ maxSubscriptions := 2, subscriptions := {8, 9} }]
      pendingSubscriptions := [7]
      addingClient := true
      attempts := 1 } (by decide)).1 9
    ⟨[.subscribe 7 true, .subscribe 8 true], true, [.opened 0 2 true], rfl, by decide⟩

end Manager

end Forserino.LiveUpdates
