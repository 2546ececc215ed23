import Forserino.LiveUpdates.PubSub

/-! Progress of the pending subscriptions: an attempt is in flight, or a reconnect timer is
armed, as long as get_connection gives a connection each time that addClient calls it.
-/

set_option autoImplicit false

namespace Forserino.LiveUpdates

open Foundation

variable {Subscription : Type}

namespace Manager

/-- Somebody will look at the pending subscriptions, and addClient is not blocked for nothing. -/
structure Progresses (m : Manager Subscription) : Prop where
  pending : m.pendingSubscriptions ≠ [] → 0 < m.attempts ∨ m.timers ≠ []
  adding : m.addingClient = true → 0 < m.attempts

/-- addingClient is set while the one attempt is in flight. -/
structure Steady (m : Manager Subscription) : Prop where
  attempts : m.attempts = m.addingClient.toNat
  pending : m.pendingSubscriptions ≠ [] → m.addingClient = true ∨ m.timers ≠ []

/-- addClient returns early and no attempt will end that. -/
def Stuck (m : Manager Subscription) : Prop := m.addingClient = true ∧ m.attempts = 0

theorem Steady.progresses {m : Manager Subscription} (steady : m.Steady) : m.Progresses := by
  have attempt (adding : m.addingClient = true) : 0 < m.attempts := by
    rw [steady.attempts, adding]
    exact Nat.one_pos
  exact ⟨fun waiting => (steady.pending waiting).imp_left attempt, attempt⟩

theorem Stuck.not_progresses {m : Manager Subscription} (stuck : m.Stuck) : ¬ m.Progresses := fun progresses =>
  absurd (progresses.adding stuck.1) (Nat.not_lt.mpr (Nat.le_of_eq stuck.2))

theorem Steady.of_attempt {m : Manager Subscription} (steady : m.Steady) (flies : 0 < m.attempts) :
    m.addingClient = true ∧ m.attempts = 1 := by
  have counted := steady.attempts
  cases adding : m.addingClient with
  | true => exact ⟨rfl, by rw [counted, adding, Bool.toNat_true]⟩
  | false =>
    rw [adding, Bool.toNat_false] at counted
    omega

@[simp] theorem addClient_addingClient (m : Manager Subscription) (connects : Bool) :
    (m.addClient connects).addingClient = true := by
  unfold addClient
  split
  · next adding => exact adding
  · split <;> rfl

theorem addClient_attempts {m : Manager Subscription} (counted : m.attempts = m.addingClient.toNat) {connects : Bool}
    (connected : m.addingClient = false → connects = true) : (m.addClient connects).attempts = 1 := by
  unfold addClient
  split
  · next adding => rw [counted, adding, Bool.toNat_true]
  · next free =>
    rw [connected (Bool.eq_false_of_not_eq_true free), if_pos rfl, counted, Bool.eq_false_of_not_eq_true free,
      Bool.toNat_false]

theorem Steady.of_adding {m : Manager Subscription} (adding : m.addingClient = true) (one : m.attempts = 1) :
    m.Steady := by
  constructor
  · rw [one, adding, Bool.toNat_true]
  · exact fun _ => .inl adding

theorem addClient_stuck {m : Manager Subscription} (counted : m.attempts = m.addingClient.toNat)
    (free : m.addingClient = false) : (m.addClient false).Stuck := by
  constructor
  · exact addClient_addingClient m false
  · rw [free] at counted
    simpa [addClient, free] using counted

variable [DecidableEq Subscription]

/-- The clients take the subscriptions, one after the other. -/
def fits : List (Client Subscription) → List Subscription → Bool
  | _, [] => true
  | clients, subscription :: rest =>
      match firstClient (·.subscribe subscription) clients with
      | some clients => fits clients rest
      | none => false

theorem trySubscribe_some {m subscribed : Manager Subscription} {subscription : Subscription}
    (tried : m.trySubscribe subscription = some subscribed) :
    ∃ clients, firstClient (·.subscribe subscription) m.clients = some clients ∧ subscribed = { m with clients } := by
  obtain ⟨clients, found, same⟩ := Option.map_eq_some_iff.mp tried
  exact ⟨clients, found, same.symm⟩

theorem Steady.subscribe {m : Manager Subscription} (steady : m.Steady) {connects : Bool} {subscription : Subscription}
    (connected : m.addingClient = false → m.trySubscribe subscription = none → connects = true) :
    (m.subscribe connects subscription).Steady := by
  unfold Manager.subscribe
  split
  · next subscribed tried =>
    obtain ⟨clients, _, rfl⟩ := trySubscribe_some tried
    exact ⟨steady.attempts, steady.pending⟩
  · next tried => exact .of_adding (addClient_addingClient m connects) (addClient_attempts steady.attempts (connected · tried))

theorem Stuck.subscribe {m : Manager Subscription} (stuck : m.Stuck) (connects : Bool) (subscription : Subscription) :
    (m.subscribe connects subscription).Stuck := by
  unfold Manager.subscribe
  split
  · next subscribed tried =>
    obtain ⟨clients, _, rfl⟩ := trySubscribe_some tried
    exact stuck
  · unfold addClient
    rw [if_pos stuck.1]
    exact stuck

theorem Stuck.subscribeAll {m : Manager Subscription} (stuck : m.Stuck) (connects : Bool) (order : List Subscription) :
    (m.subscribeAll connects order).Stuck := by
  induction order generalizing m with
  | nil => exact stuck
  | cons subscription order ih => exact ih (stuck.subscribe connects subscription)

theorem Steady.subscribeAll {m : Manager Subscription} (steady : m.Steady) {connects : Bool} {order : List Subscription}
    (connected : m.addingClient = false → fits m.clients order = false → connects = true) :
    (m.subscribeAll connects order).Steady := by
  induction order generalizing m with
  | nil => exact steady
  | cons subscription order ih =>
    show ((m.subscribe connects subscription).subscribeAll connects order).Steady
    cases found : firstClient (·.subscribe subscription) m.clients with
    | some clients =>
      have subscribed : m.subscribe connects subscription = { m with clients } := by
        simp only [Manager.subscribe, trySubscribe, found, Option.map_some]
      rw [subscribed]
      apply ih (m := { m with clients }) ⟨steady.attempts, steady.pending⟩
      simpa only [fits, found] using connected
    | none =>
      have waits (free : m.addingClient = false) : connects = true := connected free (by simp only [fits, found])
      apply ih (steady.subscribe fun free _ => waits free)
      -- the first subscription without a place has set addingClient
      intro free
      simp [Manager.subscribe, trySubscribe, found] at free

theorem subscribeAll_stuck {m : Manager Subscription} (steady : m.Steady) (free : m.addingClient = false)
    {order : List Subscription} (unfit : fits m.clients order = false) : (m.subscribeAll false order).Stuck := by
  induction order generalizing m with
  | nil => cases unfit
  | cons subscription order ih =>
    show ((m.subscribe false subscription).subscribeAll false order).Stuck
    cases found : firstClient (·.subscribe subscription) m.clients with
    | some clients =>
      have subscribed : m.subscribe false subscription = { m with clients } := by
        simp only [Manager.subscribe, trySubscribe, found, Option.map_some]
      rw [subscribed]
      apply ih (m := { m with clients }) ⟨steady.attempts, steady.pending⟩ free
      simpa only [fits, found] using unfit
    | none =>
      apply Stuck.subscribeAll
      simp only [Manager.subscribe, trySubscribe, found, Option.map_none]
      exact addClient_stuck steady.attempts free

/-- A client with room takes as many as it is asked to, from the back. -/
theorem takePending_room (pendingSubsToTake : Nat) (client : Client Subscription) (pending : List Subscription)
    (room : client.subscriptions.card + pendingSubsToTake ≤ client.maxSubscriptions) :
    (takePending pendingSubsToTake client pending).2 = (pending.take (pending.length - pendingSubsToTake), true) := by
  induction pendingSubsToTake generalizing client pending with
  | zero => simp [takePending]
  | succ pendingSubsToTake ih =>
    rcases pending.eq_nil_or_concat' with rfl | ⟨front, last, rfl⟩
    · simp [takePending]
    · have notFull : ¬ client.maxSubscriptions ≤ client.subscriptions.card := by omega
      have grows := Finset.card_insert_le last client.subscriptions
      simp only [takePending, List.getLast?_concat, Client.subscribe, if_neg notFull, List.dropLast_concat]
      rw [ih _ _ (by show (insert last client.subscriptions).card + _ ≤ client.maxSubscriptions; omega)]
      simp

theorem onConnectionOpen_taken (m : Manager Subscription) (place maxSubscriptions : Nat) (connects : Bool) :
    ∃ opened : Manager Subscription, opened.addingClient = false ∧ opened.attempts = m.attempts ∧
      opened.pendingSubscriptions = m.pendingSubscriptions.take (m.pendingSubscriptions.length - maxSubscriptions) ∧
      m.onConnectionOpen place maxSubscriptions connects =
        if maxSubscriptions < m.pendingSubscriptions.length then opened.addClient connects else opened := by
  have taken := takePending_room (min m.pendingSubscriptions.length maxSubscriptions) { maxSubscriptions }
    m.pendingSubscriptions (by simp)
  have left : m.pendingSubscriptions.length - min m.pendingSubscriptions.length maxSubscriptions =
      m.pendingSubscriptions.length - maxSubscriptions := by omega
  rw [left] at taken
  rcases outcome : takePending (min m.pendingSubscriptions.length maxSubscriptions)
    { maxSubscriptions } m.pendingSubscriptions with ⟨client, rest, complete⟩
  rw [outcome] at taken
  obtain ⟨rfl, rfl⟩ := Prod.mk.inj taken
  refine ⟨{ m with addingClient := false, connectBackoff := m.connectBackoff.reset
                   clients := m.clients.take place ++ client :: m.clients.drop place
                   pendingSubscriptions := _ }, rfl, rfl, rfl, ?_⟩
  unfold onConnectionOpen
  rw [outcome]
  have more : (!(m.pendingSubscriptions.take (m.pendingSubscriptions.length - maxSubscriptions)).isEmpty) =
      decide (maxSubscriptions < m.pendingSubscriptions.length) := by
    rw [Bool.eq_iff_iff, Bool.not_eq_true', ← Bool.not_eq_true, List.isEmpty_iff_length_eq_zero, List.length_take,
      decide_eq_true_iff]
    omega
  simp only [Bool.true_and, more, decide_eq_true_eq]

end Manager

variable [DecidableEq Subscription]

/-- get_connection gives a connection if the event makes the manager call it. -/
def Event.Connects (m : Manager Subscription) : Event Subscription → Prop
  | .subscribe subscription connects => m.addingClient = false → m.trySubscribe subscription = none → connects = true
  | .unsubscribe _ => True
  | .opened _ maxSubscriptions connects => maxSubscriptions < m.pendingSubscriptions.length → connects = true
  | .failed => True
  | .closed place order connects =>
      m.addingClient = false → Manager.fits (m.clients.eraseIdx place) order = false → connects = true
  | .reconnect _ connects => m.addingClient = false → connects = true

instance (m : Manager Subscription) : ∀ e : Event Subscription, Decidable (e.Connects m)
  | .subscribe _ _ | .closed _ _ _ => inferInstanceAs (Decidable (_ → _ → _))
  | .opened _ _ _ | .reconnect _ _ => inferInstanceAs (Decidable (_ → _))
  | .unsubscribe _ | .failed => isTrue trivial

namespace Manager

theorem Steady.step {m next : Manager Subscription} {e : Event Subscription} (steady : m.Steady) (connected : e.Connects m)
    (taken : m.step e = some next) : next.Steady := by
  cases e with
  | subscribe subscription connects =>
    obtain rfl := Option.some.inj taken
    exact steady.subscribe connected
  | unsubscribe subscription =>
    obtain rfl := Option.some.inj taken
    unfold unsubscribe
    split <;> exact ⟨steady.attempts, steady.pending⟩
  | opened place maxSubscriptions connects =>
    obtain ⟨flies, same⟩ := Option.ite_none_right_eq_some.mp taken
    obtain rfl := Option.some.inj same
    obtain ⟨_, one⟩ := steady.of_attempt flies
    obtain ⟨opened, free, attempts, pending, same⟩ :=
      onConnectionOpen_taken { m with attempts := m.attempts - 1 } place maxSubscriptions connects
    have counted : opened.attempts = opened.addingClient.toNat := by
      rw [attempts, free, one, Bool.toNat_false]
    rw [same]
    split
    · next many =>
      exact .of_adding (addClient_addingClient opened connects) (addClient_attempts counted fun _ => connected many)
    · next few =>
      refine ⟨counted, fun waiting => absurd ?_ waiting⟩
      rw [pending, Nat.sub_eq_zero_of_le (Nat.not_lt.mp few), List.take_zero]
  | failed =>
    obtain ⟨flies, same⟩ := Option.ite_none_right_eq_some.mp taken
    obtain rfl := Option.some.inj same
    obtain ⟨_, one⟩ := steady.of_attempt flies
    unfold onConnectionFail
    dsimp only
    split
    · next empty => exact ⟨by simp [one], fun waiting => absurd (List.isEmpty_iff.mp empty) waiting⟩
    · exact ⟨by simp [one], fun _ => .inr (List.append_ne_nil_of_right_ne_nil _ (List.cons_ne_nil _ _))⟩
  | closed place order connects =>
    unfold Manager.step at taken
    dsimp only at taken
    split at taken
    · cases taken
    · obtain ⟨_, same⟩ := Option.ite_none_right_eq_some.mp taken
      obtain rfl := Option.some.inj same
      exact Steady.subscribeAll (m := { m with clients := m.clients.eraseIdx place })
        ⟨steady.attempts, steady.pending⟩ connected
  | reconnect timer connects =>
    obtain ⟨armed, same⟩ := Option.ite_none_right_eq_some.mp taken
    obtain rfl := Option.some.inj same
    apply Steady.of_adding (addClient_addingClient _ connects)
    exact addClient_attempts (m := { m with timers := m.timers.eraseIdx timer }) steady.attempts connected

/-- The one connection that get_connection does not give leaves addingClient set for good. -/
theorem Steady.stuck {m next : Manager Subscription} {e : Event Subscription} (steady : m.Steady)
    (refused : ¬ e.Connects m) (taken : m.step e = some next) : next.Stuck := by
  cases e with
  | subscribe subscription connects =>
    obtain rfl := Option.some.inj taken
    simp only [Event.Connects, Classical.not_imp, Bool.not_eq_true] at refused
    obtain ⟨free, tried, rfl⟩ := refused
    unfold Manager.subscribe
    rw [tried]
    exact addClient_stuck steady.attempts free
  | unsubscribe subscription => exact absurd trivial refused
  | opened place maxSubscriptions connects =>
    obtain ⟨flies, same⟩ := Option.ite_none_right_eq_some.mp taken
    obtain rfl := Option.some.inj same
    simp only [Event.Connects, Classical.not_imp, Bool.not_eq_true] at refused
    obtain ⟨many, rfl⟩ := refused
    obtain ⟨_, one⟩ := steady.of_attempt flies
    obtain ⟨opened, free, attempts, _, same⟩ :=
      onConnectionOpen_taken { m with attempts := m.attempts - 1 } place maxSubscriptions false
    rw [same, if_pos many]
    apply addClient_stuck _ free
    rw [attempts, free, one, Bool.toNat_false]
  | failed => exact absurd trivial refused
  | closed place order connects =>
    simp only [Event.Connects, Classical.not_imp, Bool.not_eq_true] at refused
    obtain ⟨free, unfit, rfl⟩ := refused
    unfold Manager.step at taken
    dsimp only at taken
    split at taken
    · cases taken
    · obtain ⟨_, same⟩ := Option.ite_none_right_eq_some.mp taken
      obtain rfl := Option.some.inj same
      exact subscribeAll_stuck (m := { m with clients := m.clients.eraseIdx place })
        ⟨steady.attempts, steady.pending⟩ free unfit
  | reconnect timer connects =>
    obtain ⟨armed, same⟩ := Option.ite_none_right_eq_some.mp taken
    obtain rfl := Option.some.inj same
    simp only [Event.Connects, Classical.not_imp, Bool.not_eq_true] at refused
    obtain ⟨free, rfl⟩ := refused
    exact addClient_stuck steady.attempts free

/-- A run of the manager makes progress in all of its states exactly when get_connection
gives a connection each time that the run calls it. -/
theorem pending_progresses_iff {events : List (Event Subscription)} {m : Manager Subscription}
    (ran : run Manager.step {} events = some m) :
    Along Manager.step (fun m e => e.Connects m) {} events ↔
      ∀ before, before <+: events → ∀ state, run Manager.step {} before = some state → state.Progresses :=
  along_iff (fun _ _ _ steady connected taken => Steady.step steady connected taken)
    (fun _ _ _ steady refused taken => (Steady.stuck steady refused taken).not_progresses)
    (fun _ steady => steady.progresses) ran ⟨rfl, fun waiting => absurd rfl waiting⟩

/-- Two subscriptions wait for the connection and are taken by it. -/
theorem pending_progresses_opened :
    run Manager.step {} [.subscribe 7 true, .failed, .reconnect 0 true, .subscribe 8 false, .opened 0 100 false] =
        some ({ clients := [{ subscriptions := {7, 8} }] } : Manager Nat) ∧
      ∀ before, before <+: [.subscribe 7 true, .failed, .reconnect 0 true, .subscribe 8 false, .opened 0 100 false] →
        ∀ state : Manager Nat, run Manager.step {} before = some state → state.Progresses :=
  ⟨by decide, (pending_progresses_iff (m := { clients := [{ subscriptions := {7, 8} }] }) (by decide)).mp (by decide)⟩

/-- get_connection fails for the first subscription, and addingClient stays set. -/
theorem stuck_without_connection :
    ¬ ∀ (events : List (Event Nat)) (m : Manager Nat), run Manager.step {} events = some m → m.Progresses := by
  intro holds
  have progresses := holds [.subscribe 7 false] _ rfl
  exact absurd (progresses.adding rfl) (by decide)

end Manager

end Forserino.LiveUpdates
