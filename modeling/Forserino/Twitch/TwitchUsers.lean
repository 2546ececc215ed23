import Forserino.Foundation.Runs
import Forserino.Qt.Text
import Mathlib.Data.List.AList

/-! TwitchUsers collects the ids that are asked for and resolves them in batches.
-/

set_option autoImplicit false

namespace Forserino.Twitch

open Foundation Qt

structure TwitchUser where
  id : QString
  name : QString
  displayName : QString
  deriving DecidableEq

/-- The part of a HelixUser that is read. -/
structure HelixUser where
  id : QString
  login : QString
  displayName : QString

def TwitchUser.update (self : TwitchUser) (user : HelixUser) : TwitchUser :=
  { self with name := user.login, displayName := user.displayName }

/-- A shared pointer is the place of its object among all objects that were made. -/
structure TwitchUsersPrivate where
  cache : AList fun _ : QString => Nat
  objects : List TwitchUser
  unresolved : List QString
  nextBatchTimer : Bool
  isResolving : Bool

namespace TwitchUsersPrivate

def empty : TwitchUsersPrivate := ⟨∅, [], [], false, false⟩

def makeUnresolved (self : TwitchUsersPrivate) (id : QString) : TwitchUsersPrivate × Nat :=
  let made := self.objects.length
  let self := { self with objects := self.objects ++ [⟨id, [], []⟩] }
  -- emplace keeps an entry that is there
  let (self, ptr) := match self.cache.lookup id with
    | some ptr => (self, ptr)
    | none => ({ self with cache := self.cache.insert id made }, made)
  if id.isEmpty then (self, ptr)
  else
    let self := { self with unresolved := self.unresolved ++ [id] }
    if !self.isResolving && !self.nextBatchTimer then ({ self with nextBatchTimer := true }, ptr) else (self, ptr)

def resolveID (self : TwitchUsersPrivate) (id : QString) : TwitchUsersPrivate × Nat :=
  match self.cache.lookup id with
  | some ptr => (self, ptr)
  | none => self.makeUnresolved id

theorem makeUnresolved_fresh {self : TwitchUsersPrivate} {id : QString} (fresh : self.cache.lookup id = none) :
    self.makeUnresolved id = ({ self with
      cache := self.cache.insert id self.objects.length
      objects := self.objects ++ [⟨id, [], []⟩]
      unresolved := self.unresolved ++ if id.isEmpty then [] else [id]
      nextBatchTimer := self.nextBatchTimer || !id.isEmpty && !self.isResolving }, self.objects.length) := by
  rw [makeUnresolved]
  simp only [fresh]
  cases id.isEmpty <;> cases self.isResolving <;> cases self.nextBatchTimer <;> simp

/-- The ids that are given to fetchUsers, if it is called. -/
def makeNextRequest (self : TwitchUsersPrivate) : TwitchUsersPrivate × Option (List QString) :=
  if self.unresolved.isEmpty then (self, none)
  else if self.isResolving then (self, none)
  else
    let ids := self.unresolved.take (min self.unresolved.length 100)
    ({ self with isResolving := true, unresolved := self.unresolved.drop ids.length }, some ids)

/-- One turn of the loop in updateUsers. -/
def updateUser (self : TwitchUsersPrivate) (user : HelixUser) : TwitchUsersPrivate :=
  match self.cache.lookup user.id with
  | none => self
  | some ptr => { self with objects := self.objects.modify ptr (·.update user) }

def updateUsers (self : TwitchUsersPrivate) (users : List HelixUser) : TwitchUsersPrivate :=
  users.foldl updateUser self

/-- An update changes what is known of the users, and nothing else. -/
theorem updateUsers_keeps (self : TwitchUsersPrivate) (users : List HelixUser) :
    ∃ objects, self.updateUsers users = { self with objects := objects } ∧
      objects.map TwitchUser.id = self.objects.map TwitchUser.id := by
  induction users generalizing self with
  | nil => exact ⟨self.objects, rfl, rfl⟩
  | cons user users ih =>
    rw [updateUsers, List.foldl_cons, ← updateUsers, updateUser]
    cases self.cache.lookup user.id with
    | none => exact ih self
    | some ptr =>
      obtain ⟨objects, updated, ids⟩ := ih { self with objects := self.objects.modify ptr (·.update user) }
      refine ⟨objects, updated, ids.trans ?_⟩
      apply List.ext_getElem?
      intro place
      simp only [List.getElem?_map, List.getElem?_modify]
      cases self.objects[place]? with
      | none => rfl
      | some object => by_cases here : ptr = place <;> simp [here, TwitchUser.update]

/-- The callbacks given to fetchUsers, without the next request: users is none if the request failed. -/
def responded (self : TwitchUsersPrivate) (users : Option (List HelixUser)) : TwitchUsersPrivate :=
  { self.updateUsers (users.getD []) with isResolving := false }

end TwitchUsersPrivate

/-- TwitchUsers with the requests that were made and what its callers got. -/
structure Resolving where
  users : TwitchUsersPrivate
  requests : List (List QString)
  inFlight : List (List QString)
  returned : List (QString × Nat)

inductive Resolving.Event where
  | resolveID (id : QString)
  | timeout
  /-- The response to one of the requests in flight, or none if that failed. -/
  | response (request : Nat) (users : Option (List HelixUser))

namespace Resolving

def initial : Resolving := ⟨.empty, [], [], []⟩

/-- The request goes out, if there is one. -/
def makeNextRequest (s : Resolving) : Resolving :=
  match s.users.makeNextRequest with
  | (users, none) => { s with users := users }
  | (users, some ids) =>
    { s with users := users, requests := s.requests ++ [ids], inFlight := s.inFlight ++ [ids] }

def step (s : Resolving) : Event → Option Resolving
  | .resolveID id =>
      let (users, ptr) := s.users.resolveID id
      some { s with users := users, returned := s.returned ++ [(id, ptr)] }
  | .timeout =>
      if s.users.nextBatchTimer then
        some { s with users := { s.users with nextBatchTimer := false } }.makeNextRequest
      else none
  | .response request users =>
      if request < s.inFlight.length then
        some { s with users := s.users.responded users, inFlight := s.inFlight.eraseIdx request }.makeNextRequest
      else none

/-- The ids that were sent, and then those that wait. -/
def asked (s : Resolving) : List QString := s.requests.flatten ++ s.users.unresolved

structure Invariant (s : Resolving) : Prop where
  /-- The assertion of TwitchUser::update -/
  held : ∀ id ptr, s.users.cache.lookup id = some ptr → (s.users.objects.map TwitchUser.id)[ptr]? = some id
  once : s.asked.Nodup
  known : ∀ id, id ∈ s.asked ↔ id ∈ s.users.cache ∧ id ≠ []
  small : ∀ ids ∈ s.requests, ids.length ≤ 100
  resolving : s.inFlight.length = if s.users.isResolving then 1 else 0
  timer : s.users.nextBatchTimer = true → s.users.isResolving = false
  waits : s.users.unresolved ≠ [] → s.users.isResolving = true ∨ s.users.nextBatchTimer = true
  same : ∀ id ptr, (id, ptr) ∈ s.returned → s.users.cache.lookup id = some ptr

theorem initial_invariant : Invariant initial where
  held := by
    intro id ptr found
    cases found
  once := List.nodup_nil
  known := by
    intro id
    simp [asked, initial, TwitchUsersPrivate.empty]
  small := by
    intro ids member
    cases member
  resolving := rfl
  timer := by
    intro active
    cases active
  waits := fun some_ => absurd rfl some_
  same := by
    intro id ptr member
    cases member

theorem makeNextRequest_nil {s : Resolving} (nothing : s.users.unresolved = []) : s.makeNextRequest = s := by
  simp [makeNextRequest, TwitchUsersPrivate.makeNextRequest, nothing]

/-- The request takes the ids that wait longest. -/
theorem makeNextRequest_some {s : Resolving} (some_ : s.users.unresolved ≠ []) (idle : s.users.isResolving = false) :
    ∃ ids rest, ids ++ rest = s.users.unresolved ∧ ids.length ≤ 100 ∧ s.makeNextRequest =
      { s with
        users := { s.users with isResolving := true, unresolved := rest }
        requests := s.requests ++ [ids]
        inFlight := s.inFlight ++ [ids] } := by
  refine ⟨s.users.unresolved.take (min s.users.unresolved.length 100), _, List.take_append_drop _ _, ?_, ?_⟩
  · rw [List.length_take]
    omega
  · have more : s.users.unresolved.isEmpty = false := List.isEmpty_eq_false_iff.mpr some_
    have length : (s.users.unresolved.take (min s.users.unresolved.length 100)).length =
        min s.users.unresolved.length 100 := by simp
    simp only [makeNextRequest, TwitchUsersPrivate.makeNextRequest, more, idle, Bool.false_eq_true, if_false, length]

/-- A request may go out when none is in flight and the timer does not run. -/
theorem Invariant.request {s : Resolving} (invariant : Invariant s) {users : TwitchUsersPrivate}
    (cache : users.cache = s.users.cache) (unresolved : users.unresolved = s.users.unresolved)
    (objects : users.objects.map TwitchUser.id = s.users.objects.map TwitchUser.id)
    (idle : users.isResolving = false) (stopped : users.nextBatchTimer = false) :
    Invariant ({ s with users := users, inFlight := [] } : Resolving).makeNextRequest := by
  have held := invariant.held
  have once := invariant.once
  have known := invariant.known
  have same := invariant.same
  rw [← cache, ← objects] at held
  rw [asked, ← unresolved] at once
  simp only [asked, ← unresolved, ← cache] at known
  rw [← cache] at same
  by_cases nothing : users.unresolved = []
  · rw [makeNextRequest_nil nothing]
    refine ⟨held, once, known, invariant.small, ?_, ?_, fun some_ => absurd nothing some_, same⟩
    · simp [idle]
    · simp [stopped]
  · obtain ⟨ids, rest, all, short, requested⟩ :=
      makeNextRequest_some (s := { s with users := users, inFlight := [] }) nothing idle
    have asked_eq : (s.requests ++ [ids]).flatten ++ rest = s.requests.flatten ++ users.unresolved := by
      rw [List.flatten_append, List.flatten_singleton, List.append_assoc, all]
    rw [requested]
    refine ⟨held, ?_, ?_, ?_, rfl, ?_, fun _ => Or.inl rfl, same⟩
    · rw [asked, asked_eq]
      exact once
    · intro id
      rw [asked, asked_eq]
      exact known id
    · intro ids member
      rcases List.mem_append.mp member with earlier | latest
      · exact invariant.small ids earlier
      · rw [List.mem_singleton.mp latest]
        exact short
    · simp [stopped]

/-- A new object is held under the id that it was made for. -/
theorem held_insert {cache : AList fun _ : QString => Nat} {ids : List QString}
    (held : ∀ id ptr, cache.lookup id = some ptr → ids[ptr]? = some id) (fresh : QString) :
    ∀ id ptr, (cache.insert fresh ids.length).lookup id = some ptr → (ids ++ [fresh])[ptr]? = some id := by
  intro id ptr found
  by_cases same : id = fresh
  · rw [same, AList.lookup_insert] at found
    rw [same, ← Option.some.inj found]
    exact List.getElem?_concat_length
  · rw [AList.lookup_insert_ne same] at found
    have old := held id ptr found
    rw [List.getElem?_append_left (List.getElem?_eq_some_iff.mp old).1]
    exact old

theorem nodup_asked {asked : List QString} {fresh : QString} (once : asked.Nodup) (unasked : fresh ∉ asked) :
    (asked ++ if fresh.isEmpty then [] else [fresh]).Nodup := by
  cases fresh.isEmpty with
  | true => simpa using once
  | false =>
    rw [if_neg Bool.false_ne_true, ← List.concat_eq_append]
    exact once.concat unasked

/-- The ids that were asked for are the cached ones, but for the empty one. -/
theorem mem_asked_insert {cache : AList fun _ : QString => Nat} {asked : List QString}
    (known : ∀ id, id ∈ asked ↔ id ∈ cache ∧ id ≠ []) (fresh : QString) (ptr : Nat) (id : QString) :
    (id ∈ asked ++ if fresh.isEmpty then [] else [fresh]) ↔ id ∈ cache.insert fresh ptr ∧ id ≠ [] := by
  rw [List.mem_append, known, AList.mem_insert]
  cases fresh with
  | nil =>
    simp only [List.isEmpty_nil, if_true, List.not_mem_nil, or_false]
    constructor
    · exact fun old => ⟨Or.inr old.1, old.2⟩
    · exact fun both => ⟨both.1.resolve_left both.2, both.2⟩
  | cons c rest =>
    simp only [List.isEmpty_cons, Bool.false_eq_true, if_false, List.mem_singleton]
    constructor
    · rintro (old | rfl)
      · exact ⟨Or.inr old.1, old.2⟩
      · exact ⟨Or.inl rfl, List.cons_ne_nil c rest⟩
    · rintro ⟨rfl | old, nonempty⟩
      · exact Or.inr rfl
      · exact Or.inl ⟨old, nonempty⟩

/-- An id that is cached already gives what is cached. -/
theorem Invariant.cached {s : Resolving} (invariant : Invariant s) {id : QString} {ptr : Nat}
    (found : s.users.cache.lookup id = some ptr) :
    Invariant ({ s with returned := s.returned ++ [(id, ptr)] } : Resolving) := by
  refine { invariant with same := ?_ }
  intro other pointer member
  rcases List.mem_append.mp member with earlier | latest
  · exact invariant.same other pointer earlier
  · obtain ⟨rfl, rfl⟩ := Prod.mk.inj (List.mem_singleton.mp latest)
    exact found

/-- A new id waits, and what was returned before stays. -/
theorem Invariant.fresh {s : Resolving} (invariant : Invariant s) {id : QString}
    (found : s.users.cache.lookup id = none) : Invariant ({ s with
      users := (s.users.makeUnresolved id).1
      returned := s.returned ++ [(id, (s.users.makeUnresolved id).2)] } : Resolving) := by
  have uncached : id ∉ s.users.cache := AList.lookup_eq_none.mp found
  have unasked : id ∉ s.asked := fun member => uncached ((invariant.known id).mp member).1
  simp only [TwitchUsersPrivate.makeUnresolved_fresh found]
  have asked_eq : s.requests.flatten ++ (s.users.unresolved ++ if id.isEmpty then [] else [id]) =
      s.asked ++ if id.isEmpty then [] else [id] := (List.append_assoc _ _ _).symm
  refine ⟨?_, ?_, ?_, invariant.small, invariant.resolving, ?_, ?_, ?_⟩
  · have inserted := held_insert invariant.held id
    rw [List.length_map] at inserted
    simpa only [List.map_append, List.map_cons, List.map_nil] using inserted
  · rw [asked, asked_eq]
    exact nodup_asked invariant.once unasked
  · intro other
    rw [asked, asked_eq]
    exact mem_asked_insert invariant.known id _ other
  · intro active
    rcases (Bool.or_eq_true _ _).mp active with before | started
    · exact invariant.timer before
    · exact (Bool.not_eq_true' _).mp (Bool.and_eq_true_iff.mp started).2
  · intro some_
    cases resolving : s.users.isResolving with
    | true => exact Or.inl rfl
    | false =>
      right
      cases empty : id.isEmpty with
      | false => simp
      | true =>
        have old : s.users.unresolved ≠ [] := by simpa [empty] using some_
        simpa [resolving] using invariant.waits old
  · intro other pointer member
    rcases List.mem_append.mp member with earlier | latest
    · have old := invariant.same other pointer earlier
      have differs : other ≠ id := by
        intro same
        rw [same, found] at old
        cases old
      rw [AList.lookup_insert_ne differs]
      exact old
    · obtain ⟨rfl, rfl⟩ := Prod.mk.inj (List.mem_singleton.mp latest)
      exact AList.lookup_insert _

theorem Invariant.resolveID {s : Resolving} (invariant : Invariant s) (id : QString) :
    Invariant ({ s with
      users := (s.users.resolveID id).1
      returned := s.returned ++ [(id, (s.users.resolveID id).2)] } : Resolving) := by
  rw [TwitchUsersPrivate.resolveID]
  cases found : s.users.cache.lookup id with
  | some ptr => exact invariant.cached found
  | none => exact invariant.fresh found

theorem Invariant.step {s next : Resolving} {e : Event} (invariant : Invariant s) (taken : s.step e = some next) :
    Invariant next := by
  cases e with
  | resolveID id =>
    obtain rfl := Option.some.inj taken
    exact invariant.resolveID id
  | timeout =>
    obtain ⟨active, same⟩ := Option.ite_none_right_eq_some.mp taken
    obtain rfl := Option.some.inj same
    have idle := invariant.timer active
    have none_ := invariant.resolving
    rw [idle, if_neg Bool.false_ne_true, List.length_eq_zero_iff] at none_
    have kept := @Invariant.request s invariant { s.users with nextBatchTimer := false } rfl rfl rfl idle rfl
    rwa [← none_] at kept
  | response request users =>
    obtain ⟨waiting, same⟩ := Option.ite_none_right_eq_some.mp taken
    obtain rfl := Option.some.inj same
    have one := invariant.resolving
    obtain ⟨objects, updated, ids⟩ := s.users.updateUsers_keeps (users.getD [])
    cases resolving : s.users.isResolving with
    | false =>
      rw [resolving, if_neg Bool.false_ne_true] at one
      exact absurd waiting (one ▸ Nat.not_lt_zero request)
    | true =>
      rw [resolving, if_pos rfl] at one
      have stopped : s.users.nextBatchTimer = false := by
        cases active : s.users.nextBatchTimer with
        | false => rfl
        | true =>
          have idle := invariant.timer active
          rw [resolving] at idle
          cases idle
      -- it is the response to the only request
      obtain ⟨sent, single⟩ := List.length_eq_one_iff.mp one
      have first : request = 0 := by omega
      have kept := @Invariant.request s invariant (s.users.responded users)
        (by rw [TwitchUsersPrivate.responded, updated]) (by rw [TwitchUsersPrivate.responded, updated])
        (by rw [TwitchUsersPrivate.responded, updated]; exact ids) rfl
        (by rw [TwitchUsersPrivate.responded, updated]; exact stopped)
      rw [first, single]
      exact kept

/-- What callers and the server see of it. -/
structure Resolves (s : Resolving) : Prop where
  once : ∀ id, id ≠ [] → s.requests.flatten.count id ≤ 1
  small : ∀ ids ∈ s.requests, ids.length ≤ 100
  single : s.inFlight.length ≤ 1
  waits : s.users.unresolved ≠ [] → s.inFlight ≠ [] ∨ s.users.nextBatchTimer = true
  same : ∀ id first second, (id, first) ∈ s.returned → (id, second) ∈ s.returned → first = second

theorem Invariant.resolves {s : Resolving} (invariant : Invariant s) : Resolves s where
  once := by
    intro id _
    have distinct := (List.nodup_append.mp invariant.once).1
    exact List.nodup_iff_count_le_one.mp distinct id
  small := invariant.small
  single := by
    rw [invariant.resolving]
    split <;> omega
  waits := by
    intro some_
    rcases invariant.waits some_ with resolving | active
    · left
      have one := invariant.resolving
      rw [resolving, if_pos rfl] at one
      exact List.ne_nil_of_length_pos (by omega)
    · exact Or.inr active
  same := by
    intro id first second one other
    exact Option.some.inj ((invariant.same id first one).symm.trans (invariant.same id second other))

theorem run_invariant {events : List Event} {final : Resolving} (ran : run step initial events = some final) :
    Invariant final :=
  run_keeps (fun _ _ _ invariant taken => invariant.step taken) ran initial_invariant

/-- Whatever is asked for, fires and comes back, in any order. -/
theorem run_resolves (events : List Event) (final : Resolving) (ran : run step initial events = some final) :
    Resolves final :=
  (run_invariant ran).resolves

theorem run_resolves_failed : Resolves
    ((run step initial [.resolveID (qs "1"), .resolveID (qs "2"), .timeout, .resolveID (qs "3"), .resolveID (qs "1"),
      .response 0 none]).getD initial) :=
  run_resolves [.resolveID (qs "1"), .resolveID (qs "2"), .timeout, .resolveID (qs "3"), .resolveID (qs "1"),
    .response 0 none] _ rfl

/-- No id is forgotten: it was sent, or waits, or is the empty one. -/
theorem run_asked {events : List Event} {final : Resolving} (ran : run step initial events = some final)
    {id : QString} {ptr : Nat} (resolved : (id, ptr) ∈ final.returned) (nonempty : id ≠ []) :
    id ∈ final.requests.flatten ++ final.users.unresolved := by
  have invariant := run_invariant ran
  apply (invariant.known id).mpr
  refine ⟨AList.lookup_isSome.mp ?_, nonempty⟩
  rw [invariant.same id ptr resolved]
  rfl

end Resolving

end Forserino.Twitch
