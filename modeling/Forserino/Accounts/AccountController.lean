import Forserino.Common.SignalVectorModel
import Forserino.Foundation.Runs
import Forserino.Foundation.Sorting
import Forserino.Qt.Text
import Mathlib.Data.List.Perm.Basic

/-! The accounts of the AccountController and those of its Twitch provider, which it keeps in step.

Both vectors signal what is removed, and the handler of each removes from the other one.
-/

set_option autoImplicit false

namespace Forserino.Accounts

open Forserino.Common Foundation Qt

inductive ProviderId where
  | Twitch
  deriving DecidableEq

/-- A shared pointer to an account. No two accounts are at one address. -/
structure Account where
  address : Nat
  providerId : ProviderId
  userName : QString
  deriving DecidableEq

namespace Account

def category (account : Account) : QString :=
  match account.providerId with
  | .Twitch => qs "Twitch"

def toString (account : Account) : QString := account.userName

/-- `Account::operator<`. Strings are compared by their units. -/
def less (a b : Account) : Bool :=
  lexBy (fun account => account.category.map UInt16.toNat) (lessBy fun account => account.toString.map UInt16.toNat) a b

end Account

/-- Who calls a vector: the controller itself, or somebody else. -/
inductive Caller where
  | this
  | other
  deriving DecidableEq

inductive Which where
  | twitch
  | own

structure AccountController where
  twitch : SignalVector Account
  accounts_ : SignalVector Account

namespace AccountController

def new : AccountController := ⟨⟨some Account.less, []⟩, ⟨some Account.less, []⟩⟩

/-- `twitch.accounts.insert`, with the signal. There is no result where an assertion fails. -/
def insert (c : AccountController) (account : Account) : Option AccountController := do
  let index ← c.twitch.insertionIndex account (-1)
  let c := { c with twitch := { c.twitch with items := c.twitch.items.insertIdx index account } }
  let index ← c.accounts_.insertionIndex account (-1)
  return { c with accounts_ := { c.accounts_ with items := c.accounts_.items.insertIdx index account } }

theorem insertionIndex_end (vector : SignalVector Account) (account : Account) :
    ∃ index, vector.insertionIndex account (-1) = some index ∧ index ≤ vector.items.length := by
  unfold SignalVector.insertionIndex
  cases vector.itemCompare with
  | none => exact ⟨vector.items.length, rfl, Nat.le_refl _⟩
  | some compare => exact ⟨_, rfl, (List.takeWhile_sublist _).length_le⟩

/-- Both vectors get the account. -/
theorem insert_perm (c : AccountController) (account : Account) : ∃ next, c.insert account = some next ∧
    next.twitch.items.Perm (account :: c.twitch.items) ∧ next.accounts_.items.Perm (account :: c.accounts_.items) := by
  obtain ⟨index, found, within⟩ := insertionIndex_end c.twitch account
  obtain ⟨place, foundToo, withinToo⟩ := insertionIndex_end c.accounts_ account
  refine ⟨{ c with
    twitch := { c.twitch with items := c.twitch.items.insertIdx index account }
    accounts_ := { c.accounts_ with items := c.accounts_.items.insertIdx place account } }, ?_, ?_, ?_⟩
  · simp [insert, found, foundToo]
  · exact List.perm_insertIdx account c.twitch.items within
  · exact List.perm_insertIdx account c.accounts_.items withinToo

/-- `removeAt` of one of the vectors, with the signal: there is no result where an assertion fails or
the handlers call each other deeper than allowed. -/
def removeAt : Nat → Which → AccountController → Nat → Caller → Option AccountController
  | 0, _, _, _, _ => none
  | depth + 1, .twitch, c, index, caller => do
    let item ← c.twitch.items[index]?
    let c := { c with twitch := { c.twitch with items := c.twitch.items.eraseIdx index } }
    if caller ≠ .this then
      let place ← c.twitch.items.idxOf? item
      removeAt depth .own c place .this
    else return c
  | depth + 1, .own, c, index, caller => do
    let item ← c.accounts_.items[index]?
    let c := { c with accounts_ := { c.accounts_ with items := c.accounts_.items.eraseIdx index } }
    match item.providerId with
    | .Twitch =>
      if caller ≠ .this then
        let place ← c.twitch.items.idxOf? item
        removeAt depth .twitch c place .this
      else return c

/-- What the controller removes itself is not handled again. -/
theorem removeAt_this (depth : Nat) (which : Which) (c : AccountController) (index : Nat) :
    removeAt (depth + 1) which c index .this = removeAt 1 which c index .this := by
  cases which <;> simp [removeAt]

/-- So the handlers never go deeper than two calls. -/
theorem removeAt_depth (depth : Nat) (which : Which) (c : AccountController) (index : Nat) (caller : Caller) :
    removeAt (depth + 2) which c index caller = removeAt 2 which c index caller := by
  cases which with
  | twitch =>
    unfold removeAt
    simp only [removeAt_this depth]
  | own =>
    unfold removeAt
    simp only [removeAt_this depth]

/-- The handler looks for the account where it was just removed, and removes what accounts_ has at that index. -/
theorem removeAt_twitch {c : AccountController} {index : Nat} {item : Account}
    (removed : c.twitch.items[index]? = some item) : removeAt 2 .twitch c index .other =
      ((c.twitch.items.eraseIdx index).idxOf? item).bind fun place => c.accounts_.items[place]?.bind fun _ => some
        ⟨{ c.twitch with items := c.twitch.items.eraseIdx index },
          { c.accounts_ with items := c.accounts_.items.eraseIdx place }⟩ := by
  simp [removeAt, removed]

theorem removeAt_own {c : AccountController} {index : Nat} {item : Account}
    (removed : c.accounts_.items[index]? = some item) : removeAt 2 .own c index .other =
      (c.twitch.items.idxOf? item).bind fun place => c.twitch.items[place]?.bind fun _ => some
        ⟨{ c.twitch with items := c.twitch.items.eraseIdx place },
          { c.accounts_ with items := c.accounts_.items.eraseIdx index }⟩ := by
  simp [removeAt, removed]

inductive Event where
  | insert (account : Account)
  | removeAt (which : Which) (index : Nat)

/-- The items of one of the vectors. -/
def items (c : AccountController) : Which → List Account
  | .twitch => c.twitch.items
  | .own => c.accounts_.items

def handle (c : AccountController) : Event → Option AccountController
  | .insert account => c.insert account
  | .removeAt which index => removeAt 2 which c index .other

/-- The index of a removal is in the range of its vector. -/
def InRange (c : AccountController) : Event → Prop
  | .insert _ => True
  | .removeAt which index => index < (c.items which).length

instance (c : AccountController) (e : Event) : Decidable (c.InRange e) := by
  cases e <;> unfold InRange <;> infer_instance

end AccountController

open AccountController

/-- The controller, or that an assertion has failed. -/
inductive Session where
  | running (c : AccountController)
  | failed

namespace Session

def step : Session → Event → Option Session
  | .failed, _ => none
  | .running c, e =>
    if c.InRange e then
      match c.handle e with
      | some next => some (.running next)
      | none => some .failed
    else none

/-- No assertion has failed, and the vectors have the same accounts. -/
def InStep : Session → Prop
  | .failed => False
  | .running c => c.twitch.items.Perm c.accounts_.items

/-- What is removed from the accounts of the provider occurs there again, and stands in accounts_ at the
index where it then occurs first. -/
def Repeated : Session → Event → Prop
  | .running c, .removeAt .twitch index => ∃ item place, c.twitch.items[index]? = some item ∧
      (c.twitch.items.eraseIdx index).idxOf? item = some place ∧ c.accounts_.items[place]? = some item
  | _, _ => True

theorem perm_cons_eraseIdx {items : List Account} {index : Nat} {item : Account} (at_ : items[index]? = some item) :
    items.Perm (item :: items.eraseIdx index) := by
  obtain ⟨inside, rfl⟩ := List.getElem?_eq_some_iff.mp at_
  exact (List.getElem_cons_eraseIdx_perm inside).symm

/-- Lists that are the same without one account each are the same only if the accounts are. -/
theorem perm_eraseIdx_iff {first second : List Account} {index place : Nat} {item other : Account}
    (same : first.Perm second) (at_ : first[index]? = some item) (atToo : second[place]? = some other) :
    (first.eraseIdx index).Perm (second.eraseIdx place) ↔ item = other := by
  have split : (item :: first.eraseIdx index).Perm (other :: second.eraseIdx place) :=
    (perm_cons_eraseIdx at_).symm.trans (same.trans (perm_cons_eraseIdx atToo))
  constructor
  · intro rest
    have swapped : ([item] ++ first.eraseIdx index).Perm ([other] ++ first.eraseIdx index) :=
      split.trans (rest.symm.cons other)
    exact List.singleton_perm_singleton.mp ((List.perm_append_right_iff _).mp swapped)
  · rintro rfl
    exact split.cons_inv

theorem repeated_iff {c : AccountController} {index : Nat} {item : Account} (at_ : c.twitch.items[index]? = some item) :
    Repeated (running c) (.removeAt .twitch index) ↔
      ∃ place, (c.twitch.items.eraseIdx index).idxOf? item = some place ∧ c.accounts_.items[place]? = some item := by
  constructor
  · rintro ⟨other, place, atToo, found, own⟩
    rw [at_] at atToo
    obtain rfl := Option.some.inj atToo
    exact ⟨place, found, own⟩
  · rintro ⟨place, found, own⟩
    exact ⟨item, place, at_, found, own⟩

/-- An event that is in range leaves the vectors in step exactly when what it removes is repeated. -/
theorem inStep_step {c : AccountController} {e : Event} {next : Session} (start : InStep (running c))
    (taken : step (running c) e = some next) : InStep next ↔ Repeated (running c) e := by
  obtain ⟨inRange, handled⟩ := Option.ite_none_right_eq_some.mp taken
  cases e with
  | insert account =>
    obtain ⟨inserted, handles, twitch, own⟩ := insert_perm c account
    rw [AccountController.handle, handles] at handled
    obtain rfl := Option.some.inj handled
    exact ⟨fun _ => trivial, fun _ => twitch.trans ((start.cons account).trans own.symm)⟩
  | removeAt which index =>
    obtain ⟨item, at_⟩ : ∃ item, (c.items which)[index]? = some item := ⟨_, List.getElem?_eq_getElem inRange⟩
    cases which with
    | twitch =>
      have at_ : c.twitch.items[index]? = some item := at_
      rw [AccountController.handle, removeAt_twitch at_] at handled
      rw [repeated_iff at_]
      cases found : (c.twitch.items.eraseIdx index).idxOf? item with
      | none =>
        rw [found] at handled
        obtain rfl := Option.some.inj handled
        simp [InStep]
      | some place =>
        rw [found, Option.bind_some] at handled
        cases atToo : c.accounts_.items[place]? with
        | none =>
          rw [atToo] at handled
          obtain rfl := Option.some.inj handled
          simp [InStep, atToo]
        | some other =>
          rw [atToo] at handled
          obtain rfl := Option.some.inj handled
          simpa [InStep, atToo, eq_comm] using perm_eraseIdx_iff start at_ atToo
    | own =>
      -- the account is also in the other vector, and there nothing is handled again
      obtain ⟨place, found⟩ : ∃ place, c.twitch.items.idxOf? item = some place := by
        apply Option.isSome_iff_exists.mp
        exact List.isSome_idxOf?.mpr (start.mem_iff.mpr (List.mem_of_getElem? at_))
      obtain ⟨inside, same, _⟩ := List.idxOf?_eq_some_iff.mp found
      have atToo : c.twitch.items[place]? = some item := List.getElem?_eq_some_iff.mpr ⟨inside, same⟩
      rw [AccountController.handle, removeAt_own at_, found, Option.bind_some, atToo] at handled
      obtain rfl := Option.some.inj handled
      exact ⟨fun _ => trivial, fun _ => (perm_eraseIdx_iff start atToo at_).mpr rfl⟩

/-- In a run from the new controller, the vectors stay in step exactly when every removal from the accounts of the
provider is of an account that is repeated. -/
theorem run_inStep_iff (events : List Event) (final : Session) (ran : run step (running .new) events = some final) :
    Along step Repeated (running .new) events ↔
      ∀ before, before <+: events → ∀ state, run step (running .new) before = some state → InStep state := by
  have start : InStep (running .new) := List.Perm.nil
  refine along_iff ?_ ?_ (fun _ held => held) ran start
  · intro state e next held repeats taken
    cases state with
    | failed => cases held
    | running c => exact (inStep_step held taken).mpr repeats
  · intro state e next held repeats taken
    cases state with
    | failed => cases held
    | running c => exact fun kept => repeats ((inStep_step held taken).mp kept)

/-- The account of a, and one of b that is removed where the settings show it. -/
theorem run_inStep_iff_own : Along step Repeated (running .new)
    [.insert ⟨1, .Twitch, qs "b"⟩, .insert ⟨2, .Twitch, qs "a"⟩, .removeAt .own 1] ↔
      ∀ before, before <+: [.insert ⟨1, .Twitch, qs "b"⟩, .insert ⟨2, .Twitch, qs "a"⟩, .removeAt .own 1] →
        ∀ state, run step (running .new) before = some state → InStep state :=
  run_inStep_iff _ (running ⟨⟨some Account.less, [⟨2, .Twitch, qs "a"⟩]⟩, ⟨some Account.less, [⟨2, .Twitch, qs "a"⟩]⟩⟩)
    rfl

/-- The only account is removed from the accounts of the provider. -/
theorem not_inStep_removed : ¬ ∀ (events : List Event) (final : Session),
    run step (running .new) events = some final → InStep final := by
  intro holds
  exact holds [.insert ⟨1, .Twitch, qs "a"⟩, .removeAt .twitch 0] failed rfl

/-- While no account is there twice, no removal from the accounts of the provider is allowed. -/
theorem not_repeated_of_nodup {c : AccountController} (distinct : c.twitch.items.Nodup) (index : Nat) :
    ¬ Repeated (running c) (.removeAt .twitch index) := by
  rintro ⟨item, place, at_, found, _⟩
  have again : item ∈ c.twitch.items.eraseIdx index :=
    List.isSome_idxOf?.mp (Option.isSome_iff_exists.mpr ⟨place, found⟩)
  have split := perm_cons_eraseIdx at_
  exact (List.nodup_cons.mp (split.nodup_iff.mp distinct)).1 again

end Session

end Forserino.Accounts
