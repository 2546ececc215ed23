import Forserino.Foundation.Runs
import Forserino.Qt.Json
import Mathlib.Data.List.Basic

/-! common/Credentials.cpp: the credentials in a file, and the jobs for the keychain.

What the file is written from is one JSON document. QJsonDocument::object() makes a copy of its
object, which has to be set again to reach the document.
-/

set_option autoImplicit false

namespace Forserino.Common

open Forserino.Foundation Forserino.Qt

/-! ## The file -/

inductive QJsonDocument where
  | null
  | array (items : List QJsonValue)
  | object (members : QJsonObject)

namespace QJsonDocument

/-- A copy of the object, which is empty if the document is something else. -/
def toObject : QJsonDocument → QJsonObject
  | .object members => members
  | _ => []

def setObject (_ : QJsonDocument) (obj : QJsonObject) : QJsonDocument := .object obj

def value (doc : QJsonDocument) (key : QString) : Option QJsonValue := doc.toObject.value key

end QJsonDocument

/-- The name of a provider, in which formatName asserts that there is no colon. -/
structure Provider where
  name : QString
  plain : u ':' ∉ name
  deriving DecidableEq

def formatName (provider : Provider) (name : QString) : QString :=
  qs "chatterino:" ++ (provider.name ++ u ':' :: name)

namespace Credentials

def get (doc : QJsonDocument) (provider : Provider) (name : QString) : QString :=
  QJsonValue.toString (doc.value (formatName provider name))

def set (doc : QJsonDocument) (provider : Provider) (name credential : QString) : QJsonDocument :=
  doc.setObject (doc.toObject.insert (formatName provider name) (.string credential))

/-- The member is erased from a copy that nothing is done with. -/
def erase (doc : QJsonDocument) (provider : Provider) (name : QString) : QJsonDocument :=
  if doc.toObject.contains (formatName provider name) then
    -- erase of the temporary that object() returns
    let _copy := doc.toObject.filter fun member => member.1 != formatName provider name
    doc
  else doc

inductive Call where
  | get (provider : Provider) (name : QString)
  | set (provider : Provider) (name credential : QString)
  | erase (provider : Provider) (name : QString)

def step (doc : QJsonDocument) : Call → QJsonDocument
  | .get _ _ => doc
  | .set provider name credential => set doc provider name credential
  | .erase provider name => erase doc provider name

/-- What a keyed store would answer behind a call. -/
def Call.stores (provider : Provider) (name : QString) (before : QString) : Call → QString
  | .get _ _ => before
  | .set other otherName credential => if other = provider ∧ otherName = name then credential else before
  | .erase other otherName => if other = provider ∧ otherName = name then [] else before

/-- The value of the last set that no erase of the same pair followed, and the empty string
otherwise. -/
def stored (calls : List Call) (provider : Provider) (name : QString) : QString :=
  calls.foldl (Call.stores provider name) []

theorem stored_concat (calls : List Call) (call : Call) (provider : Provider) (name : QString) :
    stored (calls ++ [call]) provider name = call.stores provider name (stored calls provider name) := by
  rw [stored, List.foldl_append]
  rfl

end Credentials

/-- The colons keep provider and name apart. -/
theorem formatName_inj {provider other : Provider} {name otherName : QString}
    (same : formatName provider name = formatName other otherName) : provider = other ∧ name = otherName := by
  have tails := List.append_cancel_left same
  -- the name of the provider is what stands before the first colon
  have front (p : Provider) (rest : QString) :
      (p.name ++ u ':' :: rest).takeWhile (fun c => c != u ':') = p.name := by
    rw [List.takeWhile_append_of_pos, List.takeWhile_cons_of_neg (by simp), List.append_nil]
    intro c member
    rw [bne_iff_ne]
    rintro rfl
    exact p.plain member
  have providers : provider.name = other.name := by rw [← front provider name, tails, front]
  rw [providers] at tails
  refine ⟨?_, (List.cons.inj (List.append_cancel_left tails)).2⟩
  cases provider
  cases other
  cases providers
  rfl

namespace Credentials

theorem get_set (doc : QJsonDocument) (provider : Provider) (name credential : QString) :
    get (set doc provider name credential) provider name = credential := by
  unfold get set QJsonDocument.setObject QJsonDocument.value QJsonDocument.toObject
  rw [QJsonObject.value_insert]
  rfl

/-- A call for one pair does not change what is told of another. -/
theorem get_set_other (doc : QJsonDocument) {provider other : Provider} {name otherName : QString}
    (differ : ¬ (provider = other ∧ name = otherName)) (credential : QString) :
    get (set doc provider name credential) other otherName = get doc other otherName := by
  have keys : formatName other otherName ≠ formatName provider name := by
    intro same
    obtain ⟨rfl, rfl⟩ := formatName_inj same
    exact differ ⟨rfl, rfl⟩
  unfold get set QJsonDocument.setObject QJsonDocument.value
  exact congrArg QJsonValue.toString (QJsonObject.value_insert_other _ keys _)

/-- Nothing is ever erased. -/
theorem erase_nothing (doc : QJsonDocument) (provider : Provider) (name : QString) : erase doc provider name = doc := by
  unfold erase
  split <;> rfl

/-- What a call does to one pair, but for an erase of it. -/
theorem get_step {doc : QJsonDocument} {call : Call} {provider : Provider} {name : QString}
    (other : call ≠ .erase provider name) :
    get (step doc call) provider name = call.stores provider name (get doc provider name) := by
  cases call with
  | get => rfl
  | set target targetName credential =>
    simp only [step, Call.stores]
    split
    · next same =>
      obtain ⟨rfl, rfl⟩ := same
      exact get_set doc target targetName credential
    · next differ => exact get_set_other doc differ credential
  | erase target targetName =>
    have differ : ¬ (target = provider ∧ targetName = name) := by
      rintro ⟨rfl, rfl⟩
      exact other rfl
    simp only [step, Call.stores, erase_nothing, if_neg differ]

theorem foldl_concat (start : QJsonDocument) (calls : List Call) (call : Call) :
    (calls ++ [call]).foldl step start = step (calls.foldl step start) call := by
  rw [List.foldl_append]
  rfl

/-- What is told behind all calls so far is what a keyed store would answer, from a document
without credentials. -/
def Keyed (start : QJsonDocument) (calls : List Call) : Prop :=
  ∀ before, before <+: calls → ∀ provider name,
    get (before.foldl step start) provider name = stored before provider name

/-- It is a keyed store if and only if nothing is erased that has a value. -/
theorem keyed_iff {start : QJsonDocument} (blank : ∀ provider name, get start provider name = []) {calls : List Call} :
    Keyed start calls ↔
      ∀ before provider name, before ++ [.erase provider name] <+: calls → stored before provider name = [] := by
  constructor
  · intro keyed before provider name erased
    have told := keyed before ((List.prefix_append _ _).trans erased) provider name
    have behind := keyed _ erased provider name
    rw [foldl_concat, step, erase_nothing, told, stored_concat] at behind
    simpa [Call.stores] using behind
  · intro nothing before isPrefix
    -- the document is what the calls before have left, the last call is the step
    induction before using List.reverseRecOn with
    | nil => exact blank
    | append_singleton before call ih =>
      have told := ih ((List.prefix_append _ _).trans isPrefix)
      intro provider name
      rw [foldl_concat, stored_concat]
      by_cases erased : call = .erase provider name
      · subst erased
        have none := nothing before provider name isPrefix
        -- nothing is told of the pair already, so nothing had to be erased
        rw [step, erase_nothing, told, none]
        simp [Call.stores]
      · rw [get_step erased, told]

def twitch : Provider := ⟨qs "twitch", by decide⟩

theorem keyed_set : Keyed .null [.set twitch (qs "a") (qs "token"), .get twitch (qs "a")] := by
  apply (keyed_iff fun _ _ => rfl).mpr
  intro before provider name erased
  have member := erased.subset (List.mem_append_right before (List.mem_singleton_self _))
  simp at member

/-- An erased credential is told all the same. -/
theorem erased_told : ¬ ∀ calls : List Call, Keyed .null calls := by
  intro keyed
  have told := keyed [.set twitch (qs "a") (qs "token"), .erase twitch (qs "a")] _ (List.prefix_refl _) twitch (qs "a")
  exact absurd told (by decide)

end Credentials

/-! ## The keychain -/

inductive Job where
  | set (name credential : QString)
  | erase (name : QString)
  deriving DecidableEq, Repr

/-- The queue, and the jobs of the keychain that have not finished yet; besides what was queued,
started and finished so far. -/
structure Keychain where
  queue : List Job
  running : List Job
  queued : List Job
  started : List Job
  finished : List Job
  deriving DecidableEq, Repr

namespace Keychain

def new : Keychain := ⟨[], [], [], [], []⟩

def runNextJob (s : Keychain) : Keychain :=
  match s.queue with
  | [] => s
  | item :: rest => { s with queue := rest, running := s.running ++ [item], started := s.started ++ [item] }

def queueJob (s : Keychain) (job : Job) : Keychain :=
  let s := { s with queue := s.queue ++ [job], queued := s.queued ++ [job] }
  -- an item is popped when its job starts, so one item means that none waits, not that none is running
  if s.queue.length = 1 then runNextJob s else s

/-- A call, or that the running job at the index has finished. -/
inductive Event where
  | queueJob (job : Job)
  | finished (index : Nat)
  deriving DecidableEq, Repr

def step (s : Keychain) : Event → Option Keychain
  | .queueJob job => some (s.queueJob job)
  | .finished index =>
      s.running[index]?.map fun job =>
        runNextJob { s with running := s.running.eraseIdx index, finished := s.finished ++ [job] }

/-- The jobs are started and done one after the other in the order they were queued, and none
waits while no other is running. -/
structure OneByOne (s : Keychain) : Prop where
  single : s.running.length ≤ 1
  order : s.started ++ s.queue = s.queued
  effect : s.finished ++ s.running = s.started
  waits : s.running = [] → s.queue = []

/-- Every job is started at once, whether another one is running or not. -/
structure AtOnce (s : Keychain) : Prop where
  nothing : s.queue = []
  all : s.started = s.queued

theorem queueJob_starts {s : Keychain} (atOnce : s.AtOnce) (job : Job) :
    s.queueJob job = { s with
      running := s.running ++ [job]
      queued := s.queued ++ [job]
      started := s.started ++ [job] } := by
  unfold queueJob runNextJob
  simp [atOnce.nothing]

theorem finished_leaves {s next : Keychain} {index : Nat} (atOnce : s.AtOnce)
    (taken : s.step (.finished index) = some next) :
    ∃ job, s.running[index]? = some job ∧
      next = { s with running := s.running.eraseIdx index, finished := s.finished ++ [job] } := by
  obtain ⟨job, isRunning, rfl⟩ := Option.map_eq_some_iff.mp taken
  refine ⟨job, isRunning, ?_⟩
  simp [runNextJob, atOnce.nothing]

theorem step_atOnce {s next : Keychain} {e : Event} (atOnce : s.AtOnce) (taken : s.step e = some next) : next.AtOnce := by
  cases e with
  | queueJob job =>
    obtain rfl := Option.some.inj taken
    rw [queueJob_starts atOnce]
    exact ⟨atOnce.nothing, congrArg (· ++ [job]) atOnce.all⟩
  | finished index =>
    obtain ⟨job, -, rfl⟩ := finished_leaves atOnce taken
    exact ⟨atOnce.nothing, atOnce.all⟩

/-- A job is queued only while none is running. -/
def Idle (s : Keychain) : Event → Prop
  | .queueJob _ => s.running = []
  | .finished _ => True

instance (s : Keychain) : ∀ e, Decidable (s.Idle e)
  | .queueJob _ => inferInstanceAs (Decidable (_ = _))
  | .finished _ => inferInstanceAs (Decidable True)

theorem step_oneByOne {s next : Keychain} {e : Event} (kept : s.AtOnce ∧ s.OneByOne) (idle : s.Idle e)
    (taken : s.step e = some next) : next.AtOnce ∧ next.OneByOne := by
  obtain ⟨atOnce, oneByOne⟩ := kept
  have behind := step_atOnce atOnce taken
  refine ⟨behind, ?_, ?_, ?_, fun _ => behind.nothing⟩
  · cases e with
    | queueJob job =>
      obtain rfl := Option.some.inj taken
      rw [queueJob_starts atOnce, show s.running = [] from idle]
      exact Nat.le_refl 1
    | finished index =>
      obtain ⟨job, -, rfl⟩ := finished_leaves atOnce taken
      exact Nat.le_trans (List.length_eraseIdx_le _ _) oneByOne.single
  · rw [behind.nothing, behind.all, List.append_nil]
  · cases e with
    | queueJob job =>
      obtain rfl := Option.some.inj taken
      rw [queueJob_starts atOnce]
      show s.finished ++ (s.running ++ [job]) = s.started ++ [job]
      rw [← List.append_assoc, oneByOne.effect]
    | finished index =>
      obtain ⟨job, isRunning, rfl⟩ := finished_leaves atOnce taken
      show s.finished ++ [job] ++ s.running.eraseIdx index = s.started
      rw [← oneByOne.effect, List.append_assoc]
      congr 1
      -- the only job that is running is the one that has finished
      have single := oneByOne.single
      obtain ⟨inside, same⟩ := List.getElem?_eq_some_iff.mp isRunning
      obtain ⟨only, isOnly⟩ := List.length_eq_one_iff.mp (show s.running.length = 1 by omega)
      obtain rfl : index = 0 := by omega
      simp only [isOnly, List.getElem_cons_zero] at same
      rw [isOnly, same]
      rfl

/-- The jobs go one by one through a run if and only if each is queued while none is running. -/
theorem oneByOne_iff {events : List Event} {final : Keychain} (ran : run step new events = some final) :
    Along step Idle new events ↔
      ∀ before, before <+: events → ∀ s, run step new before = some s → s.OneByOne := by
  refine @along_iff _ _ _ _ _ _ (fun s => s.AtOnce ∧ s.OneByOne) _ ?_ ?_ ?_ _ ran ?_
  · exact fun s e next kept idle taken => step_oneByOne kept idle taken
  · intro s e next kept busy taken oneByOne
    cases e with
    | queueJob job =>
      obtain rfl := Option.some.inj taken
      rw [queueJob_starts kept.1] at oneByOne
      have single := oneByOne.single
      -- a job is running already, and the queue is empty all the same
      have positive := List.length_pos_iff.mpr busy
      simp only [List.length_append, List.length_singleton] at single
      omega
    | finished index => exact busy trivial
  · exact fun s kept => kept.2
  · exact ⟨⟨rfl, rfl⟩, Nat.zero_le 1, rfl, rfl, fun _ => rfl⟩

theorem oneByOne_twice : Along step Idle new [.queueJob (.erase []), .finished 0, .queueJob (.set [] [])] ∧
    ∀ before, before <+: [.queueJob (.erase []), .finished 0, .queueJob (.set [] [])] →
      ∀ s, run step new before = some s → s.OneByOne :=
  ⟨by decide, (oneByOne_iff rfl).mp (by decide)⟩

/-- Two calls in a row start two jobs. -/
theorem two_running : ¬ ∀ events final, run step new events = some final →
    ∀ before, before <+: events → ∀ s, run step new before = some s → s.OneByOne := by
  intro holds
  have oneByOne := holds [.queueJob (.set [] []), .queueJob (.erase [])] _ rfl _ (List.prefix_refl _) _ rfl
  exact absurd oneByOne.single (by decide)

end Keychain

end Forserino.Common
