import Forserino.Foundation.Histories
import Forserino.Foundation.Runs
import Mathlib.Data.List.Perm.Basic

/-! One network request: the pool that reads its cache file, the task on the worker thread, and the callbacks on the
GUI thread. Their steps come in any order, and a caller may be gone when a callback arrives.
-/

set_option autoImplicit false

namespace Forserino.Network

open Foundation

inductive NetworkRequestType where
  | get
  | post
  | put
  | delete
  | patch
  deriving DecidableEq, Repr

/-- QNetworkReply::NetworkError -/
inductive NetworkError where
  | noError
  | timeoutError
  | operationCanceledError
  | other (code : Nat)
  deriving DecidableEq, Repr

structure NetworkResult where
  error : NetworkError
  httpStatusCode : Option Int
  data : List UInt8
  deriving DecidableEq, Repr

/-- A callback with what it is called with. -/
inductive Callback where
  | success (result : NetworkResult)
  | error (result : NetworkResult)
  | final
  deriving DecidableEq, Repr

/-- What the request was made with. A callback is there until it is moved away. -/
structure NetworkData where
  requestType : NetworkRequestType
  hasCaller : Bool
  cache : Bool
  executeConcurrently : Bool
  onSuccess : Bool
  onError : Bool
  onFinally : Bool
  timeout : Bool
  deriving DecidableEq, Repr

/-- The task when it has a reply. -/
structure NetworkTask where
  /-- Which of the timers are running; timer_ is the last one. -/
  timers : List Bool
  /-- The task listens to the end of the reply. -/
  connected : Bool
  /-- The reply has finished or was aborted. -/
  replied : Bool
  /-- The task is going to be deleted. -/
  abandoned : Bool
  deriving DecidableEq, Repr

inductive Entry where
  /-- What the request has come to. -/
  | settled (outcome : Callback)
  | cancelled
  | cached (bytes : List UInt8)
  | called (callback : Callback)
  | dropped (callback : Callback)
  | gone
  deriving DecidableEq, Repr

structure Request where
  data : NetworkData
  callerGone : Bool
  /-- The cache file is to be read. -/
  loading : Bool
  /-- The task is made and is to run. -/
  queued : Bool
  task : Option NetworkTask
  /-- The callbacks that have been given to the GUI thread, or to the pool. -/
  posted : List Callback
  history : List Entry

namespace Request

/-- NetworkRequest::execute -/
def execute (data : NetworkData) : Request :=
  let cache := data.cache && data.requestType = .get
  ⟨{ data with cache }, false, cache, !cache, none, [], []⟩

def log (request : Request) (entry : Entry) : Request := { request with history := request.history ++ [entry] }

section
variable (movedFrom : Bool)

/-! A std::function that has been moved away is empty, or is as it was. -/

def emitSuccess (request : Request) (result : NetworkResult) : Request :=
  if request.data.onSuccess then
    { request with posted := request.posted ++ [.success result], data := { request.data with onSuccess := movedFrom } }
  else request

def emitError (request : Request) (result : NetworkResult) : Request :=
  if request.data.onError then
    { request with posted := request.posted ++ [.error result], data := { request.data with onError := movedFrom } }
  else request

def emitFinally (request : Request) : Request :=
  if request.data.onFinally then
    { request with posted := request.posted ++ [.final], data := { request.data with onFinally := movedFrom } }
  else request

def loadCached (request : Request) (cachedFile : Option (List UInt8)) : Request :=
  match cachedFile with
  | none => { request with loading := false, queued := true }
  | some bytes =>
    let result : NetworkResult := ⟨.noError, some 200, bytes⟩
    let loaded := { request with loading := false }.log (.settled (.success result))
    (loaded.emitSuccess movedFrom result).emitFinally movedFrom

/-- The reply of a request of one of the types; the end of it is connected. -/
def runTask (request : Request) : Request :=
  { request with queued := false, task := some ⟨[], true, false, false⟩ }

def requestSent (request : Request) (task : NetworkTask) : Request :=
  if request.data.timeout then { request with task := some { task with timers := task.timers ++ [true] } } else request

def timeout (request : Request) (task : NetworkTask) : Request :=
  let result : NetworkResult := ⟨.timeoutError, none, []⟩
  let aborted := { request with task := some { task with connected := false, replied := true, abandoned := true } }
  ((aborted.log (.settled (.error result))).emitError movedFrom result).emitFinally movedFrom

def finished (request : Request) (task : NetworkTask) (reply : NetworkResult) : Request :=
  let timers := task.timers.set (task.timers.length - 1) false
  let stopped := { task with timers, replied := true, abandoned := true }
  let request := { request with task := some stopped }
  if reply.error = .operationCanceledError then request.log .cancelled
  else if reply.error ≠ .noError then
    ((request.log (.settled (.error reply))).emitError movedFrom reply).emitFinally movedFrom
  else
    let written := if request.data.cache then request.log (.cached reply.data) else request
    ((written.log (.settled (.success reply))).emitSuccess movedFrom reply).emitFinally movedFrom

/-- A callback on its thread. -/
def call (request : Request) (callback : Callback) : Request :=
  if request.data.hasCaller && request.callerGone then request.log (.dropped callback)
  else request.log (.called callback)

inductive Event where
  | loadCached (cachedFile : Option (List UInt8))
  | run
  | requestSent
  | timeout (timer : Nat)
  | finished (reply : NetworkResult)
  | deleted
  | call (position : Nat)
  | callerDestroyed

def step (request : Request) : Event → Option Request
  | .loadCached cachedFile => if request.loading then some (request.loadCached movedFrom cachedFile) else none
  | .run => if request.queued then some request.runTask else none
  | .requestSent =>
    request.task.bind fun task => if task.replied then none else some (request.requestSent task)
  | .timeout timer =>
    request.task.bind fun task =>
      if task.timers[timer]? = some true then
        some (request.timeout movedFrom { task with timers := task.timers.set timer false })
      else none
  | .finished reply =>
    request.task.bind fun task =>
      if task.replied || !task.connected then none else some (request.finished movedFrom task reply)
  | .deleted =>
    request.task.bind fun task => if task.abandoned then some { request with task := none } else none
  | .call position =>
    -- the GUI thread takes them in turn
    if !request.data.executeConcurrently && position ≠ 0 then none
    else request.posted[position]?.map fun callback =>
      { request with posted := request.posted.eraseIdx position }.call callback
  | .callerDestroyed => if request.callerGone then none else some ({ request with callerGone := true }.log .gone)

end

/-! ## What is owed -/

def outcomes (history : List Entry) : List Callback :=
  history.filterMap fun
    | .settled outcome => some outcome
    | _ => none

/-- The callbacks whose turn has come. -/
def said (history : List Entry) : List Callback :=
  history.filterMap fun
    | .called callback | .dropped callback => some callback
    | _ => none

/-- The callbacks that an outcome asks for. -/
def owed (data : NetworkData) (outcome : Callback) : List Callback :=
  (match outcome with
    | .success _ => if data.onSuccess then [outcome] else []
    | .error _ => if data.onError then [outcome] else []
    | .final => []) ++ if data.onFinally then [.final] else []

/-- Callbacks are called while there is a caller, if there was one. -/
def Present (hasCaller : Bool) (before : List Entry) : Entry → Prop
  | .called _ => hasCaller = true → .gone ∉ before
  | .dropped _ => hasCaller = true ∧ .gone ∈ before
  | _ => True

/-- A reply is sent once, and not again by a redirect. -/
def sentOnce (request : Request) : Event → Bool
  | .requestSent => request.task.all fun task => task.timers.isEmpty
  | _ => true

/-- Nothing else will settle the request. -/
def Over (request : Request) : Prop :=
  request.loading = false ∧ request.queued = false ∧ ∀ task ∈ request.task, task.abandoned = true

variable {movedFrom : Bool} {data : NetworkData} {request next final : Request} {outcome : Callback}

@[simp] theorem outcomes_append (front back : List Entry) :
    outcomes (front ++ back) = outcomes front ++ outcomes back :=
  List.filterMap_append

@[simp] theorem said_append (front back : List Entry) : said (front ++ back) = said front ++ said back :=
  List.filterMap_append

/-- Success hands over what it owes. -/
theorem settle_success (request : Request) (result : NetworkResult) :
    ((request.log (.settled (.success result))).emitSuccess movedFrom result).emitFinally movedFrom =
      { request with
        posted := request.posted ++ owed request.data (.success result)
        history := request.history ++ [.settled (.success result)]
        data := { request.data with
          onSuccess := request.data.onSuccess && movedFrom, onFinally := request.data.onFinally && movedFrom } } := by
  rcases request with ⟨⟨_, _, _, _, onSuccess, _, onFinally, _⟩, _, _, _, _, _, _⟩
  cases onSuccess <;> cases onFinally <;> simp [log, emitSuccess, emitFinally, owed]

theorem settle_error (request : Request) (result : NetworkResult) :
    ((request.log (.settled (.error result))).emitError movedFrom result).emitFinally movedFrom =
      { request with
        posted := request.posted ++ owed request.data (.error result)
        history := request.history ++ [.settled (.error result)]
        data := { request.data with
          onError := request.data.onError && movedFrom, onFinally := request.data.onFinally && movedFrom } } := by
  rcases request with ⟨⟨_, _, _, _, _, onError, onFinally, _⟩, _, _, _, _, _, _⟩
  cases onError <;> cases onFinally <;> simp [log, emitError, emitFinally, owed]

/-! ## Every order of the steps -/

/-- The callbacks that have been called or are on their way are those that the one outcome asks for, in its order
unless they run concurrently. -/
structure Accounted (data : NetworkData) (request : Request) : Prop where
  once : (outcomes request.history).length ≤ 1
  perm : (said request.history ++ request.posted).Perm ((outcomes request.history).flatMap (owed data))
  order : data.executeConcurrently = false →
    said request.history ++ request.posted = (outcomes request.history).flatMap (owed data)
  present : Throughout (Present data.hasCaller) request.history

/-- What is the same in every state. -/
structure Steady (data : NetworkData) (request : Request) : Prop where
  concurrently : request.data.executeConcurrently = data.executeConcurrently
  hasCaller : request.data.hasCaller = data.hasCaller
  gone : request.callerGone = true ↔ .gone ∈ request.history
  present : Throughout (Present data.hasCaller) request.history

/-- The request is read from its file, waits for its task, or has a task with one timer at most. -/
def Underway (request : Request) : Prop :=
  (request.loading = true ∧ request.queued = false ∧ request.task = none) ∨
    (request.loading = false ∧ request.queued = true ∧ request.task = none) ∨
    (request.loading = false ∧ request.queued = false ∧
      ∃ timers, request.task = some ⟨timers, true, false, false⟩ ∧ (timers = [] ∨ timers = [true]))

/-- A task that is underway listens to its reply. -/
theorem Underway.running {task : NetworkTask} (underway : Underway request) (there : request.task = some task) :
    request.loading = false ∧ request.queued = false ∧
      ∃ timers, task = ⟨timers, true, false, false⟩ ∧ (timers = [] ∨ timers = [true]) := by
  rcases underway with ⟨-, -, none_⟩ | ⟨-, -, none_⟩ | ⟨loading, queued, timers, task_, few⟩
  · rw [there] at none_; cases none_
  · rw [there] at none_; cases none_
  · exact ⟨loading, queued, timers, Option.some.inj (there.symm.trans task_), few⟩

/-- Nothing has been settled yet. -/
structure Going (data : NetworkData) (request : Request) : Prop where
  steady : Steady data request
  callbacks : owed request.data = owed data
  outcomes : outcomes request.history = []
  said : said request.history = []
  posted : request.posted = []
  cancelled : .cancelled ∉ request.history
  underway : Underway request

/-- The request is settled or cancelled, and no timer and no reply will change that. -/
structure Done (data : NetworkData) (request : Request) : Prop where
  steady : Steady data request
  loading : request.loading = false
  queued : request.queued = false
  task : ∀ task ∈ request.task, task.abandoned = true ∧ task.replied = true ∧ true ∉ task.timers
  accounted : Accounted data request
  settled : Request.outcomes request.history ≠ [] ↔ .cancelled ∉ request.history

theorem Going.accounted (going : Going data request) : Accounted data request where
  once := by rw [going.outcomes]; exact Nat.zero_le 1
  perm := by rw [going.outcomes, going.said, going.posted]; exact .refl []
  order _ := by rw [going.outcomes, going.said, going.posted]; rfl
  present := going.steady.present

theorem going_execute (data : NetworkData) : Going data (execute data) where
  steady := ⟨rfl, rfl, iff_of_false Bool.false_ne_true List.not_mem_nil, throughout_nil⟩
  callbacks := rfl
  outcomes := rfl
  said := rfl
  posted := rfl
  cancelled := List.not_mem_nil
  underway := by
    cases cached : data.cache && decide (data.requestType = .get)
    · exact .inr (.inl ⟨cached, by simp [execute, cached], rfl⟩)
    · exact .inl ⟨cached, by simp [execute, cached], rfl⟩

/-- Entries that are about no callback and no caller keep what is steady. -/
theorem Steady.more {more : List Entry} (steady : Steady data request)
    (plain : ∀ entry ∈ more, entry ≠ .gone ∧ ∀ before, Present data.hasCaller before entry)
    (concurrently : next.data.executeConcurrently = request.data.executeConcurrently)
    (hasCaller : next.data.hasCaller = request.data.hasCaller) (callerGone : next.callerGone = request.callerGone)
    (history : next.history = request.history ++ more) : Steady data next where
  concurrently := concurrently.trans steady.concurrently
  hasCaller := hasCaller.trans steady.hasCaller
  gone := by
    rw [callerGone, steady.gone, history, List.mem_append]
    exact ⟨.inl, fun among => among.resolve_right fun added => (plain _ added).1 rfl⟩
  present := by
    rw [history]
    exact steady.present.append fun before entry member => (plain entry member).2 before

/-- A request that is settled for the first time is done. -/
theorem Going.settle {more : List Entry} (going : Going data request) (steady : Steady data next)
    (history : next.history = request.history ++ more) (said_ : Request.said more = [])
    (settled : Request.outcomes more = [outcome]) (cancelled : .cancelled ∉ more)
    (posted : next.posted = request.posted ++ owed request.data outcome) (loading : next.loading = false)
    (queued : next.queued = false)
    (task : ∀ task ∈ next.task, task.abandoned = true ∧ task.replied = true ∧ true ∉ task.timers) : Done data next := by
  have one : Request.outcomes next.history = [outcome] := by rw [history, outcomes_append, going.outcomes, settled]; rfl
  have all : Request.said next.history ++ next.posted = (Request.outcomes next.history).flatMap (owed data) := by
    rw [one, history, said_append, going.said, said_, posted, going.posted, going.callbacks]
    simp
  refine ⟨steady, loading, queued, task, ⟨?_, .of_eq all, fun _ => all, steady.present⟩, ?_⟩
  · rw [one]
    exact Nat.le_refl 1
  · rw [one, history, List.mem_append, not_or]
    exact iff_of_true (List.cons_ne_nil _ _) ⟨going.cancelled, cancelled⟩

/-- A request that is cancelled is done, and owes nothing. -/
theorem Going.cancel (going : Going data request) (steady : Steady data next)
    (history : next.history = request.history ++ [.cancelled]) (posted : next.posted = request.posted)
    (loading : next.loading = false) (queued : next.queued = false)
    (task : ∀ task ∈ next.task, task.abandoned = true ∧ task.replied = true ∧ true ∉ task.timers) : Done data next := by
  have none_ : Request.outcomes next.history = [] := by rw [history, outcomes_append, going.outcomes]; rfl
  have nothing : Request.said next.history ++ next.posted = [] := by
    rw [history, said_append, going.said, posted, going.posted]
    rfl
  refine ⟨steady, loading, queued, task, ⟨?_, ?_, fun _ => ?_, steady.present⟩, ?_⟩
  · rw [none_]
    exact Nat.zero_le 1
  · rw [nothing, none_]
    exact .refl []
  · rw [nothing, none_]
    rfl
  · rw [none_, history]
    simp

/-- A step that only moves the request on. -/
theorem Going.move (going : Going data request) (sameData : next.data = request.data)
    (callerGone : next.callerGone = request.callerGone) (posted : next.posted = request.posted)
    (history : next.history = request.history) (underway : Underway next) : Going data next := by
  have steady : Steady data next := by
    apply going.steady.more (List.forall_mem_nil _)
    · rw [sameData]
    · rw [sameData]
    · exact callerGone
    · rw [history, List.append_nil]
  refine ⟨steady, by rw [sameData, going.callbacks], ?_, ?_, posted.trans going.posted, ?_, underway⟩
  · rw [history, going.outcomes]
  · rw [history, going.said]
  · rw [history]
    exact going.cancelled

theorem loadCached_kept (cachedFile : Option (List UInt8)) (going : Going data request)
    (loading : request.loading = true) :
    Going data (request.loadCached movedFrom cachedFile) ∨ Done data (request.loadCached movedFrom cachedFile) := by
  obtain ⟨queued, none_⟩ : request.queued = false ∧ request.task = none := by
    rcases going.underway with ⟨-, queued, none_⟩ | ⟨notLoading, -⟩ | ⟨notLoading, -⟩
    · exact ⟨queued, none_⟩
    · rw [loading] at notLoading; cases notLoading
    · rw [loading] at notLoading; cases notLoading
  cases cachedFile with
  | none =>
    left
    exact going.move rfl rfl rfl rfl (.inr (.inl ⟨rfl, rfl, none_⟩))
  | some bytes =>
    right
    rw [loadCached, settle_success]
    refine going.settle (going.steady.more ?_ rfl rfl rfl rfl) rfl rfl rfl ?_ rfl rfl queued ?_
    · simp [Present]
    · simp
    · intro task among
      change task ∈ request.task at among
      rw [none_] at among
      cases among

theorem timeout_done {task : NetworkTask} {timer : Nat} (going : Going data request) (there : request.task = some task)
    (running : task.timers[timer]? = some true) :
    Done data (request.timeout movedFrom { task with timers := task.timers.set timer false }) := by
  obtain ⟨loading, queued, timers, rfl, few⟩ := going.underway.running there
  rw [timeout, settle_error]
  refine going.settle (going.steady.more ?_ rfl rfl rfl rfl) rfl rfl rfl ?_ rfl loading queued ?_
  · simp [Present]
  · simp
  · intro task among
    obtain rfl := Option.some.inj among
    refine ⟨rfl, rfl, ?_⟩
    rcases few with rfl | rfl
    · cases running
    · -- the one timer has run out
      cases timer with
      | zero => simp
      | succ timer => cases running

theorem finished_done {task : NetworkTask} (reply : NetworkResult) (going : Going data request)
    (there : request.task = some task) : Done data (request.finished movedFrom task reply) := by
  obtain ⟨loading, queued, timers, rfl, few⟩ := going.underway.running there
  have stopped : true ∉ timers.set (timers.length - 1) false := by
    rcases few with rfl | rfl <;> simp
  have tasks {next : Request} (same : next.task = some ⟨timers.set (timers.length - 1) false, true, true, true⟩) :
      ∀ task ∈ next.task, task.abandoned = true ∧ task.replied = true ∧ true ∉ task.timers := by
    intro task among
    obtain rfl := Option.some.inj (same.symm.trans among)
    exact ⟨rfl, rfl, stopped⟩
  unfold finished
  dsimp only
  split
  · refine going.cancel (going.steady.more ?_ rfl rfl rfl rfl) rfl rfl loading queued (tasks rfl)
    simp [Present]
  · split
    · rw [settle_error]
      refine going.settle (going.steady.more ?_ rfl rfl rfl rfl) rfl rfl rfl ?_ rfl loading queued (tasks rfl)
      · simp [Present]
      · simp
    · rw [settle_success]
      -- the bytes may go to the cache file first
      split
      · refine going.settle (going.steady.more ?_ rfl rfl rfl (List.append_assoc _ _ _)) (List.append_assoc _ _ _)
          rfl rfl ?_ rfl loading queued (tasks rfl)
        · simp [Present]
        · simp
      · refine going.settle (going.steady.more ?_ rfl rfl rfl rfl) rfl rfl rfl ?_ rfl loading queued (tasks rfl)
        · simp [Present]
        · simp

theorem requestSent_going {task : NetworkTask} (going : Going data request) (there : request.task = some task)
    (first : task.timers.isEmpty = true) : Going data (request.requestSent task) := by
  obtain ⟨loading, queued, timers, rfl, -⟩ := going.underway.running there
  obtain rfl := List.isEmpty_iff.mp first
  unfold requestSent
  split
  · exact going.move rfl rfl rfl rfl (.inr (.inr ⟨loading, queued, [true], rfl, .inr rfl⟩))
  · exact going

/-- Behind the outcome nothing happens but that the posted callbacks have their turn. -/
theorem Done.more {entry : Entry} (done : Done data request) (steady : Steady data next)
    (history : next.history = request.history ++ [entry]) (none_ : Request.outcomes [entry] = [])
    (cancelled : entry ≠ .cancelled) (perm : (Request.said [entry] ++ next.posted).Perm request.posted)
    (order : data.executeConcurrently = false → Request.said [entry] ++ next.posted = request.posted)
    (loading : next.loading = request.loading) (queued : next.queued = request.queued)
    (task : next.task = request.task) : Done data next := by
  have same : Request.outcomes next.history = Request.outcomes request.history := by
    rw [history, outcomes_append, none_, List.append_nil]
  have all : Request.said next.history ++ next.posted =
      Request.said request.history ++ (Request.said [entry] ++ next.posted) := by
    rw [history, said_append, List.append_assoc]
  refine ⟨steady, loading.trans done.loading, queued.trans done.queued, task ▸ done.task,
    ⟨?_, ?_, ?_, steady.present⟩, ?_⟩
  · rw [same]
    exact done.accounted.once
  · rw [same, all]
    exact (perm.append_left _).trans done.accounted.perm
  · intro inTurn
    rw [same, all, order inTurn]
    exact done.accounted.order inTurn
  · rw [same, done.settled, history, List.mem_append, List.mem_singleton, not_or]
    exact ⟨fun without => ⟨without, cancelled.symm⟩, And.left⟩

theorem eraseIdx_first {α : Type} {l : List α} {x : α} (found : l[0]? = some x) : x :: l.eraseIdx 0 = l := by
  cases l with
  | nil => cases found
  | cons first rest => rw [Option.some.inj found]; rfl

theorem call_done {position : Nat} {callback : Callback} (done : Done data request)
    (turn : request.data.executeConcurrently = false → position = 0)
    (found : request.posted[position]? = some callback) :
    Done data ({ request with posted := request.posted.eraseIdx position }.call callback) := by
  have perm : (callback :: request.posted.eraseIdx position).Perm request.posted := by
    obtain ⟨within, value⟩ := List.getElem?_eq_some_iff.mp found
    rw [← value]
    exact List.getElem_cons_eraseIdx_perm within
  have order (inTurn : data.executeConcurrently = false) :
      callback :: request.posted.eraseIdx position = request.posted := by
    obtain rfl := turn (done.steady.concurrently.trans inTurn)
    exact eraseIdx_first found
  have steady (entry : Entry) (other : entry ≠ .gone) (present : Present data.hasCaller request.history entry) :
      Steady data ({ request with posted := request.posted.eraseIdx position }.log entry) := by
    refine ⟨done.steady.concurrently, done.steady.hasCaller, ?_, done.steady.present.concat present⟩
    exact done.steady.gone.trans (by simp [log, other.symm])
  unfold call
  split
  · next lost =>
    rw [Bool.and_eq_true] at lost
    have unheard := steady (.dropped callback) Entry.noConfusion
      ⟨done.steady.hasCaller.symm.trans lost.1, done.steady.gone.mp lost.2⟩
    exact done.more unheard rfl rfl Entry.noConfusion perm order rfl rfl rfl
  · next there =>
    rw [Bool.and_eq_true] at there
    have heard := steady (.called callback) Entry.noConfusion fun hasCaller gone =>
      there ⟨done.steady.hasCaller.trans hasCaller, done.steady.gone.mpr gone⟩
    exact done.more heard rfl rfl Entry.noConfusion perm order rfl rfl rfl

theorem callerDestroyed_steady (steady : Steady data request) :
    Steady data ({ request with callerGone := true }.log .gone) where
  concurrently := steady.concurrently
  hasCaller := steady.hasCaller
  gone := iff_of_true rfl (List.mem_append_right _ (List.mem_singleton_self _))
  present := steady.present.concat trivial

theorem step_kept {event : Event} (kept : Going data request ∨ Done data request) (once : request.sentOnce event = true)
    (taken : step movedFrom request event = some next) : Going data next ∨ Done data next := by
  cases event with
  | loadCached cachedFile =>
    obtain ⟨loading, same⟩ := Option.ite_none_right_eq_some.mp taken
    obtain rfl := Option.some.inj same
    rcases kept with going | done
    · exact loadCached_kept cachedFile going loading
    · rw [done.loading] at loading; cases loading
  | run =>
    obtain ⟨queued, same⟩ := Option.ite_none_right_eq_some.mp taken
    obtain rfl := Option.some.inj same
    rcases kept with going | done
    · left
      refine going.move rfl rfl rfl rfl (.inr (.inr ⟨?_, rfl, [], rfl, .inl rfl⟩))
      rcases going.underway with ⟨-, notQueued, -⟩ | ⟨loading, -⟩ | ⟨loading, -⟩
      · rw [queued] at notQueued; cases notQueued
      · exact loading
      · exact loading
    · rw [done.queued] at queued; cases queued
  | requestSent =>
    obtain ⟨task, there, going_⟩ := Option.bind_eq_some_iff.mp taken
    obtain ⟨unreplied, same⟩ := Option.ite_none_left_eq_some.mp going_
    obtain rfl := Option.some.inj same
    rcases kept with going | done
    · rw [sentOnce, there] at once
      exact .inl (requestSent_going going there once)
    · exact absurd (done.task task there).2.1 unreplied
  | timeout timer =>
    obtain ⟨task, there, runs⟩ := Option.bind_eq_some_iff.mp taken
    obtain ⟨running, same⟩ := Option.ite_none_right_eq_some.mp runs
    obtain rfl := Option.some.inj same
    rcases kept with going | done
    · exact .inr (timeout_done going there running)
    · exact absurd (List.mem_of_getElem? running) (done.task task there).2.2
  | finished reply =>
    obtain ⟨task, there, ends⟩ := Option.bind_eq_some_iff.mp taken
    obtain ⟨listening, same⟩ := Option.ite_none_left_eq_some.mp ends
    obtain rfl := Option.some.inj same
    rcases kept with going | done
    · exact .inr (finished_done reply going there)
    · rw [(done.task task there).2.1] at listening
      exact absurd rfl listening
  | deleted =>
    obtain ⟨task, there, gone⟩ := Option.bind_eq_some_iff.mp taken
    obtain ⟨abandoned, same⟩ := Option.ite_none_right_eq_some.mp gone
    obtain rfl := Option.some.inj same
    rcases kept with going | done
    · obtain ⟨-, -, timers, rfl, -⟩ := going.underway.running there
      cases abandoned
    · right
      exact ⟨⟨done.steady.concurrently, done.steady.hasCaller, done.steady.gone, done.steady.present⟩, done.loading,
        done.queued, fun task among => (Option.not_mem_none task among).elim,
        ⟨done.accounted.once, done.accounted.perm, done.accounted.order, done.accounted.present⟩, done.settled⟩
  | call position =>
    obtain ⟨turn, taken⟩ := Option.ite_none_left_eq_some.mp taken
    obtain ⟨callback, found, rfl⟩ := Option.map_eq_some_iff.mp taken
    rcases kept with going | done
    · rw [going.posted] at found; cases found
    · refine .inr (call_done done (fun inTurn => ?_) found)
      rw [inTurn, Bool.not_false, Bool.true_and, decide_eq_true_eq, ne_eq, not_not] at turn
      exact turn
  | callerDestroyed =>
    obtain ⟨-, same⟩ := Option.ite_none_left_eq_some.mp taken
    obtain rfl := Option.some.inj same
    rcases kept with going | done
    · left
      refine ⟨callerDestroyed_steady going.steady, going.callbacks, ?_, ?_, going.posted, ?_, going.underway⟩
      · exact (outcomes_append _ _).trans (by rw [going.outcomes]; rfl)
      · exact (said_append _ _).trans (by rw [going.said]; rfl)
      · simpa [log] using going.cancelled
    · right
      exact done.more (callerDestroyed_steady done.steady) rfl rfl Entry.noConfusion (.refl _) (fun _ => rfl) rfl rfl
        rfl

/-- A request that is sent once comes to one outcome, or is cancelled. The callbacks of the outcome are called once
each, and in order; none is called for a caller that is gone. -/
theorem callbacks_accounted {events : List Event} (ran : run (step movedFrom) (execute data) events = some final)
    (once : Along (step movedFrom) (fun request event => request.sentOnce event = true) (execute data) events) :
    Accounted data final ∧ (Over final → (outcomes final.history ≠ [] ↔ .cancelled ∉ final.history)) := by
  have preserves (request : Request) (event : Event) (next : Request) (kept : Going data request ∨ Done data request)
      (once : request.sentOnce event = true) (taken : step movedFrom request event = some next) :
      Going data next ∨ Done data next :=
    step_kept kept once taken
  rcases run_invariant preserves once ran (.inl (going_execute data)) with going | done
  · refine ⟨going.accounted, fun ⟨loading, queued, abandoned⟩ => ?_⟩
    rcases going.underway with ⟨loading', -⟩ | ⟨-, queued', -⟩ | ⟨-, -, timers, task, -⟩
    · rw [loading] at loading'; cases loading'
    · rw [queued] at queued'; cases queued'
    · cases abandoned _ task
  · exact ⟨done.accounted, fun _ => done.settled⟩

/-- The timer runs out; the error and what comes behind it have their turns, one of them without a caller. -/
theorem callbacks_accounted_timeout :
    let data : NetworkData := ⟨.get, true, true, false, true, true, true, true⟩
    let result : NetworkResult := ⟨.timeoutError, none, []⟩
    let events : List Event :=
      [.loadCached none, .run, .requestSent, .timeout 0, .call 0, .deleted, .callerDestroyed, .call 0]
    ∃ final, run (step true) (execute data) events = some final ∧
      final.history = [.settled (.error result), .called (.error result), .gone, .dropped .final] ∧
      Accounted data final ∧ outcomes final.history ≠ [] := by
  intro data result events
  obtain ⟨final, ran, history, over_⟩ : ∃ final : Request, run (step true) (execute data) events = some final ∧
      final.history = [.settled (.error result), .called (.error result), .gone, .dropped .final] ∧ Over final :=
    ⟨_, rfl, rfl, rfl, rfl, fun task none_ => (Option.not_mem_none task none_).elim⟩
  have accounted := callbacks_accounted ran (by decide)
  refine ⟨final, ran, history, accounted.1, (accounted.2 over_).mpr ?_⟩
  rw [history]
  decide

/-! ## Redirects

A redirect sends the request again, which starts one more timer. An old timer is not stopped by the reply, and may run
out before the task is deleted.
-/

inductive Kind where
  | success
  | error
  | final
  deriving DecidableEq, Repr

def kind : Callback → Kind
  | .success _ => .success
  | .error _ => .error
  | .final => .final

def has (data : NetworkData) : Kind → Bool
  | .success => data.onSuccess
  | .error => data.onError
  | .final => data.onFinally

def timedOut : Callback := .error ⟨.timeoutError, none, []⟩

/-- How often a callback has been called or is on its way. -/
def spent (kind' : Kind) (request : Request) : Nat :=
  (said request.history ++ request.posted).countP fun callback => kind callback = kind'

/-- The request waits for its file, or else for its task, or has had a task. -/
structure Staged (request : Request) : Prop where
  loading : request.loading = true → request.queued = false ∧ request.task = none
  queued : request.queued = true → request.task = none

/-- Behind an outcome only timers are left. -/
structure Settled (request : Request) : Prop where
  loading : request.loading = false
  queued : request.queued = false
  task : ∀ task ∈ request.task, task.replied = true

/-- A callback is spent when it is moved away, and every outcome but the first is that of a timer. -/
structure Sparing (data : NetworkData) (request : Request) : Prop where
  spent : ∀ kind, request.spent kind + (has request.data kind).toNat ≤ (has data kind).toNat
  staged : Staged request
  settled : outcomes request.history ≠ [] → Settled request
  late : ∀ outcome ∈ (outcomes request.history).tail, outcome = timedOut

theorem sparing_execute (data : NetworkData) : Sparing data (execute data) where
  spent kind := by
    rw [show (execute data).spent kind = 0 from rfl, Nat.zero_add]
    cases kind <;> exact Nat.le_refl _
  staged := by
    constructor
    · intro loading
      exact ⟨by simpa [execute] using loading, rfl⟩
    · exact fun _ => rfl
  settled none_ := absurd rfl none_
  late outcome none_ := absurd none_ List.not_mem_nil

/-- What an outcome asks for is taken away. -/
theorem owed_spent {data fewer : NetworkData} (which : ∃ result, outcome = .success result ∨ outcome = .error result)
    (taken : ∀ kind', has fewer kind' = (has data kind' && !(kind' = .final || kind' = kind outcome))) (kind' : Kind) :
    (owed data outcome).countP (fun callback => kind callback = kind') + (has fewer kind').toNat ≤
      (has data kind').toNat := by
  rw [taken]
  obtain ⟨result, rfl | rfl⟩ := which
  · cases kind' <;> cases success : data.onSuccess <;> cases final : data.onFinally <;>
      simp [owed, kind, has, success, final]
  · cases kind' <;> cases error : data.onError <;> cases final : data.onFinally <;> simp [owed, kind, has, error, final]

/-- A settled request has given away what its outcome asks for. -/
theorem Sparing.settle {more : List Entry} (sparing : Sparing data request)
    (which : ∃ result, outcome = .success result ∨ outcome = .error result)
    (history : next.history = request.history ++ more) (said_ : Request.said more = [])
    (settled : Request.outcomes more = [outcome]) (posted : next.posted = request.posted ++ owed request.data outcome)
    (taken : ∀ kind', has next.data kind' = (has request.data kind' && !(kind' = .final || kind' = kind outcome)))
    (stays : Settled next) (first : Request.outcomes request.history = [] ∨ outcome = timedOut) :
    Sparing data next where
  spent kind' := by
    have calls : next.spent kind' = request.spent kind' + (owed request.data outcome).countP (kind · = kind') := by
      rw [Request.spent, Request.spent, history, said_append, said_, List.append_nil, posted, ← List.append_assoc,
        List.countP_append]
    have given := owed_spent which taken kind'
    have before := sparing.spent kind'
    omega
  staged := by
    constructor
    · intro loading
      rw [stays.loading] at loading
      cases loading
    · intro queued
      rw [stays.queued] at queued
      cases queued
  settled _ := stays
  late := by
    rw [history, outcomes_append, settled]
    intro late among
    -- the first outcome is free; a later one has to be a timeout
    rcases first with none_ | timeout
    · rw [none_] at among
      cases among
    · cases outcomes : Request.outcomes request.history with
      | nil =>
        rw [outcomes] at among
        cases among
      | cons first rest =>
        rw [outcomes, List.cons_append, List.tail_cons, List.mem_append, List.mem_singleton] at among
        rcases among with earlier | rfl
        · exact sparing.late late (by rw [outcomes]; exact earlier)
        · exact timeout

/-- A step without an outcome. -/
theorem Sparing.keep (sparing : Sparing data request) (sameData : next.data = request.data)
    (spent : ∀ kind', next.spent kind' = request.spent kind')
    (outcomes : Request.outcomes next.history = Request.outcomes request.history) (staged : Staged next)
    (settled : Settled request → Settled next) : Sparing data next := by
  refine ⟨fun kind' => ?_, staged, fun some_ => settled (sparing.settled (outcomes ▸ some_)), outcomes ▸ sparing.late⟩
  rw [spent, sameData]
  exact sparing.spent kind'

theorem Sparing.unsettled (sparing : Sparing data request) (unsettled : ¬ Settled request) :
    Request.outcomes request.history = [] :=
  by_contra fun some_ => unsettled (sparing.settled some_)

/-- The task has been made, and waits for nothing. -/
theorem Staged.running {task : NetworkTask} (staged : Staged request) (there : request.task = some task) :
    request.loading = false ∧ request.queued = false := by
  constructor
  · rw [← Bool.not_eq_true]
    intro loading
    rw [(staged.loading loading).2] at there
    cases there
  · rw [← Bool.not_eq_true]
    intro queued
    rw [staged.queued queued] at there
    cases there

theorem staged_of (loading : request.loading = false) (queued : request.queued = false) : Staged request where
  loading loads := by rw [loading] at loads; cases loads
  queued queues := by rw [queued] at queues; cases queues

theorem success_taken (data : NetworkData) (result : NetworkResult) (kind' : Kind) :
    has { data with onSuccess := data.onSuccess && false, onFinally := data.onFinally && false } kind' =
      (has data kind' && !(kind' = .final || kind' = kind (.success result))) := by
  cases kind' <;> simp [has, kind]

theorem error_taken (data : NetworkData) (result : NetworkResult) (kind' : Kind) :
    has { data with onError := data.onError && false, onFinally := data.onFinally && false } kind' =
      (has data kind' && !(kind' = .final || kind' = kind (.error result))) := by
  cases kind' <;> simp [has, kind]

theorem loadCached_sparing (cachedFile : Option (List UInt8)) (sparing : Sparing data request)
    (loading : request.loading = true) : Sparing data (request.loadCached false cachedFile) := by
  obtain ⟨queued, none_⟩ := sparing.staged.loading loading
  have unsettled : ¬ Settled request := fun settled => by rw [settled.loading] at loading; cases loading
  cases cachedFile with
  | none =>
    refine sparing.keep rfl (fun _ => rfl) rfl ⟨fun loads => Bool.noConfusion loads, fun _ => none_⟩ ?_
    exact fun settled => absurd settled unsettled
  | some bytes =>
    rw [loadCached, settle_success]
    refine sparing.settle ⟨_, .inl rfl⟩ rfl rfl rfl rfl (success_taken request.data _) ⟨rfl, queued, ?_⟩
      (.inl (sparing.unsettled unsettled))
    intro task among
    change request.task = some task at among
    rw [none_] at among
    cases among

theorem timeout_sparing (task : NetworkTask) (sparing : Sparing data request) (loading : request.loading = false)
    (queued : request.queued = false) : Sparing data (request.timeout false task) := by
  rw [timeout, settle_error]
  refine sparing.settle ⟨_, .inr rfl⟩ rfl rfl rfl rfl (error_taken request.data _) ⟨loading, queued, ?_⟩ (.inr rfl)
  exact fun task among => Option.some.inj among ▸ rfl

theorem finished_sparing {task : NetworkTask} (reply : NetworkResult) (sparing : Sparing data request)
    (there : request.task = some task) (unreplied : task.replied = false) :
    Sparing data (request.finished false task reply) := by
  obtain ⟨loading, queued⟩ := sparing.staged.running there
  have none_ : Request.outcomes request.history = [] :=
    sparing.unsettled fun settled => by rw [settled.task task there] at unreplied; cases unreplied
  have stays {next : Request} (loads : next.loading = request.loading) (queues : next.queued = request.queued)
      (ended : next.task = some ⟨task.timers.set (task.timers.length - 1) false, task.connected, true, true⟩) :
      Settled next := by
    refine ⟨loads.trans loading, queues.trans queued, fun task among => ?_⟩
    rw [Option.mem_def, ended] at among
    exact Option.some.inj among ▸ rfl
  unfold finished
  dsimp only
  split
  · refine sparing.keep rfl (fun kind' => ?_) ?_ (staged_of loading queued) fun _ => stays rfl rfl rfl
    · simp [Request.spent, log, said]
    · simp [log, Request.outcomes]
  · split
    · rw [settle_error]
      exact sparing.settle ⟨_, .inr rfl⟩ rfl rfl rfl rfl (error_taken request.data _) (stays rfl rfl rfl) (.inl none_)
    · rw [settle_success]
      split
      · exact sparing.settle ⟨_, .inl rfl⟩ (List.append_assoc _ _ _) rfl rfl rfl (success_taken request.data _)
          (stays rfl rfl rfl) (.inl none_)
      · exact sparing.settle ⟨_, .inl rfl⟩ rfl rfl rfl rfl (success_taken request.data _) (stays rfl rfl rfl)
          (.inl none_)

theorem call_sparing {position : Nat} {callback : Callback} (sparing : Sparing data request)
    (found : request.posted[position]? = some callback) :
    Sparing data ({ request with posted := request.posted.eraseIdx position }.call callback) := by
  have moved (kind' : Kind) : (request.posted.countP fun callback => kind callback = kind') =
      ([callback] ++ request.posted.eraseIdx position).countP fun callback => kind callback = kind' := by
    obtain ⟨within, value⟩ := List.getElem?_eq_some_iff.mp found
    rw [← value]
    exact ((List.getElem_cons_eraseIdx_perm within).countP_eq _).symm
  have turn (entry : Entry) (told : said [entry] = [callback]) (none_ : outcomes [entry] = []) :
      Sparing data ({ request with posted := request.posted.eraseIdx position }.log entry) := by
    refine sparing.keep rfl (fun kind' => ?_) ?_ ⟨sparing.staged.loading, sparing.staged.queued⟩ fun settled =>
      ⟨settled.loading, settled.queued, settled.task⟩
    · simp only [Request.spent, log, said_append, told, List.countP_append, moved]
      rw [Nat.add_assoc]
    · rw [log, outcomes_append, none_, List.append_nil]
  unfold call
  split
  · exact turn (.dropped callback) rfl rfl
  · exact turn (.called callback) rfl rfl

theorem step_sparing (request : Request) (event : Event) (next : Request) (sparing : Sparing data request)
    (taken : step false request event = some next) : Sparing data next := by
  cases event with
  | loadCached cachedFile =>
    obtain ⟨loading, same⟩ := Option.ite_none_right_eq_some.mp taken
    obtain rfl := Option.some.inj same
    exact loadCached_sparing cachedFile sparing loading
  | run =>
    obtain ⟨queued, same⟩ := Option.ite_none_right_eq_some.mp taken
    obtain rfl := Option.some.inj same
    have loading : request.loading = false := by
      rw [← Bool.not_eq_true]
      intro loading
      rw [(sparing.staged.loading loading).1] at queued
      cases queued
    refine sparing.keep rfl (fun _ => rfl) rfl (staged_of loading rfl) fun settled => ?_
    rw [settled.queued] at queued
    cases queued
  | requestSent =>
    obtain ⟨task, there, sends⟩ := Option.bind_eq_some_iff.mp taken
    obtain ⟨unreplied, same⟩ := Option.ite_none_left_eq_some.mp sends
    obtain rfl := Option.some.inj same
    obtain ⟨loading, queued⟩ := sparing.staged.running there
    unfold requestSent
    split
    · refine sparing.keep rfl (fun _ => rfl) rfl (staged_of loading queued) fun settled => ?_
      exact absurd (settled.task task there) unreplied
    · exact sparing
  | timeout timer =>
    obtain ⟨task, there, runs⟩ := Option.bind_eq_some_iff.mp taken
    obtain ⟨-, same⟩ := Option.ite_none_right_eq_some.mp runs
    obtain rfl := Option.some.inj same
    obtain ⟨loading, queued⟩ := sparing.staged.running there
    exact timeout_sparing _ sparing loading queued
  | finished reply =>
    obtain ⟨task, there, ends⟩ := Option.bind_eq_some_iff.mp taken
    obtain ⟨listening, same⟩ := Option.ite_none_left_eq_some.mp ends
    obtain rfl := Option.some.inj same
    rw [Bool.or_eq_true, not_or, Bool.not_eq_true] at listening
    exact finished_sparing reply sparing there listening.1
  | deleted =>
    obtain ⟨task, there, gone⟩ := Option.bind_eq_some_iff.mp taken
    obtain ⟨-, same⟩ := Option.ite_none_right_eq_some.mp gone
    obtain rfl := Option.some.inj same
    obtain ⟨loading, queued⟩ := sparing.staged.running there
    refine sparing.keep rfl (fun _ => rfl) rfl (staged_of loading queued) fun _ => ⟨loading, queued, ?_⟩
    exact fun task none_ => (Option.not_mem_none task none_).elim
  | call position =>
    obtain ⟨-, taken⟩ := Option.ite_none_left_eq_some.mp taken
    obtain ⟨callback, found, rfl⟩ := Option.map_eq_some_iff.mp taken
    exact call_sparing sparing found
  | callerDestroyed =>
    obtain ⟨-, same⟩ := Option.ite_none_left_eq_some.mp taken
    obtain rfl := Option.some.inj same
    refine sparing.keep rfl (fun kind' => ?_) ?_ ⟨sparing.staged.loading, sparing.staged.queued⟩ fun settled =>
      ⟨settled.loading, settled.queued, settled.task⟩
    · simp [Request.spent, log, said]
    · simp [log, Request.outcomes]

end Request

end Forserino.Network
