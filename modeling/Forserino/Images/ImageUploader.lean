import Forserino.Foundation.Histories
import Forserino.Foundation.Runs
import Forserino.Util.Durations

/-! Uploading pasted images, one after the other. The answers to the requests, the timers and further pastes arrive
in any order; a plain protocol says in which order the uploader works through the images.
-/

set_option autoImplicit false

namespace Forserino.Images

open Foundation Qt

/-- Delay between uploads in milliseconds -/
def UPLOAD_DELAY : Nat := 2000

structure RawImageData where
  data : List UInt8
  format : QString
  filePath : QString
  deriving DecidableEq, Repr

/-- What is read of an answer that says that a request has failed. -/
structure Failure where
  formatError : QString
  /-- The code of the body, as a text. -/
  apiCode : Option QString
  apiError : QString
  deriving DecidableEq, Repr

def errorMessage (result : Failure) : QString :=
  qs "An error happened while uploading your image: " ++ result.formatError ++
    (match result.apiCode with
      | some codeString => qs " - code: " ++ codeString.take 20
      | none => []) ++
    (if result.apiError.isEmpty then [] else qs " - error: " ++ Util.trimmedView (result.apiError.take 300))

/-- The message of MessageBuilder for an image that has been uploaded. -/
def imageUploaderResultMessage (imageLink deletionLink : QString) (imagesStillQueued secondsLeft : Nat) : QString :=
  qs "Your image has been uploaded to" ++ imageLink ++
    (if deletionLink.isEmpty then [] else qs "(Deletion link:" ++ deletionLink ++ qs ")") ++ qs "." ++
    (if imagesStillQueued = 0 then []
      else number imagesStillQueued ++ qs " left. Please wait until all of them are uploaded. About " ++
        number secondsLeft ++ qs " seconds left.")

/-- What the uploader does, with the numbers of the channel and of the input that it does it for. -/
inductive UploadEntry where
  | unusable (channel : Nat) (imageProcessError : QString)
  | refused (channel : Nat)
  | started (images : List RawImageData) (channel textEdit : Nat)
  | sent (imageData : RawImageData) (channel textEdit : Nat)
  | uploaded (channel textEdit : Nat) (link deletionLink : QString) (imagesStillQueued secondsLeft : Nat)
  | failed (channel : Nat) (result : Failure)
  | abandoned (textEdit : Nat)
  | gone (textEdit : Nat)
  /-- An assertion has failed. -/
  | asserted
  /-- The front of an empty queue was taken, or a free mutex unlocked. -/
  | undefined
  deriving DecidableEq, Repr

/-- The message that a channel gets with it. -/
def UploadEntry.message : UploadEntry → Option (Nat × QString)
  | .unusable channel imageProcessError =>
    some (channel, qs "An error occurred trying to process your image: " ++ imageProcessError)
  | .refused channel => some (channel, qs "Please wait until the upload finishes.")
  | .started _ channel _ => some (channel, qs "Started upload...")
  | .uploaded channel _ link deletionLink imagesStillQueued secondsLeft =>
    some (channel, imageUploaderResultMessage link deletionLink imagesStillQueued secondsLeft)
  | .failed channel result => some (channel, errorMessage result)
  | .sent _ _ _ | .abandoned _ | .gone _ | .asserted | .undefined => none

def UploadEntry.starts : UploadEntry → Bool
  | .started _ _ _ => true
  | _ => false

/-- The upload ends early with it. -/
def UploadEntry.aborts : UploadEntry → Bool
  | .failed _ _ | .abandoned _ => true
  | _ => false

/-- A request, with what its handlers keep. -/
structure Request where
  imageData : RawImageData
  channel : Nat
  textEdit : Nat
  deriving DecidableEq, Repr

structure ImageUploader where
  uploadMutex : Bool
  uploadQueue : List RawImageData
  /-- The requests of which no answer has arrived. -/
  requests : List Request
  /-- The channels and inputs of the timers that have not run out. -/
  timers : List (Nat × Nat)
  /-- The inputs that are gone. -/
  destroyed : List Nat
  history : List UploadEntry

namespace ImageUploader

def new : ImageUploader := ⟨false, [], [], [], [], []⟩

def log (uploader : ImageUploader) (entry : UploadEntry) : ImageUploader :=
  { uploader with history := uploader.history ++ [entry] }

def unlock (uploader : ImageUploader) : ImageUploader :=
  if uploader.uploadMutex then { uploader with uploadMutex := false } else uploader.log .undefined

def sendImageUploadRequest (uploader : ImageUploader) (imageData : RawImageData) (channel textEdit : Nat) :
    ImageUploader :=
  { uploader with requests := uploader.requests ++ [Request.mk imageData channel textEdit] }.log
    (.sent imageData channel textEdit)

/-- The front of the queue is sent and popped. -/
def sendFront (uploader : ImageUploader) (channel textEdit : Nat) : ImageUploader :=
  match uploader.uploadQueue with
  | [] => uploader.log .undefined
  | imageData :: rest =>
    { uploader.sendImageUploadRequest imageData channel textEdit with uploadQueue := rest }

def upload (uploader : ImageUploader) (images : List RawImageData) (channel outputTextEdit : Nat) : ImageUploader :=
  if uploader.uploadMutex then uploader.log (.refused channel)
  else
    let locked := { uploader with uploadMutex := true }
    let checked := if images.isEmpty || !uploader.uploadQueue.isEmpty then locked.log .asserted else locked
    let started := { checked with uploadQueue := images }.log (.started images channel outputTextEdit)
    started.sendFront channel outputTextEdit

/-- The handler of Split for a pasted image, unless uploads are disabled or the user cancels this one. -/
def imagePasted (uploader : ImageUploader) (images : List RawImageData) (imageProcessError : QString)
    (channel textEdit : Nat) : ImageUploader :=
  if images.isEmpty then uploader.log (.unusable channel imageProcessError)
  else uploader.upload images channel textEdit

def abort (uploader : ImageUploader) : ImageUploader := { uploader with uploadQueue := [] }.unlock

def handleFailedUpload (uploader : ImageUploader) (result : Failure) (channel : Nat) : ImageUploader :=
  (uploader.log (.failed channel result)).abort

def handleSuccessfulUpload (uploader : ImageUploader) (link deletionLink : QString) (channel textEdit : Nat) :
    ImageUploader :=
  if textEdit ∈ uploader.destroyed then (uploader.log (.abandoned textEdit)).abort
  else
    let timeToUpload := uploader.uploadQueue.length * (UPLOAD_DELAY / 1000 + 1)
    let told := uploader.log (.uploaded channel textEdit link deletionLink uploader.uploadQueue.length timeToUpload)
    if uploader.uploadQueue.isEmpty then told.unlock
    else { told with timers := told.timers ++ [(channel, textEdit)] }

inductive Event where
  | imagePasted (images : List RawImageData) (imageProcessError : QString) (channel textEdit : Nat)
  | succeeded (request : Nat) (link deletionLink : QString)
  | failed (request : Nat) (result : Failure)
  | timeout (timer : Nat)
  | destroyed (textEdit : Nat)

def step (uploader : ImageUploader) : Event → Option ImageUploader
  | .imagePasted images imageProcessError channel textEdit =>
    some (uploader.imagePasted images imageProcessError channel textEdit)
  | .succeeded request link deletionLink =>
    uploader.requests[request]?.map fun sent =>
      { uploader with requests := uploader.requests.eraseIdx request }.handleSuccessfulUpload link deletionLink
        sent.channel sent.textEdit
  | .failed request result =>
    uploader.requests[request]?.map fun sent =>
      { uploader with requests := uploader.requests.eraseIdx request }.handleFailedUpload result sent.channel
  | .timeout timer =>
    uploader.timers[timer]?.map fun armed =>
      { uploader with timers := uploader.timers.eraseIdx timer }.sendFront armed.1 armed.2
  | .destroyed textEdit =>
    if textEdit ∈ uploader.destroyed then none
    else some ({ uploader with destroyed := textEdit :: uploader.destroyed }.log (.gone textEdit))

/-! ## The plain protocol -/

/-- How far an upload is: nothing is uploaded, the rest waits, or one image is on its way. -/
inductive Phase where
  | idle
  | ready (rest : List RawImageData) (channel textEdit : Nat)
  | sending (imageData : RawImageData) (rest : List RawImageData) (channel textEdit : Nat)
  deriving DecidableEq, Repr

/-- One image after the other: what may happen next, and where that leads. -/
def Phase.next : Phase → UploadEntry → Option Phase
  | phase, .unusable _ _ => some phase
  | phase, .gone _ => some phase
  | .idle, .started images channel textEdit => if images = [] then none else some (.ready images channel textEdit)
  | .ready rest channel textEdit, .refused _ => some (.ready rest channel textEdit)
  | .sending imageData rest channel textEdit, .refused _ => some (.sending imageData rest channel textEdit)
  | .ready (imageData :: rest) channel textEdit, .sent imageData' channel' textEdit' =>
    if imageData' = imageData ∧ channel' = channel ∧ textEdit' = textEdit then
      some (.sending imageData rest channel textEdit)
    else none
  | .sending _ rest channel textEdit, .uploaded channel' textEdit' _ _ imagesStillQueued secondsLeft =>
    if channel' = channel ∧ textEdit' = textEdit ∧ imagesStillQueued = rest.length ∧ secondsLeft = 3 * rest.length then
      some (if rest = [] then .idle else .ready rest channel textEdit)
    else none
  | .sending _ _ channel _, .failed channel' _ => if channel' = channel then some .idle else none
  | .sending _ _ _ textEdit, .abandoned textEdit' => if textEdit' = textEdit then some .idle else none
  | _, _ => none

/-- A link goes to an input that is there, and an upload is abandoned for one that is not. -/
def Reaches (before : List UploadEntry) : UploadEntry → Prop
  | .uploaded _ textEdit _ _ _ _ => .gone textEdit ∉ before
  | .abandoned textEdit => .gone textEdit ∈ before
  | _ => True

/-- The mutex, the queue, the requests and the timers in a phase. -/
def Represents (uploader : ImageUploader) : Phase → Prop
  | .idle => uploader.uploadMutex = false ∧ uploader.uploadQueue = [] ∧ uploader.requests = [] ∧ uploader.timers = []
  | .ready rest channel textEdit =>
    uploader.uploadMutex = true ∧ rest ≠ [] ∧ uploader.uploadQueue = rest ∧ uploader.requests = [] ∧
      uploader.timers = [(channel, textEdit)]
  | .sending imageData rest channel textEdit =>
    uploader.uploadMutex = true ∧ uploader.uploadQueue = rest ∧ uploader.requests = [⟨imageData, channel, textEdit⟩] ∧
      uploader.timers = []

/-! ## What holds of every run -/

/-- What the history says about the phase and about the inputs. -/
structure Told (history : List UploadEntry) (destroyed : List Nat) (phase : Phase) : Prop where
  served : run Phase.next .idle history = some phase
  reaches : Throughout Reaches history
  gone : ∀ textEdit, textEdit ∈ destroyed ↔ .gone textEdit ∈ history

variable {uploader final : ImageUploader} {history : List UploadEntry} {destroyed : List Nat} {phase later : Phase}
  {channel textEdit : Nat} {imageData : RawImageData} {images rest : List RawImageData}

theorem Told.next (told : Told history destroyed phase) (entry : UploadEntry) (next : phase.next entry = some later)
    (reaches : Reaches history entry) (other : ∀ textEdit, entry ≠ .gone textEdit) :
    Told (history ++ [entry]) destroyed later where
  served := by
    rw [run_concat, told.served, Option.bind_some, run, next]
    rfl
  reaches := told.reaches.concat reaches
  gone textEdit := by
    rw [told.gone, List.mem_append, List.mem_singleton]
    exact ⟨.inl, fun among => among.resolve_right (other textEdit).symm⟩

theorem Told.destroy (told : Told history destroyed phase) :
    Told (history ++ [.gone textEdit]) (textEdit :: destroyed) phase where
  served := by
    rw [run_concat, told.served, Option.bind_some, run]
    cases phase <;> rfl
  reaches := told.reaches.concat trivial
  gone other := by
    rw [List.mem_cons, told.gone, List.mem_append, List.mem_singleton, UploadEntry.gone.injEq, or_comm]

/-- The mutex, the queue, the requests and the timers belong to the phase of the history. -/
def InTurn (uploader : ImageUploader) : Prop :=
  ∃ phase, Told uploader.history uploader.destroyed phase ∧ uploader.Represents phase

theorem inTurn_new : InTurn new :=
  ⟨.idle, ⟨rfl, throughout_nil, fun _ => iff_of_false List.not_mem_nil List.not_mem_nil⟩, rfl, rfl, rfl, rfl⟩

/-- The front of what is left is on its way behind it. -/
theorem sendFront_sending (told : Told uploader.history uploader.destroyed (.ready images channel textEdit))
    (some_ : images ≠ []) (locked : uploader.uploadMutex = true) (queue : uploader.uploadQueue = images)
    (requests : uploader.requests = []) (timers : uploader.timers = []) :
    (uploader.sendFront channel textEdit).InTurn := by
  cases images with
  | nil => exact absurd rfl some_
  | cons imageData rest =>
    rw [sendFront, queue]
    refine ⟨.sending imageData rest channel textEdit, ?_, locked, rfl, ?_, timers⟩
    · apply told.next (.sent imageData channel textEdit)
      · simp [Phase.next]
      · trivial
      · intro other same
        cases same
    · change uploader.requests ++ [_] = [_]
      rw [requests, List.nil_append]

/-- Messages that are said in every phase. -/
theorem InTurn.say {entry : UploadEntry} (turn : uploader.InTurn)
    (next : ∀ phase, uploader.Represents phase → phase.next entry = some phase)
    (reaches : Reaches uploader.history entry) (other : ∀ textEdit, entry ≠ .gone textEdit) :
    (uploader.log entry).InTurn := by
  obtain ⟨phase, told, state⟩ := turn
  exact ⟨phase, told.next entry (next phase state) reaches other, by cases phase <;> exact state⟩

theorem imagePasted_inTurn (images : List RawImageData) (imageProcessError : QString) (channel textEdit : Nat)
    (turn : uploader.InTurn) : (uploader.imagePasted images imageProcessError channel textEdit).InTurn := by
  unfold imagePasted
  split
  · apply turn.say
    · intro phase _
      cases phase <;> rfl
    · trivial
    · exact fun _ same => UploadEntry.noConfusion same
  · next some_ =>
    rw [List.isEmpty_iff] at some_
    unfold upload
    split
    · next locked =>
      apply turn.say
      · intro phase state
        cases phase with
        | idle => rw [state.1] at locked; cases locked
        | ready | sending => rfl
      · trivial
      · exact fun _ same => UploadEntry.noConfusion same
    · next free =>
      obtain ⟨phase, told, state⟩ := turn
      cases phase with
      | ready | sending => exact absurd state.1 free
      | idle =>
        obtain ⟨-, queue, requests, timers⟩ := state
        -- no assertion fails
        have holds : (images.isEmpty || !uploader.uploadQueue.isEmpty) = false := by
          rw [queue, List.isEmpty_nil, Bool.not_true, Bool.or_false, List.isEmpty_eq_false_iff]
          exact some_
        simp only [holds, Bool.false_eq_true, if_false]
        have begun := told.next (.started images channel textEdit) (if_neg some_) trivial
          fun _ same => UploadEntry.noConfusion same
        exact sendFront_sending begun some_ rfl rfl requests timers

theorem unlock_locked (locked : uploader.uploadMutex = true) :
    uploader.unlock = { uploader with uploadMutex := false } :=
  if_pos locked

/-- An upload that is given up leaves nothing behind. -/
theorem abort_inTurn (told : Told uploader.history uploader.destroyed .idle) (locked : uploader.uploadMutex = true)
    (requests : uploader.requests = []) (timers : uploader.timers = []) : uploader.abort.InTurn := by
  rw [abort, unlock_locked]
  · exact ⟨.idle, told, rfl, rfl, requests, timers⟩
  · exact locked

/-- Only one request can be answered, and its handlers find the uploader in the phase of that request. -/
theorem answered {request : Nat} {sent : Request} (turn : uploader.InTurn)
    (found : uploader.requests[request]? = some sent) :
    ∃ rest, Told uploader.history uploader.destroyed (.sending sent.imageData rest sent.channel sent.textEdit) ∧
      uploader.uploadMutex = true ∧ uploader.uploadQueue = rest ∧ uploader.requests.eraseIdx request = [] ∧
      uploader.timers = [] := by
  obtain ⟨phase, told, state⟩ := turn
  cases phase with
  | idle => rw [state.2.2.1] at found; cases found
  | ready => rw [state.2.2.2.1] at found; cases found
  | sending imageData rest channel textEdit =>
    obtain ⟨locked, queue, requests, timers⟩ := state
    rw [requests, List.getElem?_singleton] at found
    split at found
    · next first =>
      obtain rfl := Option.some.inj found
      refine ⟨rest, told, locked, queue, ?_, timers⟩
      rw [requests, first]
      rfl
    · cases found

theorem handleFailedUpload_inTurn {request : Nat} {sent : Request} (result : Failure) (turn : uploader.InTurn)
    (found : uploader.requests[request]? = some sent) :
    ({ uploader with requests := uploader.requests.eraseIdx request }.handleFailedUpload result sent.channel).InTurn := by
  obtain ⟨rest, told, locked, -, requests, timers⟩ := answered turn found
  refine abort_inTurn (told.next _ ?_ trivial fun _ same => UploadEntry.noConfusion same) locked requests timers
  simp [Phase.next]

theorem handleSuccessfulUpload_inTurn {request : Nat} {sent : Request} (link deletionLink : QString)
    (turn : uploader.InTurn) (found : uploader.requests[request]? = some sent) :
    ({ uploader with requests := uploader.requests.eraseIdx request }.handleSuccessfulUpload link deletionLink
      sent.channel sent.textEdit).InTurn := by
  obtain ⟨rest, told, locked, queue, requests, timers⟩ := answered turn found
  unfold handleSuccessfulUpload
  split
  · next gone =>
    refine abort_inTurn (told.next _ ?_ ((told.gone _).mp gone) fun _ same => UploadEntry.noConfusion same) locked requests
      timers
    simp [Phase.next]
  · next there =>
    have next : Phase.next (.sending sent.imageData rest sent.channel sent.textEdit)
        (.uploaded sent.channel sent.textEdit link deletionLink uploader.uploadQueue.length
          (uploader.uploadQueue.length * (UPLOAD_DELAY / 1000 + 1))) =
        some (if rest = [] then .idle else .ready rest sent.channel sent.textEdit) := by
      simp [Phase.next, queue, UPLOAD_DELAY, Nat.mul_comm]
    have telling := told.next _ next (fun gone => there ((told.gone _).mpr gone)) fun _ same => UploadEntry.noConfusion same
    dsimp only
    split
    · next last =>
      rw [List.isEmpty_iff] at last
      obtain rfl : rest = [] := queue ▸ last
      rw [unlock_locked]
      · exact ⟨.idle, telling, rfl, last, requests, timers⟩
      · exact locked
    · next more =>
      rw [List.isEmpty_iff, queue] at more
      rw [if_neg more] at telling
      refine ⟨.ready rest sent.channel sent.textEdit, telling, locked, more, queue, requests, ?_⟩
      change uploader.timers ++ [_] = [_]
      rw [timers, List.nil_append]

theorem timeout_inTurn {timer : Nat} {armed : Nat × Nat} (turn : uploader.InTurn)
    (found : uploader.timers[timer]? = some armed) :
    ({ uploader with timers := uploader.timers.eraseIdx timer }.sendFront armed.1 armed.2).InTurn := by
  obtain ⟨phase, told, state⟩ := turn
  cases phase with
  | idle => rw [state.2.2.2] at found; cases found
  | sending => rw [state.2.2.2] at found; cases found
  | ready rest channel textEdit =>
    obtain ⟨locked, some_, queue, requests, timers⟩ := state
    rw [timers, List.getElem?_singleton] at found
    split at found
    · next first =>
      obtain rfl := Option.some.inj found
      refine sendFront_sending told some_ locked queue requests ?_
      change uploader.timers.eraseIdx timer = []
      rw [timers, first]
      rfl
    · cases found

theorem step_inTurn (uploader : ImageUploader) (event : Event) (next : ImageUploader) (turn : uploader.InTurn)
    (taken : step uploader event = some next) : next.InTurn := by
  cases event with
  | imagePasted images imageProcessError channel textEdit =>
    obtain rfl := Option.some.inj taken
    exact imagePasted_inTurn images imageProcessError channel textEdit turn
  | succeeded request link deletionLink =>
    obtain ⟨sent, found, rfl⟩ := Option.map_eq_some_iff.mp taken
    exact handleSuccessfulUpload_inTurn link deletionLink turn found
  | failed request result =>
    obtain ⟨sent, found, rfl⟩ := Option.map_eq_some_iff.mp taken
    exact handleFailedUpload_inTurn result turn found
  | timeout timer =>
    obtain ⟨armed, found, rfl⟩ := Option.map_eq_some_iff.mp taken
    exact timeout_inTurn turn found
  | destroyed textEdit =>
    rw [step] at taken
    split at taken
    · cases taken
    · obtain rfl := Option.some.inj taken
      obtain ⟨phase, told, state⟩ := turn
      exact ⟨phase, told.destroy, by cases phase <;> exact state⟩

/-! ## The images of one upload -/

/-- The requests that are sent. -/
def requestsOf (history : List UploadEntry) : List Request :=
  history.filterMap fun
    | .sent imageData channel textEdit => some ⟨imageData, channel, textEdit⟩
    | _ => none

/-- The requests of an upload. -/
def requestsFor (images : List RawImageData) (channel textEdit : Nat) : List Request :=
  images.map (Request.mk · channel textEdit)

/-- The requests that are still to be sent in a phase. -/
def Phase.outstanding : Phase → List Request
  | .idle => []
  | .ready rest channel textEdit | .sending _ rest channel textEdit => requestsFor rest channel textEdit

/-- An entry other than a start sends the first of the outstanding requests or none, unless it ends the upload. -/
theorem next_outstanding {entry : UploadEntry} (next : phase.next entry = some later) (other : entry.starts = false) :
    requestsOf [entry] ++ later.outstanding = phase.outstanding ∨
      entry.aborts = true ∧ later = .idle ∧ requestsOf [entry] = [] := by
  cases entry with
  | unusable | gone =>
    cases phase <;> exact .inl (Option.some.inj next ▸ rfl)
  | refused =>
    cases phase with
    | idle => cases next
    | ready | sending => exact .inl (Option.some.inj next ▸ rfl)
  | started => cases other
  | sent imageData channel textEdit =>
    cases phase with
    | idle | sending => cases next
    | ready images =>
      cases images with
      | nil => cases next
      | cons image rest =>
        rw [Phase.next, Option.ite_none_right_eq_some] at next
        obtain ⟨⟨rfl, rfl, rfl⟩, arrived⟩ := next
        exact .inl (Option.some.inj arrived ▸ rfl)
  | uploaded =>
    cases phase with
    | idle | ready => cases next
    | sending imageData rest channel textEdit =>
      rw [Phase.next, Option.ite_none_right_eq_some] at next
      obtain rfl := Option.some.inj next.2
      by_cases last : rest = []
      · rw [if_pos last, last]
        exact .inl rfl
      · rw [if_neg last]
        exact .inl rfl
  | failed | abandoned =>
    cases phase with
    | idle | ready => cases next
    | sending =>
      rw [Phase.next, Option.ite_none_right_eq_some] at next
      exact .inr ⟨rfl, (Option.some.inj next.2).symm, rfl⟩
  | asserted | undefined => cases phase <;> cases next

theorem requestsOf_cons (entry : UploadEntry) (history : List UploadEntry) :
    requestsOf (entry :: history) = requestsOf [entry] ++ requestsOf history := by
  rw [← List.singleton_append]
  exact List.filterMap_append

theorem idle_stays (ran : run Phase.next .idle history = some later)
    (single : ∀ entry ∈ history, entry.starts = false) :
    later = .idle := by
  induction history with
  | nil => exact (Option.some.inj ran).symm
  | cons entry history ih =>
    rw [List.forall_mem_cons] at single
    obtain ⟨phase, next, rest⟩ := run_cons ran
    obtain rfl : phase = .idle := by
      cases entry with
      | unusable | gone => exact (Option.some.inj next).symm
      | started => cases single.1
      | refused | sent | uploaded | failed | abandoned | asserted | undefined => cases next
    exact ih rest single.2

/-- The requests of an upload are sent in order: those that are still outstanding are missing, or the upload has
ended early. -/
theorem requests_in_order (ran : run Phase.next phase history = some later)
    (single : ∀ entry ∈ history, entry.starts = false) :
    requestsOf history ++ later.outstanding = phase.outstanding ∨
      later = .idle ∧ requestsOf history <+: phase.outstanding ∧ ∃ entry ∈ history, entry.aborts = true := by
  induction history generalizing phase with
  | nil => exact .inl (Option.some.inj ran ▸ rfl)
  | cons entry history ih =>
    rw [List.forall_mem_cons] at single
    obtain ⟨middle, next, rest⟩ := run_cons ran
    rw [requestsOf_cons]
    rcases next_outstanding next single.1 with sends | ⟨aborts, rfl, none_⟩
    · rw [← sends]
      rcases ih rest single.2 with all | ⟨ended, some_, early, among, aborts⟩
      · left
        rw [List.append_assoc, all]
      · right
        exact ⟨ended, (List.prefix_append_right_inj _).mpr some_, early, List.mem_cons_of_mem entry among, aborts⟩
    · obtain rfl := idle_stays rest single.2
      right
      refine ⟨rfl, ?_, entry, List.mem_cons_self, aborts⟩
      have nothing : requestsOf history = [] := by
        rcases ih rest single.2 with all | ⟨-, some_, -⟩
        · exact (List.append_eq_nil_iff.mp all).1
        · exact List.prefix_nil.mp some_
      rw [none_, nothing]
      exact List.nil_prefix

/-- What is left of the requests of an upload is for its channel and input. -/
theorem requestsFor_rest {front : List Request} {channel' textEdit' : Nat}
    (all : front ++ requestsFor rest channel' textEdit' = requestsFor images channel textEdit) :
    requestsFor rest channel' textEdit' = requestsFor rest channel textEdit := by
  apply List.map_congr_left
  intro imageData among
  have one : Request.mk imageData channel' textEdit' ∈ requestsFor images channel textEdit := by
    rw [← all]
    exact List.mem_append_right front (List.mem_map_of_mem among)
  obtain ⟨_, -, same⟩ := List.mem_map.mp one
  obtain ⟨-, rfl, rfl⟩ := Request.mk.inj same
  rfl

theorem next_started (next : phase.next (.started images channel textEdit) = some later) :
    later = .ready images channel textEdit := by
  cases phase with
  | idle => exact (Option.some.inj (Option.ite_none_left_eq_some.mp next).2).symm
  | ready | sending => cases next

/-- In every run the uploader works through one upload at a time, and through its images in order. -/
theorem uploads_in_turn {events : List Event} (ran : run step new events = some final) :
    (∃ phase, run Phase.next .idle final.history = some phase ∧ final.Represents phase) ∧
      Throughout Reaches final.history ∧
      ∀ before images channel textEdit behind, final.history = before ++ .started images channel textEdit :: behind →
        (∀ entry ∈ behind, entry.starts = false) →
        if final.uploadMutex then
          requestsOf behind ++ requestsFor final.uploadQueue channel textEdit = requestsFor images channel textEdit
        else
          requestsOf behind = requestsFor images channel textEdit ∨
            requestsOf behind <+: requestsFor images channel textEdit ∧ ∃ entry ∈ behind, entry.aborts = true := by
  obtain ⟨phase, told, state⟩ := run_keeps step_inTurn ran inTurn_new
  refine ⟨⟨phase, told.served, state⟩, told.reaches, ?_⟩
  intro before images channel textEdit behind split single
  obtain ⟨earlier, -, rest⟩ := run_append (split ▸ told.served)
  obtain ⟨begun, next, rest⟩ := run_cons rest
  obtain rfl := next_started next
  have order := requests_in_order rest single
  cases phase with
  | idle =>
    rw [state.1]
    rcases order with all | ⟨-, some_, early⟩
    · exact .inl (List.append_nil (requestsOf behind) ▸ all)
    · exact .inr ⟨some_, early⟩
  | ready left channel' textEdit' | sending _ left channel' textEdit' =>
    have queue : final.uploadQueue = left := by first | exact state.2.2.1 | exact state.2.1
    rw [state.1, if_pos rfl, queue]
    rcases order with all | ⟨ended, -⟩
    · rw [← requestsFor_rest all]
      exact all
    · cases ended

/-- A second paste is refused, an answer and a timer go on with the first one, and a failure ends it. -/
theorem uploads_in_turn_failure :
    let image (byte : UInt8) : RawImageData := ⟨[byte], [], []⟩
    let failure : Failure := ⟨[], none, []⟩
    let events : List Event :=
      [.imagePasted [image 1, image 2, image 3] [] 7 8, .imagePasted [image 4] [] 9 10, .succeeded 0 [65] [],
        .timeout 0, .failed 0 failure]
    ∃ final, run step new events = some final ∧
      final.history =
        [.started [image 1, image 2, image 3] 7 8, .sent (image 1) 7 8, .refused 9, .uploaded 7 8 [65] [] 2 6,
          .sent (image 2) 7 8, .failed 7 failure] ∧
      (∃ phase, run Phase.next .idle final.history = some phase ∧ final.Represents phase) ∧
      Throughout Reaches final.history := by
  intro image failure events
  obtain ⟨final, ran, history⟩ : ∃ final : ImageUploader, run step new events = some final ∧ final.history =
      [.started [image 1, image 2, image 3] 7 8, .sent (image 1) 7 8, .refused 9, .uploaded 7 8 [65] [] 2 6,
        .sent (image 2) 7 8, .failed 7 failure] := ⟨_, rfl, rfl⟩
  have turn := uploads_in_turn ran
  exact ⟨final, ran, history, turn.1, turn.2.1⟩

end ImageUploader

end Forserino.Images
