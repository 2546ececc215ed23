import Forserino.Foundation.Histories
import Forserino.Foundation.Runs
import Forserino.Images.Frames
import Forserino.Qt.Text
import Mathlib.Data.List.AList

/-! Images that are loaded when they are first drawn, and whose frames are freed when they have not been
drawn for some time. Answers of the network arrive in any order, and are posted to the GUI thread.

An image is numbered when it is made, and alive until nobody refers to it any more.
-/

set_option autoImplicit false

namespace Forserino.Images

open Foundation Qt

variable {Pixmap : Type}

/-- In milliseconds. -/
def IMAGE_POOL_IMAGE_LIFETIME : Nat := 10 * 60 * 1000

structure Image (Pixmap : Type) where
  url : QString
  empty : Bool
  shouldLoad : Bool
  lastUsed : Nat
  frames : Frames Pixmap
  alive : Bool

/-- A callback that waits for the GUI thread. -/
inductive Callback (Pixmap : Type) where
  | assignFrames (image : Nat) (parsed : List (Frame Pixmap))
  | forceLayout

inductive Entry where
  | used (image time : Nat)
  | requested (image : Nat)
  | assigned (image : Nat)
  | freed (image time : Nat)
  | laidOut
  deriving DecidableEq, Repr

def Callback.assigns (image : Nat) : Callback Pixmap → Bool
  | .assignFrames other _ => other == image
  | .forceLayout => false

def Entry.image? : Entry → Option Nat
  | .used image _ | .requested image | .assigned image | .freed image _ => some image
  | .laidOut => none

structure ImageSystem (Pixmap : Type) where
  images : List (Image Pixmap)
  cache : AList fun _ : QString => Nat
  allImages : List Nat
  requests : List Nat
  posted : List (Callback Pixmap)
  isPushQueued : Bool
  position : Nat
  now : Nat
  history : List Entry

namespace Image

def fromUrl (url : QString) : Image Pixmap := ⟨url, false, true, 0, .nothing, true⟩

def expireFrames (image : Image Pixmap) : Image Pixmap := { image with frames := image.frames.clear, shouldLoad := true }

end Image

namespace ImageSystem

def start (now : Nat) : ImageSystem Pixmap := ⟨[], ∅, [], [], [], false, 0, now, []⟩

def lock (system : ImageSystem Pixmap) (image : Nat) : Option (Image Pixmap) :=
  system.images[image]?.filter Image.alive

def modify (system : ImageSystem Pixmap) (image : Nat) (f : Image Pixmap → Image Pixmap) : ImageSystem Pixmap :=
  { system with images := system.images.modify image f }

def log (system : ImageSystem Pixmap) (entry : Entry) : ImageSystem Pixmap :=
  { system with history := system.history ++ [entry] }

def fromUrl (system : ImageSystem Pixmap) (url : QString) : ImageSystem Pixmap :=
  match (system.cache.lookup url).bind system.lock with
  | some _ => system
  | none =>
    { system with images := system.images ++ [.fromUrl url], cache := system.cache.insert url system.images.length }

/-- The destructor. -/
def release (system : ImageSystem Pixmap) (image : Nat) : ImageSystem Pixmap :=
  { system with allImages := system.allImages.filter (· ≠ image) }.modify image fun gone =>
    { gone with alive := false, frames := .nothing }

def addImagePtr (system : ImageSystem Pixmap) (image : Nat) : ImageSystem Pixmap :=
  if image ∈ system.allImages then system else { system with allImages := system.allImages ++ [image] }

def load (system : ImageSystem Pixmap) (image : Nat) (loaded : Image Pixmap) : ImageSystem Pixmap :=
  if loaded.shouldLoad then
    (({ system with requests := system.requests ++ [image] }.modify image fun loading =>
      { loading with shouldLoad := false }).log (.requested image)).addImagePtr image
  else system

def pixmapOrLoad (system : ImageSystem Pixmap) (image : Nat) (used : Image Pixmap) : ImageSystem Pixmap :=
  ((system.modify image fun used => { used with lastUsed := system.now }).log (.used image system.now)).load image
    { used with lastUsed := system.now }

/-- The frames of an answer, unless there is nothing that can be shown. -/
def parse (result : Option (QImageReader Pixmap)) : Option (List (Frame Pixmap)) :=
  match result with
  | none => none
  | some reader =>
    if !reader.canRead then none
    else if reader.width ≤ 0 ∨ reader.height ≤ 0 then none
    else if reader.images.length ≤ 0 then none
    else if reader.width * reader.height * reader.images.length * 4 > maxBytesRam then none
    else some (readFrames reader)

def answer (system : ImageSystem Pixmap) (image : Nat) (result : Option (QImageReader Pixmap)) : ImageSystem Pixmap :=
  let system := { system with requests := system.requests.erase image }
  match system.lock image with
  | none => system
  | some _ =>
    match parse result with
    | none => system.modify image fun failed => { failed with empty := true }
    | some parsed => { system with posted := system.posted ++ [.assignFrames image parsed] }

section
variable (width : Nat)

/-- The first callback that was posted; many images share one layout. -/
def runPosted (system : ImageSystem Pixmap) : Callback Pixmap → ImageSystem Pixmap
  | .assignFrames image parsed =>
    match system.lock image with
    | none => system
    | some _ =>
      let system := (system.modify image fun loaded =>
        { loaded with frames := .new width parsed system.position }).log (.assigned image)
      if system.isPushQueued then system
      else { system with isPushQueued := true, posted := system.posted ++ [.forceLayout] }
  | .forceLayout => { system with isPushQueued := false }.log .laidOut

/-- Nothing moves in the background, if that is wanted. -/
def paused (animationsWhenFocused : Bool) (openOverlayWindows : Nat) (activeWindow : Bool) : Bool :=
  animationsWhenFocused && openOverlayWindows == 0 && !activeWindow

/-- Every connected image hears the signal of the timer. -/
def timeout (system : ImageSystem Pixmap) : ImageSystem Pixmap :=
  { system with
    position := (system.position + GIF_FRAME_LENGTH) % 2 ^ width
    images := system.images.map fun image =>
      if image.frames.connected then { image with frames := image.frames.advance } else image }

/-- One image of freeOld. -/
def freeOne (system : ImageSystem Pixmap) (image : Nat) : ImageSystem Pixmap :=
  match system.lock image with
  | none => { system with allImages := system.allImages.filter (· ≠ image) }
  | some held =>
    if held.frames.items.isEmpty then system
    else if held.lastUsed + IMAGE_POOL_IMAGE_LIFETIME < system.now then
      ({ system with allImages := system.allImages.filter (· ≠ image) }.modify image Image.expireFrames).log
        (.freed image system.now)
    else system

def freeOld (system : ImageSystem Pixmap) : ImageSystem Pixmap := system.allImages.foldl freeOne system

def freeAll (system : ImageSystem Pixmap) : ImageSystem Pixmap :=
  (system.allImages.foldl (fun system image => ({ system with allImages := system.allImages.filter (· ≠ image) }.modify
    image Image.expireFrames).log (.freed image system.now)) system).freeOld

inductive Event (Pixmap : Type) where
  | fromUrl (url : QString)
  | released (image : Nat)
  | load (image : Nat)
  | pixmapOrLoad (image : Nat)
  | answered (image : Nat) (result : Option (QImageReader Pixmap))
  | posted
  | timeout (animationsWhenFocused : Bool) (openOverlayWindows : Nat) (activeWindow : Bool)
  | freeOld
  | freeAll
  | wait (duration : Nat)

def step (system : ImageSystem Pixmap) : Event Pixmap → Option (ImageSystem Pixmap)
  | .fromUrl url => some (system.fromUrl url)
  | .released image => (system.lock image).map fun _ => system.release image
  | .load image => (system.lock image).map (system.load image)
  | .pixmapOrLoad image => (system.lock image).map (system.pixmapOrLoad image)
  | .answered image result => if image ∈ system.requests then some (system.answer image result) else none
  | .posted =>
    match system.posted with
    | [] => none
    | callback :: posted => some ({ system with posted }.runPosted width callback)
  | .timeout animationsWhenFocused openOverlayWindows activeWindow =>
    some (if paused animationsWhenFocused openOverlayWindows activeWindow then system else system.timeout width)
  | .freeOld => some system.freeOld
  | .freeAll => some system.freeAll
  | .wait duration => some { system with now := system.now + duration }

end

/-! ## Requests and uses -/

/-- The answers for the image that have not reached it yet. -/
def waiting (system : ImageSystem Pixmap) (image : Nat) : Nat :=
  system.requests.count image + system.posted.countP (Callback.assigns image)

/-- What the pool and the answers under way have to do with the image. -/
def Fits (pooled : Prop) (waiting : Nat) : Option (Image Pixmap) → Prop
  | none => ¬ pooled ∧ waiting = 0
  | some image => (pooled ↔ image.alive = true ∧ image.shouldLoad = false) ∧ waiting ≤ 1 ∧
      (0 < waiting → image.shouldLoad = false ∧ image.frames.items = []) ∧
      (image.shouldLoad = true → image.frames.items = [])

/-- Since every request of the image, its frames have been freed. -/
def Paid (history : List Entry) (image : Nat) : Prop :=
  ∀ front behind, history = front ++ .requested image :: behind → ∃ time, .freed image time ∈ behind

/-- What may be done behind a history. -/
def Suits (before : List Entry) : Entry → Prop
  | .requested image => Paid before image
  | .freed image time => ∀ use, .used image use ∈ before → use + IMAGE_POOL_IMAGE_LIFETIME < time
  | _ => True

structure Sound (system : ImageSystem Pixmap) : Prop where
  phase : ∀ i, Fits (i ∈ system.allImages) (system.waiting i) system.images[i]?
  loads : ∀ (i : Nat) image, system.images[i]? = some image → image.shouldLoad = true → Paid system.history i
  known : ∀ i, .requested i ∈ system.history → system.images[i]? ≠ none
  uses : ∀ i use, .used i use ∈ system.history → ∃ image, system.images[i]? = some image ∧ use ≤ image.lastUsed
  clock : ∀ (i : Nat) image, system.images[i]? = some image → image.lastUsed ≤ system.now
  suits : Throughout Suits system.history

theorem Paid.append {history more : List Entry} {image : Nat} (paid : Paid history image)
    (others : .requested image ∉ more) : Paid (history ++ more) image := by
  intro front behind split
  rcases List.append_eq_append_iff.mp split with ⟨rest, rfl, later⟩ | ⟨rest, rfl, later⟩
  · exact absurd (later ▸ List.mem_append_right rest List.mem_cons_self) others
  · cases rest with
    | nil =>
      rw [List.nil_append] at later
      exact absurd (later ▸ List.mem_cons_self) others
    | cons entry rest =>
      obtain ⟨rfl, rfl⟩ := List.cons.inj later
      obtain ⟨time, freed⟩ := paid front rest rfl
      exact ⟨time, List.mem_append_left more freed⟩

/-- The same of another image. -/
structure Apart (i : Nat) (system next : ImageSystem Pixmap) : Prop where
  images : ∀ j, j ≠ i → next.images[j]? = system.images[j]?
  pool : ∀ j, j ≠ i → (j ∈ next.allImages ↔ j ∈ system.allImages)
  waiting : ∀ j, j ≠ i → next.waiting j = system.waiting j

variable {system next : ImageSystem Pixmap} {i : Nat}

/-- What happens to one image has to be looked at for this image only. -/
theorem Sound.changed (sound : Sound system) (apart : Apart i system next) (later : system.now ≤ next.now)
    {more : List Entry} (history : next.history = system.history ++ more)
    (own : ∀ entry ∈ more, entry.image? = none ∨ entry.image? = some i)
    (phase : Fits (i ∈ next.allImages) (next.waiting i) next.images[i]?)
    (loads : ∀ image, next.images[i]? = some image → image.shouldLoad = true → Paid next.history i)
    (known : .requested i ∈ next.history → next.images[i]? ≠ none)
    (uses : ∀ use, .used i use ∈ next.history → ∃ image, next.images[i]? = some image ∧ use ≤ image.lastUsed)
    (clock : ∀ image, next.images[i]? = some image → image.lastUsed ≤ next.now)
    (suits : Throughout Suits next.history) : Sound next := by
  -- what is said of another image was said before
  have foreign : ∀ {j}, j ≠ i → ∀ {entry : Entry}, entry.image? = some j → entry ∈ next.history → entry ∈ system.history := by
    intro j other entry about member
    rw [history] at member
    rcases List.mem_append.mp member with old | new
    · exact old
    · rcases own entry new with none | same
      · rw [about] at none
        cases none
      · exact absurd (Option.some.inj (about.symm.trans same)) other
  constructor
  case phase =>
    intro j
    by_cases same : j = i
    · exact same ▸ phase
    · rw [apart.images j same, apart.waiting j same, apart.pool j same]
      exact sound.phase j
  case loads =>
    intro j image here should
    by_cases same : j = i
    · subst same
      exact loads image here should
    · rw [apart.images j same] at here
      rw [history]
      refine (sound.loads j image here should).append fun new => ?_
      rcases own _ new with none | about
      · cases none
      · exact same (Option.some.inj about)
  case known =>
    intro j member
    by_cases same : j = i
    · subst same
      exact known member
    · rw [apart.images j same]
      exact sound.known j (foreign same rfl member)
  case uses =>
    intro j use member
    by_cases same : j = i
    · subst same
      exact uses use member
    · rw [apart.images j same]
      exact sound.uses j use (foreign same rfl member)
  case clock =>
    intro j image here
    by_cases same : j = i
    · subst same
      exact clock image here
    · rw [apart.images j same] at here
      exact (sound.clock j image here).trans later
  case suits => exact suits

theorem lock_some {image : Image Pixmap} (held : system.lock i = some image) :
    system.images[i]? = some image ∧ image.alive = true :=
  Option.filter_eq_some_iff.mp held

theorem sound_start (now : Nat) : Sound (start now : ImageSystem Pixmap) where
  phase := fun _ => ⟨List.not_mem_nil, rfl⟩
  loads := fun _ _ none => by cases none
  known := fun _ none => absurd none List.not_mem_nil
  uses := fun _ _ none => absurd none List.not_mem_nil
  clock := fun _ _ none => by cases none
  suits := throughout_nil

theorem Sound.fromUrl (sound : Sound system) (url : QString) : Sound (system.fromUrl url) := by
  unfold ImageSystem.fromUrl
  split
  · exact sound
  · have missing : system.images[system.images.length]? = none := List.getElem?_eq_none le_rfl
    have made : (system.images ++ [Image.fromUrl url])[system.images.length]? = some (Image.fromUrl url) :=
      List.getElem?_concat_length
    have fits := sound.phase system.images.length
    rw [missing] at fits
    refine sound.changed (i := system.images.length) ⟨?_, fun _ _ => Iff.rfl, fun _ _ => rfl⟩ le_rfl
      (List.append_nil _).symm (fun _ none => absurd none List.not_mem_nil) ?_ ?_ ?_ ?_ ?_ sound.suits
    · intro j other
      rcases Nat.lt_or_gt_of_ne other with less | more
      · exact List.getElem?_append_left less
      · rw [List.getElem?_eq_none (by rw [List.length_append]; exact more), List.getElem?_eq_none (Nat.le_of_lt more)]
    · rw [made]
      refine ⟨⟨fun pooled => absurd pooled fits.1, fun loaded => by cases loaded.2⟩, fits.2.trans_le (Nat.zero_le 1), ?_,
        fun _ => rfl⟩
      exact fun some_ => absurd fits.2 some_.ne'
    · intro image _ _ front behind split
      have known := sound.known system.images.length (split ▸ List.mem_append_right front List.mem_cons_self)
      exact absurd missing known
    · intro _
      rw [made]
      exact Option.some_ne_none _
    · intro use member
      obtain ⟨image, here, _⟩ := sound.uses _ use member
      rw [missing] at here
      cases here
    · intro image here
      rw [made] at here
      obtain rfl := Option.some.inj here
      exact Nat.zero_le _

/-- The same for an image that is there. -/
theorem Sound.modified (sound : Sound system) {image : Image Pixmap} (here : system.images[i]? = some image)
    {f : Image Pixmap → Image Pixmap} (images : next.images = system.images.modify i f)
    (pool : ∀ j, j ≠ i → (j ∈ next.allImages ↔ j ∈ system.allImages))
    (waiting : ∀ j, j ≠ i → next.waiting j = system.waiting j) (later : system.now ≤ next.now)
    {more : List Entry} (history : next.history = system.history ++ more)
    (own : ∀ entry ∈ more, entry.image? = none ∨ entry.image? = some i)
    (phase : Fits (i ∈ next.allImages) (next.waiting i) (some (f image)))
    (loads : (f image).shouldLoad = true → Paid next.history i)
    (uses : ∀ use, .used i use ∈ next.history → use ≤ (f image).lastUsed)
    (clock : (f image).lastUsed ≤ next.now) (suits : Throughout Suits next.history) : Sound next := by
  have there : next.images[i]? = some (f image) := by
    rw [images, List.getElem?_modify_eq, here]
    rfl
  refine sound.changed ⟨fun j other => ?_, pool, waiting⟩ later history own (there ▸ phase) ?_ ?_ ?_ ?_ suits
  · rw [images, List.getElem?_modify_ne _ _ other.symm]
  · intro changed same should
    obtain rfl := Option.some.inj (there.symm.trans same)
    exact loads should
  · intro _
    rw [there]
    exact Option.some_ne_none _
  · exact fun use member => ⟨_, there, uses use member⟩
  · intro changed same
    obtain rfl := Option.some.inj (there.symm.trans same)
    exact clock

theorem Sound.used_le (sound : Sound system) {image : Image Pixmap} (here : system.images[i]? = some image) {use : Nat}
    (member : .used i use ∈ system.history) : use ≤ image.lastUsed := by
  obtain ⟨other, there, late⟩ := sound.uses i use member
  obtain rfl := Option.some.inj (here.symm.trans there)
  exact late

theorem Sound.fits (sound : Sound system) {image : Image Pixmap} (here : system.images[i]? = some image) :
    Fits (i ∈ system.allImages) (system.waiting i) (some image) :=
  here ▸ sound.phase i

theorem Sound.release (sound : Sound system) {image : Image Pixmap} (held : system.lock i = some image) :
    Sound (system.release i) := by
  obtain ⟨here, _⟩ := lock_some held
  obtain ⟨_, once, answered, _⟩ := sound.fits here
  refine sound.modified here rfl ?_ (fun _ _ => rfl) le_rfl (List.append_nil _).symm
    (fun _ none => absurd none List.not_mem_nil) ?_ ?_ ?_ ?_ sound.suits
  · intro j other
    simp [ImageSystem.release, modify, other]
  · have gone : i ∉ (system.release i).allImages := by simp [ImageSystem.release, modify]
    exact ⟨⟨fun pooled => absurd pooled gone, fun alive => by cases alive.1⟩, once,
      fun some_ => ⟨(answered some_).1, rfl⟩, fun _ => rfl⟩
  · exact sound.loads i image here
  · exact fun use member => sound.used_le here member
  · exact sound.clock i image here

/-- The image is drawn. -/
theorem Sound.use (sound : Sound system) {image : Image Pixmap} (here : system.images[i]? = some image) :
    Sound ((system.modify i fun used => { used with lastUsed := system.now }).log (.used i system.now)) := by
  have fits := sound.fits here
  refine sound.modified here rfl (fun _ _ => Iff.rfl) (fun _ _ => rfl) le_rfl rfl ?_ fits ?_ ?_ le_rfl
    (sound.suits.concat trivial)
  · intro entry member
    rw [List.mem_singleton.mp member]
    exact .inr rfl
  · intro should
    exact (sound.loads i image here should).append (by simp)
  · intro use member
    rcases List.mem_append.mp member with old | new
    · exact (sound.used_le here old).trans (sound.clock i image here)
    · obtain ⟨_, rfl⟩ := Entry.used.inj (List.mem_singleton.mp new)
      exact le_rfl

theorem mem_addImagePtr {j : Nat} : j ∈ (system.addImagePtr i).allImages ↔ j ∈ system.allImages ∨ j = i := by
  unfold addImagePtr
  split
  · next there => exact ⟨.inl, fun either => either.elim id fun same => same ▸ there⟩
  · rw [List.mem_append, List.mem_singleton]

theorem addImagePtr_eq (system : ImageSystem Pixmap) (i : Nat) :
    system.addImagePtr i = { system with allImages := (system.addImagePtr i).allImages } := by
  unfold addImagePtr
  split <;> rfl

/-- Only an image whose frames have been freed is requested again. -/
theorem Sound.load (sound : Sound system) {image : Image Pixmap} (held : system.lock i = some image) :
    Sound (system.load i image) := by
  unfold ImageSystem.load
  split
  · next should =>
    obtain ⟨here, alive⟩ := lock_some held
    obtain ⟨pooled, _, answered, fresh⟩ := sound.fits here
    have idle : system.waiting i = 0 := by
      by_contra some_
      rw [(answered (Nat.pos_of_ne_zero some_)).1] at should
      cases should
    rw [addImagePtr_eq]
    refine sound.modified here (f := fun loading => { loading with shouldLoad := false }) rfl ?_ ?_ le_rfl rfl ?_ ?_
      (fun none => by cases none) ?_ ?_ ?_
    · intro j other
      exact mem_addImagePtr.trans (or_iff_left other)
    · intro j other
      simp [ImageSystem.waiting, log, modify, other.symm]
    · intro entry member
      rw [List.mem_singleton.mp member]
      exact .inr rfl
    · have asked : (system.requests ++ [i]).count i + system.posted.countP (Callback.assigns i) = system.waiting i + 1 := by
        rw [List.count_append, List.count_singleton_self, ImageSystem.waiting]
        omega
      refine ⟨⟨fun _ => ⟨alive, rfl⟩, fun _ => mem_addImagePtr.mpr (.inr rfl)⟩, ?_, fun _ => ⟨rfl, fresh should⟩,
        fun none => by cases none⟩
      exact (asked.trans (by rw [idle])).le
    · intro use member
      rcases List.mem_append.mp member with old | new
      · exact sound.used_le here old
      · cases List.mem_singleton.mp new
    · exact sound.clock i image here
    · exact sound.suits.concat (sound.loads i image here should)
  · exact sound

theorem Sound.pixmapOrLoad (sound : Sound system) {image : Image Pixmap} (held : system.lock i = some image) :
    Sound (system.pixmapOrLoad i image) := by
  obtain ⟨here, alive⟩ := lock_some held
  apply (sound.use here).load
  apply Option.filter_eq_some_iff.mpr
  refine ⟨?_, alive⟩
  rw [log, modify, List.getElem?_modify_eq, here]
  rfl

/-- The flags of an image, which the bookkeeping reads. -/
structure Alike (image other : Image Pixmap) : Prop where
  alive : other.alive = image.alive
  shouldLoad : other.shouldLoad = image.shouldLoad
  items : other.frames.items = image.frames.items
  lastUsed : other.lastUsed = image.lastUsed

theorem Fits.alike {pooled : Prop} {waiting less : Nat} {image other : Image Pixmap} (fits : Fits pooled waiting (some image))
    (alike : Alike image other) (fewer : less ≤ waiting) : Fits pooled less (some other) := by
  obtain ⟨holds, once, answered, fresh⟩ := fits
  dsimp only [Fits]
  rw [alike.alive, alike.shouldLoad, alike.items]
  exact ⟨holds, fewer.trans once, fun some_ => answered (some_.trans_le fewer), fresh⟩

/-- An answer that has not reached its image comes closer to it, or is lost. -/
theorem Sound.closer (sound : Sound system) {image : Image Pixmap} (here : system.images[i]? = some image)
    {f : Image Pixmap → Image Pixmap} (images : next.images = system.images.modify i f)
    (alike : Alike image (f image)) (pool : next.allImages = system.allImages)
    (waiting : ∀ j, j ≠ i → next.waiting j = system.waiting j) (fewer : next.waiting i ≤ system.waiting i)
    (same : next.now = system.now) (history : next.history = system.history) : Sound next := by
  refine sound.modified here images (fun j _ => by rw [pool]) waiting same.ge (history.trans (List.append_nil _).symm)
    (fun _ none => absurd none List.not_mem_nil) ?_ ?_ ?_ ?_ ?_
  · rw [pool]
    exact (sound.fits here).alike alike fewer
  · rw [alike.shouldLoad, history]
    exact sound.loads i image here
  · rw [alike.lastUsed, history]
    exact fun use member => sound.used_le here member
  · rw [alike.lastUsed, same]
    exact sound.clock i image here
  · rw [history]
    exact sound.suits

/-- What happens to all images alike does not concern the bookkeeping. -/
theorem Sound.mapped (sound : Sound system) {f : Image Pixmap → Image Pixmap}
    (images : next.images = system.images.map f) (alike : ∀ image, Alike image (f image))
    (pool : next.allImages = system.allImages) (waiting : ∀ j, next.waiting j = system.waiting j)
    (later : system.now ≤ next.now) {more : List Entry} (history : next.history = system.history ++ more)
    (own : ∀ entry ∈ more, entry = .laidOut) : Sound next := by
  have at_ : ∀ j, next.images[j]? = system.images[j]?.map f := fun j => by rw [images, List.getElem?_map]
  have old : ∀ entry, entry ≠ .laidOut → entry ∈ next.history → entry ∈ system.history := by
    intro entry other member
    rw [history] at member
    exact (List.mem_append.mp member).resolve_right fun new => other (own entry new)
  constructor
  case phase =>
    intro j
    have fits := sound.phase j
    rw [at_, pool, waiting]
    -- nothing that the bookkeeping reads is touched
    cases here : system.images[j]? with
    | none => rwa [here] at fits
    | some image =>
      rw [here] at fits
      exact fits.alike (alike image) le_rfl
  case loads =>
    intro j image there should
    rw [at_] at there
    obtain ⟨before, here, rfl⟩ := Option.map_eq_some_iff.mp there
    rw [(alike before).shouldLoad] at should
    rw [history]
    exact (sound.loads j before here should).append fun new => by cases own _ new
  case known =>
    intro j member none
    rw [at_, Option.map_eq_none_iff] at none
    exact sound.known j (old _ (fun same => by cases same) member) none
  case uses =>
    intro j use member
    obtain ⟨image, here, late⟩ := sound.uses j use (old _ (fun same => by cases same) member)
    refine ⟨f image, ?_, (alike image).lastUsed ▸ late⟩
    rw [at_, here]
    rfl
  case clock =>
    intro j image there
    rw [at_] at there
    obtain ⟨before, here, rfl⟩ := Option.map_eq_some_iff.mp there
    rw [(alike before).lastUsed]
    exact (sound.clock j before here).trans later
  case suits =>
    rw [history]
    refine sound.suits.append fun before entry member => ?_
    rw [own entry member]
    trivial

theorem Sound.present (sound : Sound system) (some_ : 0 < system.waiting i ∨ i ∈ system.allImages) :
    ∃ image, system.images[i]? = some image := by
  have fits := sound.phase i
  cases here : system.images[i]? with
  | none =>
    rw [here] at fits
    exact some_.elim (fun waits => absurd fits.2 waits.ne') fun pooled => absurd pooled fits.1
  | some image => exact ⟨image, rfl⟩

theorem Sound.answer (sound : Sound system) (asked : i ∈ system.requests) (result : Option (QImageReader Pixmap)) :
    Sound (system.answer i result) := by
  have count := List.count_pos_iff.mpr asked
  obtain ⟨image, here⟩ := sound.present (i := i) (.inl (Nat.lt_of_lt_of_le count (Nat.le_add_right _ _)))
  have others : ∀ j, j ≠ i → (system.requests.erase i).count j = system.requests.count j :=
    fun j other => List.count_erase_of_ne other
  have own : (system.requests.erase i).count i = system.requests.count i - 1 := List.count_erase_self
  have keeps : Alike image (id image) := ⟨rfl, rfl, rfl, rfl⟩
  unfold ImageSystem.answer
  dsimp only
  split
  · refine sound.closer here (f := id) (List.modify_id i system.images).symm keeps rfl ?_ ?_ rfl rfl
    · exact fun j other => congrArg (· + _) (others j other)
    · exact Nat.add_le_add_right (own.trans_le (Nat.sub_le _ 1)) _
  · split
    · refine sound.closer here (f := fun failed => { failed with empty := true }) rfl ⟨rfl, rfl, rfl, rfl⟩ rfl ?_ ?_ rfl rfl
      · exact fun j other => congrArg (· + _) (others j other)
      · exact Nat.add_le_add_right (own.trans_le (Nat.sub_le _ 1)) _
    · refine sound.closer here (f := id) (List.modify_id i system.images).symm keeps rfl ?_ ?_ rfl rfl
      · intro j other
        simp [ImageSystem.waiting, Callback.assigns, others j other, other.symm]
      · simp only [ImageSystem.waiting, own, List.countP_append, List.countP_singleton, Callback.assigns, beq_self_eq_true,
          if_true]
        omega

theorem assigns_self (i : Nat) (parsed : List (Frame Pixmap)) : Callback.assigns i (.assignFrames i parsed) = true :=
  beq_self_eq_true i

theorem Sound.runPosted {callback : Callback Pixmap} {posted : List (Callback Pixmap)} (sound : Sound system)
    (first : system.posted = callback :: posted) (width : Nat) :
    Sound ({ system with posted }.runPosted width callback) := by
  cases callback with
  | forceLayout =>
    refine sound.mapped (f := id) (List.map_id _).symm (fun _ => ⟨rfl, rfl, rfl, rfl⟩) rfl ?_ le_rfl rfl ?_
    · intro j
      rw [ImageSystem.waiting, ImageSystem.waiting, first, List.countP_cons]
      rfl
    · exact fun entry member => List.mem_singleton.mp member
  | assignFrames i parsed =>
    have one : (system.posted.countP (Callback.assigns i)) = posted.countP (Callback.assigns i) + 1 := by
      rw [first, List.countP_cons, if_pos (assigns_self i parsed)]
    have others : ∀ j, j ≠ i → posted.countP (Callback.assigns j) = system.posted.countP (Callback.assigns j) := by
      intro j other
      rw [first, List.countP_cons, if_neg (by simpa [Callback.assigns] using other.symm), Nat.add_zero]
    -- the image has an entry, but the object may be gone: its frames are thrown away then
    obtain ⟨image, here⟩ := sound.present (i := i) (.inl (by rw [ImageSystem.waiting, one]; omega))
    cases held : system.lock i with
    | none =>
      have same : { system with posted }.runPosted width (.assignFrames i parsed) = { system with posted } := by
        have held' : ({ system with posted } : ImageSystem Pixmap).lock i = none := held
        rw [ImageSystem.runPosted, held']
      rw [same]
      refine sound.closer here (f := id) (List.modify_id i system.images).symm ⟨rfl, rfl, rfl, rfl⟩ rfl ?_ ?_ rfl rfl
      · exact fun j other => congrArg (system.requests.count j + ·) (others j other)
      · exact Nat.add_le_add_left (one ▸ Nat.le_succ _) _
    | some alive =>
      obtain ⟨pooled, once, answered, _⟩ := sound.fits here
      have waits : system.waiting i = 1 := le_antisymm once (by rw [ImageSystem.waiting, one]; omega)
      -- this is the only answer the image waits for, and it does not ask again before
      have loaded := (answered (waits ▸ Nat.one_pos)).1
      have assigned : Sound (({ system with posted }.modify i fun loaded =>
          { loaded with frames := .new width parsed system.position }).log (.assigned i)) := by
        refine sound.modified here (f := fun loaded => { loaded with frames := .new width parsed system.position }) rfl
          (fun _ _ => Iff.rfl) ?_ le_rfl rfl ?_ ?_ ?_ ?_ (sound.clock i image here) (sound.suits.concat trivial)
        · exact fun j other => congrArg (system.requests.count j + ·) (others j other)
        · intro entry member
          rw [List.mem_singleton.mp member]
          exact .inr rfl
        · have none : system.requests.count i + posted.countP (Callback.assigns i) = 0 := by
            rw [ImageSystem.waiting, one] at waits
            omega
          refine ⟨pooled, none.trans_le (Nat.zero_le 1), fun some_ => absurd none some_.ne', fun should => ?_⟩
          rw [loaded] at should
          cases should
        · intro should
          rw [loaded] at should
          cases should
        · intro use member
          rcases List.mem_append.mp member with old | new
          · exact sound.used_le here old
          · cases List.mem_singleton.mp new
      have held' : ({ system with posted } : ImageSystem Pixmap).lock i = some alive := held
      rw [ImageSystem.runPosted, held']
      dsimp only
      split
      · exact assigned
      · refine assigned.mapped (f := id) (List.map_id _).symm (fun _ => ⟨rfl, rfl, rfl, rfl⟩) rfl ?_ le_rfl
          (List.append_nil _).symm fun _ none => absurd none List.not_mem_nil
        intro j
        simp [ImageSystem.waiting, log, modify, Callback.assigns]

theorem advance_items (frames : Frames Pixmap) : frames.advance.items = frames.items := by
  rw [Frames.advance, Frames.processOffset_items]

theorem Sound.timeout (sound : Sound system) (width : Nat) : Sound (system.timeout width) := by
  refine sound.mapped rfl ?_ rfl (fun _ => rfl) le_rfl (List.append_nil _).symm fun _ none => absurd none List.not_mem_nil
  intro image
  split
  · exact ⟨rfl, rfl, advance_items image.frames, rfl⟩
  · exact ⟨rfl, rfl, rfl, rfl⟩

theorem Sound.pooled_of_frames (sound : Sound system) {image : Image Pixmap} (held : system.lock i = some image)
    (shown : image.frames.items ≠ []) : i ∈ system.allImages := by
  obtain ⟨here, alive⟩ := lock_some held
  obtain ⟨holds, _, _, fresh⟩ := sound.fits here
  exact holds.mpr ⟨alive, Bool.eq_false_iff.mpr fun should => shown (fresh should)⟩

theorem Sound.unpooled (sound : Sound system) (none : system.lock i = none) : i ∉ system.allImages := by
  intro pooled
  obtain ⟨image, here⟩ := sound.present (.inr pooled)
  have alive := ((sound.fits here).1.mp pooled).1
  rw [lock, here, Option.filter_some, if_pos alive] at none
  cases none

/-- One image of freeOld: nothing happens, or it is freed. -/
theorem Sound.freeOne_cases (sound : Sound system) (i : Nat) : system.freeOne i = system ∨ ∃ image,
    system.lock i = some image ∧ image.frames.items ≠ [] ∧ image.lastUsed + IMAGE_POOL_IMAGE_LIFETIME < system.now ∧
    system.freeOne i = ({ system with allImages := system.allImages.filter (· ≠ i) }.modify i Image.expireFrames).log
      (.freed i system.now) := by
  cases held : system.lock i with
  | none =>
    left
    have absent := sound.unpooled held
    have same : system.allImages.filter (· ≠ i) = system.allImages :=
      List.filter_eq_self.mpr fun j pooled => decide_eq_true fun isImage => absent (isImage ▸ pooled)
    rw [ImageSystem.freeOne, held]
    dsimp only
    rw [same]
  | some image =>
    rw [ImageSystem.freeOne, held]
    dsimp only
    split
    · exact .inl rfl
    · next shown =>
      split
      · next old => exact .inr ⟨image, rfl, fun none => shown (List.isEmpty_iff.mpr none), old, rfl⟩
      · exact .inl rfl

theorem Sound.freeOne (sound : Sound system) (i : Nat) : Sound (system.freeOne i) := by
  rcases sound.freeOne_cases i with same | ⟨image, held, shown, old, freed⟩
  · rw [same]
    exact sound
  · obtain ⟨here, _⟩ := lock_some held
    obtain ⟨_, once, answered, _⟩ := sound.fits here
    have idle : system.waiting i = 0 := by
      by_contra some_
      exact shown (answered (Nat.pos_of_ne_zero some_)).2
    rw [freed]
    refine sound.modified here (f := Image.expireFrames) rfl ?_ (fun _ _ => rfl) le_rfl rfl ?_ ?_ ?_ ?_
      (sound.clock i image here) ?_
    · intro j other
      simp [modify, log, other]
    · intro entry member
      rw [List.mem_singleton.mp member]
      exact .inr rfl
    · refine ⟨⟨fun inside => ?_, fun never => by cases never.2⟩, once, fun some_ => absurd idle some_.ne', fun _ => rfl⟩
      simp [modify, log] at inside
    · -- the entry that is appended pays for every request before it
      intro _ front behind split
      rcases List.eq_nil_or_concat behind with rfl | ⟨middle, last, rfl⟩
      · cases (List.append_inj' split rfl).2
      · rw [List.concat_eq_append, ← List.cons_append, ← List.append_assoc] at split
        obtain rfl := List.singleton_inj.mp (List.append_inj' split rfl).2
        exact ⟨system.now, by simp⟩
    · intro use member
      rcases List.mem_append.mp member with old | new
      · exact sound.used_le here old
      · cases List.mem_singleton.mp new
    · refine sound.suits.concat fun use member => ?_
      exact (Nat.add_le_add_right (sound.used_le here member) _).trans_lt old

/-- What the image shows was drawn lately. -/
def Recent (system : ImageSystem Pixmap) (i : Nat) : Prop :=
  ∀ image, system.lock i = some image → image.frames.items ≠ [] → system.now ≤ image.lastUsed + IMAGE_POOL_IMAGE_LIFETIME

theorem freed_lock {j : Nat} {image : Image Pixmap}
    (held : (({ system with allImages := system.allImages.filter (· ≠ i) }.modify i Image.expireFrames).log
      (.freed i system.now)).lock j = some image) (shown : image.frames.items ≠ []) :
    j ≠ i ∧ system.lock j = some image := by
  obtain ⟨there, alive⟩ := lock_some held
  by_cases same : j = i
  · subst same
    rw [log, modify, List.getElem?_modify_eq] at there
    obtain ⟨before, _, rfl⟩ := Option.map_eq_some_iff.mp there
    exact absurd rfl shown
  · rw [log, modify, List.getElem?_modify_ne _ _ (Ne.symm same)] at there
    exact ⟨same, Option.filter_eq_some_iff.mpr ⟨there, alive⟩⟩

theorem Sound.freeOne_recent (sound : Sound system) (i : Nat) : (system.freeOne i).Recent i := by
  rcases sound.freeOne_cases i with same | ⟨image, held, shown, old, freed⟩
  · intro image held shown
    rw [same] at held ⊢
    by_contra old
    have freed := congrArg ImageSystem.history same
    rw [ImageSystem.freeOne, held] at freed
    simp [shown, not_le.mp old, log, modify] at freed
  · rw [freed]
    exact fun image held shown => absurd rfl (freed_lock held shown).1

theorem Sound.freeOne_keeps (sound : Sound system) (i : Nat) {j : Nat} (recent : system.Recent j) :
    (system.freeOne i).Recent j := by
  rcases sound.freeOne_cases i with same | ⟨image, held, shown, old, freed⟩
  · rwa [same]
  · rw [freed]
    exact fun image held shown => recent image (freed_lock held shown).2 shown

theorem Sound.free_list {pool : List Nat} (sound : Sound system) (others : ∀ i, i ∉ pool → system.Recent i) :
    Sound (pool.foldl ImageSystem.freeOne system) ∧ ∀ i, (pool.foldl ImageSystem.freeOne system).Recent i := by
  induction pool generalizing system with
  | nil => exact ⟨sound, fun i => others i List.not_mem_nil⟩
  | cons first pool ih =>
    apply ih (sound.freeOne first)
    intro i outside
    by_cases same : i = first
    · exact same ▸ sound.freeOne_recent first
    · exact sound.freeOne_keeps first (others i fun inside => (List.mem_cons.mp inside).elim same outside)

theorem Sound.freeOld (sound : Sound system) : Sound system.freeOld ∧ ∀ i, system.freeOld.Recent i :=
  sound.free_list fun _ outside _ held shown => absurd (sound.pooled_of_frames held shown) outside

/-- The debug command that frees everything. -/
def Event.forced : Event Pixmap → Bool
  | .freeAll => true
  | _ => false

theorem Sound.step {width : Nat} {event : Event Pixmap} (sound : Sound system)
    (taken : system.step width event = some next) (unforced : event.forced = false) : Sound next := by
  cases event with
  | fromUrl url =>
    obtain rfl := Option.some.inj taken
    exact sound.fromUrl url
  | released image =>
    obtain ⟨_, held, rfl⟩ := Option.map_eq_some_iff.mp taken
    exact sound.release held
  | load image =>
    obtain ⟨_, held, rfl⟩ := Option.map_eq_some_iff.mp taken
    exact sound.load held
  | pixmapOrLoad image =>
    obtain ⟨_, held, rfl⟩ := Option.map_eq_some_iff.mp taken
    exact sound.pixmapOrLoad held
  | answered image result =>
    obtain ⟨asked, taken⟩ := Option.ite_none_right_eq_some.mp taken
    obtain rfl := Option.some.inj taken
    exact sound.answer asked result
  | posted =>
    unfold ImageSystem.step at taken
    cases first : system.posted with
    | nil =>
      rw [first] at taken
      cases taken
    | cons callback posted =>
      rw [first] at taken
      obtain rfl := Option.some.inj taken
      exact sound.runPosted first width
  | timeout animationsWhenFocused openOverlayWindows activeWindow =>
    obtain rfl := Option.some.inj taken
    split
    · exact sound
    · exact sound.timeout width
  | freeOld =>
    obtain rfl := Option.some.inj taken
    exact sound.freeOld.1
  | freeAll => cases unforced
  | wait duration =>
    obtain rfl := Option.some.inj taken
    exact sound.mapped (f := id) (List.map_id _).symm (fun _ => ⟨rfl, rfl, rfl, rfl⟩) rfl (fun _ => rfl)
      (Nat.le_add_right _ _) (List.append_nil _).symm fun _ none => absurd none List.not_mem_nil

theorem Sound.run {width : Nat} {events : List (Event Pixmap)} (sound : Sound system)
    (ran : Foundation.run (ImageSystem.step width) system events = some next)
    (unforced : ∀ event ∈ events, event.forced = false) : Sound next := by
  induction events generalizing system with
  | nil => exact Option.some.inj ran ▸ sound
  | cons event events ih =>
    obtain ⟨middle, taken, rest⟩ := run_cons ran
    have sound' := sound.step taken (unforced event List.mem_cons_self)
    exact ih sound' rest fun other member => unforced other (List.mem_cons_of_mem event member)

/-- An image is requested again only after its frames were freed, frames are freed only when the image was not drawn
for the whole lifetime, and no image waits for two answers. -/
theorem images_kept_while_used {width now : Nat} {events : List (Event Pixmap)} {final : ImageSystem Pixmap}
    (ran : Foundation.run (ImageSystem.step width) (start now) events = some final)
    (unforced : ∀ event ∈ events, event.forced = false) :
    Throughout Suits final.history ∧ ∀ i, final.waiting i ≤ 1 := by
  have sound := (sound_start now).run ran unforced
  refine ⟨sound.suits, fun i => ?_⟩
  have fits := sound.phase i
  cases here : final.images[i]? with
  | none =>
    rw [here] at fits
    exact fits.2.trans_le (Nat.zero_le 1)
  | some image =>
    rw [here] at fits
    exact fits.2.1

theorem images_kept_while_used_again : ∃ final : ImageSystem Nat,
    Foundation.run (ImageSystem.step 64) (start 0) [.fromUrl [0x61], .pixmapOrLoad 0,
      .answered 0 (some ⟨true, 1, 1, [(some 7, 50)]⟩), .posted, .wait 600001, .freeOld, .pixmapOrLoad 0] = some final ∧
    Throughout Suits final.history ∧ ∀ i, final.waiting i ≤ 1 := by
  obtain ⟨final, ran⟩ : ∃ final : ImageSystem Nat, Foundation.run (ImageSystem.step 64) (start 0)
    [.fromUrl [0x61], .pixmapOrLoad 0, .answered 0 (some ⟨true, 1, 1, [(some 7, 50)]⟩), .posted, .wait 600001, .freeOld,
      .pixmapOrLoad 0] = some final := ⟨_, rfl⟩
  exact ⟨final, ran, images_kept_while_used ran (by decide)⟩

def Event.isTimeout : Event Pixmap → Bool
  | .timeout _ _ _ => true
  | _ => false

/-- Frames are connected to the clock when there are several of them, and then follow it. -/
def InStep (position : Nat) (frames : Frames Pixmap) : Prop :=
  if frames.connected then 1 < frames.items.length ∧ (Frames.totalLength frames.items ≤ 60001 → frames.Follows position)
  else frames.items.length ≤ 1

theorem inStep_nothing (position : Nat) : InStep position (Frames.nothing : Frames Pixmap) := Nat.zero_le 1

theorem inStep_new {width : Nat} (wide : 32 ≤ width) (items : List (Frame Pixmap)) (position : Nat) :
    InStep position (.new width items position) := by
  by_cases several : 1 < items.length
  · have connected : (Frames.new width items position).connected = true := by
      rw [Frames.new, if_pos several, Frames.processOffset_connected]
    have same : (Frames.new width items position).items = items := by
      rw [Frames.new, if_pos several, Frames.processOffset_items]
    rw [InStep, if_pos connected, same]
    exact ⟨several, fun short => Frames.new_follows wide several short position⟩
  · rw [Frames.new, if_neg several]
    exact not_lt.mp several

theorem inStep_advance {position : Nat} {frames : Frames Pixmap} (inStep : InStep position frames)
    (connected : frames.connected = true) : InStep (position + GIF_FRAME_LENGTH) frames.advance := by
  have still : frames.advance.connected = true := by
    rwa [Frames.advance, Frames.processOffset_connected]
  rw [InStep, if_pos connected] at inStep
  rw [InStep, if_pos still, advance_items]
  exact ⟨inStep.1, fun short => .inl ((inStep.2 short).advance short)⟩

theorem of_mem_modify {α : Type} {f : α → α} {items : List α} {place : Nat} {item : α}
    (member : item ∈ items.modify place f) : item ∈ items ∨ ∃ before ∈ items, f before = item := by
  obtain ⟨j, there⟩ := List.mem_iff_getElem?.mp member
  rw [List.getElem?_modify] at there
  obtain ⟨before, here, rfl⟩ := Option.map_eq_some_iff.mp there
  have inside := List.mem_of_getElem? here
  split
  · exact .inr ⟨before, inside, rfl⟩
  · exact .inl inside

/-- The clock stands at the position, and this holds of every image's frames. -/
structure All (position : Nat) (holds : Frames Pixmap → Prop) (system : ImageSystem Pixmap) : Prop where
  still : system.position = position
  each : ∀ image ∈ system.images, holds image.frames

section
variable {position : Nat} {holds : Frames Pixmap → Prop}

theorem All.modify (all : All position holds system) {f : Image Pixmap → Image Pixmap}
    (images : next.images = system.images.modify i f) (still : next.position = system.position)
    (keeps : ∀ image, holds image.frames → holds (f image).frames) : All position holds next := by
  refine ⟨still.trans all.still, fun image member => ?_⟩
  rw [images] at member
  rcases of_mem_modify member with same | ⟨before, inside, rfl⟩
  · exact all.each image same
  · exact keeps before (all.each before inside)

theorem All.load (all : All position holds system) (i : Nat) (loaded : Image Pixmap) :
    All position holds (system.load i loaded) := by
  unfold ImageSystem.load
  split
  · rw [addImagePtr_eq]
    exact all.modify (f := fun loading => { loading with shouldLoad := false }) rfl rfl fun _ same => same
  · exact all

theorem All.freeOne (all : All position holds system) (nothing : holds .nothing) (i : Nat) :
    All position holds (system.freeOne i) := by
  unfold ImageSystem.freeOne
  split
  · exact { all with }
  · split
    · exact all
    · split
      · exact all.modify (f := Image.expireFrames) rfl rfl fun _ _ => nothing
      · exact all

theorem All.fold {operation : ImageSystem Pixmap → Nat → ImageSystem Pixmap}
    (keeps : ∀ system i, All position holds system → All position holds (operation system i)) (pool : List Nat)
    (all : All position holds system) : All position holds (pool.foldl operation system) := by
  induction pool generalizing system with
  | nil => exact all
  | cons i pool ih => exact ih (keeps system i all)

theorem All.runPosted (all : All position holds system) {width : Nat}
    (new : ∀ items, holds (.new width items position)) (callback : Callback Pixmap) :
    All position holds (system.runPosted width callback) := by
  cases callback with
  | forceLayout => exact { all with }
  | assignFrames image parsed =>
    unfold ImageSystem.runPosted
    dsimp only
    split
    · exact all
    · have assigned : All position holds (system.modify image fun loaded =>
          { loaded with frames := .new width parsed system.position }) := by
        rw [all.still]
        exact all.modify rfl rfl fun _ _ => new parsed
      split <;> exact { assigned with }

/-- Every event that leaves the clock alone. -/
theorem All.step {width : Nat} {event : Event Pixmap} (all : All position holds system)
    (taken : system.step width event = some next) (other : event.isTimeout = false) (nothing : holds .nothing)
    (new : ∀ items, holds (.new width items position)) : All position holds next := by
  cases event with
  | fromUrl url =>
    obtain rfl := Option.some.inj taken
    unfold ImageSystem.fromUrl
    split
    · exact all
    · refine ⟨all.still, fun image member => ?_⟩
      rcases List.mem_append.mp member with old | made
      · exact all.each image old
      · rw [List.mem_singleton.mp made]
        exact nothing
  | released image =>
    obtain ⟨_, _, rfl⟩ := Option.map_eq_some_iff.mp taken
    exact all.modify rfl rfl fun _ _ => nothing
  | load image =>
    obtain ⟨loaded, _, rfl⟩ := Option.map_eq_some_iff.mp taken
    exact all.load image loaded
  | pixmapOrLoad image =>
    obtain ⟨used, _, rfl⟩ := Option.map_eq_some_iff.mp taken
    refine All.load ?_ image _
    exact all.modify (f := fun used => { used with lastUsed := system.now }) rfl rfl fun _ same => same
  | answered image result =>
    obtain ⟨_, taken⟩ := Option.ite_none_right_eq_some.mp taken
    obtain rfl := Option.some.inj taken
    unfold ImageSystem.answer
    dsimp only
    split
    · exact { all with }
    · split
      · exact all.modify (f := fun failed => { failed with empty := true }) rfl rfl fun _ same => same
      · exact { all with }
  | posted =>
    unfold ImageSystem.step at taken
    cases first : system.posted with
    | nil =>
      rw [first] at taken
      cases taken
    | cons callback posted =>
      rw [first] at taken
      obtain rfl := Option.some.inj taken
      -- new frames start at the position of the clock
      have moved : All position holds { system with posted } := { all with }
      exact moved.runPosted new callback
  | timeout animationsWhenFocused openOverlayWindows activeWindow => cases other
  | freeOld =>
    obtain rfl := Option.some.inj taken
    exact All.fold (fun _ i all => all.freeOne nothing i) _ all
  | freeAll =>
    obtain rfl := Option.some.inj taken
    refine All.fold (fun _ i all => all.freeOne nothing i) _ (All.fold ?_ _ all)
    exact fun _ i all => All.modify all (f := Image.expireFrames) rfl rfl fun _ _ => nothing
  | wait duration =>
    obtain rfl := Option.some.inj taken
    exact { all with }

end

/-- Every image follows the clock, which has not turned round yet. -/
structure Clocked (ticks : Nat) (system : ImageSystem Pixmap) : Prop where
  early : system.position ≤ ticks * GIF_FRAME_LENGTH
  inStep : All system.position (InStep system.position) system

/-- A step of the clock. -/
theorem Clocked.timeout {ticks width : Nat} (clocked : Clocked ticks system)
    (room : (ticks + 1) * GIF_FRAME_LENGTH < 2 ^ width) :
    (system.timeout width).position = system.position + GIF_FRAME_LENGTH ∧ Clocked (ticks + 1) (system.timeout width) := by
  have early := clocked.early
  rw [Nat.succ_mul] at room
  have moved : (system.timeout width).position = system.position + GIF_FRAME_LENGTH := Nat.mod_eq_of_lt (by omega)
  refine ⟨moved, by rw [Nat.succ_mul]; omega, rfl, fun image member => ?_⟩
  rw [moved]
  obtain ⟨before, inside, rfl⟩ := List.mem_map.mp member
  have inStep := clocked.inStep.each before inside
  split
  · next connected => exact inStep_advance inStep connected
  · next loose =>
    rw [InStep, if_neg loose] at inStep ⊢
    exact inStep

theorem Clocked.step {ticks width : Nat} {event : Event Pixmap} (wide : 32 ≤ width) (clocked : Clocked ticks system)
    (taken : system.step width event = some next)
    (room : (ticks + if event.isTimeout then 1 else 0) * GIF_FRAME_LENGTH < 2 ^ width) :
    Clocked (ticks + if event.isTimeout then 1 else 0) next := by
  cases moves : event.isTimeout with
  | false =>
    have all := clocked.inStep.step taken moves (inStep_nothing _) (inStep_new wide · _)
    have early := clocked.early
    rw [if_neg Bool.false_ne_true, Nat.add_zero]
    exact ⟨all.still ▸ early, rfl, all.still.symm ▸ all.each⟩
  | true =>
    rw [moves, if_pos rfl] at room
    rw [if_pos rfl]
    cases event with
    | timeout animationsWhenFocused openOverlayWindows activeWindow =>
      obtain rfl := Option.some.inj taken
      split
      · exact ⟨clocked.early.trans (Nat.mul_le_mul_right _ (Nat.le_succ ticks)), clocked.inStep⟩
      · exact (clocked.timeout room).2
    | _ => cases moves

theorem Clocked.run {ticks width : Nat} {events : List (Event Pixmap)} (wide : 32 ≤ width) (clocked : Clocked ticks system)
    (ran : Foundation.run (ImageSystem.step width) system events = some next)
    (room : (ticks + events.countP Event.isTimeout) * GIF_FRAME_LENGTH < 2 ^ width) :
    Clocked (ticks + events.countP Event.isTimeout) next := by
  induction events generalizing system ticks with
  | nil => exact Option.some.inj ran ▸ clocked
  | cons event events ih =>
    obtain ⟨middle, taken, rest⟩ := run_cons ran
    have count : ticks + (event :: events).countP Event.isTimeout =
        ticks + (if event.isTimeout then 1 else 0) + events.countP Event.isTimeout := by
      rw [List.countP_cons]
      omega
    rw [count] at room ⊢
    refine ih (clocked.step wide taken (Nat.lt_of_le_of_lt (Nat.mul_le_mul_right _ (Nat.le_add_right _ _)) room)) rest room

/-- Animations are synchronized: whenever the clock has made a step, every image shows the frame that is due then,
however long it has been loaded. -/
theorem gifs_follow_clock {width now : Nat} {events : List (Event Pixmap)} {animationsWhenFocused activeWindow : Bool}
    {openOverlayWindows : Nat} {final : ImageSystem Pixmap} (wide : 32 ≤ width)
    (ran : Foundation.run (ImageSystem.step width) (start now)
      (events ++ [.timeout animationsWhenFocused openOverlayWindows activeWindow]) = some final)
    (moves : paused animationsWhenFocused openOverlayWindows activeWindow = false)
    (room : (events.countP Event.isTimeout + 1) * GIF_FRAME_LENGTH < 2 ^ width) :
    ∀ image ∈ final.images, image.frames.animated = true → Frames.totalLength image.frames.items ≤ 60001 →
      image.frames.index = Frames.dueAt image.frames.items final.position := by
  have begins : Clocked 0 (start now : ImageSystem Pixmap) :=
    ⟨Nat.zero_le _, rfl, fun _ none => absurd none List.not_mem_nil⟩
  obtain ⟨system, before, last⟩ := run_append ran
  have clocked := begins.run wide before (Nat.lt_of_le_of_lt (Nat.mul_le_mul_right _ (by omega)) room)
  rw [Nat.zero_add] at clocked
  obtain ⟨_, taken, done⟩ := run_cons last
  obtain rfl := Option.some.inj done
  obtain rfl := Option.some.inj taken
  rw [moves, if_neg Bool.false_ne_true]
  -- the image was in step before, and both have gone one step further
  obtain ⟨moved, after⟩ := clocked.timeout room
  intro image member several short
  obtain ⟨before, inside, rfl⟩ := List.mem_map.mp member
  have inStep := clocked.inStep.each before inside
  rw [InStep] at inStep
  split at inStep
  · next connected =>
    rw [if_pos connected] at several short ⊢
    dsimp only at several short ⊢
    rw [advance_items] at short
    rw [moved]
    have follows := inStep.2 short
    exact (follows.advance short).due (Nat.succ_pos _)
  · next loose =>
    rw [if_neg loose] at several
    exact absurd (of_decide_eq_true several) (not_lt.mpr inStep)

theorem gifs_follow_clock_two : ∃ final : ImageSystem Nat,
    Foundation.run (ImageSystem.step 64) (start 0) ([.fromUrl [0x61], .pixmapOrLoad 0,
      .answered 0 (some ⟨true, 1, 1, [(some 7, 50), (some 8, 200)]⟩), .timeout false 0 false, .posted] ++
      [.timeout true 0 true]) = some final ∧
    ∀ image ∈ final.images, image.frames.animated = true → Frames.totalLength image.frames.items ≤ 60001 →
      image.frames.index = Frames.dueAt image.frames.items final.position := by
  obtain ⟨final, ran⟩ : ∃ final : ImageSystem Nat, Foundation.run (ImageSystem.step 64) (start 0)
    ([.fromUrl [0x61], .pixmapOrLoad 0, .answered 0 (some ⟨true, 1, 1, [(some 7, 50), (some 8, 200)]⟩),
      .timeout false 0 false, .posted] ++ [.timeout true 0 true]) = some final := ⟨_, rfl⟩
  exact ⟨final, ran, gifs_follow_clock (by decide) ran rfl (by decide)⟩

end ImageSystem

end Forserino.Images
