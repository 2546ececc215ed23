import Forserino.Foundation.Cycles
import Forserino.Qt.Variant
import Mathlib.Algebra.Order.BigOperators.Group.List
import Mathlib.Algebra.Order.Group.Nat

/-! The frames of an image, and the clock that turns the pages of all of them. Durations are in milliseconds.

An unsigned long has the given width, which is 32 or 64 bits.
-/

set_option autoImplicit false

namespace Forserino.Images

open Foundation Qt

def GIF_FRAME_LENGTH : Nat := 20

def maxBytesRam : Nat := 20 * 1024 * 1024

variable {Pixmap : Type}

structure Frame (Pixmap : Type) where
  image : Pixmap
  duration : Int
  positive : 0 < duration

/-- What a QImageReader has read of the data: the pixmaps that could be read, each with the delay behind it. -/
structure QImageReader (Pixmap : Type) where
  canRead : Bool
  width : Int
  height : Int
  images : List (Option Pixmap × Int)

/-- Delays that browsers do not take at their word are not taken at their word here either. -/
def frameDuration (nextImageDelay : Int) : Int :=
  max 20 (if nextImageDelay ≤ 10 then 100 else nextImageDelay)

theorem frameDuration_positive (nextImageDelay : Int) : 0 < frameDuration nextImageDelay :=
  lt_of_lt_of_le (by decide : (0 : Int) < 20) (le_max_left 20 _)

def readFrames (reader : QImageReader Pixmap) : List (Frame Pixmap) :=
  reader.images.filterMap fun (pixmap, delay) =>
    pixmap.map fun image => ⟨image, frameDuration delay, frameDuration_positive delay⟩

structure Frames (Pixmap : Type) where
  items : List (Frame Pixmap)
  index : Nat
  durationOffset : Int
  connected : Bool

namespace Frames

def nothing : Frames Pixmap := ⟨[], 0, 0, false⟩

def animated (frames : Frames Pixmap) : Bool := 1 < frames.items.length

/-- The loop of processOffset. -/
def process (items : List (Frame Pixmap)) (index : Nat) (durationOffset : Int) : Nat × Int :=
  match items[index % items.length]? with
  | some frame =>
    if frame.duration < durationOffset then
      process items ((index % items.length + 1) % items.length) (durationOffset - frame.duration)
    else (index % items.length, durationOffset)
  | none => (index % items.length, durationOffset)
termination_by durationOffset.toNat
decreasing_by
  have := frame.positive
  omega

def processOffset (frames : Frames Pixmap) : Frames Pixmap :=
  if frames.items.isEmpty then frames
  else
    let (index, durationOffset) := process frames.items frames.index frames.durationOffset
    { frames with index, durationOffset }

@[simp] theorem processOffset_items (frames : Frames Pixmap) : frames.processOffset.items = frames.items := by
  unfold processOffset
  split <;> rfl

@[simp] theorem processOffset_connected (frames : Frames Pixmap) : frames.processOffset.connected = frames.connected := by
  unfold processOffset
  split <;> rfl

def advance (frames : Frames Pixmap) : Frames Pixmap :=
  { frames with durationOffset := QVariant.narrow (frames.durationOffset + GIF_FRAME_LENGTH) }.processOffset

/-- The durations as the clock counts them. -/
def durations (items : List (Frame Pixmap)) : List Nat := items.map fun frame => frame.duration.toNat

def totalLength (items : List (Frame Pixmap)) : Nat := (durations items).sum

/-- Animated images join the clock where it stands. -/
def new (width : Nat) (items : List (Frame Pixmap)) (position : Nat) : Frames Pixmap :=
  if 1 < items.length then
    let total := totalLength items % 2 ^ width
    let durationOffset := if total = 0 then 0 else min (QVariant.narrow (position % total : Nat)) 60000
    (⟨items, 0, durationOffset, true⟩ : Frames Pixmap).processOffset
  else ⟨items, 0, 0, false⟩

def clear (_ : Frames Pixmap) : Frames Pixmap := nothing

/-- The pixmap that is shown. -/
def current (frames : Frames Pixmap) : Option Pixmap := frames.items[frames.index]?.map Frame.image

/-- The frame that is due when the clock stands at the position. -/
def dueAt (items : List (Frame Pixmap)) (position : Nat) : Nat :=
  segmentAt (durations items) (distanceAt (totalLength items) position)

/-- The frame is the one to which the clock leads. -/
structure Shows (items : List (Frame Pixmap)) (position index : Nat) (durationOffset : Int) : Prop where
  leads : Leads (durations items) position index durationOffset.toNat
  within : ∀ frame, items[index]? = some frame → durationOffset ≤ frame.duration

/-- The frames follow the clock, at the latest from its next step on. -/
def Follows (frames : Frames Pixmap) (position : Nat) : Prop :=
  Shows frames.items position frames.index frames.durationOffset ∨
    frames.items ≠ [] ∧ frames.index = 0 ∧ frames.durationOffset = 0 ∧ totalLength frames.items ∣ position

section
variable {items : List (Frame Pixmap)} {position index : Nat} {durationOffset : Int}

theorem length_durations : (durations items).length = items.length := List.length_map _

theorem durations_get {frame : Frame Pixmap} (here : items[index]? = some frame) :
    (durations items)[index]? = some frame.duration.toNat := by
  rw [durations, List.getElem?_map, here]
  rfl

/-- The loop ends at the frame to which the clock leads. -/
theorem process_shows (leads : Leads (durations items) position index durationOffset.toNat) :
    Shows items position (process items index durationOffset).1 (process items index durationOffset).2 := by
  fun_induction process items index durationOffset with
  | case1 index durationOffset frame here passes ih =>
    have inside : index % items.length = index := Nat.mod_eq_of_lt (length_durations ▸ leads.inside)
    rw [inside] at here ih ⊢
    have positive := frame.positive
    have rest : (durationOffset - frame.duration).toNat = durationOffset.toNat - frame.duration.toNat := by omega
    apply ih
    rw [rest, ← length_durations]
    exact leads.next (durations_get here) (by omega)
  | case2 index durationOffset frame here stays =>
    have inside : index % items.length = index := Nat.mod_eq_of_lt (length_durations ▸ leads.inside)
    rw [inside] at here ⊢
    refine ⟨leads, fun other same => ?_⟩
    obtain rfl : frame = other := Option.some.inj (here.symm.trans same)
    exact not_lt.mp stays
  | case3 index durationOffset missing =>
    have inside : index % items.length = index := Nat.mod_eq_of_lt (length_durations ▸ leads.inside)
    rw [inside] at missing ⊢
    exact ⟨leads, fun other same => by rw [missing] at same; cases same⟩

theorem processOffset_shows {frames : Frames Pixmap}
    (leads : Leads (durations frames.items) position frames.index frames.durationOffset.toNat) :
    Shows frames.processOffset.items position frames.processOffset.index frames.processOffset.durationOffset := by
  have nonempty : ¬ frames.items.isEmpty = true := by
    rw [List.isEmpty_iff_length_eq_zero, ← length_durations]
    exact (Nat.zero_lt_of_lt leads.inside).ne'
  rw [processOffset, if_neg nonempty]
  exact process_shows leads

theorem Shows.due (shows : Shows items position index durationOffset) (later : 0 < position) : index = dueAt items position := by
  have inside := shows.leads.inside
  rw [length_durations] at inside
  have here := List.getElem?_eq_getElem inside
  have within := shows.within _ here
  exact shows.leads.segment_eq (durations_get here) (by omega) later

theorem le_totalLength {frame : Frame Pixmap} (member : frame ∈ items) : frame.duration.toNat ≤ totalLength items :=
  List.le_sum_of_mem (List.mem_map_of_mem member)

theorem totalLength_positive (nonempty : items ≠ []) : 0 < totalLength items := by
  obtain ⟨frame, member⟩ := List.exists_mem_of_ne_nil items nonempty
  have positive := frame.positive
  have part := le_totalLength member
  omega

theorem narrow_small {n : Int} (nonnegative : 0 ≤ n) (small : n < 2 ^ 31) : QVariant.narrow n = n := by
  unfold QVariant.narrow
  rw [Int.bmod_def, Int.emod_eq_of_lt nonnegative (by omega)]
  exact if_pos (by omega)

/-- Up to a minute, frames can join the clock anywhere. -/
theorem new_follows {width : Nat} (wide : 32 ≤ width) (several : 1 < items.length) (short : totalLength items ≤ 60001)
    (position : Nat) : Follows (new width items position) position := by
  have nonempty : items ≠ [] := List.ne_nil_of_length_pos (Nat.zero_lt_of_lt several)
  have positive := totalLength_positive nonempty
  have room : 2 ^ 32 ≤ 2 ^ width := Nat.pow_le_pow_right Nat.two_pos wide
  have fits : totalLength items % 2 ^ width = totalLength items := Nat.mod_eq_of_lt (by omega)
  have below : position % totalLength items < totalLength items := Nat.mod_lt position positive
  unfold new
  rw [if_pos several]
  simp only [fits, if_neg positive.ne']
  rw [narrow_small (by omega) (by omega), min_eq_left (by omega)]
  rcases Nat.eq_zero_or_pos (position % totalLength items) with turn | inside
  · -- nothing of the first frame has passed
    obtain ⟨first, others, rfl⟩ := List.exists_cons_of_ne_nil nonempty
    right
    rw [turn, processOffset, if_neg (by simp), process]
    rw [Nat.zero_mod, List.getElem?_cons_zero]
    simp only [Int.natCast_zero, if_neg (not_lt.mpr first.positive.le)]
    exact ⟨nonempty, trivial, trivial, Nat.dvd_of_mod_eq_zero turn⟩
  · left
    apply processOffset_shows
    refine ⟨?_, ?_, ?_⟩
    · rw [length_durations]
      exact Nat.zero_lt_of_lt several
    · rwa [Int.toNat_natCast]
    · rw [List.take_zero, List.sum_nil, Nat.zero_add, Int.toNat_natCast]
      exact Nat.mod_modEq position _

theorem Follows.bounded {frames : Frames Pixmap} (follows : Follows frames position) :
    0 ≤ frames.durationOffset ∧ frames.durationOffset ≤ totalLength frames.items := by
  rcases follows with shows | ⟨_, _, start, _⟩
  · have positive := shows.leads.positive
    have inside := shows.leads.inside
    rw [length_durations] at inside
    have within := shows.within _ (List.getElem?_eq_getElem inside)
    have part := le_totalLength (List.getElem_mem inside)
    omega
  · rw [start]
    exact ⟨le_rfl, Int.natCast_nonneg _⟩

theorem Follows.leads {frames : Frames Pixmap} (follows : Follows frames position) (steps : Nat) (moves : 0 < steps) :
    Leads (durations frames.items) (position + steps) frames.index (frames.durationOffset + steps).toNat := by
  have bounds := follows.bounded
  have added : (frames.durationOffset + steps).toNat = frames.durationOffset.toNat + steps := by omega
  rw [added]
  rcases follows with shows | ⟨nonempty, first, start, turns⟩
  · exact shows.leads.forward steps
  · rw [first, start]
    refine ⟨?_, by simpa using moves, ?_⟩
    · rw [length_durations]
      exact List.length_pos_of_ne_nil nonempty
    · rw [List.take_zero, List.sum_nil, Nat.zero_add, Int.toNat_zero]
      exact (Nat.modEq_zero_iff_dvd.mpr turns).symm.add_right steps

theorem Follows.advance {frames : Frames Pixmap} (follows : Follows frames position)
    (short : totalLength frames.items ≤ 60001) :
    Shows frames.advance.items (position + GIF_FRAME_LENGTH) frames.advance.index frames.advance.durationOffset := by
  have bounds := follows.bounded
  have leads := follows.leads GIF_FRAME_LENGTH (by decide)
  rw [Frames.advance, narrow_small (by unfold GIF_FRAME_LENGTH; omega) (by unfold GIF_FRAME_LENGTH; omega)]
  exact processOffset_shows leads

end

end Frames

end Forserino.Images
