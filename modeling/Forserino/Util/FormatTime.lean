import Forserino.Util.Durations

/-! formatTime, and that parseDurationToSeconds reads back what it writes.
-/

set_option autoImplicit false

namespace Forserino.Util

open Forserino.Qt Forserino.Foundation
open Forserino.Filters (isWhitespace)

def appendDuration (count : Int) (suffix : QChar) (out : QString) : QString :=
  (if out = [] then out else out ++ [u ' ']) ++ number count ++ [suffix]

def formatTime (totalSeconds : Int) : QString :=
  let seconds := totalSeconds.tmod 60
  let timeoutMinutes := totalSeconds.tdiv 60
  let minutes := timeoutMinutes.tmod 60
  let timeoutHours := timeoutMinutes.tdiv 60
  let hours := timeoutHours.tmod 24
  let days := timeoutHours.tdiv 24
  let res : QString := []
  let res := if days > 0 then appendDuration days (u 'd') res else res
  let res := if hours > 0 then appendDuration hours (u 'h') res else res
  let res := if minutes > 0 then appendDuration minutes (u 'm') res else res
  if seconds > 0 then appendDuration seconds (u 's') res else res

/-- A number of days, hours, minutes or seconds that is written. -/
structure Count where
  count : Nat
  suffix : QChar
  seconds : Nat
  known : ([suffix], seconds) ∈ units
  bounded : (count : Int) ≤ UINT_MAX

def Count.text (c : Count) : QString := number c.count ++ [c.suffix]

def Count.total (c : Count) : Nat := c.count * c.seconds

/-- The count as it stands in front of a blank, or at the end. -/
def Count.part (c : Count) (tail : QString) (blank : tail.all isWhitespace = true) : Part :=
  ⟨number c.count, [], [c.suffix], c.seconds, tail, by
    rw [List.all_eq_true]
    intro d among
    exact isDecimal_of_isDigit (List.all_eq_true.mp (number_digits c.count) d among), rfl, c.known, blank⟩

theorem Count.added (c : Count) (tail : QString) (blank : tail.all isWhitespace = true) :
    (c.part tail blank).added = c.total := by
  rw [Part.added, Count.total, part, toUInt_number c.count c.bounded]

/-- Counts between blanks are parts of a duration, and there is nothing to trim. -/
theorem exists_parts {counts : List Count} (some_ : counts ≠ []) :
    ∃ first parts, join [u ' '] (counts.map Count.text) = first.text ++ parts.flatMap Part.text ∧
      (∀ p ∈ first :: parts, p.number ≠ []) ∧ ((first :: parts).map Part.added).sum = (counts.map Count.total).sum ∧
      Stops isWhitespace (join [u ' '] (counts.map Count.text)).reverse := by
  induction counts with
  | nil => exact absurd rfl some_
  | cons c counts ih =>
    cases counts with
    | nil =>
      refine ⟨c.part [] rfl, [], ?_, ?_, ?_, ?_⟩
      · simp [join, Count.text, Part.text, Count.part]
      · simpa [Count.part] using number_ne_nil c.count
      · exact congrArg (· + 0) (c.added [] rfl)
      · have letter := List.all_eq_true.mp (units_letters _ c.known).2 c.suffix List.mem_cons_self
        simp [join, Count.text, Stops, (inUnit_iff.mp letter).1]
    | cons d counts =>
      obtain ⟨first, parts, text, numbered, total, ends⟩ := ih (List.cons_ne_nil _ _)
      have shape : join [u ' '] ((c :: d :: counts).map Count.text) =
          c.text ++ [u ' '] ++ join [u ' '] ((d :: counts).map Count.text) := rfl
      refine ⟨c.part [u ' '] (by decide), first :: parts, ?_, ?_, ?_, ?_⟩
      · rw [shape, text]
        simp [Count.text, Part.text, Count.part]
      · rw [List.forall_mem_cons]
        exact ⟨number_ne_nil c.count, numbered⟩
      · rw [List.map_cons, List.sum_cons, Count.added, total]
        rfl
      · rw [shape, List.reverse_append]
        refine ends.append ?_
        rw [text, Ne, List.reverse_eq_nil_iff]
        have letters := first.unit_ne_nil
        simp [Part.text, letters]

/-! ## What is written -/

/-- The counts of n seconds, from days to seconds. -/
def counts (n : Nat) (bounded : (n : Int) ≤ UINT_MAX) : List Count :=
  [⟨n / 60 / 60 / 24, u 'd', 86400, by decide, by omega⟩, ⟨n / 60 / 60 % 24, u 'h', 3600, by decide, by omega⟩,
    ⟨n / 60 % 60, u 'm', 60, by decide, by omega⟩, ⟨n % 60, u 's', 1, by decide, by omega⟩]

def Count.append (out : QString) (c : Count) : QString :=
  if (c.count : Int) > 0 then appendDuration c.count c.suffix out else out

theorem counts_total (n : Nat) (bounded : (n : Int) ≤ UINT_MAX) : ((counts n bounded).map Count.total).sum = n := by
  simp only [counts, Count.total, List.map_cons, List.map_nil, List.sum_cons, List.sum_nil]
  omega

theorem formatTime_foldl (n : Nat) (bounded : (n : Int) ≤ UINT_MAX) :
    formatTime n = (counts n bounded).foldl Count.append [] := rfl

theorem Count.text_ne_nil (c : Count) : c.text ≠ [] := by simp [text]

theorem join_ne_nil {counts : List Count} (some_ : counts ≠ []) : join [u ' '] (counts.map Count.text) ≠ [] := by
  cases counts with
  | nil => exact absurd rfl some_
  | cons c counts =>
    cases counts with
    | nil => exact c.text_ne_nil
    | cons d counts => simp [join]

theorem foldl_append (counts : List Count) :
    counts.foldl Count.append [] = join [u ' '] ((counts.filter fun c => 0 < c.count).map Count.text) := by
  induction counts using List.reverseRecOn with
  | nil => rfl
  | append_singleton counts c ih =>
    rw [List.foldl_concat, ih, List.filter_append, List.map_append]
    by_cases positive : 0 < c.count
    · have shown : [c].filter (fun c => 0 < c.count) = [c] := by simp [positive]
      rw [Count.append, if_pos (by omega), appendDuration, shown]
      generalize counts.filter (fun c => 0 < c.count) = before
      by_cases none_ : before = []
      · rw [none_]
        rfl
      · rw [if_neg (join_ne_nil none_), List.map_singleton,
          join_append _ (by simpa using none_) (List.cons_ne_nil _ _), Count.text]
        simp [join]
    · have hidden : [c].filter (fun c => 0 < c.count) = [] := by simp [positive]
      rw [Count.append, if_neg (by omega), hidden, List.map_nil, List.append_nil]

/-- Counts of zero add nothing. -/
theorem filter_total (counts : List Count) :
    ((counts.filter fun c => 0 < c.count).map Count.total).sum = (counts.map Count.total).sum := by
  induction counts with
  | nil => rfl
  | cons c counts ih =>
    by_cases positive : 0 < c.count
    · simp [positive, ih]
    · have zero : c.total = 0 := by simp [Count.total, Nat.eq_zero_of_not_pos positive]
      simp [positive, ih, zero]

/-- A formatted time is read back as the seconds that it was written from. -/
theorem parseDurationToSeconds_formatTime (n : Int) (positive : 0 < n) (inRange : n ≤ INT_MAX)
    (noUnitMultiplier : UInt64) : parseDurationToSeconds (formatTime n) noUnitMultiplier = n := by
  obtain ⟨n, rfl⟩ := Int.eq_ofNat_of_zero_le (Int.le_of_lt positive)
  have bounded : (n : Int) ≤ UINT_MAX := Int.le_trans inRange (by decide)
  have total := (filter_total (counts n bounded)).trans (counts_total n bounded)
  rw [formatTime_foldl n bounded, foldl_append]
  generalize (counts n bounded).filter (fun c => 0 < c.count) = written at total
  have some_ : written ≠ [] := by
    rintro rfl
    rw [← total] at positive
    exact absurd positive (by decide)
  obtain ⟨first, parts, text, numbered, sum, ends⟩ := exists_parts some_
  rw [List.forall_mem_cons] at numbered
  rw [List.map_cons, List.sum_cons, total] at sum
  have begins : Stops isWhitespace (join [u ' '] (written.map Count.text)) := by
    obtain ⟨c, rest, shape, digit⟩ := head_of_number numbered.1 (parts.flatMap Part.text)
    rw [text, shape]
    exact stops_cons.mpr (isWhitespace_of_isDecimal digit)
  have trimmed : trimmedView (join [u ' '] (written.map Count.text)) = first.text ++ parts.flatMap Part.text :=
    (trim_stops begins ends).trans text
  have small : first.added + (parts.map Part.added).sum < 2 ^ 63 := by
    rw [sum]
    unfold INT_MAX at inRange
    omega
  rw [parseDurationToSeconds_parts trimmed numbered.2 small, sum]

theorem parseDurationToSeconds_formatTime_day : parseDurationToSeconds (formatTime 90061) 1 = 90061 :=
  parseDurationToSeconds_formatTime 90061 (by decide) (by decide) 1

end Forserino.Util
