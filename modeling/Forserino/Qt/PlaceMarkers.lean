import Forserino.Qt.Text

/-! QString::arg with a single argument. The markers %n and %Ln, with n from 1 to
99, are searched in the current string, so text that an earlier argument brought
in takes part in the next replacement.
-/

set_option autoImplicit false

namespace Forserino.Qt

/-- One or two digits behind the percent sign, and the length of the marker so far. -/
def markerNumber (offset : Nat) : QString → Option (Nat × Nat)
  | [] => none
  | [d] => if isDigit d then some (digitValue d, offset + 1) else none
  | d :: e :: _ =>
      if isDigit d then
        if isDigit e then some (10 * digitValue d + digitValue e, offset + 2)
        else some (digitValue d, offset + 1)
      else none

/-- Number and length of a marker that starts the string. -/
def markerAt : QString → Option (Nat × Nat)
  | [] => none
  | c :: rest =>
      if c = u '%' then
        let found := match rest with
          | [] => none
          | d :: tail => if d = u 'L' then markerNumber 2 tail else markerNumber 1 (d :: tail)
        found.filter (fun marker => 1 ≤ marker.1)
      else none

def markers : QString → List Nat
  | [] => []
  | c :: rest => ((markerAt (c :: rest)).map Prod.fst).toList ++ markers rest

/-- Replace every marker of number n; skip counts the units of a replaced marker
that are still to be dropped. -/
def replaceMarker (n : Nat) (a : QString) : Nat → QString → QString
  | _, [] => []
  | skip + 1, _ :: rest => replaceMarker n a skip rest
  | 0, c :: rest =>
      match markerAt (c :: rest) with
      | some (m, length) =>
          if m = n then a ++ replaceMarker n a (length - 1) rest
          else c :: replaceMarker n a 0 rest
      | none => c :: replaceMarker n a 0 rest

/-- QString::arg: all markers of the lowest number are replaced. Without a marker
Qt warns and returns the string as it is. -/
def QString.arg (s a : QString) : QString :=
  match (markers s).min? with
  | some n => replaceMarker n a 0 s
  | none => s

/-! ## Where a marker can end -/

/-- Text that cannot continue a marker standing in front of it. -/
def Boundary (t : QString) : Prop := ∀ c ∈ t.head?, c ≠ u 'L' ∧ isDigit c = false

theorem Boundary.cons {c : QChar} (rest : QString) (letter : c ≠ u 'L') (digit : isDigit c = false) :
    Boundary (c :: rest) := by
  intro d member
  simp only [List.head?_cons, Option.mem_some_iff] at member
  subst member
  exact ⟨letter, digit⟩

theorem markerNumber_append (offset : Nat) (s t : QString) (boundary : Boundary t) :
    markerNumber offset (s ++ t) = markerNumber offset s := by
  match s with
  | [] =>
    match t with
    | [] => rfl
    | [d] => simp [markerNumber, (boundary d (by simp)).2]
    | d :: e :: rest => simp [markerNumber, (boundary d (by simp)).2]
  | [d] =>
    match t with
    | [] => rfl
    | e :: rest => simp [markerNumber, (boundary e (by simp)).2]
  | d :: e :: rest => rfl

theorem markerAt_append (c : QChar) (s t : QString) (boundary : Boundary t) :
    markerAt (c :: s ++ t) = markerAt (c :: s) := by
  match s with
  | [] =>
    match t with
    | [] => rfl
    | d :: rest =>
      have stop := boundary d (by simp)
      have noDigit : markerNumber 1 (d :: rest) = none :=
        markerNumber_append 1 [] (d :: rest) boundary
      simp [markerAt, stop.1, noDigit]
  | d :: tail =>
    have afterLetter := markerNumber_append 2 tail t boundary
    have direct := markerNumber_append 1 (d :: tail) t boundary
    simp only [List.cons_append] at direct
    simp [markerAt, afterLetter, direct]

theorem markerAt_of_ne (c : QChar) (rest : QString) (other : c ≠ u '%') :
    markerAt (c :: rest) = none := by
  simp [markerAt, other]

theorem markerNumber_length {offset n length : Nat} {s : QString}
    (found : markerNumber offset s = some (n, length)) :
    length ≤ offset + s.length ∧ ∃ d rest, s = d :: rest ∧ isDigit d = true := by
  match s with
  | [] => simp [markerNumber] at found
  | [d] =>
    simp only [markerNumber, Option.ite_none_right_eq_some, Option.some.injEq, Prod.mk.injEq] at found
    exact ⟨by simp; omega, d, [], rfl, found.1⟩
  | d :: e :: rest =>
    simp only [markerNumber, Option.ite_none_right_eq_some] at found
    refine ⟨?_, d, e :: rest, rfl, found.1⟩
    have sized := found.2
    split at sized <;> simp only [Option.some.injEq, Prod.mk.injEq] at sized <;>
      simp only [List.length_cons] <;> omega

/-- A marker is a percent sign and then a digit or the letter L. -/
theorem markerAt_some {n length : Nat} {s : QString} (found : markerAt s = some (n, length)) :
    length ≤ s.length ∧
      ∃ d rest, s = u '%' :: d :: rest ∧ (d = u 'L' ∨ isDigit d = true) := by
  match s with
  | [] => simp [markerAt] at found
  | [c] => simp [markerAt] at found
  | c :: d :: rest =>
    by_cases percent : c = u '%'
    · subst percent
      by_cases letter : d = u 'L'
      · simp only [markerAt, if_true, letter, Option.filter_eq_some_iff] at found
        have sized := (markerNumber_length found.1).1
        exact ⟨by simp only [List.length_cons]; omega, d, rest, rfl, .inl letter⟩
      · simp only [markerAt, if_true, letter, if_false, Option.filter_eq_some_iff] at found
        obtain ⟨sized, e, tail, same, digit⟩ := markerNumber_length found.1
        obtain ⟨rfl, rfl⟩ := List.cons.inj same
        exact ⟨by simp only [List.length_cons] at sized ⊢; omega, d, rest, rfl, .inr digit⟩
    · rw [markerAt_of_ne c _ percent] at found
      cases found

/-! ## Markers of a concatenation -/

@[simp] theorem markers_nil : markers [] = [] := rfl

theorem markers_cons_of_ne (c : QChar) (rest : QString) (other : c ≠ u '%') :
    markers (c :: rest) = markers rest := by
  simp [markers, markerAt_of_ne c rest other]

theorem markers_append (s t : QString) (boundary : Boundary t) :
    markers (s ++ t) = markers s ++ markers t := by
  induction s with
  | nil => rfl
  | cons c s ih =>
    have same := markerAt_append c s t boundary
    simp only [List.cons_append] at same
    simp only [List.cons_append, markers, same, ih, List.append_assoc]

theorem replaceMarker_append (n : Nat) (a s t : QString) (skip : Nat) (within : skip ≤ s.length)
    (boundary : Boundary t) :
    replaceMarker n a skip (s ++ t) = replaceMarker n a skip s ++ replaceMarker n a 0 t := by
  induction s generalizing skip with
  | nil =>
    obtain rfl : skip = 0 := by simpa using within
    rfl
  | cons c s ih =>
    cases skip with
    | succ skip => exact ih skip (by simpa using within)
    | zero =>
      have same := markerAt_append c s t boundary
      simp only [List.cons_append] at same
      simp only [List.cons_append, replaceMarker, same]
      cases found : markerAt (c :: s) with
      | none => simp [ih 0 (Nat.zero_le _)]
      | some marker =>
        obtain ⟨m, length⟩ := marker
        have bound := (markerAt_some found).1
        simp only [List.length_cons] at bound
        by_cases equal : m = n
        · simp [equal, ih (length - 1) (by omega)]
        · simp [equal, ih 0 (Nat.zero_le _)]

theorem replaceMarker_of_not_mem (n : Nat) (a s : QString) (absent : n ∉ markers s) :
    replaceMarker n a 0 s = s := by
  induction s with
  | nil => rfl
  | cons c s ih =>
    simp only [markers, List.mem_append, not_or] at absent
    cases found : markerAt (c :: s) with
    | none => simp [replaceMarker, found, ih absent.2]
    | some marker =>
      have other : marker.1 ≠ n := by simpa [found, eq_comm] using absent.1
      simp [replaceMarker, found, other, ih absent.2]

/-- Up to the first marker of number n nothing changes, and there the argument starts. -/
theorem replaceMarker_first (n : Nat) (a s : QString) (present : n ∈ markers s) :
    ∃ before d rest after, s = before ++ u '%' :: d :: rest ∧ (d = u 'L' ∨ isDigit d = true) ∧
      replaceMarker n a 0 s = before ++ a ++ after := by
  induction s with
  | nil => simp at present
  | cons c s ih =>
    by_cases here : ∃ length, markerAt (c :: s) = some (n, length)
    · obtain ⟨length, found⟩ := here
      obtain ⟨_, d, rest, shape, start⟩ := markerAt_some found
      exact ⟨[], d, rest, replaceMarker n a (length - 1) s, shape, start, by simp [replaceMarker, found]⟩
    · have later : n ∈ markers s := by
        simp only [markers, List.mem_append] at present
        refine present.resolve_left fun now => here ?_
        cases found : markerAt (c :: s) with
        | none => simp [found] at now
        | some marker => exact ⟨marker.2, by simpa [found, eq_comm, Prod.ext_iff] using now⟩
      have copied : replaceMarker n a 0 (c :: s) = c :: replaceMarker n a 0 s := by
        rw [replaceMarker]
        split
        · next m length found =>
          rw [if_neg]
          rintro rfl
          exact here ⟨length, found⟩
        · rfl
      obtain ⟨before, d, rest, after, shape, start, replaced⟩ := ih later
      exact ⟨c :: before, d, rest, after, by simp [shape], start, by simp [copied, replaced]⟩

/-! ## The argument that arg replaces -/

theorem arg_eq (n : Nat) (s a : QString) (present : n ∈ markers s)
    (least : ∀ m ∈ markers s, n ≤ m) : s.arg a = replaceMarker n a 0 s := by
  have lowest : (markers s).min? = some n := by
    rw [List.min?_eq_some_iff]
    exact ⟨present, least⟩
  simp [QString.arg, lowest]

/-- The marker that arg replaces is behind all of front, whose markers are higher. -/
theorem arg_behind (n : Nat) (front rest a : QString) (boundary : Boundary rest)
    (present : n ∈ markers rest) (least : ∀ m ∈ markers rest, n ≤ m) (higher : ∀ m ∈ markers front, n < m) :
    QString.arg (front ++ rest) a = front ++ replaceMarker n a 0 rest := by
  have all := markers_append front rest boundary
  have absent : n ∉ markers front := fun member => Nat.lt_irrefl n (higher n member)
  rw [arg_eq n, replaceMarker_append _ _ _ _ _ (Nat.zero_le _) boundary, replaceMarker_of_not_mem _ _ _ absent]
  · rw [all]
    exact List.mem_append_right _ present
  · intro m member
    rw [all] at member
    rcases List.mem_append.mp member with before | behind
    · exact Nat.le_of_lt (higher m before)
    · exact least m behind

/-- The marker that arg replaces is in front, and the rest is no matter there. -/
theorem arg_before (n : Nat) (front rest a : QString) (boundary : Boundary rest)
    (present : n ∈ markers front) (least : ∀ m ∈ markers front ++ markers rest, n ≤ m) :
    QString.arg (front ++ rest) a = replaceMarker n a 0 front ++ replaceMarker n a 0 rest := by
  have all := markers_append front rest boundary
  rw [arg_eq n, replaceMarker_append _ _ _ _ _ (Nat.zero_le _) boundary]
  · rw [all]
    exact List.mem_append_left _ present
  · rw [all]
    exact least

/-- Whatever the markers are, arg replaces those of one number or none at all. -/
theorem arg_cases (s a : QString) : s.arg a = s ∨ ∃ n ∈ markers s, s.arg a = replaceMarker n a 0 s := by
  unfold QString.arg
  split
  · next n lowest => exact .inr ⟨n, List.min?_mem lowest, rfl⟩
  · exact .inl rfl

end Forserino.Qt
