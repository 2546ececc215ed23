import Mathlib.Data.List.Basic

/-! The part of QString that the modelled code uses. A string is the list of its
UTF-16 code units, so every position is an index of a unit, as in the source.
-/

set_option autoImplicit false

namespace Forserino.Qt

abbrev QChar := UInt16

abbrev QString := List QChar

/-- What is said of the units of a text is decided on the text, and not on all units there are. -/
instance (priority := high) decidableUnits {p : QChar → Prop} [DecidablePred p] (s : QString) :
    Decidable (∀ c ∈ s, p c) := List.decidableBAll p s

instance (priority := high) decidableUnit {p : QChar → Prop} [DecidablePred p] (unit : Option QChar) :
    Decidable (∀ c ∈ unit, p c) := Option.decidableForallMem unit

/-- Texts that compare as equal are equal, whichever list they are looked up in. -/
instance lawfulUnits : LawfulBEq QString := inferInstance

/-- A character literal of the source. -/
def u (c : Char) : QChar := UInt16.ofNat c.toNat

/-- A string literal of the source; every literal of the modelled code is ASCII. -/
def qs (s : String) : QString := s.toList.map u

theorem qs_ofList (characters : List Char) : qs (String.ofList characters) = characters.map u := by
  rw [qs, String.toList_ofList]

/-- The characters of a literal are quicker to compute with than the literal itself. -/
theorem forall_literals {p : QString → Prop} {characters : List Char} {others : List QString}
    (first : p (characters.map u)) (rest : ∀ s ∈ others, p s) : ∀ s ∈ qs (String.ofList characters) :: others, p s := by
  rw [List.forall_mem_cons, qs_ofList]
  exact ⟨first, rest⟩

/-- The units are told apart by their numbers. -/
theorem map_toNat_inj {s t : QString} : s.map UInt16.toNat = t.map UInt16.toNat ↔ s = t :=
  ⟨fun same => List.map_injective_iff.mpr (fun _ _ => UInt16.toNat_inj.mp) same, congrArg _⟩

def QString.mid (s : QString) (position : Nat) : QString := s.drop position

/-- QString::mid(position, n) -/
def QString.midN (s : QString) (position n : Nat) : QString := (s.drop position).take n

/-- QString::split(separator), which keeps empty parts. -/
def QString.split (s : QString) (separator : QChar) : List QString := s.splitOn separator

def QString.chop (s : QString) (n : Nat) : QString := s.take (s.length - n)

def QString.startsWith (s start : QString) : Bool := start.isPrefixOf s

/-- QString::replace(before, after). After a match the scan goes on behind it,
so skip counts the units of the match that are still to be dropped. -/
def replaceFrom (before after : QString) : Nat → QString → QString
  | _, [] => []
  | skip + 1, _ :: rest => replaceFrom before after skip rest
  | 0, c :: rest =>
      if before.isPrefixOf (c :: rest) then
        after ++ replaceFrom before after (before.length - 1) rest
      else c :: replaceFrom before after 0 rest

def QString.replace (s before after : QString) : QString := replaceFrom before after 0 s

/-- QStringList::join -/
def join (separator : QString) : List QString → QString
  | [] => []
  | [s] => s
  | s :: t :: rest => s ++ separator ++ join separator (t :: rest)

theorem join_eq_intercalate (c : QChar) (parts : List QString) :
    join [c] parts = [c].intercalate parts := by
  induction parts with
  | nil => rfl
  | cons s rest ih =>
    cases rest with
    | nil => simp [join]
    | cons t rest =>
      rw [join, ih, List.intercalate_cons_cons]

theorem join_append (separator : QString) {front back : List QString} (some_ : front ≠ []) (more : back ≠ []) :
    join separator (front ++ back) = join separator front ++ separator ++ join separator back := by
  induction front with
  | nil => exact absurd rfl some_
  | cons s front ih =>
    cases front with
    | nil =>
      cases back with
      | nil => exact absurd rfl more
      | cons t back => rfl
    | cons s' front =>
      have later := ih (List.cons_ne_nil _ _)
      simp only [List.cons_append, join, List.append_assoc] at later ⊢
      rw [later]

theorem split_ne_nil (c : QChar) (s : QString) : s.split c ≠ [] := List.splitOn_ne_nil c s

theorem intercalate_split (c : QChar) (s : QString) : [c].intercalate (s.split c) = s :=
  List.intercalate_splitOn c

/-- No part of a split list has the separator. -/
theorem notMem_of_mem_splitOn {α : Type} [DecidableEq α] (c : α) (s : List α) : ∀ part ∈ s.splitOn c, c ∉ part := by
  induction s with
  | nil => simp
  | cons x rest ih =>
    rw [List.splitOn_cons_eq_if_modifyHead]
    obtain ⟨first, others, shape⟩ := List.exists_cons_of_ne_nil (List.splitOn_ne_nil c rest)
    rw [shape] at ih ⊢
    by_cases separator : x = c
    · subst separator
      simpa using ih
    · have other : c ≠ x := fun same => separator same.symm
      rw [List.forall_mem_cons] at ih
      simpa [separator, other] using ih

theorem split_plain (c : QChar) (s : QString) : ∀ part ∈ s.split c, c ∉ part := notMem_of_mem_splitOn c s

theorem join_free (c : QChar) (separator : QString) (parts : List QString)
    (separatorFree : c ∉ separator) (free : ∀ s ∈ parts, c ∉ s) : c ∉ join separator parts := by
  induction parts with
  | nil => exact List.not_mem_nil
  | cons s rest ih =>
    rw [List.forall_mem_cons] at free
    cases rest with
    | nil => exact free.1
    | cons t rest =>
      rw [join, List.append_assoc]
      simp only [List.mem_append, free.1, separatorFree, ih free.2, or_self, not_false_eq_true]

/-- Parts that are free of the separator come back from their joined text. -/
theorem split_join (c : QChar) (parts : List QString) (nonempty : parts ≠ [])
    (free : ∀ s ∈ parts, c ∉ s) : (join [c] parts).split c = parts := by
  rw [join_eq_intercalate, QString.split]
  exact List.splitOn_intercalate c free nonempty

theorem split_free (c : QChar) (s : QString) (free : c ∉ s) : s.split c = [s] :=
  List.splitOn_eq_singleton free

theorem split_append (c : QChar) (front back : QString) (free : c ∉ front) :
    (front ++ c :: back).split c = front :: back.split c :=
  List.splitOn_append_cons_self_of_not_mem free back

/-! ## Decimal integers -/

def isDigit (c : QChar) : Bool := 48 ≤ c.toNat && c.toNat ≤ 57

def digitValue (c : QChar) : Nat := c.toNat - 48

def digitChar (d : Nat) : QChar := UInt16.ofNat (48 + d)

def INT_MIN : Int := -2147483648

def INT_MAX : Int := 2147483647

def UINT_MAX : Int := 4294967295

def inIntRange (n : Int) : Bool := INT_MIN ≤ n && n ≤ INT_MAX

theorem inIntRange_iff {n : Int} : inIntRange n = true ↔ INT_MIN ≤ n ∧ n ≤ INT_MAX := by
  simp [inIntRange]

/-- Decimal digits of n in front of acc; n + 1 is enough fuel. -/
def decimal : Nat → Nat → QString → QString
  | 0, _, acc => acc
  | fuel + 1, n, acc =>
      if n / 10 = 0 then digitChar (n % 10) :: acc
      else decimal fuel (n / 10) (digitChar (n % 10) :: acc)

/-- QString::number -/
def number (n : Int) : QString :=
  if n < 0 then u '-' :: decimal (n.natAbs + 1) n.natAbs [] else decimal (n.natAbs + 1) n.natAbs []

def decimalValue (acc : Nat) (s : QString) : Nat :=
  s.foldl (fun acc c => 10 * acc + digitValue c) acc

def isSpace (c : QChar) : Bool := c == u ' ' || (9 ≤ c.toNat && c.toNat ≤ 13)

def trimmed (s : QString) : QString :=
  ((s.dropWhile isSpace).reverse.dropWhile isSpace).reverse

def toUInt (s : QString) : Option Nat :=
  if s ≠ [] ∧ s.all isDigit then some (decimalValue 0 s) else none

/-- A decimal integer with an optional sign and surrounding blanks, unless it is out
of the range of the C++ type. -/
def toIntegral (inRange : Int → Bool) (s : QString) : Option Int :=
  let value : Option Int :=
    match trimmed s with
    | [] => none
    | c :: rest =>
        if c = u '-' then (toUInt rest).map (fun n : Nat => -(n : Int))
        else if c = u '+' then (toUInt rest).map (fun n : Nat => (n : Int))
        else (toUInt (c :: rest)).map (fun n : Nat => (n : Int))
  value.filter inRange

/-- QString::toInt with its success flag. -/
def QString.toInt (s : QString) : Option Int := toIntegral inIntRange s

/-- QString::toLongLong with its success flag. -/
def QString.toLongLong (s : QString) : Option Int :=
  toIntegral (fun n => -9223372036854775808 ≤ n && n ≤ 9223372036854775807) s

/-- QString::toUInt without its success flag: a text that is no uint gives 0. -/
def QString.toUInt (s : QString) : Nat :=
  ((toIntegral (fun n => 0 ≤ n && n ≤ UINT_MAX) s).getD 0).toNat

theorem toNat_digitChar (d : Nat) (small : d < 10) : (digitChar d).toNat = 48 + d := by
  unfold digitChar
  rw [UInt16.toNat_ofNat']
  omega

@[simp] theorem digitValue_digitChar (d : Nat) (small : d < 10) : digitValue (digitChar d) = d := by
  rw [digitValue, toNat_digitChar d small]
  omega

theorem isDigit_digitChar (d : Nat) (small : d < 10) : isDigit (digitChar d) = true := by
  have value := toNat_digitChar d small
  simp only [isDigit, value, Bool.and_eq_true, decide_eq_true_eq]
  omega

theorem decimal_digits (fuel n : Nat) (acc : QString) (digits : acc.all isDigit = true) :
    (decimal fuel n acc).all isDigit = true := by
  induction fuel generalizing n acc with
  | zero => exact digits
  | succ fuel ih =>
    have head := isDigit_digitChar (n % 10) (Nat.mod_lt _ (by decide))
    have extended : (digitChar (n % 10) :: acc).all isDigit = true := by simp [head, digits]
    rw [decimal]
    split
    · exact extended
    · exact ih _ _ extended

theorem decimal_ne_nil (fuel n : Nat) (acc : QString) (nonempty : acc ≠ [] ∨ 0 < fuel) :
    decimal fuel n acc ≠ [] := by
  induction fuel generalizing n acc with
  | zero => simpa [decimal] using nonempty
  | succ fuel ih =>
    rw [decimal]
    split
    · simp
    · exact ih _ _ (.inl (by simp))

/-- The characters of a printed number; a sign is printed for negative ones only. -/
theorem number_chars (n : Int) {c : QChar} (member : c ∈ number n) :
    isDigit c = true ∨ (c = u '-' ∧ n < 0) := by
  have digits {k : Nat} (inside : c ∈ decimal (k + 1) k []) : isDigit c = true :=
    List.all_eq_true.mp (decimal_digits (k + 1) k [] rfl) c inside
  unfold number at member
  split at member
  · next negative =>
    rcases List.mem_cons.mp member with isMinus | inside
    · exact .inr ⟨isMinus, negative⟩
    · exact .inl (digits inside)
  · exact .inl (digits member)

theorem number_ne_nil (n : Int) : number n ≠ [] := by
  unfold number
  split
  · exact fun impossible => nomatch impossible
  · exact decimal_ne_nil _ _ _ (.inr (Nat.succ_pos _))

theorem decimalValue_decimal (fuel n : Nat) (rest : QString) (enough : n < fuel) :
    decimalValue 0 (decimal fuel n rest) = decimalValue n rest := by
  induction fuel generalizing n rest with
  | zero => omega
  | succ fuel ih =>
    have digit : digitValue (digitChar (n % 10)) = n % 10 :=
      digitValue_digitChar _ (Nat.mod_lt _ (by decide))
    rw [decimal]
    split
    · next small =>
      have same : 10 * 0 + n % 10 = n := by omega
      simp only [decimalValue, List.foldl_cons, digit, same]
    · next large =>
      have recombined : 10 * (n / 10) + n % 10 = n := by omega
      rw [ih (n / 10) _ (by omega)]
      simp only [decimalValue, List.foldl_cons, digit, recombined]

theorem isSpace_of_isDigit (c : QChar) (digit : isDigit c = true) : isSpace c = false := by
  have bounds : 48 ≤ c.toNat ∧ c.toNat ≤ 57 := by simpa [isDigit] using digit
  have blank : c ≠ u ' ' := by
    rintro rfl
    exact absurd bounds.1 (by decide)
  have control : ¬ c.toNat ≤ 13 := by omega
  simp [isSpace, blank, control]

theorem trimmed_digits (s : QString) (digits : s.all isDigit = true) : trimmed s = s := by
  have keep : ∀ t : QString, t.all isDigit = true → t.dropWhile isSpace = t := by
    intro t all
    cases t with
    | nil => rfl
    | cons c rest =>
      simp only [List.all_cons, Bool.and_eq_true] at all
      simp [isSpace_of_isDigit c all.1]
  rw [trimmed, keep s digits, keep s.reverse (by simpa using digits), List.reverse_reverse]

/-- Digits are read as their value, if that is in the range. -/
theorem toIntegral_digits (inRange : Int → Bool) {s : QString} (nonempty : s ≠ []) (digits : s.all isDigit = true) :
    toIntegral inRange s = (some (decimalValue 0 s : Int)).filter inRange := by
  rw [toIntegral, trimmed_digits _ digits]
  cases s with
  | nil => exact absurd rfl nonempty
  | cons c rest =>
    have head : isDigit c = true := by simp only [List.all_cons, Bool.and_eq_true] at digits; exact digits.1
    have notMinus : c ≠ u '-' := by rintro rfl; exact absurd head (by decide)
    have notPlus : c ≠ u '+' := by rintro rfl; exact absurd head (by decide)
    simp [notMinus, notPlus, toUInt, digits]

/-- Printing and reading back a non-negative number is the identity. -/
theorem toIntegral_number (inRange : Int → Bool) (n : Nat) (range : inRange n = true) :
    toIntegral inRange (number n) = some (n : Int) := by
  have digits : (decimal (n + 1) n []).all isDigit = true := decimal_digits _ _ _ rfl
  have nonempty : decimal (n + 1) n [] ≠ [] := decimal_ne_nil _ _ _ (.inr (by omega))
  have value : decimalValue 0 (decimal (n + 1) n []) = n := by
    rw [decimalValue_decimal _ _ _ (Nat.lt_succ_self n)]
    rfl
  have printed : number n = decimal (n + 1) n [] := by
    simp [number]
  rw [printed, toIntegral_digits inRange nonempty digits, value]
  simp [range]

theorem toInt_number (n : Nat) (bounded : (n : Int) ≤ INT_MAX) :
    QString.toInt (number n) = some (n : Int) := by
  apply toIntegral_number
  exact inIntRange_iff.mpr ⟨by unfold INT_MIN; omega, bounded⟩

theorem toUInt_number (n : Nat) (bounded : (n : Int) ≤ UINT_MAX) :
    QString.toUInt (number n) = n := by
  have nonnegative : (0 : Int) ≤ n := Int.natCast_nonneg n
  rw [QString.toUInt, toIntegral_number _ n (by simp [nonnegative, bounded]), Option.getD_some,
    Int.toNat_natCast]

theorem trimmed_subset (s : QString) : trimmed s ⊆ s := by
  intro c member
  have inner := (List.dropWhile_sublist _).subset (List.mem_reverse.mp member)
  exact (List.dropWhile_sublist _).subset (List.mem_reverse.mp inner)

/-- A number that is read without a minus sign is not negative, and it has a digit. -/
theorem toInt_plain {s : QString} {n : Int} (found : QString.toInt s = some n) :
    inIntRange n = true ∧ (∃ c ∈ s, isDigit c = true) ∧ (u '-' ∉ s → 0 ≤ n) := by
  rw [QString.toInt, toIntegral, Option.filter_eq_some_iff] at found
  obtain ⟨value, range⟩ := found
  have inside := trimmed_subset s
  have digits {t : QString} {k : Nat} (read : toUInt t = some k) (part : t ⊆ trimmed s) : ∃ c ∈ s, isDigit c = true := by
    unfold toUInt at read
    split at read
    · next both =>
      obtain ⟨nonempty, all⟩ := both
      cases t with
      | nil => exact absurd rfl nonempty
      | cons c t =>
        have first := List.mem_cons_self (a := c) (l := t)
        exact ⟨c, inside (part first), List.all_eq_true.mp all c first⟩
    · cases read
  split at value
  · cases value
  · next c rest shape =>
    rw [shape] at digits inside
    have tail : rest ⊆ c :: rest := List.subset_cons_self c rest
    split at value
    · next isMinus =>
      obtain ⟨k, read, rfl⟩ := Option.map_eq_some_iff.mp value
      exact ⟨range, digits read tail, fun absent => absurd (inside (isMinus ▸ List.mem_cons_self ..)) absent⟩
    · split at value
      · obtain ⟨k, read, rfl⟩ := Option.map_eq_some_iff.mp value
        exact ⟨range, digits read tail, fun _ => Int.natCast_nonneg k⟩
      · obtain ⟨k, read, rfl⟩ := Option.map_eq_some_iff.mp value
        exact ⟨range, digits read (List.Subset.refl _), fun _ => Int.natCast_nonneg k⟩

end Forserino.Qt
