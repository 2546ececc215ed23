import Forserino.Qt.Text

/-! The values of message tags, whose escapes parseTagString takes back in place.
-/

set_option autoImplicit false

namespace Forserino.Util

open Qt

/-- QChar::cell, the lower half of the unit -/
def cell (c : QChar) : UInt8 := c.toUInt8

/-- The cases of the switch; the default one keeps the unit. -/
def unescapedCell (cell : UInt8) : Option QChar :=
  if cell = (u 'n').toUInt8 then some (u '\n')
  else if cell = (u 'r').toUInt8 then some (u '\r')
  else if cell = (u 's').toUInt8 then some (u ' ')
  else if cell = (u '\\').toUInt8 then some (u '\\')
  else if cell = (u ':').toUInt8 then some (u ';')
  else none

/-- The loop of parseTagString from i on; a unit that was put in is behind it, as i moves on all the same. -/
def parseTagStringFrom (output : QString) (i length : Nat) : QString :=
  if i + 1 < length then
    if output[i]? = some (u '\\') then
      match (output[i + 1]?).bind fun c => unescapedCell (cell c) with
      | some unit => parseTagStringFrom (output.take i ++ unit :: output.drop (i + 2)) (i + 1) (length - 1)
      | none => parseTagStringFrom (output.take i ++ output.drop (i + 1)) (i + 1) (length - 1)
    else parseTagStringFrom output (i + 1) length
  else output
termination_by length - i

def parseTagString (input : QString) : QString := parseTagStringFrom input 0 input.length

/-! ## Escapes as they are meant -/

/-- The unit that is written behind a backslash. -/
def escapeUnit? (c : QChar) : Option QChar :=
  if c = u ';' then some (u ':')
  else if c = u ' ' then some (u 's')
  else if c = u '\\' then some (u '\\')
  else if c = u '\r' then some (u 'r')
  else if c = u '\n' then some (u 'n')
  else none

def escape (s : QString) : QString :=
  s.flatMap fun c => match escapeUnit? c with
    | some unit => [u '\\', unit]
    | none => [c]

/-- What a unit behind a backslash stands for. -/
def unescapeUnit (c : QChar) : QChar :=
  if c = u 'n' then u '\n'
  else if c = u 'r' then u '\r'
  else if c = u 's' then u ' '
  else if c = u '\\' then u '\\'
  else if c = u ':' then u ';'
  else c

/-- One pass from left to right in which a pair yields what stand reads in its second unit. -/
def pass (stand : QChar → QChar) : QString → QString
  | [] => []
  | [c] => [c]
  | c :: d :: rest => if c = u '\\' then stand d :: pass stand rest else c :: pass stand (d :: rest)

/-- The pass that yields what was escaped. -/
def unescape (s : QString) : QString := pass unescapeUnit s

/-- The units that the pass finds behind a backslash. -/
def pairedUnits : QString → List QChar
  | [] => []
  | [_] => []
  | c :: d :: rest => if c = u '\\' then d :: pairedUnits rest else pairedUnits (d :: rest)

/-- No unit behind a backslash has only its cell in common with one of the escapes. -/
def NotMistaken (s : QString) : Prop := ∀ c ∈ pairedUnits s, 256 ≤ c.toNat → unescapedCell (cell c) = none

instance (s : QString) : Decidable (NotMistaken s) := inferInstanceAs (Decidable (∀ _ ∈ _, _))

variable {c : QChar} {s rest : QString}

/-! ## What the loop computes -/

/-- What the loop reads in the unit behind a backslash. -/
def readUnit (c : QChar) : QChar := (unescapedCell (cell c)).getD c

theorem readUnit_some {unit : QChar} (known : unescapedCell (cell c) = some unit) : readUnit c = unit := by
  rw [readUnit, known, Option.getD_some]

theorem readUnit_none (unknown : unescapedCell (cell c) = none) : readUnit c = c := by
  rw [readUnit, unknown, Option.getD_none]

theorem parseTagStringFrom_end (output : QString) {i length : Nat} (ended : length ≤ i + 1) :
    parseTagStringFrom output i length = output := by
  rw [parseTagStringFrom, if_neg (Nat.not_lt.mpr ended)]

/-- One turn of the loop at a pair. -/
theorem parseTagStringFrom_pair (front : QString) (c : QChar) (rest : QString) :
    parseTagStringFrom (front ++ u '\\' :: c :: rest) front.length (front ++ u '\\' :: c :: rest).length =
      parseTagStringFrom ((front ++ [readUnit c]) ++ rest) (front ++ [readUnit c]).length
        ((front ++ [readUnit c]) ++ rest).length := by
  have inside : front.length + 1 < (front ++ u '\\' :: c :: rest).length := by
    rw [List.length_append, List.length_cons, List.length_cons]
    omega
  have first : (front ++ u '\\' :: c :: rest)[front.length]? = some (u '\\') := by simp
  have second : (front ++ u '\\' :: c :: rest)[front.length + 1]? = some c := by simp
  rw [parseTagStringFrom, if_pos inside, if_pos first, second, Option.bind_some]
  cases known : unescapedCell (cell c) with
  | some unit =>
    have dropped : (front ++ u '\\' :: c :: rest).drop (front.length + 2) = rest := by simp
    simp [readUnit_some known, dropped]
  | none =>
    have dropped : (front ++ u '\\' :: c :: rest).drop (front.length + 1) = c :: rest := by simp
    simp [readUnit_none known, dropped]

/-- One turn of the loop at any other unit. -/
theorem parseTagStringFrom_other (front : QString) (d : QChar) (rest : QString) (other : c ≠ u '\\') :
    parseTagStringFrom (front ++ c :: d :: rest) front.length (front ++ c :: d :: rest).length =
      parseTagStringFrom ((front ++ [c]) ++ d :: rest) (front ++ [c]).length
        ((front ++ [c]) ++ d :: rest).length := by
  have inside : front.length + 1 < (front ++ c :: d :: rest).length := by
    rw [List.length_append, List.length_cons, List.length_cons]
    omega
  have first : (front ++ c :: d :: rest)[front.length]? ≠ some (u '\\') := by simp [other]
  rw [parseTagStringFrom, if_pos inside, if_neg first]
  simp

/-- What is in front of i is not read again. -/
theorem parseTagStringFrom_eq (front rest : QString) :
    parseTagStringFrom (front ++ rest) front.length (front ++ rest).length = front ++ pass readUnit rest := by
  induction rest using pass.induct generalizing front with
  | case1 => rw [parseTagStringFrom_end _ (by simp), pass]
  | case2 c => rw [parseTagStringFrom_end _ (by simp), pass]
  | case3 d rest ih =>
    rw [parseTagStringFrom_pair, ih, pass, if_pos rfl, List.append_assoc, List.singleton_append]
  | case4 c d rest other ih =>
    rw [parseTagStringFrom_other front d rest other, ih, pass, if_neg other, List.append_assoc, List.singleton_append]

theorem parseTagString_eq (input : QString) : parseTagString input = pass readUnit input :=
  parseTagStringFrom_eq [] input

/-! ## Against the escapes -/

/-- The passes yield the same exactly where they read the same in every paired unit. -/
theorem pass_eq_iff (read stand : QChar → QChar) (s : QString) :
    pass read s = pass stand s ↔ ∀ c ∈ pairedUnits s, read c = stand c := by
  induction s using pairedUnits.induct with
  | case1 => simp [pass, pairedUnits]
  | case2 c => simp [pass, pairedUnits]
  | case3 d rest ih => simp [pass, pairedUnits, ih]
  | case4 c d rest other ih => simp [pass, pairedUnits, other, ih]

/-- Units of one byte are told apart by their cells. -/
theorem cell_eq_iff {d : QChar} (small : c.toNat < 256) (small' : d.toNat < 256) :
    cell c = d.toUInt8 ↔ c = d := by
  rw [cell, ← UInt8.toNat_inj, ← UInt16.toNat_inj, UInt16.toNat_toUInt8, UInt16.toNat_toUInt8,
    Nat.mod_eq_of_lt small, Nat.mod_eq_of_lt small']

theorem readUnit_small (small : c.toNat < 256) : readUnit c = unescapeUnit c := by
  have same (d : QChar) (small' : d.toNat < 256) := cell_eq_iff small small'
  rw [readUnit, unescapedCell, unescapeUnit, if_congr (same (u 'n') (by decide)) rfl rfl,
    if_congr (same (u 'r') (by decide)) rfl rfl, if_congr (same (u 's') (by decide)) rfl rfl,
    if_congr (same (u '\\') (by decide)) rfl rfl, if_congr (same (u ':') (by decide)) rfl rfl]
  split_ifs <;> rfl

theorem unescapedCell_small {unit : QChar} {lower : UInt8} (known : unescapedCell lower = some unit) :
    unit.toNat < 256 := by
  unfold unescapedCell at known
  split_ifs at known <;> cases known <;> decide

/-- A unit of two bytes is none of the escapes. -/
theorem unescapeUnit_large (large : 256 ≤ c.toNat) : unescapeUnit c = c := by
  have other (d : QChar) (small : d.toNat < 256) : c ≠ d := by
    rintro rfl
    omega
  rw [unescapeUnit, if_neg (other _ (by decide)), if_neg (other _ (by decide)), if_neg (other _ (by decide)),
    if_neg (other _ (by decide)), if_neg (other _ (by decide))]

theorem readUnit_eq_iff : readUnit c = unescapeUnit c ↔ (256 ≤ c.toNat → unescapedCell (cell c) = none) := by
  rcases Nat.lt_or_ge c.toNat 256 with small | large
  · simp [readUnit_small small, Nat.not_le.mpr small]
  · rw [unescapeUnit_large large]
    cases known : unescapedCell (cell c) with
    | none => simp [readUnit_none known]
    | some unit =>
      -- the escape that was read is a unit of one byte
      have small := unescapedCell_small known
      rw [readUnit_some known]
      simp only [large, reduceCtorEq, imp_false, not_true_eq_false, iff_false]
      rintro rfl
      omega

theorem parseTagString_iff (input : QString) : parseTagString input = unescape input ↔ NotMistaken input := by
  rw [parseTagString_eq, unescape, pass_eq_iff]
  exact forall₂_congr fun c _ => readUnit_eq_iff

theorem pass_cons (stand : QChar → QChar) (other : c ≠ u '\\') (rest : QString) :
    pass stand (c :: rest) = c :: pass stand rest := by
  cases rest with
  | nil => rfl
  | cons d rest => rw [pass, if_neg other]

theorem readUnit_escapeUnit {unit : QChar} (escaped : escapeUnit? c = some unit) : readUnit unit = c := by
  unfold escapeUnit? at escaped
  split_ifs at escaped with semicolon space backslash cr lf <;> cases escaped <;> subst c <;> decide

theorem ne_backslash_of_escapeUnit (kept : escapeUnit? c = none) : c ≠ u '\\' := by
  rintro rfl
  exact absurd kept (by decide)

theorem parseTagString_escape (s : QString) : parseTagString (escape s) = s := by
  rw [parseTagString_eq]
  induction s with
  | nil => rfl
  | cons c s ih =>
    rw [escape, List.flatMap_cons, ← escape]
    cases escaped : escapeUnit? c with
    | some unit =>
      show pass readUnit (u '\\' :: unit :: escape s) = c :: s
      rw [pass, if_pos rfl, readUnit_escapeUnit escaped, ih]
    | none =>
      show pass readUnit (c :: escape s) = c :: s
      rw [pass_cons readUnit (ne_backslash_of_escapeUnit escaped), ih]

/-- Escaped tags are read back, and a text is read in one pass exactly if no unit behind a
backslash has only its cell in common with one of the escapes. -/
theorem parseTagString_undoes_escapes (s input : QString) :
    parseTagString (escape s) = s ∧ (parseTagString input = unescape input ↔ NotMistaken input) :=
  ⟨parseTagString_escape s, parseTagString_iff input⟩

/-- A backslash in front of U+016E, whose cell is that of the letter n. -/
theorem parseTagString_mistakes_cell :
    ¬ ((∀ s, parseTagString (escape s) = s) ∧ ∀ input, parseTagString input = unescape input) := by
  rintro ⟨-, onePass⟩
  exact absurd ((parseTagString_iff [u '\\', 0x016E]).mp (onePass _)) (by decide)

end Forserino.Util
