import Forserino.Qt.Json
import Forserino.Qt.Utf16

/-! The link that is read from the answer of the upload service. The loop fills in one placeholder of the pattern after
the other, also those that came in with a value; it ends exactly if the placeholders have a full expansion.
-/

set_option autoImplicit false

namespace Forserino.Images

open Qt

/-! ## The loop -/

/-- A low surrogate is expected or not; the text has none without a high one, and no high one without it. -/
def validFrom : Bool → QString → Bool
  | expected, [] => !expected
  | true, c :: rest => isLowSurrogate c && validFrom false rest
  | false, c :: rest => !isLowSurrogate c && validFrom (0xD800 ≤ c.toNat && c.toNat < 0xDC00) rest

/-- Other texts match no regular expression. -/
def isValidUtf16 (s : QString) : Bool := validFrom false s

/-- The fewest units, but at least one, up to a closing brace. The dot matches no line feed. -/
def capture : QString → Option QString
  | [] => none
  | c :: rest =>
    if c = 10 then none
    else if rest.head? = some (u '}') then some [c]
    else (capture rest).map (c :: ·)

/-- What is captured by the first match of \{(.+)\}, with inverted greediness. -/
def searchPlaceholder : QString → Option QString
  | [] => none
  | c :: rest => if c = u '{' then (capture rest).or (searchPlaceholder rest) else searchPlaceholder rest

def matchPlaceholder (pattern : QString) : Option QString :=
  if isValidUtf16 pattern then searchPlaceholder pattern else none

def getJSONValue (responseJson : QJsonValue) (jsonPattern : QString) : QString :=
  QJsonValue.toString
    ((jsonPattern.split (u '.')).foldl (fun json key => (QJsonValue.toObject json).value key) (some responseJson))

/-- The text of a match, which is replaced wherever it occurs. -/
def braced (captured : QString) : QString := u '{' :: captured ++ [u '}']

/-- The loop, unless it takes more passes than the fuel allows. -/
def getLinkFromResponse (responseJson : QJsonValue) : Nat → QString → Option QString
  | 0, _ => none
  | fuel + 1, pattern =>
    match matchPlaceholder pattern with
    | none => some pattern
    | some captured =>
      getLinkFromResponse responseJson fuel
        (pattern.replace (braced captured) (getJSONValue responseJson captured))

/-! ## Templates and their expansion -/

inductive Piece where
  | text (s : QString)
  | placeholder (key : QString)
  deriving DecidableEq, Repr

def Piece.source : Piece → QString
  | .text s => s
  | .placeholder key => braced key

def source (pieces : List Piece) : QString := pieces.flatMap Piece.source

/-- A key without braces. -/
structure PlainKey (key : QString) : Prop where
  some_ : key ≠ []
  opened : u '{' ∉ key
  closed : u '}' ∉ key
  line : 10 ∉ key
  valid : isValidUtf16 key = true

def Piece.Plain (keys : QString → Prop) : Piece → Prop
  | .text s => u '{' ∉ s ∧ isValidUtf16 s = true
  | .placeholder key => keys key

/-- The values of the keys are templates over the keys. -/
structure Templates (responseJson : QJsonValue) (keys : QString → Prop) (values : QString → List Piece) : Prop where
  plain : ∀ key, keys key → PlainKey key
  value : ∀ key, keys key → getJSONValue responseJson key = source (values key)
  pieces : ∀ key, keys key → ∀ piece ∈ values key, piece.Plain keys

/-- The pieces expand to the text, by as many replacements. -/
inductive Expands (values : QString → List Piece) : Nat → List Piece → QString → Prop where
  | nil : Expands values 0 [] []
  | text {count : Nat} {rest : List Piece} {link : QString} (s : QString) :
      Expands values count rest link → Expands values count (.text s :: rest) (s ++ link)
  | placeholder {inside count : Nat} {rest : List Piece} {value link : QString} (key : QString) :
      Expands values inside (values key) value → Expands values count rest link →
      Expands values (inside + count + 1) (.placeholder key :: rest) (value ++ link)

/-- One pass of the loop on the pieces. -/
def substitute (key : QString) (value : List Piece) (pieces : List Piece) : List Piece :=
  pieces.flatMap fun piece => if piece = .placeholder key then value else [piece]

/-! ## One pass -/

variable {responseJson : QJsonValue} {keys : QString → Prop} {values : QString → List Piece} {key link : QString}
  {pieces rest : List Piece} {s t : QString}

theorem validFrom_append (expected : Bool) (left : validFrom expected s = true) (right : isValidUtf16 t = true) :
    validFrom expected (s ++ t) = true := by
  induction s generalizing expected with
  | nil =>
    cases expected with
    | true => cases left
    | false => exact right
  | cons c s ih =>
    cases expected with
    | true =>
      rw [validFrom, Bool.and_eq_true] at left
      rw [List.cons_append, validFrom, left.1, Bool.true_and]
      exact ih false left.2
    | false =>
      rw [validFrom, Bool.and_eq_true] at left
      rw [List.cons_append, validFrom, left.1, Bool.true_and]
      exact ih _ left.2

theorem isValidUtf16_append (left : isValidUtf16 s = true) (right : isValidUtf16 t = true) :
    isValidUtf16 (s ++ t) = true :=
  validFrom_append false left right

theorem isValidUtf16_source (plain : ∀ key, keys key → PlainKey key) (pieces : List Piece)
    (all : ∀ piece ∈ pieces, piece.Plain keys) : isValidUtf16 (source pieces) = true := by
  induction pieces with
  | nil => rfl
  | cons piece pieces ih =>
    rw [List.forall_mem_cons] at all
    refine isValidUtf16_append ?_ (ih all.2)
    cases piece with
    | text s => exact all.1.2
    | placeholder key =>
      exact isValidUtf16_append (isValidUtf16_append (s := [u '{']) (by decide) (plain key all.1).valid) (by decide)

theorem capture_key (behind : QString) (some_ : key ≠ []) (closed : u '}' ∉ key) (line : 10 ∉ key) :
    capture (key ++ u '}' :: behind) = some key := by
  induction key with
  | nil => exact absurd rfl some_
  | cons c key ih =>
    rw [List.mem_cons, not_or] at closed line
    rw [List.cons_append, capture, if_neg (Ne.symm line.1)]
    cases key with
    | nil => exact if_pos rfl
    | cons d key =>
      have inside : (d :: key ++ u '}' :: behind).head? ≠ some (u '}') := fun same =>
        closed.2 (List.mem_cons.mpr (.inl (Option.some.inj same).symm))
      rw [if_neg inside, ih (List.cons_ne_nil d key) closed.2 line.2, Option.map_some]

theorem searchPlaceholder_free (free : u '{' ∉ s) : searchPlaceholder (s ++ t) = searchPlaceholder t := by
  induction s with
  | nil => rfl
  | cons c s ih =>
    rw [List.mem_cons, not_or] at free
    rw [List.cons_append, searchPlaceholder, if_neg (Ne.symm free.1), ih free.2]

/-- The key of the first placeholder. -/
def firstKey (pieces : List Piece) : Option QString :=
  pieces.findSome? fun
    | .text _ => none
    | .placeholder key => some key

/-- The first match is the first placeholder. -/
theorem matchPlaceholder_source (plain : ∀ key, keys key → PlainKey key) (pieces : List Piece)
    (all : ∀ piece ∈ pieces, piece.Plain keys) : matchPlaceholder (source pieces) = firstKey pieces := by
  rw [matchPlaceholder, if_pos (isValidUtf16_source plain pieces all)]
  induction pieces with
  | nil => rfl
  | cons piece pieces ih =>
    rw [List.forall_mem_cons] at all
    cases piece with
    | text s => exact (searchPlaceholder_free all.1.1).trans (ih all.2)
    | placeholder key =>
      have shape : source (.placeholder key :: pieces) = u '{' :: (key ++ u '}' :: source pieces) := by
        simp [source, Piece.source, braced]
      have first := plain key all.1
      rw [shape, searchPlaceholder, if_pos rfl, capture_key _ first.some_ first.closed first.line]
      rfl

variable {before after : QString}

theorem replaceFrom_skip (skipped : QString) :
    replaceFrom before after skipped.length (skipped ++ t) = replaceFrom before after 0 t := by
  induction skipped with
  | nil => rfl
  | cons c skipped ih => exact ih

/-- A placeholder occurs nowhere in a text without an opening brace. -/
theorem replaceFrom_free (free : u '{' ∉ s) :
    replaceFrom (braced key) after 0 (s ++ t) = s ++ replaceFrom (braced key) after 0 t := by
  induction s with
  | nil => rfl
  | cons c s ih =>
    rw [List.mem_cons, not_or] at free
    have elsewhere : (braced key).isPrefixOf (c :: (s ++ t)) = false := by
      rw [braced, List.cons_append, List.isPrefixOf, beq_eq_false_iff_ne.mpr free.1, Bool.false_and]
    rw [List.cons_append, replaceFrom, elsewhere, if_neg Bool.false_ne_true, ih free.2, List.cons_append]

theorem replaceFrom_same :
    replaceFrom (braced key) after 0 (braced key ++ t) = after ++ replaceFrom (braced key) after 0 t := by
  have here : (braced key).isPrefixOf (u '{' :: (key ++ [u '}'] ++ t)) = true := by
    rw [List.isPrefixOf_iff_prefix]
    exact List.prefix_append (braced key) t
  change replaceFrom (braced key) after 0 (u '{' :: (key ++ [u '}'] ++ t)) = _
  rw [replaceFrom, if_pos here]
  congr 1
  exact replaceFrom_skip (key ++ [u '}'])

theorem replaceFrom_other {other : QString} (plain : PlainKey key) (otherPlain : PlainKey other)
    (differ : other ≠ key) :
    replaceFrom (braced key) after 0 (braced other ++ t) = braced other ++ replaceFrom (braced key) after 0 t := by
  have elsewhere : ¬ (braced key).isPrefixOf (u '{' :: (other ++ [u '}'] ++ t)) = true := by
    rw [List.isPrefixOf_iff_prefix]
    rintro ⟨behind, same⟩
    have ends : key ++ [u '}'] ++ behind = other ++ [u '}'] ++ t := (List.cons.inj same).2
    rw [List.append_assoc, List.append_assoc] at ends
    have parts := congrArg (QString.split · (u '}')) ends
    simp only [List.singleton_append, split_append _ _ _ plain.closed, split_append _ _ _ otherPlain.closed] at parts
    exact differ (List.cons.inj parts).1.symm
  change replaceFrom (braced key) after 0 (u '{' :: (other ++ [u '}'] ++ t)) = _
  rw [replaceFrom, if_neg elsewhere, replaceFrom_free]
  · rfl
  · rw [List.mem_append, not_or]
    exact ⟨otherPlain.opened, by decide⟩

/-- A pass replaces the pieces of its key. -/
theorem replace_source (plain : ∀ key, keys key → PlainKey key) (known : keys key) (value : List Piece)
    (pieces : List Piece) (all : ∀ piece ∈ pieces, piece.Plain keys) :
    (source pieces).replace (braced key) (source value) = source (substitute key value pieces) := by
  unfold QString.replace
  induction pieces with
  | nil => rfl
  | cons piece pieces ih =>
    rw [List.forall_mem_cons] at all
    have shape (front : List Piece) : source (front ++ substitute key value pieces) =
        source front ++ replaceFrom (braced key) (source value) 0 (source pieces) := by
      rw [ih all.2]
      exact List.flatMap_append
    change replaceFrom _ _ 0 (piece.source ++ source pieces) = _
    rw [substitute, List.flatMap_cons, ← substitute, shape]
    -- a text has no brace in it, and another key does not begin with this one
    cases piece with
    | text s =>
      rw [if_neg Piece.noConfusion, Piece.source, replaceFrom_free all.1.1]
      simp [source, Piece.source]
    | placeholder other =>
      by_cases same : other = key
      · rw [if_pos (congrArg Piece.placeholder same), Piece.source, same, replaceFrom_same]
      · rw [if_neg (fun equal => same (Piece.placeholder.inj equal)), Piece.source,
          replaceFrom_other (plain key known) (plain other all.1) same]
        simp [source, Piece.source]

/-! ## The expansion -/

theorem substitute_plain (templates : Templates responseJson keys values) (known : keys key)
    (all : ∀ piece ∈ pieces, piece.Plain keys) : ∀ piece ∈ substitute key (values key) pieces, piece.Plain keys := by
  intro piece among
  obtain ⟨old, member, inside⟩ := List.mem_flatMap.mp among
  split at inside
  · exact templates.pieces key known piece inside
  · exact List.mem_singleton.mp inside ▸ all old member

theorem firstKey_none (none_ : firstKey pieces = none) :
    Expands values 0 pieces (source pieces) ∧
      ∀ count link, Expands values count pieces link → link = source pieces := by
  induction pieces with
  | nil =>
    refine ⟨.nil, fun count link expands => ?_⟩
    cases expands
    rfl
  | cons piece pieces ih =>
    cases piece with
    | text s =>
      obtain ⟨here, only⟩ := ih none_
      refine ⟨.text s here, fun count link expands => ?_⟩
      cases expands with
      | text _ rest => rw [only _ _ rest]; rfl
    | placeholder => cases none_

theorem firstKey_mem (first : firstKey pieces = some key) : .placeholder key ∈ pieces := by
  obtain ⟨piece, among, found⟩ := List.exists_of_findSome?_eq_some first
  cases piece with
  | text => cases found
  | placeholder => exact Option.some.inj found ▸ among

theorem Expands.append {count more : Nat} {left right : QString} (front : Expands values count pieces left)
    (back : Expands values more rest right) : Expands values (count + more) (pieces ++ rest) (left ++ right) := by
  induction front with
  | nil => rwa [Nat.zero_add]
  | text s _ ih =>
    rw [List.append_assoc]
    exact .text s ih
  | @placeholder inside count _ _ _ key value _ _ ih =>
    rw [List.append_assoc, Nat.add_right_comm, Nat.add_assoc inside]
    exact .placeholder key value ih

theorem Expands.split {count : Nat} (expands : Expands values count (pieces ++ rest) link) :
    ∃ before behind left right, count = before + behind ∧ link = left ++ right ∧ Expands values before pieces left ∧
      Expands values behind rest right := by
  induction pieces generalizing count link with
  | nil => exact ⟨0, count, [], link, (Nat.zero_add count).symm, rfl, .nil, expands⟩
  | cons piece pieces ih =>
    cases expands with
    | text s others =>
      obtain ⟨before, behind, left, right, rfl, rfl, front, back⟩ := ih others
      exact ⟨before, behind, s ++ left, right, rfl, (List.append_assoc s left right).symm, .text s front, back⟩
    | @placeholder inside _ _ value _ key filled others =>
      obtain ⟨before, behind, left, right, rfl, rfl, front, back⟩ := ih others
      exact ⟨inside + before + 1, behind, value ++ left, right, by omega, (List.append_assoc value left right).symm,
        .placeholder key filled front, back⟩

/-- A pass does all the replacements of its key. -/
theorem Expands.substitute {count : Nat} (expands : Expands values count pieces link) (key : QString) :
    ∃ fewer, fewer + pieces.count (.placeholder key) = count ∧
      Expands values fewer (substitute key (values key) pieces) link := by
  -- along the expansion: a placeholder of the key has the expansion of its value in it
  induction expands with
  | nil => exact ⟨0, rfl, .nil⟩
  | text s _ ih =>
    obtain ⟨fewer, sum, filled⟩ := ih
    refine ⟨fewer, ?_, .text s filled⟩
    rwa [List.count_cons_of_ne Piece.noConfusion]
  | @placeholder inside count _ _ _ other value _ _ ih =>
    obtain ⟨fewer, sum, filled⟩ := ih
    by_cases same : other = key
    · subst same
      refine ⟨inside + fewer, ?_, ?_⟩
      · rw [List.count_cons_self]
        omega
      · rw [Images.substitute, List.flatMap_cons, if_pos rfl]
        exact value.append filled
    · have differ : Piece.placeholder other ≠ .placeholder key := fun equal => same (Piece.placeholder.inj equal)
      refine ⟨inside + fewer + 1, ?_, ?_⟩
      · rw [List.count_cons_of_ne differ]
        omega
      · rw [Images.substitute, List.flatMap_cons, if_neg differ]
        exact .placeholder other value filled

theorem expands_of_substitute {count : Nat} (expands : Expands values count (substitute key (values key) pieces) link) :
    ∃ count, Expands values count pieces link := by
  induction pieces generalizing count link with
  | nil => exact ⟨count, expands⟩
  | cons piece pieces ih =>
    rw [substitute, List.flatMap_cons] at expands
    obtain ⟨before, behind, left, right, -, rfl, front, back⟩ := expands.split
    obtain ⟨more, back⟩ := ih back
    by_cases same : piece = .placeholder key
    · rw [if_pos same] at front
      rw [same]
      exact ⟨_, .placeholder key front back⟩
    · rw [if_neg same] at front
      exact ⟨_, front.append back⟩

theorem getLink_step (templates : Templates responseJson keys values) (all : ∀ piece ∈ pieces, piece.Plain keys)
    (first : firstKey pieces = some key) (fuel : Nat) :
    getLinkFromResponse responseJson (fuel + 1) (source pieces) =
      getLinkFromResponse responseJson fuel (source (substitute key (values key) pieces)) := by
  have known : keys key := all _ (firstKey_mem first)
  rw [getLinkFromResponse, matchPlaceholder_source templates.plain pieces all, first]
  simp only
  rw [templates.value key known, replace_source templates.plain known (values key) pieces all]

theorem getLink_last (templates : Templates responseJson keys values) (all : ∀ piece ∈ pieces, piece.Plain keys)
    (none_ : firstKey pieces = none) (fuel : Nat) :
    getLinkFromResponse responseJson (fuel + 1) (source pieces) = some (source pieces) := by
  rw [getLinkFromResponse, matchPlaceholder_source templates.plain pieces all, none_]

theorem getLink_of_expands (templates : Templates responseJson keys values) (all : ∀ piece ∈ pieces, piece.Plain keys)
    {fuel count : Nat} (enough : count < fuel) (expands : Expands values count pieces link) :
    getLinkFromResponse responseJson fuel (source pieces) = some link := by
  induction fuel generalizing count pieces with
  | zero => omega
  | succ fuel ih =>
    cases first : firstKey pieces with
    | none => rw [getLink_last templates all first, (firstKey_none first).2 count link expands]
    | some key =>
      obtain ⟨fewer, sum, expands⟩ := expands.substitute key
      have some_ := List.count_pos_iff.mpr (firstKey_mem first)
      rw [getLink_step templates all first]
      exact ih (substitute_plain templates (all _ (firstKey_mem first)) all) (by omega) expands

theorem expands_of_getLink (templates : Templates responseJson keys values) (all : ∀ piece ∈ pieces, piece.Plain keys)
    {fuel : Nat} (returned : getLinkFromResponse responseJson fuel (source pieces) = some link) :
    ∃ count, Expands values count pieces link := by
  induction fuel generalizing pieces with
  | zero => cases returned
  | succ fuel ih =>
    cases first : firstKey pieces with
    | none =>
      rw [getLink_last templates all first] at returned
      exact ⟨0, Option.some.inj returned ▸ (firstKey_none first).1⟩
    | some key =>
      rw [getLink_step templates all first] at returned
      obtain ⟨count, expands⟩ := ih (substitute_plain templates (all _ (firstKey_mem first)) all) returned
      exact expands_of_substitute expands

end Forserino.Images
