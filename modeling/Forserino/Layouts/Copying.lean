import Forserino.Layouts.Element

/-! Copying a part of a laid-out message (messages/layouts/MessageLayoutContainer.cpp).

A selection index counts the units of the texts and of their trailing spaces, and each image as one.
So a selection is a range of cells, of which those of an image are empty.
-/

set_option autoImplicit false

namespace Forserino.Layouts

open Forserino.Qt

inductive CopyMode where
  | everything
  | everythingButReplies
  | onlyTextAndEmotes
  deriving DecidableEq, Repr

/-- Whether an element is left out. -/
def CopyMode.skips (copymode : CopyMode) (e : MessageLayoutElement) : Bool :=
  copymode != .everything && e.flags.repliedMessage ||
    copymode == .onlyTextAndEmotes &&
      (e.flags.timestamp || e.flags.username || e.flags.badges || e.flags.channelName)

/-- The loop of addSelectionText. The index is a number of 32 bits, and the sum with a count is not. -/
def addSelectionTextLoop (copymode : CopyMode) (from_ to_ : Nat) :
    QString → Nat → Bool → List MessageLayoutElement → QString
  | str, _, _, [] => str
  | str, index, first, element :: rest =>
      if copymode.skips element then addSelectionTextLoop copymode from_ to_ str index first rest
      else
        let indexCount := element.getSelectionIndexCount
        let next := (index + indexCount) % 2 ^ 32
        if first then
          if index + indexCount > from_ then
            let str := element.addCopyTextToString str (MessageLayoutElement.difference from_ index)
              (MessageLayoutElement.difference to_ index)
            if index + indexCount ≥ to_ then str else addSelectionTextLoop copymode from_ to_ str next false rest
          else addSelectionTextLoop copymode from_ to_ str next true rest
        else if index + indexCount ≥ to_ then
          element.addCopyTextToString str 0 (MessageLayoutElement.difference to_ index)
        else
          addSelectionTextLoop copymode from_ to_ (element.addCopyTextToString str 0 MessageLayoutElement.wholeElement) next
            false rest

def addSelectionText (elements : List MessageLayoutElement) (str : QString) (from_ to_ : Nat) (copymode : CopyMode) :
    QString :=
  addSelectionTextLoop copymode from_ to_ str 0 true elements

/-- What is copied of the selected range. -/
def selectedText (elements : List MessageLayoutElement) (from_ to_ : Nat) : QString :=
  addSelectionText elements [] from_ to_ .everything

/-- How many selection indices a message has. -/
def selectionLength (elements : List MessageLayoutElement) : Nat :=
  (elements.map MessageLayoutElement.getSelectionIndexCount).sum

/-- The text of a range is that of its two parts, wherever it is split. -/
def Additive (elements : List MessageLayoutElement) : Prop :=
  ∀ a b c, a ≤ b → b ≤ c → c < 2 ^ 32 → selectedText elements a c = selectedText elements a b ++ selectedText elements b c

/-- The text of the full range has all that can be copied of an element. -/
def CopiesAll (elements : List MessageLayoutElement) : Prop :=
  ∀ to_, selectionLength elements ≤ to_ → to_ < 2 ^ 32 → ∀ element ∈ elements,
    element.addCopyTextToString [] 0 MessageLayoutElement.wholeElement <:+: selectedText elements 0 to_

/-! ## Cells -/

/-- The units that are copied. -/
def letters (cells : List (Option QChar)) : QString := cells.filterMap id

theorem letters_append (front back : List (Option QChar)) : letters (front ++ back) = letters front ++ letters back :=
  List.filterMap_append

theorem letters_map (s : QString) : letters (s.map some) = s := by
  rw [letters, List.filterMap_map]
  exact List.filterMap_some

theorem letters_replicate (n : Nat) : letters (List.replicate n none) = [] := by
  induction n with
  | zero => rfl
  | succ n ih => exact ih

namespace MessageLayoutElement

/-- The cells of an element that copies nothing but texts and trailing spaces. -/
def cells (e : MessageLayoutElement) : List (Option QChar) :=
  let space := if e.trailingSpace then [some (u ' ')] else []
  match e.kind with
  | .text => e.text.map some ++ space
  | .image (some _) | .layeredImage (some _) => none :: space
  | .image none | .layeredImage none | .textIcon => none :: if e.trailingSpace then [none] else []
  | .replyCurve => [none]

theorem length_cells (e : MessageLayoutElement) : e.cells.length = e.getSelectionIndexCount := by
  obtain ⟨kind, flags, text, trailingSpace, x, width, line⟩ := e
  cases kind with
  | text => cases trailingSpace <;> simp [cells, getSelectionIndexCount]
  | image copyString => cases copyString <;> cases trailingSpace <;> rfl
  | layeredImage copyStrings => cases copyStrings <;> cases trailingSpace <;> rfl
  | textIcon => cases trailingSpace <;> rfl
  | replyCurve => rfl

/-- Only a text can be empty. -/
theorem getSelectionIndexCount_pos (e : MessageLayoutElement) (image : e.kind ≠ .text) : 0 < e.getSelectionIndexCount := by
  unfold getSelectionIndexCount
  cases kind : e.kind with
  | text => exact absurd kind image
  | image _ | layeredImage _ | textIcon => dsimp only; split <;> omega
  | replyCurve => exact Nat.one_pos

/-- No emote of the element adds something to any text that may have been copied just before it. -/
def SilentBehind (before : QString) (e : MessageLayoutElement) : Prop :=
  match e.kind with
  | .image (some copyString) => ∀ s, s <:+ before → cleanUpEmoteCode (s ++ copyString) = s
  | .layeredImage (some copyStrings) => getCleanCopyString copyStrings = []
  | _ => True

/-- The cells of a text are those of its units. -/
theorem letters_text (s : QString) (from_ n : Nat) : letters (((s.map some).drop from_).take n) = s.midN from_ n := by
  rw [← List.map_drop, ← List.map_take, letters_map]
  rfl

/-- The trailing space of an image is copied with the second of its two cells. -/
theorem letters_image (trailingSpace : Bool) {from_ to_ : Nat} (le : from_ ≤ to_) (inside : from_ < 2) :
    letters (((none :: if trailingSpace then [some (u ' ')] else []).drop from_).take (to_ - from_)) =
      if trailingSpace && to_ ≥ 2 then [u ' '] else [] := by
  have range : to_ < 2 ∨ ∃ n, to_ = n + 2 := by
    rcases Nat.lt_or_ge to_ 2 with few | enough
    · exact .inl few
    · exact .inr ⟨to_ - 2, by omega⟩
  have start : from_ = 0 ∨ from_ = 1 := by omega
  cases trailingSpace with
  | false => rcases start with rfl | rfl <;> cases to_ <;> simp [letters]
  | true =>
    rcases range with few | ⟨n, rfl⟩
    · have stop : to_ = 0 ∨ to_ = 1 := by omega
      rcases start with rfl | rfl <;> rcases stop with rfl | rfl <;> rfl
    · rcases start with rfl | rfl <;> simp [letters]

theorem midN_append_space (text : QString) {from_ to_ : Nat} (inside : from_ ≤ text.length) :
    QString.midN (text ++ [u ' ']) from_ (to_ - from_) =
      text.midN from_ (to_ - from_) ++ if to_ > text.length then [u ' '] else [] := by
  unfold QString.midN
  rw [List.drop_append_of_le_length inside, List.take_append, List.length_drop]
  congr 1
  split
  case isTrue beyond =>
    obtain ⟨n, some_⟩ : ∃ n, to_ - from_ - (text.length - from_) = n + 1 := ⟨to_ - text.length - 1, by omega⟩
    rw [some_, List.take_succ_cons, List.take_nil]
  case isFalse within =>
    rw [show to_ - from_ - (text.length - from_) = 0 by omega, List.take_zero]

/-- The text of an element is copied with the trailing space behind it. -/
theorem copiedText (text : QString) (trailingSpace : Bool) {from_ to_ : Nat}
    (inside : from_ = 0 ∨ from_ < text.length + if trailingSpace then 1 else 0) :
    text.midN from_ (to_ - from_) ++ (if trailingSpace && to_ > text.length then [u ' '] else []) =
      letters (((text.map some ++ if trailingSpace then [some (u ' ')] else []).drop from_).take (to_ - from_)) := by
  cases trailingSpace with
  | false => simp [letters_text]
  | true =>
    have inText : from_ ≤ text.length := by
      rcases inside with rfl | inside
      · exact Nat.zero_le _
      · rw [if_pos rfl] at inside
        omega
    have spaced : (text.map some ++ if true = true then [some (u ' ')] else []) = (text ++ [u ' ']).map some := by
      rw [List.map_append]
      rfl
    rw [spaced, letters_text, midN_append_space text inText, Bool.true_and]
    simp only [decide_eq_true_eq]

/-- Nothing is copied of cells without letters. -/
theorem copiedNothing (s : QString) (cells from_ n : Nat) :
    s = s ++ letters (((List.replicate cells none).drop from_).take n) := by
  rw [List.drop_replicate, List.take_replicate, letters_replicate, List.append_nil]

/-- An element that adds nothing of an emote copies the cells of the range. -/
theorem addCopyTextToString_silent {e : MessageLayoutElement} {before s : QString} (silent : e.SilentBehind before)
    (suffix : s <:+ before) {from_ to_ : Nat} (le : from_ ≤ to_) (small : to_ < 2 ^ 32)
    (inside : from_ = 0 ∨ from_ < e.getSelectionIndexCount) :
    e.addCopyTextToString s from_ to_ = s ++ letters ((e.cells.drop from_).take (to_ - from_)) := by
  have inTwo (image : e.getSelectionIndexCount ≤ 2) : from_ < 2 := by omega
  obtain ⟨kind, flags, text, trailingSpace, x, width, line⟩ := e
  have space : (if trailingSpace then 2 else 1) ≤ 2 := by cases trailingSpace <;> decide
  cases kind with
  | text =>
    unfold addCopyTextToString cells
    dsimp only
    rw [difference_of_le le small, ← copiedText text trailingSpace inside]
    split
    · exact List.append_assoc _ _ _
    · rw [List.append_nil]
  | image copyString =>
    cases copyString with
    | none => cases trailingSpace with
      | false => exact copiedNothing s 1 from_ _
      | true => exact copiedNothing s 2 from_ _
    | some copyString =>
      have cleaned : cleanUpEmoteCode (s ++ copyString) = s := silent s suffix
      unfold addCopyTextToString cells
      dsimp only
      rw [cleaned, letters_image trailingSpace le (inTwo space)]
      split
      · rfl
      · exact (List.append_nil s).symm
  | layeredImage copyStrings =>
    cases copyStrings with
    | none => cases trailingSpace with
      | false => exact copiedNothing s 1 from_ _
      | true => exact copiedNothing s 2 from_ _
    | some copyStrings =>
      have cleaned : getCleanCopyString copyStrings = [] := silent
      unfold addCopyTextToString cells
      dsimp only
      rw [cleaned, List.append_nil, letters_image trailingSpace le (inTwo space)]
      split
      · rfl
      · exact (List.append_nil s).symm
  | textIcon =>
    cases trailingSpace with
    | false => exact copiedNothing s 1 from_ _
    | true => exact copiedNothing s 2 from_ _
  | replyCurve => exact copiedNothing s 1 from_ _

end MessageLayoutElement

/-! ## Ranges of cells -/

def cellsOf (elements : List MessageLayoutElement) : List (Option QChar) := elements.flatMap MessageLayoutElement.cells

/-- No element adds something of an emote, wherever the copied text begins. -/
def Silent : QString → List MessageLayoutElement → Prop
  | _, [] => True
  | before, element :: rest => element.SilentBehind before ∧ Silent (before ++ letters element.cells) rest

theorem length_cellsOf (elements : List MessageLayoutElement) : (cellsOf elements).length = selectionLength elements := by
  induction elements with
  | nil => rfl
  | cons element rest ih =>
    rw [cellsOf, List.flatMap_cons, List.length_append, element.length_cells, selectionLength, List.map_cons, List.sum_cons]
    exact congrArg (_ + ·) ih

theorem cellsOf_cons (element : MessageLayoutElement) (rest : List MessageLayoutElement) :
    cellsOf (element :: rest) = element.cells ++ cellsOf rest := List.flatMap_cons

theorem selectionLength_cons (element : MessageLayoutElement) (rest : List MessageLayoutElement) :
    selectionLength (element :: rest) = element.getSelectionIndexCount + selectionLength rest := by
  rw [selectionLength, List.map_cons, List.sum_cons]
  rfl

section
variable {from_ to_ index : Nat} {before str : QString} {element : MessageLayoutElement}
  {elements rest tail : List MessageLayoutElement}

/-- An element before the range is passed. -/
theorem loop_pass (before : index + element.getSelectionIndexCount ≤ from_) (small : from_ < 2 ^ 32) :
    addSelectionTextLoop .everything from_ to_ str index true (element :: rest) =
      addSelectionTextLoop .everything from_ to_ str (index + element.getSelectionIndexCount) true rest := by
  have kept : CopyMode.everything.skips element = false := rfl
  rw [addSelectionTextLoop, kept, if_neg Bool.false_ne_true, if_pos rfl, if_neg (by omega),
    Nat.mod_eq_of_lt (by omega)]

/-- The range begins in an element, and goes on behind it. -/
theorem loop_start (starts : from_ < index + element.getSelectionIndexCount)
    (on : index + element.getSelectionIndexCount < to_) (small : to_ < 2 ^ 32) :
    addSelectionTextLoop .everything from_ to_ str index true (element :: rest) =
      addSelectionTextLoop .everything from_ to_ (element.addCopyTextToString str
        (MessageLayoutElement.difference from_ index) (MessageLayoutElement.difference to_ index))
        (index + element.getSelectionIndexCount) false rest := by
  have kept : CopyMode.everything.skips element = false := rfl
  rw [addSelectionTextLoop, kept, if_neg Bool.false_ne_true, if_pos rfl, if_pos starts, if_neg (by omega),
    Nat.mod_eq_of_lt (by omega)]

/-- The range is in one element. -/
theorem loop_only (starts : from_ < index + element.getSelectionIndexCount)
    (stops : to_ ≤ index + element.getSelectionIndexCount) :
    addSelectionTextLoop .everything from_ to_ str index true (element :: rest) =
      element.addCopyTextToString str (MessageLayoutElement.difference from_ index)
        (MessageLayoutElement.difference to_ index) := by
  have kept : CopyMode.everything.skips element = false := rfl
  rw [addSelectionTextLoop, kept, if_neg Bool.false_ne_true, if_pos rfl, if_pos starts, if_pos stops]

theorem loop_whole (on : index + element.getSelectionIndexCount < to_) (small : to_ < 2 ^ 32) :
    addSelectionTextLoop .everything from_ to_ str index false (element :: rest) =
      addSelectionTextLoop .everything from_ to_ (element.addCopyTextToString str 0 MessageLayoutElement.wholeElement)
        (index + element.getSelectionIndexCount) false rest := by
  have kept : CopyMode.everything.skips element = false := rfl
  rw [addSelectionTextLoop, kept, if_neg Bool.false_ne_true, if_neg Bool.false_ne_true, if_neg (by omega),
    Nat.mod_eq_of_lt (by omega)]

theorem loop_stop (stops : to_ ≤ index + element.getSelectionIndexCount) :
    addSelectionTextLoop .everything from_ to_ str index false (element :: rest) =
      element.addCopyTextToString str 0 (MessageLayoutElement.difference to_ index) := by
  have kept : CopyMode.everything.skips element = false := rfl
  rw [addSelectionTextLoop, kept, if_neg Bool.false_ne_true, if_neg Bool.false_ne_true, if_pos stops]

/-- Elements before the range are passed. -/
theorem loop_pass_all (elements : List MessageLayoutElement) (before : index + selectionLength elements ≤ from_)
    (small : from_ < 2 ^ 32) : addSelectionTextLoop .everything from_ to_ str index true (elements ++ tail) =
      addSelectionTextLoop .everything from_ to_ str (index + selectionLength elements) true tail := by
  induction elements generalizing index with
  | nil => rfl
  | cons element rest ih =>
    rw [selectionLength_cons] at before ⊢
    rw [List.cons_append, loop_pass (by omega) small, ih (by omega), Nat.add_assoc]

theorem copy_whole (silent : element.SilentBehind before) (suffix : str <:+ before)
    (short : element.getSelectionIndexCount < 2 ^ 32) :
    element.addCopyTextToString str 0 MessageLayoutElement.wholeElement = str ++ letters element.cells := by
  have short' : element.cells.length ≤ MessageLayoutElement.wholeElement := by
    rw [element.length_cells, MessageLayoutElement.wholeElement]
    omega
  rw [MessageLayoutElement.addCopyTextToString_silent silent suffix (Nat.zero_le _) (by decide) (.inl rfl), List.drop_zero,
    Nat.sub_zero, List.take_of_length_le short']

/-- Behind its first element, the range goes on with the cells of the next ones. -/
theorem loop_on (silent : Silent before elements) (suffix : str <:+ before)
    (on : index + selectionLength elements < to_) (small : to_ < 2 ^ 32) :
    addSelectionTextLoop .everything from_ to_ str index false (elements ++ tail) =
      addSelectionTextLoop .everything from_ to_ (str ++ letters (cellsOf elements)) (index + selectionLength elements)
        false tail := by
  induction elements generalizing before str index with
  | nil =>
    rw [cellsOf, List.flatMap_nil, show letters [] = [] from rfl, List.append_nil]
    rfl
  | cons element rest ih =>
    rw [selectionLength_cons] at on ⊢
    rw [List.cons_append, loop_whole (by omega) small, copy_whole silent.1 suffix (by omega),
      ih silent.2 (List.suffix_append_self_iff.mpr suffix) (by omega), cellsOf_cons, letters_append, List.append_assoc,
      Nat.add_assoc]

/-- The range ends in these elements, or nothing comes behind them. -/
theorem loop_end (silent : Silent before elements) (suffix : str <:+ before) (on : index < to_) (small : to_ < 2 ^ 32)
    (ends : tail = [] ∨ to_ ≤ index + selectionLength elements) :
    addSelectionTextLoop .everything from_ to_ str index false (elements ++ tail) =
      str ++ letters ((cellsOf elements).take (to_ - index)) := by
  induction elements generalizing before str index with
  | nil =>
    rcases ends with rfl | beyond
    · rw [cellsOf, List.flatMap_nil, List.take_nil]
      exact (List.append_nil str).symm
    · exact absurd beyond (Nat.not_le.mpr on)
  | cons element rest ih =>
    rw [selectionLength_cons] at ends
    rw [List.cons_append, cellsOf_cons, List.take_append, element.length_cells]
    by_cases stops : to_ ≤ index + element.getSelectionIndexCount
    · rw [loop_stop stops, MessageLayoutElement.difference_of_le (by omega) small,
        MessageLayoutElement.addCopyTextToString_silent silent.1 suffix (Nat.zero_le _) (by omega) (.inl rfl),
        List.drop_zero, Nat.sub_zero, show to_ - index - element.getSelectionIndexCount = 0 by omega, List.take_zero,
        List.append_nil]
    · have whole : element.cells.take (to_ - index) = element.cells :=
        List.take_of_length_le (by rw [element.length_cells]; omega)
      rw [loop_whole (by omega) small, copy_whole silent.1 suffix (by omega),
        ih silent.2 (List.suffix_append_self_iff.mpr suffix) (by omega) (ends.imp_right fun within => by omega), whole,
        letters_append, List.append_assoc, Nat.sub_sub]

/-- What is copied behind a range that begins in these elements. -/
theorem loop_begin (silent : Silent before elements) (starts : from_ < index + selectionLength elements)
    (reached : index ≤ from_) (on : index + selectionLength elements < to_) (small : to_ < 2 ^ 32) :
    addSelectionTextLoop .everything from_ to_ [] index true (elements ++ tail) =
      addSelectionTextLoop .everything from_ to_ (letters ((cellsOf elements).drop (from_ - index)))
        (index + selectionLength elements) false tail := by
  induction elements generalizing before index with
  | nil => exact absurd reached (Nat.not_le.mpr starts)
  | cons element rest ih =>
    rw [selectionLength_cons] at starts on ⊢
    rw [List.cons_append, cellsOf_cons, List.drop_append, element.length_cells]
    by_cases passed : index + element.getSelectionIndexCount ≤ from_
    · have gone : element.cells.drop (from_ - index) = [] :=
        List.drop_of_length_le (by rw [element.length_cells]; omega)
      rw [loop_pass passed (by omega), ih silent.2 (by omega) passed (by omega), gone, List.nil_append, Nat.add_assoc,
        Nat.sub_sub]
    · have all : (element.cells.drop (from_ - index)).take (to_ - index - (from_ - index)) =
          element.cells.drop (from_ - index) := by
        refine List.take_of_length_le ?_
        rw [List.length_drop, element.length_cells]
        omega
      have letters_suffix : letters (element.cells.drop (from_ - index)) <:+ before ++ letters element.cells :=
        ((List.drop_suffix _ _).filterMap id).trans (List.suffix_append _ _)
      rw [loop_start (by omega) (by omega) small, MessageLayoutElement.difference_of_le reached (by omega),
        MessageLayoutElement.difference_of_le (by omega) small,
        MessageLayoutElement.addCopyTextToString_silent silent.1 List.nil_suffix (by omega) (by omega) (.inr (by omega)),
        List.nil_append, all, loop_on silent.2 letters_suffix (by omega) small,
        show from_ - index - element.getSelectionIndexCount = 0 by omega, List.drop_zero, letters_append, Nat.add_assoc]

/-- The text of a range is that of its cells. -/
theorem loop_cells (silent : Silent before elements) (reached : index ≤ from_) (le : from_ ≤ to_) (small : to_ < 2 ^ 32)
    (ends : tail = [] ∨ from_ < to_ ∧ to_ ≤ index + selectionLength elements) :
    addSelectionTextLoop .everything from_ to_ [] index true (elements ++ tail) =
      letters (((cellsOf elements).drop (from_ - index)).take (to_ - from_)) := by
  induction elements generalizing before index with
  | nil =>
    rcases ends with rfl | ⟨some_, beyond⟩
    · rw [cellsOf, List.flatMap_nil, List.drop_nil, List.take_nil]
      rfl
    · exact absurd (Nat.lt_of_lt_of_le some_ beyond) (Nat.not_lt.mpr reached)
  | cons element rest ih =>
    rw [selectionLength_cons] at ends
    rw [List.cons_append, cellsOf_cons, List.drop_append, element.length_cells]
    by_cases passed : index + element.getSelectionIndexCount ≤ from_
    · have gone : element.cells.drop (from_ - index) = [] :=
        List.drop_of_length_le (by rw [element.length_cells]; omega)
      rw [loop_pass passed (by omega), ih silent.2 passed (ends.imp_right fun within => ⟨within.1, by omega⟩), gone,
        List.nil_append, Nat.sub_sub]
    · have copied : element.addCopyTextToString [] (MessageLayoutElement.difference from_ index)
          (MessageLayoutElement.difference to_ index) = letters ((element.cells.drop (from_ - index)).take (to_ - from_)) := by
        rw [MessageLayoutElement.difference_of_le reached (by omega), MessageLayoutElement.difference_of_le (by omega) small,
          MessageLayoutElement.addCopyTextToString_silent silent.1 List.nil_suffix (by omega) (by omega) (.inr (by omega)),
          List.nil_append, show to_ - index - (from_ - index) = to_ - from_ by omega]
      rw [show from_ - index - element.getSelectionIndexCount = 0 by omega, List.drop_zero, List.take_append,
        List.length_drop, element.length_cells]
      by_cases stops : to_ ≤ index + element.getSelectionIndexCount
      · rw [loop_only (by omega) stops, copied,
          show to_ - from_ - (element.getSelectionIndexCount - (from_ - index)) = 0 by omega, List.take_zero, List.append_nil]
      · have letters_suffix : letters ((element.cells.drop (from_ - index)).take (to_ - from_)) <:+
            before ++ letters element.cells := by
          rw [List.take_of_length_le (by rw [List.length_drop, element.length_cells]; omega)]
          exact ((List.drop_suffix _ _).filterMap id).trans (List.suffix_append _ _)
        rw [loop_start (by omega) (by omega) small, copied, loop_end silent.2 letters_suffix (by omega) small
          (ends.imp_right fun within => by omega), letters_append,
          show to_ - from_ - (element.getSelectionIndexCount - (from_ - index)) =
            to_ - (index + element.getSelectionIndexCount) by omega]

end

/-! ## Splitting a range -/

section
variable {elements : List MessageLayoutElement}

/-- What is copied of a message in which no emote adds something. -/
theorem selectedText_silent (silent : Silent [] elements) {from_ to_ : Nat} (le : from_ ≤ to_) (small : to_ < 2 ^ 32) :
    selectedText elements from_ to_ = letters (((cellsOf elements).drop from_).take (to_ - from_)) := by
  have copied := loop_cells silent (Nat.zero_le from_) le small (.inl rfl)
  rw [List.append_nil] at copied
  exact copied

theorem additive_of_silent (silent : Silent [] elements) : Additive elements := by
  intro a b c ab bc small
  have split : ((cellsOf elements).drop a).take (c - a) =
      ((cellsOf elements).drop a).take (b - a) ++ ((cellsOf elements).drop b).take (c - b) := by
    rw [show c - a = (b - a) + (c - b) by omega, List.take_add, List.drop_drop, Nat.add_sub_of_le ab]
  rw [selectedText_silent silent (Nat.le_trans ab bc) small, selectedText_silent silent ab (by omega),
    selectedText_silent silent bc small, split, letters_append]

theorem silent_append {before : QString} {front behind : List MessageLayoutElement} :
    Silent before (front ++ behind) ↔ Silent before front ∧ Silent (before ++ letters (cellsOf front)) behind := by
  induction front generalizing before with
  | nil =>
    rw [cellsOf, List.flatMap_nil, show letters [] = [] from rfl, List.append_nil]
    exact ⟨fun silent => ⟨trivial, silent⟩, And.right⟩
  | cons first front ih =>
    rw [cellsOf_cons, letters_append, ← List.append_assoc, List.cons_append, Silent, Silent, ih, and_assoc]

theorem copiesAll_of_silent (silent : Silent [] elements) : CopiesAll elements := by
  intro to_ full small element member
  obtain ⟨front, behind, rfl⟩ := List.append_of_mem member
  rw [selectedText_silent silent (Nat.zero_le _) small, List.drop_zero,
    List.take_of_length_le (by rw [length_cellsOf]; omega)]
  have length : element.getSelectionIndexCount ≤ selectionLength (front ++ element :: behind) := by
    rw [← length_cellsOf, cellsOf, List.flatMap_append, List.flatMap_cons, List.length_append, List.length_append,
      element.length_cells]
    omega
  rw [copy_whole (silent_append.mp silent).2.1 List.nil_suffix (by omega), List.nil_append, cellsOf, List.flatMap_append,
    List.flatMap_cons, letters_append, letters_append, ← List.append_assoc]
  exact List.infix_append _ _ _

/-! ## Splitting at an emote -/

/-- Every end of the copied text begins at some cell. -/
theorem suffix_letters {cells : List (Option QChar)} {s : QString} (suffix : s <:+ letters cells) (some_ : s ≠ []) :
    ∃ n, n < cells.length ∧ letters (cells.drop n) = s := by
  induction cells with
  | nil => exact absurd (List.suffix_nil.mp suffix) some_
  | cons cell cells ih =>
    have later (inRest : s <:+ letters cells) : ∃ n, n < (cell :: cells).length ∧ letters ((cell :: cells).drop n) = s := by
      obtain ⟨n, inside, same⟩ := ih inRest
      exact ⟨n + 1, Nat.succ_lt_succ inside, same⟩
    cases cell with
    | none => exact later suffix
    | some unit =>
      rcases List.suffix_cons_iff.mp suffix with whole | inRest
      · exact ⟨0, Nat.succ_pos _, whole.symm⟩
      · exact later inRest

variable {front behind : List MessageLayoutElement} {element : MessageLayoutElement}

/-- The range that begins and ends where an element begins. -/
theorem selectedText_at (count : 0 < element.getSelectionIndexCount) (small : selectionLength front < 2 ^ 32) :
    selectedText (front ++ element :: behind) (selectionLength front) (selectionLength front) =
      element.addCopyTextToString [] 0 0 := by
  have none_ : MessageLayoutElement.difference (selectionLength front) (selectionLength front) = 0 := by
    rw [MessageLayoutElement.difference_of_le (Nat.le_refl _) small, Nat.sub_self]
  rw [selectedText, addSelectionText, loop_pass_all front (by omega) small, Nat.zero_add, loop_only (by omega) (by omega),
    none_]

/-- A range that ends behind the first cell of an element, which it has as its only or as its last one. -/
theorem selectedText_to (silent : Silent [] front) {start : Nat} (reached : start < selectionLength front)
    (count : 0 < element.getSelectionIndexCount) (small : selectionLength front + 1 < 2 ^ 32) :
    selectedText (front ++ element :: behind) start (selectionLength front + 1) =
      element.addCopyTextToString (letters ((cellsOf front).drop start)) 0 1 := by
  rw [selectedText, addSelectionText, loop_begin silent (by omega) (Nat.zero_le _) (by omega) small, Nat.zero_add,
    loop_stop (by omega), MessageLayoutElement.difference_of_le (by omega) small, Nat.add_sub_cancel_left, Nat.sub_zero]

theorem selectedText_one (count : 0 < element.getSelectionIndexCount) (small : selectionLength front + 1 < 2 ^ 32) :
    selectedText (front ++ element :: behind) (selectionLength front) (selectionLength front + 1) =
      element.addCopyTextToString [] 0 1 := by
  rw [selectedText, addSelectionText, loop_pass_all front (by omega) (by omega), Nat.zero_add,
    loop_only (by omega) (by omega), MessageLayoutElement.difference_of_le (Nat.le_refl _) (by omega),
    MessageLayoutElement.difference_of_le (by omega) small, Nat.sub_self, Nat.add_sub_cancel_left]

/-- A range that ends in front of an element does not have it. -/
theorem selectedText_before (silent : Silent [] front) {start : Nat} (reached : start < selectionLength front)
    (small : selectionLength front < 2 ^ 32) :
    selectedText (front ++ element :: behind) start (selectionLength front) = letters ((cellsOf front).drop start) := by
  have copied := @loop_cells start (selectionLength front) 0 [] front (element :: behind) silent (Nat.zero_le _)
    (Nat.le_of_lt reached) small (.inr ⟨reached, by omega⟩)
  rw [selectedText, addSelectionText, copied, Nat.sub_zero,
    List.take_of_length_le (Nat.le_of_eq (by rw [List.length_drop, length_cellsOf]))]

/-- Where every range can be split, nothing is added by an emote behind silent elements. -/
theorem silentBehind_of_additive (additive : Additive (front ++ element :: behind)) (silent : Silent [] front)
    (small : selectionLength (front ++ element :: behind) < 2 ^ 32) : element.SilentBehind (letters (cellsOf front)) := by
  have length : selectionLength (front ++ element :: behind) =
      selectionLength front + (element.getSelectionIndexCount + selectionLength behind) := by
    rw [← length_cellsOf, cellsOf, List.flatMap_append, List.length_append, List.flatMap_cons, List.length_append,
      element.length_cells]
    exact congrArg₂ (· + ·) (length_cellsOf front) (congrArg (_ + ·) (length_cellsOf behind))
  -- the empty range at the element copies nothing
  have nothing (count : 0 < element.getSelectionIndexCount) : element.addCopyTextToString [] 0 0 = [] := by
    have twice := additive _ _ _ (Nat.le_refl (selectionLength front)) (Nat.le_refl _) (by omega)
    rw [selectedText_at count (by omega)] at twice
    exact List.self_eq_append_right.mp twice
  unfold MessageLayoutElement.SilentBehind
  split
  case h_1 copyString isImage =>
    have count := element.getSelectionIndexCount_pos (by rw [isImage]; exact Kind.noConfusion)
    have copied (s : QString) (to_ : Nat) (few : to_ < 2) :
        element.addCopyTextToString s 0 to_ = cleanUpEmoteCode (s ++ copyString) := by
      rw [MessageLayoutElement.addCopyTextToString, isImage]
      dsimp only
      rw [if_neg (by simp only [Bool.and_eq_true, decide_eq_true_eq]; omega)]
    have cleaned : cleanUpEmoteCode ([] ++ copyString) = [] := by
      rw [← copied [] 0 (by decide)]
      exact nothing count
    intro s suffix
    by_cases empty : s = []
    · rw [empty]
      exact cleaned
    · obtain ⟨start, reached, same⟩ := suffix_letters suffix empty
      rw [length_cellsOf] at reached
      have parts := additive start (selectionLength front) (selectionLength front + 1) (by omega) (by omega) (by omega)
      rw [selectedText_to silent reached count (by omega), selectedText_before silent reached (by omega),
        selectedText_one count (by omega), same, copied s 1 (by decide), copied [] 1 (by decide), cleaned,
        List.append_nil] at parts
      exact parts
  case h_2 copyStrings isImage =>
    have none_ := nothing (element.getSelectionIndexCount_pos (by rw [isImage]; exact Kind.noConfusion))
    rw [MessageLayoutElement.addCopyTextToString, isImage] at none_
    dsimp only at none_
    rwa [if_neg (by simp), List.nil_append] at none_
  case h_3 => trivial

theorem silent_of_additive (additive : Additive (front ++ behind)) (silent : Silent [] front)
    (small : selectionLength (front ++ behind) < 2 ^ 32) : Silent (letters (cellsOf front)) behind := by
  induction behind generalizing front with
  | nil => trivial
  | cons element rest ih =>
    have here := silentBehind_of_additive additive silent small
    have longer : Silent [] (front ++ [element]) := silent_append.mpr ⟨silent, here, trivial⟩
    have shape : front ++ element :: rest = (front ++ [element]) ++ rest := by
      rw [List.append_assoc, List.singleton_append]
    rw [shape] at additive small
    have later := ih additive longer small
    rw [cellsOf, List.flatMap_append, letters_append, List.flatMap_singleton] at later
    exact ⟨here, later⟩

end

/-- Where all indices are numbers of 32 bits, the text of a range is that of its parts and the full
range has the text of every element if and only if no emote adds something. -/
theorem copying_additive_iff (elements : List MessageLayoutElement) :
    (Silent [] elements → Additive elements ∧ CopiesAll elements) ∧
      (selectionLength elements < 2 ^ 32 → Additive elements ∧ CopiesAll elements → Silent [] elements) :=
  ⟨fun silent => ⟨additive_of_silent silent, copiesAll_of_silent silent⟩,
    fun small additive => @silent_of_additive [] elements additive.1 trivial small⟩

/-- An emote and a word behind it. -/
def greeting : List MessageLayoutElement :=
  [⟨.image (some (qs "LUL")), ⟨false, false, false, false, false, true, false, false⟩, [], true, 0, 28, 0⟩,
    ⟨.text, ⟨true, false, false, false, false, false, false, false⟩, qs "hi", false, 32, 12, 0⟩]

/-- A range that is split between an emote and its trailing space has the emote twice. -/
theorem split_emote_twice : ¬ ∀ elements : List MessageLayoutElement, Additive elements ∧ CopiesAll elements := by
  intro always
  have parts := congrArg List.length ((always greeting).1 0 1 2 (by decide) (by decide) (by decide))
  exact absurd parts (by decide)

end Forserino.Layouts
