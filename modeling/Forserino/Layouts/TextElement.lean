import Forserino.Layouts.Copying
import Forserino.Layouts.Lines

/-! Words that are laid out, those that fit in no line in pieces (messages/MessageElement.cpp), and the word that a double
click selects (messages/layouts/MessageLayoutContainer.cpp).

The ids of words stand beside the elements that have them.
-/

set_option autoImplicit false

namespace Forserino.Layouts

open Foundation Qt
open MessageLayoutContainer (withoutLastSpace withoutLastSpace_concat)

def isHighSurrogate (c : QChar) : Bool := 0xD800 ≤ c.toNat && c.toNat < 0xDC00

/-- The steps of the loop over the units of a word. -/
def characters : QString → List QString
  | [] => []
  | [unit] => [[unit]]
  | unit :: next :: rest =>
    if isHighSurrogate unit then [unit, next] :: characters rest else [unit] :: characters (next :: rest)

structure TextElement where
  words : List QString
  trailingSpace : Bool
  flags : MessageElementFlags
  deriving DecidableEq, Repr

/-- The container with the ids of its elements; -1 is the id of an element that is no word. -/
structure WordContainer where
  container : MessageLayoutContainer
  wordIds : List Int
  currentWordId : Nat

namespace WordContainer

def beginLayout (textDirection : TextDirection) : WordContainer := ⟨Layouts.beginLayout textDirection, [], 0⟩

variable (context : LayoutContext) (horizontalAdvance : QString → Int)

/-- An element is added in the current line, unless the message is full. -/
def addElementNoLineBreak (w : WordContainer) (element : MessageLayoutElement) (wordId : Int) : WordContainer :=
  { w with
    container := w.container.addElementNoLineBreak context element
    wordIds := if w.container.canAddElements then w.wordIds ++ [wordId] else w.wordIds }

def breakLine (w : WordContainer) : WordContainer := { w with container := w.container.breakLine context }

end WordContainer

namespace TextElement

variable (context : LayoutContext) (horizontalAdvance : QString → Int) (e : TextElement)

def getTextLayoutElement (text : QString) (width : Int) (hasTrailingSpace : Bool) : MessageLayoutElement :=
  ⟨.text, e.flags, text, hasTrailingSpace, 0, width, 0⟩

/-- The loop that wraps a word, with the piece of it that is to be added next, and its width. -/
def wrap (wordId : Int) (w : WordContainer) (piece : QString) (width : Int) : List QString → WordContainer
  | [] => w.addElementNoLineBreak context (e.getTextLayoutElement piece width e.trailingSpace) wordId
  | character :: rest =>
    let charWidth := horizontalAdvance character
    if !w.container.fitsInLine context (width + charWidth) then
      let broken := (w.addElementNoLineBreak context (e.getTextLayoutElement piece width false) wordId).breakLine context
      wrap wordId broken character charWidth rest
    else wrap wordId w (piece ++ character) (width + charWidth) rest

def addWord (w : WordContainer) (word : QString) : WordContainer :=
  let wordId : Int := w.currentWordId
  let w := { w with currentWordId := w.currentWordId + 1 }
  let width := horizontalAdvance word
  let whole := e.getTextLayoutElement word width e.trailingSpace
  if w.container.fitsInLine context width then w.addElementNoLineBreak context whole wordId
  else if !w.container.atStartOfLine then
    let broken := w.breakLine context
    if broken.container.fitsInLine context width then broken.addElementNoLineBreak context whole wordId
    else e.wrap context horizontalAdvance wordId broken [] 0 (characters word)
  else e.wrap context horizontalAdvance wordId w [] 0 (characters word)

def addToContainer (w : WordContainer) : WordContainer :=
  e.words.foldl (e.addWord context horizontalAdvance) w

end TextElement

/-- What the elements of a message do: a text adds its words, and other elements what is no word. -/
inductive WordCall where
  | text (element : TextElement)
  | other (call : Call)

def WordContainer.step (context : LayoutContext) (horizontalAdvance : QString → Int) (w : WordContainer) :
    WordCall → Option WordContainer
  | .text element => some (element.addToContainer context horizontalAdvance w)
  | .other (.addElement element) =>
    let broken := if w.container.fitsInLine context element.width then w else w.breakLine context
    some (broken.addElementNoLineBreak context element (-1))
  | .other (.addElementNoLineBreak element) => some (w.addElementNoLineBreak context element (-1))
  | .other .breakLine => some (w.breakLine context)

/-- The words of the calls, in the order of their ids. -/
def WordCall.words : WordCall → List QString
  | .text element => element.words
  | .other _ => []

/-- The bounds of the word with an id: the elements before the first that has it, and those that have it. -/
def getWordBounds (elements : List (MessageLayoutElement × Int)) (wordId : Int) : Nat × Nat :=
  if elements.isEmpty then (0, 0)
  else
    let before := elements.takeWhile fun element => element.2 ≠ wordId
    let inside := (elements.drop before.length).takeWhile fun element => element.2 = wordId
    let wordStart := selectionLength (before.map Prod.fst)
    let wordEnd := wordStart + selectionLength (inside.map Prod.fst)
    match elements[before.length + inside.length - 1]? with
    | some lastElementInSelection => (wordStart, if lastElementInSelection.1.trailingSpace then wordEnd - 1 else wordEnd)
    | none => (wordStart, wordEnd)

/-! ## Pieces of words -/

theorem characters_flatten (word : QString) : (characters word).flatten = word := by
  induction word using characters.induct with
  | case1 => rfl
  | case2 unit => rfl
  | case3 unit next rest high ih => rw [characters, if_pos high, List.flatten_cons, ih]; rfl
  | case4 unit next rest low ih => rw [characters, if_neg low, List.flatten_cons, ih]; rfl

/-- Texts that are a word one after the other, of which only the last can have a space. -/
structure Spells (word : QString) (pieces : List MessageLayoutElement) : Prop where
  some_ : pieces ≠ []
  texts : ∀ piece ∈ pieces, piece.kind = .text
  word : pieces.flatMap MessageLayoutElement.text = word
  spaces : ∀ piece ∈ pieces.dropLast, piece.trailingSpace = false

variable {word : QString} {words : List QString} {pieces : List MessageLayoutElement}

theorem Spells.cons (rest : Spells word pieces) (piece : MessageLayoutElement) (text : piece.kind = .text)
    (noSpace : piece.trailingSpace = false) : Spells (piece.text ++ word) (piece :: pieces) where
  some_ := List.cons_ne_nil _ _
  texts := List.forall_mem_cons.mpr ⟨text, rest.texts⟩
  word := by rw [List.flatMap_cons, rest.word]
  spaces := by
    rw [List.dropLast_cons_of_ne_nil rest.some_]
    exact List.forall_mem_cons.mpr ⟨noSpace, rest.spaces⟩

theorem spells_one (piece : MessageLayoutElement) (text : piece.kind = .text) : Spells piece.text [piece] where
  some_ := List.cons_ne_nil _ _
  texts := List.forall_mem_singleton.mpr text
  word := List.flatMap_singleton ..
  spaces _ none_ := absurd none_ List.not_mem_nil

theorem spells_concat {front : List MessageLayoutElement} {last : MessageLayoutElement} :
    Spells word (front ++ [last]) ↔ (∀ piece ∈ front, piece.kind = .text ∧ piece.trailingSpace = false) ∧
      last.kind = .text ∧ front.flatMap MessageLayoutElement.text ++ last.text = word := by
  constructor
  · rintro ⟨-, texts, rfl, spaces⟩
    rw [List.dropLast_concat] at spaces
    refine ⟨fun piece member => ⟨texts piece (List.mem_append_left _ member), spaces piece member⟩,
      texts last (List.mem_append_right _ (List.mem_singleton_self last)), ?_⟩
    rw [List.flatMap_append, List.flatMap_singleton]
  · rintro ⟨plain, text, rfl⟩
    refine ⟨List.append_ne_nil_of_right_ne_nil _ (List.cons_ne_nil _ _), ?_, ?_, ?_⟩
    · rw [List.forall_mem_append]
      exact ⟨fun piece member => (plain piece member).1, List.forall_mem_singleton.mpr text⟩
    · rw [List.flatMap_append, List.flatMap_singleton]
    · rw [List.dropLast_concat]
      exact fun piece member => (plain piece member).2

/-- The places of the pieces do not matter. -/
theorem spells_unplaced : Spells word (pieces.map MessageLayoutElement.unplaced) ↔ Spells word pieces := by
  rcases List.eq_nil_or_concat' pieces with rfl | ⟨front, last, rfl⟩
  · exact iff_of_false (fun spells => spells.some_ rfl) fun spells => spells.some_ rfl
  · rw [List.map_append, List.map_singleton, spells_concat, spells_concat, List.forall_mem_map, List.flatMap_map]
    exact Iff.rfl

theorem Spells.spaceless (spells : Spells word pieces) : Spells word (withoutLastSpace pieces) := by
  rcases List.eq_nil_or_concat' pieces with rfl | ⟨front, last, rfl⟩
  · exact absurd rfl spells.some_
  · obtain ⟨plain, text, same⟩ := spells_concat.mp spells
    rw [withoutLastSpace_concat]
    exact spells_concat.mpr ⟨plain, text, same⟩

/-- The selection indices of the pieces are those of the word, and one for the space. -/
theorem Spells.cells (spells : Spells word pieces) : ∃ last, pieces.getLast? = some last ∧
    cellsOf pieces = word.map some ++ if last.trailingSpace then [some (u ' ')] else [] := by
  rcases List.eq_nil_or_concat' pieces with rfl | ⟨front, last, rfl⟩
  · exact absurd rfl spells.some_
  · obtain ⟨plain, text, rfl⟩ := spells_concat.mp spells
    refine ⟨last, List.getLast?_concat, ?_⟩
    have letters : cellsOf front = (front.flatMap MessageLayoutElement.text).map some := by
      rw [List.map_flatMap]
      apply List.flatMap_congr
      intro piece member
      obtain ⟨isText, noSpace⟩ := plain piece member
      rw [MessageLayoutElement.cells, isText, noSpace]
      exact List.append_nil _
    rw [cellsOf, List.flatMap_append, ← cellsOf, letters, List.flatMap_singleton, MessageLayoutElement.cells, text,
      List.map_append, List.append_assoc]

/-! ## The blocks of a message -/

/-- An element that is no word, or all the elements of a word. -/
inductive Block where
  | other (element : MessageLayoutElement)
  | word (id : Nat) (pieces : List MessageLayoutElement)

namespace Block

def elements : Block → List MessageLayoutElement
  | .other element => [element]
  | .word _ pieces => pieces

def ids : Block → List Int
  | .other _ => [-1]
  | .word id pieces => List.replicate pieces.length id

/-- A word is that of its id. -/
def Suits (words : List QString) : Block → Prop
  | .other _ => True
  | .word id pieces => ∃ word, words[id]? = some word ∧ Spells word pieces

/-- The blocks of words come in the order of their ids. -/
def Before : Block → Block → Prop
  | .word id _, .word later _ => id < later
  | _, _ => True

theorem Suits.more {block : Block} (suits : block.Suits words) (more : List QString) : block.Suits (words ++ more) := by
  cases block with
  | other => trivial
  | word id pieces =>
    obtain ⟨word, there, spells⟩ := suits
    exact ⟨word, (List.getElem?_append_left (List.getElem?_eq_some_iff.mp there).1).trans there, spells⟩

theorem Suits.some {block : Block} (suits : block.Suits words) : block.elements ≠ [] := by
  cases block with
  | other => exact List.cons_ne_nil _ _
  | word id pieces =>
    obtain ⟨_, _, spells⟩ := suits
    exact spells.some_

theorem length_ids (block : Block) : block.ids.length = block.elements.length := by
  cases block with
  | other => rfl
  | word => exact List.length_replicate

end Block

/-- The elements and their ids are those of blocks. -/
def Blocks (words : List QString) (elements : List MessageLayoutElement) (wordIds : List Int) : Prop :=
  ∃ blocks : List Block, elements = blocks.flatMap Block.elements ∧ wordIds = blocks.flatMap Block.ids ∧
    (∀ block ∈ blocks, block.Suits words) ∧ blocks.Pairwise Block.Before

variable {elements : List MessageLayoutElement} {wordIds : List Int}

theorem blocks_concat {front : List Block} (last : Block) (suits : ∀ block ∈ front, block.Suits words)
    (ordered : front.Pairwise Block.Before) (lastSuits : last.Suits words) (before : ∀ block ∈ front, block.Before last) :
    Blocks words (front.flatMap Block.elements ++ last.elements) (front.flatMap Block.ids ++ last.ids) := by
  refine ⟨front ++ [last], ?_, ?_, ?_, ?_⟩
  · rw [List.flatMap_append, List.flatMap_singleton]
  · rw [List.flatMap_append, List.flatMap_singleton]
  · rw [List.forall_mem_append, List.forall_mem_singleton]
    exact ⟨suits, lastSuits⟩
  · refine List.pairwise_append.mpr ⟨ordered, List.pairwise_singleton _ _, fun block member last isLast => ?_⟩
    exact List.mem_singleton.mp isLast ▸ before block member

theorem before_other (block : Block) (element : MessageLayoutElement) : block.Before (.other element) := by
  cases block <;> trivial

theorem Blocks.addOther (blocks : Blocks words elements wordIds) (element : MessageLayoutElement) :
    Blocks words (elements ++ [element]) (wordIds ++ [-1]) := by
  obtain ⟨blocks, rfl, rfl, suits, ordered⟩ := blocks
  exact blocks_concat (.other element) suits ordered trivial fun block _ => before_other block element

theorem Blocks.addWord (blocks : Blocks words elements wordIds) (spells : Spells word pieces) :
    Blocks (words ++ [word]) (elements ++ pieces) (wordIds ++ List.replicate pieces.length (words.length : Int)) := by
  obtain ⟨blocks, rfl, rfl, suits, ordered⟩ := blocks
  refine blocks_concat (.word words.length pieces) (fun block member => (suits block member).more [word]) ordered
    ⟨word, List.getElem?_concat_length, spells⟩ fun block member => ?_
  cases block with
  | other => trivial
  | word id pieces =>
    obtain ⟨_, there, _⟩ := suits _ member
    exact (List.getElem?_eq_some_iff.mp there).1

theorem withoutLastSpace_append (front : List MessageLayoutElement) {last : List MessageLayoutElement} (some_ : last ≠ []) :
    withoutLastSpace (front ++ last) = front ++ withoutLastSpace last := by
  rcases List.eq_nil_or_concat' last with rfl | ⟨before, final, rfl⟩
  · exact absurd rfl some_
  · rw [← List.append_assoc, withoutLastSpace_concat, withoutLastSpace_concat, List.append_assoc]

theorem length_withoutLastSpace (elements : List MessageLayoutElement) :
    (withoutLastSpace elements).length = elements.length := by
  rcases List.eq_nil_or_concat' elements with rfl | ⟨front, last, rfl⟩
  · rfl
  · rw [withoutLastSpace_concat, List.length_append, List.length_append]
    rfl

/-- The space is taken away from the last block. -/
theorem Blocks.spaceless (blocks : Blocks words elements wordIds) : Blocks words (withoutLastSpace elements) wordIds := by
  obtain ⟨blocks, rfl, rfl, suits, ordered⟩ := blocks
  rcases List.eq_nil_or_concat' blocks with rfl | ⟨front, last, rfl⟩
  · exact ⟨[], rfl, rfl, suits, ordered⟩
  · obtain ⟨before, -, behind⟩ := List.pairwise_append.mp ordered
    rw [List.forall_mem_append, List.forall_mem_singleton] at suits
    rw [List.flatMap_append, List.flatMap_singleton, withoutLastSpace_append _ suits.2.some, List.flatMap_append,
      List.flatMap_singleton]
    cases last with
    | other element =>
      exact blocks_concat (.other { element with trailingSpace := false }) suits.1 before trivial
        fun block _ => before_other block _
    | word id pieces =>
      obtain ⟨word, there, spells⟩ := suits.2
      rw [Block.ids, ← length_withoutLastSpace pieces]
      refine blocks_concat (.word id (withoutLastSpace pieces)) suits.1 before ⟨word, there, spells.spaceless⟩
        fun block member => ?_
      have earlier := behind block member _ (List.mem_singleton_self _)
      cases block <;> exact earlier

theorem Blocks.length (blocks : Blocks words elements wordIds) : elements.length = wordIds.length := by
  obtain ⟨blocks, rfl, rfl, -⟩ := blocks
  rw [List.length_flatMap, List.length_flatMap]
  simp only [Block.length_ids]

/-- The elements of a word stand together, and no other element has its id. -/
theorem Blocks.find {id : Int} (blocks : Blocks words elements wordIds) (among : id ∈ wordIds) (isWord : id ≠ -1) :
    ∃ word front pieces behind frontIds behindIds, words[id.toNat]? = some word ∧ Spells word pieces ∧
      elements = front ++ (pieces ++ behind) ∧ wordIds = frontIds ++ (List.replicate pieces.length id ++ behindIds) ∧
      frontIds.length = front.length ∧ behindIds.length = behind.length ∧ id ∉ frontIds ∧ id ∉ behindIds := by
  obtain ⟨blocks, rfl, rfl, suits, ordered⟩ := blocks
  induction blocks with
  | nil => cases among
  | cons block blocks ih =>
    rw [List.forall_mem_cons] at suits
    obtain ⟨before, ordered⟩ := List.pairwise_cons.mp ordered
    rw [List.flatMap_cons, List.mem_append] at among
    rw [List.flatMap_cons, List.flatMap_cons]
    have lengths := (Blocks.length ⟨blocks, rfl, rfl, suits.2, ordered⟩).symm
    by_cases here : id ∈ block.ids
    · cases block with
      | other => exact absurd (List.mem_singleton.mp here) isWord
      | word number pieces =>
        obtain rfl := List.eq_of_mem_replicate here
        obtain ⟨word, there, spells⟩ := suits.1
        refine ⟨word, [], pieces, _, [], _, there, spells, rfl, rfl, rfl, lengths, List.not_mem_nil, fun later => ?_⟩
        -- the ids behind it are greater
        obtain ⟨other, member, inside⟩ := List.mem_flatMap.mp later
        have greater := before other member
        cases other with
        | other => exact absurd (List.mem_singleton.mp inside) isWord
        | word number' pieces' =>
          have same := Int.ofNat.inj (List.eq_of_mem_replicate inside)
          change number < number' at greater
          omega
    · obtain ⟨word, front, pieces, behind, frontIds, behindIds, there, spells, same, ids, frontLength, behindLength,
        notFront, notBehind⟩ := ih (among.resolve_left here) suits.2 ordered
      refine ⟨word, block.elements ++ front, pieces, behind, block.ids ++ frontIds, behindIds, there, spells, ?_, ?_, ?_,
        behindLength, ?_, notBehind⟩
      · rw [same, List.append_assoc]
      · rw [ids, List.append_assoc]
      · rw [List.length_append, List.length_append, frontLength, block.length_ids]
      · rw [List.mem_append, not_or]
        exact ⟨here, notFront⟩

/-! ## A double click -/

theorem takeWhile_zip_front {front rest : List (MessageLayoutElement × Int)} {p : MessageLayoutElement × Int → Bool}
    (all : ∀ element ∈ front, p element = true) (stops : ∀ element ∈ rest.head?, p element = false) :
    (front ++ rest).takeWhile p = front := by
  rw [List.takeWhile_append_of_pos all]
  cases rest with
  | nil => exact List.append_nil front
  | cons element rest => rw [List.takeWhile_cons_of_neg (Bool.eq_false_iff.mp (stops element rfl)), List.append_nil]

/-- The elements with an id, of which the last one decides about the space. -/
theorem getWordBounds_run {front inside behind : List (MessageLayoutElement × Int)} {last : MessageLayoutElement × Int}
    {id : Int} (before : ∀ element ∈ front, element.2 ≠ id) (run : ∀ element ∈ inside ++ [last], element.2 = id)
    (after : ∀ element ∈ behind, element.2 ≠ id) :
    getWordBounds (front ++ (inside ++ [last] ++ behind)) id =
      (selectionLength (front.map Prod.fst), selectionLength (front.map Prod.fst) +
        selectionLength ((inside ++ [last]).map Prod.fst) - if last.1.trailingSpace then 1 else 0) := by
  have some_ : (front ++ (inside ++ [last] ++ behind)).isEmpty = false := by simp
  have first : (front ++ (inside ++ [last] ++ behind)).takeWhile (fun element => element.2 ≠ id) = front := by
    apply takeWhile_zip_front
    · exact fun element member => decide_eq_true (before element member)
    · intro element isFirst
      have member : element ∈ inside ++ [last] := by
        cases inside with
        | nil => exact Option.some.inj isFirst ▸ List.mem_cons_self
        | cons => exact Option.some.inj isFirst ▸ List.mem_cons_self
      simpa using run element member
  have second : (inside ++ [last] ++ behind).takeWhile (fun element => element.2 = id) = inside ++ [last] := by
    apply takeWhile_zip_front
    · exact fun element member => decide_eq_true (run element member)
    · exact fun element isNext => decide_eq_false (after element (List.mem_of_mem_head? isNext))
  -- index - 1 is the last element with the id
  have place : (front ++ (inside ++ [last] ++ behind))[front.length + (inside ++ [last]).length - 1]? = some last := by
    rw [List.length_append, List.length_singleton, ← Nat.add_assoc, Nat.add_sub_cancel,
      List.getElem?_append_right (Nat.le_add_right _ _), Nat.add_sub_cancel_left, List.append_assoc,
      List.getElem?_append_right (Nat.le_refl _), Nat.sub_self]
    rfl
  rw [getWordBounds, some_, if_neg Bool.false_ne_true]
  simp only [first, List.drop_left, second, place]
  split <;> rfl

theorem selectionLength_append (front behind : List MessageLayoutElement) :
    selectionLength (front ++ behind) = selectionLength front + selectionLength behind := by
  rw [selectionLength, List.map_append, List.sum_append]
  rfl

/-- The bounds of a word are those of its elements, without the space. -/
theorem getWordBounds_spells {front behind : List MessageLayoutElement} {frontIds behindIds : List Int} {id : Int}
    (spells : Spells word pieces) (frontLength : frontIds.length = front.length) (notFront : id ∉ frontIds)
    (notBehind : id ∉ behindIds) :
    getWordBounds ((front ++ (pieces ++ behind)).zip (frontIds ++ (List.replicate pieces.length id ++ behindIds))) id =
      (selectionLength front, selectionLength front + word.length) := by
  obtain ⟨last, isLast, cells⟩ := spells.cells
  have length := congrArg List.length cells
  rw [length_cellsOf, List.length_append, List.length_map] at length
  obtain ⟨before, rfl⟩ := List.getLast?_eq_some_iff.mp isLast
  have ids : List.replicate (before ++ [last]).length id = List.replicate before.length id ++ [id] := by
    rw [List.length_append, List.length_singleton, List.replicate_succ']
  have fsts {elements : List MessageLayoutElement} {ids : List Int} (same : ids.length = elements.length) :
      (elements.zip ids).map Prod.fst = elements := List.map_fst_zip (Nat.le_of_eq same.symm)
  rw [List.zip_append frontLength.symm, List.zip_append List.length_replicate.symm, ids,
    List.zip_append List.length_replicate.symm, List.zip_cons_cons, List.zip_nil_left, getWordBounds_run]
  · rw [fsts frontLength, List.map_append, fsts List.length_replicate, List.map_singleton, length]
    congr 1
    split <;> simp
  · exact fun element member same => notFront (same ▸ (List.of_mem_zip member).2)
  · rw [List.forall_mem_append, List.forall_mem_singleton]
    exact ⟨fun element member => List.eq_of_mem_replicate (List.of_mem_zip member).2, rfl⟩
  · exact fun element member same => notBehind (same ▸ (List.of_mem_zip member).2)

/-- What is copied of the elements of a word is the word. -/
theorem selectedText_spells {front behind : List MessageLayoutElement} (spells : Spells word pieces) (some_ : word ≠ [])
    (small : selectionLength front + word.length < 2 ^ 32) :
    selectedText (front ++ (pieces ++ behind)) (selectionLength front) (selectionLength front + word.length) = word := by
  have silent {pieces : List MessageLayoutElement} (texts : ∀ piece ∈ pieces, piece.kind = .text) (before : QString) :
      Silent before pieces := by
    induction pieces generalizing before with
    | nil => trivial
    | cons piece pieces ih =>
      rw [List.forall_mem_cons] at texts
      refine ⟨?_, ih texts.2 _⟩
      rw [MessageLayoutElement.SilentBehind, texts.1]
      trivial
  obtain ⟨last, -, cells⟩ := spells.cells
  have length := congrArg List.length cells
  rw [length_cellsOf, List.length_append, List.length_map] at length
  have positive := List.length_pos_iff.mpr some_
  rw [selectedText, addSelectionText, loop_pass_all front (by omega) (by omega), Nat.zero_add,
    loop_cells (silent spells.texts []) (Nat.le_refl _) (by omega) small (.inr ⟨by omega, by omega⟩), Nat.sub_self,
    List.drop_zero, Nat.add_sub_cancel_left, cells, List.take_append_of_le_length (by rw [List.length_map]),
    List.take_of_length_le (by rw [List.length_map]), letters_map]

/-! ## Texts that are laid out -/

namespace WordContainer

variable {context : LayoutContext} {horizontalAdvance : QString → Int} {w next later : WordContainer}
  {added more : List MessageLayoutElement} {wordId : Int}

/-- Unless the message is full, the elements are added with one id. -/
structure Grows (w next : WordContainer) (added : List MessageLayoutElement) (wordId : Int) : Prop where
  ruled : next.container.Ruled
  can : next.container.canAddMessages = true → w.container.canAddMessages = true
  elements : next.container.canAddMessages = true →
    next.container.elements.map MessageLayoutElement.unplaced =
      w.container.elements.map MessageLayoutElement.unplaced ++ added.map MessageLayoutElement.unplaced
  wordIds : next.container.canAddMessages = true → next.wordIds = w.wordIds ++ List.replicate added.length wordId
  currentWordId : next.currentWordId = w.currentWordId

theorem Grows.trans (first : Grows w next added wordId) (second : Grows next later more wordId) :
    Grows w later (added ++ more) wordId where
  ruled := second.ruled
  can := fun can => first.can (second.can can)
  elements can := by
    rw [second.elements can, first.elements (second.can can), List.map_append, List.append_assoc]
  wordIds can := by
    rw [second.wordIds can, first.wordIds (second.can can), List.append_assoc, List.replicate_append_replicate,
      List.length_append]
  currentWordId := second.currentWordId.trans first.currentWordId

theorem addElement_grows (ruled : w.container.Ruled) (element : MessageLayoutElement) (wordId : Int) :
    Grows w (w.addElementNoLineBreak context element wordId) [element] wordId where
  ruled := ruled.pushElement element false
  can can := by
    obtain ⟨-, -, -, -, same⟩ := @MessageLayoutContainer.pushElement_frame context w.container element false
    exact same ▸ can
  elements can := by
    rcases @MessageLayoutContainer.pushElement_added context w.container element false with ⟨same, full, -⟩ | ⟨x, added⟩
    · change (w.container.pushElement context element false).canAddMessages = true at can
      rw [same, full] at can
      cases can
    · change (w.container.pushElement context element false).elements.map _ = _
      rw [added, List.map_append]
      rfl
  wordIds can := by
    obtain ⟨-, -, -, -, same⟩ := @MessageLayoutContainer.pushElement_frame context w.container element false
    exact if_pos (same.symm.trans can)
  currentWordId := rfl

theorem breakLine_grows (ruled : w.container.Ruled) (wordId : Int) : Grows w (w.breakLine context) [] wordId := by
  obtain ⟨unplaced, -, -, -, -, ends⟩ := @MessageLayoutContainer.breakLine_broken context w.container ruled.onLine
  refine ⟨ruled.breakLine, fun can => ?_, fun _ => unplaced.trans (List.append_nil _).symm,
    fun _ => (List.append_nil _).symm, rfl⟩
  rcases ends with ⟨-, full⟩ | ⟨-, same⟩
  · exact absurd (can.symm.trans full) (by decide)
  · exact same ▸ can

variable (e : TextElement)

/-- The pieces that are added are the rest of the word. -/
theorem wrap_grows (ruled : w.container.Ruled) (piece : QString) (width : Int) (rest : List QString) :
    ∃ pieces, Spells (piece ++ rest.flatten) pieces ∧
      Grows w (e.wrap context horizontalAdvance wordId w piece width rest) pieces wordId := by
  induction rest generalizing w piece width with
  | nil =>
    refine ⟨[e.getTextLayoutElement piece width e.trailingSpace], ?_, addElement_grows ruled _ wordId⟩
    rw [List.flatten_nil, List.append_nil]
    exact spells_one (e.getTextLayoutElement piece width e.trailingSpace) rfl
  | cons character rest ih =>
    rw [TextElement.wrap]
    dsimp only
    split
    · have pushed := @addElement_grows context w ruled (e.getTextLayoutElement piece width false) wordId
      have broken := @breakLine_grows context _ pushed.ruled wordId
      obtain ⟨pieces, spells, grows⟩ := ih broken.ruled character (horizontalAdvance character)
      exact ⟨_, spells.cons (e.getTextLayoutElement piece width false) rfl rfl, (pushed.trans broken).trans grows⟩
    · obtain ⟨pieces, spells, grows⟩ := ih ruled (piece ++ character) (width + horizontalAdvance character)
      rw [List.append_assoc] at spells
      exact ⟨pieces, spells, grows⟩

/-- A word is added in pieces that have its id. -/
theorem addWord_grows (ruled : w.container.Ruled) (word : QString) :
    ∃ pieces, Spells word pieces ∧ Grows { w with currentWordId := w.currentWordId + 1 }
      (e.addWord context horizontalAdvance w word) pieces w.currentWordId := by
  have wrapped {w : WordContainer} {wordId : Int} (ruled : w.container.Ruled) : ∃ pieces, Spells word pieces ∧
      Grows w (e.wrap context horizontalAdvance wordId w [] 0 (characters word)) pieces wordId := by
    obtain ⟨pieces, spells, grows⟩ := @wrap_grows context horizontalAdvance w wordId e ruled [] 0 (characters word)
    rw [characters_flatten] at spells
    exact ⟨pieces, spells, grows⟩
  have whole {w : WordContainer} {wordId : Int} (ruled : w.container.Ruled) (width : Int) : ∃ pieces, Spells word pieces ∧
      Grows w (w.addElementNoLineBreak context (e.getTextLayoutElement word width e.trailingSpace) wordId) pieces wordId :=
    ⟨_, spells_one (e.getTextLayoutElement word width e.trailingSpace) rfl, addElement_grows ruled _ wordId⟩
  unfold TextElement.addWord
  dsimp only
  split
  · exact whole (w := { w with currentWordId := w.currentWordId + 1 }) ruled _
  · split
    · have broken := @breakLine_grows context { w with currentWordId := w.currentWordId + 1 } ruled w.currentWordId
      split
      · obtain ⟨pieces, spells, grows⟩ := whole broken.ruled (horizontalAdvance word)
        exact ⟨pieces, spells, broken.trans grows⟩
      · obtain ⟨pieces, spells, grows⟩ := wrapped broken.ruled
        exact ⟨pieces, spells, broken.trans grows⟩
    · exact wrapped (w := { w with currentWordId := w.currentWordId + 1 }) ruled

/-- The words so far, and the blocks that the elements are in, unless the message is full. -/
structure Worded (words : List QString) (w : WordContainer) : Prop where
  ruled : w.container.Ruled
  currentWordId : w.currentWordId = words.length
  blocks : w.container.canAddMessages = true →
    Blocks words (w.container.elements.map MessageLayoutElement.unplaced) w.wordIds

variable {words : List QString}

theorem worded_begin (textDirection : TextDirection) : Worded [] (beginLayout textDirection) where
  ruled := MessageLayoutContainer.ruled_begin textDirection
  currentWordId := rfl
  blocks _ := ⟨[], rfl, rfl, List.forall_mem_nil _, .nil⟩

theorem Worded.addWord (worded : Worded words w) (word : QString) :
    Worded (words ++ [word]) (e.addWord context horizontalAdvance w word) := by
  obtain ⟨pieces, spells, grows⟩ := @addWord_grows context horizontalAdvance w e worded.ruled word
  refine ⟨grows.ruled, ?_, fun can => ?_⟩
  · rw [grows.currentWordId, List.length_append]
    exact congrArg (· + 1) worded.currentWordId
  · rw [grows.elements can, grows.wordIds can, worded.currentWordId, ← List.length_map MessageLayoutElement.unplaced]
    exact (worded.blocks (grows.can can)).addWord (spells_unplaced.mpr spells)

theorem Worded.addToContainer (worded : Worded words w) :
    Worded (words ++ e.words) (e.addToContainer context horizontalAdvance w) := by
  unfold TextElement.addToContainer
  induction e.words generalizing words w with
  | nil => rwa [List.append_nil]
  | cons word rest ih =>
    rw [List.foldl_cons, List.append_cons]
    exact ih (worded.addWord e word)

/-- An element that is no word. -/
theorem Worded.addOther {element : MessageLayoutElement} (worded : Worded words w)
    (grows : Grows w next [element] (-1)) : Worded words next := by
  refine ⟨grows.ruled, grows.currentWordId.trans worded.currentWordId, fun can => ?_⟩
  rw [grows.elements can, grows.wordIds can]
  exact (worded.blocks (grows.can can)).addOther element.unplaced

theorem Worded.breakLine (worded : Worded words w) : Worded words (w.breakLine context) := by
  have broken := @breakLine_grows context w worded.ruled (-1)
  refine ⟨broken.ruled, worded.currentWordId, fun can => ?_⟩
  rw [broken.elements can, List.map_nil, List.append_nil]
  exact worded.blocks (broken.can can)

theorem step_worded {call : WordCall} (worded : Worded words w)
    (taken : w.step context horizontalAdvance call = some next) : Worded (words ++ call.words) next := by
  cases call with
  | text element =>
    obtain rfl := Option.some.inj taken
    exact worded.addToContainer element
  | other call =>
    rw [WordCall.words, List.append_nil]
    cases call with
    | addElement element =>
      obtain rfl := Option.some.inj taken
      split
      · exact worded.addOther (addElement_grows worded.ruled element (-1))
      · have broken := @Worded.breakLine context w words worded
        exact broken.addOther (addElement_grows broken.ruled element (-1))
    | addElementNoLineBreak element =>
      obtain rfl := Option.some.inj taken
      exact worded.addOther (addElement_grows worded.ruled element (-1))
    | breakLine =>
      obtain rfl := Option.some.inj taken
      exact worded.breakLine

theorem run_worded {calls : List WordCall} (worded : Worded words w)
    (ran : run (step context horizontalAdvance) w calls = some next) : Worded (words ++ calls.flatMap WordCall.words) next := by
  induction calls generalizing words w with
  | nil =>
    obtain rfl := Option.some.inj ran
    rwa [List.flatMap_nil, List.append_nil]
  | cons call calls ih =>
    obtain ⟨middle, taken, rest⟩ := run_cons ran
    rw [List.flatMap_cons, ← List.append_assoc]
    exact ih (step_worded worded taken) rest

/-- The elements of a message that is not full are in the blocks, when its last space is gone. -/
theorem Worded.ended {final : MessageLayoutContainer} (worded : Worded words w)
    (can : w.container.canAddMessages = true) (ends : w.container.EndsAs context final)
    (unsorted : (w.container.finish context).anyReorderingDone = false) :
    Blocks words (final.elements.map MessageLayoutElement.unplaced) w.wordIds := by
  unfold MessageLayoutContainer.EndsAs at ends
  dsimp only at ends
  rw [if_neg (Bool.eq_false_iff.mp unsorted)] at ends
  have same : (withoutLastSpace (w.container.ended context).elements).map MessageLayoutElement.unplaced =
      withoutLastSpace (w.container.elements.map MessageLayoutElement.unplaced) := by
    have unplaced := (@MessageLayoutContainer.Ruled.ended context w.container worded.ruled).unplaced
    rw [can, if_pos rfl, List.append_nil] at unplaced
    rw [← unplaced]
    rcases List.eq_nil_or_concat' (w.container.ended context).elements with none_ | ⟨front, last, shape⟩
    · rw [none_]
      rfl
    · rw [shape, withoutLastSpace_concat, List.map_append, List.map_append, List.map_singleton, List.map_singleton,
        withoutLastSpace_concat]
      rfl
  rw [ends]
  exact same ▸ (worded.blocks can).spaceless

/-- A double click on any piece of a word selects the word, and copies it, however it was wrapped. -/
theorem double_click_copies_word {calls : List WordCall} {textDirection : TextDirection} {final : MessageLayoutContainer}
    (ran : run (step context horizontalAdvance) (beginLayout textDirection) calls = some w)
    (can : w.container.canAddMessages = true) (ends : w.container.EndsAs context final)
    (unsorted : (w.container.finish context).anyReorderingDone = false)
    (small : selectionLength final.elements < 2 ^ 32) :
    final.elements.length = w.wordIds.length ∧ ∀ id ∈ w.wordIds, id ≠ -1 →
      ∃ word, (calls.flatMap WordCall.words)[id.toNat]? = some word ∧ (word ≠ [] →
        let (wordStart, wordEnd) := getWordBounds (final.elements.zip w.wordIds) id
        selectedText final.elements wordStart wordEnd = word) := by
  have blocks := (run_worded (worded_begin textDirection) ran).ended can ends unsorted
  rw [List.nil_append] at blocks
  refine ⟨List.length_map MessageLayoutElement.unplaced ▸ blocks.length, fun id among isWord => ?_⟩
  obtain ⟨word, front, pieces, behind, frontIds, behindIds, there, spells, parts, ids, frontLength, -, notFront,
    notBehind⟩ := blocks.find among isWord
  obtain ⟨front', rest, shape, rfl, back⟩ := List.map_eq_append_iff.mp parts
  obtain ⟨pieces', behind', rfl, rfl, rfl⟩ := List.map_eq_append_iff.mp back
  rw [List.length_map] at frontLength ids
  have spells' := spells_unplaced.mp spells
  refine ⟨word, there, fun some_ => ?_⟩
  rw [shape, ids, getWordBounds_spells spells' frontLength notFront notBehind]
  dsimp only
  -- the pieces are the word when their last space is taken off
  apply selectedText_spells spells' some_
  obtain ⟨last, -, cells⟩ := spells'.cells
  have length := congrArg List.length cells
  rw [length_cellsOf, List.length_append, List.length_map] at length
  rw [shape, selectionLength_append, selectionLength_append] at small
  omega

/-- The word fits in no line, and is wrapped behind its second letter. -/
theorem double_click_copies_word_wrapped :
    let element : TextElement := ⟨[[104, 105], [119, 105, 100, 101]], true, (MessageLayoutContainer.word [] true).flags⟩
    let advance (text : QString) : Int := 30 * text.length
    ∃ w, run (step MessageLayoutContainer.narrow advance) (beginLayout .neutral) [.text element] = some w ∧
      w.wordIds = [0, 1, 1] ∧
      let final := w.container.finish MessageLayoutContainer.narrow
      let (wordStart, wordEnd) := getWordBounds (final.elements.zip w.wordIds) 1
      selectedText final.elements wordStart wordEnd = [119, 105, 100, 101] := by
  intro element advance
  have computed : (run (step MessageLayoutContainer.narrow advance) (beginLayout .neutral) [.text element]).map
      (fun w : WordContainer => (w.wordIds, w.container.canAddMessages,
        (w.container.finish MessageLayoutContainer.narrow).anyReorderingDone,
        selectionLength (w.container.finish MessageLayoutContainer.narrow).elements)) =
      some ([0, 1, 1], true, false, 7) := by decide
  obtain ⟨w, ran, facts⟩ := Option.map_eq_some_iff.mp computed
  simp only [Prod.mk.injEq] at facts
  obtain ⟨ids, can, unsorted, length⟩ := facts
  refine ⟨w, ran, ids, ?_⟩
  have ends : w.container.EndsAs MessageLayoutContainer.narrow (w.container.finish MessageLayoutContainer.narrow) := by
    unfold MessageLayoutContainer.EndsAs
    rw [if_neg (Bool.eq_false_iff.mp unsorted)]
  obtain ⟨word, there, copies⟩ := (double_click_copies_word ran can ends unsorted (by omega)).2 1
    (by rw [ids]; decide) (by decide)
  obtain rfl := Option.some.inj there
  exact copies (by decide)

end WordContainer

end Forserino.Layouts
