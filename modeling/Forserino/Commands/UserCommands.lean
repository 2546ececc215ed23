import Mathlib.Data.List.AList
import Forserino.Common.SignalVectorModel
import Forserino.Foundation.Runs
import Forserino.Qt.Text

/-! The table of user commands, which follows the signals of the items, and the lookup of a
message in it.
-/

set_option autoImplicit false

namespace Forserino.Commands

open Forserino.Qt Forserino.Foundation Forserino.Common

/-- The name is what triggers the command. -/
structure Command where
  name : QString
  func : QString
  deriving DecidableEq, Repr

structure CommandController where
  items : SignalVector Command
  userCommands : AList fun _ : QString => Command
  maxSpaces : Nat

/-! ## The table -/

namespace CommandController

/-- A controller before anything is inserted; the items are not sorted. -/
def empty : CommandController := { items := { itemCompare := none, items := [] }, userCommands := ∅, maxSpaces := 0 }

/-- The loop over the items that finds the greatest number of spaces. -/
def countSpaces (items : List Command) : Nat :=
  items.foldl (fun maxSpaces cmd =>
    let localMaxSpaces := cmd.name.count (u ' ')
    if localMaxSpaces > maxSpaces then localMaxSpaces else maxSpaces) 0

/-- The handler of itemInserted and itemRemoved. -/
def addFirstMatchToMap (controller : CommandController) (item : Command) : CommandController :=
  let userCommands := controller.userCommands.erase item.name
  let userCommands :=
    match controller.items.items.find? fun cmd => cmd.name == item.name with
    | some cmd => userCommands.insert cmd.name cmd
    | none => userCommands
  { controller with userCommands, maxSpaces := countSpaces controller.items.items }

/-- SignalVector::insert, with the signal. -/
def insert (controller : CommandController) (item : Command) (index : Int) : Option CommandController := do
  let index ← controller.items.insertionIndex item index
  let items := controller.items.items.insertIdx index item
  return addFirstMatchToMap { controller with items := { controller.items with items } } item

/-- SignalVector::removeAt, with the signal. -/
def removeAt (controller : CommandController) (index : Nat) : Option CommandController := do
  let item ← controller.items.items[index]?
  let items := controller.items.items.eraseIdx index
  return addFirstMatchToMap { controller with items := { controller.items with items } } item

/-- SignalVector::removeFirstMatching -/
def removeFirstMatching (controller : CommandController) (matcher : Command → Bool) : Option CommandController :=
  match controller.items.items.findIdx? matcher with
  | some index => controller.removeAt index
  | none => some controller

end CommandController

/-- What happens to the items. -/
inductive ItemsAction where
  | insert (item : Command) (index : Int)
  | removeAt (index : Nat)
  | removeFirstMatching (matcher : Command → Bool)

def CommandController.step (controller : CommandController) : ItemsAction → Option CommandController
  | .insert item index => controller.insert item index
  | .removeAt index => controller.removeAt index
  | .removeFirstMatching matcher => controller.removeFirstMatching matcher

/-! ## The lookup of a message -/

/-- What a message meets besides the user commands: the emojis, the built-in commands with what
they answer, what a user command expands to, and whether the channel is the one of whispers. -/
structure Surroundings where
  replaceShortCodes : QString → QString
  commands : QString → Option (List QString → QString)
  execCustomCommand : List QString → Command → Bool → QString
  isWhispers : Bool

/-- QString::split(' ', Qt::SkipEmptyParts) -/
def splitWords (text : QString) : List QString := (text.split (u ' ')).filter fun part => part ≠ []

/-- The loop over the names of more than one word. -/
def lookupLoop (userCommands : AList fun _ : QString => Command) : Nat → QString → List QString → Option Command
  | 0, _, _ => none
  | _ + 1, _, [] => none
  | n + 1, commandName, word :: words =>
      let commandName := commandName ++ u ' ' :: word
      match userCommands.lookup commandName with
      | some command => some command
      | none => lookupLoop userCommands n commandName words

namespace CommandController

variable (surroundings : Surroundings) (controller : CommandController)

/-- The rest of execCommand, behind the expansion of a command of one word. -/
def execWords (text : QString) (words : List QString) (dryRun : Bool) : QString :=
  match words with
  | [] => text
  | commandName :: more =>
      match if dryRun then none else surroundings.commands commandName with
      | some command => command words
      | none =>
          match lookupLoop controller.userCommands (min controller.maxSpaces more.length) commandName more with
          | some command => surroundings.execCustomCommand words command dryRun
          | none => if !dryRun && surroundings.isWhispers then [] else text

def execCommand (textNoEmoji : QString) (dryRun : Bool) : QString :=
  let text := surroundings.replaceShortCodes textNoEmoji
  match splitWords text with
  | [] => text
  | commandName :: more =>
      match controller.userCommands.lookup commandName with
      | some command =>
          let text :=
            surroundings.replaceShortCodes (surroundings.execCustomCommand (commandName :: more) command dryRun)
          controller.execWords surroundings text (splitWords text) dryRun
      | none => controller.execWords surroundings text (commandName :: more) dryRun

end CommandController

/-! ## Coherence -/

/-- The table has the first item of every name, and the bound is the greatest number of spaces. -/
structure CommandController.Coherent (controller : CommandController) : Prop where
  unsorted : controller.items.itemCompare = none
  lookup : ∀ name, controller.userCommands.lookup name = controller.items.items.find? fun cmd => cmd.name == name
  spaces : controller.maxSpaces = CommandController.countSpaces controller.items.items

namespace CommandController

variable {controller next : CommandController}

theorem coherent_empty : empty.Coherent := ⟨rfl, fun _ => rfl, rfl⟩

/-- The handler makes the table coherent again if no other name than that of the item has changed. -/
theorem addFirstMatchToMap_coherent {item : Command} (unsorted : controller.items.itemCompare = none)
    (others : ∀ name, name ≠ item.name →
      controller.userCommands.lookup name = controller.items.items.find? fun cmd => cmd.name == name) :
    (controller.addFirstMatchToMap item).Coherent where
  unsorted := unsorted
  spaces := rfl
  lookup name := by
    rw [addFirstMatchToMap]
    dsimp only
    by_cases same : name = item.name
    · subst same
      cases found : controller.items.items.find? fun cmd => cmd.name == item.name with
      | none => exact AList.lookup_erase _ _
      | some cmd =>
        have named : cmd.name = item.name := by simpa using List.find?_some found
        dsimp only
        rw [← named, AList.lookup_insert]
    · rw [← others name same]
      cases found : controller.items.items.find? fun cmd => cmd.name == item.name with
      | none => exact AList.lookup_erase_ne same
      | some cmd =>
        have named : cmd.name = item.name := by simpa using List.find?_some found
        dsimp only
        rw [AList.lookup_insert_ne (named ▸ same), AList.lookup_erase_ne same]

theorem Coherent.insert (coherent : controller.Coherent) {item : Command} {index : Int}
    (taken : controller.insert item index = some next) : next.Coherent := by
  simp only [CommandController.insert, Option.bind_eq_bind, Option.pure_def, Option.bind_eq_some_iff] at taken
  obtain ⟨place, known, same⟩ := taken
  obtain rfl := Option.some.inj same
  have inside : place ≤ controller.items.items.length := by
    simp only [SignalVector.insertionIndex, coherent.unsorted] at known
    split at known
    · exact Nat.le_of_eq (Option.some.inj known).symm
    · split at known
      · next bounds =>
        obtain rfl := Option.some.inj known
        omega
      · cases known
  refine addFirstMatchToMap_coherent coherent.unsorted fun name other => ?_
  dsimp only
  rw [coherent.lookup, find?_insertIdx_other inside]
  simpa using fun named => other named.symm

theorem Coherent.removeAt (coherent : controller.Coherent) {index : Nat}
    (taken : controller.removeAt index = some next) : next.Coherent := by
  simp only [CommandController.removeAt, Option.bind_eq_bind, Option.pure_def, Option.bind_eq_some_iff] at taken
  obtain ⟨item, at_, same⟩ := taken
  obtain rfl := Option.some.inj same
  refine addFirstMatchToMap_coherent coherent.unsorted fun name other => ?_
  dsimp only
  rw [coherent.lookup, find?_eraseIdx_other at_]
  simpa using fun named => other named.symm

theorem Coherent.step (coherent : controller.Coherent) {action : ItemsAction}
    (taken : controller.step action = some next) : next.Coherent := by
  cases action with
  | insert item index => exact coherent.insert taken
  | removeAt index => exact coherent.removeAt taken
  | removeFirstMatching matcher =>
    simp only [CommandController.step, removeFirstMatching] at taken
    split at taken
    · exact coherent.removeAt taken
    · exact Option.some.inj taken ▸ coherent

theorem coherent_of_run {actions : List ItemsAction} (ran : run CommandController.step empty actions = some controller) :
    controller.Coherent :=
  run_keeps (fun _ _ _ coherent taken => coherent.step taken) ran coherent_empty

/-! ## What coherence means -/

theorem Coherent.lookup_some (coherent : controller.Coherent) {name : QString} {cmd : Command}
    (found : controller.userCommands.lookup name = some cmd) : cmd ∈ controller.items.items ∧ cmd.name = name := by
  rw [coherent.lookup] at found
  exact ⟨List.mem_of_find?_eq_some found, by simpa using List.find?_some found⟩

theorem Coherent.lookup_item (coherent : controller.Coherent) {item : Command} (among : item ∈ controller.items.items) :
    ∃ cmd, controller.userCommands.lookup item.name = some cmd := by
  rw [coherent.lookup, ← Option.isSome_iff_exists, List.find?_isSome]
  exact ⟨item, among, by simp⟩

/-- The greatest number of spaces, which is 0 if there is no item. -/
theorem countSpaces_greatest (items : List Command) :
    (∀ item ∈ items, item.name.count (u ' ') ≤ countSpaces items) ∧
      (countSpaces items = 0 ∨ ∃ item ∈ items, item.name.count (u ' ') = countSpaces items) := by
  induction items using List.reverseRecOn with
  | nil => exact ⟨fun item none_ => absurd none_ List.not_mem_nil, .inl rfl⟩
  | append_singleton items last ih =>
    have step : countSpaces (items ++ [last]) =
        if last.name.count (u ' ') > countSpaces items then last.name.count (u ' ') else countSpaces items := by
      rw [countSpaces, List.foldl_concat]
      rfl
    rw [step]
    obtain ⟨bound, reached⟩ := ih
    split
    · next more =>
      refine ⟨?_, .inr ⟨last, by simp, rfl⟩⟩
      intro item among
      rcases List.mem_append.mp among with before | same
      · exact (bound item before).trans (Nat.le_of_lt more)
      · rw [List.mem_singleton.mp same]
    · next less =>
      refine ⟨?_, reached.imp_right fun ⟨item, among, same⟩ => ⟨item, List.mem_append_left _ among, same⟩⟩
      intro item among
      rcases List.mem_append.mp among with before | same
      · exact bound item before
      · rw [List.mem_singleton.mp same]
        exact Nat.le_of_not_lt less

end CommandController

/-! ## Words -/

/-- The text begins with the trigger, behind which it ends or goes on with a space. -/
def StartsWith (text trigger : QString) : Prop :=
  ∃ rest, text = trigger ++ rest ∧ ∀ c ∈ rest.head?, c = u ' '

/-- The words of a trigger stand between single spaces. -/
def SingleSpaced (trigger : QString) : Prop := ∀ word ∈ trigger.split (u ' '), word ≠ []

theorem join_split (trigger : QString) : join [u ' '] (trigger.split (u ' ')) = trigger := by
  rw [join_eq_intercalate, intercalate_split]

theorem splitWords_join {words : List QString} (some_ : words ≠ []) (plain : ∀ word ∈ words, word ≠ [] ∧ u ' ' ∉ word)
    {rest : QString} (ends : ∀ c ∈ rest.head?, c = u ' ') :
    splitWords (join [u ' '] words ++ rest) = words ++ splitWords rest := by
  induction words with
  | nil => exact absurd rfl some_
  | cons word words ih =>
    obtain ⟨⟨nonempty, free⟩, plain⟩ := List.forall_mem_cons.mp plain
    cases words with
    | nil =>
      cases rest with
      | nil => simp [join, splitWords, split_free _ _ free, nonempty, split_free _ _ List.not_mem_nil]
      | cons c rest =>
        obtain rfl := ends c rfl
        have front : QString.split (u ' ' :: rest) (u ' ') = [] :: QString.split rest (u ' ') :=
          split_append (u ' ') [] rest List.not_mem_nil
        simp [join, splitWords, split_append _ _ _ free, front, nonempty]
    | cons next words =>
      have shape : join [u ' '] (word :: next :: words) ++ rest =
          word ++ u ' ' :: (join [u ' '] (next :: words) ++ rest) := by
        simp [join]
      rw [shape, splitWords, split_append _ _ _ free, List.filter_cons_of_pos (by simpa using nonempty)]
      exact congrArg (word :: ·) (ih (List.cons_ne_nil _ _) plain)

theorem count_join {words : List QString} (some_ : words ≠ []) (free : ∀ word ∈ words, u ' ' ∉ word) :
    (join [u ' '] words).count (u ' ') + 1 = words.length := by
  induction words with
  | nil => exact absurd rfl some_
  | cons word words ih =>
    rw [List.forall_mem_cons] at free
    cases words with
    | nil => simp [join, List.count_eq_zero_of_not_mem free.1]
    | cons next words =>
      have shape : join [u ' '] (word :: next :: words) = word ++ u ' ' :: join [u ' '] (next :: words) := by
        simp [join]
      rw [shape, List.count_append, List.count_eq_zero_of_not_mem free.1, List.count_cons_self, Nat.zero_add,
        ih (List.cons_ne_nil _ _) free.2]
      rfl

theorem join_head (front word : QString) (words : List QString) :
    join [u ' '] ((front ++ u ' ' :: word) :: words) = join [u ' '] (front :: word :: words) := by
  cases words with
  | nil => simp [join]
  | cons next words => simp [join]

theorem startsWith_take {words : List QString} {rest : QString} (ends : ∀ c ∈ rest.head?, c = u ' ') {n : Nat}
    (positive : 0 < n) : StartsWith (join [u ' '] words ++ rest) (join [u ' '] (words.take n)) := by
  by_cases all : words.drop n = []
  · refine ⟨rest, ?_, ends⟩
    rw [List.take_of_length_le (List.drop_eq_nil_iff.mp all)]
  · have some_ : words.take n ≠ [] := by
      rw [Ne, List.take_eq_nil_iff, not_or]
      refine ⟨Nat.ne_of_gt positive, ?_⟩
      rintro rfl
      exact all List.drop_nil
    refine ⟨u ' ' :: (join [u ' '] (words.drop n) ++ rest), ?_, ?_⟩
    · have cut := join_append [u ' '] some_ all
      rw [List.take_append_drop] at cut
      rw [cut]
      simp
    · intro c first
      exact (Option.some.inj first).symm

/-! ## The lookup -/

/-- The loop finds a name of some of the words if the table has one with at most as many. -/
theorem lookupLoop_finds {userCommands : AList fun _ : QString => Command} {n k : Nat} {commandName : QString}
    {words : List QString} (positive : 0 < k) (bounded : k ≤ n) (short : k ≤ words.length)
    (held : (userCommands.lookup (join [u ' '] (commandName :: words.take k))).isSome) :
    ∃ j command, 0 < j ∧ j ≤ k ∧ lookupLoop userCommands n commandName words = some command ∧
      userCommands.lookup (join [u ' '] (commandName :: words.take j)) = some command := by
  induction n generalizing k commandName words with
  | zero => omega
  | succ n ih =>
    cases words with
    | nil => exact absurd short (Nat.not_le_of_lt positive)
    | cons word words =>
      rw [lookupLoop]
      cases found : userCommands.lookup (commandName ++ u ' ' :: word) with
      | some command =>
        refine ⟨1, command, Nat.one_pos, positive, rfl, ?_⟩
        rw [List.take_succ_cons, List.take_zero, ← join_head]
        exact found
      | none =>
        obtain ⟨k, rfl⟩ : ∃ k', k = k' + 1 := ⟨k - 1, by omega⟩
        rw [List.take_succ_cons, ← join_head] at held
        have more : 0 < k := by
          rw [Nat.pos_iff_ne_zero]
          rintro rfl
          rw [List.take_zero, join, found] at held
          cases held
        rw [List.length_cons] at short
        obtain ⟨j, command, first, less, reached, there⟩ := ih more (by omega) (by omega) held
        refine ⟨j + 1, command, Nat.succ_pos j, Nat.succ_le_succ less, reached, ?_⟩
        rw [List.take_succ_cons, ← join_head]
        exact there

/-- The message is answered by what the command expands to. The expansion of a command of one word is
executed again, and a command of more words leaves the answer to a built-in command. -/
def AnsweredBy (surroundings : Surroundings) (controller : CommandController) (textNoEmoji : QString) (dryRun : Bool)
    (found : Command) : Prop :=
  let words := splitWords (surroundings.replaceShortCodes textNoEmoji)
  let expanded := surroundings.execCustomCommand words found dryRun
  controller.execCommand surroundings textNoEmoji dryRun =
    if words.head? = some found.name then
      let text := surroundings.replaceShortCodes expanded
      controller.execWords surroundings text (splitWords text) dryRun
    else
      match if dryRun then none else words.head?.bind surroundings.commands with
      | some command => command words
      | none => expanded

section Answers

variable {surroundings : Surroundings} {controller : CommandController} {textNoEmoji first : QString}
  {more : List QString} {dryRun : Bool} {found : Command}

theorem answeredBy_word (words : splitWords (surroundings.replaceShortCodes textNoEmoji) = first :: more)
    (held : controller.userCommands.lookup first = some found) (named : found.name = first) :
    AnsweredBy surroundings controller textNoEmoji dryRun found := by
  simp [AnsweredBy, CommandController.execCommand, words, held, named]

theorem answeredBy_words (words : splitWords (surroundings.replaceShortCodes textNoEmoji) = first :: more)
    (free : controller.userCommands.lookup first = none) (other : first ≠ found.name)
    (reached : lookupLoop controller.userCommands (min controller.maxSpaces more.length) first more = some found) :
    AnsweredBy surroundings controller textNoEmoji dryRun found := by
  simp only [AnsweredBy, CommandController.execCommand, words, free, CommandController.execWords, reached, List.head?_cons,
    Option.some_inj, if_neg other, Option.bind_some]

/-- A message that starts with a trigger is answered by a user command whose trigger it starts with. -/
theorem CommandController.Coherent.answers (coherent : controller.Coherent) {item : Command}
    (among : item ∈ controller.items.items) (spaced : SingleSpaced item.name)
    (starts : StartsWith (surroundings.replaceShortCodes textNoEmoji) item.name) :
    ∃ found ∈ controller.items.items, StartsWith (surroundings.replaceShortCodes textNoEmoji) found.name ∧
      found.name.count (u ' ') ≤ item.name.count (u ' ') ∧
      AnsweredBy surroundings controller textNoEmoji dryRun found := by
  obtain ⟨rest, text, ends⟩ := starts
  have plain := split_plain (u ' ') item.name
  have whole := join_split item.name
  unfold SingleSpaced at spaced
  generalize split : item.name.split (u ' ') = parts at spaced plain whole
  have some_ : parts ≠ [] := split ▸ split_ne_nil _ _
  obtain ⟨first, more, rfl⟩ := List.exists_cons_of_ne_nil some_
  have words := splitWords_join some_ (fun word in_ => ⟨spaced word in_, plain word in_⟩) ends
  have spaces := count_join some_ plain
  have front : ∀ j, StartsWith (item.name ++ rest) (join [u ' '] (first :: more.take j)) := fun j =>
    whole ▸ startsWith_take ends (Nat.succ_pos j)
  rw [whole, ← text] at words
  rw [whole, List.length_cons] at spaces
  cases held : controller.userCommands.lookup first with
  -- the first word is a trigger of its own, which is looked up before the loop
  | some found =>
    obtain ⟨present, named⟩ := coherent.lookup_some held
    refine ⟨found, present, ?_, ?_, answeredBy_word words held named⟩
    · rw [text, named]
      exact front 0
    · rw [named, List.count_eq_zero_of_not_mem (plain first List.mem_cons_self)]
      exact Nat.zero_le _
  | none =>
    obtain ⟨known, there⟩ := coherent.lookup_item among
    have positive : 0 < more.length := by
      rw [List.length_pos_iff]
      rintro rfl
      rw [join] at whole
      rw [← whole, held] at there
      cases there
    have bound : more.length ≤ controller.maxSpaces := by
      rw [coherent.spaces, ← Nat.succ.inj spaces]
      exact (CommandController.countSpaces_greatest _).1 item among
    have enough : more.length ≤ min controller.maxSpaces (more ++ splitWords rest).length :=
      Nat.le_min.mpr ⟨bound, by simp⟩
    have short : more.length ≤ (more ++ splitWords rest).length := by simp
    -- the trigger is one of the names that the loop comes to, so it stops there or before
    have whole_held : (controller.userCommands.lookup
        (join [u ' '] (first :: (more ++ splitWords rest).take more.length))).isSome := by
      rw [List.take_left, whole, there]
      rfl
    obtain ⟨j, found, -, less, reached, at_⟩ := lookupLoop_finds positive enough short whole_held
    obtain ⟨present, named⟩ := coherent.lookup_some at_
    rw [List.take_append_of_le_length less] at named
    refine ⟨found, present, ?_, ?_, answeredBy_words words held ?_ reached⟩
    · rw [text, named]
      exact front j
    · have fewer := count_join (List.cons_ne_nil first (more.take j)) fun word in_ =>
        plain word ((List.take_sublist j more).cons_cons first |>.subset in_)
      rw [List.length_cons, List.length_take_of_le less] at fewer
      rw [named]
      omega
    · rintro rfl
      rw [coherent.lookup, List.find?_eq_none] at held
      exact held found present (by simp)

end Answers

/-- Whatever is inserted and removed, the table has the items under their names, and a message that
starts with one of them is answered by one. -/
theorem userCommands_coherent {actions : List ItemsAction} {controller : CommandController}
    (ran : run CommandController.step .empty actions = some controller) :
    (∀ name, (controller.userCommands.lookup name).isSome ↔ ∃ item ∈ controller.items.items, item.name = name) ∧
      (∀ name cmd, controller.userCommands.lookup name = some cmd → cmd ∈ controller.items.items ∧ cmd.name = name) ∧
      (∀ item ∈ controller.items.items, item.name.count (u ' ') ≤ controller.maxSpaces) ∧
      (controller.maxSpaces = 0 ∨ ∃ item ∈ controller.items.items, item.name.count (u ' ') = controller.maxSpaces) ∧
      ∀ item ∈ controller.items.items, SingleSpaced item.name →
        ∀ surroundings textNoEmoji dryRun, StartsWith (surroundings.replaceShortCodes textNoEmoji) item.name →
          ∃ found ∈ controller.items.items, StartsWith (surroundings.replaceShortCodes textNoEmoji) found.name ∧
            found.name.count (u ' ') ≤ item.name.count (u ' ') ∧
            AnsweredBy surroundings controller textNoEmoji dryRun found := by
  have coherent := CommandController.coherent_of_run ran
  obtain ⟨bound, reached⟩ := CommandController.countSpaces_greatest controller.items.items
  rw [← coherent.spaces] at bound reached
  refine ⟨?_, fun name cmd => coherent.lookup_some, bound, reached, ?_⟩
  · intro name
    constructor
    · intro held
      obtain ⟨cmd, found⟩ := Option.isSome_iff_exists.mp held
      exact ⟨cmd, coherent.lookup_some found⟩
    · rintro ⟨item, among, rfl⟩
      obtain ⟨cmd, found⟩ := coherent.lookup_item among
      rw [found]
      rfl
  · intro item among spaced surroundings textNoEmoji dryRun starts
    exact coherent.answers among spaced starts

/-- Two items of one name come and the first of them goes. -/
theorem userCommands_coherent_twins :
    let twin := fun text => ({ name := qs "/a b", func := text } : Command)
    let controller := (run CommandController.step .empty
      [.insert (twin (qs "1")) (-1), .insert (twin (qs "2")) (-1), .removeAt 0]).get rfl
    controller.items.items = [twin (qs "2")] ∧ controller.maxSpaces = 1 ∧
      (controller.userCommands.lookup (qs "/a b")).isSome := by
  refine ⟨rfl, rfl, ?_⟩
  exact ((userCommands_coherent (Option.some_get _).symm).1 _).mpr ⟨_, List.mem_singleton_self _, rfl⟩

/-- A message that is a trigger with two spaces in a row, which the words of the message do not have. -/
theorem user_command_missed :
    ¬ ∀ (actions : List ItemsAction) (controller : CommandController),
      run CommandController.step .empty actions = some controller →
        ∀ item ∈ controller.items.items, ∀ surroundings textNoEmoji dryRun,
          StartsWith (surroundings.replaceShortCodes textNoEmoji) item.name →
            ∃ found ∈ controller.items.items, AnsweredBy surroundings controller textNoEmoji dryRun found := by
  intro finds
  let item : Command := { name := qs "/a  b", func := qs "c" }
  let surroundings : Surroundings :=
    { replaceShortCodes := id
      commands := fun _ => none
      execCustomCommand := fun _ command _ => command.func
      isWhispers := false }
  obtain ⟨found, among, answered⟩ := finds [.insert item (-1)] _ rfl item (List.mem_singleton_self _) surroundings
    item.name true ⟨[], (List.append_nil _).symm, fun c none_ => absurd none_ (by simp)⟩
  obtain rfl := List.mem_singleton.mp among
  have same : qs "/a  b" = qs "c" := answered
  exact absurd same (by decide)

end Forserino.Commands
