import Forserino.Completion.Sources

/-! The list of completions that Tab goes through, and when every text is listed once.

A build without plugins is modelled, so neither the whole text nor the position of the cursor is read.
-/

set_option autoImplicit false

namespace Forserino.Completion

open Commands Foundation Qt

inductive SourceKind where
  /-- Known to be an emote, i.e. started with : -/
  | emote
  /-- Known to be a username, i.e. started with @ -/
  | user
  /-- Known to be a command, i.e. started with / or . -/
  | command
  /-- Emote or command without : or / . -/
  | emoteCommand
  /-- Emote, user, or command without :, @, / . -/
  | emoteUserCommand
  deriving DecidableEq, Repr

/-- What the sources are built from. -/
structure CompletionContext where
  channel : Channel
  app : GlobalEmotes
  items : List Command
  settings : TabCompletionSettings

inductive BuiltSource where
  | single (source : Source)
  | unified (sources : List Source)

structure TabCompletionModel where
  source_ : Option BuiltSource
  stringList : List QString

def BuiltSource.update (texts : Texts) (sort : Sorting EmoteItem) (settings : TabCompletionSettings) (query : QString) :
    BuiltSource → BuiltSource
  | .single source => .single (source.update texts sort settings query)
  | .unified sources => .unified (sources.map (Source.update texts sort settings query))

def BuiltSource.addToStringList (texts : Texts) (settings : TabCompletionSettings) (list : List QString)
    (maxCount : Nat) (isFirstWord : Bool) : BuiltSource → List QString
  | .single source => source.addToStringList texts settings list maxCount isFirstWord
  | .unified sources => UnifiedSource.addToStringList texts settings list maxCount isFirstWord sources

namespace TabCompletionModel

def deduceSourceKind (context : CompletionContext) (query : QString) : Option SourceKind :=
  if query.length < 2 || !context.channel.isTwitchChannel then none
  else if query.startsWith [u '@'] then some .user
  else if query.startsWith [u ':'] then some .emote
  else if query.startsWith [u '/'] || query.startsWith [u '.'] then some .command
  else if context.settings.userCompletionOnlyWithAt then some .emoteCommand
  else some .emoteUserCommand

def emoteItems (context : CompletionContext) : List EmoteItem :=
  EmoteSource.initializeFromChannel context.channel.isTwitchChannel (context.channel.tc.map TwitchChannel.emotes)
    context.app

def userItems (context : CompletionContext) : List UserItem :=
  UserSource.initializeFromChannel context.settings.alwaysIncludeBroadcasterInUserCompletions context.channel

def commandItems (context : CompletionContext) : List CommandItem := CommandSource.initializeItems context.items

def buildEmoteSource (context : CompletionContext) : Source := .emote (emoteItems context) []

def buildUserSource (context : CompletionContext) (prependAt : Bool) : Source :=
  .user (userItems context) [] prependAt

def buildCommandSource (context : CompletionContext) : Source := .command (commandItems context) []

def buildSource (context : CompletionContext) : SourceKind → BuiltSource
  | .emote => .single (buildEmoteSource context)
  | .user => .single (buildUserSource context true)
  | .command => .single (buildCommandSource context)
  | .emoteCommand => .unified [buildEmoteSource context, buildCommandSource context]
  | .emoteUserCommand =>
      .unified [buildEmoteSource context, buildUserSource context false, buildCommandSource context]

/-- Without a source the list stays what it was. -/
def updateResults (texts : Texts) (sort : Sorting EmoteItem) (context : CompletionContext)
    (model : TabCompletionModel) (query : QString) (isFirstWord : Bool) : TabCompletionModel :=
  match deduceSourceKind context query with
  | none => { model with source_ := none }
  | some kind =>
      let source := (buildSource context kind).update texts sort context.settings query
      { source_ := some source
        stringList := unique (source.addToStringList texts context.settings [] 0 isFirstWord) }

end TabCompletionModel

/-! ## What is matched -/

namespace EmoteStrategy

variable (texts : Texts) (settings : TabCompletionSettings) (items : List EmoteItem) (query : QString)

/-- The items that the strategy matches. -/
def matched : List EmoteItem :=
  if settings.useSmartEmoteCompletion then
    (searchEmotes texts.isUpper items (normalizedQuery query)
      (isMatch texts.foldCase settings.prefixOnlyEmoteCompletion query)).1
  else ClassicTabEmoteStrategy.inserted texts.foldCase settings.prefixOnlyEmoteCompletion items query

/-- The items that are left; of those with one name the classic strategy keeps the first. -/
def kept : List EmoteItem :=
  if settings.useSmartEmoteCompletion then matched texts settings items query
  else firsts EmoteItem.searchName [] (matched texts settings items query)

/-- The comparison by which they are sorted. -/
def less (a b : EmoteItem) : Bool :=
  if settings.useSmartEmoteCompletion then
    costOrder texts.foldCase texts.isUpper (normalizedQuery query) false
      (searchEmotes texts.isUpper items (normalizedQuery query)
        (isMatch texts.foldCase settings.prefixOnlyEmoteCompletion query)).2 a b
  else completionEmoteOrder texts.foldCase a b

end EmoteStrategy

namespace SourceKind

/-- The items of the emote source, if there is one. -/
def emoteItems (context : CompletionContext) : SourceKind → List EmoteItem
  | .emote | .emoteCommand | .emoteUserCommand => TabCompletionModel.emoteItems context
  | _ => []

/-- The texts of the users that the strategy matches. -/
def userTexts (texts : Texts) (context : CompletionContext) (query : QString) (isFirstWord : Bool)
    (kind : SourceKind) : List QString :=
  let items := TabCompletionModel.userItems context
  let output (prependAt : Bool) := (ClassicUserStrategy.apply texts.toLower items query).map
    (UserSource.completion texts.toLower context.settings.mentions prependAt isFirstWord)
  match kind with
  | .user => output true
  | .emoteUserCommand => output false
  | _ => []

/-- The texts of the commands that the strategy matches. -/
def commandTexts (texts : Texts) (context : CompletionContext) (query : QString) : SourceKind → List QString
  | .command | .emoteCommand | .emoteUserCommand =>
      (CommandStrategy.apply texts.foldCase true (TabCompletionModel.commandItems context) query).map CommandItem.text
  | _ => []

end SourceKind

/-- Every text that is matched is listed once, and those of the emotes come before those of the users
and those before the commands. -/
structure ListsOnce (texts : Texts) (context : CompletionContext) (query : QString) (isFirstWord : Bool)
    (kind : SourceKind) (list : List QString) : Prop where
  emotes : ∀ item ∈ EmoteStrategy.matched texts context.settings (kind.emoteItems context) query,
    list.count item.text = 1
  users : ∀ text ∈ kind.userTexts texts context query isFirstWord, list.count text = 1
  commands : ∀ text ∈ kind.commandTexts texts context query, list.count text = 1
  ordered : ∃ first second third, list = first ++ second ++ third ∧
    (∀ text, text ∈ first ↔
      text ∈ (EmoteStrategy.kept texts context.settings (kind.emoteItems context) query).map EmoteItem.text) ∧
    second ⊆ kind.userTexts texts context query isFirstWord ∧
    kind.userTexts texts context query isFirstWord ⊆ first ++ second ∧ third ⊆ kind.commandTexts texts context query

/-- No text is lost when the strategy keeps only one item of a name, and equal texts come to stand next
to each other. -/
structure Neighbouring (texts : Texts) (context : CompletionContext) (query : QString) (isFirstWord : Bool)
    (kind : SourceKind) : Prop where
  listed : ∀ item ∈ EmoteStrategy.matched texts context.settings (kind.emoteItems context) query,
    (∃ other ∈ EmoteStrategy.kept texts context.settings (kind.emoteItems context) query, other.text = item.text) ∨
      item.text ∈ kind.userTexts texts context query isFirstWord ∨ item.text ∈ kind.commandTexts texts context query
  together : Together (EmoteStrategy.less texts context.settings (kind.emoteItems context) query) EmoteItem.text
    (EmoteStrategy.kept texts context.settings (kind.emoteItems context) query)
    (kind.userTexts texts context query isFirstWord ++ kind.commandTexts texts context query)

/-! ## The emotes -/

variable {texts : Texts} {sort : Sorting EmoteItem} {settings : TabCompletionSettings} {items : List EmoteItem}
  {query : QString}

theorem costOrder_order (foldCase : QString → List Nat) (isUpper : QChar → Bool) (query : QString)
    (ignoreColonForCost prioritizeUpper : Bool) :
    StrictWeakOrder (costOrder foldCase isUpper query ignoreColonForCost prioritizeUpper) :=
  .lexBy _ (.lessBy _)

theorem completionEmoteOrder_order (foldCase : QString → List Nat) : StrictWeakOrder (completionEmoteOrder foldCase) :=
  have order : StrictWeakOrder (compareEmoteStrings foldCase) := .lexBy foldCase (.flip (.lessBy (List.map UInt16.toNat)))
  order.comap EmoteItem.searchName

theorem compareEmoteStrings_eq_false {foldCase : QString → List Nat} {a b : QString} :
    compareEmoteStrings foldCase b a = false ↔
      foldCase a < foldCase b ∨ foldCase a = foldCase b ∧ b.map UInt16.toNat ≤ a.map UInt16.toNat := by
  rw [compareEmoteStrings, lexBy_eq_false, lessBy, decide_eq_false_iff_not, not_lt]

/-- Only items of one name are equivalent. -/
theorem completionEmoteOrder_equivalent (foldCase : QString → List Nat) (a b : EmoteItem) :
    a.searchName = b.searchName ↔
      completionEmoteOrder foldCase a b = false ∧ completionEmoteOrder foldCase b a = false := by
  rw [completionEmoteOrder, completionEmoteOrder, compareEmoteStrings_eq_false, compareEmoteStrings_eq_false]
  constructor
  · intro same
    rw [same]
    exact ⟨.inr ⟨rfl, le_refl _⟩, .inr ⟨rfl, le_refl _⟩⟩
  · rintro ⟨notBefore, notBehind⟩
    have sameFold : foldCase b.searchName = foldCase a.searchName :=
      le_antisymm (notBefore.elim le_of_lt fun same => same.1.le) (notBehind.elim le_of_lt fun same => same.1.le)
    have notLess := (notBefore.resolve_left sameFold.not_lt).2
    have notGreater := (notBehind.resolve_left sameFold.symm.not_lt).2
    exact map_toNat_inj.mp (le_antisymm notLess notGreater)

/-! ## The emotes that are left -/

namespace EmoteStrategy

theorem order (texts : Texts) (settings : TabCompletionSettings) (items : List EmoteItem) (query : QString) :
    StrictWeakOrder (less texts settings items query) := by
  unfold less
  cases settings.useSmartEmoteCompletion with
  | true => exact costOrder_order _ _ _ _ _
  | false => exact completionEmoteOrder_order _

theorem searchEmotes_subset (isUpper : QChar → Bool) (items : List EmoteItem) (query : QString)
    (matchingFunction : EmoteItem → CaseSensitivity → Bool) :
    (searchEmotes isUpper items query matchingFunction).1 ⊆ items := by
  rw [searchEmotes]
  generalize (if query.any isUpper = true then CaseSensitivity.caseSensitive else .caseInsensitive) = caseHandling
  split
  · exact List.filter_subset_self items
  · exact List.filter_subset_self items

theorem matched_subset : matched texts settings items query ⊆ items := by
  rw [matched]
  split
  · exact searchEmotes_subset _ items _ _
  · exact List.filter_subset_self items

theorem kept_subset : kept texts settings items query ⊆ matched texts settings items query := by
  rw [kept]
  split
  · exact List.Subset.refl _
  · exact firsts_subset [] _

/-- The early returns of completeEmotes sort nothing. -/
theorem completeEmotes_eq (foldCase : QString → List Nat) (isUpper : QChar → Bool) (sort : Sorting EmoteItem)
    (items : List EmoteItem) (query : QString) (ignoreColonForCost : Bool)
    (matchingFunction : EmoteItem → CaseSensitivity → Bool) :
    completeEmotes foldCase isUpper sort items query ignoreColonForCost matchingFunction =
      sort.apply
        (costOrder foldCase isUpper query ignoreColonForCost (searchEmotes isUpper items query matchingFunction).2)
        (searchEmotes isUpper items query matchingFunction).1 := by
  rw [completeEmotes]
  split
  next output prioritizeUpper found =>
    rw [found]
    split
    next empty =>
      rw [List.isEmpty_iff] at empty
      rw [empty]
      exact (sort.perm _ []).eq_nil.symm
    next => rfl

/-- The output is a sorted list of the items that are left, and the smart strategy may give each of them. -/
theorem outcomes (texts : Texts) (settings : TabCompletionSettings) (items : List EmoteItem) (query : QString) :
    Outcomes (less texts settings items query) (kept texts settings items query)
      fun l => ∃ sort, l = EmoteStrategy.apply texts sort settings items query := by
  by_cases smart : settings.useSmartEmoteCompletion = true
  · have outcomes := Outcomes.ofSort (order texts settings items query) (kept texts settings items query)
    have same : ∀ sort, EmoteStrategy.apply texts sort settings items query =
        sort.apply (less texts settings items query) (kept texts settings items query) := by
      intro sort
      rw [EmoteStrategy.apply, if_pos smart, SmartTabEmoteStrategy.apply, completeEmotes_eq, kept, if_pos smart, matched,
        if_pos smart]
      congr 1
      funext a b
      rw [less, if_pos smart]
    simpa only [same] using outcomes
  · have same : ∀ sort, EmoteStrategy.apply texts sort settings items query =
        sortedSet (completionEmoteOrder texts.foldCase) (matched texts settings items query) := by
      intro sort
      rw [EmoteStrategy.apply, if_neg smart, ClassicTabEmoteStrategy.apply, matched, if_neg smart]
    have sameOrder : less texts settings items query = completionEmoteOrder texts.foldCase := by
      funext a b
      rw [less, if_neg smart]
    have order := completionEmoteOrder_order texts.foldCase
    have perm := sortedSet_perm order (completionEmoteOrder_equivalent texts.foldCase)
      (matched texts settings items query)
    have outcomes := Outcomes.ofStrict order (sortedSet_strict order (matched texts settings items query)) perm
    have some_ : Nonempty (Sorting EmoteItem) := inferInstance
    rw [sameOrder, kept, if_neg smart]
    simpa [same, some_] using outcomes

theorem apply_nil : EmoteStrategy.apply texts sort settings [] query = [] := by
  have perm := (outcomes texts settings [] query).perm _ ⟨sort, rfl⟩
  have none_ : kept texts settings [] query = [] :=
    List.subset_nil.mp fun item member => matched_subset (kept_subset member)
  rw [none_] at perm
  exact perm.eq_nil

end EmoteStrategy

/-! ## The list -/

variable {context : CompletionContext} {isFirstWord : Bool} {kind : SourceKind} {model : TabCompletionModel}

/-- The texts of the items, and those of the users and the commands behind them. -/
def SourceKind.results (texts : Texts) (context : CompletionContext) (query : QString) (isFirstWord : Bool)
    (kind : SourceKind) (l : List EmoteItem) : List QString :=
  l.map EmoteItem.text ++ (kind.userTexts texts context query isFirstWord ++ kind.commandTexts texts context query)

namespace TabCompletionModel

@[simp] theorem addToStringList_emote (list : List QString) :
    ((buildEmoteSource context).update texts sort settings query).addToStringList texts settings list 0 isFirstWord =
      list ++ (EmoteStrategy.apply texts sort settings (emoteItems context) query).map EmoteItem.text :=
  addVecToStringList_zero _ list _

@[simp] theorem addToStringList_user (prependAt : Bool) (list : List QString) :
    ((buildUserSource context prependAt).update texts sort settings query).addToStringList texts settings list 0
        isFirstWord =
      list ++ (ClassicUserStrategy.apply texts.toLower (userItems context) query).map
        (UserSource.completion texts.toLower settings.mentions prependAt isFirstWord) :=
  addVecToStringList_zero _ list _

@[simp] theorem addToStringList_command (list : List QString) :
    ((buildCommandSource context).update texts sort settings query).addToStringList texts settings list 0 isFirstWord =
      list ++ (CommandStrategy.apply texts.foldCase true (commandItems context) query).map CommandItem.text :=
  addVecToStringList_zero _ list _

/-- The texts of the sources that are built, one source after the other. -/
theorem addToStringList_buildSource (kind : SourceKind) :
    ((buildSource context kind).update texts sort context.settings query).addToStringList texts context.settings [] 0
        isFirstWord =
      (EmoteStrategy.apply texts sort context.settings (kind.emoteItems context) query).map EmoteItem.text ++
        (kind.userTexts texts context query isFirstWord ++ kind.commandTexts texts context query) := by
  cases kind with
  | emote =>
    rw [buildSource, BuiltSource.update, BuiltSource.addToStringList, addToStringList_emote]
    exact (List.append_nil _).symm
  | user =>
    have none_ : SourceKind.user.emoteItems context = [] := rfl
    rw [buildSource, BuiltSource.update, BuiltSource.addToStringList, addToStringList_user, none_,
      EmoteStrategy.apply_nil]
    exact (List.append_nil _).symm
  | command =>
    have none_ : SourceKind.command.emoteItems context = [] := rfl
    rw [buildSource, BuiltSource.update, BuiltSource.addToStringList, addToStringList_command, none_,
      EmoteStrategy.apply_nil]
    rfl
  | emoteCommand =>
    simp [buildSource, BuiltSource.update, BuiltSource.addToStringList, UnifiedSource.addToStringList,
      SourceKind.emoteItems, SourceKind.userTexts, SourceKind.commandTexts]
  | emoteUserCommand =>
    simp [buildSource, BuiltSource.update, BuiltSource.addToStringList, UnifiedSource.addToStringList,
      SourceKind.emoteItems, SourceKind.userTexts, SourceKind.commandTexts]

theorem stringList_updateResults (deduced : deduceSourceKind context query = some kind) :
    (updateResults texts sort context model query isFirstWord).stringList =
      unique (kind.results texts context query isFirstWord
        (EmoteStrategy.apply texts sort context.settings (kind.emoteItems context) query)) := by
  rw [updateResults, deduced]
  exact congrArg unique (addToStringList_buildSource kind)

end TabCompletionModel

/-- The texts that are left of each source. -/
theorem ordered_unique (emotes users commands : List QString) :
    ∃ first second third, unique (emotes ++ (users ++ commands)) = first ++ second ++ third ∧
      (∀ text, text ∈ first ↔ text ∈ emotes) ∧ second ⊆ users ∧ users ⊆ first ++ second ∧ third ⊆ commands := by
  obtain ⟨third, withinCommands, left⟩ := unique_append (emotes ++ users) commands
  obtain ⟨second, withinUsers, leftUsers⟩ := unique_append emotes users
  refine ⟨unique emotes, second, third, ?_, fun text => mem_unique, withinUsers.subset, ?_, withinCommands.subset⟩
  · rw [← List.append_assoc, left, leftUsers]
  · intro text member
    rw [← leftUsers]
    exact mem_unique.mpr (List.mem_append_right emotes member)

theorem listsOnce_iff {l : List EmoteItem}
    (perm : l.Perm (EmoteStrategy.kept texts context.settings (kind.emoteItems context) query)) :
    ListsOnce texts context query isFirstWord kind (unique (kind.results texts context query isFirstWord l)) ↔
      (∀ item ∈ EmoteStrategy.matched texts context.settings (kind.emoteItems context) query,
        item.text ∈ kind.results texts context query isFirstWord l) ∧
      (unique (kind.results texts context query isFirstWord l)).Nodup := by
  constructor
  · intro once
    constructor
    · intro item member
      exact mem_unique.mp (List.count_pos_iff.mp (once.emotes item member ▸ Nat.one_pos))
    · rw [List.nodup_iff_count_eq_one]
      intro text listed
      rw [mem_unique, SourceKind.results, List.mem_append, List.mem_append] at listed
      rcases listed with emote | user | command
      · obtain ⟨item, member, rfl⟩ := List.mem_map.mp emote
        exact once.emotes item (EmoteStrategy.kept_subset (perm.subset member))
      · exact once.users text user
      · exact once.commands text command
  · rintro ⟨listed, distinct⟩
    rw [List.nodup_iff_count_eq_one] at distinct
    obtain ⟨first, second, third, parts, ofEmotes, rest⟩ := ordered_unique (l.map EmoteItem.text)
      (kind.userTexts texts context query isFirstWord) (kind.commandTexts texts context query)
    constructor
    · exact fun item member => distinct _ (mem_unique.mpr (listed item member))
    · exact fun text member => distinct _ (mem_unique.mpr (List.mem_append_right _ (List.mem_append_left _ member)))
    · exact fun text member => distinct _ (mem_unique.mpr (List.mem_append_right _ (List.mem_append_right _ member)))
    · refine ⟨first, second, third, parts, fun text => ?_, rest⟩
      rw [ofEmotes, (perm.map EmoteItem.text).mem_iff]

/-- Whatever the sort does with emotes that compare as equal, every text is listed once exactly if none is
lost and equal ones come to stand next to each other. -/
theorem updateResults_listsOnce_iff (texts : Texts) (context : CompletionContext) (model : TabCompletionModel)
    (query : QString) (isFirstWord : Bool) :
    (∀ sort kind, TabCompletionModel.deduceSourceKind context query = some kind →
      ListsOnce texts context query isFirstWord kind
        (model.updateResults texts sort context query isFirstWord).stringList) ↔
      ∀ kind, TabCompletionModel.deduceSourceKind context query = some kind →
        Neighbouring texts context query isFirstWord kind := by
  have outcomes (kind : SourceKind) :=
    EmoteStrategy.outcomes texts context.settings (kind.emoteItems context) query
  have order (kind : SourceKind) := EmoteStrategy.order texts context.settings (kind.emoteItems context) query
  constructor
  · intro once kind deduced
    have listsOnce (sort : Sorting EmoteItem) := once sort kind deduced
    simp only [TabCompletionModel.stringList_updateResults deduced] at listsOnce
    have each (sort : Sorting EmoteItem) := (listsOnce_iff ((outcomes kind).perm _ ⟨sort, rfl⟩)).mp (listsOnce sort)
    constructor
    · intro item member
      have listed := (each default).1 item member
      rw [SourceKind.results, List.mem_append, List.mem_append] at listed
      refine listed.imp_left fun emote => ?_
      obtain ⟨other, left, same⟩ := List.mem_map.mp emote
      exact ⟨other, ((outcomes kind).perm _ ⟨default, rfl⟩).subset left, same⟩
    · refine ((outcomes kind).nodup_iff (order kind)).mp ?_
      rintro l ⟨sort, rfl⟩
      exact (each sort).2
  · intro neighbouring sort kind deduced
    have perm := (outcomes kind).perm _ ⟨sort, rfl⟩
    rw [TabCompletionModel.stringList_updateResults deduced]
    refine (listsOnce_iff perm).mpr ⟨fun item member => ?_, ?_⟩
    · rw [SourceKind.results, List.mem_append, List.mem_append]
      refine ((neighbouring kind deduced).listed item member).imp_left fun kept => ?_
      obtain ⟨other, left, same⟩ := kept
      exact List.mem_map.mpr ⟨other, perm.symm.subset left, same⟩
    · exact ((outcomes kind).nodup_iff (order kind)).mpr (neighbouring kind deduced).together _ ⟨sort, rfl⟩

/-- A command of the user that has the name of a default one, with another command behind it. -/
theorem updateResults_repeats :
    let foldUnit (c : QChar) : QChar := if u 'A' ≤ c ∧ c ≤ u 'Z' then c + 32 else c
    let texts : Texts :=
      { toLower := List.map foldUnit
        foldCase := List.map fun c => (foldUnit c).toNat
        isUpper := fun c => u 'A' ≤ c && c ≤ u 'Z' }
    let emotes : EmoteMap := ⟨[], List.nodup_nil⟩
    let channel : Channel := .twitch
      { name := qs "forsen"
        displayName := qs "forsen"
        chatters := .empty
        emotes := ⟨none, emotes, none, none, none⟩ }
    let context : CompletionContext :=
      { channel
        app := ⟨none, none, none, []⟩
        items := [⟨qs "/mods", qs "/me my mods"⟩, ⟨qs "/modx", qs "/me modx"⟩]
        settings := ⟨false, true, false, false, ⟨false, false⟩⟩ }
    let list := (TabCompletionModel.updateResults texts default context ⟨none, []⟩ (qs "/mo") true).stringList
    TabCompletionModel.deduceSourceKind context (qs "/mo") = some .command ∧
      ¬ ListsOnce texts context (qs "/mo") true .command list := by
  intro foldUnit texts emotes channel context list
  have deduced : TabCompletionModel.deduceSourceKind context (qs "/mo") = some .command := by decide
  refine ⟨deduced, fun once => ?_⟩
  have perm := (EmoteStrategy.outcomes texts context.settings (SourceKind.command.emoteItems context) (qs "/mo")).perm _
    ⟨default, rfl⟩
  rw [show list = _ from TabCompletionModel.stringList_updateResults deduced] at once
  have distinct := ((listsOnce_iff perm).mp once).2
  have default_ : qs "/mods" ∈ defaultChatterinoCommands := List.mem_of_getElem? (i := 15) rfl
  have names : [qs "/mods", qs "/modx", qs "/mods"].Sublist
      (context.items.map Command.name ++ defaultChatterinoCommands ++ TWITCH_DEFAULT_COMMANDS) :=
    ((List.Sublist.refl [qs "/mods", qs "/modx"]).append (List.singleton_sublist.mpr default_)).trans
      (List.sublist_append_left _ _)
  have matched := ((names.map addCommand).filter fun item =>
    startsWith texts.foldCase item.name (normalizeQuery (qs "/mo")) .caseInsensitive).map CommandItem.text
  have between : [qs "/mods ", qs "/modx ", qs "/mods "].Sublist
      (SourceKind.command.commandTexts texts context (qs "/mo")) := matched
  have same := unique_nodup_iff.mp distinct (qs "/mods ") (qs "/modx ")
    (between.trans ((List.sublist_append_right _ _).trans (List.sublist_append_right _ _)))
  exact absurd same (by decide)

end Forserino.Completion
