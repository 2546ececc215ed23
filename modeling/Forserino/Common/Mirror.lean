import Forserino.Common.SignalVectorModel
import Forserino.Foundation.Runs
import Forserino.Qt.Text
import Mathlib.Data.Option.Basic

/-! The rows of a model that are not custom are the items of its vector, through every mix of
changes from either side.
-/

set_option autoImplicit false

namespace Forserino.Common

open Foundation

variable {T Cell Value Extra : Type}

/-- A row that stands for an item. -/
def isShown (row : Row T Cell) : Bool := !row.isCustomRow

/-- What the rows that stand for items show. -/
def shown (rows : List (Row T Cell)) : List (List Cell) := (rows.filter isShown).map Row.items

theorem modelIndexLoop_eq (rows : List (Row T Cell)) (n modelIndex : Nat) :
    modelIndexLoop rows (modelIndex + n) modelIndex = modelIndex + placeOf isShown rows n := by
  induction rows generalizing n modelIndex with
  | nil => rfl
  | cons row rows ih =>
    unfold modelIndexLoop
    cases custom : row.isCustomRow with
    | true =>
      have next := ih n (modelIndex + 1)
      simp only [placeOf, isShown, custom, if_true]
      rw [if_neg (by omega)]
      rw [show modelIndex + n + 1 = modelIndex + 1 + n by omega, next]
      simp
      omega
    | false =>
      cases n with
      | zero => simp [placeOf, isShown, custom]
      | succ n =>
        have next := ih n (modelIndex + 1)
        simp only [placeOf, isShown, custom]
        rw [if_neg (by simp)]
        simp
        rw [show modelIndex + (n + 1) = modelIndex + 1 + n by omega, next]
        omega

theorem getModelIndexFromVectorIndex_eq (rows : List (Row T Cell)) (vectorIndex : Nat) :
    getModelIndexFromVectorIndex rows vectorIndex = placeOf isShown rows vectorIndex := by
  have loop := modelIndexLoop_eq rows vectorIndex 0
  rwa [Nat.zero_add, Nat.zero_add] at loop

theorem vectorIndexLoop_eq {rows : List (Row T Cell)} {place : Nat} {row : Row T Cell} (at_ : rows[place]? = some row)
    (isRow : isShown row = true) (i : Nat) : vectorIndexLoop rows (i + place) i = i + rank isShown rows place := by
  induction rows generalizing place i with
  | nil => cases at_
  | cons first rows ih =>
    unfold vectorIndexLoop
    cases place with
    | zero =>
      obtain rfl := Option.some.inj at_
      simp [isShown] at isRow
      simp [isRow, rank]
    | succ place =>
      rw [rank_cons_succ]
      cases custom : first.isCustomRow with
      | true =>
        simp only [isShown, custom, if_true]
        rw [show (i : Int) + ((place + 1 : Nat) : Int) - 1 = i + place by omega]
        exact ih at_ i
      | false =>
        simp only [isShown, custom, Bool.false_eq_true, if_false]
        rw [if_neg (by omega), show (i : Int) + ((place + 1 : Nat) : Int) = ((i + 1 : Nat) : Int) + place by omega,
          ih at_ (i + 1)]
        simp
        omega

theorem vectorIndexLoop_behind (rows : List (Row T Cell)) {index : Int} {i : Nat} (behind : index < i) :
    vectorIndexLoop rows index i = i + (rows.filter isShown).length := by
  induction rows generalizing index i with
  | nil => rfl
  | cons row rows ih =>
    unfold vectorIndexLoop
    cases custom : row.isCustomRow with
    | true => simpa [isShown, custom] using ih (show index - 1 < i by omega)
    | false =>
      have more : ((row :: rows).filter isShown).length = (rows.filter isShown).length + 1 := by
        simp [isShown, custom]
      rw [if_neg (by simp), if_neg (by omega), ih (show index < (i + 1 : Nat) by omega), more]
      omega

/-- A custom row is taken for the end of the vector. -/
theorem vectorIndexLoop_custom {rows : List (Row T Cell)} {place : Nat} {row : Row T Cell}
    (at_ : rows[place]? = some row) (custom : isShown row = false) (i : Nat) :
    vectorIndexLoop rows (i + place) i = i + (rows.filter isShown).length := by
  induction rows generalizing place i with
  | nil => cases at_
  | cons first rows ih =>
    unfold vectorIndexLoop
    cases place with
    | zero =>
      obtain rfl := Option.some.inj at_
      simp [isShown] at custom
      simp only [custom, if_true]
      rw [vectorIndexLoop_behind rows (show (i : Int) + ((0 : Nat) : Int) - 1 < i by omega)]
      simp [isShown, custom]
    | succ place =>
      cases same : first.isCustomRow with
      | true =>
        simp only [if_true]
        rw [show (i : Int) + ((place + 1 : Nat) : Int) - 1 = i + place by omega, ih at_ i]
        simp [isShown, same]
      | false =>
        rw [if_neg (by simp), if_neg (by omega),
          show (i : Int) + ((place + 1 : Nat) : Int) = ((i + 1 : Nat) : Int) + place by omega, ih at_ (i + 1)]
        simp [isShown, same]
        omega

theorem getVectorIndexFromModelIndex_custom {rows : List (Row T Cell)} {place : Nat} {row : Row T Cell}
    (at_ : rows[place]? = some row) (custom : isShown row = false) :
    getVectorIndexFromModelIndex rows place = (rows.filter isShown).length := by
  have loop := vectorIndexLoop_custom at_ custom 0
  rwa [Nat.zero_add, Int.ofNat_zero, Int.zero_add] at loop

theorem getVectorIndexFromModelIndex_eq {rows : List (Row T Cell)} {place : Nat} {row : Row T Cell}
    (at_ : rows[place]? = some row) (isRow : isShown row = true) :
    getVectorIndexFromModelIndex rows place = rank isShown rows place := by
  have loop := vectorIndexLoop_eq at_ isRow 0
  rwa [Nat.zero_add, Int.ofNat_zero, Int.zero_add] at loop

theorem shown_length (rows : List (Row T Cell)) : (shown rows).length = (rows.filter isShown).length := List.length_map _

/-- The hooks of a model only add and take away custom rows, and leave a new row its place among
the others. -/
structure Virtual.KeepsPlace (virtual : Virtual T Cell Value Extra) : Prop where
  beforeInsert : ∀ {extra rows item index extra' rows' index'},
    virtual.beforeInsert extra rows item index = some (extra', rows', index') → index ≤ rows.length →
      rows'.filter isShown = rows.filter isShown ∧ rank isShown rows' index' = rank isShown rows index
  afterRemoved : ∀ {extra rows item index extra' rows'},
    virtual.afterRemoved extra rows item index = some (extra', rows') → rows'.filter isShown = rows.filter isShown

theorem keepsPlace_of_base {virtual : Virtual T Cell Value Extra} (before : virtual.beforeInsert = beforeInsert)
    (after : virtual.afterRemoved = afterRemoved) : virtual.KeepsPlace := by
  constructor
  · intro extra rows item index extra' rows' index' taken _
    rw [before] at taken
    obtain ⟨_, rfl, rfl⟩ : extra = extra' ∧ rows = rows' ∧ index = index' := by simpa [Common.beforeInsert] using taken
    exact ⟨rfl, rfl⟩
  · intro extra rows item index extra' rows' taken
    rw [after] at taken
    obtain ⟨_, rfl⟩ : extra = extra' ∧ rows = rows' := by simpa [Common.afterRemoved] using taken
    rfl

namespace SignalVectorModel

variable {virtual : Virtual T Cell Value Extra} {model next : SignalVectorModel T Cell Extra}

theorem itemInserted_shown (keeps : virtual.KeepsPlace) {item : T} {vectorIndex : Nat}
    (taken : model.itemInserted virtual item vectorIndex = some next)
    (inside : vectorIndex ≤ (shown model.rows).length) :
    shown next.rows = (shown model.rows).insertIdx vectorIndex (virtual.getRowFromItem item) ∧
      next.vector = model.vector := by
  unfold itemInserted at taken
  simp only [Option.bind_eq_bind, Option.bind_eq_some_iff, Option.guard_eq_some', Option.pure_def] at taken
  obtain ⟨_, bounded, ⟨extra, rows, index⟩, before, _, inRange, same⟩ := taken
  obtain rfl := Option.some.inj same
  refine ⟨?_, rfl⟩
  obtain ⟨others, place⟩ := keeps.beforeInsert before bounded
  rw [shown_length] at inside
  rw [getModelIndexFromVectorIndex_eq, rank_placeOf inside] at place
  rw [shown, filter_insertIdx inRange rfl, place, others, List.map_insertIdx]
  rfl

theorem itemRemoved_shown (keeps : virtual.KeepsPlace) {item : T} {vectorIndex : Nat}
    (taken : model.itemRemoved virtual item vectorIndex = some next)
    (inside : vectorIndex < (shown model.rows).length) :
    shown next.rows = (shown model.rows).eraseIdx vectorIndex ∧ next.vector = model.vector := by
  unfold itemRemoved at taken
  simp only [Option.bind_eq_bind, Option.bind_eq_some_iff, Option.guard_eq_some', Option.pure_def] at taken
  obtain ⟨_, bounded, ⟨extra, rows⟩, after, same⟩ := taken
  obtain rfl := Option.some.inj same
  refine ⟨?_, rfl⟩
  rw [shown_length] at inside
  obtain ⟨front, row, back, split, place, isRow, _⟩ := split_placeOf inside
  have at_ : model.rows[placeOf isShown model.rows vectorIndex]? = some row := by
    rw [place, split, List.getElem?_append_right (Nat.le_refl _), Nat.sub_self]
    rfl
  rw [shown, keeps.afterRemoved after, getModelIndexFromVectorIndex_eq, filter_eraseIdx at_ isRow,
    rank_placeOf (Nat.le_of_lt inside), shown, List.eraseIdx_map]

/-- The rows show the items of the vector in order. -/
def Mirrors (virtual : Virtual T Cell Value Extra) (model : SignalVectorModel T Cell Extra) : Prop :=
  shown model.rows = model.vector.items.map virtual.getRowFromItem

theorem Mirrors.length (mirrors : model.Mirrors virtual) : (shown model.rows).length = model.vector.items.length := by
  rw [mirrors, List.length_map]

theorem insertionIndex_le {vector : SignalVector T} {item : T} {index : Int} {i : Nat}
    (found : vector.insertionIndex item index = some i) : i ≤ vector.items.length := by
  unfold SignalVector.insertionIndex at found
  split at found
  · obtain rfl := Option.some.inj found
    exact (List.takeWhile_sublist _).length_le
  · split at found
    · exact Nat.le_of_eq (Option.some.inj found).symm
    · split at found
      next inside =>
        obtain rfl := Option.some.inj found
        omega
      next => cases found

theorem insert_shown (keeps : virtual.KeepsPlace) {item : T} {index : Int}
    (taken : model.insert virtual item index false = some next)
    (length : (shown model.rows).length = model.vector.items.length) :
    ∃ i, shown next.rows = (shown model.rows).insertIdx i (virtual.getRowFromItem item) ∧
      next.vector.items = model.vector.items.insertIdx i item := by
  simp only [SignalVectorModel.insert, Option.bind_eq_bind, Option.bind_eq_some_iff, Bool.false_eq_true,
    if_false] at taken
  obtain ⟨i, found, taken⟩ := taken
  obtain ⟨rows, vector⟩ := itemInserted_shown keeps taken (length ▸ insertionIndex_le found)
  exact ⟨i, rows, by rw [vector]⟩

theorem removeAt_shown (keeps : virtual.KeepsPlace) {index : Nat}
    (taken : model.removeAt virtual index false = some next)
    (length : (shown model.rows).length = model.vector.items.length) :
    index < model.vector.items.length ∧ shown next.rows = (shown model.rows).eraseIdx index ∧
      next.vector.items = model.vector.items.eraseIdx index := by
  simp only [SignalVectorModel.removeAt, Option.bind_eq_bind, Option.bind_eq_some_iff, Bool.false_eq_true,
    if_false] at taken
  obtain ⟨item, found, taken⟩ := taken
  have bounded := (List.getElem?_eq_some_iff.mp found).1
  obtain ⟨rows, vector⟩ := itemRemoved_shown keeps taken (length ▸ bounded)
  exact ⟨bounded, rows, by rw [vector]⟩

theorem Mirrors.insert (mirrors : model.Mirrors virtual) (keeps : virtual.KeepsPlace) {item : T} {index : Int}
    (taken : model.insert virtual item index false = some next) : next.Mirrors virtual := by
  obtain ⟨i, rows, items⟩ := insert_shown keeps taken mirrors.length
  rw [Mirrors, rows, items, mirrors, List.map_insertIdx]

theorem Mirrors.removeAt (mirrors : model.Mirrors virtual) (keeps : virtual.KeepsPlace) {index : Nat}
    (taken : model.removeAt virtual index false = some next) : next.Mirrors virtual := by
  obtain ⟨_, rows, items⟩ := removeAt_shown keeps taken mirrors.length
  rw [Mirrors, rows, items, mirrors, List.eraseIdx_map]

/-- The cells and the item that an edit makes of a row, and where the item was. -/
def edited (virtual : Virtual T Cell Value Extra) (model : SignalVectorModel T Cell Extra) (row column : Int)
    (value : Value) : Option (List Cell × T × Nat) := do
  guard (model.isOutside virtual row column = false)
  let rowItem ← model.rows[row.toNat]?
  guard (rowItem.isCustomRow = false)
  let cell ← rowItem.items[column.toNat]?
  let original ← rowItem.original
  let (cells, item) := virtual.getItemFromRow (rowItem.items.set column.toNat (virtual.setData cell value)) original
  return (cells, item, getVectorIndexFromModelIndex model.rows row)

/-- An edit leaves the row as its new item is shown, and in a sorted vector the item keeps its
place. -/
def Faithful (virtual : Virtual T Cell Value Extra) (model : SignalVectorModel T Cell Extra) :
    Action T Cell Value → Prop
  | .setData row column value => ∀ edit ∈ model.edited virtual row column value,
      virtual.getRowFromItem edit.2.1 = edit.1 ∧ ∀ compare ∈ model.vector.itemCompare,
        SignalVector.lowerBound compare (model.vector.items.eraseIdx edit.2.2) edit.2.1 = edit.2.2
  | .insert _ _ | .removeAt _ | .moveRows _ _ _ | .removeRows _ _ | .insertCustomRow _ _ | .removeCustomRow _ => True

theorem shown_set {rows : List (Row T Cell)} {place : Nat} {row : Row T Cell} (at_ : rows[place]? = some row)
    (isRow : isShown row = true) (cells : List Cell) :
    shown (rows.set place { row with items := cells }) = (shown rows).set (rank isShown rows place) cells := by
  have filtered := filter_set at_ isRow (show isShown { row with items := cells } = true from isRow)
  rw [shown, filtered, List.map_set, shown]

theorem shown_set_custom {rows : List (Row T Cell)} {place : Nat} {row : Row T Cell} (at_ : rows[place]? = some row)
    (custom : isShown row = false) (cells : List Cell) :
    shown (rows.set place { row with items := cells }) = shown rows := by
  have filtered := filter_set_other at_ custom (show isShown { row with items := cells } = false from custom)
  rw [shown, filtered, shown]

theorem Mirrors.setData (mirrors : model.Mirrors virtual) {row column : Int} {value : Value} {done : Bool}
    (faithful : model.Faithful virtual (.setData row column value))
    (taken : model.setData virtual row column value = some (done, next)) : next.Mirrors virtual := by
  unfold SignalVectorModel.setData at taken
  split at taken
  · cases taken
    exact mirrors
  next inside =>
    rw [Bool.not_eq_true] at inside
    simp only [Option.bind_eq_bind, Option.bind_eq_some_iff, Option.pure_def, Option.guard_eq_some'] at taken
    obtain ⟨rowItem, at_, _, _, cell, chosen, taken⟩ := taken
    cases custom : rowItem.isCustomRow with
    | true =>
      simp only [custom, if_true] at taken
      obtain ⟨_, rfl⟩ := Prod.mk.inj (Option.some.inj taken)
      rw [Mirrors, setCells, shown_set_custom at_ (by simp [isShown, custom])]
      exact mirrors
    | false =>
      have isRow : isShown rowItem = true := by simp [isShown, custom]
      have place : row = row.toNat := by
        simp [isOutside] at inside
        omega
      have own : getVectorIndexFromModelIndex model.rows row = rank isShown model.rows row.toNat := by
        rw [place]
        exact getVectorIndexFromModelIndex_eq at_ isRow
      -- setting the cells does not move the row, so its item has the same index before and behind it
      have index (cells : List Cell) : getVectorIndexFromModelIndex
          (model.rows.set row.toNat { rowItem with items := cells }) row = rank isShown model.rows row.toNat := by
        have stored : (model.rows.set row.toNat { rowItem with items := cells })[row.toNat]? =
            some { rowItem with items := cells } := List.getElem?_set_self (List.getElem?_eq_some_iff.mp at_).1
        rw [← rank_set model.rows row.toNat { rowItem with items := cells }]
        conv => lhs; rw [place]
        exact getVectorIndexFromModelIndex_eq stored isRow
      have bounded : rank isShown model.rows row.toNat < model.vector.items.length := by
        rw [← mirrors.length, shown_length]
        exact rank_lt at_ isRow
      rw [if_neg (by simp [custom])] at taken
      simp only [setCells, index] at taken
      rw [if_neg (Nat.not_le.mpr bounded)] at taken
      simp only [SignalVectorModel.removeAt, SignalVectorModel.insert, if_true, Option.bind_eq_bind,
        Option.bind_eq_some_iff, Option.pure_def, Option.some.injEq] at taken
      obtain ⟨removed, ⟨old, _, rfl⟩, original, kept, inserted, ⟨i, found, rfl⟩, same⟩ := taken
      obtain ⟨_, rfl⟩ := Prod.mk.inj same
      obtain ⟨shows, stays⟩ := faithful _ (by
        simp only [edited, inside, guard_true, at_, custom, chosen, kept, own, Option.bind_eq_bind, Option.bind_some,
          Option.pure_def]
        rfl)
      -- the edited item is inserted where the old one was removed
      have back : i = rank isShown model.rows row.toNat := by
        unfold SignalVector.insertionIndex at found
        cases compare : model.vector.itemCompare with
        | some less =>
          simp only [compare, Option.some.injEq] at found
          exact found.symm.trans (stays less compare)
        | none =>
          have erased : rank isShown model.rows row.toNat ≤
              (model.vector.items.eraseIdx (rank isShown model.rows row.toNat)).length := by
            rw [List.length_eraseIdx_of_lt bounded]
            omega
          simp only [compare] at found
          rw [if_neg (by omega), if_pos ⟨Int.natCast_nonneg _, by exact_mod_cast erased⟩] at found
          exact (Option.some.inj found).symm
      rw [Mirrors, List.set_set, shown_set at_ isRow, back, List.insertIdx_eraseIdx_self (Nat.ne_of_lt bounded),
        List.map_set, mirrors, shows]

theorem Mirrors.moveRows (mirrors : model.Mirrors virtual) (keeps : virtual.KeepsPlace) {sourceRow count : Nat}
    {destinationChild : Int} {done : Bool}
    (taken : model.moveRows virtual sourceRow count destinationChild = some (done, next)) : next.Mirrors virtual := by
  unfold SignalVectorModel.moveRows at taken
  split at taken
  · cases taken
    exact mirrors
  · simp only [Option.bind_eq_bind, Option.bind_eq_some_iff, Option.pure_def, Option.some.injEq] at taken
    obtain ⟨row, at_, original, _, removed, removing, inserted, inserting, same⟩ := taken
    obtain ⟨_, rfl⟩ := Prod.mk.inj same
    refine Mirrors.insert ?_ keeps inserting
    cases isRow : isShown row with
    | true =>
      have written := shown_set at_ isRow (virtual.getItemFromRow row.items original).1
      obtain ⟨_, rows, items⟩ := removeAt_shown keeps removing (by
        rw [setCells, written, List.length_set]
        exact mirrors.length)
      rw [getVectorIndexFromModelIndex_eq at_ isRow] at rows items
      rw [Mirrors, rows, items, setCells, written, List.eraseIdx_set_eq, mirrors, List.eraseIdx_map]
    | false =>
      -- the end of the vector holds nothing to remove
      have written := shown_set_custom at_ isRow (virtual.getItemFromRow row.items original).1
      obtain ⟨bounded, _⟩ := removeAt_shown keeps removing (by
        rw [setCells, written]
        exact mirrors.length)
      rw [getVectorIndexFromModelIndex_custom at_ isRow, ← shown_length, mirrors.length] at bounded
      exact absurd bounded (Nat.lt_irrefl _)

theorem Mirrors.removeRows (mirrors : model.Mirrors virtual) (keeps : virtual.KeepsPlace) {row count : Nat}
    {done : Bool} (taken : model.removeRows virtual row count = some (done, next)) : next.Mirrors virtual := by
  unfold SignalVectorModel.removeRows at taken
  split at taken
  · cases taken
    exact mirrors
  · simp only [Option.bind_eq_bind, Option.bind_eq_some_iff, Option.pure_def, Option.some.injEq] at taken
    obtain ⟨_, _, removed, removing, same⟩ := taken
    obtain ⟨_, rfl⟩ := Prod.mk.inj same
    exact mirrors.removeAt keeps removing

theorem insertAll_shown (keeps : virtual.KeepsPlace) {items : List T} {i : Nat}
    (length : (shown model.rows).length = i) (taken : model.insertAll virtual items i = some next) :
    shown next.rows = shown model.rows ++ items.map virtual.getRowFromItem ∧ next.vector = model.vector := by
  induction items generalizing model i with
  | nil =>
    obtain rfl := Option.some.inj taken
    exact ⟨(List.append_nil _).symm, rfl⟩
  | cons item items ih =>
    obtain ⟨first, inserted, rest⟩ := Option.bind_eq_some_iff.mp taken
    obtain ⟨rows, vector⟩ := itemInserted_shown keeps inserted (Nat.le_of_eq length.symm)
    rw [← length, List.insertIdx_length_self] at rows
    obtain ⟨rows', vector'⟩ := ih (by rw [rows, List.length_append, length]; rfl) rest
    exact ⟨by rw [rows', rows, List.append_assoc]; rfl, vector'.trans vector⟩

theorem initialized_mirrors (keeps : virtual.KeepsPlace) {vector : SignalVector T} {extra : Extra}
    (taken : initialized virtual vector extra = some next) : next.Mirrors virtual := by
  obtain ⟨rows, vector⟩ := insertAll_shown keeps rfl taken
  rw [Mirrors, rows, vector]
  rfl

theorem Mirrors.step (mirrors : model.Mirrors virtual) (keeps : virtual.KeepsPlace) {action : Action T Cell Value}
    (faithful : model.Faithful virtual action) (taken : model.step virtual action = some next) :
    next.Mirrors virtual := by
  cases action with
  | insert item index => exact mirrors.insert keeps taken
  | removeAt index => exact mirrors.removeAt keeps taken
  | setData row column value =>
    obtain ⟨⟨done, _⟩, edit, rfl⟩ := Option.map_eq_some_iff.mp taken
    exact mirrors.setData faithful edit
  | moveRows sourceRow count destinationChild =>
    obtain ⟨⟨done, _⟩, moved, rfl⟩ := Option.map_eq_some_iff.mp taken
    exact mirrors.moveRows keeps moved
  | removeRows row count =>
    obtain ⟨⟨done, _⟩, removed, rfl⟩ := Option.map_eq_some_iff.mp taken
    exact mirrors.removeRows keeps removed
  | insertCustomRow row index =>
    simp only [SignalVectorModel.step, SignalVectorModel.insertCustomRow, Option.bind_eq_bind,
      Option.bind_eq_some_iff, Option.pure_def, Option.guard_eq_some', Option.some.injEq] at taken
    obtain ⟨_, inside, rfl⟩ := taken
    have filtered := filter_insertIdx_other inside
      (show isShown { items := row, original := (none : Option T), isCustomRow := true } = false from rfl)
    rw [Mirrors, shown, filtered]
    exact mirrors
  | removeCustomRow index =>
    simp only [SignalVectorModel.step, SignalVectorModel.removeCustomRow, Option.bind_eq_bind,
      Option.bind_eq_some_iff, Option.pure_def, Option.guard_eq_some', Option.some.injEq] at taken
    obtain ⟨row, at_, _, custom, rfl⟩ := taken
    have filtered := filter_eraseIdx_other at_ (show isShown row = false by simp [isShown, custom])
    rw [Mirrors, shown, filtered]
    exact mirrors

/-- The two translations of indexes undo each other on the rows that are not custom. -/
theorem translations_inverse (mirrors : model.Mirrors virtual) :
    (∀ (place : Nat) (row : Row T Cell), model.rows[place]? = some row → row.isCustomRow = false →
      getModelIndexFromVectorIndex model.rows (getVectorIndexFromModelIndex model.rows place) = place) ∧
    ∀ index < model.vector.items.length,
      getVectorIndexFromModelIndex model.rows (getModelIndexFromVectorIndex model.rows index) = index ∧
        ∃ row, model.rows[getModelIndexFromVectorIndex model.rows index]? = some row ∧ row.isCustomRow = false := by
  constructor
  · intro place row at_ custom
    have isRow : isShown row = true := by simp [isShown, custom]
    rw [getVectorIndexFromModelIndex_eq at_ isRow, getModelIndexFromVectorIndex_eq, placeOf_rank at_ isRow]
  · intro index inside
    rw [← mirrors.length, shown_length] at inside
    obtain ⟨front, row, back, split, place, isRow, _⟩ := split_placeOf inside
    have at_ : model.rows[placeOf isShown model.rows index]? = some row := by
      rw [place, split, List.getElem?_append_right (Nat.le_refl _), Nat.sub_self]
      rfl
    rw [getModelIndexFromVectorIndex_eq, getVectorIndexFromModelIndex_eq at_ isRow,
      rank_placeOf (Nat.le_of_lt inside)]
    exact ⟨rfl, row, at_, by simpa [isShown] using isRow⟩

end SignalVectorModel

end Forserino.Common
