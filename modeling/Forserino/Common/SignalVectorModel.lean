import Forserino.Foundation.Selected

/-! A vector that signals its changes, and a table model that shows it. The model follows the
signals of the vector, and an edit of the table changes the vector.
-/

set_option autoImplicit false

namespace Forserino.Common

/-- The items, and the order they are kept in if the vector is sorted. -/
structure SignalVector (T : Type) where
  itemCompare : Option (T → T → Bool)
  items : List T

variable {T Cell Value Extra : Type}

namespace SignalVector

/-- `std::lower_bound` -/
def lowerBound (compare : T → T → Bool) (items : List T) (item : T) : Nat :=
  (items.takeWhile fun x => compare x item).length

/-- Where an item goes: the index is ignored in a sorted vector, and -1 is the end. -/
def insertionIndex (vector : SignalVector T) (item : T) (index : Int) : Option Nat :=
  match vector.itemCompare with
  | some compare => some (lowerBound compare vector.items item)
  | none =>
    if index = -1 then some vector.items.length
    else if 0 ≤ index ∧ index ≤ vector.items.length then some index.toNat
    else none

end SignalVector

/-- A row of the model; a custom row stands for no item. -/
structure Row (T Cell : Type) where
  items : List Cell
  original : Option T
  isCustomRow : Bool
  deriving DecidableEq, Repr

/-- What a model is made with: its virtual functions, and how Qt sets the data of a cell. A hook
that breaks an assertion has no result; `Extra` is what a model keeps for its hooks. -/
structure Virtual (T Cell Value Extra : Type) where
  columnCount : Nat
  /-- Turn a row into a vector item. The row is passed by reference. -/
  getItemFromRow : List Cell → T → List Cell × T
  /-- The cells of a new row behind the call that turns a vector item into it. -/
  getRowFromItem : T → List Cell
  beforeInsert : Extra → List (Row T Cell) → T → Nat → Option (Extra × List (Row T Cell) × Nat)
  afterRemoved : Extra → List (Row T Cell) → T → Nat → Option (Extra × List (Row T Cell))
  setData : Cell → Value → Cell

/-- `SignalVectorModel::beforeInsert` -/
def beforeInsert (extra : Extra) (rows : List (Row T Cell)) (_ : T) (proposedIndex : Nat) :
    Option (Extra × List (Row T Cell) × Nat) :=
  some (extra, rows, proposedIndex)

/-- `SignalVectorModel::afterRemoved` -/
def afterRemoved (extra : Extra) (rows : List (Row T Cell)) (_ : T) (_ : Nat) :
    Option (Extra × List (Row T Cell)) :=
  some (extra, rows)

/-- The model and its vector. -/
structure SignalVectorModel (T Cell Extra : Type) where
  vector : SignalVector T
  rows : List (Row T Cell)
  extra : Extra

/-- The loop of `getVectorIndexFromModelIndex`. -/
def vectorIndexLoop : List (Row T Cell) → Int → Nat → Nat
  | [], _, i => i
  | row :: rows, index, i =>
    if row.isCustomRow then vectorIndexLoop rows (index - 1) i
    else if (i : Int) = index then i
    else vectorIndexLoop rows index (i + 1)

/-- The related index of the vector. -/
def getVectorIndexFromModelIndex (rows : List (Row T Cell)) (index : Int) : Nat := vectorIndexLoop rows index 0

/-- The loop of `getModelIndexFromVectorIndex`. -/
def modelIndexLoop : List (Row T Cell) → Nat → Nat → Nat
  | [], _, modelIndex => modelIndex
  | row :: rows, vectorIndex, modelIndex =>
    let vectorIndex := if row.isCustomRow then vectorIndex + 1 else vectorIndex
    if modelIndex = vectorIndex then modelIndex else modelIndexLoop rows vectorIndex (modelIndex + 1)

/-- The related index of the model. -/
def getModelIndexFromVectorIndex (rows : List (Row T Cell)) (vectorIndex : Nat) : Nat :=
  modelIndexLoop rows vectorIndex 0

namespace SignalVectorModel

variable (virtual : Virtual T Cell Value Extra)

/-- The handler of `itemInserted`. -/
def itemInserted (model : SignalVectorModel T Cell Extra) (item : T) (vectorIndex : Nat) :
    Option (SignalVectorModel T Cell Extra) := do
  let index := getModelIndexFromVectorIndex model.rows vectorIndex
  guard (index ≤ model.rows.length)
  let (extra, rows, index) ← virtual.beforeInsert model.extra model.rows item index
  guard (index ≤ rows.length)
  let row := { items := virtual.getRowFromItem item, original := some item, isCustomRow := false }
  return { model with rows := rows.insertIdx index row, extra }

/-- The handler of `itemRemoved`. -/
def itemRemoved (model : SignalVectorModel T Cell Extra) (item : T) (vectorIndex : Nat) :
    Option (SignalVectorModel T Cell Extra) := do
  let row := getModelIndexFromVectorIndex model.rows vectorIndex
  guard (row < model.rows.length)
  let (extra, rows) ← virtual.afterRemoved model.extra (model.rows.eraseIdx row) item row
  return { model with rows, extra }

/-- `SignalVector::insert`, with the signal; the model ignores what it has inserted itself. -/
def insert (model : SignalVectorModel T Cell Extra) (item : T) (index : Int) (byModel : Bool) :
    Option (SignalVectorModel T Cell Extra) := do
  let index ← model.vector.insertionIndex item index
  let next := { model with vector := { model.vector with items := model.vector.items.insertIdx index item } }
  if byModel then return next else next.itemInserted virtual item index

/-- `SignalVector::removeAt`, with the signal. -/
def removeAt (model : SignalVectorModel T Cell Extra) (index : Nat) (byModel : Bool) :
    Option (SignalVectorModel T Cell Extra) := do
  let item ← model.vector.items[index]?
  let next := { model with vector := { model.vector with items := model.vector.items.eraseIdx index } }
  if byModel then return next else next.itemRemoved virtual item index

/-- Show the items from an index on. -/
def insertAll (model : SignalVectorModel T Cell Extra) : List T → Nat → Option (SignalVectorModel T Cell Extra)
  | [], _ => some model
  | item :: items, i => do
    let next ← model.itemInserted virtual item i
    next.insertAll items (i + 1)

/-- A new model for a vector. -/
def initialized (vector : SignalVector T) (extra : Extra) : Option (SignalVectorModel T Cell Extra) :=
  insertAll virtual { vector, rows := [], extra } vector.items 0

def isOutside (model : SignalVectorModel T Cell Extra) (row column : Int) : Bool :=
  row < 0 || column < 0 || (model.rows.length : Int) ≤ row || (virtual.columnCount : Int) ≤ column

/-- Write the cells of a row. -/
def setCells (model : SignalVectorModel T Cell Extra) (index : Nat) (row : Row T Cell) (items : List Cell) :
    SignalVectorModel T Cell Extra :=
  { model with rows := model.rows.set index { row with items } }

/-- An edit of a cell. -/
def setData (model : SignalVectorModel T Cell Extra) (row column : Int) (value : Value) :
    Option (Bool × SignalVectorModel T Cell Extra) := do
  if model.isOutside virtual row column then
    return (false, model)
  let rowItem ← model.rows[row.toNat]?
  guard (virtual.columnCount = rowItem.items.length)
  let cell ← rowItem.items[column.toNat]?
  let cells := rowItem.items.set column.toNat (virtual.setData cell value)
  let next := model.setCells row.toNat rowItem cells
  if rowItem.isCustomRow then
    return (true, next)
  let vecRow := getVectorIndexFromModelIndex next.rows row
  if next.vector.items.length ≤ vecRow then
    return (false, next)
  let next ← next.removeAt virtual vecRow true
  let original ← rowItem.original
  let (cells, item) := virtual.getItemFromRow cells original
  let next ← (next.setCells row.toNat rowItem cells).insert virtual item vecRow true
  return (true, next)

def moveRows (model : SignalVectorModel T Cell Extra) (sourceRow count : Nat) (destinationChild : Int) :
    Option (Bool × SignalVectorModel T Cell Extra) := do
  if count ≠ 1 then
    return (false, model)
  let rowItem ← model.rows[sourceRow]?
  let signalVectorRow := getVectorIndexFromModelIndex model.rows sourceRow
  let original ← rowItem.original
  let (cells, item) := virtual.getItemFromRow rowItem.items original
  let next ← (model.setCells sourceRow rowItem cells).removeAt virtual signalVectorRow false
  let next ← next.insert virtual item (getVectorIndexFromModelIndex next.rows destinationChild) false
  return (true, next)

def removeRows (model : SignalVectorModel T Cell Extra) (row count : Nat) :
    Option (Bool × SignalVectorModel T Cell Extra) := do
  if count ≠ 1 then
    return (false, model)
  guard (row < model.rows.length)
  let next ← model.removeAt virtual (getVectorIndexFromModelIndex model.rows row) false
  return (true, next)

def insertCustomRow (model : SignalVectorModel T Cell Extra) (row : List Cell) (index : Nat) :
    Option (SignalVectorModel T Cell Extra) := do
  guard (index ≤ model.rows.length)
  return { model with rows := model.rows.insertIdx index { items := row, original := none, isCustomRow := true } }

def removeCustomRow (model : SignalVectorModel T Cell Extra) (index : Nat) :
    Option (SignalVectorModel T Cell Extra) := do
  let row ← model.rows[index]?
  guard row.isCustomRow
  return { model with rows := model.rows.eraseIdx index }

end SignalVectorModel

/-- What happens to a vector and its model. -/
inductive Action (T Cell Value : Type) where
  | insert (item : T) (index : Int)
  | removeAt (index : Nat)
  | setData (row column : Int) (value : Value)
  | moveRows (sourceRow count : Nat) (destinationChild : Int)
  | removeRows (row count : Nat)
  | insertCustomRow (row : List Cell) (index : Nat)
  | removeCustomRow (index : Nat)

def SignalVectorModel.step (virtual : Virtual T Cell Value Extra) (model : SignalVectorModel T Cell Extra) :
    Action T Cell Value → Option (SignalVectorModel T Cell Extra)
  | .insert item index => model.insert virtual item index false
  | .removeAt index => model.removeAt virtual index false
  | .setData row column value => (model.setData virtual row column value).map Prod.snd
  | .moveRows sourceRow count destinationChild =>
    (model.moveRows virtual sourceRow count destinationChild).map Prod.snd
  | .removeRows row count => (model.removeRows virtual row count).map Prod.snd
  | .insertCustomRow row index => model.insertCustomRow row index
  | .removeCustomRow index => model.removeCustomRow index

end Forserino.Common
