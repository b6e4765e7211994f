import TableQuery.Dataset.Error
import TableQuery.Record
import TableQuery.Text.Fold

/-! # Datasets

A dataset shows some columns of a table. Its rows always carry a value for every field of the table,
so that a filter or an order may use fields that are not shown.
-/
namespace TableQuery

structure Column where
  name : String
  type : DataType
deriving DecidableEq

structure Dataset where
  /-- The columns shown, in display order. -/
  columns : List Column
  /-- The field position of each column. -/
  positions : List Nat
  fields : List String
  rows : List Row
deriving DecidableEq

namespace Dataset

def empty : Dataset := ⟨[], [], [], []⟩

def rowCount (d : Dataset) : Nat := d.rows.length

def columnCount (d : Dataset) : Nat := d.columns.length

def isEmpty (d : Dataset) : Bool := d.rows.isEmpty

structure WellFormed (d : Dataset) : Prop where
  fields_ne_empty : ∀ f ∈ d.fields, f ≠ ""
  fields_nodup : d.fields.Nodup
  positions_pairwise : d.positions.Pairwise (· < ·)
  getElem?_positions : d.positions.map (d.fields[·]?) = d.columns.map (some ·.name)
  length_row : ∀ r ∈ d.rows, r.length = d.fields.length

theorem wellFormed_empty : empty.WellFormed := by
  constructor <;> simp [empty]

def checkFields (seen : List String) : List String → Except DatasetError Unit
  | [] => .ok ()
  | f :: fs =>
    if f = "" then .error .emptyColumnName
    else if f ∈ seen then .error (.duplicateColumn f)
    else checkFields (f :: seen) fs

/-- The field position of each column; they increase, and stay above `last`. -/
def columnPositions (fields : List String) (last : Option Nat) :
    List Column → Except DatasetError (List Nat)
  | [] => .ok []
  | c :: cs =>
    match fields.idxOf? c.name with
    | none => .error (.columnNotFound c.name)
    | some i =>
      if last.any (i ≤ ·) then .error .columnsOutOfOrder
      else (columnPositions fields (some i) cs).map (i :: ·)

def checkRows (width index : Nat) : List Row → Except DatasetError Unit
  | [] => .ok ()
  | r :: rs =>
    if r.length = width then checkRows width (index + 1) rs
    else .error (.rowWidthMismatch index width r.length)

def ofParts (columns : List Column) (fields : List String) (rows : List Row) :
    Except DatasetError Dataset := do
  checkFields [] fields
  let positions ← columnPositions fields none columns
  checkRows fields.length 0 rows
  return ⟨columns, positions, fields, rows⟩

/-- A dataset that shows all its fields. -/
def ofColumns (columns : List Column) (rows : List Row) : Except DatasetError Dataset :=
  ofParts columns (columns.map (·.name)) rows

def derive (d : Dataset) (columns : List Column) (rows : List Row) : Except DatasetError Dataset :=
  ofParts columns d.fields rows

/-- The position of a field, by its exact name or else up to the case of ASCII letters. -/
def fieldIndex? (d : Dataset) (name : String) : Option Nat :=
  (d.fields.idxOf? name).or (d.fields.findIdx? (Text.eqIgnoreAsciiCase · name))

def projected (d : Dataset) (row : Row) : List Value :=
  d.positions.map fun i => row[i]?.getD .null

def records (d : Dataset) : List (List Value) := d.rows.map d.projected

end Dataset

end TableQuery
