import TableQuery.Csv.Header
import TableQuery.Csv.RawRecord
import TableQuery.Csv.Typing
import TableQuery.Inference

/-! # Reading CSV text

The records of a text are laid out along field names, which the first record gives or which are
counted. Cells that a record lacks become null, cells beyond the fields are dropped, and both are
reported.
-/
namespace TableQuery.Csv

structure ReadOptions where
  delimiter : Char := ','
  typed : Bool := true
  skipBlank : Bool := true
  header : Bool := true
deriving DecidableEq

/-- The records of a text, each with all fields as keys. -/
structure Sheet where
  fields : List String
  records : List Record
  warnings : List CsvWarning
deriving DecidableEq

def byteOrderMark : Char := Char.ofNat 0xFEFF

def dropMark : List Char → List Char
  | [] => []
  | c :: cs => if c = byteOrderMark then cs else c :: cs

def validDelimiter (c : Char) : Bool := c != '"' && c != '\r' && c != '\n'

def Cell.string (c : Cell) : String := String.ofList c.text

namespace RawRecord

def widthWarning? (expected row : Nat) (r : RawRecord) : Option CsvWarning :=
  if r.cells.length < expected then some (.tooFewFields row r.line expected r.cells.length)
  else if expected < r.cells.length then some (.tooManyFields row r.line expected r.cells.length)
  else none

def toRecord (convert : String → Value) (fields : List String) (r : RawRecord) : Record :=
  let values := r.cells.map fun c => convert c.string
  Record.ofList (fields.zip (values ++ List.replicate (fields.length - values.length) .null))

end RawRecord

namespace Sheet

def ofRecords (convert : String → Value) (fields : List String) (raw : List RawRecord) :
    Sheet where
  fields := fields
  records := raw.map (·.toRecord convert fields)
  warnings := raw.zipIdx.filterMap fun p => p.1.widthWarning? fields.length p.2

def toDataset (s : Sheet) (strategy : InferenceStrategy) : Except CsvError Dataset :=
  (strategy.infer s.records (some s.fields)).mapError .dataset

end Sheet

namespace ReadOptions

def convert (o : ReadOptions) (s : String) : Value :=
  if o.typed then typedValue s else .text s

def keep (o : ReadOptions) (raw : List RawRecord) : List RawRecord :=
  raw.filter fun r => !(o.skipBlank && r.isBlank)

/-- Lays out the records that count. Warnings about names come before those about records. -/
def layOut (o : ReadOptions) (raw : List RawRecord) : Sheet :=
  if o.header then
    match raw with
    | [] => ⟨[], [], []⟩
    | first :: data =>
      let names := first.cells.map Cell.string
      let fields := uniqueNames [] names
      let sheet := Sheet.ofRecords o.convert fields data
      { sheet with warnings := renamed names fields ++ sheet.warnings }
  else
    let width := (raw.map (·.cells.length)).foldl max 0
    Sheet.ofRecords o.convert (columnNumbers width) raw

def read (o : ReadOptions) (text : String) : Except CsvError Sheet :=
  if validDelimiter o.delimiter then
    (RawRecord.split o.delimiter (dropMark text.toList)).map fun raw => o.layOut (o.keep raw)
  else .error (.invalidDelimiter o.delimiter)

end ReadOptions

def load (text : String) : Except CsvError Dataset :=
  (({} : ReadOptions).read text).bind fun sheet => sheet.toDataset .firstNonEmpty

end TableQuery.Csv
