import TableQuery.Csv.Error
import TableQuery.Dataset.Basic
import TableQuery.Text.Quoted
import TableQuery.Value.Text

/-! # Writing CSV text

A dataset is written as a line of column names and a line for each row, without a line break at the
end. A cell is quoted when it holds the delimiter, a quote or a line break.
-/
namespace TableQuery.Csv

structure WriteOptions where
  delimiter : Char := ','
  lineBreak : String := "\r\n"
deriving DecidableEq

namespace WriteOptions

def needsQuotes (o : WriteOptions) (cs : List Char) : Bool :=
  cs.any fun c => c == o.delimiter || c == '"' || c == '\r' || c == '\n'

def cell (o : WriteOptions) (cs : List Char) : List Char :=
  if o.needsQuotes cs then Text.Quoted.encode '"' cs else cs

def line (o : WriteOptions) (cells : List String) : List Char :=
  [o.delimiter].intercalate (cells.map fun s => o.cell s.toList)

def lines (o : WriteOptions) (ls : List (List String)) : List Char :=
  o.lineBreak.toList.intercalate (ls.map o.line)

def cells (d : Dataset) : List (List String) :=
  d.columns.map (·.name) :: d.records.map (·.map Value.display)

/-- A dataset without rows is not written. -/
def write (o : WriteOptions) (d : Dataset) : Except CsvError String :=
  if d.isEmpty then .error .noData else .ok (String.ofList (o.lines (cells d)))

end WriteOptions

end TableQuery.Csv
