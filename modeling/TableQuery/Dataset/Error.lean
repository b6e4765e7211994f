/-! # Errors of datasets -/
namespace TableQuery

inductive DatasetError where
  | invalidSchema (reason : String)
  | duplicateColumn (column : String)
  | columnNotFound (column : String)
  | rowWidthMismatch (row expected got : Nat)
  | invalidOperation (reason : String)
deriving DecidableEq

namespace DatasetError

def emptyColumnName : DatasetError := .invalidSchema "empty column name"

def columnsOutOfOrder : DatasetError :=
  .invalidSchema "projected columns must follow field order without repeats"

def message : DatasetError → String
  | invalidSchema reason => s!"Invalid schema: {reason}"
  | duplicateColumn column => s!"Duplicate column: {column}"
  | columnNotFound column => s!"Column not found: {column}"
  | rowWidthMismatch row expected got => s!"Row {row} has {got} values, expected {expected}"
  | invalidOperation reason => s!"Invalid operation: {reason}"

end DatasetError

end TableQuery
