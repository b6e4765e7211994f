import TableQuery.Dataset.Error

/-! # Errors and warnings of CSV text -/
namespace TableQuery

inductive CsvError where
  /-- A quote is never closed in the record that starts on this line. -/
  | unterminatedQuote (line : Nat)
  | invalidDelimiter (delimiter : Char)
  | noData
  | dataset (cause : DatasetError)
deriving DecidableEq

namespace CsvError

def delimiterName (c : Char) : String :=
  if c = '\r' then "'\\r'"
  else if c = '\n' then "'\\n'"
  else "'" ++ String.singleton c ++ "'"

def message : CsvError → String
  | unterminatedQuote line => s!"Unterminated quoted field in record starting on line {line}"
  | invalidDelimiter delimiter => "Invalid CSV delimiter: " ++ delimiterName delimiter
  | noData => "No data to export"
  | dataset cause => cause.message

end CsvError

/-- Rows are counted from zero after the header, lines from one. -/
inductive CsvWarning where
  | tooFewFields (row line expected found : Nat)
  | tooManyFields (row line expected found : Nat)
  | duplicateHeader (name renamed : String)
deriving DecidableEq

def CsvWarning.message : CsvWarning → String
  | tooFewFields row line expected found =>
    s!"Row {row} (line {line}): too few fields, expected {expected} but parsed {found}"
  | tooManyFields row line expected found =>
    s!"Row {row} (line {line}): too many fields, expected {expected} but parsed {found}"
  | duplicateHeader name renamed => s!"Duplicate header \"{name}\" renamed to \"{renamed}\""

end TableQuery
