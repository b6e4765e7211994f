import TableQuery.Binary64.Basic
import TableQuery.Binary64.Decimal
import TableQuery.Binary64.Rounding
import TableQuery.Binary64.Text
import TableQuery.Csv.Error
import TableQuery.Csv.Header
import TableQuery.Csv.RawRecord
import TableQuery.Csv.Reading
import TableQuery.Csv.Typing
import TableQuery.Csv.Writing
import TableQuery.DataType
import TableQuery.Dataset.Basic
import TableQuery.Dataset.Error
import TableQuery.Inference
import TableQuery.Proofs.Acceptance
import TableQuery.Proofs.AdaptiveSort
import TableQuery.Proofs.CanonicalQuery
import TableQuery.Proofs.CellTyping
import TableQuery.Proofs.ClauseNotices
import TableQuery.Proofs.ClauseOrder
import TableQuery.Proofs.ClausePartition
import TableQuery.Proofs.Clauses
import TableQuery.Proofs.ConditionGrammar
import TableQuery.Proofs.Conditions
import TableQuery.Proofs.CsvRecords
import TableQuery.Proofs.CsvReload
import TableQuery.Proofs.CsvRoundTrip
import TableQuery.Proofs.DatasetFaults
import TableQuery.Proofs.Datasets
import TableQuery.Proofs.Dates
import TableQuery.Proofs.DecimalRounding
import TableQuery.Proofs.Delimiters
import TableQuery.Proofs.Folding
import TableQuery.Proofs.HeaderNames
import TableQuery.Proofs.History
import TableQuery.Proofs.InferredDatasets
import TableQuery.Proofs.InferredTypes
import TableQuery.Proofs.InsertionOrder
import TableQuery.Proofs.Limits
import TableQuery.Proofs.ListItems
import TableQuery.Proofs.LiteralSubstrings
import TableQuery.Proofs.Literals
import TableQuery.Proofs.Loading
import TableQuery.Proofs.LostRows
import TableQuery.Proofs.Merging
import TableQuery.Proofs.NameLookup
import TableQuery.Proofs.NumberText
import TableQuery.Proofs.NumeralLanguage
import TableQuery.Proofs.NumeralSpelling
import TableQuery.Proofs.Omission
import TableQuery.Proofs.Outcome
import TableQuery.Proofs.Pieces
import TableQuery.Proofs.PositionalReading
import TableQuery.Proofs.PrintedClauses
import TableQuery.Proofs.PrintedQuery
import TableQuery.Proofs.QueryFailures
import TableQuery.Proofs.Quicksort
import TableQuery.Proofs.ReadQuery
import TableQuery.Proofs.RecordLines
import TableQuery.Proofs.Records
import TableQuery.Proofs.RepeatedQuery
import TableQuery.Proofs.ReprintedQuery
import TableQuery.Proofs.RequestedColumns
import TableQuery.Proofs.Rounding
import TableQuery.Proofs.Runs
import TableQuery.Proofs.Segments
import TableQuery.Proofs.SelectList
import TableQuery.Proofs.SessionHistory
import TableQuery.Proofs.Sheets
import TableQuery.Proofs.ShortSort
import TableQuery.Proofs.ShortestDecimal
import TableQuery.Proofs.ShownValues
import TableQuery.Proofs.SortedRows
import TableQuery.Proofs.SourceText
import TableQuery.Proofs.Spelling
import TableQuery.Proofs.StableSort
import TableQuery.Proofs.Statements
import TableQuery.Proofs.TokenLayout
import TableQuery.Proofs.TopRows
import TableQuery.Proofs.ValueHashing
import TableQuery.Proofs.ValueOrder
import TableQuery.Proofs.Verbatim
import TableQuery.Proofs.WholeWords
import TableQuery.Proofs.Wording
import TableQuery.Query.Basic
import TableQuery.Query.Clause
import TableQuery.Query.Execution
import TableQuery.Query.Parsing
import TableQuery.Query.Preset
import TableQuery.Query.Printing
import TableQuery.Query.Selection
import TableQuery.Query.Token
import TableQuery.Record
import TableQuery.Session
import TableQuery.Sorting.Adaptive
import TableQuery.Sorting.Short
import TableQuery.Text.CodeRange
import TableQuery.Text.Date
import TableQuery.Text.Fold
import TableQuery.Text.Letter
import TableQuery.Text.LowerCase
import TableQuery.Text.Numeral
import TableQuery.Text.Quoted
import TableQuery.Text.Slice
import TableQuery.Text.Space
import TableQuery.Text.Word
import TableQuery.Value.Basic
import TableQuery.Value.Order
import TableQuery.Value.Text
