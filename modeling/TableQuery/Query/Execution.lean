import TableQuery.Query.Parsing
import TableQuery.Query.Selection

/-! # Running queries

What a query asks for and cannot have is left out, and a notice says so. A dataset without rows
answers every query unchanged.
-/
namespace TableQuery

inductive Policy where
  | ignore
  | reject
deriving DecidableEq

inductive Notice where
  | projectionFallback
  | ignoredPredicate (clause : String)
  | ignoredGroupBy
  | unknownSortColumn (column : String)
deriving DecidableEq

def Notice.message : Notice → String
  | projectionFallback => "Could not read the column list; showing all columns"
  | ignoredPredicate clause => s!"Unsupported WHERE clause ignored: {clause}"
  | ignoredGroupBy => "GROUP BY is not supported and was ignored"
  | unknownSortColumn column => s!"Unknown ORDER BY column ignored: {column}"

inductive QueryError where
  | grammar (cause : GrammarError)
  /-- None of the folded names is that of a column. -/
  | noMatchingColumns (requested : List String)
  | unsupportedPredicate (clause : String)
  | dataset (cause : DatasetError)
deriving DecidableEq

namespace QueryError

def message : QueryError → String
  | grammar cause => cause.message
  | noMatchingColumns _ => "None of the selected columns match the dataset"
  | unsupportedPredicate clause => s!"Unsupported WHERE clause: {clause}"
  | dataset cause => cause.message

def isGrammar : QueryError → Bool
  | grammar _ => true
  | _ => false

end QueryError

structure Execution where
  dataset : Dataset
  notices : List Notice
deriving DecidableEq

namespace Query

def unsupportedClause? (q : Query) : Option String :=
  match q.predicate with
  | some (.unsupported clause) => some clause
  | _ => none

def keptRows (q : Query) (d : Dataset) : List Row :=
  match q.predicate with
  | none => d.rows
  | some p => p.filterRows d d.rows

def sortedRows (q : Query) (d : Dataset) (rows : List Row) : List Row :=
  match q.orderBy with
  | none => rows
  | some o => sortRows (d.fieldIndex? o.column) o.order rows

def resultRows (q : Query) (d : Dataset) : List Row :=
  limitRows q.limit (q.sortedRows d (q.keptRows d))

/-- What is left out when a query runs on a dataset, in the order of the stages. -/
def notices (q : Query) (d : Dataset) : List Notice :=
  (if q.projection = .unresolved then [.projectionFallback] else []) ++
    (q.unsupportedClause?.map Notice.ignoredPredicate).toList ++
    (if q.groupBy then [.ignoredGroupBy] else []) ++
    (match q.orderBy with
      | none => []
      | some o => if (d.fieldIndex? o.column).isNone then [.unknownSortColumn o.column] else [])

def checkPredicate (policy : Policy) (q : Query) : Except QueryError Unit :=
  match policy, q.unsupportedClause? with
  | .reject, some clause => .error (.unsupportedPredicate clause)
  | _, _ => .ok ()

/-- Runs a query. Names that match no column are reported before a condition is rejected. -/
def execute (policy : Policy) (q : Query) (d : Dataset) : Except QueryError Execution :=
  if d.isEmpty then .ok ⟨d, []⟩
  else do
    let columns ← (selectColumns q.projection.names? d.columns).mapError .noMatchingColumns
    q.checkPredicate policy
    let result ← (d.derive columns (q.resultRows d)).mapError .dataset
    return ⟨result, q.notices d⟩

def failsToSort (q : Query) (d : Dataset) : Bool :=
  match q.orderBy with
  | none => false
  | some o => (sortRows? (d.fieldIndex? o.column) o.order (q.keptRows d)).isNone

/-- What comes of running a query: nothing, not even an error, if it gets as far as the sort and the sort
gives up. -/
def execute? (policy : Policy) (q : Query) (d : Dataset) : Option (Except QueryError Execution) :=
  let selected := selectColumns q.projection.names? d.columns
  if !d.isEmpty && selected.isOk && (q.checkPredicate policy).isOk && q.failsToSort d then none
  else some (q.execute policy d)

/-- Reads and runs a query. A dataset without rows is returned before the text is read. -/
def run (policy : Policy) (s : String) (d : Dataset) : Except QueryError Execution :=
  if d.isEmpty then .ok ⟨d, []⟩
  else do
    let q ← (parse s).mapError .grammar
    q.execute policy d

def run? (policy : Policy) (s : String) (d : Dataset) : Option (Except QueryError Execution) :=
  if d.isEmpty then some (.ok ⟨d, []⟩)
  else
    match parse s with
    | .error cause => some (.error (.grammar cause))
    | .ok q => q.execute? policy d

end Query

end TableQuery
