import TableQuery.Dataset.Basic
import TableQuery.Query.Basic
import TableQuery.Sorting.Adaptive
import TableQuery.Value.Order
import TableQuery.Value.Text

/-! # Selecting columns and rows

A query works in stages: columns are chosen by name, rows are kept by a condition, put in order, and
cut off after a number of them. A row is kept or dropped as a whole, whatever columns are shown.
-/
namespace TableQuery

/-- The columns whose folded name is among the folded names, in their own order. None left is a
fault if names were given; the fault reports the folded names. -/
def selectColumns (names : Option (List String)) (columns : List Column) :
    Except (List String) (List Column) :=
  match names with
  | none => .ok columns
  | some names =>
    let wanted := names.map Text.fold
    let selected := columns.filter fun c => wanted.contains (Text.fold c.name)
    if selected.isEmpty && !wanted.isEmpty then .error wanted else .ok selected

def Projection.names? : Projection → Option (List String)
  | all | unresolved => none
  | columns names => some names

namespace Predicate

def holdsFor (s : String) : Predicate → Bool
  | equals _ value => Text.eqIgnoreCase s value
  | contains _ text => Text.containsIgnoreCase s text
  | oneOf _ values => (values.map Text.fold).contains (Text.fold s)
  | unsupported _ => true

def testedText? (index : Option Nat) (row : Row) : Option String :=
  (index.bind (row[·]?)).bind Value.comparedText?

/-- Whether a row is kept, given the position of the column. A null value or an unknown column
satisfies no supported condition; an unsupported condition keeps every row. -/
def keeps (p : Predicate) (index : Option Nat) (row : Row) : Bool :=
  !p.isSupported || (testedText? index row).any p.holdsFor

def index? (p : Predicate) (d : Dataset) : Option Nat := p.column?.bind d.fieldIndex?

def filterRows (p : Predicate) (d : Dataset) (rows : List Row) : List Row :=
  rows.filter (p.keeps (p.index? d))

end Predicate

def sortKey? (index : Nat) (row : Row) : Option Value :=
  row[index]?.filter (!·.isNull)

namespace SortOrder

/-- Rows without a key come last in both orders. -/
def cmpKeys : SortOrder → Option Value → Option Value → Ordering
  | ascending, some a, some b => compare a b
  | descending, some a, some b => compare b a
  | _, none, some _ => .gt
  | _, some _, none => .lt
  | _, none, none => .eq

def cmpRows (o : SortOrder) (index : Nat) (a b : Row) : Ordering :=
  o.cmpKeys (sortKey? index a) (sortKey? index b)

end SortOrder

/-- The rows are sorted as handles of eight bytes. Nothing comes of it if the sort gives up. -/
def sortRows? (index : Option Nat) (o : SortOrder) (rows : List Row) : Option (List Row) :=
  match index with
  | none => some rows
  | some i => sortBy 8 (o.cmpRows i) rows

/-- What stands here for the rows if the sort gives up is of no account. -/
def sortRows (index : Option Nat) (o : SortOrder) (rows : List Row) : List Row :=
  (sortRows? index o rows).getD rows

def limitRows (limit : Option UInt64) (rows : List Row) : List Row :=
  match limit with
  | none => rows
  | some n => rows.take n.toNat

end TableQuery
