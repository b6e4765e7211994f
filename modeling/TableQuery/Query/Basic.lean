/-! # Queries

A query names what to show of a table, which rows to keep and in what order.
-/
namespace TableQuery

inductive Projection where
  | all
  /-- The list of columns could not be read. -/
  | unresolved
  | columns (names : List String)
deriving DecidableEq

inductive Predicate where
  | equals (column value : String)
  | contains (column text : String)
  | oneOf (column : String) (values : List String)
  | unsupported (clause : String)
deriving DecidableEq

inductive SortOrder where
  | ascending
  | descending
deriving DecidableEq

structure OrderBy where
  column : String
  order : SortOrder
deriving DecidableEq

structure Query where
  projection : Projection
  /-- The name of the table, as written. It is not looked up. -/
  table : Option String
  predicate : Option Predicate
  orderBy : Option OrderBy
  limit : Option UInt64
  /-- Whether the query asks for groups, which are never formed. -/
  groupBy : Bool
deriving DecidableEq

def Predicate.column? : Predicate → Option String
  | equals column _ | contains column _ | oneOf column _ => some column
  | unsupported _ => none

def Predicate.isSupported : Predicate → Bool
  | unsupported _ => false
  | _ => true

namespace Query

def selectAll (table : String) : Query := ⟨.all, some table, none, none, none, false⟩

def hasUnsupportedPredicate (q : Query) : Bool := q.predicate.any fun p => !p.isSupported

end Query

end TableQuery
