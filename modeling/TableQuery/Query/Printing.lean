import TableQuery.Query.Basic
import TableQuery.Text.Quoted

/-! # Printing queries

The canonical text of a query. Texts stand between single quotes, and a request for groups is left
out.
-/
namespace TableQuery

def literal (s : String) : List Char := Text.Quoted.encode '\x27' s.toList

def commaSeparated (items : List (List Char)) : List Char := ", ".toList.intercalate items

namespace Predicate

def chars : Predicate → List Char
  | equals column value => column.toList ++ " = ".toList ++ literal value
  | contains column text => column.toList ++ " LIKE ".toList ++ literal ("%" ++ text ++ "%")
  | oneOf column values =>
    column.toList ++ " IN (".toList ++ commaSeparated (values.map literal) ++ ")".toList
  | unsupported clause => clause.toList

def display (p : Predicate) : String := String.ofList p.chars

end Predicate

def Projection.chars : Projection → List Char
  | all | unresolved => "*".toList
  | columns names => commaSeparated (names.map String.toList)

def OrderBy.chars (o : OrderBy) : List Char :=
  o.column.toList ++ (if o.order = .descending then " DESC".toList else [])

namespace Query

def clauseChars (keyword : String) : Option (List Char) → List Char
  | none => []
  | some body => keyword.toList ++ body

def chars (q : Query) : List Char :=
  "SELECT ".toList ++ q.projection.chars ++
    clauseChars " FROM " (q.table.map String.toList) ++
    clauseChars " WHERE " (q.predicate.map Predicate.chars) ++
    clauseChars " ORDER BY " (q.orderBy.map OrderBy.chars) ++
    clauseChars " LIMIT " (q.limit.map fun n => Nat.toDigits 10 n.toNat)

def display (q : Query) : String := String.ofList q.chars

end Query

end TableQuery
