/-! # Data types

The type of a column says how its values are meant; it does not constrain them.
-/
namespace TableQuery

inductive DataType where
  | string
  | integer
  | decimal
  | boolean
  | date
deriving DecidableEq

namespace DataType

def name : DataType → String
  | string => "string"
  | integer => "integer"
  | decimal => "decimal"
  | boolean => "boolean"
  | date => "date"

def all : List DataType := [string, integer, decimal, boolean, date]

def ofName? (s : String) : Option DataType := all.find? (·.name == s)

/-- The least type that both fit in: integers widen to decimals, all else falls back to strings. -/
def unify (a b : DataType) : DataType :=
  if a = b then a
  else match a, b with
    | integer, decimal | decimal, integer => decimal
    | _, _ => string

theorem unify_self (a : DataType) : unify a a = a := by simp [unify]

theorem unify_comm (a b : DataType) : unify a b = unify b a := by
  cases a <;> cases b <;> rfl

theorem unify_assoc (a b c : DataType) : unify (unify a b) c = unify a (unify b c) := by
  cases a <;> cases b <;> cases c <;> rfl

end DataType

end TableQuery
