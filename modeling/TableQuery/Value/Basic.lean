import TableQuery.Binary64.Basic
import TableQuery.DataType
import TableQuery.Text.Date

/-! # Values

What a cell of a table holds. An integer and a float are different kinds, also where they denote one
number.
-/
namespace TableQuery

inductive Value where
  | null
  | boolean (b : Bool)
  | integer (n : Int64)
  | float (x : Binary64)
  | text (s : String)
deriving DecidableEq

namespace Value

def isNull : Value → Bool
  | null => true
  | _ => false

def isEmpty : Value → Bool
  | null => true
  | text s => s == ""
  | _ => false

def boolean? : Value → Option Bool
  | boolean b => some b
  | _ => none

def integer? : Value → Option Int64
  | integer n => some n
  | _ => none

def text? : Value → Option String
  | text s => some s
  | _ => none

/-- The column type that a value suggests. Numbers without a fractional part are integers whatever
their kind; an empty value suggests nothing. -/
def suggestedType? : Value → Option DataType
  | null => none
  | boolean _ => some .boolean
  | integer _ => some .integer
  | float x => some (if x.isWhole then .integer else .decimal)
  | text s =>
    if s = "" then none
    else some (if Text.startsWithDate s then .date else .string)

theorem suggestedType?_eq_none_iff (v : Value) : v.suggestedType? = none ↔ v.isEmpty = true := by
  cases v <;> simp [suggestedType?, isEmpty]

end Value

end TableQuery
