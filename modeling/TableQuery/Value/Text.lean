import TableQuery.Value.Basic
import TableQuery.Binary64.Text

/-! # Text of values

The text that a value is shown, exported and compared by.
-/
namespace TableQuery

def intChars (i : Int) : List Char :=
  (if i < 0 then ['-'] else []) ++ Nat.toDigits 10 i.natAbs

def intText (i : Int) : String := String.ofList (intChars i)

namespace Value

def display : Value → String
  | null => ""
  | boolean b => if b then "true" else "false"
  | integer n => intText n.toInt
  | float x => x.text
  | text s => s

def comparedText? (v : Value) : Option String :=
  if v.isNull then none else some v.display

end Value

end TableQuery
