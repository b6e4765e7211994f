import TableQuery.Text.Numeral
import TableQuery.Text.Space
import TableQuery.Value.Basic

/-! # Typing of cells

The text of a cell becomes null, a boolean, a number or itself. White space around a number is
allowed. An integer is kept only where every float of its size still tells it from its neighbours.
-/
namespace TableQuery.Csv

def trueTexts : List String := ["true", "TRUE", "True"]
def falseTexts : List String := ["false", "FALSE", "False"]

/-- Integers up to this size are told apart as floats. -/
def maxExactInteger : Nat := Nat.pow 2 53 - 1

def numberValue? (n : Text.Numeral) : Option Value :=
  if n.isInteger then
    if n.toInt.natAbs ≤ maxExactInteger then some (.integer (Int64.ofInt n.toInt)) else none
  else
    let x := Binary64.ofDecimal n.toDecimal
    if x.isFinite then some (.float x) else none

/-- The value of a cell; a text that is nothing else stands for itself, white space included. -/
def typedValue (s : String) : Value :=
  if s = "" then .null
  else if s ∈ trueTexts then .boolean true
  else if s ∈ falseTexts then .boolean false
  else ((Text.Numeral.ofChars? (Text.trim s.toList)).bind numberValue?).getD (.text s)

end TableQuery.Csv
