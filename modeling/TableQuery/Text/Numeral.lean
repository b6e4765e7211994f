import TableQuery.Binary64.Decimal

/-! # Numerals

A numeral is an optional minus sign, digits with at most one point among them or at either end, and
an optional exponent with a sign of its own. At least one digit stands before the exponent and, if
there is an exponent, in it. Digits are ASCII digits.
-/
namespace TableQuery.Text

structure Numeral where
  negative : Bool
  whole : List Char
  fraction : Option (List Char)
  /-- Whether the exponent is negative, and its digits. -/
  exponent : Option (Bool × List Char)
deriving DecidableEq

namespace Numeral

def sign : List Char → Bool × List Char
  | '-' :: cs => (true, cs)
  | cs => (false, cs)

def exponentSign : List Char → Bool × List Char
  | '-' :: cs => (true, cs)
  | '+' :: cs => (false, cs)
  | cs => (false, cs)

def pointAndFraction : List Char → Option (List Char) × List Char
  | '.' :: cs => (some (cs.takeWhile Char.isDigit), cs.dropWhile Char.isDigit)
  | cs => (none, cs)

def exponentPart? : List Char → Option (Option (Bool × List Char))
  | [] => some none
  | c :: cs =>
    let (negative, digits) := exponentSign cs
    if (c = 'e' ∨ c = 'E') ∧ digits ≠ [] ∧ digits.all Char.isDigit then
      some (some (negative, digits))
    else none

def ofChars? (cs : List Char) : Option Numeral :=
  let (negative, cs) := sign cs
  let whole := cs.takeWhile Char.isDigit
  let (fraction, rest) := pointAndFraction (cs.dropWhile Char.isDigit)
  if whole = [] ∧ fraction.getD [] = [] then none
  else (exponentPart? rest).map fun exponent => ⟨negative, whole, fraction, exponent⟩

def isInteger (n : Numeral) : Bool := n.fraction.isNone && n.exponent.isNone

def signed (negative : Bool) (n : Nat) : Int := if negative then -n else n

def toInt (n : Numeral) : Int := signed n.negative (Nat.ofDigitChars 10 n.whole 0)

def exponentValue (n : Numeral) : Int :=
  match n.exponent with
  | none => 0
  | some (negative, digits) => signed negative (Nat.ofDigitChars 10 digits 0)

def toDecimal (n : Numeral) : Decimal :=
  let fraction := n.fraction.getD []
  ⟨n.negative, Nat.ofDigitChars 10 (n.whole ++ fraction) 0, n.exponentValue - fraction.length⟩

end Numeral

end TableQuery.Text
