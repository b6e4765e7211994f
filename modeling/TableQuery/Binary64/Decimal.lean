import TableQuery.Binary64.Rounding

/-! # Decimal numbers and binary64

A decimal number is read as the nearest binary64 number. Back, a binary64 number is written with the
fewest significant digits that read as the same number.
-/
namespace TableQuery

structure Decimal where
  negative : Bool
  coefficient : Nat
  exponent : Int
deriving DecidableEq

def hugeDigits : Int := 311

def tinyZeros : Int := 330

def Binary64.ofDecimal (d : Decimal) : Binary64 :=
  let top := d.exponent + (Nat.toDigits 10 d.coefficient).length
  if d.coefficient = 0 ∨ top ≤ -tinyZeros then ofMagnitude d.negative 0
  else if hugeDigits ≤ top then ofMagnitude d.negative infiniteMagnitude
  else ofRatio d.negative (d.coefficient * Nat.pow 10 d.exponent.toNat) (Nat.pow 10 (-d.exponent).toNat)

namespace Decimal

/-- Decimal places under which every finite number but zero shows at least 18 digits. -/
def places : Nat := 342

def cutPlaces (m : Nat) : Nat := Binary64.units m * Nat.pow 10 places / Nat.pow 2 1074

/-- The neighbours of a cut magnitude on the grid of `10 ^ step` units, below and above. -/
def below (cut step : Nat) : Decimal := ⟨false, cut / Nat.pow 10 step, step - places⟩
def above (cut step : Nat) : Decimal := ⟨false, cut / Nat.pow 10 step + 1, step - places⟩

def belowIsNearer (m cut step : Nat) : Bool :=
  2 * Binary64.units m * Nat.pow 10 places <
    (2 * (cut / Nat.pow 10 step) + 1) * Nat.pow 10 step * Nat.pow 2 1074

/-- The nearer neighbour that reads as the finite magnitude; the one above when both are equally
near. -/
def neighbour? (m cut step : Nat) : Option Decimal :=
  let candidates :=
    if belowIsNearer m cut step then [below cut step, above cut step]
    else [above cut step, below cut step]
  candidates.find? fun d => Binary64.ofDecimal d == Binary64.ofMagnitude false m

def exact (m : Nat) : Decimal := ⟨false, Binary64.units m * Nat.pow 5 1074, -1074⟩

/-- The fewest digits that read as this finite magnitude, and of those the nearest ones. Seventeen
digits always suffice. -/
def shortest (m : Nat) : Decimal :=
  let cut := cutPlaces m
  let size := (Nat.toDigits 10 cut).length
  ((List.range 17).findSome? fun i => neighbour? m cut (size - (i + 1))).getD (exact m)

end Decimal

end TableQuery
