/-! # Binary64 numbers

A number is its 64 bits. Below the sign bit lies the magnitude: it numbers the representable sizes
from zero upwards, so that order is order of magnitudes, infinity closes the finite ones and the
magnitudes above it are no numbers. Every finite size is a whole number of units of `2 ^ -1074`.
-/
namespace TableQuery

structure Binary64 where
  bits : UInt64
deriving DecidableEq

namespace Binary64

def infiniteMagnitude : Nat := 0x7FF0000000000000

def magnitude (x : Binary64) : Nat := x.bits.toNat % Nat.pow 2 63

def isNegative (x : Binary64) : Bool := Nat.pow 2 63 ≤ x.bits.toNat

def ofMagnitude (negative : Bool) (m : Nat) : Binary64 :=
  ⟨UInt64.ofNat (if negative then Nat.pow 2 63 + m else m)⟩

def isNaN (x : Binary64) : Bool := infiniteMagnitude < x.magnitude

def isInfinite (x : Binary64) : Bool := x.magnitude == infiniteMagnitude

def isFinite (x : Binary64) : Bool := x.magnitude < infiniteMagnitude

/-- The number of units of `2 ^ -1074` in a finite magnitude: 52 fraction bits, below them no
leading bit for the least exponent and a leading bit for the others. -/
def units (m : Nat) : Nat :=
  let exponent := m / Nat.pow 2 52
  if exponent = 0 then m else (Nat.pow 2 52 + m % Nat.pow 2 52) * Nat.pow 2 (exponent - 1)

def isWhole (x : Binary64) : Bool :=
  x.isFinite && units x.magnitude % Nat.pow 2 1074 == 0

/-- Orders all numbers: the two zeros share a key, and what is no number shares one above all
others. -/
def orderKey (x : Binary64) : Int :=
  if x.isNaN then infiniteMagnitude + 1
  else if x.isNegative then -x.magnitude
  else x.magnitude

instance : Ord Binary64 := ⟨fun x y => compare x.orderKey y.orderKey⟩

theorem compare_def (x y : Binary64) : compare x y = compare x.orderKey y.orderKey := rfl

end Binary64

end TableQuery
