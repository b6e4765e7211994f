import TableQuery.Binary64.Basic

/-! # Rounding to binary64

A non-negative ratio goes to the nearest representable number, a tie to the one with an even last
bit, and a ratio beyond the finite numbers to infinity.
-/
namespace TableQuery.Binary64

def nearestQuotient (num den : Nat) : Nat :=
  let q := num / den
  let twice := 2 * (num % den)
  if twice < den then q
  else if den < twice then q + 1
  else q + q % 2

/-- The magnitude nearest to `num / den` units. At most 53 leading bits are kept, so the last kept
bit weighs `2 ^ shift` units, and carrying into a 54th bit moves on to the next exponent. -/
def nearestMagnitude (num den : Nat) : Nat :=
  let shift := (num / den).log2 - 52
  min infiniteMagnitude (shift * Nat.pow 2 52 + nearestQuotient num (den * Nat.pow 2 shift))

def ofRatio (negative : Bool) (num den : Nat) : Binary64 :=
  ofMagnitude negative (nearestMagnitude (num * Nat.pow 2 1074) den)

def ofInt (i : Int) : Binary64 := ofRatio (i < 0) i.natAbs 1

end TableQuery.Binary64
