import TableQuery.Value.Basic
import TableQuery.Binary64.Rounding

/-! # Order and equality of values

Kinds are ordered as null, booleans, numbers and texts. Two integers compare exactly; an integer
meets a float as the nearest float. Texts compare by code points.
-/
namespace TableQuery.Value

def kindRank : Value → Nat
  | null => 0
  | boolean _ => 1
  | integer _ => 2
  | float _ => 2
  | text _ => 3

def float? : Value → Option Binary64
  | integer n => some (Binary64.ofInt n.toInt)
  | float x => some x
  | _ => none

def cmp : Value → Value → Ordering
  | boolean a, boolean b => compare a b
  | integer a, integer b => compare a.toInt b.toInt
  | float a, float b => compare a b
  | integer a, float b => compare (Binary64.ofInt a.toInt) b
  | float a, integer b => compare a (Binary64.ofInt b.toInt)
  | text a, text b => compare a b
  | a, b => compare a.kindRank b.kindRank

instance : Ord Value := ⟨cmp⟩

/-- Equal values are of one kind. Floats are equal when neither precedes the other, so the two zeros
are equal and so are any two that are no numbers. -/
def agrees : Value → Value → Bool
  | null, null => true
  | boolean a, boolean b => a == b
  | integer a, integer b => a == b
  | float a, float b => a.orderKey == b.orderKey
  | text a, text b => a == b
  | _, _ => false

/-- What a hash function reads of a value: a number for the kind, then the content. A float gives
its bits, a text its code points. -/
def hashInput : Value → List Nat
  | null => [0]
  | boolean b => [1, b.toNat]
  | integer n => [2, n.toUInt64.toNat]
  | float x => [3, x.bits.toNat]
  | text s => 4 :: s.toList.map Char.toNat

end TableQuery.Value
