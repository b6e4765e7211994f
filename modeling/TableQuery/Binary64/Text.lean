import TableQuery.Binary64.Decimal

/-! # Number text

Numbers are written with the fewest digits that read back, positionally from a millionth up to below
`10 ^ 21` and with an exponent of ten elsewhere. Whole numbers have no point, and zero has no sign.
-/
namespace TableQuery.Binary64

def positionalFrom : Int := -6
def positionalTo : Int := 20

def zeros (n : Nat) : List Char := List.replicate n '0'

/-- The significant digits with the point after the digit for `10 ^ 0`; `top` is the exponent of the
first digit. -/
def positional (digits : List Char) (top : Int) : List Char :=
  if top < 0 then '0' :: '.' :: zeros ((-top).toNat - 1) ++ digits
  else
    let whole := top.toNat + 1
    if digits.length ≤ whole then digits ++ zeros (whole - digits.length)
    else digits.take whole ++ '.' :: digits.drop whole

def scientific (digits : List Char) (top : Int) : List Char :=
  digits.take 1 ++ (if digits.length ≤ 1 then [] else '.' :: digits.drop 1) ++
    'e' :: (if top < 0 then '-' else '+') :: Nat.toDigits 10 top.natAbs

def significantDigits (n : Nat) : List Char :=
  ((Nat.toDigits 10 n).reverse.dropWhile (· == '0')).reverse

def magnitudeText (m : Nat) : List Char :=
  let d := Decimal.shortest m
  let top := d.exponent + (Nat.toDigits 10 d.coefficient).length - 1
  let digits := significantDigits d.coefficient
  if positionalFrom ≤ top ∧ top ≤ positionalTo then positional digits top
  else scientific digits top

def textChars (x : Binary64) : List Char :=
  if x.isNaN then ['N', 'a', 'N']
  else if x.magnitude = 0 then ['0']
  else
    (if x.isNegative then ['-'] else []) ++
      (if x.isInfinite then "Infinity".toList else magnitudeText x.magnitude)

def text (x : Binary64) : String := String.ofList x.textChars

end TableQuery.Binary64
