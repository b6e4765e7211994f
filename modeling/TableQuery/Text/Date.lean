/-! # Dates

A text is a date when it starts with four digits, a separator, one or two digits, a separator and
one or two digits. A separator is a hyphen or a slash; anything may follow.
-/
namespace TableQuery.Text

/-- What follows the longest run of at most `most` ASCII digits, which must hold `least` of them. -/
def skipDigits? (least most : Nat) (cs : List Char) : Option (List Char) :=
  let run := (cs.take most).takeWhile Char.isDigit
  if least ≤ run.length then some (cs.drop run.length) else none

def skipSeparator? : List Char → Option (List Char)
  | '-' :: cs => some cs
  | '/' :: cs => some cs
  | _ => none

def dateRest? (cs : List Char) : Option (List Char) := do
  let cs ← skipDigits? 4 4 cs
  let cs ← skipSeparator? cs
  let cs ← skipDigits? 1 2 cs
  let cs ← skipSeparator? cs
  skipDigits? 1 2 cs

def startsWithDate (s : String) : Bool := (dateRest? s.toList).isSome

end TableQuery.Text
