/-! # Words in a text

A word is a maximal run of ASCII letters, digits and underscores.
-/
namespace TableQuery.Text

def isWordChar (c : Char) : Bool := c.isAlphanum || c == '_'

/-- The maximal runs of characters with the property; between two others the run is empty. -/
def runs (p : Char → Bool) : List Char → List (List Char)
  | [] => [[]]
  | c :: cs =>
    if p c then
      match runs p cs with
      | [] => [[c]]
      | run :: later => (c :: run) :: later
    else [] :: runs p cs

/-- The word, given in lower case, stands in the text up to the case of ASCII letters. -/
def holdsWord (word : List Char) (cs : List Char) : Bool :=
  (runs isWordChar cs).any fun run => run.map Char.toLower == word

end TableQuery.Text
