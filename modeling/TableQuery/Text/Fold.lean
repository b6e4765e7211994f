import TableQuery.Text.LowerCase

/-! # Case folding

Texts are compared without regard to case by their folds. A fold is the lower case of every
character, where a capital sigma that ends a word takes its final form.
-/
namespace TableQuery.Text

def capitalSigma : Char := Char.ofNat 0x3A3
def smallSigma : Char := Char.ofNat 0x3C3
def finalSigma : Char := Char.ofNat 0x3C2

def meetsCased (cs : List Char) : Bool :=
  (cs.dropWhile isCaseIgnorable).head?.any isCased

/-- A sigma is final when a cased character comes before it and none after it. -/
def sigmaBetween (before after : List Char) : Char :=
  if meetsCased before && !meetsCased after then finalSigma else smallSigma

/-- Folds a text whose preceding characters, nearest first, are `before`. -/
def foldAfter (before : List Char) : List Char → List Char
  | [] => []
  | c :: cs =>
    (if c = capitalSigma then [sigmaBetween before cs] else lowerChar c) ++
      foldAfter (c :: before) cs

def foldChars (cs : List Char) : List Char := foldAfter [] cs

def fold (s : String) : String := String.ofList (foldChars s.toList)

theorem toList_fold (s : String) : (fold s).toList = foldChars s.toList := by
  simp [fold]

def isAscii (cs : List Char) : Bool := cs.all (·.toNat < 0x80)

def eqIgnoreAsciiCase (s t : String) : Bool :=
  s.toList.map Char.toLower == t.toList.map Char.toLower

/-- Equal folds; ASCII texts need no table for it. -/
def eqIgnoreCase (s t : String) : Bool :=
  if isAscii s.toList && isAscii t.toList then eqIgnoreAsciiCase s t else fold s == fold t

def occursIn (needle : List Char) : List Char → Bool
  | [] => needle.isEmpty
  | c :: cs => needle.isPrefixOf (c :: cs) || occursIn needle cs

theorem occursIn_iff {needle cs : List Char} : occursIn needle cs = true ↔ needle <:+: cs := by
  induction cs with
  | nil => simp [occursIn]
  | cons c cs ih => simp [occursIn, List.infix_cons_iff, ih]

def containsIgnoreCase (text needle : String) : Bool :=
  occursIn (foldChars needle.toList) (foldChars text.toList)

end TableQuery.Text
