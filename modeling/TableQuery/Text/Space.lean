import TableQuery.Text.CodeRange

/-! # White space

The characters with the Unicode property White_Space, and the text between the first and the last
character that is none.
-/
namespace TableQuery.Text

def spaceRanges : List CodeRange :=
  [ (0x09, 0x0D), (0x20, 0x20), (0x85, 0x85), (0xA0, 0xA0), (0x1680, 0x1680), (0x2000, 0x200A),
    (0x2028, 0x2029), (0x202F, 0x202F), (0x205F, 0x205F), (0x3000, 0x3000) ]

def isSpace (c : Char) : Bool := inRanges spaceRanges c.toNat

def trim (cs : List Char) : List Char :=
  ((cs.dropWhile isSpace).reverse.dropWhile isSpace).reverse

end TableQuery.Text
