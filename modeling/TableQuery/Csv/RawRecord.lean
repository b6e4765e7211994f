import TableQuery.Csv.Error
import TableQuery.Text.Quoted

/-! # Records of CSV text

A text is split into records at line breaks and into cells at the delimiter. A cell that starts with
a quote is quoted up to the closing quote, and delimiters and line breaks inside are content; what
follows the closing quote belongs to the cell as it stands. In any other cell quotes are ordinary
characters.
-/
namespace TableQuery.Csv

structure Cell where
  text : List Char
  quoted : Bool
deriving DecidableEq

structure RawRecord where
  line : Nat
  cells : List Cell
deriving DecidableEq

namespace Cell

def isBare (delimiter c : Char) : Bool := c != delimiter && c != '\r' && c != '\n'

def scan? (delimiter : Char) (cs : List Char) : Option (Cell × List Char) :=
  if cs.head? = some '"' then
    match Text.Quoted.scan '"' cs.tail with
    | (_, none) => none
    | (content, some rest) =>
      some (⟨content ++ rest.takeWhile (isBare delimiter), true⟩, rest.dropWhile (isBare delimiter))
  else
    some (⟨cs.takeWhile (isBare delimiter), false⟩, cs.dropWhile (isBare delimiter))

theorem length_le_of_scan? {delimiter : Char} {cs rest : List Char} {cell : Cell}
    (h : scan? delimiter cs = some (cell, rest)) : rest.length ≤ cs.length := by
  unfold scan? at h
  split at h
  · split at h
    · cases h
    · rename_i content mid hs
      cases h
      have h1 := (List.dropWhile_sublist (isBare delimiter) (l := mid)).length_le
      have h2 := Text.Quoted.length_lt_of_scan hs
      simp at h2
      omega
  · cases h
    exact (List.dropWhile_sublist _).length_le

end Cell

/-- Drops a line break; a carriage return and a line feed are one. -/
def dropBreak? : List Char → Option (List Char)
  | '\r' :: '\n' :: cs => some cs
  | '\r' :: cs => some cs
  | '\n' :: cs => some cs
  | _ => none

theorem length_lt_of_dropBreak? {cs rest : List Char} (h : dropBreak? cs = some rest) :
    rest.length < cs.length := by
  unfold dropBreak? at h
  split at h <;> cases h <;> simp only [List.length_cons] <;> omega

def lineBreaks : List Char → Nat
  | [] => 0
  | c :: cs =>
    (if c = '\n' ∨ c = '\r' ∧ cs.head? ≠ some '\n' then 1 else 0) + lineBreaks cs

namespace RawRecord

def isBlank (r : RawRecord) : Bool := r.cells == [⟨[], false⟩]

/-- The cells up to the end of the first record, and what follows its line break. -/
def scanCells? (delimiter : Char) (cs : List Char) : Option (List Cell × List Char) :=
  match _h : Cell.scan? delimiter cs with
  | none => none
  | some (cell, rest) =>
    match dropBreak? rest with
    | some next => some ([cell], next)
    | none =>
      if _hr : rest = [] then some ([cell], [])
      else (scanCells? delimiter rest.tail).map fun found => (cell :: found.1, found.2)
termination_by cs.length
decreasing_by
  have h1 := Cell.length_le_of_scan? _h
  have h2 : rest.length ≠ 0 := by simpa using _hr
  simp
  omega

theorem length_le_of_scanCells? {delimiter : Char} {cs rest : List Char} {cells : List Cell}
    (h : scanCells? delimiter cs = some (cells, rest)) : rest.length ≤ cs.length - 1 := by
  fun_induction scanCells? delimiter cs generalizing cells with
  | case1 => cases h
  | case2 cs cell mid hm next hd =>
    cases h
    have h1 := Cell.length_le_of_scan? hm
    have h2 := length_lt_of_dropBreak? hd
    omega
  | case3 => cases h; simp
  | case4 cs cell mid hm hd hn ih =>
    obtain ⟨found, hf, he⟩ := Option.map_eq_some_iff.1 h
    have h1 := Cell.length_le_of_scan? hm
    have h2 := @ih found.1 (by rw [hf]; cases he; rfl)
    simp at h2
    omega

/-- The records from the given line on. Line breaks inside quotes count, too. -/
def splitFrom (delimiter : Char) (line : Nat) (cs : List Char) : Except CsvError (List RawRecord) :=
  if cs = [] then .ok []
  else
    match h : scanCells? delimiter cs with
    | none => .error (.unterminatedQuote line)
    | some (cells, rest) =>
      let next := line + cells.foldr (fun c n => lineBreaks c.text + n) 0 + 1
      (splitFrom delimiter next rest).map (⟨line, cells⟩ :: ·)
termination_by cs.length
decreasing_by
  have h1 := length_le_of_scanCells? h
  have h2 : cs.length ≠ 0 := by simpa using ‹¬cs = []›
  omega

def split (delimiter : Char) (cs : List Char) : Except CsvError (List RawRecord) :=
  splitFrom delimiter 1 cs

end RawRecord

end TableQuery.Csv
