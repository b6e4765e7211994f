/-! # Sorting short lists

A list of at most twenty elements is sorted by insertion. One of at most thirty-two is sorted in two halves,
each by insertion behind its first few elements, which a network puts in order. The halves are then merged
from both ends at once. The two ends meet if the comparison is a total preorder; if they do not, the sort
gives up.
-/
namespace TableQuery
variable {α : Type} (cmp : α → α → Ordering)

/-- Puts an element behind the nearest one that does not come after it, in a list with the last
element first. -/
def insertBehind (x : α) : List α → List α
  | [] => [x]
  | y :: ys => if cmp x y = .lt then y :: insertBehind x ys else x :: y :: ys

def insertAll (sorted xs : List α) : List α :=
  (xs.foldl (fun sorted x => insertBehind cmp x sorted) sorted.reverse).reverse

def stableSort (xs : List α) : List α :=
  (xs.foldl (fun sorted x => insertBehind cmp x sorted) []).reverse

namespace Sorting

structure Steps (α : Type) where
  merged : List α
  /-- How many of the elements are from the left list, and how many from the right one. -/
  left : Nat
  right : Nat

def mergeSteps : Nat → List α → List α → Steps α
  | 0, _, _ | _, [], _ | _, _, [] => ⟨[], 0, 0⟩
  | n + 1, x :: xs, y :: ys =>
    if cmp y x = .lt then
      let steps := mergeSteps n (x :: xs) ys
      ⟨y :: steps.merged, steps.left, steps.right + 1⟩
    else
      let steps := mergeSteps n xs (y :: ys)
      ⟨x :: steps.merged, steps.left + 1, steps.right⟩

/-- The last steps of a merge. They are the first ones of the reversed lists in the reversed order. -/
def mergeStepsBack (n : Nat) (xs ys : List α) : Steps α :=
  let steps := mergeSteps (fun a b => cmp b a) n ys.reverse xs.reverse
  ⟨steps.merged.reverse, steps.right, steps.left⟩

/-- Merges two lists of which the right one is as long as the left one or longer by one. From each end as many
steps are taken as the left list has elements; an element that is left over stands in the middle. -/
def mergeEnds (xs ys : List α) : Option (List α) :=
  let front := mergeSteps cmp xs.length xs ys
  let back := mergeStepsBack cmp xs.length xs ys
  if front.left + back.left ≤ xs.length ∧ front.right + back.right ≤ ys.length then
    some (front.merged ++ (xs.take (xs.length - back.left)).drop front.left ++
      (ys.take (ys.length - back.right)).drop front.right ++ back.merged)
  else none

def sortMiddle (v w x y : α) : List α :=
  if cmp x w = .lt then [v, x, w, y] else [v, w, x, y]

def mergePairs (a b c d : α) : List α :=
  if cmp c a = .lt then
    if cmp d b = .lt then sortMiddle cmp c a d b else sortMiddle cmp c a b d
  else if cmp d b = .lt then sortMiddle cmp a c d b else sortMiddle cmp a b c d

def sortFour : List α → List α
  | [v, w, x, y] =>
    if cmp w v = .lt then
      if cmp y x = .lt then mergePairs cmp w v y x else mergePairs cmp w v x y
    else if cmp y x = .lt then mergePairs cmp v w y x else mergePairs cmp v w x y
  | xs => xs

def sortEight (xs : List α) : Option (List α) :=
  mergeEnds cmp (sortFour cmp (xs.take 4)) (sortFour cmp (xs.drop 4))

/-- The half of a list of `total` elements, of which each takes up `size` bytes. -/
def sortHalf (size total : Nat) (xs : List α) : Option (List α) :=
  if size ≤ 16 ∧ 16 ≤ total then (sortEight cmp (xs.take 8)).map (insertAll cmp · (xs.drop 8))
  else if 8 ≤ total then some (insertAll cmp (sortFour cmp (xs.take 4)) (xs.drop 4))
  else some (stableSort cmp xs)

def sortShort (size : Nat) (xs : List α) : Option (List α) := do
  let left ← sortHalf cmp size xs.length (xs.take (xs.length / 2))
  let right ← sortHalf cmp size xs.length (xs.drop (xs.length / 2))
  mergeEnds cmp left right

end Sorting
end TableQuery
