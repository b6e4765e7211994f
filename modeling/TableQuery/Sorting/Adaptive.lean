import TableQuery.Sorting.Short

/-! # Sorting lists of any length

A long list is cut into runs: stretches that are in order or in falling order already, and others that are
sorted at once if the list is not too long, and else when they are merged, by a quicksort that keeps equal
elements in their order. Neighbouring runs are merged as they would be in a balanced tree over the list.
Whatever the comparison is, the sort comes to an end; it gives up where a short list in it does.
-/
namespace TableQuery.Sorting
variable {α : Type} (cmp : α → α → Ordering)

def mergeRuns (xs ys : List α) : List α :=
  if xs.length ≤ ys.length then
    let steps := mergeSteps cmp (xs.length + ys.length) xs ys
    steps.merged ++ xs.drop steps.left ++ ys.drop steps.right
  else
    let steps := mergeStepsBack cmp (xs.length + ys.length) xs ys
    xs.take (xs.length - steps.left) ++ ys.take (ys.length - steps.right) ++ steps.merged

def chainLength (test : α → α → Bool) (x : α) : List α → Nat
  | [] => 0
  | y :: ys => if test x y then chainLength test y ys + 1 else 0

def existingRun : List α → Nat × Bool
  | [] => (0, false)
  | x :: xs =>
    let falling := chainLength (fun a b => cmp b a = .lt) x xs
    if 0 < falling then (falling + 1, true)
    else (chainLength (fun a b => cmp b a ≠ .lt) x xs + 1, false)

structure Run (α : Type) where
  elements : List α
  sorted : Bool

def Run.finished (finish : List α → Option (List α)) (run : Run α) : Option (List α) :=
  if run.sorted then some run.elements else finish run.elements

/-- The first run of a list, and what follows it. An existing run counts if it has at least `good` elements. -/
def firstRun (eager : Bool) (size good : Nat) (xs : List α) : Option (Run α × List α) :=
  let (n, falling) := existingRun cmp xs
  if good ≤ n then
    some (⟨if falling then (xs.take n).reverse else xs.take n, true⟩, xs.drop n)
  else if eager then
    (sortShort cmp size (xs.take 32)).map fun sorted => (⟨sorted, true⟩, xs.drop 32)
  else some (⟨xs.take good, false⟩, xs.drop good)

def cutRuns (eager : Bool) (size good : Nat) : Nat → List α → Option (List (Run α))
  | _, [] => some []
  | 0, _ => some []
  | n + 1, xs => do
    let (run, rest) ← firstRun cmp eager size good xs
    let runs ← cutRuns eager size good n rest
    return run :: runs

def goodRunLength (n : Nat) : Nat :=
  if n ≤ 4096 then min (n - n / 2) 64
  else
    let root := Nat.pow 2 ((1 + n.log2) / 2)
    (root + n / root) / 2

def mergeDepth (n left mid right : Nat) : Nat :=
  let scale := (Nat.pow 2 62 + n - 1) / n
  let differing := Nat.xor (scale * (left + mid)) (scale * (mid + right))
  if differing = 0 then 64 else 63 - differing.log2

section
variable (finish : List α → Option (List α)) (room : Nat)

/-- Runs that are not sorted and for which there is room are joined as they are, to be sorted later. -/
def joinRuns (left right : Run α) : Option (Run α) :=
  if room < left.elements.length + right.elements.length ∨ left.sorted ∨ right.sorted then do
    let xs ← left.finished finish
    let ys ← right.finished finish
    return ⟨mergeRuns cmp xs ys, true⟩
  else some ⟨left.elements ++ right.elements, false⟩

/-- Joins a run with those before it that are to be merged at this depth or deeper. The first run stays. -/
def collapse (depth : Nat) : List (Run α × Nat) → Run α → Option (List (Run α × Nat) × Run α)
  | (left, d) :: below :: stack, run =>
    if depth ≤ d then do
      let joined ← joinRuns cmp finish room left run
      collapse depth (below :: stack) joined
    else some ((left, d) :: below :: stack, run)
  | stack, run => some (stack, run)

/-- Joins runs, of which the first one begins at `start` and the one before it is `last`. -/
def joinAll (n : Nat) (stack : List (Run α × Nat)) (last : Run α) (start : Nat) :
    List (Run α) → Option (Run α)
  | [] => do
    let (_, run) ← collapse cmp finish room 0 stack last
    return run
  | run :: runs => do
    let stop := start + run.elements.length
    let depth := mergeDepth n (start - last.elements.length) start stop
    let (stack, last) ← collapse cmp finish room depth stack last
    joinAll n ((last, depth) :: stack) run stop runs

def sortRuns (eager : Bool) (size : Nat) (xs : List α) : Option (List α) := do
  let runs ← cutRuns cmp eager size (goodRunLength xs.length) xs.length xs
  let run ← joinAll cmp finish room xs.length [] ⟨[], true⟩ 0 runs
  run.finished finish

end

def medianOf (less : Nat → Nat → Bool) (a b c : Nat) : Nat :=
  if less a b = less a c then
    if less b c = less a b then b else c
  else a

/-- Each position is replaced by a median of the `n` elements from there on. -/
def medianFrom (less : Nat → Nat → Bool) (a b c n : Nat) : Nat :=
  if n < 8 then medianOf less a b c
  else
    let m := n / 8
    let median (i : Nat) := medianFrom less i (i + 4 * m) (i + 7 * m) m
    medianOf less (median a) (median b) (median c)
termination_by n

def pivotIndex (less : Nat → Nat → Bool) (n : Nat) : Nat :=
  let m := n / 8
  if n < 64 then medianOf less 0 (4 * m) (7 * m) else medianFrom less 0 (4 * m) (7 * m) m

def lessAt (xs : List α) (i j : Nat) : Bool :=
  match xs[i]?, xs[j]? with
  | some x, some y => cmp x y = .lt
  | _, _ => false

/-- Puts the elements that pass a test before the others. That at the pivot's position is not tested. -/
def partitionAt (i : Nat) (pivotPasses : Bool) (test : α → Bool) (xs : List α) : List α × List α :=
  let pivot := (xs.drop i).take 1
  let before := (xs.take i).partition test
  let after := (xs.drop (i + 1)).partition test
  if pivotPasses then (before.1 ++ pivot ++ after.1, before.2 ++ after.2)
  else (before.1 ++ after.1, before.2 ++ pivot ++ after.2)

/-- Splits a list into what is less than its pivot and the rest, and again on both sides. If nothing is less, or
the pivot is no greater than the element that everything here is known to reach, the elements equal to it are
put first instead. -/
def quicksort (size : Nat) (fallback : List α → Option (List α)) :
    Nat → Option α → List α → Option (List α)
  | limit, least, xs =>
    if xs.length ≤ 32 then sortShort cmp size xs
    else
      match limit with
      | 0 => fallback xs
      | limit + 1 =>
        let i := pivotIndex (lessAt cmp xs) xs.length
        match xs[i]? with
        | none => some xs
        | some pivot =>
          let parts := partitionAt i false (fun x => cmp x pivot = .lt) xs
          if least.any (fun a => cmp a pivot ≠ .lt) || parts.1.isEmpty then do
            let parts := partitionAt i true (fun x => cmp pivot x ≠ .lt) xs
            let right ← quicksort size fallback limit none parts.2
            return parts.1 ++ right
          else do
            let right ← quicksort size fallback limit (some pivot) parts.2
            let left ← quicksort size fallback limit least parts.1
            return left ++ right

def sortEagerly (size : Nat) : List α → Option (List α) := sortRuns cmp some 0 true size

def sortLazily (size room : Nat) : List α → Option (List α) :=
  sortRuns cmp (fun xs => quicksort cmp size (sortEagerly cmp size) (2 * xs.length.log2) none xs) room false size

end TableQuery.Sorting

namespace TableQuery

/-- Sorts elements of which each takes up `size` bytes. Nothing comes of it if the sort finds that the comparison
contradicts itself. -/
def sortBy {α : Type} (size : Nat) (cmp : α → α → Ordering) (xs : List α) : Option (List α) :=
  if xs.length ≤ 20 then some (stableSort cmp xs)
  else if xs.length ≤ 64 then Sorting.sortEagerly cmp size xs
  else Sorting.sortLazily cmp size (max (xs.length - xs.length / 2) (min xs.length (8000000 / size))) xs

end TableQuery
