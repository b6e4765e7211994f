import TableQuery.Csv.Error

/-! # Header names

Repeated names are told apart by a number at their end, the least one that gives a name not used so
far.
-/
namespace TableQuery.Csv

def numbered (name : String) (n : Nat) : String :=
  name ++ "_" ++ String.ofList (Nat.toDigits 10 n)

/-- The name itself if it is free, or else with the least number from 1 on that makes it free. Among
one more numbers than there are taken names there is one. -/
def freeName (taken : List String) (name : String) : String :=
  if name ∈ taken then
    let isFree (i : Nat) := !taken.contains (numbered name (i + 1))
    numbered name (((List.range (taken.length + 1)).find? isFree).getD taken.length + 1)
  else name

def uniqueNames (taken : List String) : List String → List String
  | [] => []
  | name :: names =>
    let free := freeName taken name
    free :: uniqueNames (free :: taken) names

theorem length_uniqueNames (taken names : List String) :
    (uniqueNames taken names).length = names.length := by
  induction names generalizing taken with
  | nil => rfl
  | cons name names ih => simp [uniqueNames, ih]

def renamed (names unique : List String) : List CsvWarning :=
  (names.zip unique).filterMap fun p => if p.1 = p.2 then none else some (.duplicateHeader p.1 p.2)

def columnNumbers (width : Nat) : List String :=
  (List.range width).map fun i => numbered "column" (i + 1)

end TableQuery.Csv
