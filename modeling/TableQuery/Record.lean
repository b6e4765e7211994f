import TableQuery.Value.Basic

/-! # Records and rows

A record maps keys to values and keeps the order in which the keys came first. A row is a record
laid out along a list of fields.
-/
namespace TableQuery

abbrev Row := List Value

structure Record where
  entries : List (String × Value)
deriving DecidableEq

namespace Record

def empty : Record := ⟨[]⟩

def keys (r : Record) : List String := r.entries.map Prod.fst

def size (r : Record) : Nat := r.entries.length

def isEmpty (r : Record) : Bool := r.entries.isEmpty

/-- Puts a value in the place of an old one for the same key, or else at the end. -/
def insertEntry (key : String) (value : Value) : List (String × Value) → List (String × Value)
  | [] => [(key, value)]
  | e :: es => if e.1 = key then (key, value) :: es else e :: insertEntry key value es

def insert (r : Record) (key : String) (value : Value) : Record :=
  ⟨insertEntry key value r.entries⟩

def ofList (pairs : List (String × Value)) : Record :=
  pairs.foldl (fun r p => r.insert p.1 p.2) empty

def get? (r : Record) (key : String) : Option Value :=
  (r.entries.find? (·.1 == key)).map Prod.snd

/-- Missing keys become null. -/
def toRow (r : Record) (fields : List String) : Row :=
  fields.map fun f => (r.get? f).getD .null

theorem length_toRow (r : Record) (fields : List String) : (r.toRow fields).length = fields.length := by
  simp [toRow]

end Record

end TableQuery
