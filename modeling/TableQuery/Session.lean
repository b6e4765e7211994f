import TableQuery.Csv.Reading
import TableQuery.Csv.Writing
import TableQuery.Query.Execution

/-! # Sessions

A session holds at most one dataset and the policy for conditions that are not supported.
-/
namespace TableQuery

structure Session where
  dataset : Option Dataset
  policy : Policy
deriving DecidableEq

inductive SessionError where
  | unavailable
  | csv (cause : CsvError)
  | query (cause : QueryError)
deriving DecidableEq

def SessionError.message : SessionError → String
  | unavailable => "Customer data is not available"
  | csv cause => cause.message
  | query cause => cause.message

namespace Session

def new : Session := ⟨none, .ignore⟩

def isLoaded (s : Session) : Bool := s.dataset.isSome

def rowCount (s : Session) : Nat := (s.dataset.map Dataset.rowCount).getD 0

def columns (s : Session) : List Column := (s.dataset.map (·.columns)).getD []

/-- Puts the dataset of a text in the place of the old one, which stays if the text cannot be read.
-/
def load (s : Session) (text : String) : Except SessionError Session :=
  ((Csv.load text).mapError .csv).map fun d => { s with dataset := some d }

def setPolicy (s : Session) (policy : Policy) : Session := { s with policy }

def run (s : Session) (query : String) : Except SessionError Execution :=
  match s.dataset with
  | none => .error .unavailable
  | some d => (Query.run s.policy query d).mapError .query

def run? (s : Session) (query : String) : Option (Except SessionError Execution) :=
  match s.dataset with
  | none => some (.error .unavailable)
  | some d => (Query.run? s.policy query d).map (·.mapError .query)

end Session

def version : String := "0.1.0"

end TableQuery
