import TableQuery.Dataset.Basic

/-! # Inference of columns

Columns are inferred from records: their names are given or those of the first record, their types
come from the values that are not empty.
-/
namespace TableQuery

inductive InferenceStrategy where
  | firstNonEmpty
  | reconcile
deriving DecidableEq

namespace InferenceStrategy

def resolve (s : InferenceStrategy) (suggested : List DataType) : DataType :=
  match s, suggested with
  | _, [] => .string
  | firstNonEmpty, t :: _ => t
  | reconcile, t :: ts => ts.foldl DataType.unify t

def columnType (s : InferenceStrategy) (records : List Record) (name : String) : DataType :=
  s.resolve (records.filterMap fun r => (r.get? name).bind Value.suggestedType?)

/-- The known columns, if there are any, or else the keys of the first record. -/
def columnNames (records : List Record) (known : Option (List String)) : List String :=
  match known with
  | some (n :: ns) => n :: ns
  | _ => (records.head?.map Record.keys).getD []

def inferColumns (s : InferenceStrategy) (records : List Record) (known : Option (List String)) :
    List Column :=
  if records.isEmpty then []
  else (columnNames records known).map fun name => ⟨name, s.columnType records name⟩

def infer (s : InferenceStrategy) (records : List Record) (known : Option (List String)) :
    Except DatasetError Dataset :=
  let columns := s.inferColumns records known
  if records.isEmpty then .ok .empty
  else Dataset.ofColumns columns (records.map (·.toRow (columns.map (·.name))))

end InferenceStrategy

end TableQuery
