import Mathlib.Data.List.ReduceOption
import TableQuery.Proofs.TopRows

/-! # Leaving out what cannot be had

A query of which parts are left out gives what the query without these parts gives, and tells what is
missing. Rejecting a condition differs from ignoring it only where there is one that is not supported and
the columns are found.
-/
namespace TableQuery
open Outcome

namespace Query
variable {q : Query} {d : Dataset}

def effective (q : Query) (d : Dataset) : Query where
  projection := if q.projection = .unresolved then .all else q.projection
  table := q.table
  predicate := q.predicate.filter Predicate.isSupported
  orderBy := q.orderBy.filter fun o => (d.fieldIndex? o.column).isSome
  limit := q.limit
  groupBy := false

theorem keptRows_effective (q : Query) (d : Dataset) : (q.effective d).keptRows d = q.keptRows d := by
  unfold keptRows effective
  cases q.predicate with
  | none => rfl
  | some p =>
    cases hp : p.isSupported with
    | true => rw [Option.filter_some_pos hp]
    | false =>
      rw [Option.filter_some_neg hp]
      refine (List.filter_eq_self.2 fun row _ => ?_).symm
      rw [Predicate.keeps, hp]
      rfl

theorem reduceOption_cons {α : Type} (o : Option α) (os : List (Option α)) :
    (o :: os).reduceOption = o.toList ++ os.reduceOption := by
  cases o <;> rfl

theorem notices_eq (q : Query) (d : Dataset) : q.notices d = [
    if q.projection = .unresolved then some .projectionFallback else none,
    q.unsupportedClause?.map .ignoredPredicate,
    if q.groupBy then some .ignoredGroupBy else none,
    (q.orderBy.filter fun o => (d.fieldIndex? o.column).isNone).map fun o =>
      .unknownSortColumn o.column].reduceOption := by
  simp only [reduceOption_cons, List.reduceOption_nil, List.append_nil, notices, List.append_assoc]
  congr 1
  · split <;> rfl
  · congr 1
    congr 1
    · split <;> rfl
    · cases q.orderBy with
      | none => rfl
      | some o => cases hi : d.fieldIndex? o.column <;> simp [hi, Option.filter_some]

theorem execute_of_rows_ne_nil (hrows : d.rows ≠ []) (policy : Policy) (q : Query) :
    q.execute policy d = do
      let columns ← (selectColumns q.projection.names? d.columns).mapError .noMatchingColumns
      q.checkPredicate policy
      let result ← (d.derive columns (q.resultRows d)).mapError .dataset
      return ⟨result, q.notices d⟩ := by
  rw [execute, if_neg (ne_true_of_eq_false (Dataset.isEmpty_eq_false hrows))]

theorem execute_of_not_selected {names : List String} (hrows : d.rows ≠ [])
    (hc : selectColumns q.projection.names? d.columns = .error names) (policy : Policy) :
    q.execute policy d = .error (.noMatchingColumns names) := by
  rw [execute_of_rows_ne_nil hrows, hc]
  rfl

theorem execute_of_rejected {columns : List Column} {policy : Policy} {error : QueryError}
    (hrows : d.rows ≠ []) (hc : selectColumns q.projection.names? d.columns = .ok columns)
    (hp : q.checkPredicate policy = .error error) : q.execute policy d = .error error := by
  rw [execute_of_rows_ne_nil hrows, hc, hp]
  rfl

theorem execute_of_derived {columns : List Column} {policy : Policy} {result : Dataset}
    (hrows : d.rows ≠ []) (hc : selectColumns q.projection.names? d.columns = .ok columns)
    (hp : q.checkPredicate policy = .ok ()) (hr : d.derive columns (q.resultRows d) = .ok result) :
    q.execute policy d = .ok ⟨result, q.notices d⟩ := by
  rw [execute_of_rows_ne_nil hrows, hc, hp]
  simp only [bind, Except.bind, Except.mapError, hr]
  rfl

/-- In a well-formed dataset the columns found and the rows left make up a dataset. -/
theorem exists_derive_resultRows {columns : List Column} (hd : d.WellFormed)
    (hc : selectColumns q.projection.names? d.columns = .ok columns) :
    ∃ result, d.derive columns (q.resultRows d) = .ok result := by
  apply hd.exists_derive_eq_ok
  · rw [selectColumns_eq_ok hc]
    exact List.filter_sublist
  · intro row hrow
    exact hd.length_row row (q.resultRows_subset d hrow)

theorem checkPredicate_ignore (q : Query) : q.checkPredicate .ignore = .ok () := by
  unfold checkPredicate
  cases q.unsupportedClause? <;> rfl

theorem unsupportedClause?_of_unsupported {clause : String} (h : q.predicate = some (.unsupported clause)) :
    q.unsupportedClause? = some clause := by
  unfold unsupportedClause?
  rw [h]

theorem unsupportedClause?_of_supported (h : ∀ clause, q.predicate ≠ some (.unsupported clause)) :
    q.unsupportedClause? = none := by
  unfold unsupportedClause?
  split
  next clause hp => exact absurd hp (h clause)
  next => rfl

theorem checkPredicate_reject {clause : String} (h : q.predicate = some (.unsupported clause)) :
    q.checkPredicate .reject = .error (.unsupportedPredicate clause) := by
  unfold checkPredicate
  rw [unsupportedClause?_of_unsupported h]

theorem checkPredicate_of_supported (h : ∀ clause, q.predicate ≠ some (.unsupported clause))
    (policy : Policy) : q.checkPredicate policy = .ok () := by
  unfold checkPredicate
  rw [unsupportedClause?_of_supported h]
  cases policy <;> rfl

end Query
end TableQuery
