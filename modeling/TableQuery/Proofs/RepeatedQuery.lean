import TableQuery.Proofs.History
import TableQuery.Proofs.QueryFailures

/-! # Queries on their own results

The rows that answer a query all satisfy its condition, are in order and do not exceed the limit, and the
columns are those that it asks for. So the query changes nothing about its result.
-/
namespace TableQuery
open Outcome

/-- Columns that were selected are selected again. -/
theorem selectColumns_selected {names : Option (List String)} {columns selected : List Column}
    (h : selectColumns names columns = .ok selected) : selectColumns names selected = .ok selected := by
  cases names with
  | none => rfl
  | some names =>
    unfold selectColumns at h ⊢
    dsimp only at h ⊢
    split at h
    next => cases h
    next hne =>
      cases h
      rw [List.filter_filter]
      simp only [Bool.and_self]
      rw [if_neg hne]

/-- A dataset is built again from what it shows. -/
theorem Dataset.WellFormed.derive_self {d : Dataset} (hd : d.WellFormed) :
    d.derive d.columns d.rows = .ok d :=
  ofParts_eq_ok_iff.2 ⟨hd, rfl, rfl, rfl⟩

theorem Predicate.holds_congr {d e : Dataset} (h : d.fields = e.fields) (p : Predicate) (row : Row) :
    p.Holds d row ↔ p.Holds e row := by
  cases p <;> simp only [Holds, Dataset.textAt?, Dataset.fieldIndex?_congr h]

namespace Query
variable {q : Query} {d e : Dataset}

theorem admits_congr (h : d.fields = e.fields) (q : Query) (row : Row) :
    q.Admits d row ↔ q.Admits e row :=
  forall₂_congr fun p _ => p.holds_congr h row

theorem precedes_congr (h : d.fields = e.fields) (q : Query) (r s : Row) :
    q.Precedes d r s ↔ q.Precedes e r s := by
  simp only [Precedes, Dataset.fieldIndex?_congr h]

structure Settled (q : Query) (d : Dataset) : Prop where
  admits : ∀ row ∈ d.rows, q.Admits d row
  ordered : d.rows.Pairwise fun r s => ¬q.Precedes d s r
  length_le : ∀ n ∈ q.limit, d.rows.length ≤ n.toNat

theorem AreTop.settled {positions : List Nat} (h : q.AreTop d positions) (hf : e.fields = d.fields)
    (hr : e.rows = positions.map d.rowAt) : q.Settled e where
  admits := by
    rw [hr, List.forall_mem_map]
    intro i hi
    exact (admits_congr hf q _).2 (h.admits i hi)
  ordered := by
    rw [hr, List.pairwise_map]
    exact h.ordered.imp fun hij => mt (precedes_congr hf q _ _).1 hij.1
  length_le := by
    intro n hn
    have hlength := h.length_eq
    rw [Option.mem_def.1 hn] at hlength
    rw [hr, List.length_map, hlength]
    exact Nat.min_le_left _ _

/-- Each stage leaves settled rows as they are. -/
theorem Settled.resultRows_eq (h : q.Settled d) : q.resultRows d = d.rows := by
  have hkept : q.keptRows d = d.rows := by
    rw [keptRows_eq, List.filter_eq_self]
    exact fun row hrow => decide_eq_true (h.admits row hrow)
  have hsorted : q.sortedRows d d.rows = d.rows := by
    rw [sortedRows_eq, sortBy_of_pairwise (h.ordered.imp fun hrs => mt precedes_iff.2 hrs), Option.getD_some]
  rw [resultRows, hkept, hsorted]
  unfold limitRows
  cases hn : q.limit with
  | none => rfl
  | some n => exact List.take_of_length_le (h.length_le n hn)

theorem execute_result {policy : Policy} {r : Execution} (hd : d.WellFormed) (hrows : d.rows ≠ [])
    (hm : ∀ row ∈ d.rows, q.SortsModerately d row) (hr : q.execute policy d = .ok r)
    (hresult : r.dataset.rows ≠ []) : q.execute policy r.dataset = .ok r := by
  obtain ⟨hcolumns, hfields, htop, hnotices⟩ := execute_eq_ok hrows hr
  rw [← map_rowAt_topPositions hm] at htop
  have hsettled : q.Settled r.dataset := (areTop_topPositions hm).settled hfields htop
  have hpredicate : q.checkPredicate policy = .ok () := by
    cases hp : q.checkPredicate policy with
    | error error =>
      rw [execute_of_rejected hrows hcolumns hp] at hr
      cases hr
    | ok _ => rfl
  have hderive : r.dataset.derive r.dataset.columns (q.resultRows r.dataset) = .ok r.dataset := by
    rw [hsettled.resultRows_eq]
    exact (wellFormed_of_execute hd hr).derive_self
  rw [execute_of_derived hresult (selectColumns_selected hcolumns) hpredicate hderive,
    notices_congr q hfields, ← hnotices]

/-- Run on its own result a query gives the same dataset. Notices are given again, unless there are no rows. -/
theorem run_result {policy : Policy} {s : String} {r : Execution} (hd : d.WellFormed)
    (hm : ∀ q, parse s = .ok q → ∀ row ∈ d.rows, q.SortsModerately d row) (hr : run policy s d = .ok r) :
    run policy s r.dataset = .ok ⟨r.dataset, if r.dataset.rows = [] then [] else r.notices⟩ := by
  by_cases hresult : r.dataset.rows = []
  · rw [if_pos hresult, run_of_rows_eq_nil hresult]
  rw [if_neg hresult]
  cases hs : parse s with
  | error cause =>
    by_cases hrows : d.rows = []
    · rw [run_of_rows_eq_nil hrows] at hr
      obtain rfl := Except.ok.inj hr
      exact absurd hrows hresult
    · rw [run_of_parse_eq_error hrows hs] at hr
      cases hr
  | ok q =>
    rw [run_of_parse_eq_ok hs] at hr ⊢
    by_cases hrows : d.rows = []
    · rw [execute_of_rows_eq_nil hrows] at hr
      obtain rfl := Except.ok.inj hr
      exact absurd hrows hresult
    · exact execute_result hd hrows (hm q hs) hr hresult

/-- The condition and the order are about fields that the result does not show. One row is cut off, and two
that tie keep their places. -/
theorem run_result_hidden_fields :
    let d : Dataset := ⟨[⟨"city", .string⟩, ⟨"age", .integer⟩], [0, 1], ["city", "age", "note"],
      [[.text "Ulm", .null, .text "a"], [.text "Bonn", .integer 9007199254740992, .text "A"],
        [.text "Kiel", .integer 7, .text "b"], [.text "Jena", .float ⟨0x4340000000000000⟩, .text "ba"],
        [.text "Trier", .boolean true, .text "a"], [.text "Mainz", .null, .text "a"]]⟩
    let s := "SELECT city FROM t WHERE note LIKE '%a%' GROUP BY city ORDER BY age DESC LIMIT 4"
    let r : Execution := ⟨⟨[⟨"city", .string⟩], [0], ["city", "age", "note"],
      [[.text "Bonn", .integer 9007199254740992, .text "A"],
        [.text "Jena", .float ⟨0x4340000000000000⟩, .text "ba"], [.text "Trier", .boolean true, .text "a"],
        [.text "Ulm", .null, .text "a"]]⟩, [.ignoredGroupBy]⟩
    d.WellFormed ∧ (∀ q, parse s = .ok q → ∀ row ∈ d.rows, q.SortsModerately d row) ∧
      run .reject s d = .ok r ∧ run .reject s r.dataset = .ok r := by
  intro d s r
  have hd : d.WellFormed := by constructor <;> decide
  have hparse : parse s = .ok ⟨.columns ["city"], some "t", some (.contains "note" "a"),
      some ⟨"age", .descending⟩, some 4, true⟩ := by decide +kernel
  have hm : ∀ q, parse s = .ok q → ∀ row ∈ d.rows, q.SortsModerately d row := by
    intro q hq
    obtain rfl := Except.ok.inj (hparse.symm.trans hq)
    decide +kernel
  have hr : run .reject s d = .ok r := by decide +kernel
  exact ⟨hd, hm, hr, run_result hd hm hr⟩

end Query
end TableQuery
