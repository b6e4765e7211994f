import TableQuery.Csv.Reading
import TableQuery.Proofs.Datasets
import TableQuery.Query.Execution

/-! # Histories of datasets

A current dataset is replaced again and again: by one built from parts, from records or from CSV text, or
by the result of a query on it. Whatever the steps are, and whichever of them fail, every dataset on the
way is well formed.
-/
namespace TableQuery
open Outcome

theorem InferenceStrategy.wellFormed_of_infer {strategy : InferenceStrategy} {records : List Record}
    {known : Option (List String)} {d : Dataset} (h : strategy.infer records known = .ok d) :
    d.WellFormed := by
  unfold infer at h
  dsimp only at h
  split at h
  next => exact Except.ok.inj h ▸ Dataset.wellFormed_empty
  next => exact (Dataset.ofParts_eq_ok_iff.1 h).1

theorem Query.wellFormed_of_execute {policy : Policy} {q : Query} {d : Dataset} {e : Execution}
    (hd : d.WellFormed) (h : q.execute policy d = .ok e) : e.dataset.WellFormed := by
  unfold execute at h
  split at h
  next =>
    cases h
    exact hd
  next =>
    simp only [bind_eq_ok, mapError_eq_ok] at h
    obtain ⟨_, _, _, _, result, hr, ⟨⟩⟩ := h
    exact (Dataset.ofParts_eq_ok_iff.1 hr).1

theorem Query.wellFormed_of_run {policy : Policy} {s : String} {d : Dataset} {e : Execution}
    (hd : d.WellFormed) (h : run policy s d = .ok e) : e.dataset.WellFormed := by
  unfold run at h
  split at h
  next =>
    cases h
    exact hd
  next =>
    obtain ⟨q, -, hq⟩ := bind_eq_ok.1 h
    exact wellFormed_of_execute hd hq

namespace Dataset

inductive Step where
  | new (columns : List Column) (rows : List Row)
  | parts (columns : List Column) (fields : List String) (rows : List Row)
  | derive (columns : List Column) (rows : List Row)
  | infer (strategy : InferenceStrategy) (records : List Record) (known : Option (List String))
  | read (options : Csv.ReadOptions) (text : String) (strategy : InferenceStrategy)
  | run (policy : Policy) (text : String)
  | execute (policy : Policy) (q : Query)

namespace Step

def result? (d : Dataset) : Step → Option Dataset
  | new columns rows => (ofColumns columns rows).toOption
  | parts columns fields rows => (ofParts columns fields rows).toOption
  | derive columns rows => (d.derive columns rows).toOption
  | infer strategy records known => (strategy.infer records known).toOption
  | read options text strategy => ((options.read text).bind (·.toDataset strategy)).toOption
  | run policy text => ((Query.run policy text d).map (·.dataset)).toOption
  | execute policy q => ((q.execute policy d).map (·.dataset)).toOption

/-- A step that fails leaves the dataset as it was. -/
def apply (d : Dataset) (s : Step) : Dataset := (s.result? d).getD d

end Step

def history (steps : List Step) : List Dataset := steps.scanl Step.apply empty

theorem Step.wellFormed_of_result? {d e : Dataset} {s : Step} (hd : d.WellFormed)
    (h : s.result? d = some e) : e.WellFormed := by
  cases s with
  | new columns rows | parts columns fields rows | derive columns rows =>
    exact (ofParts_eq_ok_iff.1 (toOption_eq_some.1 h)).1
  | infer strategy records known => exact InferenceStrategy.wellFormed_of_infer (toOption_eq_some.1 h)
  | read options text strategy =>
    obtain ⟨sheet, -, hsheet⟩ := bind_eq_ok.1 (toOption_eq_some.1 h)
    exact InferenceStrategy.wellFormed_of_infer (mapError_eq_ok.1 hsheet)
  | run policy text =>
    obtain ⟨r, hr, rfl⟩ := map_eq_ok.1 (toOption_eq_some.1 h)
    exact Query.wellFormed_of_run hd hr
  | execute policy q =>
    obtain ⟨r, hr, rfl⟩ := map_eq_ok.1 (toOption_eq_some.1 h)
    exact Query.wellFormed_of_execute hd hr

theorem Step.wellFormed_apply {d : Dataset} (hd : d.WellFormed) (s : Step) : (s.apply d).WellFormed := by
  unfold apply
  cases h : s.result? d with
  | none => exact hd
  | some e => exact wellFormed_of_result? hd h

theorem wellFormed_of_mem_scanl {d e : Dataset} (hd : d.WellFormed) (steps : List Step)
    (h : e ∈ steps.scanl Step.apply d) : e.WellFormed := by
  induction steps generalizing d with
  | nil =>
    rw [List.mem_singleton.1 h]
    exact hd
  | cons s steps ih =>
    rw [List.scanl_cons] at h
    rcases List.mem_cons.1 h with rfl | h
    · exact hd
    · exact ih (s.wellFormed_apply hd) h

/-- Every dataset that steps lead to is well formed, and what it shows of its rows is their values in its
columns: none is made up for a missing one. -/
theorem wellFormed_of_mem_history {steps : List Step} {d : Dataset} (h : d ∈ history steps) :
    d.WellFormed ∧ ∀ row ∈ d.rows,
      (d.projected row).map some = d.columns.map (fun c => d.cell? row c.name) ∧
        ∀ i ∈ d.positions, i < row.length := by
  have hd : d.WellFormed := wellFormed_of_mem_scanl wellFormed_empty steps h
  refine ⟨hd, fun row hrow => ?_⟩
  have hlength := hd.length_row row hrow
  exact ⟨hd.map_some_projected hlength, hd.lt_length_row hlength⟩

/-- A text is read, columns that are out of order are refused, and a query keeps one row and one column. -/
theorem wellFormed_of_mem_history_query :
    let steps : List Step := [.read {} "city,age\nUlm,52\nBonn,\n" .reconcile,
      .derive [⟨"age", .integer⟩, ⟨"city", .string⟩] [], .run .ignore "SELECT age FROM t WHERE city = 'bonn'"]
    let d : Dataset := ⟨[⟨"age", .integer⟩], [1], ["city", "age"], [[.text "Bonn", .null]]⟩
    d ∈ history steps ∧ d.WellFormed ∧ ∀ row ∈ d.rows,
      (d.projected row).map some = d.columns.map (fun c => d.cell? row c.name) ∧
        ∀ i ∈ d.positions, i < row.length := by
  intro steps d
  have hd : d ∈ history steps := by decide +kernel
  exact ⟨hd, wellFormed_of_mem_history hd⟩

end Dataset
end TableQuery
