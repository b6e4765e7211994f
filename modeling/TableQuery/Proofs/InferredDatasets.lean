import TableQuery.Inference
import TableQuery.Proofs.DatasetFaults

/-! # Inferred datasets

Records make up a dataset exactly if the names of their columns can be those of fields. Each record is then a
row, with null for a name that it lacks. Columns and rows are laid out along the names, so that only a name can
have a fault.
-/
namespace TableQuery
open Dataset

namespace InferenceStrategy
variable {s : InferenceStrategy} {records : List Record} {known : Option (List String)} {names : List String}
  {d : Dataset} {e : DatasetError}

/-- Names that are known come before the keys of the first record. -/
theorem columnNames_cons (first : Record) (later : List Record) (known : Option (List String)) :
    columnNames (first :: later) known = if known.getD [] = [] then first.keys else known.getD [] := by
  rcases known with _ | _ | _ <;> rfl

theorem columnNames_of_known (records : List Record) (h : names ≠ []) :
    columnNames records (some names) = names := by
  obtain ⟨n, later, rfl⟩ := List.exists_cons_of_ne_nil h
  rfl

def columnsOf (s : InferenceStrategy) (names : List String) (records : List Record) : List Column :=
  names.map fun name => ⟨name, s.columnType records name⟩

theorem map_name_columnsOf (s : InferenceStrategy) (names : List String) (records : List Record) :
    (s.columnsOf names records).map (·.name) = names := by
  rw [columnsOf, List.map_map]
  exact List.map_id _

theorem inferColumns_eq_columnsOf (s : InferenceStrategy) (hrecords : records ≠ [])
    (hnames : columnNames records known = names) : s.inferColumns records known = s.columnsOf names records := by
  rw [inferColumns, List.isEmpty_eq_false_iff.2 hrecords, if_neg Bool.false_ne_true, hnames, columnsOf]

theorem length_of_mem_map_toRow : ∀ row ∈ records.map (·.toRow names),
    row.length = (s.columnsOf names records).length := by
  intro row hrow
  obtain ⟨r, -, rfl⟩ := List.mem_map.1 hrow
  rw [Record.length_toRow, columnsOf, List.length_map]

theorem infer_eq_ofColumns (s : InferenceStrategy) (hrecords : records ≠ [])
    (hnames : columnNames records known = names) :
    s.infer records known = ofColumns (s.columnsOf names records) (records.map (·.toRow names)) := by
  unfold infer
  dsimp only
  rw [List.isEmpty_eq_false_iff.2 hrecords, if_neg Bool.false_ne_true, s.inferColumns_eq_columnsOf hrecords hnames,
    map_name_columnsOf]

theorem exists_infer_eq_ok_iff (hrecords : records ≠ []) (hnames : columnNames records known = names) :
    (∃ d, s.infer records known = .ok d) ↔ AreFieldNames names := by
  rw [s.infer_eq_ofColumns hrecords hnames, exists_ofColumns_eq_ok_iff length_of_mem_map_toRow,
    map_name_columnsOf]

theorem infer_eq_error_iff (hrecords : records ≠ []) (hnames : columnNames records known = names) :
    s.infer records known = .error e ↔ IsFirstFault FieldFault names e := by
  rw [s.infer_eq_ofColumns hrecords hnames, ofColumns_eq_error_iff length_of_mem_map_toRow, map_name_columnsOf]

theorem infer_eq_ok (hrecords : records ≠ []) (hnames : columnNames records known = names)
    (h : s.infer records known = .ok d) :
    d.WellFormed ∧ d.fields = names ∧ d.columns = s.columnsOf names records ∧
      d.rows = records.map (·.toRow names) := by
  rw [s.infer_eq_ofColumns hrecords hnames] at h
  obtain ⟨hd, hcolumns, hfields, hrows⟩ := ofParts_eq_ok_iff.1 h
  rw [map_name_columnsOf] at hfields
  exact ⟨hd, hfields, hcolumns, hrows⟩

theorem rowCount_of_infer (h : s.infer records known = .ok d) : d.rowCount = records.length := by
  rcases eq_or_ne records [] with rfl | hrecords
  · obtain rfl := Except.ok.inj h
    rfl
  · rw [rowCount, (infer_eq_ok hrecords rfl h).2.2.2, List.length_map]

/-- Records make up a dataset of their columns' names, with a row for each record, or the first name that
cannot be that of a field is reported. Without records there are no columns. -/
theorem infer_outcome (s : InferenceStrategy) (known : Option (List String)) :
    s.infer [] known = .ok .empty ∧
    ∀ (first : Record) (later : List Record),
      let records := first :: later
      let names := if known.getD [] = [] then first.keys else known.getD []
      ((∃ d, s.infer records known = .ok d) ↔ (∀ n ∈ names, n ≠ "") ∧ names.Nodup) ∧
      (∀ d, s.infer records known = .ok d →
        d.fields = names ∧ d.columns = names.map (fun n => ⟨n, s.columnType records n⟩) ∧
        d.rows = records.map (fun r => names.map fun n => (r.get? n).getD .null) ∧ d.records = d.rows) ∧
      (∀ e, s.infer records known = .error e ↔ IsFirstFault FieldFault names e) ∧
      (∀ row expected got, s.infer records known ≠ .error (.rowWidthMismatch row expected got)) ∧
      ∀ c, s.infer records known ≠ .error (.columnNotFound c) := by
  refine ⟨rfl, fun first later => ?_⟩
  intro records names
  have hrecords : records ≠ [] := List.cons_ne_nil _ _
  have hnames : columnNames records known = names := columnNames_cons first later known
  have herror {e : DatasetError} : s.infer records known = .error e ↔ IsFirstFault FieldFault names e :=
    infer_eq_error_iff hrecords hnames
  refine ⟨exists_infer_eq_ok_iff hrecords hnames, fun d hd => ?_, fun e => herror, fun row expected got h => ?_,
    fun c h => ?_⟩
  · obtain ⟨hwell, hfields, hcolumns, hrows⟩ := infer_eq_ok hrecords hnames hd
    exact ⟨hfields, hcolumns, hrows,
      hwell.records_eq_rows (by rw [hfields, hcolumns, map_name_columnsOf])⟩
  · obtain ⟨before, f, after, -, -, ⟨⟩⟩ := herror.1 h
  · obtain ⟨before, f, after, -, -, ⟨⟩⟩ := herror.1 h

end InferenceStrategy
end TableQuery
