import Mathlib.Data.List.Basic
import TableQuery.Csv.Reading
import TableQuery.Proofs.HeaderNames
import TableQuery.Proofs.InferredDatasets
import TableQuery.Proofs.Records

/-! # Loaded datasets

A dataset that was loaded from a text shows all its fields. Each of its values is the typed text of a cell,
and the type of a column is the one that its first value suggests that is not empty.
-/
namespace TableQuery
open Outcome

namespace Record
variable {names : List String} {values : List Value}

theorem get?_zip (h : values.length = names.length) (name : String) :
    (⟨names.zip values⟩ : Record).get? name = (names.idxOf? name).bind (values[·]?) := by
  induction names generalizing values with
  | nil => rfl
  | cons n names ih =>
    cases values with
    | nil => cases h
    | cons v values =>
      have hrest := ih (Nat.succ.inj h)
      unfold get? at hrest ⊢
      rw [List.zip_cons_cons, List.find?_cons, List.idxOf?_cons]
      cases n == name with
      | true => rfl
      | false =>
        rw [hrest]
        cases names.idxOf? name <;> rfl

theorem toRow_zip (hnames : names.Nodup) (h : values.length = names.length) :
    (⟨names.zip values⟩ : Record).toRow names = values := by
  apply List.ext_getElem (by rw [length_toRow, h])
  intro i hi hi'
  rw [length_toRow] at hi
  have hindex := (Dataset.idxOf?_eq_some_iff_of_nodup hnames).2 (List.getElem?_eq_getElem hi)
  simp only [toRow, List.getElem_map, get?_zip h, hindex, Option.bind_some, List.getElem?_eq_getElem hi',
    Option.getD_some]

end Record

/-- The types of columns depend on the values of rows only. -/
theorem InferenceStrategy.columnType_zip (s : InferenceStrategy) {names : List String} {rows : List Row}
    (hlength : ∀ row ∈ rows, row.length = names.length) (name : String) :
    s.columnType (rows.map fun row => ⟨names.zip row⟩) name =
      s.resolve (rows.filterMap fun row => ((names.idxOf? name).bind (row[·]?)).bind Value.suggestedType?) := by
  rw [columnType, List.filterMap_map]
  refine congrArg s.resolve (List.filterMap_congr fun row hr => ?_)
  rw [Function.comp_apply, Record.get?_zip (hlength row hr)]

def Dataset.columnValues (d : Dataset) (name : String) : List Value := d.rows.filterMap (d.cell? · name)

structure Dataset.Loaded (d : Dataset) : Prop where
  wellFormed : d.WellFormed
  rows_ne_nil : d.rows ≠ []
  fields_eq : d.fields = d.columns.map (·.name)
  typed : ∀ row ∈ d.rows, ∀ v ∈ row, ∃ s, Csv.typedValue s = v
  type_eq : ∀ c ∈ d.columns, c.type = InferenceStrategy.firstNonEmpty.resolve
    ((d.columnValues c.name).filterMap Value.suggestedType?)

namespace Csv

/-- Zipped rows of values that were read make up a loaded dataset. -/
theorem loaded_of_infer {names : List String} {rows : List Row} {d : Dataset} (hnames : names.Nodup)
    (hne : names ≠ []) (hrows : rows ≠ []) (hlength : ∀ row ∈ rows, row.length = names.length)
    (htyped : ∀ row ∈ rows, ∀ v ∈ row, ∃ s, typedValue s = v)
    (h : InferenceStrategy.firstNonEmpty.infer (rows.map fun row => ⟨names.zip row⟩) (some names) = .ok d) :
    d.Loaded ∧ d.fields = names ∧ d.rows = rows := by
  have hrow : ∀ row ∈ rows, (⟨names.zip row⟩ : Record).toRow names = row := fun row hr =>
    Record.toRow_zip hnames (hlength row hr)
  obtain ⟨hd, hfields, hcolumns, hmapped⟩ := InferenceStrategy.infer_eq_ok (by simpa using hrows)
    (InferenceStrategy.columnNames_of_known _ hne) h
  rw [List.map_map] at hmapped
  obtain rfl : d.rows = rows := hmapped.trans ((List.map_congr_left hrow).trans (List.map_id _))
  refine ⟨⟨hd, hrows, ?_, htyped, fun c hc => ?_⟩, hfields, rfl⟩
  · rw [hfields, hcolumns, InferenceStrategy.map_name_columnsOf]
  · rw [hcolumns] at hc
    obtain ⟨name, -, rfl⟩ := List.mem_map.1 hc
    rw [InferenceStrategy.columnType_zip _ hlength, Dataset.columnValues, List.filterMap_filterMap]
    unfold Dataset.cell?
    rw [hfields]

theorem zip_take {α β : Type} (xs : List α) (ys : List β) : xs.zip (ys.take xs.length) = xs.zip ys := by
  induction xs generalizing ys with
  | nil => rfl
  | cons x xs ih =>
    cases ys with
    | nil => rfl
    | cons y ys => rw [List.length_cons, List.take_succ_cons, List.zip_cons_cons, List.zip_cons_cons, ih]

namespace RawRecord
variable {fields : List String}

/-- The converted cell at a position; a cell that is missing is null. -/
def valueAt (convert : String → Value) (r : RawRecord) (i : Nat) : Value :=
  ((r.cells[i]?).map fun c => convert c.string).getD .null

def valuesFor (convert : String → Value) (width : Nat) (r : RawRecord) : Row :=
  (List.range width).map (r.valueAt convert)

@[simp] theorem length_valuesFor (convert : String → Value) (width : Nat) (r : RawRecord) :
    (r.valuesFor convert width).length = width := by
  simp [valuesFor]

theorem valuesFor_eq_take (convert : String → Value) (width : Nat) (r : RawRecord) :
    r.valuesFor convert width = List.take width (r.cells.map (fun c => convert c.string) ++
      List.replicate (width - r.cells.length) Value.null) := by
  apply List.ext_getElem
  · simp
    omega
  · intro i hi hi'
    rw [length_valuesFor] at hi
    simp only [valuesFor, List.getElem_map, List.getElem_range, List.getElem_take, valueAt]
    by_cases hcell : i < r.cells.length
    · simp [hcell, List.getElem_append_left]
    · simp [hcell, List.getElem_append_right, Nat.le_of_not_lt]

/-- A record laid out along distinct fields has the fields as keys, each with the cell at its place. -/
theorem toRecord_eq_zip_valuesFor (convert : String → Value) (hfields : fields.Nodup) (r : RawRecord) :
    r.toRecord convert fields = ⟨fields.zip (r.valuesFor convert fields.length)⟩ := by
  have hkeys : ((fields.zip (r.valuesFor convert fields.length)).map Prod.fst).Nodup := by
    rwa [List.map_fst_zip (by simp)]
  rw [← Record.ofList_of_nodup hkeys, valuesFor_eq_take, zip_take, toRecord, List.length_map]

theorem exists_typedValue_of_mem_valuesFor {r : RawRecord} {width : Nat} {v : Value}
    (h : v ∈ r.valuesFor typedValue width) : ∃ s, typedValue s = v := by
  obtain ⟨i, -, rfl⟩ := List.mem_map.1 h
  unfold valueAt
  cases r.cells[i]? with
  | none => exact ⟨"", rfl⟩
  | some c => exact ⟨c.string, rfl⟩

end RawRecord

/-- A text that gives columns gives a loaded dataset. -/
theorem loaded_of_load {text : String} {d : Dataset} (h : load text = .ok d) (hcolumns : d.columns ≠ []) :
    d.Loaded := by
  obtain ⟨sheet, hsheet, hd⟩ := bind_eq_ok.1 h
  have hinfer := mapError_eq_ok.1 hd
  unfold ReadOptions.read at hsheet
  rw [if_pos (by decide)] at hsheet
  obtain ⟨raw, -, rfl⟩ := map_eq_ok.1 hsheet
  unfold ReadOptions.layOut at hinfer
  rw [if_pos rfl] at hinfer
  split at hinfer
  next =>
    obtain rfl := Except.ok.inj hinfer
    exact absurd rfl hcolumns
  next first data _ =>
    let fields := uniqueNames [] (first.cells.map Cell.string)
    have hrecords : InferenceStrategy.firstNonEmpty.infer
        (data.map (·.toRecord ({} : ReadOptions).convert fields)) (some fields) = .ok d := hinfer
    have hdata : data ≠ [] := by
      rintro rfl
      obtain rfl := Except.ok.inj hrecords
      exact hcolumns rfl
    have hfields : fields ≠ [] := by
      intro hnil
      obtain ⟨r, later, rfl⟩ := List.exists_cons_of_ne_nil hdata
      rw [hnil] at hrecords
      exact hcolumns (Dataset.ofParts_eq_ok_iff.1 hrecords).2.1
    have hnodup : fields.Nodup := nodup_uniqueNames _
    have hzip : data.map (·.toRecord ({} : ReadOptions).convert fields) =
        (data.map (·.valuesFor typedValue fields.length)).map fun row => ⟨fields.zip row⟩ := by
      rw [List.map_map]
      exact List.map_congr_left fun r _ => r.toRecord_eq_zip_valuesFor typedValue hnodup
    rw [hzip] at hrecords
    refine (loaded_of_infer hnodup hfields (by simpa using hdata) ?_ ?_ hrecords).1
    · intro row hrow
      obtain ⟨r, -, rfl⟩ := List.mem_map.1 hrow
      exact r.length_valuesFor typedValue fields.length
    · intro row hrow v hv
      obtain ⟨r, -, rfl⟩ := List.mem_map.1 hrow
      exact RawRecord.exists_typedValue_of_mem_valuesFor hv

theorem RawRecord.splitFrom_eq_error {delimiter : Char} {line : Nat} {cs : List Char} {error : CsvError}
    (h : splitFrom delimiter line cs = .error error) : ∃ l, error = .unterminatedQuote l := by
  fun_induction splitFrom delimiter line cs with
  | case1 => cases h
  | case2 line cs hcs hscan => exact ⟨line, (Except.error.inj h).symm⟩
  | case3 line cs hcs cells rest hscan next ih =>
    cases hrest : splitFrom delimiter next rest with
    | error other =>
      rw [hrest] at h
      exact ih (hrest.trans (congrArg Except.error (Except.error.inj h)))
    | ok raw =>
      rw [hrest] at h
      cases h

/-- The columns of records that were laid out along distinct fields have distinct names. -/
theorem nodup_columnNames {convert : String → Value} {fields : List String} (hfields : fields.Nodup)
    (raw : List RawRecord) :
    (InferenceStrategy.columnNames (raw.map (·.toRecord convert fields)) (some fields)).Nodup := by
  cases fields with
  | cons f fields => exact hfields
  | nil => cases raw <;> exact List.nodup_nil

/-- A text is not loaded because a quote is never closed or because a field has no name. -/
theorem load_eq_error {text : String} {error : CsvError} (h : load text = .error error) :
    (∃ line, error = .unterminatedQuote line) ∨ error = .dataset .emptyColumnName := by
  unfold load ReadOptions.read at h
  rw [if_pos (by decide)] at h
  cases hraw : RawRecord.split ({} : ReadOptions).delimiter (dropMark text.toList) with
  | error other =>
    rw [hraw] at h
    obtain rfl := Except.error.inj h
    exact .inl (RawRecord.splitFrom_eq_error hraw)
  | ok raw =>
    rw [hraw] at h
    let sheet := ({} : ReadOptions).layOut (({} : ReadOptions).keep raw)
    obtain ⟨cause, hcause, rfl⟩ := mapError_eq_error.1 (show sheet.toDataset .firstNonEmpty = .error error from h)
    refine .inr (congrArg CsvError.dataset ?_)
    unfold sheet ReadOptions.layOut at hcause
    rw [if_pos rfl] at hcause
    split at hcause
    next => cases hcause
    next first data _ =>
      let fields := uniqueNames [] (first.cells.map Cell.string)
      let records := data.map (·.toRecord ({} : ReadOptions).convert fields)
      have hinfer : InferenceStrategy.firstNonEmpty.infer records (some fields) = .error cause := hcause
      have hrecords : records ≠ [] := by
        intro hnil
        rw [hnil] at hinfer
        cases hinfer
      have hfault := (InferenceStrategy.infer_eq_error_iff hrecords rfl).1 hinfer
      exact ((Dataset.isFirstFault_fieldFault_iff (nodup_columnNames (nodup_uniqueNames _) data)).1 hfault).1

end Csv
end TableQuery
