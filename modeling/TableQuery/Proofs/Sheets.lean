import TableQuery.Proofs.Loading

/-! # Sheets

Under distinct fields each record that counts is laid out, and reported if its cells are not as many as the
fields. A sheet makes up a dataset unless it has a record and a field without a name.
-/
namespace TableQuery
open Outcome

def CsvWarning.isWidth : CsvWarning → Bool
  | tooFewFields .. | tooManyFields .. => true
  | duplicateHeader .. => false

namespace Record
variable {fields : List String} {r : Record}

def values (r : Record) : List Value := r.entries.map Prod.snd

theorem eq_zip_values (r : Record) : r = ⟨r.keys.zip r.values⟩ := by
  rw [keys, values, List.zip_map', List.map_id' r.entries]

/-- A record with distinct keys is laid out along them as it is. -/
theorem toRow_keys (h : r.keys.Nodup) : r.toRow r.keys = r.values := by
  have hlength : r.values.length = r.keys.length := by simp [keys, values]
  have hrow := toRow_zip h hlength
  rwa [← eq_zip_values] at hrow

end Record

namespace Csv

theorem isWidth_of_mem_renamed (names unique : List String) : ∀ w ∈ renamed names unique, w.isWidth = false := by
  intro w hw
  obtain ⟨p, -, hp⟩ := List.mem_filterMap.1 hw
  split at hp
  · cases hp
  · cases hp
    rfl

def ReadOptions.counted (o : ReadOptions) (raw : List RawRecord) : List RawRecord :=
  if o.skipBlank then raw.filter (!·.isBlank) else raw

def ReadOptions.data (o : ReadOptions) (raw : List RawRecord) : List RawRecord :=
  if o.header then (o.counted raw).tail else o.counted raw

theorem ReadOptions.keep_eq_counted (o : ReadOptions) (raw : List RawRecord) : o.keep raw = o.counted raw := by
  unfold keep counted
  cases o.skipBlank <;> simp

namespace Sheet

structure IsReadFrom (o : ReadOptions) (raw : List RawRecord) (s : Sheet) : Prop where
  nodup_fields : s.fields.Nodup
  length_fields : s.fields.length =
    if o.header then ((o.counted raw).head?.map (·.cells.length)).getD 0
    else ((o.counted raw).map (·.cells.length)).foldl max 0
  keys_eq : ∀ r ∈ s.records, r.keys = s.fields
  values_eq : s.records.map Record.values = (o.data raw).map (·.valuesFor o.convert s.fields.length)
  warnings_eq : s.warnings.filter (·.isWidth) =
    ((o.data raw).zipIdx.filter fun p => p.1.cells.length ≠ s.fields.length).map fun p =>
      if p.1.cells.length < s.fields.length then
        .tooFewFields p.2 p.1.line s.fields.length p.1.cells.length
      else .tooManyFields p.2 p.1.line s.fields.length p.1.cells.length

end Sheet

theorem filterMap_widthWarning? (width : Nat) (ps : List (RawRecord × Nat)) :
    ps.filterMap (fun p => p.1.widthWarning? width p.2) =
      (ps.filter fun p => p.1.cells.length ≠ width).map fun p =>
        if p.1.cells.length < width then .tooFewFields p.2 p.1.line width p.1.cells.length
        else .tooManyFields p.2 p.1.line width p.1.cells.length := by
  induction ps with
  | nil => rfl
  | cons p ps ih =>
    rw [List.filterMap_cons, List.filter_cons, ih, RawRecord.widthWarning?]
    rcases Nat.lt_trichotomy p.1.cells.length width with hfew | hsame | hmany
    · simp [hfew, Nat.ne_of_lt hfew]
    · simp [hsame]
    · simp [hmany, Nat.not_lt_of_gt hmany, Nat.ne_of_gt hmany]

namespace ReadOptions

/-- The records that count are laid out under distinct fields. Other warnings come before those about the
number of cells. -/
theorem layOut_eq_ofRecords (o : ReadOptions) (raw : List RawRecord) :
    ∃ fields warnings, fields.Nodup ∧
      fields.length = (if o.header then ((o.counted raw).head?.map (·.cells.length)).getD 0
        else ((o.counted raw).map (·.cells.length)).foldl max 0) ∧
      (∀ w ∈ warnings, w.isWidth = false) ∧
      o.layOut (o.keep raw) = { Sheet.ofRecords o.convert fields (o.data raw) with
        warnings := warnings ++ (Sheet.ofRecords o.convert fields (o.data raw)).warnings } := by
  unfold layOut data
  rw [keep_eq_counted]
  cases o.header with
  | false =>
    refine ⟨columnNumbers _, [], nodup_numbered _ _, ?_, List.forall_mem_nil _, rfl⟩
    simp [columnNumbers]
  | true =>
    cases o.counted raw with
    | nil => exact ⟨[], [], List.nodup_nil, rfl, List.forall_mem_nil _, rfl⟩
    | cons first data =>
      refine ⟨_, _, nodup_uniqueNames (first.cells.map Cell.string), ?_, isWidth_of_mem_renamed _ _, rfl⟩
      simp [length_uniqueNames]

end ReadOptions

namespace Sheet
variable {o : ReadOptions} {raw : List RawRecord} {s : Sheet}

theorem isReadFrom_layOut (o : ReadOptions) (raw : List RawRecord) :
    (o.layOut (o.keep raw)).IsReadFrom o raw := by
  obtain ⟨fields, warnings, hnodup, hlength, hnames, hsheet⟩ := o.layOut_eq_ofRecords raw
  rw [hsheet]
  have hrecord (r : RawRecord) := r.toRecord_eq_zip_valuesFor o.convert hnodup
  constructor
  case nodup_fields => exact hnodup
  case length_fields => exact hlength
  case keys_eq =>
    intro record hrec
    obtain ⟨r, -, rfl⟩ := List.mem_map.1 hrec
    rw [hrecord, Record.keys]
    exact List.map_fst_zip (by simp)
  case values_eq =>
    simp only [ofRecords, List.map_map]
    refine List.map_congr_left fun r _ => ?_
    rw [Function.comp_apply, hrecord, Record.values]
    exact List.map_snd_zip (by simp)
  case warnings_eq =>
    have hother : warnings.filter (·.isWidth) = [] :=
      List.filter_eq_nil_iff.2 fun w hw => Bool.eq_false_iff.1 (hnames w hw)
    simp only [ofRecords, filterMap_widthWarning?, List.filter_append, hother, List.nil_append]
    refine List.filter_eq_self.2 fun w hw => ?_
    obtain ⟨p, -, rfl⟩ := List.mem_map.1 hw
    split <;> rfl

theorem IsReadFrom.columnNames_eq (h : s.IsReadFrom o raw) (hrecords : s.records ≠ []) :
    InferenceStrategy.columnNames s.records (some s.fields) = s.fields := by
  cases hfields : s.fields with
  | cons f fields => rfl
  | nil =>
    obtain ⟨r, records, hr⟩ := List.exists_cons_of_ne_nil hrecords
    have hkeys := h.keys_eq r (hr ▸ List.mem_cons_self)
    rw [hr]
    exact hkeys.trans hfields

theorem toDataset_of_records_eq_nil (h : s.records = []) (strategy : InferenceStrategy) :
    s.toDataset strategy = .ok .empty := by
  rw [toDataset, h]
  rfl

/-- Only a record under a field without a name is no part of a dataset. -/
theorem IsReadFrom.toDataset_eq_error_iff (h : s.IsReadFrom o raw) {strategy : InferenceStrategy}
    {error : CsvError} : s.toDataset strategy = .error error ↔
      error = .dataset .emptyColumnName ∧ s.records ≠ [] ∧ "" ∈ s.fields := by
  by_cases hrecords : s.records = []
  · rw [toDataset_of_records_eq_nil hrecords]
    exact iff_of_false nofun fun herror => herror.2.1 hrecords
  have hinfer {cause : DatasetError} : strategy.infer s.records (some s.fields) = .error cause ↔
      cause = .emptyColumnName ∧ "" ∈ s.fields := by
    rw [InferenceStrategy.infer_eq_error_iff hrecords (h.columnNames_eq hrecords),
      Dataset.isFirstFault_fieldFault_iff h.nodup_fields]
  rw [toDataset, mapError_eq_error, and_iff_right hrecords]
  constructor
  · rintro ⟨cause, hcause, rfl⟩
    obtain ⟨rfl, hempty⟩ := hinfer.1 hcause
    exact ⟨rfl, hempty⟩
  · rintro ⟨rfl, hempty⟩
    exact ⟨_, hinfer.2 ⟨rfl, hempty⟩, rfl⟩

/-- A dataset of records shows all fields and has their values as rows. -/
theorem IsReadFrom.of_toDataset (h : s.IsReadFrom o raw) (hrecords : s.records ≠ [])
    {strategy : InferenceStrategy} {d : Dataset} (hd : s.toDataset strategy = .ok d) :
    d.fields = s.fields ∧ d.columns.map (·.name) = s.fields ∧ d.rows = s.records.map Record.values := by
  obtain ⟨-, hfields, hcolumns, hrows⟩ :=
    InferenceStrategy.infer_eq_ok hrecords (h.columnNames_eq hrecords) (mapError_eq_ok.1 hd)
  refine ⟨hfields, by rw [hcolumns, InferenceStrategy.map_name_columnsOf], ?_⟩
  rw [hrows]
  refine List.map_congr_left fun r hr => ?_
  rw [← h.keys_eq r hr]
  exact Record.toRow_keys (h.keys_eq r hr ▸ h.nodup_fields)

end Sheet

/-- What a text is read as is laid out under distinct fields, and is a dataset unless it has a record and a
field without a name. Without records it is the empty dataset. -/
theorem read_layout {o : ReadOptions} {text : String} {s : Sheet} (h : o.read text = .ok s) :
    ∃ raw, RawRecord.split o.delimiter (dropMark text.toList) = .ok raw ∧ s.IsReadFrom o raw ∧
      ∀ strategy,
        (∀ error, s.toDataset strategy = .error error ↔
          error = .dataset .emptyColumnName ∧ s.records ≠ [] ∧ "" ∈ s.fields) ∧
        ∀ d, s.toDataset strategy = .ok d →
          if s.records = [] then d = .empty
          else d.fields = s.fields ∧ d.columns.map (·.name) = s.fields ∧
            d.rows = s.records.map Record.values := by
  unfold ReadOptions.read at h
  split at h
  next =>
    obtain ⟨raw, hraw, rfl⟩ := map_eq_ok.1 h
    have hread := Sheet.isReadFrom_layOut o raw
    refine ⟨raw, hraw, hread, fun strategy => ⟨fun _ => hread.toDataset_eq_error_iff, fun d hd => ?_⟩⟩
    split
    next hnil => exact (Except.ok.inj ((Sheet.toDataset_of_records_eq_nil hnil strategy).symm.trans hd)).symm
    next hrecords => exact hread.of_toDataset hrecords hd
  next => cases h

/-- A repeated name, a blank line, a record that is too short and one that is too long. -/
theorem read_layout_ragged :
    let s : Sheet := ⟨["a", "a_1"],
      [⟨[("a", .integer 1), ("a_1", .null)]⟩, ⟨[("a", .integer 2), ("a_1", .text "x")]⟩],
      [.duplicateHeader "a" "a_1", .tooFewFields 0 2 2 1, .tooManyFields 1 4 2 3]⟩
    ({} : ReadOptions).read "a,a\n1\n\n2,x,4\n" = .ok s ∧
      ∃ raw, RawRecord.split ',' (dropMark "a,a\n1\n\n2,x,4\n".toList) = .ok raw ∧ s.IsReadFrom {} raw ∧
        ∀ strategy,
          (∀ error, s.toDataset strategy = .error error ↔
            error = .dataset .emptyColumnName ∧ s.records ≠ [] ∧ "" ∈ s.fields) ∧
          ∀ d, s.toDataset strategy = .ok d →
            if s.records = [] then d = .empty
            else d.fields = s.fields ∧ d.columns.map (·.name) = s.fields ∧
              d.rows = s.records.map Record.values := by
  intro s
  have hread : ({} : ReadOptions).read "a,a\n1\n\n2,x,4\n" = .ok s := by decide +kernel
  exact ⟨hread, read_layout hread⟩

/-- The fields of a header without records are not those of the dataset. -/
theorem not_toDataset_keeps_fields : ¬∀ (o : ReadOptions) (text : String) (s : Sheet)
    (strategy : InferenceStrategy), o.read text = .ok s → ¬(s.records ≠ [] ∧ "" ∈ s.fields) →
    ∃ d, s.toDataset strategy = .ok d ∧ d.fields = s.fields ∧ d.rowCount = s.records.length := by
  intro hall
  have hread : ({} : ReadOptions).read "a,b" = .ok ⟨["a", "b"], [], []⟩ := by decide +kernel
  obtain ⟨d, hd, hfields, -⟩ := hall {} "a,b" _ .firstNonEmpty hread fun h => h.1 rfl
  have hempty : Sheet.toDataset ⟨["a", "b"], [], []⟩ .firstNonEmpty = .ok .empty := rfl
  obtain rfl := Except.ok.inj (hempty.symm.trans hd)
  cases hfields

end Csv
end TableQuery
