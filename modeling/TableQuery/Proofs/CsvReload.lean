import Mathlib.Data.List.Forall2
import TableQuery.Proofs.CsvRoundTrip
import TableQuery.Proofs.Loading
import TableQuery.Proofs.ShownValues

/-! # Loading what was written

A loaded dataset is written as a text that is loaded as a dataset of the same names and rows, in which each
value is read from its own text. This dataset is written as the same text again. It holds equal values
except where digits were too many for an integer.
-/
namespace TableQuery.Csv
open Outcome

variable {d d' : Dataset}

/-- A dataset without blank lines is loaded from its own text. -/
theorem exists_load_write (hd : d.WellFormed) (hrows : d.rows ≠ []) (hblank : NoBlankLine d)
    (hmark : ∀ c ∈ d.columns.head?, c.name.toList.head? ≠ some byteOrderMark) :
    ∃ w e, ({} : WriteOptions).write d = .ok w ∧ load w = .ok e ∧ e.Loaded ∧
      e.fields = d.columns.map (·.name) ∧ e.rows = d.records.map (·.map reread) := by
  have hcolumns : d.columns ≠ [] := by
    intro hnil
    rcases hblank with h | ⟨h, -⟩ <;> simp [hnil] at h
  have hempty : d.isEmpty = false := Dataset.isEmpty_eq_false hrows
  have hread := @read_cells {} d {} rfl rfl hd hblank hmark (by decide) (by decide)
  let names := d.columns.map (·.name)
  let rows : List Row := d.records.map (·.map reread)
  have hzip : (d.records.map fun values => (⟨names.zip (values.map fun v =>
      ({} : ReadOptions).convert v.display)⟩ : Record)) = rows.map fun row => ⟨names.zip row⟩ := by
    rw [List.map_map]
    rfl
  have hlength : ∀ row ∈ rows, row.length = names.length := by
    intro row hrow
    obtain ⟨values, hvalues, rfl⟩ := List.mem_map.1 hrow
    obtain ⟨r, -, rfl⟩ := List.mem_map.1 hvalues
    rw [List.length_map, List.length_map, hd.length_projected]
  have hne : rows ≠ [] := by simpa [rows, Dataset.records] using hrows
  have htyped : ∀ row ∈ rows, ∀ v ∈ row, ∃ s, typedValue s = v := by
    intro row hrow v hv
    obtain ⟨values, -, rfl⟩ := List.mem_map.1 hrow
    obtain ⟨u, -, hu⟩ := List.mem_map.1 hv
    exact ⟨u.display, hu⟩
  have hnames : names ≠ [] := by simpa [names] using hcolumns
  have hnonempty : ∀ n ∈ names, n ≠ "" := by
    intro n hn
    obtain ⟨c, hc, rfl⟩ := List.mem_map.1 hn
    exact hd.name_ne_empty c hc
  let records : List Record := rows.map fun row => ⟨names.zip row⟩
  obtain ⟨e, he⟩ : ∃ e, InferenceStrategy.firstNonEmpty.infer records (some names) = .ok e :=
    (InferenceStrategy.exists_infer_eq_ok_iff (by simpa [records] using hne)
      (InferenceStrategy.columnNames_of_known _ hnames)).2 ⟨hnonempty, hd.nodup_names⟩
  obtain ⟨hloaded, hfields, hers⟩ := loaded_of_infer hd.nodup_names hnames hne hlength htyped he
  refine ⟨String.ofList (({} : WriteOptions).lines (WriteOptions.cells d)), e, ?_, ?_, hloaded, hfields,
    hers⟩
  · rw [WriteOptions.write, hempty, if_neg Bool.false_ne_true]
  · rw [load, hread, hzip]
    change (InferenceStrategy.firstNonEmpty.infer records (some names)).mapError _ = _
    rw [he]
    rfl

theorem exists_reload {text : String} (h : load text = .ok d) (hcolumns : 2 ≤ d.columns.length)
    (hmark : ∀ c ∈ d.columns.head?, c.name.toList.head? ≠ some byteOrderMark) :
    ∃ w e, ({} : WriteOptions).write d = .ok w ∧ load w = .ok e ∧ d.Loaded ∧ e.Loaded ∧
      e.fields = d.fields ∧ e.rows = d.rows.map (·.map reread) := by
  have hne : d.columns ≠ [] := by
    intro hnil
    rw [hnil] at hcolumns
    exact absurd hcolumns (by decide)
  have hd := loaded_of_load h hne
  obtain ⟨w, e, hw, hload, he, hfields, hrows⟩ :=
    exists_load_write hd.wellFormed hd.rows_ne_nil (.inl hcolumns) hmark
  rw [hd.wellFormed.records_eq_rows hd.fields_eq] at hrows
  exact ⟨w, e, hw, hload, hd, he, hfields.trans hd.fields_eq.symm, hrows⟩

theorem rereading_of_loaded (hd : d.Loaded) : ∀ row ∈ d.rows, ∀ v ∈ row, Rereading v (reread v) := by
  intro row hrow v hv
  obtain ⟨s, rfl⟩ := hd.typed row hrow v hv
  exact rereading_typedValue s

/-- The text that a loaded dataset is written as is loaded, and written as the same text again. -/
theorem write_load_write {text : String} (h : load text = .ok d) (hcolumns : 2 ≤ d.columns.length)
    (hmark : ∀ c ∈ d.columns.head?, c.name.toList.head? ≠ some byteOrderMark) :
    ∃ w e, ({} : WriteOptions).write d = .ok w ∧ load w = .ok e ∧ ({} : WriteOptions).write e = .ok w := by
  obtain ⟨w, e, hw, hload, hd, he, hfields, hrows⟩ := exists_reload h hcolumns hmark
  have hnames : e.columns.map (·.name) = d.columns.map (·.name) := by
    rw [← he.fields_eq, hfields, hd.fields_eq]
  have hshown : e.records.map (·.map Value.display) = d.records.map (·.map Value.display) := by
    rw [he.wellFormed.records_eq_rows he.fields_eq, hd.wellFormed.records_eq_rows hd.fields_eq, hrows,
      List.map_map]
    refine List.map_congr_left fun row hrow => ?_
    rw [Function.comp_apply, List.map_map]
    exact List.map_congr_left fun v hv => (rereading_of_loaded hd row hrow v hv).display_eq
  have hcells : WriteOptions.cells e = WriteOptions.cells d := by
    rw [WriteOptions.cells, WriteOptions.cells, hnames, hshown]
  refine ⟨w, e, hw, hload, ?_⟩
  rw [← hw, WriteOptions.write, WriteOptions.write, hcells, Dataset.isEmpty_eq_false hd.rows_ne_nil,
    Dataset.isEmpty_eq_false he.rows_ne_nil]

/-- Quoted text, spaces around a number, a negative zero, a whole float and a date. -/
theorem write_load_write_kinds :
    let text := "a,b,a\n1e16,-0, 2.50 \n\"x\"\"y\",,2024-01-02\n"
    let d : Dataset := ⟨[⟨"a", .integer⟩, ⟨"b", .integer⟩, ⟨"a_1", .decimal⟩], [0, 1, 2], ["a", "b", "a_1"],
      [[.float ⟨0x4341C37937E08000⟩, .integer 0, .float ⟨0x4004000000000000⟩],
        [.text "x\"y", .null, .text "2024-01-02"]]⟩
    load text = .ok d ∧ 2 ≤ d.columns.length ∧
      (∀ c ∈ d.columns.head?, c.name.toList.head? ≠ some byteOrderMark) ∧
      ∃ w e, ({} : WriteOptions).write d = .ok w ∧ load w = .ok e ∧ ({} : WriteOptions).write e = .ok w := by
  intro text d
  have hload : load text = .ok d := by decide +kernel
  exact ⟨hload, by decide, by decide, write_load_write hload (by decide) (by decide)⟩

theorem cell?_map {f : Value → Value} (h : d'.fields = d.fields) (row : Row) (name : String) :
    d'.cell? (row.map f) name = (d.cell? row name).map f := by
  rw [Dataset.cell?, Dataset.cell?, h]
  cases d.fields.idxOf? name with
  | none => rfl
  | some i => exact List.getElem?_map

theorem columnValues_map {f : Value → Value} (h : d'.fields = d.fields)
    (hrows : d'.rows = d.rows.map (·.map f)) (name : String) :
    d'.columnValues name = (d.columnValues name).map f := by
  rw [Dataset.columnValues, Dataset.columnValues, hrows, List.filterMap_map, List.map_filterMap]
  exact List.filterMap_congr fun row _ => cell?_map h row name

/-- A column keeps its type just if its first value that is not empty is read as such a value again. -/
theorem resolve_map_reread_eq_iff {values : List Value} (h : ∀ v ∈ values, Rereading v (reread v)) :
    InferenceStrategy.firstNonEmpty.resolve ((values.map reread).filterMap Value.suggestedType?) =
        InferenceStrategy.firstNonEmpty.resolve (values.filterMap Value.suggestedType?) ↔
      ∀ v ∈ values.find? (!·.isEmpty), ¬v.IsLongWhole := by
  induction values with
  | nil => exact iff_of_true rfl nofun
  | cons v values ih =>
    obtain ⟨hv, hvalues⟩ := List.forall_mem_cons.1 h
    rw [List.map_cons, List.filterMap_cons, List.filterMap_cons, List.find?_cons]
    by_cases hlong : v.IsLongWhole
    · obtain ⟨hbefore, hafter⟩ := hv.suggestedType?_of_isLongWhole hlong
      have hempty : v.isEmpty = false := by
        rw [← Bool.not_eq_true, ← Value.suggestedType?_eq_none_iff, hbefore]
        exact nofun
      rw [hbefore, hafter, hempty]
      exact iff_of_false (nofun : DataType.string ≠ .integer) fun hall => hall v rfl hlong
    · rw [hv.suggestedType?_eq hlong]
      cases hsuggested : v.suggestedType? with
      | none =>
        rw [(Value.suggestedType?_eq_none_iff v).1 hsuggested]
        exact ih hvalues
      | some t =>
        have hempty : v.isEmpty = false := by
          rw [← Bool.not_eq_true, ← Value.suggestedType?_eq_none_iff, hsuggested]
          exact nofun
        rw [hempty]
        refine iff_of_true rfl fun u hu => ?_
        obtain rfl : v = u := Option.some.inj hu
        exact hlong

theorem forall₂_of_map_eq {α β γ : Type} {f : α → γ} {g : β → γ} {R : α → β → Prop} {xs : List α}
    {ys : List β} (h : xs.map f = ys.map g) (hR : ∀ x ∈ xs, ∀ y ∈ ys, f x = g y → R x y) :
    List.Forall₂ R xs ys := by
  induction xs generalizing ys with
  | nil =>
    rw [List.map_eq_nil_iff.1 h.symm]
    exact .nil
  | cons x xs ih =>
    obtain ⟨y, later, rfl, hy, hlater⟩ := List.map_eq_cons_iff.1 h.symm
    obtain ⟨hx, hxs⟩ := List.forall_mem_cons.1 hR
    refine .cons (hx y List.mem_cons_self hy.symm) (ih hlater.symm ?_)
    exact fun x' hx' y' hy' => hxs x' hx' y' (List.mem_cons_of_mem _ hy')

/-- A reloaded dataset has the same column names and rows. Its values are equal except for whole floats from
`2 ^ 53` up to below `10 ^ 21`, and the type of a column is the same unless its first value is one of them. -/
theorem reload_cmp_iff {text : String} (h : load text = .ok d) (hcolumns : 2 ≤ d.columns.length)
    (hmark : ∀ c ∈ d.columns.head?, c.name.toList.head? ≠ some byteOrderMark) :
    ∃ w e, ({} : WriteOptions).write d = .ok w ∧ load w = .ok e ∧
      List.Forall₂ (fun c c' => c.name = c'.name ∧ (c'.type = c.type ↔
        ∀ v ∈ (d.columnValues c.name).find? (!·.isEmpty), ¬v.IsLongWhole)) d.columns e.columns ∧
      List.Forall₂ (List.Forall₂ fun v v' => v.cmp v' = .eq ↔ ¬v.IsLongWhole) d.records e.records := by
  obtain ⟨w, e, hw, hload, hd, he, hfields, hrows⟩ := exists_reload h hcolumns hmark
  have hnames : d.columns.map (·.name) = e.columns.map (·.name) := by
    rw [← hd.fields_eq, ← hfields, he.fields_eq]
  refine ⟨w, e, hw, hload, forall₂_of_map_eq hnames ?_, ?_⟩
  · intro c hc c' hc' hname
    have hvalues : ∀ v ∈ d.columnValues c.name, Rereading v (reread v) := by
      intro v hv
      obtain ⟨row, hrow, hcell⟩ := List.mem_filterMap.1 hv
      obtain ⟨i, -, hi⟩ := Option.bind_eq_some_iff.1 hcell
      exact rereading_of_loaded hd row hrow v (List.mem_of_getElem? hi)
    refine ⟨hname, ?_⟩
    rw [he.type_eq c' hc', hd.type_eq c hc, ← hname, columnValues_map hfields hrows]
    exact resolve_map_reread_eq_iff hvalues
  · rw [he.wellFormed.records_eq_rows he.fields_eq, hd.wellFormed.records_eq_rows hd.fields_eq, hrows,
      List.forall₂_map_right_iff, List.forall₂_same]
    intro row hrow
    rw [List.forall₂_map_right_iff, List.forall₂_same]
    exact fun v hv => (rereading_of_loaded hd row hrow v hv).cmp_eq_iff

/-- A column of long whole floats turns into strings, and one that begins with nothing keeps its type. -/
theorem reload_cmp_iff_long_whole :
    let text := "a,b,c\n-1e16,,1e15\n0.5,TRUE,9007199254740991\n"
    let d : Dataset := ⟨[⟨"a", .integer⟩, ⟨"b", .boolean⟩, ⟨"c", .integer⟩], [0, 1, 2], ["a", "b", "c"],
      [[.float ⟨0xC341C37937E08000⟩, .null, .float ⟨0x430C6BF526340000⟩],
        [.float ⟨0x3FE0000000000000⟩, .boolean true, .integer 9007199254740991]]⟩
    load text = .ok d ∧ 2 ≤ d.columns.length ∧
      (∀ c ∈ d.columns.head?, c.name.toList.head? ≠ some byteOrderMark) ∧
      ∃ w e, ({} : WriteOptions).write d = .ok w ∧ load w = .ok e ∧
        List.Forall₂ (fun c c' => c.name = c'.name ∧ (c'.type = c.type ↔
          ∀ v ∈ (d.columnValues c.name).find? (!·.isEmpty), ¬v.IsLongWhole)) d.columns e.columns ∧
        List.Forall₂ (List.Forall₂ fun v v' => v.cmp v' = .eq ↔ ¬v.IsLongWhole) d.records e.records := by
  intro text d
  have hload : load text = .ok d := by decide +kernel
  exact ⟨hload, by decide, by decide, reload_cmp_iff hload (by decide) (by decide)⟩

/-- Not every dataset comes back with equal values and with the types of its columns. -/
theorem not_reload_keeps_values : ¬∀ (text : String) (d : Dataset), load text = .ok d → 2 ≤ d.columns.length →
    (∀ c ∈ d.columns.head?, c.name.toList.head? ≠ some byteOrderMark) →
    ∃ w e, ({} : WriteOptions).write d = .ok w ∧ load w = .ok e ∧ e.columns = d.columns ∧
      List.Forall₂ (List.Forall₂ fun v v' => v.cmp v' = .eq) d.records e.records := by
  intro hall
  let d : Dataset := ⟨[⟨"a", .integer⟩, ⟨"b", .string⟩], [0, 1], ["a", "b"],
    [[.float ⟨0x4341C37937E08000⟩, .text "x"]]⟩
  have hload : load "a,b\n1e16,x\n" = .ok d := by decide +kernel
  obtain ⟨w, e, hw, he, hcolumns, -⟩ := hall _ d hload (by decide) (by decide)
  have hwrite : ({} : WriteOptions).write d = .ok "a,b\r\n10000000000000000,x" := by decide +kernel
  obtain rfl := Except.ok.inj (hwrite.symm.trans hw)
  have hreload : load "a,b\r\n10000000000000000,x" = .ok ⟨[⟨"a", .string⟩, ⟨"b", .string⟩], [0, 1],
      ["a", "b"], [[.text "10000000000000000", .text "x"]]⟩ := by decide +kernel
  obtain rfl := Except.ok.inj (hreload.symm.trans he)
  revert hcolumns
  decide

end TableQuery.Csv
