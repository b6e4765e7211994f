import TableQuery.Proofs.CsvReload
import TableQuery.Proofs.History
import TableQuery.Proofs.Omission
import TableQuery.Session

/-! # Rows that an export loses

The text of a query result is loaded with all its rows, with two exceptions. A null value that is the only
one shown is written as an empty line, which is passed over. And a first name that is a byte-order mark is
taken for the mark of the text, so that no name is left.
-/
namespace TableQuery

namespace Csv
open Outcome Text

def isShown (texts : List String) : Bool := texts ≠ [""]

section
variable {o : WriteOptions} {raw : List RawRecord} {ls : List (List String)}

theorem isBlank_eq {r : RawRecord} {texts : List String} (h : r.cells = texts.map o.cellOf) :
    r.isBlank = !isShown texts := by
  rw [RawRecord.isBlank, h, isShown]
  by_cases ht : texts = [""]
  · rw [ht]
    rfl
  · simp [ht, WriteOptions.map_cellOf_ne_blank ht]

/-- Lines that are not empty are kept. -/
theorem map_cells_keep (h : raw.map (·.cells) = ls.map (·.map o.cellOf)) :
    (({} : ReadOptions).keep raw).map (·.cells) = (ls.filter isShown).map (·.map o.cellOf) := by
  induction raw generalizing ls with
  | nil =>
    rw [List.map_eq_nil_iff.1 h.symm]
    rfl
  | cons r raw ih =>
    obtain ⟨texts, later, rfl, hr, hlater⟩ := List.map_eq_cons_iff.1 h.symm
    have hrest := ih hlater.symm
    have hr' : texts.map o.cellOf = r.cells := hr
    unfold ReadOptions.keep at hrest ⊢
    rw [List.filter_cons, List.filter_cons, isBlank_eq hr'.symm]
    cases isShown texts with
    | true =>
      change r.cells :: List.map _ _ = texts.map o.cellOf :: List.map _ _
      rw [hrest, hr']
    | false => exact hrest

/-- The records of lines that may be empty. An empty one at the end is none at all. -/
theorem exists_keep_lines (hd : validDelimiter o.delimiter = true) (hb : IsLineBreak o.lineBreak.toList)
    (hls : ls ≠ []) (h : ∀ texts ∈ ls, texts ≠ []) :
    ∃ raw, RawRecord.split o.delimiter (o.lines ls) = .ok raw ∧
      (({} : ReadOptions).keep raw).map (·.cells) = (ls.filter isShown).map (·.map o.cellOf) := by
  obtain ⟨before, last, rfl⟩ : ∃ before last, ls = before ++ [last] :=
    ⟨ls.dropLast, ls.getLast hls, (List.dropLast_concat_getLast hls).symm⟩
  have hbefore : ∀ r ∈ before.map (·.map o.cellOf), IsLine o.delimiter r := by
    intro r hr
    obtain ⟨texts, ht, rfl⟩ := List.mem_map.1 hr
    exact WriteOptions.isLine_map_cellOf (h texts (List.mem_append_left _ ht))
  rw [WriteOptions.lines_append_singleton]
  by_cases hlast : last = [""]
  · have hempty : lineOf o.delimiter (last.map o.cellOf) = [] := by
      rw [hlast]
      rfl
    have hshown : (before ++ [last]).filter isShown = before.filter isShown := by
      rw [List.filter_append, hlast]
      exact List.append_nil _
    refine ⟨_, by rw [hempty, List.append_nil]; exact split_linesOf hd hb hbefore, ?_⟩
    rw [hshown, map_cells_keep (map_cells_recordsFrom 1 _)]
  · have hsplit := split_linesOf_append_lineOf hd hb hbefore
      (WriteOptions.isLine_map_cellOf (h last (by simp))) (WriteOptions.map_cellOf_ne_blank hlast)
    refine ⟨_, hsplit, map_cells_keep ?_⟩
    rw [map_cells_recordsFrom, List.map_append, List.map_singleton]

end

def unmarked (o : WriteOptions) (name : String) : String :=
  if o.needsQuotes name.toList then name else String.ofList (dropMark name.toList)

theorem needsQuotes_dropMark {o : WriteOptions} {cs : List Char} (h : o.needsQuotes cs = false) :
    o.needsQuotes (dropMark cs) = false := by
  cases cs with
  | nil => exact h
  | cons c cs =>
    have htail : o.needsQuotes cs = false := by
      unfold WriteOptions.needsQuotes at h ⊢
      rw [List.any_cons, Bool.or_eq_false_iff] at h
      exact h.2
    rw [dropMark]
    split
    · exact htail
    · exact h

theorem dropMark_append {cs : List Char} (h : cs ≠ []) (ds : List Char) :
    dropMark (cs ++ ds) = dropMark cs ++ ds := by
  cases cs with
  | nil => exact absurd rfl h
  | cons c cs =>
    rw [List.cons_append, dropMark, dropMark]
    split <;> rfl

theorem dropMark_lines (o : WriteOptions) {name : String} (hname : name ≠ "") (names : List String)
    (ls : List (List String)) :
    dropMark (o.lines ((name :: names) :: ls)) = o.lines ((unmarked o name :: names) :: ls) := by
  have hcell : ∀ rest, dropMark (o.cell name.toList ++ rest) = o.cell (unmarked o name).toList ++ rest := by
    intro rest
    unfold unmarked
    cases hq : o.needsQuotes name.toList with
    | true =>
      rw [if_pos rfl, WriteOptions.cell, if_pos hq]
      apply dropMark_of_head?_ne
      exact fun hhead => absurd (Option.some.inj hhead) (by decide)
    | false =>
      have hne : name.toList ≠ [] := fun hnil => hname (String.toList_eq_nil_iff.1 hnil)
      rw [if_neg Bool.false_ne_true, WriteOptions.cell, WriteOptions.cell, hq, String.toList_ofList,
        needsQuotes_dropMark hq, if_neg Bool.false_ne_true, dropMark_append hne]
      rfl
  rw [WriteOptions.lines_cons_cons, WriteOptions.lines_cons_cons, hcell]

/-- The name that holds nothing but a byte-order mark. -/
def markName : String := String.ofList [byteOrderMark]

theorem unmarked_eq_empty_iff {name : String} (h : name ≠ "") : unmarked {} name = "" ↔ name = markName := by
  constructor
  · intro hempty
    unfold unmarked at hempty
    split at hempty
    next => exact absurd hempty h
    next =>
      have hdrop : dropMark name.toList = [] := String.ofList_eq_empty_iff.1 hempty
      rw [← String.ofList_toList (s := name), markName]
      cases hchars : name.toList with
      | nil => exact absurd (String.toList_eq_nil_iff.1 hchars) h
      | cons c cs =>
        rw [hchars, dropMark] at hdrop
        split at hdrop
        next hc => rw [hc, hdrop]
        next => cases hdrop
  · rintro rfl
    decide

section
variable {raw : List RawRecord} {names : List String} {rows : List (List String)}

/-- Every record but the first is laid out under the names of the first. -/
theorem layOut_of_cells (h : raw.map (·.cells) = (names :: rows).map (·.map ({} : WriteOptions).cellOf)) :
    (({} : ReadOptions).layOut raw).fields = uniqueNames [] names ∧
      (({} : ReadOptions).layOut raw).records.length = rows.length := by
  obtain ⟨first, data, rfl, hfirst, hdata⟩ := List.map_eq_cons_iff.1 h
  have hstrings : first.cells.map Cell.string = names := by
    rw [hfirst, WriteOptions.map_string_cellOf]
  have hlength := congrArg List.length hdata
  rw [List.length_map, List.length_map] at hlength
  refine ⟨congrArg (uniqueNames []) hstrings, ?_⟩
  change (data.map _).length = _
  rw [List.length_map, hlength]

theorem rowCount_of_toDataset {sheet : Sheet} {d : Dataset} (h : sheet.toDataset .firstNonEmpty = .ok d) :
    d.rowCount = sheet.records.length :=
  InferenceStrategy.rowCount_of_infer (mapError_eq_ok.1 h)

/-- Under names of which none is empty every line is a row that is not empty itself. -/
theorem exists_toDataset (h : raw.map (·.cells) = (names :: rows).map (·.map ({} : WriteOptions).cellOf))
    (hne : names ≠ []) (hnames : ∀ n ∈ names, n ≠ "") :
    ∃ d, (({} : ReadOptions).layOut raw).toDataset .firstNonEmpty = .ok d ∧ d.rowCount = rows.length := by
  obtain ⟨hfields, hrecords⟩ := layOut_of_cells h
  have hinfer : ∃ d, InferenceStrategy.firstNonEmpty.infer (({} : ReadOptions).layOut raw).records
      (some (({} : ReadOptions).layOut raw).fields) = .ok d := by
    cases hlaid : (({} : ReadOptions).layOut raw).records with
    | nil => exact ⟨.empty, rfl⟩
    | cons r records =>
      have hnonempty : uniqueNames [] names ≠ [] := by
        intro hnil
        have hlength := length_uniqueNames [] names
        rw [hnil] at hlength
        exact hne (List.length_eq_zero_iff.1 hlength.symm)
      rw [hfields]
      exact (InferenceStrategy.exists_infer_eq_ok_iff (List.cons_ne_nil _ _)
        (InferenceStrategy.columnNames_of_known _ hnonempty)).2
        ⟨uniqueNames_ne_empty List.not_mem_nil hnames, nodup_uniqueNames names⟩
  obtain ⟨d, hd⟩ := hinfer
  have hdataset := mapError_eq_ok (f := CsvError.dataset) |>.2 hd
  exact ⟨d, hdataset, (rowCount_of_toDataset hdataset).trans hrecords⟩

/-- Under an empty name there are no rows. -/
theorem not_toDataset_of_empty_name
    (h : raw.map (·.cells) = (("" :: names) :: rows).map (·.map ({} : WriteOptions).cellOf))
    (hrows : rows ≠ []) (d : Dataset) : (({} : ReadOptions).layOut raw).toDataset .firstNonEmpty ≠ .ok d := by
  intro hd
  obtain ⟨hfields, hrecords⟩ := layOut_of_cells h
  have hinfer := mapError_eq_ok.1 hd
  have hlaid : (({} : ReadOptions).layOut raw).records ≠ [] := by
    intro hnil
    rw [hnil] at hrecords
    exact hrows (List.length_eq_zero_iff.1 hrecords.symm)
  rw [hfields] at hinfer
  obtain ⟨hwell, hnames, -⟩ := InferenceStrategy.infer_eq_ok hlaid
    (InferenceStrategy.columnNames_of_known _ (List.cons_ne_nil _ _)) hinfer
  refine hwell.fields_ne_empty "" ?_ rfl
  rw [hnames]
  exact List.mem_cons_self

theorem length_filter_isShown_iff :
    (rows.filter isShown).length = rows.length ↔ ∀ texts ∈ rows, texts ≠ [""] := by
  rw [List.length_filter_eq_length_iff]
  exact forall₂_congr fun texts _ => decide_eq_true_iff

/-- Under names of which none is empty all rows are loaded just if none of them is an empty line. -/
theorem exists_toDataset_iff {name : String}
    (h : raw.map (·.cells) = (((name :: names) :: rows).filter isShown).map (·.map ({} : WriteOptions).cellOf))
    (hname : name ≠ "") (hnames : ∀ n ∈ names, n ≠ "") :
    (∃ d, (({} : ReadOptions).layOut raw).toDataset .firstNonEmpty = .ok d ∧ d.rowCount = rows.length) ↔
      ∀ texts ∈ rows, texts ≠ [""] := by
  have hshown : isShown (name :: names) = true := by
    simp [isShown, hname]
  rw [List.filter_cons, if_pos hshown] at h
  obtain ⟨d, hd, hcount⟩ :=
    exists_toDataset h (List.cons_ne_nil _ _) (List.forall_mem_cons.2 ⟨hname, hnames⟩)
  rw [hd, ← length_filter_isShown_iff, ← hcount]
  constructor
  · rintro ⟨d', ⟨⟩, hall⟩
    exact hall
  · exact fun hall => ⟨d, rfl, hall⟩

/-- Under an empty first name rows are lost: the line of the names is empty itself, or other names follow. -/
theorem rowCount_ne_of_empty_name
    (h : raw.map (·.cells) = ((("" :: names) :: rows).filter isShown).map (·.map ({} : WriteOptions).cellOf))
    (hrows : rows ≠ []) (hlength : ∀ texts ∈ rows, texts.length = names.length + 1) {d : Dataset}
    (hd : (({} : ReadOptions).layOut raw).toDataset .firstNonEmpty = .ok d) : d.rowCount ≠ rows.length := by
  intro hcount
  have hlost : (({} : ReadOptions).layOut raw).records.length = rows.length :=
    (rowCount_of_toDataset hd).symm.trans hcount
  cases names with
  | nil =>
    have hfew : (rows.filter isShown).length ≤ rows.length := List.length_filter_le _ _
    rw [List.filter_cons, if_neg (by decide)] at h
    cases hshown : rows.filter isShown with
    | nil =>
      rw [hshown, List.map_nil, List.map_eq_nil_iff] at h
      rw [h] at hlost
      exact hrows (List.length_eq_zero_iff.1 hlost.symm)
    | cons first data =>
      rw [hshown] at h hfew
      rw [(layOut_of_cells h).2] at hlost
      rw [List.length_cons] at hfew
      omega
  | cons n names =>
    have hwide : rows.filter isShown = rows := by
      refine List.filter_eq_self.2 fun texts ht => ?_
      have htwo := hlength texts ht
      simp only [isShown, decide_eq_true_eq]
      rintro rfl
      simp at htwo
    rw [List.filter_cons, if_pos (by simp [isShown]), hwide] at h
    exact not_toDataset_of_empty_name h hrows d hd

end

theorem load_eq {text : String} {raw : List RawRecord}
    (h : RawRecord.split ',' (dropMark text.toList) = .ok raw) :
    load text = (({} : ReadOptions).layOut (({} : ReadOptions).keep raw)).toDataset .firstNonEmpty := by
  rw [load, ReadOptions.read, if_pos (by decide), h]
  rfl

/-- Written lines are loaded with all rows just if none of them is empty and the first name is more than a
mark. -/
theorem exists_load_lines_iff {name : String} {names : List String} {rows : List (List String)}
    (hnames : ∀ n ∈ name :: names, n ≠ "") (hrows : rows ≠ [])
    (hlength : ∀ texts ∈ rows, texts.length = names.length + 1) :
    (∃ d, load (String.ofList (({} : WriteOptions).lines ((name :: names) :: rows))) = .ok d ∧
        d.rowCount = rows.length) ↔
      name ≠ markName ∧ ∀ texts ∈ rows, texts ≠ [""] := by
  obtain ⟨hname, hlater⟩ := List.forall_mem_cons.1 hnames
  have hlines : ∀ texts ∈ (unmarked {} name :: names) :: rows, texts ≠ [] := by
    refine List.forall_mem_cons.2 ⟨List.cons_ne_nil _ _, ?_⟩
    rintro texts ht rfl
    have := hlength [] ht
    simp at this
  obtain ⟨raw, hsplit, hcells⟩ :=
    exists_keep_lines (o := {}) (by decide) (.inl rfl) (List.cons_ne_nil _ _) hlines
  have hload : load (String.ofList (({} : WriteOptions).lines ((name :: names) :: rows))) =
      (({} : ReadOptions).layOut (({} : ReadOptions).keep raw)).toDataset .firstNonEmpty := by
    apply load_eq
    rw [String.toList_ofList, dropMark_lines _ hname]
    exact hsplit
  rw [hload]
  by_cases hmark : name = markName
  · refine iff_of_false ?_ fun h => h.1 hmark
    rintro ⟨d, hd, hcount⟩
    rw [(unmarked_eq_empty_iff hname).2 hmark] at hcells
    exact rowCount_ne_of_empty_name hcells hrows hlength hd hcount
  · have hfirst : unmarked {} name ≠ "" := fun h => hmark ((unmarked_eq_empty_iff hname).1 h)
    rw [exists_toDataset_iff hcells hfirst hlater]
    exact (and_iff_right hmark).symm

/-- Only null is shown as nothing. -/
theorem display_typedValue_eq_empty_iff (s : String) :
    (typedValue s).display = "" ↔ typedValue s = .null := by
  constructor
  · intro hempty
    have hread : reread (typedValue s) = .null := by
      rw [reread, hempty]
      rfl
    have hcases := rereading_typedValue s
    rw [hread] at hcases
    generalize typedValue s = v at hcases
    cases hcases
    rfl
  · intro hnull
    rw [hnull]
    rfl

/-- What a query on a loaded dataset shows was read from cells. -/
theorem exists_typedValue_of_run {policy : Policy} {query : String} {d : Dataset} {e : Execution}
    (hd : d.Loaded) (he : Query.run policy query d = .ok e) :
    ∀ values ∈ e.dataset.records, ∀ v ∈ values, ∃ s, typedValue s = v := by
  have hrows : e.dataset.rows ⊆ d.rows := by
    rw [Query.run, if_neg (ne_true_of_eq_false (Dataset.isEmpty_eq_false hd.rows_ne_nil))] at he
    obtain ⟨q, -, hq⟩ := bind_eq_ok.1 he
    rw [(Query.execute_eq_ok hd.rows_ne_nil hq).2.2.1]
    exact Query.resultRows_subset q d
  intro values hvalues v hv
  obtain ⟨row, hrow, rfl⟩ := List.mem_map.1 hvalues
  obtain ⟨i, -, rfl⟩ := List.mem_map.1 hv
  cases hi : row[i]? with
  | none => exact ⟨"", rfl⟩
  | some u => exact hd.typed row (hrows hrow) u (List.mem_of_getElem? hi)

theorem columns_ne_nil_of_run {policy : Policy} {query : String} {d : Dataset} {e : Execution}
    (hrows : e.dataset.rows ≠ []) (hcolumns : e.dataset.columns ≠ [])
    (he : Query.run policy query d = .ok e) : d.columns ≠ [] := by
  by_cases hd : d.rows = []
  · rw [Query.run, Dataset.isEmpty, hd, List.isEmpty_nil, if_pos rfl] at he
    obtain rfl := Except.ok.inj he
    exact absurd hd hrows
  · rw [Query.run, if_neg (ne_true_of_eq_false (Dataset.isEmpty_eq_false hd))] at he
    obtain ⟨q, -, hq⟩ := bind_eq_ok.1 he
    have hselected := selectColumns_eq_ok (Query.execute_eq_ok hd hq).1
    rintro hnil
    rw [hnil] at hselected
    exact hcolumns hselected

theorem texts_eq_blank_iff {values : List Value} (h : ∀ v ∈ values, ∃ s, typedValue s = v) :
    values.map Value.display = [""] ↔ values = [.null] := by
  constructor
  · intro hblank
    obtain ⟨v, rfl, hv⟩ := List.map_eq_singleton_iff.1 hblank
    obtain ⟨s, rfl⟩ := h v List.mem_cons_self
    rw [(display_typedValue_eq_empty_iff s).1 hv]
  · rintro rfl
    rfl

end Csv

namespace Session
open Csv Outcome

theorem exists_load_iff {s : Session} {text : String} {n : Nat} :
    (∃ s', s.load text = .ok s' ∧ s'.rowCount = n) ↔ ∃ d, Csv.load text = .ok d ∧ d.rowCount = n := by
  constructor
  · rintro ⟨s', hs, hcount⟩
    obtain ⟨d, hd, rfl⟩ := map_eq_ok.1 hs
    exact ⟨d, mapError_eq_ok.1 hd, hcount⟩
  · rintro ⟨d, hd, hcount⟩
    exact ⟨{ s with dataset := some d }, map_eq_ok.2 ⟨d, mapError_eq_ok.2 hd, rfl⟩, hcount⟩

/-- The text of a query result is loaded with all rows just if the first column shown is not named by a lone
byte-order mark and no row shows a null alone. -/
theorem load_write_rowCount_iff {s r : Session} {text query : String} {d : Dataset} {e : Execution}
    (hs : s.dataset = some d) (hload : Csv.load text = .ok d) (he : s.run query = .ok e)
    (hrows : e.dataset.rows ≠ []) (hcolumns : e.dataset.columns ≠ []) :
    ∃ t, ({} : WriteOptions).write e.dataset = .ok t ∧
      ((∃ r', r.load t = .ok r' ∧ r'.rowCount = e.dataset.rowCount) ↔
        (∀ c ∈ e.dataset.columns.head?, c.name ≠ markName) ∧ [.null] ∉ e.dataset.records) := by
  have hrun : Query.run s.policy query d = .ok e := by
    unfold run at he
    rw [hs] at he
    exact mapError_eq_ok.1 he
  have hd := loaded_of_load hload (columns_ne_nil_of_run hrows hcolumns hrun)
  have hwell := Query.wellFormed_of_run hd.wellFormed hrun
  have htyped := exists_typedValue_of_run hd hrun
  refine ⟨String.ofList (({} : WriteOptions).lines (WriteOptions.cells e.dataset)), ?_, ?_⟩
  · rw [WriteOptions.write, Dataset.isEmpty_eq_false hrows, if_neg Bool.false_ne_true]
  rw [exists_load_iff]
  obtain ⟨c, columns, hc⟩ := List.exists_cons_of_ne_nil hcolumns
  have hnames : e.dataset.columns.map (·.name) = c.name :: columns.map (·.name) := by rw [hc, List.map_cons]
  have hcount : e.dataset.rowCount = (e.dataset.records.map (·.map Value.display)).length := by
    rw [List.length_map, Dataset.records, List.length_map, Dataset.rowCount]
  have hblank : (∀ texts ∈ e.dataset.records.map (·.map Value.display), texts ≠ [""]) ↔
      [.null] ∉ e.dataset.records := by
    rw [List.forall_mem_map]
    constructor
    · intro hall hmem
      exact hall [.null] hmem rfl
    · intro hmem values hvalues htexts
      exact hmem ((texts_eq_blank_iff (htyped values hvalues)).1 htexts ▸ hvalues)
  have hfirst : (∀ c' ∈ e.dataset.columns.head?, c'.name ≠ markName) ↔ c.name ≠ markName := by
    rw [hc, List.head?_cons]
    exact ⟨fun h => h c rfl, fun h c' hc' => Option.some.inj hc' ▸ h⟩
  rw [WriteOptions.cells, hnames, hcount, hfirst, ← hblank]
  apply exists_load_lines_iff
  · rw [← hnames]
    exact List.forall_mem_map.2 hwell.name_ne_empty
  · simpa [Dataset.records] using hrows
  · intro texts htexts
    rw [length_of_mem_records hwell texts htexts, hnames, List.length_cons]

/-- A lone null is lost together with its row. -/
theorem load_write_rowCount_iff_lone_null :
    let d : Dataset := ⟨[⟨"a", .integer⟩, ⟨"b", .string⟩], [0, 1], ["a", "b"],
      [[.integer 1, .null], [.integer 2, .text "x"]]⟩
    let e : Execution := ⟨⟨[⟨"b", .string⟩], [1], ["a", "b"], d.rows⟩, []⟩
    let s : Session := ⟨some d, .ignore⟩
    Csv.load "a,b\n1,\n2,x\n" = .ok d ∧ s.run "SELECT b FROM t" = .ok e ∧
      ∃ t, ({} : WriteOptions).write e.dataset = .ok t ∧
        ((∃ r', s.load t = .ok r' ∧ r'.rowCount = e.dataset.rowCount) ↔
          (∀ c ∈ e.dataset.columns.head?, c.name ≠ markName) ∧ [.null] ∉ e.dataset.records) := by
  intro d e s
  have hload : Csv.load "a,b\n1,\n2,x\n" = .ok d := by decide +kernel
  have hrun : s.run "SELECT b FROM t" = .ok e := by decide +kernel
  exact ⟨hload, hrun, load_write_rowCount_iff rfl hload hrun (by decide) (by decide)⟩

/-- Not every query result is loaded from its text with all rows. -/
theorem not_load_write_keeps_rows : ¬∀ (s : Session) (text query : String) (d : Dataset) (e : Execution),
    s.dataset = some d → Csv.load text = .ok d → s.run query = .ok e → e.dataset.rows ≠ [] →
    e.dataset.columns ≠ [] → ∃ t r', ({} : WriteOptions).write e.dataset = .ok t ∧ s.load t = .ok r' ∧
      r'.rowCount = e.dataset.rowCount := by
  intro hall
  let d : Dataset := ⟨[⟨"a", .integer⟩, ⟨"b", .string⟩], [0, 1], ["a", "b"],
    [[.integer 1, .null], [.integer 2, .text "x"]]⟩
  let e : Execution := ⟨⟨[⟨"b", .string⟩], [1], ["a", "b"], d.rows⟩, []⟩
  have hload : Csv.load "a,b\n1,\n2,x\n" = .ok d := by decide +kernel
  have hrun : Session.run ⟨some d, .ignore⟩ "SELECT b FROM t" = .ok e := by decide +kernel
  obtain ⟨t, r', hwrite, hreload, hcount⟩ :=
    hall ⟨some d, .ignore⟩ _ _ d e rfl hload hrun (by decide) (by decide)
  have ht : ({} : WriteOptions).write e.dataset = .ok "b\r\n\r\nx" := by decide +kernel
  obtain rfl := Except.ok.inj (ht.symm.trans hwrite)
  have hr : Session.load ⟨some d, .ignore⟩ "b\r\n\r\nx" =
      .ok ⟨some ⟨[⟨"b", .string⟩], [0], ["b"], [[.text "x"]]⟩, .ignore⟩ := by decide +kernel
  obtain rfl := Except.ok.inj (hr.symm.trans hreload)
  revert hcount
  decide

end Session
end TableQuery
