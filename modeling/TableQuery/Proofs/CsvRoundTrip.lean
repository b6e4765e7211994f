import TableQuery.Csv.Writing
import TableQuery.Proofs.CsvRecords
import TableQuery.Proofs.Datasets
import TableQuery.Proofs.HeaderNames
import TableQuery.Proofs.Records

/-! # Reading written text

The text that a dataset is written as is read back as its column names and the texts of its values.
-/
namespace TableQuery.Csv
open Text

namespace WriteOptions
variable {o : WriteOptions}

def cellOf (o : WriteOptions) (s : String) : Cell := ⟨s.toList, o.needsQuotes s.toList⟩

@[simp]
theorem string_cellOf (o : WriteOptions) (s : String) : (o.cellOf s).string = s :=
  String.ofList_toList

theorem map_string_cellOf (o : WriteOptions) (texts : List String) :
    (texts.map o.cellOf).map Cell.string = texts := by
  rw [List.map_map]
  exact (List.map_congr_left fun s _ => o.string_cellOf s).trans texts.map_id

theorem writable_cellOf (o : WriteOptions) (s : String) : (o.cellOf s).Writable o.delimiter := by
  intro hq
  have hnone : ∀ c ∈ s.toList, ¬(c == o.delimiter || c == '"' || c == '\r' || c == '\n') = true :=
    List.any_eq_false.1 hq
  constructor
  · intro c hc
    have hn := hnone c hc
    simp only [Bool.or_eq_true, beq_iff_eq, not_or] at hn
    simp [Cell.isBare, hn]
  · intro hhead
    have hn := hnone '"' (List.mem_of_mem_head? hhead)
    simp at hn

theorem line_eq (o : WriteOptions) (texts : List String) :
    o.line texts = lineOf o.delimiter (texts.map o.cellOf) := by
  rw [line, lineOf, List.map_map]
  rfl

theorem isLine_map_cellOf {texts : List String} (h : texts ≠ []) :
    IsLine o.delimiter (texts.map o.cellOf) := by
  constructor
  · simpa using h
  · intro c hc
    obtain ⟨s, -, rfl⟩ := List.mem_map.1 hc
    exact o.writable_cellOf s

theorem map_cellOf_ne_blank {texts : List String} (h : texts ≠ [""]) :
    texts.map o.cellOf ≠ [⟨[], false⟩] := by
  intro hblank
  obtain ⟨s, rfl, hs⟩ := List.map_eq_singleton_iff.1 hblank
  have htext : s.toList = [] := congrArg Cell.text hs
  exact h (by rw [String.toList_eq_nil_iff.1 htext])

theorem intercalate_append_singleton {α : Type} (sep : List α) (xs : List (List α)) (x : List α) :
    sep.intercalate (xs ++ [x]) = (xs.flatMap (· ++ sep)) ++ x := by
  induction xs with
  | nil => simp
  | cons y xs ih =>
    cases xs with
    | nil => simp [List.intercalate_cons_cons]
    | cons z xs =>
      rw [List.cons_append, List.cons_append, List.intercalate_cons_cons, ← List.cons_append, ih]
      simp

theorem lines_append_singleton (o : WriteOptions) (ls : List (List String)) (texts : List String) :
    o.lines (ls ++ [texts]) = linesOf o.delimiter o.lineBreak.toList (ls.map (·.map o.cellOf)) ++
      lineOf o.delimiter (texts.map o.cellOf) := by
  rw [lines, List.map_append, List.map_singleton, intercalate_append_singleton, line_eq, linesOf,
    List.flatMap_map, List.flatMap_map]
  simp only [line_eq]

theorem split_lines (hd : validDelimiter o.delimiter = true) (hb : IsLineBreak o.lineBreak.toList)
    {ls : List (List String)} (hls : ls ≠ []) (h : ∀ texts ∈ ls, texts ≠ [] ∧ texts ≠ [""]) :
    ∃ raw, RawRecord.split o.delimiter (o.lines ls) = .ok raw ∧
      raw.map (·.cells) = ls.map (·.map o.cellOf) := by
  obtain ⟨before, last, rfl⟩ : ∃ before last, ls = before ++ [last] :=
    ⟨ls.dropLast, ls.getLast hls, (List.dropLast_concat_getLast hls).symm⟩
  obtain ⟨hlast, hblank⟩ := h last (by simp)
  have hbefore : ∀ r ∈ before.map (·.map o.cellOf), IsLine o.delimiter r := by
    intro r hr
    obtain ⟨texts, ht, rfl⟩ := List.mem_map.1 hr
    exact isLine_map_cellOf (h texts (List.mem_append_left _ ht)).1
  rw [lines_append_singleton, List.map_append]
  have hsplit := split_linesOf_append_lineOf hd hb hbefore (isLine_map_cellOf hlast)
    (map_cellOf_ne_blank hblank)
  exact ⟨_, hsplit, map_cells_recordsFrom 1 _⟩

end WriteOptions

namespace RawRecord
variable {o : WriteOptions} {fields : List String} {r : RawRecord} {texts : List String}

theorem toRecord_map_cellOf (convert : String → Value) (hfields : fields.Nodup)
    (hr : r.cells = texts.map o.cellOf) (hlength : texts.length = fields.length) :
    r.toRecord convert fields = ⟨fields.zip (texts.map convert)⟩ := by
  have hvalues : r.cells.map (fun c => convert c.string) = texts.map convert := by
    rw [hr, List.map_map]
    exact List.map_congr_left fun s _ => congrArg convert (o.string_cellOf s)
  have hkeys : ((fields.zip (texts.map convert)).map Prod.fst).Nodup := by
    rwa [List.map_fst_zip (by simp [hlength])]
  rw [toRecord, hvalues, List.length_map, hlength, Nat.sub_self, List.replicate_zero, List.append_nil,
    Record.ofList_of_nodup hkeys]

theorem widthWarning?_eq_none {row : Nat} (h : r.cells.length = fields.length) :
    r.widthWarning? fields.length row = none := by
  rw [widthWarning?, h, if_neg (Nat.lt_irrefl _), if_neg (Nat.lt_irrefl _)]

end RawRecord

section
variable {o : WriteOptions} {fields : List String} {raw : List RawRecord} {rows : List (List String)}

theorem map_toRecord (convert : String → Value) (hfields : fields.Nodup)
    (hraw : raw.map (·.cells) = rows.map (·.map o.cellOf))
    (hlength : ∀ texts ∈ rows, texts.length = fields.length) :
    raw.map (·.toRecord convert fields) = rows.map fun texts => ⟨fields.zip (texts.map convert)⟩ := by
  induction rows generalizing raw with
  | nil => rw [List.map_eq_nil_iff.1 hraw, List.map_nil, List.map_nil]
  | cons texts rows ih =>
    obtain ⟨r, later, rfl, hr, hlater⟩ := List.map_eq_cons_iff.1 hraw
    obtain ⟨htexts, hrows⟩ := List.forall_mem_cons.1 hlength
    rw [List.map_cons, List.map_cons, RawRecord.toRecord_map_cellOf convert hfields hr htexts,
      ih hlater hrows]

theorem exists_of_mem_raw (hraw : raw.map (·.cells) = rows.map (·.map o.cellOf)) :
    ∀ r ∈ raw, ∃ texts ∈ rows, r.cells = texts.map o.cellOf := by
  intro r hr
  have hmem : r.cells ∈ rows.map (·.map o.cellOf) := by
    rw [← hraw]
    exact List.mem_map_of_mem hr
  obtain ⟨texts, ht, he⟩ := List.mem_map.1 hmem
  exact ⟨texts, ht, he.symm⟩

/-- Records that are as wide as the fields are laid out as they are. -/
theorem Sheet.ofRecords_eq (convert : String → Value) (hfields : fields.Nodup)
    (hraw : raw.map (·.cells) = rows.map (·.map o.cellOf))
    (hlength : ∀ texts ∈ rows, texts.length = fields.length) :
    ofRecords convert fields raw =
      ⟨fields, rows.map fun texts => ⟨fields.zip (texts.map convert)⟩, []⟩ := by
  have hwarnings : raw.zipIdx.filterMap (fun p => p.1.widthWarning? fields.length p.2) = [] := by
    rw [List.filterMap_eq_nil_iff]
    intro p hp
    obtain ⟨texts, ht, hcells⟩ := exists_of_mem_raw hraw p.1 (List.fst_mem_of_mem_zipIdx hp)
    apply RawRecord.widthWarning?_eq_none
    rw [hcells, List.length_map, hlength texts ht]
  rw [ofRecords, map_toRecord convert hfields hraw hlength, hwarnings]

end

theorem dropMark_of_head?_ne {cs : List Char} (h : cs.head? ≠ some byteOrderMark) : dropMark cs = cs := by
  cases cs with
  | nil => rfl
  | cons c cs => exact if_neg fun hc => h (congrArg some hc)

namespace ReadOptions
variable {o : WriteOptions} {raw : List RawRecord} {names : List String} {rows : List (List String)}

theorem keep_eq_self (r : ReadOptions) {ls : List (List String)}
    (hraw : raw.map (·.cells) = ls.map (·.map o.cellOf)) (h : ∀ texts ∈ ls, texts ≠ [""]) :
    r.keep raw = raw := by
  rw [keep, List.filter_eq_self]
  intro a ha
  obtain ⟨texts, ht, hcells⟩ := exists_of_mem_raw hraw a ha
  have hblank : a.isBlank = false := by
    rw [RawRecord.isBlank, hcells, beq_eq_false_iff_ne]
    exact WriteOptions.map_cellOf_ne_blank (h texts ht)
  rw [hblank, Bool.and_false, Bool.not_false]

theorem layOut_eq {r : ReadOptions} (hheader : r.header = true) (hnames : names.Nodup)
    (hraw : raw.map (·.cells) = (names :: rows).map (·.map o.cellOf))
    (hlength : ∀ texts ∈ rows, texts.length = names.length) :
    r.layOut raw = ⟨names, rows.map fun texts => ⟨names.zip (texts.map r.convert)⟩, []⟩ := by
  obtain ⟨first, data, rfl, hfirst, hdata⟩ := List.map_eq_cons_iff.1 hraw
  have hstrings : first.cells.map Cell.string = names := by
    rw [hfirst, WriteOptions.map_string_cellOf]
  have hunique : uniqueNames [] names = names := uniqueNames_of_nodup hnames fun _ _ => List.not_mem_nil
  rw [layOut, if_pos hheader]
  dsimp only
  rw [hstrings, hunique, Sheet.ofRecords_eq r.convert hnames hdata hlength, renamed_self, List.nil_append]

/-- Written lines are read as a header and the records under it. -/
theorem read_lines {r : ReadOptions} (hr : r.delimiter = o.delimiter) (hheader : r.header = true)
    (hd : validDelimiter o.delimiter = true) (hb : IsLineBreak o.lineBreak.toList) (hnames : names.Nodup)
    (hlength : ∀ texts ∈ rows, texts.length = names.length)
    (hblank : ∀ texts ∈ names :: rows, texts ≠ [] ∧ texts ≠ [""])
    (hmark : (o.lines (names :: rows)).head? ≠ some byteOrderMark) :
    r.read (String.ofList (o.lines (names :: rows))) =
      .ok ⟨names, rows.map fun texts => ⟨names.zip (texts.map r.convert)⟩, []⟩ := by
  obtain ⟨raw, hsplit, hraw⟩ := WriteOptions.split_lines hd hb (List.cons_ne_nil names rows) hblank
  have hkeep := r.keep_eq_self hraw fun texts ht => (hblank texts ht).2
  rw [read, hr, if_pos hd, String.toList_ofList, dropMark_of_head?_ne hmark, hsplit, Except.map, hkeep,
    layOut_eq hheader hnames hraw hlength]

end ReadOptions

theorem intercalate_cons {α : Type} (sep x : List α) (xs : List (List α)) :
    sep.intercalate (x :: xs) = x ++ xs.flatMap (sep ++ ·) := by
  induction xs generalizing x with
  | nil => simp
  | cons y xs ih =>
    rw [List.intercalate_cons_cons, ih, List.flatMap_cons, List.append_assoc, List.append_assoc]

/-- The first cell of a text stands before everything else. -/
theorem WriteOptions.lines_cons_cons (o : WriteOptions) (n : String) (names : List String)
    (ls : List (List String)) :
    o.lines ((n :: names) :: ls) = o.cell n.toList ++
      ((names.map fun s => o.cell s.toList).flatMap ([o.delimiter] ++ ·) ++
        (ls.map o.line).flatMap (o.lineBreak.toList ++ ·)) := by
  rw [lines, List.map_cons, intercalate_cons, line, List.map_cons, intercalate_cons, List.append_assoc]

theorem WriteOptions.head?_lines_ne {o : WriteOptions} {n : String} {c : Char} (hn : n ≠ "")
    (hhead : n.toList.head? ≠ some c) (hc : c ≠ '"') (names : List String) (ls : List (List String)) :
    (o.lines ((n :: names) :: ls)).head? ≠ some c := by
  rw [lines_cons_cons, cell]
  split
  · exact fun hq => hc (Option.some.inj hq).symm
  · cases hl : n.toList with
    | nil => exact absurd (String.toList_eq_nil_iff.1 hl) hn
    | cons x cs =>
      rw [hl] at hhead
      exact hhead

section
variable {o : WriteOptions} {d : Dataset}

/-- No line of the dataset would be read as an empty one. -/
def NoBlankLine (d : Dataset) : Prop :=
  2 ≤ d.columns.length ∨ d.columns.length = 1 ∧ ∀ values ∈ d.records, ∀ v ∈ values, v.display ≠ ""

theorem NoBlankLine.cells_ne (h : NoBlankLine d) (hd : d.WellFormed) :
    ∀ texts ∈ WriteOptions.cells d, texts ≠ [] ∧ texts ≠ [""] := by
  have hpos : 1 ≤ d.columns.length := by
    rcases h with h | ⟨h, -⟩ <;> omega
  have hwide : ∀ texts : List String, texts.length = d.columns.length → texts ≠ [] := by
    rintro _ hlength rfl
    rw [← hlength] at hpos
    exact absurd hpos (by decide)
  intro texts htexts
  rcases List.mem_cons.1 htexts with rfl | htexts
  · refine ⟨hwide _ (List.length_map _), ?_⟩
    intro hblank
    obtain ⟨c, hc, hname⟩ := List.map_eq_singleton_iff.1 hblank
    exact hd.name_ne_empty c (hc ▸ List.mem_singleton_self c) hname
  · obtain ⟨values, hvalues, rfl⟩ := List.mem_map.1 htexts
    obtain ⟨row, -, rfl⟩ := List.mem_map.1 hvalues
    have hlength : ((d.projected row).map Value.display).length = d.columns.length := by
      rw [List.length_map, hd.length_projected]
    refine ⟨hwide _ hlength, ?_⟩
    intro hblank
    rw [hblank] at hlength
    rcases h with h | ⟨-, h⟩
    · rw [← hlength] at h
      exact absurd h (by decide)
    · obtain ⟨v, hv, hdisplay⟩ := List.map_eq_singleton_iff.1 hblank
      exact h _ hvalues v (hv ▸ List.mem_singleton_self v) hdisplay

theorem length_of_mem_records (hd : d.WellFormed) : ∀ texts ∈ d.records.map (·.map Value.display),
    texts.length = (d.columns.map (·.name)).length := by
  intro texts htexts
  obtain ⟨values, hvalues, rfl⟩ := List.mem_map.1 htexts
  obtain ⟨row, -, rfl⟩ := List.mem_map.1 hvalues
  rw [List.length_map, List.length_map, hd.length_projected]

theorem head?_lines_cells_ne (hd : d.WellFormed) (hcolumns : d.columns ≠ [])
    (hmark : ∀ c ∈ d.columns.head?, c.name.toList.head? ≠ some byteOrderMark) :
    (o.lines (WriteOptions.cells d)).head? ≠ some byteOrderMark := by
  cases hc : d.columns with
  | nil => exact absurd hc hcolumns
  | cons c columns =>
    have hmem : c ∈ d.columns := hc ▸ List.mem_cons_self
    rw [WriteOptions.cells, hc, List.map_cons]
    apply WriteOptions.head?_lines_ne (hd.name_ne_empty c hmem)
    · exact hmark c (by rw [hc, List.head?_cons, Option.mem_some])
    · decide

theorem isLineBreak_of_mem {s : String} (h : s ∈ ["\r\n", "\n", "\r"]) : IsLineBreak s.toList := by
  simp only [List.mem_cons, List.not_mem_nil, or_false] at h
  rcases h with rfl | rfl | rfl
  · exact .inl rfl
  · exact .inr (.inl rfl)
  · exact .inr (.inr rfl)

/-- The written lines of a dataset are read as its names and the texts of its values, converted. -/
theorem read_cells {r : ReadOptions} (hr : r.delimiter = o.delimiter) (hheader : r.header = true)
    (hd : d.WellFormed) (hblank : NoBlankLine d)
    (hmark : ∀ c ∈ d.columns.head?, c.name.toList.head? ≠ some byteOrderMark)
    (hdelimiter : validDelimiter o.delimiter = true) (hbreak : o.lineBreak ∈ ["\r\n", "\n", "\r"]) :
    r.read (String.ofList (o.lines (WriteOptions.cells d))) =
      .ok ⟨d.columns.map (·.name), d.records.map fun values =>
        ⟨(d.columns.map (·.name)).zip (values.map fun v => r.convert v.display)⟩, []⟩ := by
  have hcells := hblank.cells_ne hd
  have hcolumns : d.columns ≠ [] := by
    intro hc
    exact (hcells _ List.mem_cons_self).1 (by rw [hc, List.map_nil])
  have hread := ReadOptions.read_lines hr hheader hdelimiter (isLineBreak_of_mem hbreak) hd.nodup_names
    (length_of_mem_records hd) hcells (head?_lines_cells_ne hd hcolumns hmark)
  rw [WriteOptions.cells, hread, List.map_map]
  simp only [Function.comp_def, List.map_map]

/-- What was written is read back as the texts of the values, without a warning. -/
theorem read_write (o : WriteOptions) (d : Dataset) (skipBlank : Bool) (hd : d.WellFormed)
    (hrows : d.rows ≠ []) (hblank : NoBlankLine d)
    (hmark : ∀ c ∈ d.columns.head?, c.name.toList.head? ≠ some byteOrderMark)
    (hdelimiter : validDelimiter o.delimiter = true) (hbreak : o.lineBreak ∈ ["\r\n", "\n", "\r"]) :
    ∃ text, o.write d = .ok text ∧
      ReadOptions.read ⟨o.delimiter, false, skipBlank, true⟩ text =
        .ok ⟨d.columns.map (·.name), d.records.map fun values =>
          ⟨(d.columns.map (·.name)).zip (values.map fun v => .text v.display)⟩, []⟩ := by
  have hempty : d.isEmpty = false := by
    rw [Dataset.isEmpty, List.isEmpty_eq_false_iff]
    exact hrows
  refine ⟨String.ofList (o.lines (WriteOptions.cells d)), ?_, ?_⟩
  · rw [WriteOptions.write, hempty, if_neg Bool.false_ne_true]
  · rw [read_cells rfl rfl hd hblank hmark hdelimiter hbreak]
    rfl

/-- The delimiter may occur in numbers and booleans, and cells may be line breaks or start with quotes. -/
theorem read_write_letter_as_delimiter :
    let d : Dataset := ⟨[⟨"one", .string⟩, ⟨"\n", .boolean⟩], [0, 2], ["one", "two", "\n"],
      [[.text "\"\r", .null, .boolean true], [.null, .integer 5, .null]]⟩
    d.WellFormed ∧ NoBlankLine d ∧ ∃ text, WriteOptions.write ⟨'e', "\r"⟩ d = .ok text ∧
      ReadOptions.read ⟨'e', false, true, true⟩ text =
        .ok ⟨["one", "\n"], [⟨[("one", .text "\"\r"), ("\n", .text "true")]⟩,
          ⟨[("one", .text ""), ("\n", .text "")]⟩], []⟩ := by
  have hd : Dataset.WellFormed ⟨[⟨"one", .string⟩, ⟨"\n", .boolean⟩], [0, 2], ["one", "two", "\n"],
      [[.text "\"\r", .null, .boolean true], [.null, .integer 5, .null]]⟩ := by
    constructor <;> decide
  exact ⟨hd, .inl (by decide),
    read_write ⟨'e', "\r"⟩ _ true hd (by decide) (.inl (by decide)) (by decide) (by decide) (by decide)⟩

end
end TableQuery.Csv
