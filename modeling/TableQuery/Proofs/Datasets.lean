import TableQuery.Dataset.Basic
import TableQuery.Proofs.Outcome

/-! # Datasets from checked parts

A dataset is built from its parts exactly if it is well formed, and then holds just these parts. In a
well-formed dataset the columns shown are distinct fields, each at its position.
-/
namespace TableQuery.Dataset
open Outcome

theorem checkFields_eq_ok_iff {seen fields : List String} :
    checkFields seen fields = .ok () ↔ (∀ f ∈ fields, f ≠ "" ∧ f ∉ seen) ∧ fields.Nodup := by
  induction fields generalizing seen with
  | nil => simp [checkFields]
  | cons f fields ih =>
    rw [checkFields, List.forall_mem_cons, List.nodup_cons]
    by_cases hempty : f = ""
    · rw [if_pos hempty]
      exact iff_of_false nofun fun h => h.1.1.1 hempty
    rw [if_neg hempty]
    by_cases hseen : f ∈ seen
    · rw [if_pos hseen]
      exact iff_of_false nofun fun h => h.1.1.2 hseen
    rw [if_neg hseen, ih]
    constructor
    · rintro ⟨hfields, hnodup⟩
      refine ⟨⟨⟨hempty, hseen⟩, fun g hg => ?_⟩, fun hf => (hfields f hf).2 List.mem_cons_self, hnodup⟩
      obtain ⟨hne, hfresh⟩ := hfields g hg
      exact ⟨hne, fun hs => hfresh (List.mem_cons_of_mem f hs)⟩
    · rintro ⟨⟨-, hfields⟩, hf, hnodup⟩
      refine ⟨fun g hg => ⟨(hfields g hg).1, fun hs => ?_⟩, hnodup⟩
      rcases List.mem_cons.1 hs with rfl | hs
      · exact hf hg
      · exact (hfields g hg).2 hs

theorem checkRows_eq_ok_iff {width index : Nat} {rows : List Row} :
    checkRows width index rows = .ok () ↔ ∀ r ∈ rows, r.length = width := by
  induction rows generalizing index with
  | nil => simp [checkRows]
  | cons r rows ih =>
    rw [checkRows, List.forall_mem_cons]
    by_cases hr : r.length = width
    · rw [if_pos hr, ih]
      exact (and_iff_right hr).symm
    · rw [if_neg hr]
      exact iff_of_false nofun fun h => hr h.1

/-- Among distinct names a name stands at one position only. -/
theorem idxOf?_eq_some_iff_of_nodup {fields : List String} (h : fields.Nodup) {name : String} {i : Nat} :
    fields.idxOf? name = some i ↔ fields[i]? = some name := by
  rw [List.idxOf?_eq_some_iff, List.getElem?_eq_some_iff]
  constructor
  · rintro ⟨hi, hname, -⟩
    exact ⟨hi, hname⟩
  · rintro ⟨hi, hname⟩
    refine ⟨hi, hname, fun j hj hname' => ?_⟩
    have hij : i = j := by
      rw [← List.getElem?_inj hi h, List.getElem?_eq_getElem hi, List.getElem?_eq_getElem (by omega), hname,
        hname']
    omega

theorem pairwise_toList_append_cons {last : Option Nat} {i : Nat} {positions : List Nat} :
    (last.toList ++ i :: positions).Pairwise (· < ·) ↔
      last.any (i ≤ ·) = false ∧ (i :: positions).Pairwise (· < ·) := by
  cases last with
  | none => simp
  | some l =>
    rw [Option.toList_some, List.singleton_append, List.pairwise_cons, List.forall_mem_cons, Option.any_some,
      decide_eq_false_iff_not, Nat.not_le, List.pairwise_cons]
    constructor
    · rintro ⟨⟨hli, -⟩, hi⟩
      exact ⟨hli, hi⟩
    · rintro ⟨hli, hi⟩
      exact ⟨⟨hli, fun j hj => Nat.lt_trans hli (hi.1 j hj)⟩, hi⟩

/-- The positions found are those of the columns' names, and they increase from above `last`. -/
theorem columnPositions_eq_ok_iff {fields : List String} (h : fields.Nodup) {last : Option Nat}
    {columns : List Column} {positions : List Nat} :
    columnPositions fields last columns = .ok positions ↔
      (last.toList ++ positions).Pairwise (· < ·) ∧
        positions.map (fields[·]?) = columns.map (some ·.name) := by
  induction columns generalizing last positions with
  | nil =>
    rw [columnPositions, List.map_nil, List.map_eq_nil_iff]
    constructor
    · rintro ⟨⟩
      exact ⟨by cases last <;> simp, rfl⟩
    · rintro ⟨-, rfl⟩
      rfl
  | cons c columns ih =>
    rw [columnPositions, List.map_cons, List.map_eq_cons_iff]
    constructor
    · intro hok
      cases hi : fields.idxOf? c.name with
      | none => simp [hi] at hok
      | some i =>
        simp only [hi] at hok
        split at hok
        next => cases hok
        next hlast =>
          obtain ⟨later, hlater, rfl⟩ := map_eq_ok.1 hok
          obtain ⟨hpairwise, hnames⟩ := ih.1 hlater
          exact ⟨pairwise_toList_append_cons.2 ⟨by simpa using hlast, hpairwise⟩, i, later, rfl,
            (idxOf?_eq_some_iff_of_nodup h).1 hi, hnames⟩
    · rintro ⟨hpairwise, i, later, rfl, hi, hnames⟩
      obtain ⟨hlast, hlater⟩ := pairwise_toList_append_cons.1 hpairwise
      rw [(idxOf?_eq_some_iff_of_nodup h).2 hi]
      have hrest : columnPositions fields (some i) columns = .ok later :=
        (@ih (some i) later).2 ⟨hlater, hnames⟩
      simp only [hlast, Bool.false_eq_true, if_false, hrest]
      rfl

/-- A dataset is built from its parts exactly if it is well formed. -/
theorem ofParts_eq_ok_iff {columns : List Column} {fields : List String} {rows : List Row} {d : Dataset} :
    ofParts columns fields rows = .ok d ↔
      d.WellFormed ∧ d.columns = columns ∧ d.fields = fields ∧ d.rows = rows := by
  unfold ofParts
  simp only [bind_eq_ok]
  constructor
  · rintro ⟨_, hfields, positions, hpositions, _, hrows, ⟨⟩⟩
    obtain ⟨hne, hnodup⟩ := checkFields_eq_ok_iff.1 hfields
    obtain ⟨hpairwise, hnames⟩ := (columnPositions_eq_ok_iff hnodup).1 hpositions
    exact ⟨⟨fun f hf => (hne f hf).1, hnodup, hpairwise, hnames, checkRows_eq_ok_iff.1 hrows⟩,
      rfl, rfl, rfl⟩
  · rintro ⟨hd, rfl, rfl, rfl⟩
    have hfields : checkFields [] d.fields = .ok () :=
      checkFields_eq_ok_iff.2
        ⟨fun f hf => ⟨hd.fields_ne_empty f hf, List.not_mem_nil⟩, hd.fields_nodup⟩
    have hpositions : columnPositions d.fields none d.columns = .ok d.positions :=
      (columnPositions_eq_ok_iff hd.fields_nodup).2 ⟨hd.positions_pairwise, hd.getElem?_positions⟩
    exact ⟨(), hfields, d.positions, hpositions, (), checkRows_eq_ok_iff.2 hd.length_row, rfl⟩

theorem derive_eq_ok {d e : Dataset} {columns : List Column} {rows : List Row}
    (h : d.derive columns rows = .ok e) :
    e.columns = columns ∧ e.fields = d.fields ∧ e.rows = rows :=
  (ofParts_eq_ok_iff.1 h).2

theorem isEmpty_eq_false {d : Dataset} (h : d.rows ≠ []) : d.isEmpty = false := by
  simpa [isEmpty] using h

/-- Names are looked up among all fields, whether they are shown or not. -/
theorem fieldIndex?_congr {d e : Dataset} (h : d.fields = e.fields) : d.fieldIndex? = e.fieldIndex? := by
  funext name
  simp only [fieldIndex?, h]

def cell? (d : Dataset) (row : Row) (name : String) : Option Value :=
  (d.fields.idxOf? name).bind (row[·]?)

namespace WellFormed
variable {d : Dataset}

theorem length_positions (h : d.WellFormed) : d.positions.length = d.columns.length := by
  have hp := congrArg List.length h.getElem?_positions
  rwa [List.length_map, List.length_map] at hp

theorem length_projected (h : d.WellFormed) (row : Row) : (d.projected row).length = d.columns.length := by
  rw [projected, List.length_map, h.length_positions]

/-- A column that is shown is a field. -/
theorem name_mem_fields (h : d.WellFormed) : ∀ c ∈ d.columns, c.name ∈ d.fields := by
  intro c hc
  have hmem : some c.name ∈ d.positions.map (d.fields[·]?) := by
    rw [h.getElem?_positions]
    exact List.mem_map_of_mem hc
  obtain ⟨i, -, hi⟩ := List.mem_map.1 hmem
  exact List.mem_of_getElem? hi

theorem name_ne_empty (h : d.WellFormed) : ∀ c ∈ d.columns, c.name ≠ "" := by
  intro c hc
  exact h.fields_ne_empty c.name (h.name_mem_fields c hc)

theorem lt_length_fields (h : d.WellFormed) : ∀ i ∈ d.positions, i < d.fields.length := by
  intro i hi
  have hmem : d.fields[i]? ∈ d.columns.map (some ·.name) := by
    rw [← h.getElem?_positions]
    exact List.mem_map_of_mem hi
  obtain ⟨c, -, hc⟩ := List.mem_map.1 hmem
  exact (List.getElem?_eq_some_iff.1 hc.symm).1

theorem nodup_names (h : d.WellFormed) : (d.columns.map (·.name)).Nodup := by
  have hpositions : d.positions.Pairwise fun i j => d.fields[i]? ≠ d.fields[j]? := by
    apply h.positions_pairwise.imp_of_mem
    intro i j hi _ hij hfield
    have := (List.getElem?_inj (h.lt_length_fields i hi) h.fields_nodup).1 hfield
    omega
  have hsome : (d.columns.map (some ·.name)).Pairwise (· ≠ ·) := by
    rw [← h.getElem?_positions]
    exact List.pairwise_map.2 hpositions
  rw [List.pairwise_map] at hsome
  refine List.pairwise_map.2 (hsome.imp ?_)
  intro c e hne hname
  exact hne (congrArg some hname)

/-- Fewer columns and other rows of the same width make up a dataset again. -/
theorem exists_derive_eq_ok (h : d.WellFormed) {columns : List Column} (hc : columns.Sublist d.columns)
    {rows : List Row} (hr : ∀ r ∈ rows, r.length = d.fields.length) : ∃ e, d.derive columns rows = .ok e := by
  have hnames : (columns.map (some ·.name)).Sublist (d.positions.map (d.fields[·]?)) := by
    rw [h.getElem?_positions]
    exact hc.map _
  obtain ⟨positions, hsub, hpositions⟩ := List.sublist_map_iff.1 hnames
  refine ⟨⟨columns, positions, d.fields, rows⟩, ofParts_eq_ok_iff.2 ⟨?_, rfl, rfl, rfl⟩⟩
  exact ⟨h.fields_ne_empty, h.fields_nodup, h.positions_pairwise.sublist hsub, hpositions.symm, hr⟩

theorem lt_length_row (h : d.WellFormed) {row : Row} (hr : row.length = d.fields.length) :
    ∀ i ∈ d.positions, i < row.length := by
  intro i hi
  rw [hr]
  exact h.lt_length_fields i hi

/-- What is shown of a row is its value in each column, which it always has. -/
theorem map_some_projected (h : d.WellFormed) {row : Row} (hr : row.length = d.fields.length) :
    (d.projected row).map some = d.columns.map fun c => d.cell? row c.name := by
  have hcell : ∀ i ∈ d.positions, some (row[i]?.getD .null) = (d.fields[i]?).bind (d.cell? row) := by
    intro i hi
    have hrow := h.lt_length_row hr i hi
    have hfield := h.lt_length_fields i hi
    have hindex := (idxOf?_eq_some_iff_of_nodup h.fields_nodup).2 (List.getElem?_eq_getElem hfield)
    rw [List.getElem?_eq_getElem hrow, List.getElem?_eq_getElem hfield, Option.getD_some,
      Option.bind_some, cell?, hindex, Option.bind_some, List.getElem?_eq_getElem hrow]
  calc (d.projected row).map some
      = d.positions.map fun i => some (row[i]?.getD .null) := List.map_map
    _ = d.positions.map fun i => (d.fields[i]?).bind (d.cell? row) := List.map_congr_left hcell
    _ = (d.positions.map (d.fields[·]?)).map (·.bind (d.cell? row)) := by rw [List.map_map]; rfl
    _ = d.columns.map fun c => d.cell? row c.name := by rw [h.getElem?_positions, List.map_map]; rfl

/-- Where all fields are shown, rows are shown as they are. -/
theorem records_eq_rows (hd : d.WellFormed) (h : d.fields = d.columns.map (·.name)) : d.records = d.rows := by
  have hrow : ∀ row ∈ d.rows, d.projected row = row := by
    intro row hr
    have hlength := hd.length_row row hr
    have hcells : d.fields.map (d.cell? row) = row.map some := by
      apply List.ext_getElem (by simp [hlength])
      intro i hi hi'
      rw [List.length_map] at hi hi'
      have hindex := (idxOf?_eq_some_iff_of_nodup hd.fields_nodup).2 (List.getElem?_eq_getElem hi)
      simp only [List.getElem_map, cell?, hindex, Option.bind_some, List.getElem?_eq_getElem hi']
    have hshown : (d.projected row).map some = row.map some := by
      rw [hd.map_some_projected hlength, ← hcells, h, List.map_map]
      rfl
    exact List.map_inj_right (fun _ _ => Option.some.inj) |>.1 hshown
  rw [records]
  exact (List.map_congr_left hrow).trans (List.map_id _)

end WellFormed

end TableQuery.Dataset
