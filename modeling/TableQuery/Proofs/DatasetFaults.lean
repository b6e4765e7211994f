import Mathlib.Data.Fin.Basic
import Mathlib.Data.Set.List
import TableQuery.Proofs.Datasets

/-! # Faults of datasets

Parts that make up no dataset are reported by their first fault: that of a field, or else of a column, or else
of a row. Whether an element has a fault depends on the elements before it only, so each check goes through
its list once.
-/
namespace TableQuery
open Outcome

section
variable {α ε : Type} {fault : List α → α → ε → Prop} {x : α} {xs : List α} {e : ε}

def NoFault (fault : List α → α → ε → Prop) (xs : List α) : Prop :=
  ∀ before x after e, xs = before ++ x :: after → ¬fault before x e

def IsFirstFault (fault : List α → α → ε → Prop) (xs : List α) (e : ε) : Prop :=
  ∃ before x after, xs = before ++ x :: after ∧ NoFault fault before ∧ fault before x e

theorem noFault_nil : NoFault fault [] := by
  intro before x after e hsplit
  exact absurd hsplit.symm (by simp)

theorem noFault_cons_iff :
    NoFault fault (x :: xs) ↔ (∀ e, ¬fault [] x e) ∧ NoFault (fun before => fault (x :: before)) xs := by
  constructor
  · intro h
    refine ⟨fun e => h [] x xs e rfl, fun before y after e hsplit => h (x :: before) y after e ?_⟩
    rw [hsplit, List.cons_append]
  · rintro ⟨hx, hxs⟩ before y after e hsplit
    cases before with
    | nil =>
      obtain ⟨rfl, -⟩ := List.cons.inj hsplit
      exact hx e
    | cons b before =>
      obtain ⟨rfl, hrest⟩ := List.cons.inj hsplit
      exact hxs before y after e hrest

theorem not_isFirstFault_nil : ¬IsFirstFault fault [] e := by
  rintro ⟨before, x, after, hsplit, -⟩
  exact absurd hsplit.symm (by simp)

theorem isFirstFault_cons_iff : IsFirstFault fault (x :: xs) e ↔
    fault [] x e ∨ (∀ e, ¬fault [] x e) ∧ IsFirstFault (fun before => fault (x :: before)) xs e := by
  constructor
  · rintro ⟨before, y, after, hsplit, hbefore, hfault⟩
    cases before with
    | nil =>
      obtain ⟨rfl, -⟩ := List.cons.inj hsplit
      exact .inl hfault
    | cons b before =>
      obtain ⟨rfl, hrest⟩ := List.cons.inj hsplit
      obtain ⟨hx, hbefore⟩ := noFault_cons_iff.1 hbefore
      exact .inr ⟨hx, before, y, after, hrest, hbefore, hfault⟩
  · rintro (hfault | ⟨hx, before, y, after, rfl, hbefore, hfault⟩)
    · exact ⟨[], x, xs, rfl, noFault_nil, hfault⟩
    · exact ⟨x :: before, y, after, rfl, noFault_cons_iff.2 ⟨hx, hbefore⟩, hfault⟩

/-- The one fault of the first element is reported. -/
theorem isFirstFault_cons_of_fault {first : ε} (h : ∀ e, fault [] x e ↔ first = e) :
    IsFirstFault fault (x :: xs) e ↔ first = e := by
  rw [isFirstFault_cons_iff, h]
  exact or_iff_left fun hnone => hnone.1 first ((h first).2 rfl)

theorem isFirstFault_cons_of_not_fault (h : ∀ e, ¬fault [] x e) :
    IsFirstFault fault (x :: xs) e ↔ IsFirstFault (fun before => fault (x :: before)) xs e := by
  rw [isFirstFault_cons_iff, and_iff_right h]
  exact or_iff_right (h e)

end

namespace Dataset
variable {fields : List String} {columns : List Column} {rows : List Row} {e : DatasetError}

inductive FieldFault (before : List String) (f : String) : DatasetError → Prop where
  | empty (h : f = "") : FieldFault before f .emptyColumnName
  | repeated (hne : f ≠ "") (h : f ∈ before) : FieldFault before f (.duplicateColumn f)

inductive ColumnFault (fields : List String) (before : List Column) (c : Column) : DatasetError → Prop where
  | notFound (h : c.name ∉ fields) : ColumnFault fields before c (.columnNotFound c.name)
  | outOfOrder {previous : Column} {i j : Nat} (h : before.getLast? = some previous)
      (hprevious : fields[j]? = some previous.name) (hc : fields[i]? = some c.name) (hij : i ≤ j) :
      ColumnFault fields before c .columnsOutOfOrder

inductive RowFault (width : Nat) (before : List Row) (r : Row) : DatasetError → Prop where
  | width (h : r.length ≠ width) : RowFault width before r (.rowWidthMismatch before.length width r.length)

theorem FieldFault.mono {before before' : List String} {f : String} (h : ∀ g ∈ before, g ∈ before') :
    FieldFault before f e → FieldFault before' f e
  | .empty hf => .empty hf
  | .repeated hne hf => .repeated hne (h f hf)

/-- Of the columns before a column only the last one matters. -/
theorem ColumnFault.of_getLast? {before before' : List Column} {c : Column}
    (h : before.getLast? = before'.getLast?) : ColumnFault fields before c e → ColumnFault fields before' c e
  | .notFound hc => .notFound hc
  | .outOfOrder hlast hprevious hc hij => .outOfOrder (h ▸ hlast) hprevious hc hij

/-- The fields are checked behind earlier ones, which are those seen. -/
theorem checkFields_eq_error_iff {seen earlier : List String} (hseen : ∀ f, f ∈ seen ↔ f ∈ earlier) :
    checkFields seen fields = .error e ↔
      IsFirstFault (fun before => FieldFault (earlier ++ before)) fields e := by
  induction fields generalizing seen earlier with
  | nil => exact iff_of_false nofun not_isFirstFault_nil
  | cons f fields ih =>
    rw [checkFields]
    by_cases hempty : f = ""
    · rw [if_pos hempty, Except.error.injEq, isFirstFault_cons_of_fault]
      intro e
      constructor
      · rintro (- | ⟨hne, -⟩)
        · rfl
        · exact absurd hempty hne
      · rintro rfl
        exact .empty hempty
    rw [if_neg hempty]
    by_cases hf : f ∈ seen
    · rw [if_pos hf, Except.error.injEq, isFirstFault_cons_of_fault]
      intro e
      constructor
      · rintro (h | -)
        · exact absurd h hempty
        · rfl
      · rintro rfl
        exact .repeated hempty (List.mem_append_left _ ((hseen f).1 hf))
    · have hnone : ∀ e, ¬FieldFault (earlier ++ []) f e := by
        rintro e (h | ⟨-, h⟩)
        · exact hempty h
        · rw [List.append_nil] at h
          exact hf ((hseen f).2 h)
      have hcontext : (fun before => FieldFault (earlier ++ f :: before)) =
          fun before => FieldFault ((f :: earlier) ++ before) := by
        funext before f' e
        exact propext ⟨.mono fun g => by simp [or_left_comm], .mono fun g => by simp [or_left_comm]⟩
      rw [if_neg hf, isFirstFault_cons_of_not_fault hnone, hcontext]
      exact ih fun g => by simp [hseen]

/-- Among distinct names only an empty one is a fault. -/
theorem isFirstFault_fieldFault_iff (hfields : fields.Nodup) :
    IsFirstFault FieldFault fields e ↔ e = .emptyColumnName ∧ "" ∈ fields := by
  constructor
  · rintro ⟨before, f, after, rfl, -, rfl | ⟨-, hf⟩⟩
    · exact ⟨rfl, List.mem_append_right _ List.mem_cons_self⟩
    · exact absurd rfl ((List.nodup_append.1 hfields).2.2 f hf f List.mem_cons_self)
  · rintro ⟨rfl, hempty⟩
    obtain ⟨before, after, rfl⟩ := List.append_of_mem hempty
    obtain ⟨hbefore, -, hdistinct⟩ := List.nodup_append.1 hfields
    refine ⟨before, "", after, rfl, ?_, .empty rfl⟩
    rintro earlier f later e rfl (hf | ⟨-, hf⟩)
    · exact hdistinct f (List.mem_append_right _ List.mem_cons_self) "" List.mem_cons_self hf
    · exact (List.nodup_append.1 hbefore).2.2 f hf f List.mem_cons_self rfl

/-- A column that is a field is out of order if its position is not above the last one. -/
theorem columnFault_iff (hfields : fields.Nodup) {previous : Option Column} {last : Option Nat}
    (hlast : last = previous.bind fun p => fields.idxOf? p.name) {c : Column} {i : Nat}
    (hi : fields.idxOf? c.name = some i) :
    ColumnFault fields previous.toList c e ↔ last.any (i ≤ ·) = true ∧ .columnsOutOfOrder = e := by
  have hposition {name : String} {k : Nat} : fields.idxOf? name = some k ↔ fields[k]? = some name :=
    idxOf?_eq_some_iff_of_nodup hfields
  rw [Option.any_eq_true, hlast]
  constructor
  · rintro (h | @⟨p, i', j, h, hp, hc, hij⟩)
    · exact absurd (List.mem_of_getElem? (hposition.1 hi)) h
    · have hprevious : previous = some p := by cases previous <;> simp_all
      obtain rfl : i = i' := Option.some.inj (hi.symm.trans (hposition.2 hc))
      rw [hprevious]
      exact ⟨⟨j, hposition.2 hp, decide_eq_true hij⟩, rfl⟩
  · rintro ⟨⟨j, hj, hij⟩, rfl⟩
    obtain ⟨p, rfl, hp⟩ := Option.bind_eq_some_iff.1 hj
    exact .outOfOrder rfl (hposition.1 hp) (hposition.1 hi) (of_decide_eq_true hij)

/-- The columns are checked behind a previous one, if there is one, which stands at the last position. -/
theorem columnPositions_eq_error_iff (hfields : fields.Nodup) {previous : Option Column} {last : Option Nat}
    (hlast : last = previous.bind fun p => fields.idxOf? p.name) :
    columnPositions fields last columns = .error e ↔
      IsFirstFault (fun before => ColumnFault fields (previous.toList ++ before)) columns e := by
  induction columns generalizing previous last with
  | nil => exact iff_of_false nofun not_isFirstFault_nil
  | cons c columns ih =>
    rw [columnPositions]
    cases hi : fields.idxOf? c.name with
    | none =>
      have hc : c.name ∉ fields := List.idxOf?_eq_none_iff.1 hi
      dsimp only
      rw [Except.error.injEq, isFirstFault_cons_of_fault]
      intro e
      constructor
      · rintro (- | ⟨-, -, h, -⟩)
        · rfl
        · exact absurd (List.mem_of_getElem? h) hc
      · rintro rfl
        exact .notFound hc
    | some i =>
      have hfault (e : DatasetError) : ColumnFault fields (previous.toList ++ []) c e ↔
          last.any (i ≤ ·) = true ∧ .columnsOutOfOrder = e := by
        rw [List.append_nil]
        exact columnFault_iff hfields hlast hi
      dsimp only
      split
      next hle =>
        rw [Except.error.injEq, isFirstFault_cons_of_fault]
        intro e
        rw [hfault, and_iff_right hle]
      next hle =>
        have hnone : ∀ e, ¬ColumnFault fields (previous.toList ++ []) c e :=
          fun e h => hle ((hfault e).1 h).1
        have hcontext : (fun before => ColumnFault fields (previous.toList ++ c :: before)) =
            fun before => ColumnFault fields ((some c).toList ++ before) := by
          funext before c' e
          have hlast' : (previous.toList ++ c :: before).getLast? = (c :: before).getLast? := by
            simp [List.getLast?_cons]
          exact propext ⟨.of_getLast? hlast', .of_getLast? hlast'.symm⟩
        rw [isFirstFault_cons_of_not_fault hnone, hcontext, map_eq_error]
        exact ih hi.symm

theorem columnPositions_none_eq_error_iff (hfields : fields.Nodup) :
    columnPositions fields none columns = .error e ↔ IsFirstFault (ColumnFault fields) columns e := by
  have hlast : none = (none : Option Column).bind fun p => fields.idxOf? p.name := rfl
  exact columnPositions_eq_error_iff hfields hlast

theorem checkRows_eq_error_iff {width : Nat} (earlier : List Row) :
    checkRows width earlier.length rows = .error e ↔
      IsFirstFault (fun before => RowFault width (earlier ++ before)) rows e := by
  induction rows generalizing earlier with
  | nil => exact iff_of_false nofun not_isFirstFault_nil
  | cons r rows ih =>
    rw [checkRows]
    by_cases hr : r.length = width
    · have hnone : ∀ e, ¬RowFault width (earlier ++ []) r e := by
        rintro e ⟨h⟩
        exact h hr
      rw [if_pos hr, isFirstFault_cons_of_not_fault hnone]
      have hrest := ih (earlier ++ [r])
      simpa using hrest
    · rw [if_neg hr, Except.error.injEq, isFirstFault_cons_of_fault]
      intro e
      constructor
      · rintro ⟨-⟩
        rw [List.append_nil]
      · rintro rfl
        rw [List.append_nil]
        exact .width hr

def AreFieldNames (names : List String) : Prop := (∀ f ∈ names, f ≠ "") ∧ names.Nodup

/-- Columns are shown at increasing positions when their names come in the order of the fields. -/
theorem exists_columnPositions_eq_ok_iff (hfields : fields.Nodup) :
    (∃ positions, columnPositions fields none columns = .ok positions) ↔
      (columns.map (·.name)).Sublist fields := by
  have hnames : columns.map (some ·.name) = (columns.map (·.name)).map some := List.map_map.symm
  have hvalues (positions : List (Fin fields.length)) :
      (positions.map Fin.val).map (fields[·]?) = (positions.map (fields[·])).map some := by
    rw [List.map_map, List.map_map]
    exact List.map_congr_left fun i _ => List.getElem?_eq_getElem i.isLt
  simp only [columnPositions_eq_ok_iff hfields, Option.toList_none, List.nil_append, hnames]
  constructor
  · rintro ⟨positions, hpairwise, hpositions⟩
    have hlt : ∀ i ∈ positions, i < fields.length := by
      intro i hi
      have hmem : fields[i]? ∈ (columns.map (·.name)).map some := hpositions ▸ List.mem_map_of_mem hi
      obtain ⟨name, -, hname⟩ := List.mem_map.1 hmem
      exact (List.getElem?_eq_some_iff.1 hname.symm).1
    lift positions to List (Fin fields.length) using hlt
    rw [hvalues] at hpositions
    rw [← (List.map_inj_right fun _ _ => Option.some.inj).1 hpositions]
    have hincreasing : positions.Pairwise fun i j => i.val < j.val := List.pairwise_map.1 hpairwise
    exact List.map_getElem_sublist hincreasing
  · intro hsub
    obtain ⟨positions, hpositions, hpairwise⟩ := List.sublist_eq_map_getElem hsub
    refine ⟨positions.map Fin.val, List.pairwise_map.2 hpairwise, ?_⟩
    rw [hvalues, hpositions]

/-- The fault that is reported: of the fields, or else of the columns, or else of the rows. -/
inductive PartsFault (columns : List Column) (fields : List String) (rows : List Row) : DatasetError → Prop where
  | field {e : DatasetError} (h : IsFirstFault FieldFault fields e) : PartsFault columns fields rows e
  | column {e : DatasetError} (hfields : AreFieldNames fields) (h : IsFirstFault (ColumnFault fields) columns e) :
      PartsFault columns fields rows e
  | row {e : DatasetError} (hfields : AreFieldNames fields) (hcolumns : (columns.map (·.name)).Sublist fields)
      (h : IsFirstFault (RowFault fields.length) rows e) : PartsFault columns fields rows e

theorem exists_ofParts_eq_ok_iff : (∃ d, ofParts columns fields rows = .ok d) ↔
    AreFieldNames fields ∧ (columns.map (·.name)).Sublist fields ∧ ∀ r ∈ rows, r.length = fields.length := by
  constructor
  · rintro ⟨d, h⟩
    obtain ⟨hd, rfl, rfl, rfl⟩ := ofParts_eq_ok_iff.1 h
    have hpositions : columnPositions d.fields none d.columns = .ok d.positions :=
      (columnPositions_eq_ok_iff hd.fields_nodup).2 ⟨hd.positions_pairwise, hd.getElem?_positions⟩
    exact ⟨⟨hd.fields_ne_empty, hd.fields_nodup⟩,
      (exists_columnPositions_eq_ok_iff hd.fields_nodup).1 ⟨_, hpositions⟩, hd.length_row⟩
  · rintro ⟨⟨hne, hnodup⟩, hcolumns, hrows⟩
    obtain ⟨positions, hpositions⟩ := (exists_columnPositions_eq_ok_iff hnodup).2 hcolumns
    obtain ⟨hpairwise, hnames⟩ := (columnPositions_eq_ok_iff hnodup).1 hpositions
    exact ⟨⟨columns, positions, fields, rows⟩,
      ofParts_eq_ok_iff.2 ⟨⟨hne, hnodup, hpairwise, hnames, hrows⟩, rfl, rfl, rfl⟩⟩

theorem checkFields_nil_eq_ok_iff : checkFields [] fields = .ok () ↔ AreFieldNames fields := by
  simp [checkFields_eq_ok_iff, AreFieldNames]

theorem ofParts_eq_error_iff : ofParts columns fields rows = .error e ↔ PartsFault columns fields rows e := by
  have hfieldFault : checkFields [] fields = .error e ↔ IsFirstFault FieldFault fields e :=
    checkFields_eq_error_iff fun _ => Iff.rfl
  have hcolumnFault (h : AreFieldNames fields) :
      columnPositions fields none columns = .error e ↔ IsFirstFault (ColumnFault fields) columns e :=
    columnPositions_none_eq_error_iff h.2
  have hrowFault : checkRows fields.length 0 rows = .error e ↔ IsFirstFault (RowFault fields.length) rows e :=
    checkRows_eq_error_iff []
  unfold ofParts
  simp only [bind_eq_error]
  constructor
  · rintro (h | ⟨_, hok, h | ⟨positions, hpositions, h | ⟨_, -, ⟨⟩⟩⟩⟩)
    · exact .field (hfieldFault.1 h)
    · have hfields := checkFields_nil_eq_ok_iff.1 hok
      exact .column hfields ((hcolumnFault hfields).1 h)
    · have hfields := checkFields_nil_eq_ok_iff.1 hok
      exact .row hfields ((exists_columnPositions_eq_ok_iff hfields.2).1 ⟨positions, hpositions⟩)
        (hrowFault.1 h)
  · rintro (h | ⟨hfields, h⟩ | ⟨hfields, hcolumns, h⟩)
    · exact .inl (hfieldFault.2 h)
    · exact .inr ⟨(), checkFields_nil_eq_ok_iff.2 hfields, .inl ((hcolumnFault hfields).2 h)⟩
    · obtain ⟨positions, hpositions⟩ := (exists_columnPositions_eq_ok_iff hfields.2).2 hcolumns
      exact .inr ⟨(), checkFields_nil_eq_ok_iff.2 hfields,
        .inr ⟨positions, hpositions, .inl (hrowFault.2 h)⟩⟩

/-- Columns that are all fields have a fault only in their names, if the rows have their width. -/
theorem ofColumns_eq_error_iff (hrows : ∀ r ∈ rows, r.length = columns.length) :
    ofColumns columns rows = .error e ↔ IsFirstFault FieldFault (columns.map (·.name)) e := by
  rw [ofColumns, ofParts_eq_error_iff]
  refine ⟨?_, .field⟩
  rintro (h | ⟨hfields, h⟩ | ⟨-, -, h⟩)
  · exact h
  · obtain ⟨positions, hpositions⟩ := (exists_columnPositions_eq_ok_iff hfields.2).2 (List.Sublist.refl _)
    have herror := (columnPositions_none_eq_error_iff hfields.2).2 h
    cases hpositions.symm.trans herror
  · have hok : checkRows columns.length 0 rows = .ok () := checkRows_eq_ok_iff.2 hrows
    rw [List.length_map] at h
    cases hok.symm.trans ((checkRows_eq_error_iff []).2 h)

theorem exists_ofColumns_eq_ok_iff (hrows : ∀ r ∈ rows, r.length = columns.length) :
    (∃ d, ofColumns columns rows = .ok d) ↔ AreFieldNames (columns.map (·.name)) := by
  rw [ofColumns, exists_ofParts_eq_ok_iff, List.length_map]
  exact and_iff_left ⟨List.Sublist.refl _, hrows⟩

/-- Parts make up a dataset exactly if the names of the fields are distinct and not empty, the columns come in
the order of the fields and the rows have their width; it holds just these parts. Otherwise the first fault is
reported. -/
theorem ofParts_outcome (columns : List Column) (fields : List String) (rows : List Row) :
    ((∃ d, ofParts columns fields rows = .ok d) ↔
      AreFieldNames fields ∧ (columns.map (·.name)).Sublist fields ∧ ∀ r ∈ rows, r.length = fields.length) ∧
    (∀ d, ofParts columns fields rows = .ok d →
      d.WellFormed ∧ d.columns = columns ∧ d.fields = fields ∧ d.rows = rows) ∧
    ∀ e, ofParts columns fields rows = .error e ↔ PartsFault columns fields rows e :=
  ⟨exists_ofParts_eq_ok_iff, fun _ hd => ofParts_eq_ok_iff.1 hd, fun _ => ofParts_eq_error_iff⟩

/-- The order of the columns is a fault before the name that is no field, and both are before the width of the
row. -/
example : ofParts [⟨"b", .string⟩, ⟨"a", .string⟩, ⟨"c", .string⟩] ["a", "b"] [[]] =
    .error .columnsOutOfOrder := by decide

end Dataset
end TableQuery
