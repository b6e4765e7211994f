import TableQuery.Proofs.AdaptiveSort
import TableQuery.Proofs.Conditions
import TableQuery.Proofs.Datasets
import TableQuery.Proofs.RequestedColumns
import TableQuery.Proofs.ValueOrder

/-! # The rows that answer a query

A query returns the rows that its condition admits, in the order that it asks for and cut off at its
limit. Rows are told apart by their positions in the dataset, so that repeated rows and ties are
accounted for.
-/
namespace TableQuery
open Outcome

def Dataset.rowAt (d : Dataset) (i : Nat) : Row := d.rows.getD i []

theorem Dataset.map_rowAt_range (d : Dataset) : (List.range d.rows.length).map d.rowAt = d.rows := by
  apply List.ext_getElem
  · simp
  · intro i h₁ h₂
    simp [rowAt, h₂]

/-- Keys are in a total preorder unless rounding ties three of them. -/
theorem SortOrder.cmpKeys_preorderOn {p : Option Value → Prop} (o : SortOrder)
    (hp : ∀ {a b c}, p (some a) → p (some b) → p (some c) → ¬Value.RoundedTie a b c) : PreorderOn p o.cmpKeys where
  swap {a b} _ _ := by
    cases o <;> cases a <;> cases b <;> first | rfl | exact Value.cmp_swap _ _
  trans {a b c} ha hb hc hab hbc := by
    cases c with
    | none => cases o <;> cases a <;> exact nofun
    | some z =>
      cases b with
      | none => cases o <;> exact absurd rfl hbc
      | some y =>
        cases a with
        | none => cases o <;> exact absurd rfl hab
        | some x =>
          cases o with
          | ascending => exact Value.cmp_trans hab hbc (hp ha hb hc)
          | descending => exact Value.cmp_trans hbc hab (hp hc hb ha)

theorem SortOrder.cmpKeys_preorder (o : SortOrder) :
    PreorderOn (fun key => ∀ v ∈ key, v.IsModerate) o.cmpKeys :=
  o.cmpKeys_preorderOn fun ha _ hc => Value.not_roundedTie_of_moderate (ha _ rfl) (hc _ rfl)

def SortOrder.PutsFirst (o : SortOrder) (a b : Value) : Prop :=
  match o with
  | .ascending => compare a b = .lt
  | .descending => compare b a = .lt

theorem SortOrder.cmpKeys_some_eq_lt {o : SortOrder} {a : Value} {key : Option Value} :
    o.cmpKeys (some a) key = .lt ↔ ∀ b, key = some b → o.PutsFirst a b := by
  cases key with
  | none => cases o <;> exact iff_of_true rfl nofun
  | some b => cases o <;> simp [cmpKeys, PutsFirst]

theorem SortOrder.cmpKeys_none_ne_lt {o : SortOrder} {key : Option Value} :
    o.cmpKeys none key ≠ .lt := by
  cases o <;> cases key <;> exact nofun

namespace Query
variable {q : Query} {d : Dataset}

def sortTarget? (q : Query) (d : Dataset) : Option (SortOrder × Nat) :=
  q.orderBy.bind fun o => (d.fieldIndex? o.column).map (o.order, ·)

/-- Without a field to order by all rows tie. -/
def cmpRows (q : Query) (d : Dataset) (r s : Row) : Ordering :=
  match q.sortTarget? d with
  | none => .eq
  | some (o, i) => o.cmpRows i r s

theorem sortedRows_eq (q : Query) (d : Dataset) (rows : List Row) :
    q.sortedRows d rows = (sortBy 8 (q.cmpRows d) rows).getD rows := by
  have hcmp : q.cmpRows d = fun r s => match q.sortTarget? d with
    | none => .eq
    | some (o, i) => o.cmpRows i r s := rfl
  have hties : sortBy 8 (fun _ _ => .eq) rows = some rows :=
    sortBy_of_pairwise (List.pairwise_of_forall fun _ _ => nofun)
  unfold sortedRows
  rw [hcmp, sortTarget?]
  cases q.orderBy with
  | none => simp [hties]
  | some o =>
    cases hi : d.fieldIndex? o.column with
    | none => simp [sortRows, sortRows?, hi, hties]
    | some i => simp [sortRows, sortRows?, hi]

theorem sortedRows_perm (q : Query) (d : Dataset) (rows : List Row) : (q.sortedRows d rows).Perm rows := by
  rw [sortedRows_eq]
  cases h : sortBy 8 (q.cmpRows d) rows with
  | none => exact .refl rows
  | some sorted => exact sortBy_perm h

theorem resultRows_subset (q : Query) (d : Dataset) : q.resultRows d ⊆ d.rows := by
  intro row hrow
  have hsorted : row ∈ q.sortedRows d (q.keptRows d) := by
    unfold resultRows limitRows at hrow
    split at hrow
    · exact hrow
    · exact List.mem_of_mem_take hrow
  have hkept := (q.sortedRows_perm d _).mem_iff.1 hsorted
  rw [keptRows_eq] at hkept
  exact (List.mem_filter.1 hkept).1

/-- No integer among the keys is so great that rounding may tie it with another. -/
def SortsModerately (q : Query) (d : Dataset) (row : Row) : Prop :=
  ∀ o ∈ q.orderBy, ∀ i ∈ d.fieldIndex? o.column, ∀ v ∈ row[i]?, v.IsModerate

instance (q : Query) (d : Dataset) : DecidablePred (q.SortsModerately d) := fun _ =>
  inferInstanceAs (Decidable (∀ _ ∈ _, ∀ _ ∈ _, ∀ _ ∈ _, _))

theorem cmpRows_preorder (q : Query) (d : Dataset) : PreorderOn (q.SortsModerately d) (q.cmpRows d) := by
  unfold cmpRows
  cases ht : q.sortTarget? d with
  | none => exact ⟨fun _ _ => rfl, fun _ _ _ _ _ => nofun⟩
  | some target =>
    refine (target.1.cmpKeys_preorder.comap (sortKey? target.2)).mono fun row hrow v hv => ?_
    obtain ⟨o, ho, hmap⟩ := Option.bind_eq_some_iff.1 ht
    obtain ⟨i, hi, rfl⟩ := Option.map_eq_some_iff.1 hmap
    exact hrow o ho i hi v (Option.filter_eq_some_iff.1 hv).1

def Precedes (q : Query) (d : Dataset) (r s : Row) : Prop :=
  ∃ o i a, q.orderBy = some o ∧ d.fieldIndex? o.column = some i ∧ sortKey? i r = some a ∧
    ∀ b, sortKey? i s = some b → o.order.PutsFirst a b

theorem precedes_iff {r s : Row} : q.Precedes d r s ↔ q.cmpRows d r s = .lt := by
  unfold cmpRows
  constructor
  · rintro ⟨o, i, a, ho, hi, ha, hb⟩
    have ht : q.sortTarget? d = some (o.order, i) := by simp [sortTarget?, ho, hi]
    simp only [ht, SortOrder.cmpRows, ha, SortOrder.cmpKeys_some_eq_lt]
    exact hb
  · intro h
    cases ht : q.sortTarget? d with
    | none => simp [ht] at h
    | some target =>
      obtain ⟨o, ho, hmap⟩ := Option.bind_eq_some_iff.1 ht
      obtain ⟨i, hi, rfl⟩ := Option.map_eq_some_iff.1 hmap
      simp only [ht, SortOrder.cmpRows] at h
      cases ha : sortKey? i r with
      | none =>
        rw [ha] at h
        exact absurd h SortOrder.cmpKeys_none_ne_lt
      | some a =>
        rw [ha, SortOrder.cmpKeys_some_eq_lt] at h
        exact ⟨o, i, a, ho, hi, ha, h⟩

/-- The row at one position stands before that at another one: none that belongs behind it stands
first, and of rows that tie the earlier one does. -/
def Leads (q : Query) (d : Dataset) (i j : Nat) : Prop :=
  ¬q.Precedes d (d.rowAt j) (d.rowAt i) ∧ (q.Precedes d (d.rowAt i) (d.rowAt j) ∨ i < j)

theorem leads_of_standsBefore {i j : Nat} (hi : q.SortsModerately d (d.rowAt i))
    (hj : q.SortsModerately d (d.rowAt j))
    (h : StandsBefore (fun i j => q.cmpRows d (d.rowAt i) (d.rowAt j)) (· < ·) i j) : q.Leads d i j := by
  have hswap := (q.cmpRows_preorder d).swap hj hi
  unfold Leads
  rw [precedes_iff, precedes_iff]
  rcases h with h | ⟨h, hlt⟩
  · exact ⟨by simp [hswap, h], Or.inl h⟩
  · exact ⟨by simp [hswap, h], Or.inr hlt⟩

def matching (q : Query) (d : Dataset) : List Nat :=
  (List.range d.rows.length).filter fun i => decide (q.Admits d (d.rowAt i))

def ranking (q : Query) (d : Dataset) : List Nat :=
  stableSort (fun i j => q.cmpRows d (d.rowAt i) (d.rowAt j)) (q.matching d)

def topPositions (q : Query) (d : Dataset) : List Nat :=
  match q.limit with
  | none => q.ranking d
  | some n => (q.ranking d).take n.toNat

theorem map_rowAt_matching (q : Query) (d : Dataset) :
    (q.matching d).map d.rowAt = d.rows.filter fun row => decide (q.Admits d row) := by
  have h := List.filter_map (f := d.rowAt) (p := fun row => decide (q.Admits d row))
    (l := List.range d.rows.length)
  rw [d.map_rowAt_range] at h
  exact h.symm

theorem map_rowAt_topPositions (hm : ∀ row ∈ d.rows, q.SortsModerately d row) :
    (q.topPositions d).map d.rowAt = q.resultRows d := by
  have hr : (q.ranking d).map d.rowAt = q.sortedRows d (q.keptRows d) := by
    have hkept : ∀ row ∈ d.rows.filter fun row => decide (q.Admits d row), q.SortsModerately d row :=
      fun row hrow => hm row (List.mem_filter.1 hrow).1
    rw [ranking, map_stableSort, map_rowAt_matching, sortedRows_eq, keptRows_eq,
      sortBy_eq (q.cmpRows_preorder d) hkept, Option.getD_some]
  unfold topPositions resultRows limitRows
  cases q.limit with
  | none => exact hr
  | some n => rw [List.map_take, hr]

theorem mem_matching {i : Nat} :
    i ∈ q.matching d ↔ i < d.rows.length ∧ q.Admits d (d.rowAt i) := by
  simp [matching]

theorem mem_ranking {i : Nat} : i ∈ q.ranking d ↔ i ∈ q.matching d :=
  (stableSort_perm _).mem_iff

theorem pairwise_ranking (hm : ∀ row ∈ d.rows, q.SortsModerately d row) :
    (q.ranking d).Pairwise (q.Leads d) := by
  have hmod {i : Nat} (hi : i < d.rows.length) : q.SortsModerately d (d.rowAt i) := by
    apply hm
    simp [Dataset.rowAt, hi]
  have hold : (q.matching d).Pairwise (· < ·) := List.pairwise_lt_range.filter _
  have hcmp := (q.cmpRows_preorder d).comap d.rowAt
  refine (pairwise_stableSort hcmp (fun i hi => hmod (mem_matching.1 hi).1) hold).imp_of_mem ?_
  intro i j hi hj h
  exact leads_of_standsBefore (hmod (mem_matching.1 (mem_ranking.1 hi)).1)
    (hmod (mem_matching.1 (mem_ranking.1 hj)).1) h

structure AreTop (q : Query) (d : Dataset) (positions : List Nat) : Prop where
  lt_length : ∀ i ∈ positions, i < d.rows.length
  nodup : positions.Nodup
  admits : ∀ i ∈ positions, q.Admits d (d.rowAt i)
  length_eq : positions.length =
    match q.limit with
    | none => d.rows.countP fun row => decide (q.Admits d row)
    | some n => min n.toNat (d.rows.countP fun row => decide (q.Admits d row))
  ordered : positions.Pairwise (q.Leads d)
  cut : ∀ i < d.rows.length, q.Admits d (d.rowAt i) → i ∉ positions → ∀ j ∈ positions, q.Leads d j i

theorem length_ranking (q : Query) (d : Dataset) :
    (q.ranking d).length = d.rows.countP fun row => decide (q.Admits d row) := by
  rw [ranking, (stableSort_perm _).length_eq, ← List.length_map (f := d.rowAt), map_rowAt_matching,
    List.countP_eq_length_filter]

theorem topPositions_sublist (q : Query) (d : Dataset) :
    (q.topPositions d).Sublist (q.ranking d) := by
  unfold topPositions
  cases q.limit with
  | none => exact List.Sublist.refl _
  | some n => exact List.take_sublist _ _

theorem areTop_topPositions (hm : ∀ row ∈ d.rows, q.SortsModerately d row) :
    q.AreTop d (q.topPositions d) := by
  have hp := pairwise_ranking hm
  have hmem {i : Nat} (hi : i ∈ q.topPositions d) : i < d.rows.length ∧ q.Admits d (d.rowAt i) :=
    mem_matching.1 (mem_ranking.1 ((q.topPositions_sublist d).mem hi))
  refine ⟨fun i hi => (hmem hi).1, ?_, fun i hi => (hmem hi).2, ?_,
    hp.sublist (q.topPositions_sublist d), ?_⟩
  · refine ((stableSort_perm _).nodup_iff.2 ?_).sublist (q.topPositions_sublist d)
    exact List.nodup_range.filter _
  · have hl := q.length_ranking d
    unfold topPositions
    cases q.limit with
    | none => exact hl
    | some n => rw [List.length_take, hl]
  · intro i hi ha hni j hj
    have hir : i ∈ q.ranking d := mem_ranking.2 (mem_matching.2 ⟨hi, ha⟩)
    unfold topPositions at hni hj
    cases hlim : q.limit with
    | none => exact absurd hir (by simpa [hlim] using hni)
    | some n =>
      simp only [hlim] at hni hj
      rw [← List.take_append_drop n.toNat (q.ranking d)] at hir hp
      exact (List.pairwise_append.1 hp).2.2 j hj i ((List.mem_append.1 hir).resolve_left hni)

end Query

namespace Query

theorem execute_eq_ok {policy : Policy} {q : Query} {d : Dataset} {e : Execution} (hd : d.rows ≠ [])
    (h : q.execute policy d = .ok e) :
    selectColumns q.projection.names? d.columns = .ok e.dataset.columns ∧ e.dataset.fields = d.fields ∧
      e.dataset.rows = q.resultRows d ∧ e.notices = q.notices d := by
  rw [execute, if_neg (ne_true_of_eq_false (Dataset.isEmpty_eq_false hd))] at h
  simp only [bind_eq_ok, mapError_eq_ok] at h
  obtain ⟨columns, hc, _, _, result, hr, he⟩ := h
  cases he
  obtain ⟨h₁, h₂, h₃⟩ := Dataset.derive_eq_ok hr
  exact ⟨h₁ ▸ hc, h₂, h₃, rfl⟩

/-- The notices but for the one about the column list are about the clauses. -/
theorem filter_notices (q : Query) (p : Projection) (d : Dataset) :
    ({ q with projection := p }.notices d).filter (· ≠ Notice.projectionFallback) =
      { q with projection := .all }.notices d := by
  have hp : (if p = .unresolved then [Notice.projectionFallback] else []).filter
      (· ≠ Notice.projectionFallback) = [] := by
    split <;> rfl
  unfold notices
  simp only [List.filter_append, hp]
  congr 1
  · congr 1
    · change (q.unsupportedClause?.map Notice.ignoredPredicate).toList.filter _ =
        (q.unsupportedClause?.map Notice.ignoredPredicate).toList
      cases q.unsupportedClause? <;> rfl
    · cases q.groupBy <;> rfl
  · cases q.orderBy with
    | none => rfl
    | some o => cases h : d.fieldIndex? o.column <;> simp [h]

theorem resultRows_congr (q : Query) (p : Projection) {d d' : Dataset} (hf : d'.fields = d.fields)
    (hr : d'.rows = d.rows) : { q with projection := p }.resultRows d' = q.resultRows d := by
  simp only [resultRows, sortedRows, keptRows, Predicate.filterRows, Predicate.index?,
    Dataset.fieldIndex?_congr hf, hr]

theorem notices_congr (q : Query) {d d' : Dataset} (hf : d'.fields = d.fields) :
    q.notices d' = q.notices d := by
  simp only [notices, Dataset.fieldIndex?_congr hf]

theorem execute_top_rows {policy : Policy} {q : Query} {d : Dataset} {e : Execution} (hd : d.rows ≠ [])
    (hm : ∀ row ∈ d.rows, q.SortsModerately d row) (he : q.execute policy d = .ok e) :
    e.dataset.fields = d.fields ∧
      (∃ positions, q.AreTop d positions ∧ e.dataset.rows = positions.map d.rowAt) ∧
      e.dataset.columns = d.columns.filter (fun c => decide (q.projection.Asks c.name)) ∧
      ∀ (policy' : Policy) (p : Projection) (d' : Dataset) (e' : Execution),
        d'.fields = d.fields → d'.rows = d.rows →
        { q with projection := p }.execute policy' d' = .ok e' →
        e'.dataset.fields = e.dataset.fields ∧ e'.dataset.rows = e.dataset.rows ∧
          e'.notices.filter (· ≠ Notice.projectionFallback) =
            e.notices.filter (· ≠ Notice.projectionFallback) := by
  obtain ⟨hc, hf, hr, hn⟩ := execute_eq_ok hd he
  refine ⟨hf, ⟨q.topPositions d, areTop_topPositions hm, ?_⟩, selectColumns_eq_ok hc, ?_⟩
  · rw [hr, map_rowAt_topPositions hm]
  · intro policy' p d' e' hf' hr' he'
    obtain ⟨-, hf'', hr'', hn''⟩ := execute_eq_ok (hr' ▸ hd) he'
    refine ⟨by rw [hf'', hf', hf], by rw [hr'', hr, resultRows_congr q p hf' hr'], ?_⟩
    rw [hn'', hn, notices_congr _ hf', q.filter_notices p, ← q.filter_notices q.projection]

/-- Two rows tie at the top, one of them an integer and one a float; the row without a key is cut off. -/
theorem execute_top_rows_tie :
    let d : Dataset := ⟨[⟨"city", .string⟩, ⟨"age", .integer⟩], [0, 1], ["city", "age"],
      [[.text "Bonn", .null], [.text "Ulm", .integer 52], [.text "bonn", .integer 30],
        [.text "BONN", .float ⟨0x403E000000000000⟩]]⟩
    let q : Query := ⟨.columns ["AGE"], none, some (.equals "City" "bonn"), some ⟨"age", .descending⟩,
      some 2, false⟩
    let e : Execution := ⟨⟨[⟨"age", .integer⟩], [1], ["city", "age"],
      [[.text "bonn", .integer 30], [.text "BONN", .float ⟨0x403E000000000000⟩]]⟩, []⟩
    d.rows ≠ [] ∧ (∀ row ∈ d.rows, q.SortsModerately d row) ∧ q.execute .reject d = .ok e ∧
      ∃ positions, q.AreTop d positions ∧ e.dataset.rows = positions.map d.rowAt := by
  intro d q e
  have hd : d.rows ≠ [] := by decide
  have hm : ∀ row ∈ d.rows, q.SortsModerately d row := by decide +kernel
  have he : q.execute .reject d = .ok e := by decide +kernel
  exact ⟨hd, hm, he, (execute_top_rows hd hm he).2.1⟩

end Query
end TableQuery
