import Mathlib.Data.List.Perm.Basic
import Mathlib.Logic.Relation
import TableQuery.Proofs.Folding
import TableQuery.Query.Execution

/-! # Columns that names ask for

Which columns are selected depends on the folds of the names only. So as long as a column is found, names may
be put in another order, repeated, spelled otherwise or folded first, and names that no column has may be added.
-/
namespace TableQuery
open Text Relation

namespace Projection
variable {n name : String} {names : List String}

def Asks (name : String) : Projection → Prop
  | all | unresolved => True
  | columns names => ∃ n ∈ names, Text.fold n = Text.fold name

instance (name : String) (p : Projection) : Decidable (p.Asks name) :=
  match p with
  | .all | .unresolved => isTrue trivial
  | .columns names => inferInstanceAs (Decidable (∃ n ∈ names, Text.fold n = Text.fold name))

theorem asks_columns_iff_mem : (columns names).Asks name ↔ fold name ∈ names.map fold := List.mem_map.symm

theorem asks_iff_mem {p : Projection} (h : p.names?.getD [] ≠ []) :
    p.Asks name ↔ fold name ∈ (p.names?.getD []).map fold := by
  cases p with
  | all | unresolved => exact absurd rfl h
  | columns names => exact asks_columns_iff_mem

theorem asks_columns_cons : (columns (n :: names)).Asks name ↔ fold n = fold name ∨ (columns names).Asks name :=
  List.exists_mem_cons_iff _ _ _

end Projection

section
variable {p : Projection} {names names' : List String} {columns selected : List Column}

/-- Names select columns in their own order. If they select none, their folds are reported. -/
theorem selectColumns_some (names : List String) (columns : List Column) :
    selectColumns (some names) columns =
      if names ≠ [] ∧ ∀ c ∈ columns, ¬(Projection.columns names).Asks c.name then .error (names.map fold)
      else .ok (columns.filter ((Projection.columns names).Asks ·.name)) := by
  have hfilter : (columns.filter fun c => (names.map fold).contains (fold c.name)) =
      columns.filter ((Projection.columns names).Asks ·.name) := by
    refine List.filter_congr fun c _ => Bool.eq_iff_iff.2 ?_
    rw [List.contains_iff_mem, decide_eq_true_iff, Projection.asks_columns_iff_mem]
  have hnone :
      ((columns.filter ((Projection.columns names).Asks ·.name)).isEmpty && !(names.map fold).isEmpty) = true ↔
        names ≠ [] ∧ ∀ c ∈ columns, ¬(Projection.columns names).Asks c.name := by
    simp [List.filter_eq_nil_iff, and_comm]
  rw [selectColumns, hfilter]
  exact if_congr hnone rfl rfl

theorem selectColumns_eq_ite (p : Projection) (columns : List Column) :
    selectColumns p.names? columns =
      if p.names?.getD [] ≠ [] ∧ ∀ c ∈ columns, ¬p.Asks c.name then .error ((p.names?.getD []).map fold)
      else .ok (columns.filter (p.Asks ·.name)) := by
  cases p with
  | all | unresolved =>
    rw [if_neg fun h => h.1 rfl]
    exact congrArg Except.ok (List.filter_eq_self.2 fun _ _ => rfl).symm
  | columns names => exact selectColumns_some names columns

theorem selectColumns_eq_ok (h : selectColumns p.names? columns = .ok selected) :
    selected = columns.filter fun c => decide (p.Asks c.name) := by
  rw [selectColumns_eq_ite] at h
  split at h
  · cases h
  · exact (Except.ok.inj h).symm

theorem selectColumns_of_asks (h : ∃ c ∈ columns, p.Asks c.name) :
    selectColumns p.names? columns = .ok (columns.filter (p.Asks ·.name)) := by
  obtain ⟨c, hc, hasks⟩ := h
  rw [selectColumns_eq_ite, if_neg fun hnone => hnone.2 c hc hasks]

/-- Projections select the same columns exactly if they ask for the same ones, where there are any. -/
theorem selectColumns_eq_iff (p' : Projection) (h : ∃ c ∈ columns, p.Asks c.name) :
    selectColumns p'.names? columns = selectColumns p.names? columns ↔
      ∀ c ∈ columns, p'.Asks c.name ↔ p.Asks c.name := by
  constructor
  · intro heq c hc
    rw [selectColumns_of_asks h] at heq
    have hmem := congrArg (c ∈ ·) (selectColumns_eq_ok heq)
    simpa only [List.mem_filter, hc, true_and, decide_eq_true_iff, eq_iff_iff, Iff.comm] using hmem
  · intro hiff
    have h' : ∃ c ∈ columns, p'.Asks c.name := h.imp fun c hc => ⟨hc.1, (hiff c hc.1).2 hc.2⟩
    rw [selectColumns_of_asks h', selectColumns_of_asks h]
    exact congrArg _ (List.filter_congr fun c hc => decide_eq_decide.2 (hiff c hc))

theorem toOption_selectColumns_eq (h : ∀ f, f ∈ names'.map fold ↔ f ∈ names.map fold) (columns : List Column) :
    (selectColumns (some names') columns).toOption = (selectColumns (some names) columns).toOption := by
  have hasks (name : String) : (Projection.columns names').Asks name ↔ (Projection.columns names).Asks name := by
    rw [Projection.asks_columns_iff_mem, Projection.asks_columns_iff_mem, h]
  have hnil : names' = [] ↔ names = [] := by
    rw [← List.map_eq_nil_iff (f := fold), ← List.map_eq_nil_iff (f := fold) (l := names),
      List.eq_nil_iff_forall_not_mem, List.eq_nil_iff_forall_not_mem]
    exact forall_congr' fun f => not_congr (h f)
  rw [selectColumns_some, selectColumns_some, apply_ite Except.toOption, apply_ite Except.toOption]
  simp only [hasks, hnil, ne_eq]
  rfl

theorem selectColumns_map_fold (names : List String) (columns : List Column) :
    selectColumns (some (names.map fold)) columns = selectColumns (some names) columns := by
  simp only [selectColumns, List.map_map, fold_comp_fold]

end

section
variable {columns : List Column} {names names' extra : List String} {c : Column}

/-- One change to the names that leaves the columns they ask for as they are. -/
inductive Rewording (columns : List Column) : List String → List String → Prop
  | reordered {names names' : List String} (h : names.Perm names') : Rewording columns names names'
  | repeated {n : String} {names : List String} (h : n ∈ names) : Rewording columns names (n :: names)
  | respelled {n n' : String} (h : fold n = fold n') (names : List String) :
      Rewording columns (n :: names) (n' :: names)
  | added {n : String} (h : ∀ c ∈ columns, fold n ≠ fold c.name) (names : List String) :
      Rewording columns names (n :: names)

theorem Rewording.asks_iff (h : Rewording columns names names') (hc : c ∈ columns) :
    (Projection.columns names).Asks c.name ↔ (Projection.columns names').Asks c.name := by
  cases h with
  | reordered h => exact exists_congr fun n => and_congr_left' h.mem_iff
  | repeated h =>
    rw [Projection.asks_columns_cons]
    exact (or_iff_right_of_imp fun hn => ⟨_, h, hn⟩).symm
  | respelled h names => rw [Projection.asks_columns_cons, Projection.asks_columns_cons, h]
  | added h names => rw [Projection.asks_columns_cons, or_iff_right (h c hc)]

theorem asks_iff_of_eqvGen (h : EqvGen (Rewording columns) names names') (hc : c ∈ columns) :
    (Projection.columns names).Asks c.name ↔ (Projection.columns names').Asks c.name := by
  induction h with
  | rel _ _ h => exact h.asks_iff hc
  | refl => exact Iff.rfl
  | symm _ _ _ ih => exact ih.symm
  | trans _ _ _ _ _ ih ih' => exact ih.trans ih'

/-- Names that ask for no other columns may be added. -/
theorem eqvGen_append
    (h : ∀ c ∈ columns, (Projection.columns extra).Asks c.name → (Projection.columns names).Asks c.name) :
    EqvGen (Rewording columns) names (extra ++ names) := by
  induction extra with
  | nil => exact .refl _
  | cons n extra ih =>
    simp only [Projection.asks_columns_cons] at h
    refine .trans _ _ _ (ih fun c hc hasks => h c hc (.inr hasks)) ?_
    by_cases hfound : ∃ c ∈ columns, fold n = fold c.name
    · -- a repeated name is respelled as the new one
      obtain ⟨c, hc, hn⟩ := hfound
      obtain ⟨m, hm, hfold⟩ := h c hc (.inl hn)
      exact .trans _ _ _ (.rel _ _ (.repeated (List.mem_append_right _ hm)))
        (.rel _ _ (.respelled (hfold.trans hn.symm) _))
    · exact .rel _ _ (.added (fun c hc hn => hfound ⟨c, hc, hn⟩) _)

/-- Any names that ask for the same columns come from each other by such changes. -/
theorem eqvGen_rewording_iff : EqvGen (Rewording columns) names names' ↔
    ∀ c ∈ columns, (Projection.columns names').Asks c.name ↔ (Projection.columns names).Asks c.name := by
  refine ⟨fun h c hc => (asks_iff_of_eqvGen h hc).symm, fun h => ?_⟩
  have hnames := eqvGen_append fun c hc => (h c hc).1
  have hnames' := eqvGen_append fun c hc => (h c hc).2
  have hswap : EqvGen (Rewording columns) (names' ++ names) (names ++ names') :=
    .rel _ _ (.reordered List.perm_append_comm)
  exact .trans _ _ _ (.trans _ _ _ hnames hswap) (.symm _ _ hnames')

end

/-- The columns that names select are those in the dataset that they ask for. Only the set of the folds of the
names matters, and as long as a column is found, the changes above are those that make no difference. Folding
the names first makes none, either. -/
theorem selectColumns_folds (columns : List Column) (names : List String) :
    (names ≠ [] → (selectColumns (some names) columns).mapError QueryError.noMatchingColumns =
      if ∃ c ∈ columns, (Projection.columns names).Asks c.name then
        .ok (columns.filter ((Projection.columns names).Asks ·.name))
      else .error (.noMatchingColumns (names.map fold))) ∧
    (∀ names', (∀ f, f ∈ names'.map fold ↔ f ∈ names.map fold) →
      (selectColumns (some names') columns).toOption = (selectColumns (some names) columns).toOption) ∧
    ((∃ c ∈ columns, (Projection.columns names).Asks c.name) → ∀ names',
      selectColumns (some names') columns = selectColumns (some names) columns ↔
        EqvGen (Rewording columns) names names') ∧
    selectColumns (some (names.map fold)) columns = selectColumns (some names) columns := by
  refine ⟨fun hnames => ?_, fun names' hfolds => toOption_selectColumns_eq hfolds columns, fun h names' => ?_,
    selectColumns_map_fold names columns⟩
  · rw [selectColumns_some]
    by_cases hfound : ∃ c ∈ columns, (Projection.columns names).Asks c.name
    · rw [if_pos hfound, if_neg fun hnone => hfound.elim fun c hc => hnone.2 c hc.1 hc.2]
      rfl
    · rw [if_neg hfound, if_pos ⟨hnames, fun c hc hasks => hfound ⟨c, hc, hasks⟩⟩]
      rfl
  · rw [eqvGen_rewording_iff]
    exact selectColumns_eq_iff (.columns names') h

end TableQuery
