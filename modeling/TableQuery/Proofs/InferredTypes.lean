import Mathlib.Data.List.Basic
import Mathlib.Data.Set.Insert
import Mathlib.Order.Bounds.Basic
import TableQuery.Proofs.InferredDatasets

/-! # Inferred types

Reconciling the types that the values of a column suggest gives the least type that all of them fit in. So the
order of the records does not matter to it, and records without a value in the column matter to no strategy.
-/
namespace TableQuery

namespace DataType
variable {a b c : DataType}

def FitsIn (a b : DataType) : Prop := a = b ∨ b = .string ∨ a = .integer ∧ b = .decimal

theorem FitsIn.trans (hab : a.FitsIn b) (hbc : b.FitsIn c) : a.FitsIn c := by
  rcases hbc with rfl | rfl | ⟨rfl, rfl⟩
  · exact hab
  · exact .inr (.inl rfl)
  · rcases hab with rfl | h | ⟨-, h⟩
    · exact .inr (.inr ⟨rfl, rfl⟩)
    · cases h
    · cases h

theorem FitsIn.antisymm (hab : a.FitsIn b) (hba : b.FitsIn a) : a = b := by
  rcases hab with rfl | rfl | ⟨rfl, rfl⟩
  · rfl
  · rcases hba with h | h | ⟨h, -⟩
    · exact h.symm
    · exact h
    · cases h
  · rcases hba with h | h | ⟨h, -⟩ <;> cases h

/-- What two types are unified to is the least type that both fit in. -/
theorem unify_fitsIn_iff : (unify a b).FitsIn c ↔ a.FitsIn c ∧ b.FitsIn c := by
  cases a <;> cases b <;> cases c <;> simp [unify, FitsIn]

instance : SemilatticeSup DataType where
  le := FitsIn
  le_refl _ := .inl rfl
  le_trans _ _ _ := FitsIn.trans
  le_antisymm _ _ := FitsIn.antisymm
  sup := unify
  le_sup_left _ _ := (unify_fitsIn_iff.1 (.inl rfl)).1
  le_sup_right _ _ := (unify_fitsIn_iff.1 (.inl rfl)).2
  sup_le _ _ _ ha hb := unify_fitsIn_iff.2 ⟨ha, hb⟩

theorem foldl_unify_le_iff {ts : List DataType} : ts.foldl unify a ≤ c ↔ ∀ t ∈ a :: ts, t ≤ c := by
  induction ts generalizing a with
  | nil => simp
  | cons t ts ih =>
    have hstep : unify a t ≤ c ↔ a ≤ c ∧ t ≤ c := unify_fitsIn_iff
    rw [List.foldl_cons, ih, List.forall_mem_cons, List.forall_mem_cons, List.forall_mem_cons, hstep, and_assoc]

end DataType

def Record.hasValue (r : Record) (name : String) : Bool := (r.get? name).any (!·.isEmpty)

namespace InferenceStrategy
open DataType
variable {s : InferenceStrategy} {records records' : List Record} {name : String} {t u : DataType}

def suggestions (records : List Record) (name : String) : Set DataType :=
  {t | ∃ r ∈ records, ∃ v, r.get? name = some v ∧ v.suggestedType? = some t}

def suggested (records : List Record) (name : String) : List DataType :=
  records.filterMap fun r => (r.get? name).bind Value.suggestedType?

theorem columnType_eq_resolve (s : InferenceStrategy) (records : List Record) (name : String) :
    s.columnType records name = s.resolve (suggested records name) := rfl

theorem mem_suggested_iff : t ∈ suggested records name ↔ t ∈ suggestions records name := by
  simp [suggested, suggestions, Option.bind_eq_some_iff]

theorem suggestions_perm (h : records'.Perm records) : suggestions records' name = suggestions records name := by
  simp only [suggestions, h.mem_iff]

theorem suggested_eq_nil_iff : suggested records name = [] ↔ suggestions records name = ∅ := by
  rw [List.eq_nil_iff_forall_not_mem, Set.eq_empty_iff_forall_notMem]
  simp only [mem_suggested_iff]

/-- A record suggests a type exactly if it has a value. -/
theorem bind_suggestedType?_eq_none_iff (r : Record) (name : String) :
    (r.get? name).bind Value.suggestedType? = none ↔ r.hasValue name = false := by
  unfold Record.hasValue
  cases r.get? name with
  | none => exact iff_of_true rfl rfl
  | some v =>
    rw [Option.bind_some, Option.any_some, v.suggestedType?_eq_none_iff, Bool.not_eq_eq_eq_not, Bool.not_false]

theorem suggestions_eq_empty_iff :
    suggestions records name = ∅ ↔ ∀ r ∈ records, r.hasValue name = false := by
  rw [← suggested_eq_nil_iff, suggested, List.filterMap_eq_nil_iff]
  simp only [bind_suggestedType?_eq_none_iff]

theorem suggested_filter (records : List Record) (name : String) :
    suggested (records.filter (·.hasValue name)) name = suggested records name := by
  rw [suggested, List.filterMap_filter]
  refine List.filterMap_congr fun r _ => ?_
  cases hvalue : r.hasValue name with
  | true => rfl
  | false => exact ((bind_suggestedType?_eq_none_iff r name).2 hvalue).symm

/-- What suggested types are reconciled to: the one type that they are, decimals for integers and decimals, and
strings otherwise. This is the least type that all of them fit in, if there are any. -/
structure IsReconciled (types : Set DataType) (t : DataType) : Prop where
  none : types = ∅ → t = .string
  one : ∀ u, types = {u} → t = u
  numbers : types = {.integer, .decimal} → t = .decimal
  mixed : types.Nonempty → (∀ u, types ≠ {u}) → types ≠ {.integer, .decimal} → t = .string
  least : types.Nonempty → IsLUB types t

/-- A type that is no decimal and no string is the only one that fits in it. -/
theorem eq_of_le (h : t ≤ u) (hdecimal : u ≠ .decimal) (hstring : u ≠ .string) : t = u := by
  rcases h with h | h | ⟨-, h⟩
  · exact h
  · exact absurd h hstring
  · exact absurd h hdecimal

theorem eq_of_le_decimal (h : t ≤ .decimal) : t = .integer ∨ t = .decimal := by
  rcases h with h | h | ⟨h, -⟩
  · exact .inr h
  · cases h
  · exact .inl h

/-- A least type that is no string is the only type, or the decimals above both kinds of numbers. -/
theorem eq_string_of_isLUB {types : Set DataType} (hlub : IsLUB types t) (hsome : types.Nonempty)
    (hone : ∀ u, types ≠ {u}) (hnumbers : types ≠ {.integer, .decimal}) : t = .string := by
  refine Decidable.byContradiction fun hstring => ?_
  by_cases hdecimal : t = .decimal
  · subst hdecimal
    have hsub : types ⊆ {.integer, .decimal} := fun u hu => eq_of_le_decimal (hlub.1 hu)
    rcases Set.subset_pair_iff_eq.1 hsub with h | h | h | h
    · exact hsome.ne_empty h
    · exact hone _ h
    · exact hone _ h
    · exact hnumbers h
  · refine hone t (Set.eq_singleton_iff_nonempty_unique_mem.2 ⟨hsome, fun u hu => ?_⟩)
    exact eq_of_le (hlub.1 hu) hdecimal hstring

theorem isReconciled_of_isLUB {types : Set DataType} (hlub : IsLUB types t) (hsome : types.Nonempty) :
    IsReconciled types t where
  none h := absurd h hsome.ne_empty
  one _ h := (h ▸ hlub).unique isLUB_singleton
  numbers h := (h ▸ hlub).unique isLUB_pair
  mixed := eq_string_of_isLUB hlub
  least _ := hlub

theorem isLUB_resolve {types : List DataType} (h : types ≠ []) : IsLUB {t | t ∈ types} (reconcile.resolve types) := by
  cases types with
  | nil => exact absurd rfl h
  | cons t types => exact isLUB_iff_le_iff.2 fun b => foldl_unify_le_iff

theorem isReconciled_columnType (records : List Record) (name : String) :
    IsReconciled (suggestions records name) (reconcile.columnType records name) := by
  rw [columnType_eq_resolve]
  rcases (suggestions records name).eq_empty_or_nonempty with hempty | hsome
  · rw [suggested_eq_nil_iff.2 hempty, hempty]
    refine ⟨fun _ => rfl, fun u hu => ?_, fun h => ?_, fun h => ?_, fun h => ?_⟩
    · exact absurd hu.symm (Set.singleton_ne_empty u)
    · exact absurd h.symm (Set.insert_nonempty _ _).ne_empty
    · exact absurd h Set.not_nonempty_empty
    · exact absurd h Set.not_nonempty_empty
  · have hne : suggested records name ≠ [] := fun h => hsome.ne_empty (suggested_eq_nil_iff.1 h)
    have htypes : {t | t ∈ suggested records name} = suggestions records name :=
      Set.ext fun _ => mem_suggested_iff
    exact isReconciled_of_isLUB (htypes ▸ isLUB_resolve hne) hsome

theorem IsReconciled.unique {types : Set DataType} (ht : IsReconciled types t) (hu : IsReconciled types u) :
    t = u := by
  rcases types.eq_empty_or_nonempty with hempty | hsome
  · rw [ht.none hempty, hu.none hempty]
  · exact (ht.least hsome).unique (hu.least hsome)

theorem columnType_perm (h : records'.Perm records) :
    reconcile.columnType records' name = reconcile.columnType records name := by
  have hrecords' := isReconciled_columnType records' name
  rw [suggestions_perm h] at hrecords'
  exact hrecords'.unique (isReconciled_columnType records name)

/-- Where all values suggest one type, so does the first. -/
theorem firstNonEmpty_columnType (hdecimal : reconcile.columnType records name ≠ .decimal)
    (hstring : reconcile.columnType records name ≠ .string) :
    firstNonEmpty.columnType records name = reconcile.columnType records name := by
  rw [columnType_eq_resolve] at hdecimal hstring
  rw [columnType_eq_resolve, columnType_eq_resolve]
  cases hsuggested : suggested records name with
  | nil => rfl
  | cons u us =>
    rw [hsuggested] at hdecimal hstring
    have hfits : u ≤ us.foldl unify u := foldl_unify_le_iff.1 le_rfl u List.mem_cons_self
    exact eq_of_le hfits hdecimal hstring

theorem columnType_eq_of_filter (s : InferenceStrategy)
    (h : records'.filter (·.hasValue name) = records.filter (·.hasValue name)) :
    s.columnType records' name = s.columnType records name := by
  rw [columnType_eq_resolve, ← suggested_filter, h, suggested_filter, columnType_eq_resolve]

theorem getElem?_inferColumns (s : InferenceStrategy) (hrecords : records ≠ []) {known : List String} {i : Nat}
    (hname : known[i]? = some name) :
    (s.inferColumns records (some known))[i]? = some ⟨name, s.columnType records name⟩ := by
  have hknown : known ≠ [] := by
    rintro rfl
    cases hname
  rw [s.inferColumns_eq_columnsOf hrecords (columnNames_of_known records hknown), columnsOf, List.getElem?_map, hname,
    Option.map_some]

/-- In any order of the records a known column is given the type that the suggestions of its values are
reconciled to. The first value suggests that type, too, unless it is decimal or string. Records without a value
in the column do not matter to either strategy. -/
theorem inferred_types {records : List Record} (hrecords : records ≠ []) {known : List String} {i : Nat}
    {name : String} (hname : known[i]? = some name) :
    ∃ t, IsReconciled (suggestions records name) t ∧
      (suggestions records name = ∅ ↔ ∀ r ∈ records, r.hasValue name = false) ∧
      (∀ records' : List Record, records'.Perm records →
        (reconcile.inferColumns records' (some known))[i]? = some ⟨name, t⟩) ∧
      (t ≠ .decimal → t ≠ .string →
        (firstNonEmpty.inferColumns records (some known))[i]? = some ⟨name, t⟩) ∧
      ∀ (s : InferenceStrategy) (records' : List Record), records' ≠ [] →
        records'.filter (·.hasValue name) = records.filter (·.hasValue name) →
        (s.inferColumns records' (some known))[i]? = (s.inferColumns records (some known))[i]? := by
  refine ⟨reconcile.columnType records name, isReconciled_columnType records name, suggestions_eq_empty_iff,
    fun records' hperm => ?_, fun hdecimal hstring => ?_, fun s records' hrecords' hfilter => ?_⟩
  · have hrecords' : records' ≠ [] := fun h => hrecords (List.nil_perm.1 (h ▸ hperm))
    rw [getElem?_inferColumns _ hrecords' hname, columnType_perm hperm]
  · rw [getElem?_inferColumns _ hrecords hname, firstNonEmpty_columnType hdecimal hstring]
  · rw [getElem?_inferColumns _ hrecords' hname, getElem?_inferColumns _ hrecords hname,
      columnType_eq_of_filter s hfilter]

/-- An integer and a decimal number make a decimal column in any order, although the first value alone suggests
integers. Neither the empty text nor the record without the key matters. -/
theorem inferred_types_numbers :
    let records : List Record := [⟨[("a", .text "x"), ("n", .text "")]⟩, ⟨[("n", .integer 1)]⟩, ⟨[("a", .null)]⟩,
      ⟨[("n", .float ⟨0x3FF8000000000000⟩)]⟩]
    records ≠ [] ∧ ["a", "n"][1]? = some "n" ∧
      firstNonEmpty.inferColumns records (some ["a", "n"]) = [⟨"a", .string⟩, ⟨"n", .integer⟩] ∧
      reconcile.inferColumns records (some ["a", "n"]) = [⟨"a", .string⟩, ⟨"n", .decimal⟩] ∧
      ∃ t, IsReconciled (suggestions records "n") t ∧
        ∀ records' : List Record, records'.Perm records →
          (reconcile.inferColumns records' (some ["a", "n"]))[1]? = some ⟨"n", t⟩ := by
  intro records
  have hrecords : records ≠ [] := List.cons_ne_nil _ _
  have hname : ["a", "n"][1]? = some "n" := rfl
  obtain ⟨t, ht, -, hperm, -⟩ := inferred_types hrecords hname
  exact ⟨hrecords, hname, by decide +kernel, by decide +kernel, t, ht, hperm⟩

end InferenceStrategy
end TableQuery
