import TableQuery.Query.Execution

/-! # What the conditions mean

A supported condition holds of a row whose value in the tested column is not null and whose text there
is related to the texts of the condition by equality of folds, or by one fold standing in the other. So the
forms of a condition agree with each other where one says what another one does.
-/
namespace TableQuery

namespace Text

theorem foldAfter_of_isAscii {cs : List Char} (h : isAscii cs = true) (before : List Char) :
    foldAfter before cs = cs.map Char.toLower := by
  induction cs generalizing before with
  | nil => rfl
  | cons c cs ih =>
    obtain ⟨hc, hcs⟩ : c.toNat < 0x80 ∧ isAscii cs = true := by simpa [isAscii] using h
    have hsigma : c ≠ capitalSigma := by
      rintro rfl
      revert hc
      decide
    rw [foldAfter, if_neg hsigma, lowerChar, if_pos hc, ih hcs, List.map_cons, List.singleton_append]

/-- Comparing ASCII texts letter by letter is comparing their folds. -/
theorem eqIgnoreCase_iff {s t : String} : eqIgnoreCase s t = true ↔ fold s = fold t := by
  unfold eqIgnoreCase
  split
  next h =>
    obtain ⟨hs, ht⟩ := Bool.and_eq_true_iff.1 h
    rw [eqIgnoreAsciiCase, beq_iff_eq, ← String.toList_inj, toList_fold, toList_fold, foldChars,
      foldChars, foldAfter_of_isAscii hs, foldAfter_of_isAscii ht]
  next => exact beq_iff_eq

theorem containsIgnoreCase_iff {text needle : String} : containsIgnoreCase text needle = true ↔
    foldChars needle.toList <:+: foldChars text.toList :=
  occursIn_iff

end Text

/-- The text of a row in a column. Null has none, and neither has a column that is not there. -/
def Dataset.textAt? (d : Dataset) (column : String) (row : Row) : Option String :=
  ((d.fieldIndex? column).bind (row[·]?)).bind Value.comparedText?

theorem Dataset.textAt?_eq_none {d : Dataset} {column : String} {row : Row}
    (h : d.fieldIndex? column = none ∨ ∃ i, d.fieldIndex? column = some i ∧ row[i]? = some .null) :
    d.textAt? column row = none := by
  rcases h with h | ⟨i, hi, hrow⟩
  · rw [textAt?, h]
    rfl
  · rw [textAt?, hi, Option.bind_some, hrow]
    rfl

namespace Predicate

/-- The rows of a dataset that a condition holds of. One that is not supported tells no rows apart. -/
def Holds (d : Dataset) (row : Row) : Predicate → Prop
  | equals column value => ∃ s, d.textAt? column row = some s ∧ Text.fold s = Text.fold value
  | contains column text => ∃ s, d.textAt? column row = some s ∧
      Text.foldChars text.toList <:+: Text.foldChars s.toList
  | oneOf column values => ∃ s, d.textAt? column row = some s ∧
      ∃ value ∈ values, Text.fold s = Text.fold value
  | unsupported _ => True

theorem keeps_of_supported {p : Predicate} {column : String} (hs : p.isSupported = true)
    (hc : p.column? = some column) (d : Dataset) (row : Row) :
    p.keeps (p.index? d) row = true ↔ ∃ s, d.textAt? column row = some s ∧ p.holdsFor s = true := by
  rw [keeps, hs, Bool.not_true, Bool.false_or, index?, hc]
  exact Option.any_eq_true _ _

theorem keeps_iff_holds (p : Predicate) (d : Dataset) (row : Row) :
    p.keeps (p.index? d) row = true ↔ p.Holds d row := by
  cases p with
  | equals column value =>
    rw [keeps_of_supported rfl rfl]
    simp only [holdsFor, Text.eqIgnoreCase_iff, Holds]
  | contains column text =>
    rw [keeps_of_supported rfl rfl]
    simp only [holdsFor, Text.containsIgnoreCase_iff, Holds]
  | oneOf column values =>
    rw [keeps_of_supported rfl rfl]
    simp only [holdsFor, List.contains_iff_mem, List.mem_map, Holds]
    simp only [eq_comm]
  | unsupported clause => exact iff_of_true rfl trivial

instance (d : Dataset) (row : Row) (p : Predicate) : Decidable (p.Holds d row) :=
  decidable_of_iff _ (p.keeps_iff_holds d row)

def Selects (p : Predicate) (d : Dataset) (row : Row) : Prop := p.keeps (p.index? d) row = true

section
variable {d : Dataset} {row : Row} {column : String} {p : Predicate}

theorem holds_oneOf_iff {values : List String} :
    (oneOf column values).Holds d row ↔ ∃ v ∈ values, (equals column v).Holds d row := by
  constructor
  · rintro ⟨s, hs, v, hv, hfold⟩
    exact ⟨v, hv, s, hs, hfold⟩
  · rintro ⟨v, hv, s, hs, hfold⟩
    exact ⟨s, hs, v, hv, hfold⟩

/-- Equal folds stand in each other. -/
theorem Holds.contains {v : String} (h : (equals column v).Holds d row) : (contains column v).Holds d row := by
  obtain ⟨s, hs, hfold⟩ := h
  have hchars : Text.foldChars v.toList = Text.foldChars s.toList := by
    rw [← Text.toList_fold, ← Text.toList_fold, hfold]
  exact ⟨s, hs, hchars ▸ List.infix_refl _⟩

theorem not_holds_of_textAt?_eq_none (hc : p.column? = some column) (h : d.textAt? column row = none) :
    ¬p.Holds d row := by
  have hnone {P : String → Prop} : ¬∃ s, d.textAt? column row = some s ∧ P s := by
    rw [h]
    exact nofun
  cases p with
  | unsupported clause => cases hc
  | _ =>
    cases hc
    exact hnone

end

/-- All forms compare folds: to be in a list is to equal one of its members, what equals a text holds it, and
where there is no text no form holds. -/
theorem selects_forms (d : Dataset) (row : Row) (column : String) :
    (∀ s t, Text.eqIgnoreCase s t = true ↔ Text.fold s = Text.fold t) ∧
      (∀ p : Predicate, p.Selects d row ↔ p.Holds d row) ∧
      (∀ values, (oneOf column values).Selects d row ↔ ∃ v ∈ values, (equals column v).Selects d row) ∧
      (∀ values values' : List String, (∀ v, v ∈ values ↔ v ∈ values') →
        ((oneOf column values).Selects d row ↔ (oneOf column values').Selects d row)) ∧
      (∀ v, (equals column v).Selects d row → (contains column v).Selects d row) ∧
      (d.fieldIndex? column = none ∨ (∃ i, d.fieldIndex? column = some i ∧ row[i]? = some .null) →
        ∀ p : Predicate, p.column? = some column → ¬p.Selects d row) := by
  have hholds (p : Predicate) : p.Selects d row ↔ p.Holds d row := p.keeps_iff_holds d row
  have hlist (values : List String) :
      (oneOf column values).Selects d row ↔ ∃ v ∈ values, (equals column v).Selects d row := by
    simp only [hholds, holds_oneOf_iff]
  refine ⟨fun _ _ => Text.eqIgnoreCase_iff, hholds, hlist, fun values values' h => ?_, fun v hv => ?_,
    fun h p hc => ?_⟩
  · simp only [hlist, h]
  · exact (hholds _).2 ((hholds _).1 hv).contains
  · rw [hholds]
    exact not_holds_of_textAt?_eq_none hc (Dataset.textAt?_eq_none h)

end Predicate

def Query.Admits (q : Query) (d : Dataset) (row : Row) : Prop := ∀ p ∈ q.predicate, p.Holds d row

instance (q : Query) (d : Dataset) : DecidablePred (q.Admits d) := fun _ =>
  inferInstanceAs (Decidable (∀ _ ∈ _, _))

theorem Query.keptRows_eq (q : Query) (d : Dataset) :
    q.keptRows d = d.rows.filter fun row => decide (q.Admits d row) := by
  unfold keptRows
  cases hp : q.predicate with
  | none =>
    refine (List.filter_eq_self.2 fun row _ => ?_).symm
    simp [Admits, hp]
  | some p =>
    refine List.filter_congr fun row _ => ?_
    rw [Bool.eq_iff_iff, decide_eq_true_iff, p.keeps_iff_holds]
    simp [Admits, hp]

end TableQuery
