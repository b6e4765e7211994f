import TableQuery.Proofs.Rounding
import TableQuery.Value.Order

/-! # The order of values

Comparison of values is reflexive and changes sides with its arguments. It is transitive except where
two different integers both round to a float between them; no such pair exists among integers up to
`2 ^ 53`.
-/
namespace TableQuery.Value

theorem cmp_swap (a b : Value) : cmp a b = (cmp b a).swap := by
  cases a <;> cases b <;> simp only [cmp, Binary64.compare_def] <;> exact Std.OrientedCmp.eq_swap

instance : Std.OrientedCmp cmp := ⟨cmp_swap _ _⟩

theorem cmp_self (a : Value) : cmp a a = .eq := Std.ReflCmp.compare_self

theorem cmp_of_kindRank_ne {a b : Value} (h : a.kindRank ≠ b.kindRank) :
    cmp a b = compare a.kindRank b.kindRank := by
  cases a <;> cases b <;> first | rfl | exact absurd rfl h

theorem kindRank_le_of_cmp_ne_gt {a b : Value} (h : cmp a b ≠ .gt) : a.kindRank ≤ b.kindRank := by
  by_cases hr : a.kindRank = b.kindRank
  · exact Nat.le_of_eq hr
  · rw [cmp_of_kindRank_ne hr] at h
    exact Nat.compare_ne_gt.1 h

/-- Two integers in falling order that both round to the float between them. -/
def RoundedTie (a b c : Value) : Prop :=
  ∃ (m n : Int64) (x : Binary64), a = integer m ∧ b = float x ∧ c = integer n ∧ n.toInt < m.toInt ∧
    compare (Binary64.ofInt m.toInt) x = .eq ∧ compare (Binary64.ofInt n.toInt) x = .eq

def IsModerate : Value → Prop
  | integer n => n.toInt.natAbs ≤ 2 ^ 53
  | _ => True

instance : DecidablePred IsModerate := fun v =>
  match v with
  | integer n => inferInstanceAs (Decidable (n.toInt.natAbs ≤ 2 ^ 53))
  | null | boolean _ | float _ | text _ => isTrue trivial

theorem not_roundedTie_of_moderate {a b c : Value} (ha : a.IsModerate) (hc : c.IsModerate) :
    ¬RoundedTie a b c := by
  rintro ⟨m, n, x, rfl, rfl, rfl, hlt, hm, hn⟩
  have hkeys := Binary64.orderKey_ofInt_strictMono hc ha hlt
  rw [Binary64.compare_def, Int.compare_eq_eq] at hm hn
  omega

def floatKey (v : Value) : Int := (v.float?.map Binary64.orderKey).getD 0

theorem cmp_integer_ne_gt {m n : Int64} : cmp (integer m) (integer n) ≠ .gt ↔ m.toInt ≤ n.toInt :=
  Int.compare_ne_gt

/-- Two numbers that are not both integers compare by their places among the floats. -/
theorem cmp_number_ne_gt {a b : Value} (ha : a.kindRank = 2) (hb : b.kindRank = 2)
    (h : a.integer? = none ∨ b.integer? = none) : cmp a b ≠ .gt ↔ a.floatKey ≤ b.floatKey := by
  cases a with
  | null | boolean | text => cases ha
  | integer m =>
    cases b with
    | null | boolean | text => cases hb
    | integer n => simp [integer?] at h
    | float y => exact Int.compare_ne_gt
  | float x =>
    cases b with
    | null | boolean | text => cases hb
    | integer n => exact Int.compare_ne_gt
    | float y => exact Int.compare_ne_gt

/-- Rounding never contradicts a comparison of numbers. -/
theorem floatKey_le_of_cmp_ne_gt {a b : Value} (ha : a.kindRank = 2) (hb : b.kindRank = 2)
    (h : cmp a b ≠ .gt) : a.floatKey ≤ b.floatKey := by
  by_cases hi : a.integer? = none ∨ b.integer? = none
  · exact (cmp_number_ne_gt ha hb hi).1 h
  · cases a <;> simp [integer?] at hi
    cases b <;> simp at hi
    exact Binary64.orderKey_ofInt_mono (cmp_integer_ne_gt.1 h)

theorem cmp_number_trans {a b c : Value} (ha : a.kindRank = 2) (hb : b.kindRank = 2)
    (hc : c.kindRank = 2) (hab : cmp a b ≠ .gt) (hbc : cmp b c ≠ .gt) (ht : ¬RoundedTie a b c) :
    cmp a c ≠ .gt := by
  have hkab := floatKey_le_of_cmp_ne_gt ha hb hab
  have hkbc := floatKey_le_of_cmp_ne_gt hb hc hbc
  by_cases hi : a.integer? = none ∨ c.integer? = none
  · exact (cmp_number_ne_gt ha hc hi).2 (Int.le_trans hkab hkbc)
  · cases a <;> simp [integer?] at hi
    cases c <;> simp at hi
    rename_i m n
    cases b with
    | null | boolean | text => cases hb
    | integer k =>
      rw [cmp_integer_ne_gt] at hab hbc ⊢
      exact Int.le_trans hab hbc
    | float x =>
      -- The one case where rounding loses what the exact comparison sees.
      rw [cmp_integer_ne_gt]
      refine Int.not_lt.1 fun hlt => ht ⟨m, n, x, rfl, rfl, rfl, hlt, ?_⟩
      have hmn := Binary64.orderKey_ofInt_mono (Int.le_of_lt hlt)
      simp only [Binary64.compare_def, Int.compare_eq_eq]
      simp only [floatKey, float?, Option.map_some, Option.getD_some] at hkab hkbc
      omega

theorem cmp_trans {a b c : Value} (hab : cmp a b ≠ .gt) (hbc : cmp b c ≠ .gt)
    (ht : ¬RoundedTie a b c) : cmp a c ≠ .gt := by
  have hrab := kindRank_le_of_cmp_ne_gt hab
  have hrbc := kindRank_le_of_cmp_ne_gt hbc
  by_cases hr : a.kindRank = c.kindRank
  · have hb : b.kindRank = a.kindRank := by omega
    by_cases hn : a.kindRank = 2
    · exact cmp_number_trans hn (hb.trans hn) (hr.symm.trans hn) hab hbc ht
    · cases a with
      | null =>
        cases c <;> cases hr
        rw [cmp_self]
        exact nofun
      | boolean x =>
        cases b <;> cases hb
        cases c <;> cases hr
        simp only [cmp, ← Ordering.isLE_iff_ne_gt] at hab hbc ⊢
        exact Std.TransCmp.isLE_trans hab hbc
      | integer | float => exact absurd rfl hn
      | text s =>
        cases b <;> cases hb
        cases c <;> cases hr
        simp only [cmp, ← Ordering.isLE_iff_ne_gt] at hab hbc ⊢
        exact Std.TransCmp.isLE_trans hab hbc
  · rw [cmp_of_kindRank_ne hr]
    exact Nat.compare_ne_gt.2 (by omega)

theorem not_cmp_trans_of_roundedTie {a b c : Value} (h : RoundedTie a b c) :
    cmp a b ≠ .gt ∧ cmp b c ≠ .gt ∧ cmp a c = .gt := by
  obtain ⟨m, n, x, rfl, rfl, rfl, hlt, hm, hn⟩ := h
  refine ⟨?_, ?_, Int.compare_eq_gt.2 hlt⟩
  · simp [cmp, hm]
  · rw [cmp_swap]
    simp [cmp, hn]

/-- Values are in a total preorder but for the triples that rounding ties together. -/
theorem cmp_preorder_iff (a b c : Value) :
    compare a b = (compare b a).swap ∧ compare a a = .eq ∧
      ((compare a b ≠ .gt → compare b c ≠ .gt → compare a c ≠ .gt) ↔ ¬RoundedTie a b c) := by
  refine ⟨cmp_swap a b, cmp_self a, fun h ht => ?_, fun ht hab hbc => cmp_trans hab hbc ht⟩
  obtain ⟨hab, hbc, hac⟩ := not_cmp_trans_of_roundedTie ht
  exact h hab hbc hac

/-- `2 ^ 53 + 1` rounds to `2 ^ 53`, which an integer beside it equals exactly. -/
theorem cmp_not_preorder :
    ¬∀ a b c : Value, compare a b = (compare b a).swap ∧ compare a a = .eq ∧
      (compare a b ≠ .gt → compare b c ≠ .gt → compare a c ≠ .gt) := by
  intro h
  have htrans := (h (integer 9007199254740993) (float ⟨0x4340000000000000⟩)
    (integer 9007199254740992)).2.2
  revert htrans
  decide +kernel

end TableQuery.Value
