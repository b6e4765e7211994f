import Mathlib.Data.List.Basic
import TableQuery.Proofs.NumberText
import TableQuery.Value.Order

/-! # Equal values and hash functions

Equality of values is an equivalence. What a hash function reads of a value tells it from every other one, so
that equal values are read alike but for floats that are equal without being the same: the two zeros, and what
is no number.
-/
namespace TableQuery

namespace Binary64
variable {x y : Binary64}

def isZero (x : Binary64) : Bool := x.magnitude == 0

theorem isNaN_iff : x.isNaN = true ↔ infiniteMagnitude < x.magnitude := decide_eq_true_iff

theorem isZero_iff : x.isZero = true ↔ x.magnitude = 0 := beq_iff_eq

theorem eq_of_magnitude_eq (hsign : x.isNegative = y.isNegative) (h : x.magnitude = y.magnitude) : x = y := by
  rw [← ofMagnitude_magnitude x, ← ofMagnitude_magnitude y, hsign, h]

theorem orderKey_of_isNaN (h : x.isNaN = true) : x.orderKey = infiniteMagnitude + 1 := if_pos h

theorem orderKey_of_isZero (h : x.isZero = true) : x.orderKey = 0 := by
  have hm := isZero_iff.1 h
  have hnan : ¬x.isNaN = true := by
    rw [isNaN_iff, hm]
    decide
  rw [orderKey, if_neg hnan, hm]
  exact ite_self 0

/-- What is a number keeps below the key of what is none. -/
theorem natAbs_orderKey (h : ¬x.isNaN = true) :
    x.orderKey.natAbs = x.magnitude ∧ x.magnitude ≤ infiniteMagnitude := by
  refine ⟨?_, Nat.not_lt.1 (mt isNaN_iff.2 h)⟩
  rw [orderKey, if_neg h]
  split
  next => rw [Int.natAbs_neg, Int.natAbs_natCast]
  next => exact Int.natAbs_natCast _

theorem isNegative_eq_of_orderKey_eq (hx : ¬x.isNaN = true) (hy : ¬y.isNaN = true) (hzero : x.magnitude ≠ 0)
    (h : x.orderKey = y.orderKey) : x.isNegative = y.isNegative := by
  rw [orderKey, orderKey, if_neg hx, if_neg hy] at h
  cases hxs : x.isNegative <;> cases hys : y.isNegative
  case false.false | true.true => rfl
  all_goals
    simp only [hxs, hys, Bool.false_eq_true, if_false, if_true] at h
    omega

theorem orderKey_eq_iff : x.orderKey = y.orderKey ↔
    x = y ∨ (x.isZero = true ∧ y.isZero = true) ∨ (x.isNaN = true ∧ y.isNaN = true) := by
  constructor
  · intro h
    by_cases hx : x.isNaN = true
    · refine .inr (.inr ⟨hx, ?_⟩)
      by_contra hy
      have hkey := natAbs_orderKey hy
      rw [← h, orderKey_of_isNaN hx] at hkey
      omega
    · by_cases hy : y.isNaN = true
      · have hkey := natAbs_orderKey hx
        rw [h, orderKey_of_isNaN hy] at hkey
        omega
      · have hm : x.magnitude = y.magnitude := by
          rw [← (natAbs_orderKey hx).1, ← (natAbs_orderKey hy).1, h]
        by_cases hzero : x.magnitude = 0
        · exact .inr (.inl ⟨isZero_iff.2 hzero, isZero_iff.2 (hm ▸ hzero)⟩)
        · exact .inl (eq_of_magnitude_eq (isNegative_eq_of_orderKey_eq hx hy hzero h) hm)
  · rintro (rfl | ⟨hx, hy⟩ | ⟨hx, hy⟩)
    · rfl
    · rw [orderKey_of_isZero hx, orderKey_of_isZero hy]
    · rw [orderKey_of_isNaN hx, orderKey_of_isNaN hy]

end Binary64

namespace Value
variable {a b : Value}

/-- Two floats that are not the same although they are equal: two zeros, or two that are no numbers. -/
def AreTwins (a b : Value) : Prop :=
  ∃ x y : Binary64, a = float x ∧ b = float y ∧ x ≠ y ∧
    (x.isZero = true ∧ y.isZero = true ∨ x.isNaN = true ∧ y.isNaN = true)

/-- What equality looks at: the place of a float in the order, any other value as it is. -/
def identity : Value → Int ⊕ Value
  | float x => .inl x.orderKey
  | v => .inr v

theorem agrees_iff_identity_eq : a.agrees b = true ↔ a.identity = b.identity := by
  cases a <;> cases b <;> simp [agrees, identity]

theorem equivalence_agrees : Equivalence fun a b : Value => a.agrees b = true where
  refl _ := agrees_iff_identity_eq.2 rfl
  symm h := agrees_iff_identity_eq.2 (agrees_iff_identity_eq.1 h).symm
  trans h h' := agrees_iff_identity_eq.2 ((agrees_iff_identity_eq.1 h).trans (agrees_iff_identity_eq.1 h'))

theorem identity_eq_iff : a.identity = b.identity ↔ a = b ∨ AreTwins a b := by
  constructor
  · intro h
    cases a with
    | float x =>
      cases b with
      | float y =>
        by_cases heq : x = y
        · exact .inl (congrArg float heq)
        · refine .inr ⟨x, y, rfl, rfl, heq, ?_⟩
          exact (Binary64.orderKey_eq_iff.1 (Sum.inl.inj h)).resolve_left heq
      | _ => cases h
    | _ =>
      cases b with
      | float y => cases h
      | _ => exact .inl (Sum.inr.inj h)
  · rintro (rfl | ⟨x, y, rfl, rfl, -, htwins⟩)
    · rfl
    · exact congrArg Sum.inl (Binary64.orderKey_eq_iff.2 (.inr htwins))

/-- No two values are read alike. -/
theorem hashInput_inj : a.hashInput = b.hashInput ↔ a = b := by
  refine ⟨fun h => ?_, congrArg hashInput⟩
  cases a with
  | null =>
    cases b with
    | null => rfl
    | _ => cases h
  | boolean p =>
    cases b with
    | boolean q =>
      have hbit : p.toNat = q.toNat := (List.cons.inj (List.cons.inj h).2).1
      have hinj : ∀ p q : Bool, p.toNat = q.toNat → p = q := by decide
      exact congrArg boolean (hinj p q hbit)
    | _ => cases h
  | integer m =>
    cases b with
    | integer n =>
      have hbits : m.toUInt64.toNat = n.toUInt64.toNat := (List.cons.inj (List.cons.inj h).2).1
      exact congrArg (fun bits => integer ⟨bits⟩) (UInt64.toNat_inj.1 hbits)
    | _ => cases h
  | float x =>
    cases b with
    | float y =>
      have hbits : x.bits.toNat = y.bits.toNat := (List.cons.inj (List.cons.inj h).2).1
      exact congrArg (fun bits => float ⟨bits⟩) (UInt64.toNat_inj.1 hbits)
    | _ => cases h
  | text s =>
    cases b with
    | text t =>
      have hcodes : s.toList.map Char.toNat = t.toList.map Char.toNat := (List.cons.inj h).2
      have hinj : Function.Injective Char.toNat := fun _ _ => Char.toNat_inj.1
      exact congrArg text (String.toList_inj.1 (hinj.list_map hcodes))
    | _ => cases h

/-- Equality is an equivalence, and two values that are equal are read alike exactly when they are no twins. -/
theorem equal_values_hash_alike_iff (a b : Value) : (Equivalence fun a b : Value => a.agrees b = true) ∧
    ((a.agrees b = true → a.hashInput = b.hashInput) ↔ ¬AreTwins a b) := by
  refine ⟨equivalence_agrees, ?_⟩
  rw [agrees_iff_identity_eq, identity_eq_iff, hashInput_inj]
  constructor
  · rintro halike ⟨x, y, rfl, rfl, hne, htwins⟩
    exact hne (float.inj (halike (.inr ⟨x, y, rfl, rfl, hne, htwins⟩)))
  · intro htwins heq
    exact heq.resolve_right htwins

/-- The two zeros are equal, but their signs are read. -/
theorem not_equal_values_hash_alike : ¬((Equivalence fun a b : Value => a.agrees b = true) ∧
    ∀ a b : Value, a.agrees b = true → a.hashInput = b.hashInput) := by
  intro h
  have hzeros := h.2 (float ⟨0⟩) (float ⟨0x8000000000000000⟩) (by decide +kernel)
  revert hzeros
  decide +kernel

end Value
end TableQuery
