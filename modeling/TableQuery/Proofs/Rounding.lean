import Mathlib.Algebra.Ring.Nat
import TableQuery.Binary64.Rounding

/-! # Rounding and order

Rounding to binary64 never puts two numbers in the opposite order. Integers up to `2 ^ 53` are
binary64 numbers themselves, so that rounding keeps them apart; beyond that neighbours may meet.
-/
namespace TableQuery.Binary64

theorem magnitude_eq (x : Binary64) : x.magnitude = x.bits.toNat % 2 ^ 63 := rfl

theorem isNegative_eq (x : Binary64) : x.isNegative = decide (2 ^ 63 ≤ x.bits.toNat) := rfl

theorem ofMagnitude_eq (negative : Bool) (m : Nat) :
    ofMagnitude negative m = ⟨UInt64.ofNat (if negative then 2 ^ 63 + m else m)⟩ :=
  rfl

theorem units_eq (m : Nat) :
    units m = if m / 2 ^ 52 = 0 then m else (2 ^ 52 + m % 2 ^ 52) * 2 ^ (m / 2 ^ 52 - 1) :=
  rfl

theorem nearestMagnitude_eq (num den : Nat) : nearestMagnitude num den = min infiniteMagnitude
    (((num / den).log2 - 52) * 2 ^ 52 + nearestQuotient num (den * 2 ^ ((num / den).log2 - 52))) :=
  rfl

theorem ofRatio_eq (negative : Bool) (num den : Nat) :
    ofRatio negative num den = ofMagnitude negative (nearestMagnitude (num * 2 ^ 1074) den) :=
  rfl

theorem div_le_nearestQuotient (num den : Nat) : num / den ≤ nearestQuotient num den := by
  unfold nearestQuotient
  dsimp only
  split
  · exact Nat.le_refl _
  · split <;> omega

theorem nearestQuotient_le (num den : Nat) : nearestQuotient num den ≤ num / den + 1 := by
  unfold nearestQuotient
  dsimp only
  split
  · omega
  · split <;> omega

theorem nearestQuotient_mono {num num' : Nat} (den : Nat) (h : num ≤ num') :
    nearestQuotient num den ≤ nearestQuotient num' den := by
  rcases Nat.lt_or_eq_of_le (Nat.div_le_div_right (c := den) h) with hq | hq
  · have hl := nearestQuotient_le num den
    have hg := div_le_nearestQuotient num' den
    omega
  · have hr : num % den ≤ num' % den := by
      have hn := Nat.div_add_mod num den
      have hn' := Nat.div_add_mod num' den
      rw [hq] at hn
      omega
    unfold nearestQuotient
    dsimp only
    rw [hq]
    repeat' split
    all_goals omega

/-- A multiple is its own nearest quotient. -/
theorem nearestQuotient_of_dvd {num den : Nat} (hd : 0 < den) (h : den ∣ num) :
    nearestQuotient num den = num / den := by
  have hr := Nat.mod_eq_zero_of_dvd h
  unfold nearestQuotient
  dsimp only
  rw [hr, if_pos (by omega)]

/-- At most 53 bits are left once the shift of `nearestMagnitude` is taken off. -/
theorem div_two_pow_shift_lt (n : Nat) : n / 2 ^ (n.log2 - 52) < 2 ^ 53 := by
  rw [Nat.div_lt_iff_lt_mul (Nat.two_pow_pos _), ← Nat.pow_add]
  exact Nat.lt_of_lt_of_le Nat.lt_log2_self (Nat.pow_le_pow_right (by decide) (by omega))

/-- Exactly 53 bits are left if there is anything to take off. -/
theorem le_div_two_pow_shift {n : Nat} (h : 0 < n.log2 - 52) : 2 ^ 52 ≤ n / 2 ^ (n.log2 - 52) := by
  have hn : n ≠ 0 := by
    rintro rfl
    simp at h
  rw [Nat.le_div_iff_mul_le (Nat.two_pow_pos _), ← Nat.pow_add]
  exact Nat.le_trans (Nat.pow_le_pow_right (by decide) (by omega)) (Nat.log2_self_le hn)

theorem log2_le_log2 {m n : Nat} (h : m ≤ n) : m.log2 ≤ n.log2 := by
  rcases Nat.eq_zero_or_pos m with rfl | hm
  · simp
  · exact (Nat.le_log2 (by omega)).2 (Nat.le_trans (Nat.log2_self_le (by omega)) h)

theorem nearestMagnitude_mono {num num' : Nat} (den : Nat) (h : num ≤ num') :
    nearestMagnitude num den ≤ nearestMagnitude num' den := by
  have hdiv := Nat.div_le_div_right (c := den) h
  have hs : (num / den).log2 - 52 ≤ (num' / den).log2 - 52 :=
    Nat.sub_le_sub_right (log2_le_log2 hdiv) 52
  rw [nearestMagnitude_eq, nearestMagnitude_eq]
  apply Nat.le_min.2 ⟨Nat.min_le_left _ _, Nat.le_trans (Nat.min_le_right _ _) ?_⟩
  rcases Nat.lt_or_eq_of_le hs with hlt | heq
  · -- A greater exponent: the smaller number carries at most into the next binade.
    have hu := nearestQuotient_le num (den * 2 ^ ((num / den).log2 - 52))
    have hl := div_le_nearestQuotient num' (den * 2 ^ ((num' / den).log2 - 52))
    rw [← Nat.div_div_eq_div_mul] at hu hl
    have hb := div_two_pow_shift_lt (num / den)
    have ha := le_div_two_pow_shift (n := num' / den) (by omega)
    omega
  · rw [heq]
    exact Nat.add_le_add_left (nearestQuotient_mono _ h) _

theorem nearestMagnitude_le (num den : Nat) : nearestMagnitude num den ≤ infiniteMagnitude :=
  Nat.min_le_left _ _

/-- The fraction bits and the exponent of a finite magnitude, read back. -/
theorem units_shift_add {shift quotient : Nat} (hq : quotient < 2 ^ 53)
    (hs : shift = 0 ∨ 2 ^ 52 ≤ quotient) : units (shift * 2 ^ 52 + quotient) = quotient * 2 ^ shift := by
  rw [units_eq]
  by_cases hsmall : quotient < 2 ^ 52
  · have h0 : shift = 0 := by omega
    subst h0
    rw [if_pos (by omega)]
    omega
  · have hdiv : (shift * 2 ^ 52 + quotient) / 2 ^ 52 = shift + 1 := by omega
    have hmod : 2 ^ 52 + (shift * 2 ^ 52 + quotient) % 2 ^ 52 = quotient := by omega
    rw [hdiv, if_neg (by omega), hmod, Nat.add_sub_cancel]

/-- A finite number of units that ends in enough zeros is a magnitude exactly. -/
theorem units_nearestMagnitude {n : Nat} (hn : n < 2 ^ 2098) (hd : 2 ^ (n.log2 - 52) ∣ n) :
    units (nearestMagnitude n 1) = n := by
  have hq := div_two_pow_shift_lt n
  have hshift : n.log2 - 52 ≤ 2045 := by
    rcases Nat.eq_zero_or_pos n with rfl | hpos
    · simp
    · have := (Nat.log2_lt (by omega)).2 hn
      omega
  have hm : nearestMagnitude n 1 = (n.log2 - 52) * 2 ^ 52 + n / 2 ^ (n.log2 - 52) := by
    rw [nearestMagnitude_eq, Nat.div_one, Nat.one_mul, nearestQuotient_of_dvd (Nat.two_pow_pos _) hd]
    refine Nat.min_eq_right ?_
    unfold infiniteMagnitude
    omega
  rw [hm, units_shift_add hq]
  · exact Nat.div_mul_cancel hd
  · rcases Nat.eq_zero_or_pos (n.log2 - 52) with h0 | h0
    · exact Or.inl h0
    · exact Or.inr (le_div_two_pow_shift h0)

def intMagnitude (n : Nat) : Nat := nearestMagnitude (n * 2 ^ 1074) 1

theorem intMagnitude_mono {m n : Nat} (h : m ≤ n) : intMagnitude m ≤ intMagnitude n :=
  nearestMagnitude_mono 1 (Nat.mul_le_mul_right _ h)

theorem orderKey_ofMagnitude {negative : Bool} {m : Nat} (h : m ≤ infiniteMagnitude) :
    (ofMagnitude negative m).orderKey = if negative then -(m : Int) else m := by
  have hm : m < 2 ^ 63 := Nat.lt_of_le_of_lt h (by decide)
  have hbits : (ofMagnitude negative m).bits.toNat = if negative then 2 ^ 63 + m else m := by
    rw [ofMagnitude_eq, UInt64.toNat_ofNat_of_lt']
    split
    · exact Nat.lt_of_lt_of_le (Nat.add_lt_add_left hm _) (by decide)
    · exact Nat.lt_trans hm (by decide)
  have hmag : (ofMagnitude negative m).magnitude = m := by
    rw [magnitude_eq, hbits]
    split <;> omega
  have hneg : (ofMagnitude negative m).isNegative = negative := by
    rw [isNegative_eq, hbits]
    cases negative
    · simp
      omega
    · simp
  have hnan : (ofMagnitude negative m).isNaN = false := by
    unfold isNaN
    rw [hmag]
    simpa using h
  simp [orderKey, hnan, hneg, hmag]

theorem orderKey_ofInt (i : Int) :
    (ofInt i).orderKey = if i < 0 then -(intMagnitude i.natAbs : Int) else intMagnitude i.natAbs := by
  rw [ofInt, ofRatio_eq, orderKey_ofMagnitude (nearestMagnitude_le _ _)]
  simp only [decide_eq_true_eq, intMagnitude]

/-- Rounding keeps the order of integers, though it may make two of them equal. -/
theorem orderKey_ofInt_mono {i j : Int} (h : i ≤ j) : (ofInt i).orderKey ≤ (ofInt j).orderKey := by
  rw [orderKey_ofInt, orderKey_ofInt]
  by_cases hi : i < 0
  · by_cases hj : j < 0
    · have := intMagnitude_mono (m := j.natAbs) (n := i.natAbs) (by omega)
      rw [if_pos hi, if_pos hj]
      omega
    · rw [if_pos hi, if_neg hj]
      omega
  · have := intMagnitude_mono (m := i.natAbs) (n := j.natAbs) (by omega)
    rw [if_neg hi, if_neg (by omega)]
    omega

/-- Integers with at most 53 significant bits are represented exactly, in every binade. -/
theorem units_nearestMagnitude_scaled {n e : Nat} (h : n ≤ 2 ^ 53) (he : e < 2045) :
    units (nearestMagnitude (n * 2 ^ e) 1) = n * 2 ^ e := by
  apply units_nearestMagnitude
  · calc n * 2 ^ e ≤ 2 ^ 53 * 2 ^ e := Nat.mul_le_mul_right _ h
      _ = 2 ^ (53 + e) := (Nat.pow_add 2 53 e).symm
      _ < 2 ^ 2098 := Nat.pow_lt_pow_right (by decide) (by omega)
  · rcases Nat.lt_or_eq_of_le h with hlt | rfl
    · have hlog : (n * 2 ^ e).log2 < 53 + e := by
        rcases Nat.eq_zero_or_pos n with rfl | hn
        · rw [Nat.zero_mul, Nat.log2_zero]
          omega
        · have hne : n * 2 ^ e ≠ 0 := Nat.mul_ne_zero (by omega) (Nat.ne_of_gt (Nat.two_pow_pos _))
          rw [Nat.log2_lt hne, Nat.pow_add]
          exact Nat.mul_lt_mul_of_pos_right hlt (Nat.two_pow_pos _)
      exact Nat.dvd_mul_left_of_dvd (Nat.pow_dvd_pow 2 (by omega)) n
    · rw [← Nat.pow_add, Nat.log2_two_pow]
      exact Nat.pow_dvd_pow 2 (by omega)

theorem units_intMagnitude {n : Nat} (h : n ≤ 2 ^ 53) : units (intMagnitude n) = n * 2 ^ 1074 :=
  @units_nearestMagnitude_scaled n 1074 h (by decide)

theorem intMagnitude_injOn {m n : Nat} (hm : m ≤ 2 ^ 53) (hn : n ≤ 2 ^ 53)
    (h : intMagnitude m = intMagnitude n) : m = n := by
  have hu := (units_intMagnitude hm).symm.trans ((congrArg units h).trans (units_intMagnitude hn))
  exact Nat.eq_of_mul_eq_mul_right (Nat.two_pow_pos _) hu

theorem intMagnitude_eq_zero {n : Nat} (hn : n ≤ 2 ^ 53) (h : intMagnitude n = 0) : n = 0 := by
  have hz : units 0 = 0 := rfl
  have hu := (units_intMagnitude hn).symm.trans ((congrArg units h).trans hz)
  exact (Nat.mul_eq_zero.1 hu).resolve_right (Nat.ne_of_gt (Nat.two_pow_pos 1074))

/-- Among integers of moderate size the order is the order of their roundings. -/
theorem orderKey_ofInt_strictMono {i j : Int} (hi : i.natAbs ≤ 2 ^ 53) (hj : j.natAbs ≤ 2 ^ 53)
    (h : i < j) : (ofInt i).orderKey < (ofInt j).orderKey := by
  refine Int.lt_iff_le_and_ne.2 ⟨orderKey_ofInt_mono (Int.le_of_lt h), fun he => ?_⟩
  rw [orderKey_ofInt, orderKey_ofInt] at he
  by_cases hneg : i < 0
  · by_cases hneg' : j < 0
    · rw [if_pos hneg, if_pos hneg'] at he
      have := intMagnitude_injOn hi hj (by omega)
      omega
    · rw [if_pos hneg, if_neg hneg'] at he
      have := intMagnitude_eq_zero hi (by omega)
      omega
  · rw [if_neg hneg, if_neg (by omega)] at he
    have := intMagnitude_injOn hi hj (by omega)
    omega

end TableQuery.Binary64
