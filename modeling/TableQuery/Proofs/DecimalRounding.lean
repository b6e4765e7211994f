import TableQuery.Binary64.Decimal
import TableQuery.Proofs.Rounding

/-! # Rounding decimal numbers

What a decimal number is rounded to depends on its value only, not on how many zeros its coefficient ends
in. Every finite size is the rounding of its own value, so the fewest digits that are looked for read back.
-/
namespace TableQuery.Binary64

theorem nearestQuotient_mul {k : Nat} (hk : 0 < k) (num den : Nat) :
    nearestQuotient (k * num) (k * den) = nearestQuotient num den := by
  unfold nearestQuotient
  dsimp only
  have hlow : 2 * (k * (num % den)) < k * den ↔ 2 * (num % den) < den := by
    rw [Nat.mul_left_comm, Nat.mul_lt_mul_left hk]
  have hhigh : k * den < 2 * (k * (num % den)) ↔ den < 2 * (num % den) := by
    rw [Nat.mul_left_comm, Nat.mul_lt_mul_left hk]
  rw [Nat.mul_div_mul_left _ _ hk, Nat.mul_mod_mul_left]
  simp only [hlow, hhigh]

theorem nearestMagnitude_mul {k : Nat} (hk : 0 < k) (num den : Nat) :
    nearestMagnitude (k * num) (k * den) = nearestMagnitude num den := by
  rw [nearestMagnitude_eq, nearestMagnitude_eq, Nat.mul_div_mul_left _ _ hk, Nat.mul_assoc,
    nearestQuotient_mul hk]

/-- Equal ratios are rounded alike, and a smaller one to no greater size. -/
theorem nearestMagnitude_le_of_mul_le {num den num' den' : Nat} (hd : 0 < den) (hd' : 0 < den')
    (h : num * den' ≤ num' * den) : nearestMagnitude num den ≤ nearestMagnitude num' den' := by
  calc nearestMagnitude num den = nearestMagnitude (den' * num) (den' * den) :=
        (nearestMagnitude_mul hd' num den).symm
    _ ≤ nearestMagnitude (den * num') (den' * den) := by
        rw [Nat.mul_comm den', Nat.mul_comm den num']
        exact nearestMagnitude_mono _ h
    _ = nearestMagnitude num' den' := by
        rw [Nat.mul_comm den' den, nearestMagnitude_mul hd]

theorem nearestMagnitude_congr {num den num' den' : Nat} (hd : 0 < den) (hd' : 0 < den')
    (h : num * den' = num' * den) : nearestMagnitude num den = nearestMagnitude num' den' :=
  Nat.le_antisymm (nearestMagnitude_le_of_mul_le hd hd' (Nat.le_of_eq h))
    (nearestMagnitude_le_of_mul_le hd' hd (Nat.le_of_eq h.symm))

theorem units_pos {m : Nat} (h : 0 < m) : 0 < units m := by
  rw [units_eq]
  split
  · exact h
  · exact Nat.mul_pos (by omega) (Nat.two_pow_pos _)

theorem units_lt {m : Nat} (h : m < infiniteMagnitude) : units m < 2 ^ (53 + 2045) := by
  have hexponent : m / 2 ^ 52 - 1 ≤ 2045 := by
    unfold infiniteMagnitude at h
    omega
  have hone : 1 ≤ 2 ^ (m / 2 ^ 52 - 1) := Nat.two_pow_pos _
  rw [Nat.pow_add]
  refine Nat.lt_of_lt_of_le ?_ (Nat.mul_le_mul_left _ (Nat.pow_le_pow_right (by decide) hexponent))
  rw [units_eq]
  split
  next h0 =>
    have hm : m < 2 ^ 53 := by omega
    exact Nat.lt_of_lt_of_le hm (Nat.le_mul_of_pos_right _ hone)
  next h0 => exact Nat.mul_lt_mul_of_pos_right (by omega) hone

theorem log2_mul_two_pow {n e : Nat} (hn : n ≠ 0) : (n * 2 ^ e).log2 = n.log2 + e := by
  have hpos := Nat.two_pow_pos e
  have hne : n * 2 ^ e ≠ 0 := Nat.mul_ne_zero hn (Nat.ne_of_gt hpos)
  rw [Nat.log2_eq_iff hne, Nat.pow_add, Nat.pow_add, Nat.pow_add, Nat.mul_right_comm]
  exact ⟨Nat.mul_le_mul_right _ (Nat.log2_self_le hn), Nat.mul_lt_mul_of_pos_right Nat.lt_log2_self hpos⟩

/-- Every finite size is what its own value is rounded to. -/
theorem nearestMagnitude_units {m : Nat} (h : m < infiniteMagnitude) : nearestMagnitude (units m) 1 = m := by
  have hshift : ∃ shift quotient, m = shift * 2 ^ 52 + quotient ∧ quotient < 2 ^ 53 ∧
      (shift = 0 ∨ 2 ^ 52 ≤ quotient) := by
    by_cases h0 : m / 2 ^ 52 = 0
    · exact ⟨0, m, by omega, by omega, .inl rfl⟩
    · exact ⟨m / 2 ^ 52 - 1, 2 ^ 52 + m % 2 ^ 52, by omega, by omega, .inr (by omega)⟩
  obtain ⟨shift, quotient, hm, hq, hs⟩ := hshift
  have hlog : (quotient * 2 ^ shift).log2 - 52 = shift := by
    rcases hs with rfl | hs
    · rw [Nat.pow_zero, Nat.mul_one]
      rcases Nat.eq_zero_or_pos quotient with rfl | hpos
      · simp
      · have := (Nat.log2_lt (by omega)).2 hq
        omega
    · have hne : quotient ≠ 0 := by omega
      have hlow := (Nat.le_log2 hne).2 hs
      have hhigh := (Nat.log2_lt hne).2 hq
      rw [log2_mul_two_pow hne]
      omega
  have hunits : units m = quotient * 2 ^ shift := by rw [hm, units_shift_add hq hs]
  rw [hunits, nearestMagnitude_eq, Nat.div_one, Nat.one_mul, hlog,
    nearestQuotient_of_dvd (Nat.two_pow_pos _) (Nat.dvd_mul_left _ _),
    Nat.mul_div_cancel _ (Nat.two_pow_pos _), ← hm]
  exact Nat.min_eq_right (Nat.le_of_lt h)

/-- Greater sizes have greater values. -/
theorem units_mono {m m' : Nat} (hm' : m' < infiniteMagnitude) (h : m ≤ m') : units m ≤ units m' := by
  refine Nat.le_of_not_lt fun hlt => ?_
  have hle := nearestMagnitude_mono 1 (Nat.le_of_lt hlt)
  rw [nearestMagnitude_units hm', nearestMagnitude_units (Nat.lt_of_le_of_lt h hm')] at hle
  rw [Nat.le_antisymm h hle] at hlt
  exact Nat.lt_irrefl _ hlt

@[irreducible] def one : Nat := 2 ^ 1074

theorem one_eq : one = 2 ^ 1074 := by
  unfold one
  rfl

theorem pos_one : 0 < one := by
  unfold one
  exact Nat.two_pow_pos _

theorem isWhole_eq (x : Binary64) : x.isWhole = (x.isFinite && units x.magnitude % one == 0) := by
  unfold one
  rfl

theorem ofRatio_eq_one (negative : Bool) (num den : Nat) :
    ofRatio negative num den = ofMagnitude negative (nearestMagnitude (num * one) den) := by
  unfold one
  rfl

theorem toDigits_mul_pow {c : Nat} (hc : 0 < c) (k : Nat) :
    Nat.toDigits 10 (c * 10 ^ k) = Nat.toDigits 10 c ++ List.replicate k '0' := by
  induction k with
  | zero => rw [Nat.pow_zero, Nat.mul_one, List.replicate_zero, List.append_nil]
  | succ k ih =>
    have hpos : 0 < c * 10 ^ k := Nat.mul_pos hc (Nat.pow_pos (by decide))
    have hshift := Nat.toDigits_append_toDigits (d := 0) (by decide : 1 < 10) hpos (by decide)
    have hmul : c * 10 ^ (k + 1) = 10 * (c * 10 ^ k) + 0 := by
      rw [Nat.pow_succ, Nat.add_zero, Nat.mul_comm 10, Nat.mul_assoc]
    rw [hmul, ← hshift, ih, Nat.toDigits_zero, List.append_assoc, List.replicate_succ']

def decimalTop (d : Decimal) : Int := d.exponent + (Nat.toDigits 10 d.coefficient).length

def decimalMagnitude (d : Decimal) : Nat :=
  if d.coefficient = 0 ∨ decimalTop d ≤ -tinyZeros then 0
  else if hugeDigits ≤ decimalTop d then infiniteMagnitude
  else nearestMagnitude (d.coefficient * 10 ^ d.exponent.toNat * one) (10 ^ (-d.exponent).toNat)

theorem ofDecimal_eq (d : Decimal) : ofDecimal d = ofMagnitude d.negative (decimalMagnitude d) := by
  unfold ofDecimal decimalMagnitude decimalTop
  simp only [ofRatio_eq_one]
  split
  · rfl
  · split <;> rfl

theorem nearestMagnitude_shift (c k : Nat) (e : Int) :
    nearestMagnitude (c * 10 ^ k * 10 ^ e.toNat * one) (10 ^ (-e).toNat) =
      nearestMagnitude (c * 10 ^ (e + k).toNat * one) (10 ^ (-(e + k)).toNat) := by
  apply nearestMagnitude_congr (Nat.pow_pos (by decide)) (Nat.pow_pos (by decide))
  have hexponents : k + e.toNat + (-(e + k)).toNat = (e + k).toNat + (-e).toNat := by omega
  calc c * 10 ^ k * 10 ^ e.toNat * one * 10 ^ (-(e + k)).toNat
      = c * 10 ^ (k + e.toNat + (-(e + k)).toNat) * one := by
        rw [Nat.pow_add, Nat.pow_add]
        ac_rfl
    _ = c * 10 ^ (e + k).toNat * one * 10 ^ (-e).toNat := by
        rw [hexponents, Nat.pow_add]
        ac_rfl

/-- Zeros at the end of the coefficient may be moved into the exponent. -/
theorem decimalMagnitude_shift (negative negative' : Bool) (c k : Nat) (e : Int) :
    decimalMagnitude ⟨negative, c * 10 ^ k, e⟩ = decimalMagnitude ⟨negative', c, e + k⟩ := by
  rcases Nat.eq_zero_or_pos c with rfl | hc
  · simp [decimalMagnitude]
  have hzero : c * 10 ^ k = 0 ↔ c = 0 := by simp
  have htop : decimalTop ⟨negative, c * 10 ^ k, e⟩ = decimalTop ⟨negative', c, e + k⟩ := by
    simp only [decimalTop, toDigits_mul_pow hc, List.length_append, List.length_replicate]
    omega
  unfold decimalMagnitude
  rw [htop, nearestMagnitude_shift]
  simp only [hzero]

/-- Without an exponent a decimal number is rounded as the natural number that it is. -/
theorem decimalMagnitude_natural {n : Nat} (hn : 0 < n) (hlength : (Nat.toDigits 10 n).length < 311)
    (negative : Bool) : decimalMagnitude ⟨negative, n, 0⟩ = intMagnitude n := by
  have htop : decimalTop ⟨negative, n, 0⟩ = (Nat.toDigits 10 n).length := Int.zero_add _
  unfold decimalMagnitude intMagnitude
  rw [if_neg, if_neg]
  · change nearestMagnitude (n * 10 ^ 0 * one) (10 ^ 0) = _
    rw [Nat.pow_zero, Nat.mul_one, one_eq]
  · rw [htop, hugeDigits]
    omega
  · rw [htop, tinyZeros]
    rintro (hzero | hsmall)
    · exact absurd hzero (Nat.ne_of_gt hn)
    · omega

theorem ofMagnitude_injOn {negative : Bool} {m m' : Nat} (hm : m ≤ infiniteMagnitude)
    (hm' : m' ≤ infiniteMagnitude) (h : ofMagnitude negative m = ofMagnitude negative m') : m = m' := by
  have hkey := congrArg orderKey h
  rw [orderKey_ofMagnitude hm, orderKey_ofMagnitude hm'] at hkey
  cases negative <;> simp at hkey <;> omega

theorem decimalMagnitude_le (d : Decimal) : decimalMagnitude d ≤ infiniteMagnitude := by
  unfold decimalMagnitude
  split
  · exact Nat.zero_le _
  · split
    · exact Nat.le_refl _
    · exact nearestMagnitude_le _ _

theorem ten_pow (k : Nat) : 10 ^ k = 5 ^ k * 2 ^ k := Nat.mul_pow 5 2 k

theorem nearestMagnitude_cancel {f unit : Nat} (hf : 0 < f) (hu : 0 < unit) (num : Nat) :
    nearestMagnitude (num * f * 10 ^ (-1074 : Int).toNat * unit) (f * unit) = nearestMagnitude num 1 := by
  apply nearestMagnitude_congr (Nat.mul_pos hf hu) (by decide)
  have hone : 10 ^ (-1074 : Int).toNat = 1 := rfl
  rw [hone, Nat.mul_one, Nat.mul_one, Nat.mul_assoc]

/-- All digits of a number are those of a decimal number that is rounded to it. -/
theorem decimalMagnitude_exact {m : Nat} (hpos : 0 < m) (h : m < infiniteMagnitude) :
    decimalMagnitude (Decimal.exact m) = m := by
  have hunits := units_pos hpos
  have hcoefficient : (Decimal.exact m).coefficient = units m * 5 ^ 1074 := rfl
  have hexponent : (Decimal.exact m).exponent = -1074 := rfl
  have hlow : ¬(Nat.toDigits 10 (units m * 5 ^ 1074)).length ≤ 744 := by
    rw [Nat.length_toDigits_le_iff (by decide) (by decide), Nat.not_lt]
    have hfive : 10 ^ 744 ≤ 5 ^ 1074 := by decide +kernel
    exact Nat.le_trans hfive (Nat.le_mul_of_pos_left _ hunits)
  have hhigh : (Nat.toDigits 10 (units m * 5 ^ 1074)).length ≤ 1384 := by
    rw [Nat.length_toDigits_le_iff (by decide) (by decide)]
    have hfive : 2 ^ (53 + 2045) * 5 ^ 1074 ≤ 10 ^ 1384 := by decide +kernel
    exact Nat.lt_of_lt_of_le (Nat.mul_lt_mul_of_pos_right (units_lt h) (Nat.pow_pos (by decide))) hfive
  have htop : decimalTop (Decimal.exact m) = -1074 + (Nat.toDigits 10 (units m * 5 ^ 1074)).length := rfl
  have hten : 10 ^ (-(-1074 : Int)).toNat = 5 ^ 1074 * one := by
    unfold one
    exact ten_pow 1074
  unfold decimalMagnitude
  rw [if_neg, if_neg]
  · rw [hcoefficient, hexponent, hten, nearestMagnitude_cancel (Nat.pow_pos (by decide)) pos_one,
      nearestMagnitude_units h]
  · unfold hugeDigits
    omega
  · unfold tinyZeros
    rw [hcoefficient]
    rintro (hzero | hsmall)
    · exact absurd hzero (Nat.ne_of_gt (Nat.mul_pos hunits (Nat.pow_pos (by decide))))
    · omega

end TableQuery.Binary64
