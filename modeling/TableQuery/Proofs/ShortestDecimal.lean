import TableQuery.Proofs.DecimalRounding

/-! # The fewest digits

The decimal number that a size is written as is rounded to this size again. It reaches every power of ten
that the size reaches, none of the great ones that the size does not, and it is whole where the size is.
-/
namespace TableQuery.Decimal
open Binary64

variable {m : Nat}

theorem neighbour?_eq_some {cut step : Nat} {d : Decimal} (h : neighbour? m cut step = some d) :
    (d = below cut step ∨ d = above cut step) ∧ ofDecimal d = ofMagnitude false m := by
  unfold neighbour? at h
  dsimp only at h
  refine ⟨?_, by simpa using List.find?_some h⟩
  have hmem := List.mem_of_find?_eq_some h
  split at hmem <;> simp only [List.mem_cons, List.not_mem_nil, or_false] at hmem
  · exact hmem
  · exact hmem.symm

theorem neighbour?_ne_none_of_below {cut step : Nat} (h : ofDecimal (below cut step) = ofMagnitude false m) :
    neighbour? m cut step ≠ none := by
  unfold neighbour?
  dsimp only
  rw [← Option.isSome_iff_ne_none, List.find?_isSome]
  refine ⟨below cut step, ?_, by simp [h]⟩
  split <;> simp

theorem findSome?_range_eq_some {α : Type} {f : Nat → Option α} {n : Nat} {a : α}
    (h : (List.range n).findSome? f = some a) : ∃ i < n, f i = some a ∧ ∀ j < i, f j = none := by
  induction n with
  | zero => cases h
  | succ n ih =>
    rw [List.range_succ, List.findSome?_append] at h
    cases hn : (List.range n).findSome? f with
    | some b =>
      rw [hn] at h
      obtain ⟨i, hi, hfi, hbefore⟩ := ih (hn.trans h)
      exact ⟨i, Nat.lt_succ_of_lt hi, hfi, hbefore⟩
    | none =>
      rw [hn] at h
      refine ⟨n, Nat.lt_succ_self n, by simpa using h, fun j hj => ?_⟩
      exact List.findSome?_eq_none_iff.1 hn j (List.mem_range.2 hj)

def cutSize (m : Nat) : Nat := (Nat.toDigits 10 (cutPlaces m)).length

/-- The digits are a neighbour on the first grid with one that reads back, or else all digits. -/
theorem shortest_cases (m : Nat) :
    (∃ i < 17, neighbour? m (cutPlaces m) (cutSize m - (i + 1)) = some (shortest m) ∧
      ∀ j < i, neighbour? m (cutPlaces m) (cutSize m - (j + 1)) = none) ∨
    shortest m = exact m ∧ ∀ i < 17, neighbour? m (cutPlaces m) (cutSize m - (i + 1)) = none := by
  have hshortest : shortest m = ((List.range 17).findSome? fun i =>
      neighbour? m (cutPlaces m) (cutSize m - (i + 1))).getD (exact m) := rfl
  cases hfind : (List.range 17).findSome? fun i => neighbour? m (cutPlaces m) (cutSize m - (i + 1)) with
  | none =>
    refine .inr ⟨by rw [hshortest, hfind, Option.getD_none], fun i hi => ?_⟩
    exact List.findSome?_eq_none_iff.1 hfind i (List.mem_range.2 hi)
  | some d =>
    rw [hshortest, hfind, Option.getD_some]
    exact .inl (findSome?_range_eq_some hfind)

theorem negative_shortest (m : Nat) : (shortest m).negative = false := by
  rcases shortest_cases m with ⟨i, -, hi, -⟩ | ⟨hexact, -⟩
  · rcases (neighbour?_eq_some hi).1 with h | h <;> rw [h] <;> rfl
  · rw [hexact]
    rfl

/-- The digits read back. -/
theorem decimalMagnitude_shortest (hpos : 0 < m) (h : m < infiniteMagnitude) :
    decimalMagnitude (shortest m) = m := by
  rcases shortest_cases m with ⟨i, -, hi, -⟩ | ⟨hexact, -⟩
  · have hread := (neighbour?_eq_some hi).2
    rw [ofDecimal_eq, negative_shortest] at hread
    exact ofMagnitude_injOn (decimalMagnitude_le _) (Nat.le_of_lt h) hread
  · rw [hexact, decimalMagnitude_exact hpos h]

theorem cutPlaces_eq (m : Nat) : cutPlaces m = units m * 10 ^ places / one := by
  unfold cutPlaces one
  rfl

theorem length_toDigits_mono {a b : Nat} (h : a ≤ b) :
    (Nat.toDigits 10 a).length ≤ (Nat.toDigits 10 b).length := by
  have hb : b < 10 ^ (Nat.toDigits 10 b).length :=
    (Nat.length_toDigits_le_iff (by decide) Nat.length_toDigits_pos).1 (Nat.le_refl _)
  exact (Nat.length_toDigits_le_iff (by decide) Nat.length_toDigits_pos).2 (Nat.lt_of_le_of_lt h hb)

theorem length_toDigits_le_add (n step : Nat) :
    (Nat.toDigits 10 n).length ≤ (Nat.toDigits 10 (n / 10 ^ step)).length + step := by
  have hquotient : n / 10 ^ step < 10 ^ (Nat.toDigits 10 (n / 10 ^ step)).length :=
    (Nat.length_toDigits_le_iff (by decide) Nat.length_toDigits_pos).1 (Nat.le_refl _)
  rw [Nat.div_lt_iff_lt_mul (Nat.pow_pos (by decide)), ← Nat.pow_add] at hquotient
  exact (Nat.length_toDigits_le_iff (by decide) (Nat.add_pos_left Nat.length_toDigits_pos _)).2 hquotient

theorem lt_length_toDigits {n k : Nat} (h : 10 ^ k ≤ n) : k < (Nat.toDigits 10 n).length := by
  rcases Nat.eq_zero_or_pos k with rfl | hk
  · exact Nat.length_toDigits_pos
  · exact Nat.lt_of_not_le fun hle =>
      Nat.not_lt_of_le h ((Nat.length_toDigits_le_iff (by decide) hk).1 hle)

theorem pow_length_toDigits_le {n : Nat} (h : n ≠ 0) : 10 ^ ((Nat.toDigits 10 n).length - 1) ≤ n := by
  rcases Nat.eq_zero_or_pos ((Nat.toDigits 10 n).length - 1) with hzero | hpos
  · rw [hzero]
    exact Nat.pos_of_ne_zero h
  · refine Nat.le_of_not_lt fun hlt => ?_
    have := (Nat.length_toDigits_le_iff (by decide) hpos).2 hlt
    omega

theorem decimalTop_below_le (cut step : Nat) :
    ((Nat.toDigits 10 cut).length : Int) - places ≤ decimalTop (below cut step) := by
  have hlength := length_toDigits_le_add cut step
  change _ ≤ ((step : Int) - places) + (Nat.toDigits 10 (cut / 10 ^ step)).length
  omega

theorem decimalTop_above_le (cut step : Nat) :
    ((Nat.toDigits 10 cut).length : Int) - places ≤ decimalTop (above cut step) := by
  have hlength := length_toDigits_le_add cut step
  have hmono := length_toDigits_mono (Nat.le_add_right (cut / 10 ^ step) 1)
  change _ ≤ ((step : Int) - places) + (Nat.toDigits 10 (cut / 10 ^ step + 1)).length
  omega

theorem ten_pow_add_le {k e unit size : Nat} (hunit : unit = 2 ^ e) (h : 10 ^ k * unit ≤ size) :
    10 ^ (k + e) ≤ size * 5 ^ e := by
  calc 10 ^ (k + e) = 10 ^ k * unit * 5 ^ e := by
        rw [Nat.pow_add, ten_pow e, hunit, Nat.mul_comm (5 ^ e), Nat.mul_assoc]
    _ ≤ size * 5 ^ e := Nat.mul_le_mul_right _ h

theorem decimalTop_exact (m : Nat) :
    decimalTop (exact m) = -1074 + (Nat.toDigits 10 (units m * 5 ^ 1074)).length :=
  rfl

/-- A power of ten that the size reaches is reached by its digits. -/
theorem lt_decimalTop_shortest {k : Nat} (h : 10 ^ k * one ≤ units m) :
    (k : Int) < decimalTop (shortest m) := by
  rcases shortest_cases m with ⟨i, -, hi, -⟩ | ⟨hexact, -⟩
  · have hcut : 10 ^ (k + places) ≤ cutPlaces m := by
      rw [cutPlaces_eq, Nat.le_div_iff_mul_le pos_one, Nat.pow_add, Nat.mul_right_comm]
      exact Nat.mul_le_mul_right _ h
    have hsize := lt_length_toDigits hcut
    have hneighbour : ((Nat.toDigits 10 (cutPlaces m)).length : Int) - places ≤ decimalTop (shortest m) := by
      rcases (neighbour?_eq_some hi).1 with h | h <;> rw [h]
      · exact decimalTop_below_le _ _
      · exact decimalTop_above_le _ _
    omega
  · have hlength := lt_length_toDigits (ten_pow_add_le one_eq h)
    rw [hexact, decimalTop_exact]
    omega

/-- A power of ten below the top of a decimal number is below what the number is rounded to. -/
theorem nearestMagnitude_le_decimalMagnitude {d : Decimal} {k : Nat} (hd : d.coefficient ≠ 0)
    (h : (k : Int) < decimalTop d) : nearestMagnitude (10 ^ k * one) 1 ≤ decimalMagnitude d := by
  have htiny : ¬(d.coefficient = 0 ∨ decimalTop d ≤ -tinyZeros) := by
    rintro (hzero | hsmall)
    · exact hd hzero
    · unfold tinyZeros at hsmall
      omega
  unfold decimalMagnitude
  rw [if_neg htiny]
  split
  · exact nearestMagnitude_le _ _
  · have hlength : 10 ^ ((Nat.toDigits 10 d.coefficient).length - 1) ≤ d.coefficient :=
      pow_length_toDigits_le hd
    unfold decimalTop at h
    apply nearestMagnitude_le_of_mul_le (by decide) (Nat.pow_pos (by decide))
    calc 10 ^ k * one * 10 ^ (-d.exponent).toNat
        = 10 ^ (k + (-d.exponent).toNat) * one := by
          rw [Nat.pow_add]
          ac_rfl
      _ ≤ 10 ^ ((Nat.toDigits 10 d.coefficient).length - 1 + d.exponent.toNat) * one :=
          Nat.mul_le_mul_right _ (Nat.pow_le_pow_right (by decide) (by omega))
      _ ≤ d.coefficient * 10 ^ d.exponent.toNat * one * 1 := by
          rw [Nat.pow_add, Nat.mul_one]
          exact Nat.mul_le_mul_right _ (Nat.mul_le_mul_right _ hlength)

/-- A power of ten with few digits in binary is a number. -/
theorem units_ten_pow {k e unit : Nat} (hunit : unit = 2 ^ e) (hk : 5 ^ k ≤ 2 ^ 53) (he : k + e < 2045) :
    units (nearestMagnitude (10 ^ k * unit) 1) = 10 ^ k * unit := by
  have hpow : 10 ^ k * unit = 5 ^ k * 2 ^ (k + e) := by
    rw [ten_pow, hunit, Nat.pow_add, Nat.mul_assoc]
  rw [hpow, units_nearestMagnitude_scaled hk he]

/-- The digits of a size reach just the powers of ten that the size reaches. -/
theorem lt_decimalTop_shortest_iff {k : Nat} (hk : 5 ^ k ≤ 2 ^ 53) (hsmall : k < 971) (hpos : 0 < m)
    (hm : m < infiniteMagnitude) : (k : Int) < decimalTop (shortest m) ↔ 10 ^ k * one ≤ units m := by
  refine ⟨fun h => ?_, lt_decimalTop_shortest⟩
  have hread := decimalMagnitude_shortest hpos hm
  have hne : (shortest m).coefficient ≠ 0 := by
    intro hzero
    rw [decimalMagnitude, if_pos (.inl hzero)] at hread
    omega
  have hle := nearestMagnitude_le_decimalMagnitude hne h
  rw [hread] at hle
  have hunits := units_mono hm hle
  rwa [units_ten_pow one_eq hk (by omega)] at hunits

theorem cutPlaces_of_units {n : Nat} (h : units m = n * one) : cutPlaces m = n * 10 ^ places := by
  rw [cutPlaces_eq, h, Nat.mul_right_comm, Nat.mul_div_cancel _ pos_one]

theorem exists_units_eq_mul_one (h : one ∣ units m) (hpos : 0 < m) (hm : m < infiniteMagnitude) :
    ∃ n, units m = n * one ∧ 0 < n ∧ (Nat.toDigits 10 n).length < 311 := by
  obtain ⟨n, hn⟩ := h
  rw [Nat.mul_comm] at hn
  have hunits := units_pos hpos
  refine ⟨n, hn, ?_, ?_⟩
  · rw [hn] at hunits
    exact Nat.pos_of_mul_pos_right hunits
  · have hlt := units_lt hm
    have hfactor : 2 ^ (53 + 2045) = 2 ^ 1024 * one := by
      rw [one_eq, ← Nat.pow_add]
    rw [hn, hfactor] at hlt
    have hdigits : 2 ^ 1024 ≤ 10 ^ 310 := by decide +kernel
    have hlength := (Nat.length_toDigits_le_iff (by decide : 1 < 10) (by decide : 0 < 310)).2
      (Nat.lt_of_lt_of_le (Nat.lt_of_mul_lt_mul_right hlt) hdigits)
    omega

/-- A whole number is on the grid of the ones. -/
theorem decimalMagnitude_of_units {n : Nat} (h : units m = n * one) (hn : 0 < n)
    (hlength : (Nat.toDigits 10 n).length < 311) (hm : m < infiniteMagnitude) (negative : Bool) :
    decimalMagnitude ⟨negative, n, 0⟩ = m := by
  rw [decimalMagnitude_natural hn hlength, intMagnitude, ← one_eq, ← h, nearestMagnitude_units hm]

theorem ten_pow_dvd {e unit : Nat} (hunit : unit = 2 ^ e) (n : Nat) : 10 ^ e ∣ n * unit * 5 ^ e := by
  rw [ten_pow, hunit, Nat.mul_assoc, Nat.mul_comm (2 ^ e)]
  exact Nat.dvd_mul_left _ _

/-- The digits of a whole number are none behind the point. -/
theorem pow_dvd_coefficient_shortest (h : one ∣ units m) (hpos : 0 < m) (hm : m < infiniteMagnitude) :
    10 ^ (-(shortest m).exponent).toNat ∣ (shortest m).coefficient := by
  obtain ⟨n, hunits, hn, hlength⟩ := exists_units_eq_mul_one h hpos hm
  have hcut := cutPlaces_of_units hunits
  have hsize : cutSize m = (Nat.toDigits 10 n).length + places := by
    rw [cutSize, hcut, toDigits_mul_pow hn, List.length_append, List.length_replicate]
  have hbelow : ofDecimal (below (cutPlaces m) places) = ofMagnitude false m := by
    have hones : below (cutPlaces m) places = ⟨false, n, 0⟩ := by
      rw [hcut, below, Int.sub_self]
      change (⟨false, n * 10 ^ places / 10 ^ places, 0⟩ : Decimal) = _
      rw [Nat.mul_div_cancel _ (Nat.pow_pos (by decide))]
    rw [hones, ofDecimal_eq, decimalMagnitude_of_units hunits hn hlength hm]
  rcases shortest_cases m with ⟨i, -, hi, hbefore⟩ | ⟨hexact, -⟩
  · have hstep : places ≤ cutSize m - (i + 1) := by
      have hpositive : 0 < (Nat.toDigits 10 n).length := Nat.length_toDigits_pos
      -- The search goes no further than to the grid of the ones.
      have hnotBefore : ¬(Nat.toDigits 10 n).length - 1 < i := by
        intro hlt
        have hnone := hbefore _ hlt
        rw [hsize, Nat.sub_add_cancel hpositive, Nat.add_sub_cancel_left] at hnone
        exact neighbour?_ne_none_of_below hbelow hnone
      omega
    have hexponent : (shortest m).exponent = ((cutSize m - (i + 1) : Nat) : Int) - places := by
      rcases (neighbour?_eq_some hi).1 with h | h <;> rw [h] <;> rfl
    have hnatural : (-(shortest m).exponent).toNat = 0 := by
      rw [hexponent, Int.toNat_eq_zero]
      exact Int.neg_nonpos_of_nonneg (Int.sub_nonneg_of_le (Int.ofNat_le.2 hstep))
    rw [hnatural, Nat.pow_zero]
    exact Nat.one_dvd _
  · have hexponent : (exact m).exponent = -1074 := rfl
    have hcoefficient : (exact m).coefficient = units m * 5 ^ 1074 := rfl
    have hplaces : (-(-1074 : Int)).toNat = 1074 := rfl
    rw [hexact, hexponent, hcoefficient, hplaces, hunits]
    exact ten_pow_dvd one_eq n

end TableQuery.Decimal
