import TableQuery.Binary64.Text
import TableQuery.Proofs.NumeralSpelling
import TableQuery.Proofs.ShortestDecimal

/-! # Numbers as numerals

Every finite number is written as a numeral, and this numeral is read as the same number.
-/
namespace TableQuery.Binary64
open Text Numeral

theorem ofMagnitude_magnitude (x : Binary64) : ofMagnitude x.isNegative x.magnitude = x := by
  have hlt : x.bits.toNat < 2 ^ 64 := x.bits.toNat_lt
  have hbits : (if x.isNegative then 2 ^ 63 + x.magnitude else x.magnitude) = x.bits.toNat := by
    rw [isNegative_eq, magnitude_eq]
    by_cases h : 2 ^ 63 ≤ x.bits.toNat
    · rw [decide_eq_true h, if_pos rfl]
      omega
    · rw [decide_eq_false h, if_neg Bool.false_ne_true]
      omega
  rw [ofMagnitude_eq, hbits, UInt64.ofNat_toNat]

theorem digitChar_ne_zero {n : Nat} (hpos : 0 < n) (hlt : n < 10) : n.digitChar ≠ '0' := by
  have hall : ∀ k < 10, 0 < k → k.digitChar ≠ '0' := by decide
  exact hall n hlt hpos

/-- The significant digits are those of the coefficient without its factors of ten. -/
theorem significantDigits_eq {c : Nat} (hc : 0 < c) :
    ∃ s k, c = s * 10 ^ k ∧ s % 10 ≠ 0 ∧ significantDigits c = Nat.toDigits 10 s := by
  induction c using Nat.strong_induction_on with
  | _ c ih =>
    by_cases hmod : c % 10 = 0
    · have hq : 0 < c / 10 := by omega
      obtain ⟨s, k, hsk, hs, hdigits⟩ := ih (c / 10) (by omega) hq
      refine ⟨s, k + 1, ?_, hs, ?_⟩
      · rw [Nat.pow_succ, ← Nat.mul_assoc, ← hsk]
        omega
      · have hlast : Nat.toDigits 10 (c / 10 * 10 ^ 1) = Nat.toDigits 10 (c / 10) ++ ['0'] :=
          toDigits_mul_pow hq 1
        rw [Nat.pow_one, Nat.div_mul_cancel (Nat.dvd_of_mod_eq_zero hmod)] at hlast
        rw [← hdigits, significantDigits, hlast, List.reverse_append, List.reverse_singleton,
          List.singleton_append, List.dropWhile_cons_of_pos rfl, significantDigits]
    · refine ⟨c, 0, by omega, hmod, ?_⟩
      have hlast : ∃ front, Nat.toDigits 10 c = front ++ [(c % 10).digitChar] := by
        rw [Nat.toDigits_eq_if (by decide)]
        split
        next h => exact ⟨[], by rw [Nat.mod_eq_of_lt h, List.nil_append]⟩
        next => exact ⟨_, rfl⟩
      obtain ⟨front, hfront⟩ := hlast
      have hchar : (c % 10).digitChar ≠ '0' :=
        digitChar_ne_zero (Nat.pos_of_ne_zero hmod) (Nat.mod_lt _ (by decide))
      rw [significantDigits, hfront, List.reverse_append, List.reverse_singleton, List.singleton_append,
        List.dropWhile_cons_of_neg (by simpa using hchar), List.reverse_cons, List.reverse_reverse]

def positionalNumeral (negative : Bool) (digits : List Char) (top : Int) : Numeral :=
  if top < 0 then ⟨negative, ['0'], some (zeros ((-top).toNat - 1) ++ digits), none⟩
  else if digits.length ≤ top.toNat + 1 then
    ⟨negative, digits ++ zeros (top.toNat + 1 - digits.length), none, none⟩
  else ⟨negative, digits.take (top.toNat + 1), some (digits.drop (top.toNat + 1)), none⟩

def scientificNumeral (negative : Bool) (digits : List Char) (top : Int) : Numeral :=
  ⟨negative, digits.take 1, if digits.length ≤ 1 then none else some (digits.drop 1),
    some (decide (top < 0), Nat.toDigits 10 top.natAbs)⟩

def numeral (x : Binary64) : Numeral :=
  let d := Decimal.shortest x.magnitude
  let digits := significantDigits d.coefficient
  if positionalFrom ≤ decimalTop d - 1 ∧ decimalTop d - 1 ≤ positionalTo then
    positionalNumeral x.isNegative digits (decimalTop d - 1)
  else scientificNumeral x.isNegative digits (decimalTop d - 1)

theorem chars_positionalNumeral (negative : Bool) (digits : List Char) (top : Int) :
    (positionalNumeral negative digits top).chars = signChars negative ++ positional digits top := by
  unfold positionalNumeral positional
  dsimp only
  split
  · simp [chars, fractionChars, exponentChars]
  · split <;> simp [chars, fractionChars, exponentChars]

theorem chars_scientificNumeral (negative : Bool) (digits : List Char) (top : Int) :
    (scientificNumeral negative digits top).chars = signChars negative ++ scientific digits top := by
  unfold scientificNumeral scientific
  split <;> simp [chars, fractionChars, exponentChars]

theorem magnitudeText_eq (m : Nat) : magnitudeText m =
    if positionalFrom ≤ decimalTop (Decimal.shortest m) - 1 ∧
        decimalTop (Decimal.shortest m) - 1 ≤ positionalTo then
      positional (significantDigits (Decimal.shortest m).coefficient) (decimalTop (Decimal.shortest m) - 1)
    else
      scientific (significantDigits (Decimal.shortest m).coefficient) (decimalTop (Decimal.shortest m) - 1) :=
  rfl

theorem textChars_eq {x : Binary64} (hx : x.isFinite = true) (hpos : 0 < x.magnitude) :
    x.textChars = x.numeral.chars := by
  have hlt : x.magnitude < infiniteMagnitude := of_decide_eq_true hx
  have hnan : x.isNaN = false := decide_eq_false (Nat.not_lt_of_gt hlt)
  have hinf : x.isInfinite = false := beq_false_of_ne (Nat.ne_of_lt hlt)
  rw [textChars, hnan, hinf, if_neg Bool.false_ne_true, if_neg (Nat.ne_of_gt hpos),
    if_neg Bool.false_ne_true, magnitudeText_eq]
  change signChars x.isNegative ++ _ = _
  unfold numeral
  dsimp only
  by_cases hrange : positionalFrom ≤ decimalTop (Decimal.shortest x.magnitude) - 1 ∧
      decimalTop (Decimal.shortest x.magnitude) - 1 ≤ positionalTo
  · rw [if_pos hrange, if_pos hrange, chars_positionalNumeral]
  · rw [if_neg hrange, if_neg hrange, chars_scientificNumeral]

section
variable {negative : Bool} {digits : List Char} {top : Int}

theorem length_zeros (n : Nat) : (zeros n).length = n := List.length_replicate

theorem digits_zeros (n : Nat) : Digits (zeros n) := by
  intro c hc
  rw [List.eq_of_mem_replicate hc]
  decide

theorem writable_positionalNumeral (hne : digits ≠ []) (h : Digits digits) :
    (positionalNumeral negative digits top).Writable := by
  unfold positionalNumeral
  split
  · refine ⟨List.cons_ne_nil _ _, digits_zeros 1, ?_, nofun⟩
    rintro _ ⟨⟩
    exact (digits_zeros _).append h
  · split
    · exact ⟨List.append_ne_nil_of_left_ne_nil hne _, h.append (digits_zeros _), nofun, nofun⟩
    · refine ⟨by simpa using hne, h.sublist (List.take_sublist _ _), ?_, nofun⟩
      rintro _ ⟨⟩
      exact h.sublist (List.drop_sublist _ _)

theorem writable_scientificNumeral (hne : digits ≠ []) (h : Digits digits) :
    (scientificNumeral negative digits top).Writable := by
  refine ⟨by simpa [scientificNumeral] using hne, h.sublist (List.take_sublist _ _), ?_, ?_⟩
  · intro cs hcs
    unfold scientificNumeral at hcs
    dsimp only at hcs
    split at hcs
    · cases hcs
    · cases hcs
      exact h.sublist (List.drop_sublist _ _)
  · rintro _ ⟨⟩
    exact ⟨Nat.toDigits_ne_nil, digits_toDigits _⟩

/-- The digits' value with the exponent of the last digit, up to zeros at the end. -/
def HasValue (d : Decimal) (negative : Bool) (c : Nat) (e : Int) : Prop :=
  ∃ k : Nat, d = ⟨negative, c * 10 ^ k, e - k⟩

theorem hasValue_positionalNumeral : HasValue (positionalNumeral negative digits top).toDecimal negative
    (Nat.ofDigitChars 10 digits 0) (top + 1 - digits.length) := by
  unfold positionalNumeral
  split
  next htop =>
    have hvalue : Nat.ofDigitChars 10 (['0'] ++ (zeros ((-top).toNat - 1) ++ digits)) 0 =
        Nat.ofDigitChars 10 digits 0 := by
      rw [Nat.ofDigitChars_append, Nat.ofDigitChars_append, zeros, Nat.ofDigitChars_replicate_zero]
      rfl
    refine ⟨0, ?_⟩
    simp only [toDecimal, exponentValue, Option.getD_some, hvalue, List.length_append, length_zeros,
      Nat.pow_zero, Nat.mul_one, Decimal.mk.injEq, true_and]
    omega
  next htop =>
    split
    next hlength =>
      refine ⟨top.toNat + 1 - digits.length, ?_⟩
      simp only [toDecimal, exponentValue, Option.getD_none, List.append_nil, Nat.ofDigitChars_append,
        zeros, Nat.ofDigitChars_replicate_zero, List.length_nil, Decimal.mk.injEq, true_and]
      exact ⟨Nat.mul_comm _ _, by omega⟩
    next hlength =>
      refine ⟨0, ?_⟩
      simp only [toDecimal, exponentValue, Option.getD_some, List.take_append_drop, List.length_drop,
        Nat.pow_zero, Nat.mul_one, Decimal.mk.injEq, true_and]
      omega

theorem signed_natAbs (i : Int) : signed (decide (i < 0)) i.natAbs = i := by
  unfold signed
  split
  next h =>
    have := of_decide_eq_true h
    omega
  next h =>
    have := of_decide_eq_false (Bool.eq_false_iff.2 h)
    omega

theorem hasValue_scientificNumeral (hne : digits ≠ []) :
    HasValue (scientificNumeral negative digits top).toDecimal negative (Nat.ofDigitChars 10 digits 0)
      (top + 1 - digits.length) := by
  have hpos := List.length_pos_iff.2 hne
  have hexponent : (scientificNumeral negative digits top).exponentValue = top := by
    change signed (decide (top < 0)) (Nat.ofDigitChars 10 (Nat.toDigits 10 top.natAbs) 0) = top
    rw [Nat.ofDigitChars_ten_toDigits, signed_natAbs]
  have hdigits : digits.take 1 ++ (if digits.length ≤ 1 then none else some (digits.drop 1)).getD [] =
      digits := by
    split
    next h => rw [Option.getD_none, List.append_nil, List.take_of_length_le h]
    next => rw [Option.getD_some, List.take_append_drop]
  have hlength : ((if digits.length ≤ 1 then none else some (digits.drop 1)).getD []).length =
      digits.length - 1 := by
    split
    next h => simp [h]
    next => rw [Option.getD_some, List.length_drop]
  refine ⟨0, ?_⟩
  rw [toDecimal, hexponent]
  simp only [scientificNumeral, hdigits, hlength, Nat.pow_zero, Nat.mul_one, Decimal.mk.injEq, true_and]
  omega

end

/-- A decimal number of this value is rounded like any other. -/
theorem HasValue.decimalMagnitude_eq {d : Decimal} {negative : Bool} {c : Nat} {e : Int}
    (h : HasValue d negative c e) (negative' : Bool) :
    decimalMagnitude d = decimalMagnitude ⟨negative', c, e⟩ := by
  obtain ⟨k, rfl⟩ := h
  rw [decimalMagnitude_shift negative negative', Int.sub_add_cancel]

theorem decimalMagnitude_of_coefficient {d : Decimal} {s k : Nat} (h : d.coefficient = s * 10 ^ k)
    (negative : Bool) : decimalMagnitude d = decimalMagnitude ⟨negative, s, d.exponent + k⟩ := by
  obtain ⟨_, _, e⟩ := d
  subst h
  exact decimalMagnitude_shift _ negative s k e

variable {x : Binary64}

/-- The significant digits of a finite number other than zero, as a number that does not end in zero, and
the exponent of the last one. -/
theorem exists_significant (hx : x.isFinite = true) (hpos : 0 < x.magnitude) :
    ∃ s k : Nat, (Decimal.shortest x.magnitude).coefficient = s * 10 ^ k ∧ s % 10 ≠ 0 ∧
      significantDigits (Decimal.shortest x.magnitude).coefficient = Nat.toDigits 10 s ∧
      decimalTop (Decimal.shortest x.magnitude) =
        (Decimal.shortest x.magnitude).exponent + k + (Nat.toDigits 10 s).length := by
  have hread := Decimal.decimalMagnitude_shortest hpos (of_decide_eq_true hx)
  have hne : 0 < (Decimal.shortest x.magnitude).coefficient := by
    refine Nat.pos_of_ne_zero fun hzero => ?_
    rw [decimalMagnitude, if_pos (.inl hzero)] at hread
    omega
  obtain ⟨s, k, hsk, hs, hdigits⟩ := significantDigits_eq hne
  refine ⟨s, k, hsk, hs, hdigits, ?_⟩
  have hspos : 0 < s := by omega
  rw [decimalTop, hsk, toDigits_mul_pow hspos, List.length_append, List.length_replicate]
  omega

theorem writable_numeral (hx : x.isFinite = true) (hpos : 0 < x.magnitude) : x.numeral.Writable := by
  obtain ⟨s, k, -, -, hdigits, -⟩ := exists_significant hx hpos
  unfold numeral
  dsimp only
  rw [hdigits]
  split
  · exact writable_positionalNumeral Nat.toDigits_ne_nil (digits_toDigits s)
  · exact writable_scientificNumeral Nat.toDigits_ne_nil (digits_toDigits s)

/-- The significant digits and the exponent are the same whether they are written or looked for. -/
theorem decimalMagnitude_numeral (hx : x.isFinite = true) (hpos : 0 < x.magnitude) :
    x.numeral.toDecimal.negative = x.isNegative ∧ decimalMagnitude x.numeral.toDecimal = x.magnitude := by
  obtain ⟨s, k, hsk, -, hdigits, htop⟩ := exists_significant hx hpos
  have hvalue : HasValue x.numeral.toDecimal x.isNegative s
      ((Decimal.shortest x.magnitude).exponent + k) := by
    have hs : Nat.ofDigitChars 10 (Nat.toDigits 10 s) 0 = s := Nat.ofDigitChars_ten_toDigits
    have hexponent : decimalTop (Decimal.shortest x.magnitude) - 1 + 1 - (Nat.toDigits 10 s).length =
        (Decimal.shortest x.magnitude).exponent + k := by omega
    unfold numeral
    dsimp only
    rw [hdigits]
    split
    · have h := @hasValue_positionalNumeral x.isNegative (Nat.toDigits 10 s)
        (decimalTop (Decimal.shortest x.magnitude) - 1)
      rwa [hs, hexponent] at h
    · have h := @hasValue_scientificNumeral x.isNegative (Nat.toDigits 10 s)
        (decimalTop (Decimal.shortest x.magnitude) - 1) Nat.toDigits_ne_nil
      rwa [hs, hexponent] at h
  constructor
  · obtain ⟨_, hd⟩ := hvalue
    rw [hd]
  · rw [hvalue.decimalMagnitude_eq false, ← decimalMagnitude_of_coefficient hsk false,
      Decimal.decimalMagnitude_shortest hpos (of_decide_eq_true hx)]

/-- The numeral of a number is read as the number. -/
theorem ofDecimal_numeral (hx : x.isFinite = true) (hpos : 0 < x.magnitude) :
    ofDecimal x.numeral.toDecimal = x := by
  obtain ⟨hnegative, hmagnitude⟩ := decimalMagnitude_numeral hx hpos
  rw [ofDecimal_eq, hnegative, hmagnitude, ofMagnitude_magnitude]

theorem units_intMagnitude_eq {n : Nat} (h : n ≤ 2 ^ 53) : units (intMagnitude n) = n * one := by
  rw [units_intMagnitude h, one_eq]

theorem dvd_mul_two_pow {e k unit : Nat} (hunit : unit = 2 ^ e) (h : unit < 2 ^ k) (n : Nat) :
    unit ∣ n * 2 ^ k := by
  subst hunit
  have he : e < k := (Nat.pow_lt_pow_iff_right (by decide)).1 h
  exact Nat.dvd_mul_left_of_dvd (Nat.pow_dvd_pow 2 (Nat.le_of_lt he)) n

/-- From here on every number is whole. -/
theorem one_dvd_units {m : Nat} (h : 2 ^ 53 * one ≤ units m) : one ∣ units m := by
  have hfraction : 2 ^ 52 + m % 2 ^ 52 < 2 ^ 53 := by omega
  rw [units_eq] at h ⊢
  split at h
  next hexponent =>
    have hone := pos_one
    have hm : m < 2 ^ 52 := by omega
    have hle : 2 ^ 53 ≤ 2 ^ 53 * one := Nat.le_mul_of_pos_right _ hone
    omega
  next hexponent =>
    rw [if_neg hexponent]
    have hlt : one < 2 ^ (m / 2 ^ 52 - 1) := by
      refine Nat.lt_of_mul_lt_mul_left (Nat.lt_of_le_of_lt h ?_)
      exact Nat.mul_lt_mul_of_pos_right hfraction (Nat.two_pow_pos _)
    exact dvd_mul_two_pow one_eq hlt _

theorem two_pow_mul_one_le_units {m n : Nat} (hm : m < infiniteMagnitude) (h : intMagnitude n = m)
    (hn : 2 ^ 53 ≤ n) : 2 ^ 53 * one ≤ units m := by
  have hmono := units_mono hm (Nat.le_trans (intMagnitude_mono hn) (Nat.le_of_eq h))
  rwa [units_intMagnitude_eq (Nat.le_refl _)] at hmono

/-- What a natural number is rounded to is whole. -/
theorem one_dvd_units_of_intMagnitude {m n : Nat} (hm : m < infiniteMagnitude) (h : intMagnitude n = m) :
    one ∣ units m := by
  rcases Nat.le_total n (2 ^ 53) with hsmall | hlarge
  · rw [← h, units_intMagnitude_eq hsmall]
    exact Nat.dvd_mul_left _ _
  · exact one_dvd_units (two_pow_mul_one_le_units hm h hlarge)

theorem isInteger_positionalNumeral {negative : Bool} {digits : List Char} {top : Int} :
    (positionalNumeral negative digits top).isInteger = true ↔ digits.length ≤ top + 1 ∧ 0 ≤ top := by
  unfold positionalNumeral
  split
  next htop => exact iff_of_false Bool.false_ne_true (by omega)
  next htop =>
    split
    next hlength => exact iff_of_true rfl (by omega)
    next hlength => exact iff_of_false Bool.false_ne_true (by omega)

theorem positionalNumeral_toDigits {negative : Bool} {s : Nat} {top : Int} (hs : 0 < s)
    (h : (positionalNumeral negative (Nat.toDigits 10 s) top).isInteger = true) :
    ∃ n, 0 < n ∧ (Nat.toDigits 10 n).length = top + 1 ∧
      positionalNumeral negative (Nat.toDigits 10 s) top = ⟨negative, Nat.toDigits 10 n, none, none⟩ := by
  obtain ⟨hlength, htop⟩ := isInteger_positionalNumeral.1 h
  refine ⟨s * 10 ^ (top.toNat + 1 - (Nat.toDigits 10 s).length), ?_, ?_, ?_⟩
  · exact Nat.mul_pos hs (Nat.pow_pos (by decide))
  · rw [toDigits_mul_pow hs, List.length_append, List.length_replicate]
    omega
  · rw [positionalNumeral, if_neg (by omega), if_pos (by omega), toDigits_mul_pow hs, zeros]

theorem isInteger_scientificNumeral {negative : Bool} {digits : List Char} {top : Int} :
    (scientificNumeral negative digits top).isInteger = false :=
  Bool.and_false _

/-- A numeral of digits only is the decimal representation of a natural number that is rounded to the
number. -/
theorem exists_natural_of_isInteger (hx : x.isFinite = true) (hpos : 0 < x.magnitude)
    (h : x.numeral.isInteger = true) : ∃ n, 0 < n ∧ intMagnitude n = x.magnitude ∧
      x.numeral = ⟨x.isNegative, Nat.toDigits 10 n, none, none⟩ ∧
        decimalTop (Decimal.shortest x.magnitude) ≤ 21 := by
  obtain ⟨s, k, -, hs, hdigits, -⟩ := exists_significant hx hpos
  have hnumeral : ∃ n, 0 < n ∧ (Nat.toDigits 10 n).length = decimalTop (Decimal.shortest x.magnitude) ∧
      x.numeral = ⟨x.isNegative, Nat.toDigits 10 n, none, none⟩ ∧
        decimalTop (Decimal.shortest x.magnitude) ≤ 21 := by
    unfold numeral at h ⊢
    dsimp only at h ⊢
    rw [hdigits] at h ⊢
    split at h
    next hrange =>
      obtain ⟨n, hn, hlength, heq⟩ := positionalNumeral_toDigits (by omega) h
      rw [if_pos hrange]
      refine ⟨n, hn, by omega, heq, ?_⟩
      have htop := hrange.2
      unfold positionalTo at htop
      omega
    next =>
      rw [isInteger_scientificNumeral] at h
      cases h
  obtain ⟨n, hn, hlength, heq, htop⟩ := hnumeral
  refine ⟨n, hn, ?_, heq, htop⟩
  have hmagnitude := (decimalMagnitude_numeral hx hpos).2
  have hdecimal : x.numeral.toDecimal = ⟨x.isNegative, n, 0⟩ := by
    rw [heq, toDecimal]
    simp only [Option.getD_none, List.append_nil, Nat.ofDigitChars_ten_toDigits]
    rfl
  rw [hdecimal, decimalMagnitude_natural hn (by omega)] at hmagnitude
  exact hmagnitude

theorem le_of_ten_pow_dvd {s a k : Nat} (hs : s % 10 ≠ 0) (h : 10 ^ a ∣ s * 10 ^ k) : a ≤ k := by
  refine Nat.le_of_not_lt fun hlt => hs ?_
  have hnext : 10 * 10 ^ k ∣ s * 10 ^ k := by
    rw [Nat.mul_comm 10, ← Nat.pow_succ]
    exact Nat.dvd_trans (Nat.pow_dvd_pow 10 hlt) h
  exact Nat.mod_eq_zero_of_dvd (Nat.dvd_of_mul_dvd_mul_right (Nat.pow_pos (by decide)) hnext)

/-- Just the whole numbers below `10 ^ 21` are written without a point and without an exponent. -/
theorem isInteger_numeral_iff (hx : x.isFinite = true) (hpos : 0 < x.magnitude) :
    x.numeral.isInteger = true ↔ one ∣ units x.magnitude ∧ units x.magnitude < 10 ^ 21 * one := by
  have hm : x.magnitude < infiniteMagnitude := of_decide_eq_true hx
  have hreach := @Decimal.lt_decimalTop_shortest_iff x.magnitude 21 (by decide) (by decide) hpos hm
  constructor
  · intro h
    obtain ⟨n, hn, hmagnitude, -, htop⟩ := exists_natural_of_isInteger hx hpos h
    refine ⟨one_dvd_units_of_intMagnitude hm hmagnitude, Nat.lt_of_not_le fun hle => ?_⟩
    have := hreach.2 hle
    omega
  · rintro ⟨hwhole, hsize⟩
    have htop : decimalTop (Decimal.shortest x.magnitude) ≤ 21 := by
      refine Int.not_lt.1 fun hlt => ?_
      exact Nat.not_le_of_lt hsize (hreach.1 hlt)
    have hone : one ≤ units x.magnitude := Nat.le_of_dvd (units_pos hpos) hwhole
    have hfirst : (0 : Int) < decimalTop (Decimal.shortest x.magnitude) :=
      Decimal.lt_decimalTop_shortest (k := 0) (by rwa [Nat.pow_zero, Nat.one_mul])
    obtain ⟨s, k, hsk, hs, hdigits, hdecimal⟩ := exists_significant hx hpos
    have hk : -(Decimal.shortest x.magnitude).exponent ≤ k := by
      have hdvd := Decimal.pow_dvd_coefficient_shortest hwhole hpos hm
      rw [hsk] at hdvd
      exact Int.toNat_le.1 (le_of_ten_pow_dvd hs hdvd)
    have hrange : positionalFrom ≤ decimalTop (Decimal.shortest x.magnitude) - 1 ∧
        decimalTop (Decimal.shortest x.magnitude) - 1 ≤ positionalTo := by
      unfold positionalFrom positionalTo
      omega
    unfold numeral
    dsimp only
    rw [if_pos hrange, hdigits, isInteger_positionalNumeral]
    omega

end TableQuery.Binary64
