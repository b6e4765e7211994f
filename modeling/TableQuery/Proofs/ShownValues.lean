import TableQuery.Csv.Typing
import TableQuery.Proofs.Dates
import TableQuery.Proofs.NumberText
import TableQuery.Proofs.ValueOrder
import TableQuery.Value.Text

/-! # Reading shown values

The text of a value that was read from a cell is read as an equal value, and is shown in the same way again.
The exception are whole floats so great that their digits are taken for no number.
-/
namespace TableQuery.Csv
open Binary64 Text Numeral

theorem isSpace_of_mem_chars {n : Numeral} (h : n.Writable) : ∀ c ∈ n.chars, isSpace c = false := by
  intro c hc
  simp only [chars, List.mem_append] at hc
  rcases hc with hc | hc | hc | hc
  · cases hn : n.negative <;> rw [hn] at hc
    · cases hc
    · rw [List.mem_singleton.1 hc]
      decide
  · exact isSpace_of_isDigit (h.whole c hc)
  · cases hf : n.fraction with
    | none =>
      rw [hf] at hc
      cases hc
    | some digits =>
      rw [hf] at hc
      rcases List.mem_cons.1 hc with rfl | hc
      · decide
      · exact isSpace_of_isDigit (h.fraction digits hf c hc)
  · cases he : n.exponent with
    | none =>
      rw [he] at hc
      cases hc
    | some e =>
      rw [he] at hc
      rcases List.mem_cons.1 hc with rfl | hc
      · decide
      · rcases List.mem_cons.1 hc with rfl | hc
        · cases e.1 <;> decide
        · exact isSpace_of_isDigit ((h.exponent e he).2 c hc)

/-- A numeral begins with a sign or a digit. -/
theorem head?_chars {n : Numeral} (h : n.Writable) :
    ∃ c cs, n.chars = c :: cs ∧ (c = '-' ∨ c.isDigit = true) := by
  obtain ⟨negative, whole, fraction, exponent⟩ := n
  cases negative with
  | true => exact ⟨'-', _, rfl, .inl rfl⟩
  | false =>
    cases whole with
    | nil => exact absurd rfl h.whole_ne_nil
    | cons c cs => exact ⟨c, _, rfl, .inr (h.whole c List.mem_cons_self)⟩

/-- The text of a numeral is read as its number, if a value can hold it. -/
theorem typedValue_chars {n : Numeral} (h : n.Writable) :
    typedValue (String.ofList n.chars) = (numberValue? n).getD (.text (String.ofList n.chars)) := by
  obtain ⟨c, cs, hchars, hc⟩ := head?_chars h
  have hne : ∀ s : String, s.toList.head?.all (fun x => x != '-' && !x.isDigit) = true →
      String.ofList n.chars ≠ s := by
    rintro _ hhead rfl
    rw [hchars, String.toList_ofList, List.head?_cons, Option.all_some, Bool.and_eq_true] at hhead
    obtain ⟨hsign, hdigit⟩ := hhead
    rcases hc with rfl | hc
    · cases hsign
    · rw [hc] at hdigit
      cases hdigit
  have hwords : ∀ s ∈ "" :: (trueTexts ++ falseTexts),
      s.toList.head?.all (fun x => x != '-' && !x.isDigit) = true := by decide
  have htrue : String.ofList n.chars ∉ trueTexts := fun hmem =>
    hne _ (hwords _ (List.mem_cons_of_mem _ (List.mem_append_left _ hmem))) rfl
  have hfalse : String.ofList n.chars ∉ falseTexts := fun hmem =>
    hne _ (hwords _ (List.mem_cons_of_mem _ (List.mem_append_right _ hmem))) rfl
  rw [typedValue, if_neg (hne "" (hwords "" List.mem_cons_self)), if_neg htrue, if_neg hfalse,
    String.toList_ofList, trim_eq_self (isSpace_of_mem_chars h), ofChars?_chars h, Option.bind_some]

theorem writable_integer (negative : Bool) (n : Nat) :
    (⟨negative, Nat.toDigits 10 n, none, none⟩ : Numeral).Writable :=
  ⟨Nat.toDigits_ne_nil, digits_toDigits n, nofun, nofun⟩

theorem chars_integer (negative : Bool) (n : Nat) :
    (⟨negative, Nat.toDigits 10 n, none, none⟩ : Numeral).chars =
      signChars negative ++ Nat.toDigits 10 n := by
  simp [chars, fractionChars, exponentChars]

theorem toInt_integer (negative : Bool) (n : Nat) :
    (⟨negative, Nat.toDigits 10 n, none, none⟩ : Numeral).toInt = signed negative n := by
  rw [toInt, Nat.ofDigitChars_ten_toDigits]

theorem natAbs_signed (negative : Bool) (n : Nat) : (signed negative n).natAbs = n := by
  cases negative
  · exact Int.natAbs_natCast n
  · exact (Int.natAbs_neg _).trans (Int.natAbs_natCast n)

theorem signed_neg_iff {negative : Bool} {n : Nat} (h : 0 < n) :
    decide (signed negative n < 0) = negative := by
  cases negative
  · exact decide_eq_false (Int.not_lt.2 (Int.natCast_nonneg n))
  · exact decide_eq_true (Int.neg_neg_of_pos (Int.natCast_pos.2 h))

theorem typedValue_integer (negative : Bool) (n : Nat) :
    typedValue (String.ofList (signChars negative ++ Nat.toDigits 10 n)) =
      if n ≤ maxExactInteger then .integer (Int64.ofInt (signed negative n))
      else .text (String.ofList (signChars negative ++ Nat.toDigits 10 n)) := by
  have htyped := typedValue_chars (writable_integer negative n)
  have hinteger : (⟨negative, Nat.toDigits 10 n, none, none⟩ : Numeral).isInteger = true := rfl
  rw [chars_integer] at htyped
  rw [htyped, numberValue?, if_pos hinteger, toInt_integer, natAbs_signed]
  split <;> rfl

theorem intChars_eq (i : Int) : intChars i = signChars (decide (i < 0)) ++ Nat.toDigits 10 i.natAbs := by
  unfold intChars signChars
  simp only [decide_eq_true_eq]

theorem intChars_signed {n : Nat} (negative : Bool) (h : 0 < n) :
    intChars (signed negative n) = signChars negative ++ Nat.toDigits 10 n := by
  rw [intChars_eq, signed_neg_iff h, natAbs_signed]

/-- Integers of moderate size are read back. -/
theorem typedValue_intText {i : Int} (h : i.natAbs ≤ maxExactInteger) :
    typedValue (intText i) = .integer (Int64.ofInt i) := by
  rw [intText, intChars_eq, typedValue_integer, if_pos h, signed_natAbs]

theorem toInt_ofInt_of_le {i : Int} (h : i.natAbs ≤ maxExactInteger) : (Int64.ofInt i).toInt = i := by
  have hbound : maxExactInteger < 2 ^ 63 := by decide
  apply Int64.toInt_ofInt_of_le <;> omega

theorem ofInt_signed {n : Nat} (negative : Bool) (h : 0 < n) :
    ofInt (signed negative n) = ofMagnitude negative (intMagnitude n) := by
  rw [ofInt, ofRatio_eq, signed_neg_iff h, natAbs_signed, intMagnitude]

end TableQuery.Csv

namespace TableQuery

/-- Whole numbers from `2 ^ 53` up to below `10 ^ 21`: they are written as digits only, more than are
read as an integer. -/
def Binary64.IsLongWhole (x : Binary64) : Prop :=
  2 ^ 53 * one ≤ units x.magnitude ∧ units x.magnitude < 10 ^ 21 * one

instance : DecidablePred Binary64.IsLongWhole := fun _ => inferInstanceAs (Decidable (_ ∧ _))

def Value.IsLongWhole : Value → Prop
  | float x => x.IsLongWhole
  | _ => False

instance : DecidablePred Value.IsLongWhole := fun v =>
  match v with
  | .float x => inferInstanceAs (Decidable x.IsLongWhole)
  | .null | .boolean _ | .integer _ | .text _ => isFalse id

namespace Csv
open Binary64 Text Numeral

def reread (v : Value) : Value := typedValue v.display

variable {x : Binary64}

theorem not_isLongWhole_of_zero (h : x.magnitude = 0) : ¬x.IsLongWhole := by
  rintro ⟨hlow, -⟩
  rw [h] at hlow
  exact Nat.not_le_of_lt (Nat.mul_pos (Nat.two_pow_pos 53) pos_one) hlow

theorem reread_zero (h : x.magnitude = 0) :
    x.text = intText 0 ∧ reread (.float x) = .integer (Int64.ofInt 0) := by
  have hnan : x.isNaN = false := by
    rw [isNaN, h]
    rfl
  have htext : x.text = intText 0 := by
    rw [text, textChars, hnan, if_neg Bool.false_ne_true, if_pos h]
    rfl
  refine ⟨htext, ?_⟩
  rw [reread, Value.display, htext, typedValue_intText (by decide)]

theorem orderKey_of_zero (h : x.magnitude = 0) : x.orderKey = 0 := by
  have hnan : x.isNaN = false := by
    rw [isNaN, h]
    rfl
  rw [orderKey, hnan, if_neg Bool.false_ne_true, h]
  split <;> rfl

theorem orderKey_ofInt_zero : (ofInt 0).orderKey = 0 := by
  rw [orderKey_ofInt, if_neg (by decide), Int.natAbs_zero, intMagnitude, Nat.zero_mul]
  rfl

/-- What is not written as digits only is read as the same number. -/
theorem reread_of_not_isInteger (hx : x.isFinite = true) (hpos : 0 < x.magnitude)
    (h : x.numeral.isInteger = false) : reread (.float x) = .float x := by
  rw [reread, Value.display, text, textChars_eq hx hpos, typedValue_chars (writable_numeral hx hpos),
    numberValue?, if_neg (Bool.eq_false_iff.1 h)]
  dsimp only
  rw [ofDecimal_numeral hx hpos, if_pos hx, Option.getD_some]

theorem isLongWhole_iff {n : Nat} (hx : x.isFinite = true) (hpos : 0 < x.magnitude)
    (h : x.numeral.isInteger = true) (hn : intMagnitude n = x.magnitude) :
    x.IsLongWhole ↔ ¬n ≤ maxExactInteger := by
  have hm : x.magnitude < infiniteMagnitude := of_decide_eq_true hx
  have hexact : maxExactInteger = 2 ^ 53 - 1 := rfl
  rw [IsLongWhole, and_iff_left ((isInteger_numeral_iff hx hpos).1 h).2, Nat.not_le]
  constructor
  · intro hlow
    refine Nat.lt_of_not_le fun hle => ?_
    rw [← hn, units_intMagnitude_eq (by omega)] at hlow
    have := Nat.le_of_mul_le_mul_right hlow pos_one
    omega
  · intro hlarge
    exact two_pow_mul_one_le_units hm hn (by omega)

inductive Rereading : Value → Value → Prop
  | same {v : Value} (h : ¬v.IsLongWhole) : Rereading v v
  | integer {x : Binary64} {i : Int} (hwhole : x.isWhole = true) (h : ¬x.IsLongWhole)
      (hi : i.natAbs ≤ maxExactInteger) (htext : x.text = intText i)
      (hkey : (ofInt i).orderKey = x.orderKey) : Rereading (.float x) (.integer (Int64.ofInt i))
  /-- Digits that are too many for an integer remain text. -/
  | digits {x : Binary64} {negative : Bool} {n : Nat} (hwhole : x.isWhole = true) (h : x.IsLongWhole)
      (htext : x.textChars = signChars negative ++ Nat.toDigits 10 n) : Rereading (.float x) (.text x.text)

theorem isWhole_of_one_dvd (hx : x.isFinite = true) (h : one ∣ units x.magnitude) : x.isWhole = true := by
  rw [isWhole_eq, hx, Nat.mod_eq_zero_of_dvd h]
  rfl

theorem rereading_float (hx : x.isFinite = true) : Rereading (.float x) (reread (.float x)) := by
  rcases Nat.eq_zero_or_pos x.magnitude with hzero | hpos
  · obtain ⟨htext, hread⟩ := reread_zero hzero
    rw [hread]
    refine .integer (isWhole_of_one_dvd hx ?_) (not_isLongWhole_of_zero hzero) (by decide) htext ?_
    · rw [hzero]
      exact Nat.dvd_zero _
    · rw [orderKey_of_zero hzero, orderKey_ofInt_zero]
  · cases hinteger : x.numeral.isInteger with
    | false =>
      rw [reread_of_not_isInteger hx hpos hinteger]
      refine .same fun hlong => ?_
      have := (isInteger_numeral_iff hx hpos).2 ⟨one_dvd_units hlong.1, hlong.2⟩
      rw [hinteger] at this
      cases this
    | true =>
      obtain ⟨n, hn, hmagnitude, hnumeral, -⟩ := exists_natural_of_isInteger hx hpos hinteger
      have hlong := isLongWhole_iff hx hpos hinteger hmagnitude
      have hwhole := isWhole_of_one_dvd hx ((isInteger_numeral_iff hx hpos).1 hinteger).1
      have htext : x.textChars = signChars x.isNegative ++ Nat.toDigits 10 n := by
        rw [textChars_eq hx hpos, hnumeral, chars_integer]
      have hread : reread (.float x) = if n ≤ maxExactInteger then
          .integer (Int64.ofInt (signed x.isNegative n)) else .text x.text := by
        rw [reread, Value.display, text, htext, typedValue_integer]
      rw [hread]
      split
      next hle =>
        refine .integer hwhole (fun h => hlong.1 h hle) (by rwa [natAbs_signed]) ?_ ?_
        · rw [text, htext, intText, intChars_signed _ hn]
        · rw [ofInt_signed _ hn, hmagnitude, ofMagnitude_magnitude]
      next hle => exact .digits hwhole (hlong.2 hle) htext

/-- Numbers that a cell may hold are moderate integers and finite floats. -/
theorem numberValue?_eq_some {n : Numeral} {v : Value} (h : numberValue? n = some v) :
    (∃ i : Int, i.natAbs ≤ maxExactInteger ∧ v = .integer (Int64.ofInt i)) ∨
      ∃ x : Binary64, x.isFinite = true ∧ v = .float x := by
  unfold numberValue? at h
  split at h
  next =>
    split at h
    next hi => exact .inl ⟨n.toInt, hi, (Option.some.inj h).symm⟩
    next => cases h
  next =>
    dsimp only at h
    split at h
    next hx => exact .inr ⟨_, hx, (Option.some.inj h).symm⟩
    next => cases h

theorem rereading_integer {i : Int} (hi : i.natAbs ≤ maxExactInteger) :
    Rereading (.integer (Int64.ofInt i)) (reread (.integer (Int64.ofInt i))) := by
  have hread : reread (.integer (Int64.ofInt i)) = .integer (Int64.ofInt i) := by
    rw [reread, Value.display, toInt_ofInt_of_le hi, typedValue_intText hi]
  rw [hread]
  exact .same id

/-- Every value that a cell may hold is read again in one of these ways. -/
theorem rereading_typedValue (s : String) : Rereading (typedValue s) (reread (typedValue s)) := by
  have htext (h : typedValue s = .text s) : Rereading (.text s) (reread (.text s)) := by
    have hread : reread (.text s) = .text s := h
    rw [hread]
    exact .same id
  unfold typedValue at htext ⊢
  split
  next => exact .same id
  next =>
    split
    next => exact .same id
    next =>
      split
      next => exact .same id
      next hempty htrue hfalse =>
        rw [if_neg hempty, if_neg htrue, if_neg hfalse] at htext
        cases hnumber : (Numeral.ofChars? (trim s.toList)).bind numberValue? with
        | none => exact htext (by rw [hnumber]; rfl)
        | some v =>
          rw [Option.getD_some]
          obtain ⟨n, -, hv⟩ := Option.bind_eq_some_iff.1 hnumber
          obtain ⟨i, hi, rfl⟩ | ⟨x, hx, rfl⟩ := numberValue?_eq_some hv
          · exact rereading_integer hi
          · exact rereading_float hx

/-- A date needs separators between its digits. -/
theorem dateRest?_digits (negative : Bool) (n : Nat) :
    dateRest? (signChars negative ++ Nat.toDigits 10 n) = none := by
  cases negative with
  | true => rfl
  | false =>
    refine Option.not_isSome_iff_eq_none.1 fun hsome => ?_
    obtain ⟨date, hdate, hstart⟩ := isSome_dateRest?_iff.1 hsome
    obtain ⟨c, hc, hseparator⟩ := hdate.exists_separator
    have hdigit : c.isDigit = true := digits_toDigits n c (hstart.subset hc)
    exact absurd hdigit (ne_true_of_eq_false hseparator.isDigit_eq_false)

namespace Rereading
variable {v w : Value}

theorem display_eq (h : Rereading v w) : w.display = v.display := by
  cases h with
  | same => rfl
  | integer _ _ hi htext => rw [Value.display, Value.display, toInt_ofInt_of_le hi, htext]
  | digits => rfl

/-- It is an equal value unless it is too long. -/
theorem cmp_eq_iff (h : Rereading v w) : v.cmp w = .eq ↔ ¬v.IsLongWhole := by
  cases h with
  | same hv => exact iff_of_true (Value.cmp_self v) hv
  | integer _ hv hi _ hkey =>
    refine iff_of_true ?_ hv
    rw [Value.cmp, toInt_ofInt_of_le hi, compare_def, hkey]
    exact Int.compare_eq_eq.2 rfl
  | digits _ hv => exact iff_of_false (by simp [Value.cmp, Value.kindRank]) (not_not_intro hv)

/-- It says the same about its column unless it is too long. -/
theorem suggestedType?_eq (h : Rereading v w) (hv : ¬v.IsLongWhole) :
    w.suggestedType? = v.suggestedType? := by
  cases h with
  | same => rfl
  | integer hwhole => rw [Value.suggestedType?, Value.suggestedType?, if_pos hwhole]
  | digits _ hlong => exact absurd hlong hv

/-- Too long a number is taken for a string. -/
theorem suggestedType?_of_isLongWhole (h : Rereading v w) (hv : v.IsLongWhole) :
    v.suggestedType? = some .integer ∧ w.suggestedType? = some .string := by
  cases h with
  | same hv' => exact absurd hv hv'
  | integer _ hv' => exact absurd hv hv'
  | @digits x negative n hwhole _ htext =>
    have hne : x.text ≠ "" := by
      intro hempty
      rw [text, htext, String.ofList_eq_empty_iff] at hempty
      exact Nat.toDigits_ne_nil (List.append_eq_nil_iff.1 hempty).2
    have hdate : startsWithDate x.text = false := by
      rw [startsWithDate, text, String.toList_ofList, htext, dateRest?_digits]
      rfl
    constructor
    · rw [Value.suggestedType?, if_pos hwhole]
    · rw [Value.suggestedType?, if_neg hne, hdate]
      rfl

end Rereading

end Csv
end TableQuery
