import TableQuery.Proofs.NumeralLanguage
import TableQuery.Proofs.ShownValues

/-! # What cells are typed as

The type of a cell is told by its text: an empty text is null, six texts are booleans, and a text that is a
numeral but for white space around it is a number, if a value can hold it. Any other text stands for itself.
-/
namespace TableQuery.Csv
open Text Numeral

def booleanSpellings : Bool → List String
  | true => ["true", "TRUE", "True"]
  | false => ["false", "FALSE", "False"]

def integerOf (cs : List Char) : Int :=
  if cs.head? = some '-' then -Nat.ofDigitChars 10 cs.tail 0 else Nat.ofDigitChars 10 cs 0

/-- The text is an integer that is no greater than floats can tell apart from its neighbours. -/
structure DenotesInteger (cs : List Char) (i : Int64) : Prop where
  mem_integer : cs ∈ Pattern.integer.matches'
  natAbs_le : (integerOf cs).natAbs ≤ 2 ^ 53 - 1
  toInt_eq : i.toInt = integerOf cs

structure DenotesFloat (cs : List Char) (x : Binary64) : Prop where
  mem_numeral : cs ∈ Pattern.numeral.matches'
  not_mem_integer : cs ∉ Pattern.integer.matches'
  isFinite : x.isFinite = true
  eq_ofDecimal : ∃ n : Numeral, n.IsSpelledAs cs ∧ x = Binary64.ofDecimal n.toDecimal

section
variable {cs : List Char} {n : Numeral} {v : Value}

theorem integerOf_eq_toInt (hn : n.isInteger = true) (h : n.IsSpelledAs cs) : integerOf cs = n.toInt := by
  obtain ⟨rfl, hne, hdigits⟩ := (isSpelledAs_iff_of_isInteger hn).1 h
  unfold integerOf toInt signed
  cases n.negative with
  | true => rfl
  | false =>
    have hhead : (signChars false ++ n.whole).head? ≠ some '-' := by
      intro hc
      have hminus := hdigits '-' (List.mem_of_mem_head? hc)
      exact absurd hminus (by decide)
    rw [if_neg hhead]
    rfl

theorem mem_integer_iff_of_isSpelledAs (h : n.IsSpelledAs cs) :
    cs ∈ Pattern.integer.matches' ↔ n.isInteger = true := by
  rw [mem_integer_iff]
  constructor
  · rintro ⟨m, hm, hspelled⟩
    obtain rfl : n = m := Option.some.inj (h.ofChars?_eq.symm.trans hspelled.ofChars?_eq)
    exact hm
  · exact fun hn => ⟨n, hn, h⟩

/-- What a numeral is as a value. -/
theorem numberValue?_eq_some_iff (h : n.IsSpelledAs cs) :
    numberValue? n = some v ↔
      (∃ i, v = .integer i ∧ DenotesInteger cs i) ∨ ∃ x, v = .float x ∧ DenotesFloat cs x := by
  have hnumeral : cs ∈ Pattern.numeral.matches' := mem_numeral_iff.2 ⟨n, h⟩
  have hunique : ∀ m : Numeral, m.IsSpelledAs cs → m = n := fun m hm =>
    Option.some.inj (hm.ofChars?_eq.symm.trans h.ofChars?_eq)
  have hinteger := mem_integer_iff_of_isSpelledAs h
  unfold numberValue?
  split
  next hn =>
    have hmem := hinteger.2 hn
    have hvalue := integerOf_eq_toInt hn h
    constructor
    · intro hv
      split at hv
      next hle =>
        refine .inl ⟨_, (Option.some.inj hv).symm, hmem, ?_, ?_⟩
        · rwa [hvalue]
        · rw [hvalue, toInt_ofInt_of_le hle]
      next => cases hv
    · rintro (⟨i, rfl, -, hle, hi⟩ | ⟨x, -, -, hnot, -⟩)
      · rw [hvalue] at hle hi
        have hofInt : Int64.ofInt n.toInt = i := by rw [← hi, Int64.ofInt_toInt]
        rw [if_pos (show n.toInt.natAbs ≤ maxExactInteger from hle), hofInt]
      · exact absurd hmem hnot
  next hn =>
    have hnot : cs ∉ Pattern.integer.matches' := fun hmem => hn (hinteger.1 hmem)
    dsimp only
    constructor
    · intro hv
      split at hv
      next hx => exact .inr ⟨_, (Option.some.inj hv).symm, hnumeral, hnot, hx, n, h, rfl⟩
      next => cases hv
    · rintro (⟨i, -, hmem, -⟩ | ⟨x, rfl, -, -, hx, m, hm, rfl⟩)
      · exact absurd hmem hnot
      · obtain rfl := hunique m hm
        exact if_pos hx

def numberOf? (cs : List Char) : Option Value := (Numeral.ofChars? cs).bind numberValue?

theorem numberOf?_eq_some_iff : numberOf? cs = some v ↔
    (∃ i, v = .integer i ∧ DenotesInteger cs i) ∨ ∃ x, v = .float x ∧ DenotesFloat cs x := by
  rw [numberOf?, Option.bind_eq_some_iff]
  constructor
  · rintro ⟨n, hn, hv⟩
    exact (numberValue?_eq_some_iff (ofChars?_eq_some_iff.1 hn)).1 hv
  · intro h
    have hnumeral : cs ∈ Pattern.numeral.matches' := by
      rcases h with ⟨i, -, hi⟩ | ⟨x, -, hx⟩
      · obtain ⟨n, -, hn⟩ := mem_integer_iff.1 hi.mem_integer
        exact mem_numeral_iff.2 ⟨n, hn⟩
      · exact hx.mem_numeral
    obtain ⟨n, hn⟩ := mem_numeral_iff.1 hnumeral
    exact ⟨n, hn.ofChars?_eq, (numberValue?_eq_some_iff hn).2 h⟩

end

variable {s : String}

theorem typedValue_eq (s : String) : typedValue s =
    if s = "" then .null
    else if s ∈ booleanSpellings true then .boolean true
    else if s ∈ booleanSpellings false then .boolean false
    else (numberOf? (trim s.toList)).getD (.text s) := rfl

/-- The texts that are typed by themselves are no numbers. -/
theorem numberOf?_eq_none (h : s = "" ∨ ∃ b, s ∈ booleanSpellings b) : numberOf? (trim s.toList) = none := by
  have hwords : ∀ w ∈ "" :: (booleanSpellings true ++ booleanSpellings false),
      Numeral.ofChars? (trim w.toList) = none := by decide
  rw [numberOf?, hwords s, Option.bind_none]
  rcases h with rfl | ⟨b, hb⟩
  · exact List.mem_cons_self
  · refine List.mem_cons_of_mem _ (List.mem_append.2 ?_)
    cases b
    · exact .inr hb
    · exact .inl hb

inductive TypedAs (s : String) : Value → Prop
  | null (h : s = "") : TypedAs s .null
  | boolean {b : Bool} (h : s ∈ booleanSpellings b) : TypedAs s (.boolean b)
  | integer {i : Int64} (h : DenotesInteger (trim s.toList) i) : TypedAs s (.integer i)
  | float {x : Binary64} (h : DenotesFloat (trim s.toList) x) : TypedAs s (.float x)
  | text (hempty : s ≠ "") (hboolean : ∀ b, s ∉ booleanSpellings b)
      (hinteger : ∀ i, ¬DenotesInteger (trim s.toList) i) (hfloat : ∀ x, ¬DenotesFloat (trim s.toList) x) :
      TypedAs s (.text s)

theorem typedAs_typedValue (s : String) : TypedAs s (typedValue s) := by
  rw [typedValue_eq]
  split
  next hempty => exact .null hempty
  next hempty =>
    split
    next htrue => exact .boolean htrue
    next htrue =>
      split
      next hfalse => exact .boolean hfalse
      next hfalse =>
        cases hnumber : numberOf? (trim s.toList) with
        | some v =>
          obtain ⟨i, rfl, hi⟩ | ⟨x, rfl, hx⟩ := numberOf?_eq_some_iff.1 hnumber
          · exact .integer hi
          · exact .float hx
        | none =>
          have hnone (v : Value) : ¬numberOf? (trim s.toList) = some v := by simp [hnumber]
          refine .text hempty (fun b => ?_) (fun i hi => ?_) fun x hx => ?_
          · cases b <;> assumption
          · exact hnone _ (numberOf?_eq_some_iff.2 (.inl ⟨i, rfl, hi⟩))
          · exact hnone _ (numberOf?_eq_some_iff.2 (.inr ⟨x, rfl, hx⟩))

theorem typedValue_of_number {v : Value} (h : numberOf? (trim s.toList) = some v) : typedValue s = v := by
  have hword : ¬(s = "" ∨ ∃ b, s ∈ booleanSpellings b) := fun hw => by
    rw [numberOf?_eq_none hw] at h
    cases h
  obtain ⟨hempty, hboolean⟩ := not_or.1 hword
  rw [typedValue_eq, if_neg hempty, if_neg fun hb => hboolean ⟨_, hb⟩, if_neg fun hb => hboolean ⟨_, hb⟩, h,
    Option.getD_some]

theorem TypedAs.eq_typedValue {v : Value} (h : TypedAs s v) : typedValue s = v := by
  cases h with
  | null hempty => rw [hempty]; rfl
  | integer hi => exact typedValue_of_number (numberOf?_eq_some_iff.2 (.inl ⟨_, rfl, hi⟩))
  | float hx => exact typedValue_of_number (numberOf?_eq_some_iff.2 (.inr ⟨_, rfl, hx⟩))
  | @boolean b hb =>
    have hall : ∀ b, ∀ w ∈ booleanSpellings b, typedValue w = .boolean b := by decide
    exact hall b s hb
  | text hempty hboolean hinteger hfloat =>
    have htyped := typedAs_typedValue s
    generalize typedValue s = v at htyped
    cases htyped with
    | null h => exact absurd h hempty
    | boolean h => exact absurd h (hboolean _)
    | integer h => exact absurd h (hinteger _)
    | float h => exact absurd h (hfloat _)
    | text => rfl

/-- A cell is typed by its text in one way. Its numbers are written in the language of numerals, of which the
integers are a part. -/
theorem typedValue_exact (s : String) :
    (∀ v, typedValue s = v ↔ TypedAs s v) ∧
    ∀ cs, ((ofChars? cs).isSome = true ↔ cs ∈ Pattern.numeral.matches') ∧
      ((ofChars? cs).any (·.isInteger) = true ↔ cs ∈ Pattern.integer.matches') := by
  refine ⟨fun v => ⟨fun h => h ▸ typedAs_typedValue s, TypedAs.eq_typedValue⟩, fun cs => ⟨?_, ?_⟩⟩
  · simp only [mem_numeral_iff, Option.isSome_iff_exists, ofChars?_eq_some_iff]
  · simp only [mem_integer_iff, Option.any_eq_true, ofChars?_eq_some_iff, and_comm]

example : typedValue "\u2003-0012\t" = .integer (-12) := by decide +kernel

end TableQuery.Csv
