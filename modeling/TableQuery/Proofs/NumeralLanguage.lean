import Mathlib.Computability.RegularExpressions
import TableQuery.Proofs.NumeralSpelling

/-! # The language of numerals

The texts that are read as numerals are the words of a regular expression, and those that are read as integers
the words of a simpler one.
-/
namespace TableQuery.Text

namespace Pattern
open RegularExpression

def anyOf (xs : List Char) : RegularExpression Char := xs.foldr (fun x p => char x + p) 0

def optional (p : RegularExpression Char) : RegularExpression Char := p + 1

def oneOrMore (p : RegularExpression Char) : RegularExpression Char := p * star p

def digits : RegularExpression Char := oneOrMore (anyOf "0123456789".toList)

def sign : RegularExpression Char := optional (char '-')

def integer : RegularExpression Char := sign * digits

def exponent : RegularExpression Char := anyOf ['e', 'E'] * (optional (anyOf ['-', '+']) * digits)

def mantissa : RegularExpression Char :=
  digits * optional (char '.') + char '.' * digits + digits * (char '.' * digits)

/-- `-?([0-9]+\.?|\.[0-9]+|[0-9]+\.[0-9]+)([eE][-+]?[0-9]+)?` -/
def numeral : RegularExpression Char := sign * (mantissa * optional exponent)

variable {p q : RegularExpression Char} {cs : List Char}

theorem mem_char {c : Char} : cs ∈ (char c).matches' ↔ cs = [c] := Iff.rfl

theorem mem_mul : cs ∈ (p * q).matches' ↔ ∃ xs ∈ p.matches', ∃ ys ∈ q.matches', xs ++ ys = cs :=
  Language.mem_mul

theorem mem_optional : cs ∈ (optional p).matches' ↔ cs ∈ p.matches' ∨ cs = [] := Iff.rfl

theorem mem_anyOf {xs : List Char} : cs ∈ (anyOf xs).matches' ↔ ∃ x ∈ xs, cs = [x] := by
  induction xs with
  | nil => simp [anyOf]
  | cons x xs ih =>
    have hcons : cs ∈ (anyOf (x :: xs)).matches' ↔ cs = [x] ∨ cs ∈ (anyOf xs).matches' := Iff.rfl
    rw [hcons, ih]
    simp

theorem mem_oneOrMore_anyOf {xs : List Char} :
    cs ∈ (oneOrMore (anyOf xs)).matches' ↔ cs ≠ [] ∧ ∀ c ∈ cs, c ∈ xs := by
  rw [oneOrMore, mem_mul, matches'_star]
  constructor
  · rintro ⟨head, hhead, tail, htail, rfl⟩
    obtain ⟨x, hx, rfl⟩ := mem_anyOf.1 hhead
    obtain ⟨words, rfl, hwords⟩ := Language.mem_kstar.1 htail
    refine ⟨List.cons_ne_nil _ _, List.forall_mem_cons.2 ⟨hx, fun c hc => ?_⟩⟩
    obtain ⟨word, hword, hcword⟩ := List.mem_flatten.1 hc
    obtain ⟨y, hy, rfl⟩ := mem_anyOf.1 (hwords word hword)
    rwa [List.mem_singleton.1 hcword]
  · rintro ⟨hne, hall⟩
    obtain ⟨x, cs, rfl⟩ := List.exists_cons_of_ne_nil hne
    obtain ⟨hx, hcs⟩ := List.forall_mem_cons.1 hall
    refine ⟨[x], mem_anyOf.2 ⟨x, hx, rfl⟩, cs, ?_, rfl⟩
    -- Every further character is a word of its own.
    refine Language.mem_kstar.2 ⟨cs.map fun c => [c], by simp [← List.flatMap_def], fun word hword => ?_⟩
    obtain ⟨c, hc, rfl⟩ := List.mem_map.1 hword
    exact mem_anyOf.2 ⟨c, hcs c hc, rfl⟩

end Pattern

namespace Numeral
open Pattern

variable {cs : List Char}

theorem mem_decimalDigits {c : Char} : c ∈ "0123456789".toList ↔ c.isDigit = true := by
  constructor
  · intro hc
    exact List.all_eq_true.1 (show "0123456789".toList.all Char.isDigit = true by decide) c hc
  · intro hc
    obtain ⟨hlow, hhigh⟩ : 48 ≤ c.toNat ∧ c.toNat ≤ 57 := Char.isDigit_iff_toNat.1 hc
    have hall : ∀ i < 10, Char.ofNat (48 + i) ∈ "0123456789".toList := by decide
    have hmem := hall (c.toNat - 48) (by omega)
    rwa [Nat.add_sub_cancel' hlow, Char.ofNat_toNat] at hmem

theorem mem_digits : cs ∈ Pattern.digits.matches' ↔ cs ≠ [] ∧ Digits cs := by
  simp only [Pattern.digits, mem_oneOrMore_anyOf, mem_decimalDigits, Digits]

theorem mem_sign : cs ∈ Pattern.sign.matches' ↔ ∃ negative, cs = signChars negative := by
  rw [Pattern.sign, mem_optional, mem_char]
  simp [signChars, or_comm]

theorem mem_exponent : cs ∈ Pattern.exponent.matches' ↔ ∃ e, SpellsExponent (some e) cs := by
  constructor
  · intro h
    obtain ⟨_, hletter, _, hrest, rfl⟩ := mem_mul.1 h
    obtain ⟨sign, hsign, digits, hdigits, rfl⟩ := mem_mul.1 hrest
    obtain ⟨letter, hmem, rfl⟩ := mem_anyOf.1 hletter
    obtain ⟨hne, hdigits⟩ := mem_digits.1 hdigits
    have hcase : letter = 'e' ∨ letter = 'E' := by simpa using hmem
    rcases mem_optional.1 hsign with hsign | rfl
    · obtain ⟨mark, hmark, rfl⟩ := mem_anyOf.1 hsign
      rcases List.mem_cons.1 hmark with rfl | hmark
      · exact ⟨(true, digits), .some hcase (.inl rfl) hne hdigits⟩
      · obtain rfl := List.mem_singleton.1 hmark
        exact ⟨(false, digits), .some hcase (.inr ⟨rfl, rfl⟩) hne hdigits⟩
    · exact ⟨(false, digits), .some hcase (.inl rfl) hne hdigits⟩
  · rintro ⟨⟨negative, digits⟩, h⟩
    cases h with
    | @some letter _ sign _ hletter hsign hne hdigits =>
      have hmark : sign ∈ (optional (anyOf ['-', '+'])).matches' := by
        rcases hsign with rfl | ⟨rfl, rfl⟩
        · cases negative with
          | true => exact .inl (mem_anyOf.2 ⟨'-', by decide, rfl⟩)
          | false => exact .inr rfl
        · exact .inl (mem_anyOf.2 ⟨'+', by decide, rfl⟩)
      refine mem_mul.2 ⟨[letter], mem_anyOf.2 ⟨letter, by simpa using hletter, rfl⟩, _, ?_, rfl⟩
      exact mem_mul.2 ⟨sign, hmark, digits, mem_digits.2 ⟨hne, hdigits⟩, rfl⟩

theorem mem_optional_exponent : cs ∈ (optional Pattern.exponent).matches' ↔ ∃ e, SpellsExponent e cs := by
  rw [mem_optional, mem_exponent]
  constructor
  · rintro (⟨e, he⟩ | rfl)
    · exact ⟨some e, he⟩
    · exact ⟨none, .none⟩
  · rintro ⟨_ | e, he⟩
    · cases he
      exact .inr rfl
    · exact .inl ⟨e, he⟩

/-- Digits with at most one point among them or at either end. -/
theorem mem_mantissa : cs ∈ mantissa.matches' ↔ ∃ whole fraction, cs = whole ++ fractionChars fraction ∧
    Digits whole ∧ (∀ ds ∈ fraction, Digits ds) ∧ ¬(whole = [] ∧ fraction.getD [] = []) := by
  constructor
  · rintro ((h | h) | h)
    · obtain ⟨whole, hwhole, point, hpoint, rfl⟩ := mem_mul.1 h
      obtain ⟨hne, hwhole⟩ := mem_digits.1 hwhole
      rcases mem_optional.1 hpoint with rfl | rfl
      · exact ⟨whole, some [], rfl, hwhole, by simp [Digits], fun hnone => hne hnone.1⟩
      · exact ⟨whole, none, rfl, hwhole, nofun, fun hnone => hne hnone.1⟩
    · obtain ⟨_, rfl, fraction, hfraction, rfl⟩ := mem_mul.1 h
      obtain ⟨hne, hfraction⟩ := mem_digits.1 hfraction
      exact ⟨[], some fraction, rfl, nofun, by simpa using hfraction, fun hnone => hne hnone.2⟩
    · obtain ⟨whole, hwhole, _, hrest, rfl⟩ := mem_mul.1 h
      obtain ⟨_, rfl, fraction, hfraction, rfl⟩ := mem_mul.1 hrest
      obtain ⟨hne, hwhole⟩ := mem_digits.1 hwhole
      have hdigits := (mem_digits.1 hfraction).2
      exact ⟨whole, some fraction, rfl, hwhole, by simpa using hdigits, fun hnone => hne hnone.1⟩
  · rintro ⟨whole, fraction, rfl, hwhole, hfraction, hdigit⟩
    cases fraction with
    | none =>
      have hne : whole ≠ [] := fun hnil => hdigit ⟨hnil, rfl⟩
      exact .inl (.inl (mem_mul.2 ⟨whole, mem_digits.2 ⟨hne, hwhole⟩, [], .inr rfl, rfl⟩))
    | some fraction =>
      have hdigits : Digits fraction := hfraction fraction rfl
      by_cases hne : whole = []
      · obtain rfl := hne
        have hnonempty : fraction ≠ [] := fun hnil => hdigit ⟨rfl, hnil⟩
        exact .inl (.inr (mem_mul.2 ⟨['.'], rfl, fraction, mem_digits.2 ⟨hnonempty, hdigits⟩, rfl⟩))
      · have hwhole := mem_digits.2 ⟨hne, hwhole⟩
        by_cases hnil : fraction = []
        · obtain rfl := hnil
          exact .inl (.inl (mem_mul.2 ⟨whole, hwhole, ['.'], .inl rfl, rfl⟩))
        · have hrest : '.' :: fraction ∈ (RegularExpression.char '.' * Pattern.digits).matches' :=
            mem_mul.2 ⟨['.'], rfl, fraction, mem_digits.2 ⟨hnil, hdigits⟩, rfl⟩
          exact .inr (mem_mul.2 ⟨whole, hwhole, _, hrest, rfl⟩)

theorem mem_numeral_iff : cs ∈ Pattern.numeral.matches' ↔ ∃ n : Numeral, n.IsSpelledAs cs := by
  constructor
  · intro h
    obtain ⟨_, hsign, _, hrest, rfl⟩ := mem_mul.1 h
    obtain ⟨_, hmantissa, tail, htail, rfl⟩ := mem_mul.1 hrest
    obtain ⟨negative, rfl⟩ := mem_sign.1 hsign
    obtain ⟨whole, fraction, rfl, hwhole, hfraction, hdigit⟩ := mem_mantissa.1 hmantissa
    obtain ⟨e, he⟩ := mem_optional_exponent.1 htail
    exact ⟨⟨negative, whole, fraction, e⟩, ⟨tail, he, by simp⟩, hwhole, hfraction, hdigit⟩
  · rintro ⟨n, ⟨tail, he, rfl⟩, hwhole, hfraction, hdigit⟩
    have hmantissa := mem_mantissa.2 ⟨n.whole, n.fraction, rfl, hwhole, hfraction, hdigit⟩
    have hrest := mem_mul.2 ⟨_, hmantissa, tail, mem_optional_exponent.2 ⟨n.exponent, he⟩, rfl⟩
    exact mem_mul.2 ⟨_, mem_sign.2 ⟨n.negative, rfl⟩, _, hrest, by simp⟩

/-- An integer in a text has no point and no exponent. -/
theorem isSpelledAs_iff_of_isInteger {n : Numeral} (h : n.isInteger = true) :
    n.IsSpelledAs cs ↔ cs = signChars n.negative ++ n.whole ∧ n.whole ≠ [] ∧ Digits n.whole := by
  obtain ⟨negative, whole, fraction, exponent⟩ := n
  obtain ⟨rfl, rfl⟩ : fraction = none ∧ exponent = none := by simpa [isInteger] using h
  constructor
  · rintro ⟨⟨_, ⟨⟩, rfl⟩, hwhole, -, hdigit⟩
    exact ⟨by simp [fractionChars], fun hnil => hdigit ⟨hnil, rfl⟩, hwhole⟩
  · rintro ⟨rfl, hne, hwhole⟩
    exact ⟨⟨[], .none, by simp [fractionChars]⟩, hwhole, nofun, fun hnone => hne hnone.1⟩

theorem mem_integer_iff :
    cs ∈ Pattern.integer.matches' ↔ ∃ n : Numeral, n.isInteger = true ∧ n.IsSpelledAs cs := by
  constructor
  · intro h
    obtain ⟨_, hsign, whole, hwhole, rfl⟩ := mem_mul.1 h
    obtain ⟨negative, rfl⟩ := mem_sign.1 hsign
    exact ⟨⟨negative, whole, none, none⟩, rfl,
      (isSpelledAs_iff_of_isInteger rfl).2 ⟨rfl, mem_digits.1 hwhole⟩⟩
  · rintro ⟨n, hn, hspelled⟩
    obtain ⟨rfl, hwhole⟩ := (isSpelledAs_iff_of_isInteger hn).1 hspelled
    exact mem_mul.2 ⟨_, mem_sign.2 ⟨n.negative, rfl⟩, n.whole, mem_digits.2 hwhole, rfl⟩

end Numeral
end TableQuery.Text
