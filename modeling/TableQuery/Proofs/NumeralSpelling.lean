import TableQuery.Proofs.Runs
import TableQuery.Text.Numeral

/-! # How numerals are spelled

A numeral is read from a text exactly when the text is put together from its parts: a minus sign if it is
negative, digits, the fraction behind a point and the exponent behind its letter. So a text is read in one
way at most, and the characters that a numeral is written as are read back.
-/
namespace TableQuery.Text.Numeral

def signChars (negative : Bool) : List Char := if negative then ['-'] else []

def fractionChars : Option (List Char) → List Char
  | none => []
  | some digits => '.' :: digits

def exponentChars : Option (Bool × List Char) → List Char
  | none => []
  | some (negative, digits) => 'e' :: (if negative then '-' else '+') :: digits

def chars (n : Numeral) : List Char :=
  signChars n.negative ++ (n.whole ++ (fractionChars n.fraction ++ exponentChars n.exponent))

def Digits (cs : List Char) : Prop := ∀ c ∈ cs, c.isDigit = true

theorem Digits.append {cs ds : List Char} (hcs : Digits cs) (hds : Digits ds) : Digits (cs ++ ds) :=
  List.forall_mem_append.2 ⟨hcs, hds⟩

theorem Digits.sublist {cs ds : List Char} (hds : Digits ds) (h : cs.Sublist ds) : Digits cs := fun c hc =>
  hds c (h.subset hc)

theorem digits_toDigits (n : Nat) : Digits (Nat.toDigits 10 n) := fun _ hc =>
  Nat.isDigit_of_mem_toDigits (by decide) (by decide) hc

/-- The exponent in a text. Its letter is of either case, and a plus sign may be left out. -/
inductive SpellsExponent : Option (Bool × List Char) → List Char → Prop
  | none : SpellsExponent none []
  | some {letter : Char} {negative : Bool} {sign digits : List Char} (hletter : letter = 'e' ∨ letter = 'E')
      (hsign : sign = signChars negative ∨ negative = false ∧ sign = ['+']) (hne : digits ≠ [])
      (hdigits : Digits digits) : SpellsExponent (some (negative, digits)) (letter :: (sign ++ digits))

structure IsSpelledAs (n : Numeral) (cs : List Char) : Prop where
  eq_append : ∃ tail, SpellsExponent n.exponent tail ∧
    cs = signChars n.negative ++ (n.whole ++ (fractionChars n.fraction ++ tail))
  whole : Digits n.whole
  fraction : ∀ ds ∈ n.fraction, Digits ds
  has_digit : ¬(n.whole = [] ∧ n.fraction.getD [] = [])

theorem sign_signChars_append (negative : Bool) {cs : List Char} (h : cs.head? ≠ some '-') :
    sign (signChars negative ++ cs) = (negative, cs) := by
  cases negative with
  | true => rfl
  | false =>
    change sign cs = (false, cs)
    unfold sign
    split
    next => exact absurd rfl h
    next => rfl

theorem signChars_sign (cs : List Char) : signChars (sign cs).1 ++ (sign cs).2 = cs := by
  unfold sign
  split <;> rfl

theorem exponentSign_append {negative : Bool} {sign cs : List Char}
    (hsign : sign = signChars negative ∨ negative = false ∧ sign = ['+'])
    (h : ∀ c ∈ cs.head?, c.isDigit = true) : exponentSign (sign ++ cs) = (negative, cs) := by
  rcases hsign with rfl | ⟨rfl, rfl⟩
  · cases negative with
    | true => rfl
    | false =>
      change exponentSign cs = (false, cs)
      unfold exponentSign
      split
      next => exact absurd (h '-' rfl) (by decide)
      next => exact absurd (h '+' rfl) (by decide)
      next => rfl
  · rfl

theorem exists_exponentSign (cs : List Char) : ∃ sign, cs = sign ++ (exponentSign cs).2 ∧
    (sign = signChars (exponentSign cs).1 ∨ (exponentSign cs).1 = false ∧ sign = ['+']) := by
  unfold exponentSign
  split
  next => exact ⟨['-'], rfl, .inl rfl⟩
  next => exact ⟨['+'], rfl, .inr ⟨rfl, rfl⟩⟩
  next => exact ⟨[], rfl, .inl rfl⟩

theorem exponentPart?_eq_some_iff {cs : List Char} {e : Option (Bool × List Char)} :
    exponentPart? cs = some e ↔ SpellsExponent e cs := by
  constructor
  · intro h
    cases cs with
    | nil =>
      cases h
      exact .none
    | cons c cs =>
      rw [exponentPart?] at h
      dsimp only at h
      split at h
      next hc =>
        obtain rfl := Option.some.inj h
        obtain ⟨sign, hcs, hsign⟩ := exists_exponentSign cs
        rw [congrArg (List.cons c) hcs]
        exact .some hc.1 hsign hc.2.1 (List.all_eq_true.1 hc.2.2)
      next => cases h
  · intro h
    cases h with
    | none => rfl
    | some hletter hsign hne hdigits =>
      have hhead := exponentSign_append hsign fun c hc => hdigits c (List.mem_of_mem_head? hc)
      rw [exponentPart?, hhead]
      exact if_pos ⟨hletter, hne, List.all_eq_true.2 hdigits⟩

/-- An exponent begins with its letter. -/
theorem SpellsExponent.head? {e : Option (Bool × List Char)} {tail : List Char} (h : SpellsExponent e tail) :
    ∀ c ∈ tail.head?, c.isDigit = false ∧ c ≠ '.' := by
  intro c hc
  cases h with
  | none => cases hc
  | some hletter =>
    cases hc
    rcases hletter with rfl | rfl <;> decide

theorem head?_fractionChars_append {f : Option (List Char)} {tail : List Char}
    (h : ∀ c ∈ tail.head?, c.isDigit = false) : ∀ c ∈ (fractionChars f ++ tail).head?, c.isDigit = false := by
  intro c hc
  cases f with
  | none => exact h c hc
  | some digits =>
    cases hc
    decide

theorem pointAndFraction_append {f : Option (List Char)} {tail : List Char} (h : ∀ ds ∈ f, Digits ds)
    (ht : ∀ c ∈ tail.head?, c.isDigit = false ∧ c ≠ '.') :
    pointAndFraction (fractionChars f ++ tail) = (f, tail) := by
  cases f with
  | none =>
    change pointAndFraction tail = (none, tail)
    unfold pointAndFraction
    split
    next => exact absurd rfl (ht '.' rfl).2
    next => rfl
  | some digits =>
    have hend : ∀ c ∈ tail.head?, c.isDigit = false := fun c hc => (ht c hc).1
    change (some ((digits ++ tail).takeWhile Char.isDigit), (digits ++ tail).dropWhile Char.isDigit) = _
    rw [takeWhile_run (h digits rfl) hend, dropWhile_run (h digits rfl) hend]

theorem fractionChars_pointAndFraction (cs : List Char) :
    fractionChars (pointAndFraction cs).1 ++ (pointAndFraction cs).2 = cs ∧
      ∀ ds ∈ (pointAndFraction cs).1, Digits ds := by
  unfold pointAndFraction
  split
  next cs =>
    refine ⟨congrArg (List.cons '.') List.takeWhile_append_dropWhile, ?_⟩
    rintro _ ⟨⟩
    exact forall_mem_takeWhile _ cs
  next => exact ⟨rfl, nofun⟩

variable {n : Numeral} {cs : List Char}

theorem isSpelledAs_of_ofChars? (h : ofChars? cs = some n) : n.IsSpelledAs cs := by
  have hsign := signChars_sign cs
  obtain ⟨hpoint, hfraction⟩ := fractionChars_pointAndFraction ((sign cs).2.dropWhile Char.isDigit)
  unfold ofChars? at h
  dsimp only at h
  split at h
  next => cases h
  next hdigit =>
    obtain ⟨exponent, hexponent, rfl⟩ := Option.map_eq_some_iff.1 h
    refine ⟨⟨_, exponentPart?_eq_some_iff.1 hexponent, ?_⟩, forall_mem_takeWhile _ _, hfraction, hdigit⟩
    dsimp only
    rw [hpoint, List.takeWhile_append_dropWhile, hsign]

theorem IsSpelledAs.ofChars?_eq (h : n.IsSpelledAs cs) : ofChars? cs = some n := by
  obtain ⟨negative, whole, fraction, exponent⟩ := n
  obtain ⟨⟨tail, hexponent, rfl⟩, hwhole, hfraction, hdigit⟩ := h
  dsimp only at hexponent hwhole hfraction hdigit ⊢
  have hrest : ∀ c ∈ (fractionChars fraction ++ tail).head?, c.isDigit = false :=
    head?_fractionChars_append fun c hc => (hexponent.head? c hc).1
  have hhead : (whole ++ (fractionChars fraction ++ tail)).head? ≠ some '-' := by
    intro hc
    cases whole with
    | cons c whole =>
      obtain rfl : c = '-' := Option.some.inj hc
      exact absurd (hwhole '-' List.mem_cons_self) (by decide)
    | nil =>
      cases fraction with
      | none => exact hdigit ⟨rfl, rfl⟩
      | some digits => exact absurd (Option.some.inj hc) (by decide)
  unfold ofChars?
  rw [sign_signChars_append negative hhead]
  dsimp only
  rw [takeWhile_run hwhole hrest, dropWhile_run hwhole hrest,
    pointAndFraction_append hfraction hexponent.head?]
  dsimp only
  rw [if_neg hdigit, exponentPart?_eq_some_iff.2 hexponent]
  rfl

/-- Nothing else is read as a numeral, and a text is not read as two. -/
theorem ofChars?_eq_some_iff : ofChars? cs = some n ↔ n.IsSpelledAs cs :=
  ⟨isSpelledAs_of_ofChars?, IsSpelledAs.ofChars?_eq⟩

/-- Digits stand before the point, and where there is an exponent, in it. -/
structure Writable (n : Numeral) : Prop where
  whole_ne_nil : n.whole ≠ []
  whole : Digits n.whole
  fraction : ∀ cs ∈ n.fraction, Digits cs
  exponent : ∀ e ∈ n.exponent, e.2 ≠ [] ∧ Digits e.2

theorem spellsExponent_exponentChars {e : Option (Bool × List Char)}
    (h : ∀ x ∈ e, x.2 ≠ [] ∧ Digits x.2) : SpellsExponent e (exponentChars e) := by
  rcases e with - | ⟨negative, digits⟩
  · exact .none
  · obtain ⟨hne, hdigits⟩ := h (negative, digits) rfl
    cases negative with
    | true =>
      change SpellsExponent _ ('e' :: (signChars true ++ digits))
      exact .some (.inl rfl) (.inl rfl) hne hdigits
    | false =>
      change SpellsExponent _ ('e' :: (['+'] ++ digits))
      exact .some (.inl rfl) (.inr ⟨rfl, rfl⟩) hne hdigits

theorem Writable.isSpelledAs (h : n.Writable) : n.IsSpelledAs n.chars where
  eq_append := ⟨_, spellsExponent_exponentChars h.exponent, rfl⟩
  whole := h.whole
  fraction := h.fraction
  has_digit hnone := h.whole_ne_nil hnone.1

/-- A written numeral is read back. -/
theorem ofChars?_chars (h : n.Writable) : ofChars? n.chars = some n := h.isSpelledAs.ofChars?_eq

end TableQuery.Text.Numeral
