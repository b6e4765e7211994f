import TableQuery.Proofs.ClauseOrder
import TableQuery.Proofs.NumeralSpelling
import TableQuery.Proofs.QueryFailures

/-! # Limits

However a natural number is written in decimal, as a limit it keeps that many rows. A number that is too great
to be stored keeps all of them.
-/
namespace TableQuery
open Text Piece Numeral

theorem eq_point_of_mem_head? (fraction : Option (List Char)) :
    ∀ c ∈ (fractionChars fraction).head?, c = '.' := by
  cases fraction with
  | none => exact nofun
  | some ds =>
    rintro c ⟨⟩
    rfl

/-- The number is written with its digits, any zeros before them and perhaps more digits behind a point. -/
def IsDecimalOf (n : Nat) (cs : List Char) : Prop :=
  ∃ zeros fraction, cs = List.replicate zeros '0' ++ Nat.toDigits 10 n ++ fractionChars fraction ∧
    ∀ ds ∈ fraction, ds ≠ [] ∧ Digits ds

namespace IsDecimalOf
variable {n : Nat} {cs : List Char}

/-- The digits before the point denote the number. -/
theorem exists_whole (h : IsDecimalOf n cs) : ∃ whole fraction, cs = whole ++ fractionChars fraction ∧
    whole ≠ [] ∧ Digits whole ∧ Nat.ofDigitChars 10 whole 0 = n ∧
    ∀ ds ∈ fraction, ds ≠ [] ∧ Digits ds := by
  obtain ⟨zeros, fraction, rfl, hfraction⟩ := h
  have hzeros : Digits (List.replicate zeros '0') := by
    intro c hc
    rw [List.eq_of_mem_replicate hc]
    decide
  refine ⟨_, fraction, rfl, List.append_ne_nil_of_right_ne_nil _ Nat.toDigits_ne_nil,
    hzeros.append (digits_toDigits n), ?_, hfraction⟩
  rw [Nat.ofDigitChars_append, Nat.ofDigitChars_replicate_zero, Nat.mul_zero,
    Nat.ofDigitChars_toDigits (by decide) (by decide)]

/-- The whole text is one number. -/
theorem first_eq (h : IsDecimalOf n cs) : ∃ c ds, cs = c :: ds ∧ isSpace c = false ∧
    Lexeme.first c ds = ⟨.number (String.ofList cs), cs, []⟩ := by
  obtain ⟨whole, fraction, rfl, hne, hwhole, -, hfraction⟩ := h.exists_whole
  obtain ⟨c, ds, rfl⟩ := List.exists_cons_of_ne_nil hne
  have hc : c.isDigit = true := hwhole c List.mem_cons_self
  have hquote : ¬(c = '\x27' ∨ c = '"') := by
    rintro (rfl | rfl) <;> revert hc <;> decide
  have hpoint : ∀ x ∈ (fractionChars fraction).head?, x.isDigit = false := by
    intro x hx
    rw [eq_point_of_mem_head? fraction x hx]
    decide
  have hsplit : Lexeme.splitFraction (fractionChars fraction) = (fractionChars fraction, []) := by
    cases fraction with
    | none => rfl
    | some digits =>
      obtain ⟨hdigitsne, hdigits⟩ := hfraction digits rfl
      have hcut := @Lexeme.splitFraction_point digits [] hdigitsne hdigits nofun
      rwa [List.append_nil] at hcut
  refine ⟨c, ds ++ fractionChars fraction, rfl, isSpace_of_isDigit hc, ?_⟩
  rw [Lexeme.first, if_neg hquote, if_pos hc, Lexeme.ofNumber, ← List.cons_append, takeWhile_run hwhole hpoint,
    dropWhile_run hwhole hpoint, hsplit]

theorem limitOfNumber_eq (h : IsDecimalOf n cs) : limitOfNumber cs = UInt64.ofNat (min maxLimit n) := by
  obtain ⟨whole, fraction, rfl, -, hwhole, hn, -⟩ := h.exists_whole
  have hdigits : ∀ c ∈ whole, (c != '.') = true := by
    intro c hc
    rw [bne_iff_ne]
    rintro rfl
    exact absurd (hwhole '.' hc) (by decide)
  have hpoint : ∀ c ∈ (fractionChars fraction).head?, (c != '.') = false := by
    intro c hc
    rw [eq_point_of_mem_head? fraction c hc]
    rfl
  rw [limitOfNumber, takeWhile_run hdigits hpoint, hn]

theorem tokensFrom_eq (h : IsDecimalOf n cs) (position : Nat) :
    tokensFrom position cs = [⟨.number (String.ofList cs), position, position + byteLength cs⟩] := by
  obtain ⟨c, ds, rfl, hspace, hfirst⟩ := h.first_eq
  rw [tokensFrom, if_neg (ne_true_of_eq_false hspace), hfirst]
  dsimp only
  rw [tokensFrom]

theorem kinds_eq (h : IsDecimalOf n cs) : kinds cs = [.number (String.ofList cs)] := by
  rw [kinds, h.tokensFrom_eq]
  rfl

theorem isSealed (h : IsDecimalOf n cs) : IsSealed cs where
  isClosed := by
    rw [IsClosed, h.kinds_eq, List.forall_mem_singleton]
    rfl
  ne_semicolon := by
    rw [h.kinds_eq, List.forall_mem_singleton]
    exact TokenKind.noConfusion
  quiet := by
    rw [h.tokensFrom_eq]
    exact quiet_nil.cons (ClauseKind.ofTokens?_of_not_word rfl _) rfl

end IsDecimalOf

/-- A clause of another kind can be added to a statement. -/
theorem Wording.Sound.append_clause {u : Wording} (h : u.Sound) {c : WordedClause} (hc : c.Sound)
    (hkind : c.kind ∉ u.clauses.map (·.kind)) : Sound { u with clauses := u.clauses ++ [c] } where
  spells_select := h.spells_select
  gap_isSpace := h.gap_isSpace
  endsWord_list := h.endsWord_list
  isSealed_list := h.isSealed_list
  sound_clauses := List.forall_mem_append.2 ⟨h.sound_clauses, List.forall_mem_singleton.2 hc⟩
  nodup_kinds := by
    rw [List.map_append, List.map_singleton]
    exact List.nodup_append_comm.1 (h.nodup_kinds.cons hkind)
  tail_end := h.tail_end

def Wording.unlimited : Wording :=
  ⟨⟨[], "SELECT".toList, .word "SELECT"⟩, [' '], ['*'], [⟨.source, [word "FROM"], [' '], ['t']⟩], []⟩

def WordedClause.limit (body : List Char) : WordedClause := ⟨.limit, [word "LIMIT"], [' '], body⟩

def Wording.limited (body : List Char) : Wording :=
  { unlimited with clauses := unlimited.clauses ++ [.limit body] }

theorem IsDecimalOf.sound_limited {n : Nat} {cs : List Char} (h : IsDecimalOf n cs) :
    (Wording.limited cs).Sound := by
  have hunlimited : Wording.unlimited.Sound := by decide +kernel
  have hkeyword : (word "LIMIT").Spells "LIMIT" ∧ (word "LIMIT").gap ≠ [] := by decide +kernel
  have hspace : EndsWord ([' '] ++ cs) := by
    rintro c ⟨⟩
    decide
  exact hunlimited.append_clause ⟨.cons hkeyword .nil, isSpace_of_mem_space, hspace, h.isSealed⟩
    (by decide : ClauseKind.limit ∉ [ClauseKind.source])

theorem Wording.text_limited (body : List Char) :
    (limited body).text = "SELECT * FROM t LIMIT " ++ String.ofList body := by
  rw [text, chars, ← String.toList_inj]
  simp [limited, unlimited, WordedClause.limit, WordedClause.chars, Piece.chars, word]

namespace Query
variable {d : Dataset} {n : Nat} {cs : List Char}

theorem parse_limited (h : IsDecimalOf n cs) : parse ("SELECT * FROM t LIMIT " ++ String.ofList cs) =
    .ok ⟨.all, some "t", none, none, some (UInt64.ofNat (min maxLimit n)), false⟩ := by
  have hlimit : limitOfTokens? (tokensFrom 0 cs) = some (UInt64.ofNat (min maxLimit n)) := by
    rw [h.tokensFrom_eq, ← h.limitOfNumber_eq, limitOfTokens?]
    simp [TokenKind.number?]
  have hquery : ofBodies ['*'] [(.source, ['t']), (.limit, cs)] =
      ⟨.all, some "t", none, none, limitOfTokens? (tokensFrom 0 cs), false⟩ := by
    have hsource : Projection.ofTokens ['*'] (tokensFrom 0 ['*']) = .all ∧
        tableOfTokens? (tokensFrom 0 ['t']) = some "t" := by decide +kernel
    rw [← hsource.1, ← hsource.2]
    rfl
  have hjoin : ((kinds ['*']).any TokenKind.mentionsJoin ||
      [(ClauseKind.source, ['t']), (.limit, cs)].any fun b => (kinds b.2).any TokenKind.mentionsJoin) = false := by
    have hsource : ((kinds ['*']).any TokenKind.mentionsJoin ||
        (kinds ['t']).any TokenKind.mentionsJoin) = false := by decide +kernel
    rw [List.any_cons, List.any_cons, List.any_nil, h.kinds_eq, ← Bool.or_assoc, hsource]
    rfl
  rw [← Wording.text_limited, h.sound_limited.parse_text]
  change parseBodies ['*'] [(.source, ['t']), (.limit, cs)] = _
  rw [parseBodies, if_neg (ne_true_of_eq_false hjoin), hquery, hlimit]

/-- A limit that is not stored as it is keeps no fewer rows. -/
theorem take_min_maxLimit {α : Type} {xs : List α} (h : xs.length < Nat.pow 2 64) (n : Nat) :
    xs.take (UInt64.ofNat (min maxLimit n)).toNat = xs.take (min n xs.length) := by
  have hlength : xs.length ≤ maxLimit := Nat.le_pred_of_lt h
  have hn : (UInt64.ofNat (min maxLimit n)).toNat = min maxLimit n :=
    UInt64.toNat_ofNat_of_lt' (Nat.lt_of_le_pred (by decide) (Nat.min_le_left _ _))
  rw [hn, List.take_eq_take_iff]
  omega

/-- However great a limit is and however it is written, that many rows are kept, or all that there are. -/
theorem run_limit {policy : Policy} (hd : d.WellFormed) (hcount : d.rowCount < Nat.pow 2 64)
    (hn : IsDecimalOf n cs) :
    run policy ("SELECT * FROM t LIMIT " ++ String.ofList cs) d =
      .ok ⟨{ d with rows := d.rows.take (min n d.rowCount) }, []⟩ := by
  have htaken : ({ d with rows := d.rows.take (min n d.rowCount) } : Dataset).WellFormed :=
    { hd with length_row := fun row hrow => hd.length_row row (List.mem_of_mem_take hrow) }
  by_cases hrows : d.rows = []
  · rw [run_of_rows_eq_nil hrows, hrows, List.take_nil, ← hrows]
  · rw [run_of_parse_eq_ok (parse_limited hn)]
    refine execute_of_derived hrows rfl (checkPredicate_of_supported (by rintro _ ⟨⟩) policy) ?_
    refine Dataset.ofParts_eq_ok_iff.2 ⟨htaken, rfl, rfl, ?_⟩
    exact (take_min_maxLimit hcount n).symm

/-- A limit that is greater by one than 64 bits can hold keeps both rows, and of 1.9 the fraction is dropped. -/
theorem run_limit_beyond_64_bits :
    let d : Dataset := ⟨[⟨"city", .string⟩], [1], ["note", "city"],
      [[.null, .text "Ulm"], [.integer 7, .text "Bonn"]]⟩
    let great := "0018446744073709551616".toList
    let small := "01.9".toList
    d.WellFormed ∧ d.rowCount < Nat.pow 2 64 ∧
      IsDecimalOf 18446744073709551616 great ∧ IsDecimalOf 1 small ∧
      run .ignore ("SELECT * FROM t LIMIT " ++ String.ofList great) d = .ok ⟨d, []⟩ ∧
      run .reject ("SELECT * FROM t LIMIT " ++ String.ofList small) d =
        .ok ⟨{ d with rows := [[.null, .text "Ulm"]] }, []⟩ := by
  intro d great small
  have hd : d.WellFormed := by constructor <;> decide
  have hcount : d.rowCount < Nat.pow 2 64 := by decide
  have hgreat : IsDecimalOf 18446744073709551616 great := ⟨2, none, by decide +kernel, nofun⟩
  have hsmall : IsDecimalOf 1 small := by
    refine ⟨1, some ['9'], by decide +kernel, ?_⟩
    rintro ds ⟨⟩
    exact ⟨List.cons_ne_nil _ _, List.forall_mem_singleton.2 (by decide)⟩
  exact ⟨hd, hcount, hgreat, hsmall, run_limit hd hcount hgreat, run_limit hd hcount hsmall⟩

end Query
end TableQuery
