import TableQuery.Query.Token

/-! # Literals before other text

A literal is read back as its content, whatever stands behind it, unless that begins with the quote of the
literal. The text behind it is read as it is when it stands alone, only further on.
-/
namespace TableQuery
open Text

def Token.shift (offset : Nat) (t : Token) : Token := ⟨t.kind, offset + t.start, offset + t.stop⟩

theorem tokensFrom_add (offset position : Nat) (cs : List Char) :
    tokensFrom (offset + position) cs = (tokensFrom position cs).map (Token.shift offset) := by
  induction position, cs using tokensFrom.induct with
  | case1 position => rw [tokensFrom, tokensFrom, List.map_nil]
  | case2 position c cs hc ih => rw [tokensFrom, tokensFrom, if_pos hc, if_pos hc, Nat.add_assoc, ih]
  | case3 position c cs hc lexeme stop ih =>
    rw [tokensFrom, tokensFrom, if_neg hc, if_neg hc, List.map_cons, Token.shift]
    dsimp only
    rw [Nat.add_assoc]
    exact congrArg _ ih

variable {quote : Char} {rest : List Char}

theorem Lexeme.first_literal (hquote : quote = '\x27' ∨ quote = '"') (h : rest.head? ≠ some quote)
    (s : String) : first quote (Quoted.doubled quote s.toList ++ quote :: rest) =
      ⟨.quoted s, Quoted.encode quote s.toList, rest⟩ := by
  rw [first, if_pos hquote, ofQuote, Quoted.scan_doubled h]
  dsimp only
  rw [String.ofList_toList]

/-- A quote that another one follows does not close a literal, so that its content goes on. -/
theorem Lexeme.kind_first_literal_ne (hquote : quote = '\x27' ∨ quote = '"') (h : rest.head? = some quote)
    (s : String) : (first quote (Quoted.doubled quote s.toList ++ quote :: rest)).kind ≠ .quoted s := by
  rw [first, if_pos hquote, ofQuote]
  cases hs : Quoted.scan quote (Quoted.doubled quote s.toList ++ quote :: rest) with
  | mk content tail =>
    cases tail with
    | none => exact TokenKind.noConfusion
    | some tail =>
      intro hkind
      obtain ⟨heq, htail⟩ := Quoted.eq_append_of_scan hs
      have hcontent : String.ofList content = s := TokenKind.quoted.inj hkind
      rw [← hcontent, String.toList_ofList] at heq
      obtain rfl : rest = tail := (List.cons.inj (List.append_cancel_left heq)).2
      exact htail h

/-- A literal is the first token of a text exactly when its quote does not follow it; all other tokens are then
those of the text that follows. -/
theorem tokenize_literal_append (hquote : quote = '\x27' ∨ quote = '"') (s rest : String) :
    tokenize (String.ofList (Quoted.encode quote s.toList) ++ rest) =
        ⟨.quoted s, 0, byteLength (Quoted.encode quote s.toList)⟩ ::
          (tokenize rest).map (Token.shift (byteLength (Quoted.encode quote s.toList))) ↔
      rest.toList.head? ≠ some quote := by
  have htext : (String.ofList (Quoted.encode quote s.toList) ++ rest).toList =
      quote :: (Quoted.doubled quote s.toList ++ quote :: rest.toList) := by
    rw [String.toList_append, String.toList_ofList]
    simp [Quoted.encode]
  have hspace : ¬isSpace quote = true := by
    rcases hquote with rfl | rfl <;> decide
  rw [tokenize, htext, tokensFrom, if_neg hspace]
  constructor
  · intro h hhead
    exact Lexeme.kind_first_literal_ne hquote hhead s (congrArg Token.kind (List.cons.inj h).1)
  · intro h
    rw [Lexeme.first_literal hquote h]
    dsimp only
    rw [Nat.zero_add, ← Nat.add_zero (byteLength _), tokensFrom_add, Nat.add_zero, tokenize]

/-- Quotes at both ends of the content, one of the other kind and a letter of two bytes inside, and the other
quote right behind the literal. -/
theorem tokenize_literal_append_runs_of_quotes :
    let s := "'\"ü''"
    let rest := "\"a\" b'c"
    let source := Quoted.encode '\x27' s.toList
    String.ofList source = "'''\"ü'''''" ∧ rest.toList.head? ≠ some '\x27' ∧
      tokenize (String.ofList source ++ rest) =
        [⟨.quoted s, 0, 11⟩, ⟨.quoted "a", 11, 14⟩, ⟨.word "b", 15, 16⟩, ⟨.unclosed "c", 16, 18⟩] := by
  intro s rest source
  have hhead : rest.toList.head? ≠ some '\x27' := by decide
  have htokens := (tokenize_literal_append (.inl rfl) s rest).2 hhead
  have hrest : tokenize rest = [⟨.quoted "a", 0, 3⟩, ⟨.word "b", 4, 5⟩, ⟨.unclosed "c", 5, 7⟩] := by
    decide +kernel
  have hlength : byteLength source = 11 := by decide +kernel
  refine ⟨by decide, hhead, htokens.trans ?_⟩
  rw [hrest, hlength]
  rfl

end TableQuery
