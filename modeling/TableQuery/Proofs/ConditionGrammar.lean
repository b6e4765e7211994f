import TableQuery.Proofs.SourceText
import TableQuery.Proofs.Statements

/-! # The grammar of conditions

A condition is supported when its tokens are of one of three forms, and otherwise it is the text of its
clause. The documented lists hold literals between commas. Any tokens are read as a list, of which only the
literals count, unless one of them is a parenthesis.
-/
namespace TableQuery

theorem TokenKind.exists_eq_word_of_isKeyword {kind : TokenKind} {w : String} (h : kind.isKeyword w = true) :
    ∃ s, kind = .word s := by
  cases kind with
  | word s => exact ⟨s, rfl⟩
  | _ => cases h

theorem textBetweenPercents?_eq_some_iff {s text : String} :
    textBetweenPercents? s = some text ↔ text ≠ "" ∧ s = "%" ++ text ++ "%" := by
  have hlist : s = "%" ++ text ++ "%" ↔ s.toList = '%' :: (text.toList ++ ['%']) := by
    rw [← String.toList_inj, String.toList_append, String.toList_append]
    rfl
  have hempty : text ≠ "" ↔ text.toList ≠ [] := not_congr String.toList_eq_nil_iff.symm
  rw [hlist, hempty, textBetweenPercents?]
  constructor
  · intro h
    split at h
    next cs hcs =>
      split at h
      next hpercent =>
        obtain ⟨hlast, hne⟩ := hpercent
        have htext : cs.dropLast = text.toList := by rw [← Option.some.inj h, String.toList_ofList]
        exact ⟨htext ▸ hne, by rw [hcs, ← htext, List.dropLast_append_getLast? _ hlast]⟩
      next => cases h
    next => cases h
  · rintro ⟨hne, hs⟩
    simp [hs, hne]

namespace Predicate

inductive IsLiteralList : List TokenKind → Prop where
  | single (s : String) : IsLiteralList [.quoted s]
  | cons (s : String) {members : List TokenKind} (h : IsLiteralList members) :
      IsLiteralList (.quoted s :: .comma :: members)

structure IsFlatList (members : List TokenKind) : Prop where
  ne_nil : members ≠ []
  isParen_eq_false : ∀ m ∈ members, m.isParen = false

/-- The supported conditions and the tokens that stand for them, given what is a list. -/
inductive Grammar (IsList : List TokenKind → Prop) : List TokenKind → Predicate → Prop where
  | equals (column value : String) (h : value ≠ "") :
      Grammar IsList [.word column, .equals, .quoted value] (.equals column value)
  | contains (column text : String) {keyword : TokenKind} (hkeyword : keyword.isKeyword "LIKE" = true)
      (h : text ≠ "") :
      Grammar IsList [.word column, keyword, .quoted ("%" ++ text ++ "%")] (.contains column text)
  | oneOf (column : String) {keyword : TokenKind} {members : List TokenKind}
      (hkeyword : keyword.isKeyword "IN" = true) (h : IsList members) :
      Grammar IsList (.word column :: keyword :: .openParen :: (members ++ [.closeParen]))
        (.oneOf column (members.filterMap TokenKind.quoted?))

theorem IsLiteralList.isFlatList {members : List TokenKind} (h : IsLiteralList members) :
    IsFlatList members := by
  induction h with
  | single s => exact ⟨List.cons_ne_nil _ _, by simp [TokenKind.isParen]⟩
  | cons s _ ih =>
    refine ⟨List.cons_ne_nil _ _, ?_⟩
    simpa [TokenKind.isParen] using ih.isParen_eq_false

section
variable {kinds : List TokenKind} {p : Predicate} {IsList IsList' : List TokenKind → Prop}

theorem Grammar.mono (hlist : ∀ members, IsList members → IsList' members) (h : Grammar IsList kinds p) :
    Grammar IsList' kinds p := by
  cases h with
  | equals column value h => exact .equals column value h
  | contains column text hkeyword h => exact .contains column text hkeyword h
  | oneOf column hkeyword h => exact .oneOf column hkeyword (hlist _ h)

theorem Grammar.isSupported (h : Grammar IsList kinds p) : p.isSupported = true := by
  cases h <;> rfl

theorem members?_eq_some_iff {values : List String} : members? kinds = some values ↔
    ∃ members, IsFlatList members ∧ kinds = members ++ [.closeParen] ∧
      members.filterMap TokenKind.quoted? = values := by
  unfold members?
  dsimp only
  constructor
  · intro h
    split at h
    next hlist =>
      obtain ⟨hlast, hne, hparen⟩ := hlist
      refine ⟨kinds.dropLast, ⟨hne, by simpa using hparen⟩, ?_, Option.some.inj h⟩
      exact (List.dropLast_append_getLast? _ hlast).symm
    next => cases h
  · rintro ⟨members, hlist, rfl, rfl⟩
    simpa [hlist.ne_nil] using hlist.isParen_eq_false

/-- The conditions that are read are those of the grammar. -/
theorem ofKinds?_eq_some_iff : ofKinds? kinds = some p ↔ Grammar IsFlatList kinds p := by
  constructor
  · intro h
    unfold ofKinds? at h
    split at h
    next column value =>
      split at h
      next => cases h
      next hvalue =>
        cases h
        exact .equals column value hvalue
    next column keyword pattern _ =>
      split at h
      next hkeyword =>
        obtain ⟨text, htext, rfl⟩ := Option.map_eq_some_iff.1 h
        obtain ⟨hne, rfl⟩ := textBetweenPercents?_eq_some_iff.1 htext
        exact .contains column text hkeyword hne
      next => cases h
    next column keyword rest =>
      split at h
      next hkeyword =>
        obtain ⟨values, hvalues, rfl⟩ := Option.map_eq_some_iff.1 h
        obtain ⟨members, hlist, rfl, rfl⟩ := members?_eq_some_iff.1 hvalues
        exact .oneOf column hkeyword hlist
      next => cases h
    next => cases h
  · intro h
    cases h with
    | equals column value h => exact if_neg h
    | contains column text hkeyword h =>
      obtain ⟨w, rfl⟩ := TokenKind.exists_eq_word_of_isKeyword hkeyword
      have htext := textBetweenPercents?_eq_some_iff.2 ⟨h, rfl⟩
      change (if TokenKind.isKeyword "LIKE" (.word w) then _ else _) = _
      rw [if_pos hkeyword, htext, Option.map_some]
    | @oneOf column keyword members hkeyword h =>
      obtain ⟨w, rfl⟩ := TokenKind.exists_eq_word_of_isKeyword hkeyword
      have hmembers := members?_eq_some_iff.2 ⟨members, h, rfl, rfl⟩
      rw [ofKinds?, if_pos hkeyword, hmembers, Option.map_some]

theorem ofTokens_of_grammar {tokens : List Token} (h : Grammar IsFlatList (tokens.map (·.kind)) p)
    (source : List Char) : ofTokens source tokens = p := by
  rw [ofTokens, ofKinds?_eq_some_iff.2 h, Option.getD_some]

theorem ofTokens_of_not_grammar {tokens : List Token}
    (h : ∀ p, ¬Grammar IsFlatList (tokens.map (·.kind)) p) (source : List Char) :
    ofTokens source tokens = .unsupported (sourceText source tokens) := by
  have hnone : ofKinds? (tokens.map (·.kind)) = none :=
    Option.eq_none_iff_forall_ne_some.2 fun p hp => h p (ofKinds?_eq_some_iff.1 hp)
  rw [ofTokens, hnone, Option.getD_none]

theorem grammar_ofTokens {source : List Char} {tokens : List Token}
    (h : (ofTokens source tokens).isSupported = true) :
    Grammar IsFlatList (tokens.map (·.kind)) (ofTokens source tokens) := by
  rw [← ofKinds?_eq_some_iff]
  unfold ofTokens at h ⊢
  cases hk : ofKinds? (tokens.map (·.kind)) with
  | none =>
    rw [hk] at h
    cases h
  | some p => rfl

theorem ofTokens_of_not_isSupported {source : List Char} {tokens : List Token}
    (h : (ofTokens source tokens).isSupported = false) :
    ofTokens source tokens = .unsupported (sourceText source tokens) := by
  refine ofTokens_of_not_grammar (fun p hp => ?_) source
  rw [ofTokens_of_grammar hp, hp.isSupported] at h
  cases h

end
end Predicate

namespace Query
open Predicate (Grammar IsFlatList IsLiteralList)
variable {s : String} {q : Query} {body : List Token}

/-- A condition is evaluated just when its clause is of a supported form, and as this form says. Any other
clause is kept as it is written. -/
theorem isSupported_predicate_iff_grammar (h : parse s = .ok q)
    (hbody : clauseBody? (tokens s) .filter = some body) :
    (∀ p, q.predicate = some p ∧ p.isSupported = true ↔
        Grammar IsFlatList (body.map (·.kind)) p) ∧
      ((∀ p, ¬Grammar IsFlatList (body.map (·.kind)) p) →
        ∃ clause, q.predicate = some (.unsupported clause) ∧ IsSourceOf s.toList body clause) := by
  rw [predicate_of_parse h hbody]
  refine ⟨fun p => ⟨?_, fun hp => ?_⟩, fun hnone => ?_⟩
  · rintro ⟨⟨⟩, hsupported⟩
    exact Predicate.grammar_ofTokens hsupported
  · rw [Predicate.ofTokens_of_grammar hp]
    exact ⟨rfl, hp.isSupported⟩
  · rw [Predicate.ofTokens_of_not_grammar hnone]
    exact ⟨_, rfl, isSourceOf_sourceText (isInfix_of_clauseBody? hbody)⟩

/-- A list need not hold literals only: a number in it is passed over. -/
theorem not_isSupported_predicate_iff_literals : ¬∀ (s : String) (q : Query) (body : List Token),
    parse s = .ok q → clauseBody? (tokens s) .filter = some body →
      ((∃ p, q.predicate = some p ∧ p.isSupported = true) ↔
        ∃ p, Grammar IsLiteralList (body.map (·.kind)) p) := by
  intro h
  have hparse : parse "SELECT * FROM t WHERE n IN (1, '2')" =
      .ok ⟨.all, some "t", some (.oneOf "n" ["2"]), none, none, false⟩ := by decide +kernel
  have hbody : (clauseBody? (tokens "SELECT * FROM t WHERE n IN (1, '2')") .filter).map
      (·.map (·.kind)) = some [.word "n", .word "IN", .openParen, .number "1", .comma, .quoted "2",
        .closeParen] := by decide +kernel
  obtain ⟨body, hclause, hkinds⟩ := Option.map_eq_some_iff.1 hbody
  obtain ⟨p, hp⟩ := (h _ _ body hparse hclause).1 ⟨_, rfl, rfl⟩
  rw [hkinds] at hp
  generalize hks : [TokenKind.word "n", .word "IN", .openParen, .number "1", .comma, .quoted "2",
    .closeParen] = kinds at hp
  cases hp with
  | equals => cases hks
  | contains => cases hks
  | @oneOf _ _ members _ hlist =>
    have hmembers : members = [.number "1", .comma, .quoted "2"] := by
      simpa using (congrArg (fun kinds => (kinds.drop 3).dropLast) hks).symm
    rw [hmembers] at hlist
    cases hlist

/-- White space inside a clause is kept, that around it and the semicolon are not. -/
theorem isSupported_predicate_iff_grammar_null :
    let s := "SELECT a FROM t WHERE  fax IS  NULL ;"
    ∃ q body, parse s = .ok q ∧ clauseBody? (tokens s) .filter = some body ∧
      q.predicate = some (.unsupported "fax IS  NULL") ∧
      (∀ p, q.predicate = some p ∧ p.isSupported = true ↔
        Grammar IsFlatList (body.map (·.kind)) p) ∧
      ((∀ p, ¬Grammar IsFlatList (body.map (·.kind)) p) →
        ∃ clause, q.predicate = some (.unsupported clause) ∧ IsSourceOf s.toList body clause) := by
  intro s
  have hparse : parse s =
      .ok ⟨.columns ["a"], some "t", some (.unsupported "fax IS  NULL"), none, none, false⟩ := by
    decide +kernel
  have hbody : clauseBody? (tokens s) .filter =
      some [⟨.word "fax", 23, 26⟩, ⟨.word "IS", 27, 29⟩, ⟨.word "NULL", 31, 35⟩] := by decide +kernel
  exact ⟨_, _, hparse, hbody, rfl, isSupported_predicate_iff_grammar hparse hbody⟩

end Query
end TableQuery
