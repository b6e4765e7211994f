import TableQuery.Proofs.ConditionGrammar
import TableQuery.Proofs.PrintedQuery
import TableQuery.Proofs.SelectList
import TableQuery.Proofs.WholeWords

/-! # Reading printed queries

A canonical query is read back from its text: each part of it from the clause it was printed in.
-/
namespace TableQuery
open Text Piece

theorem isFreeOfJoin_between_percents {s : String} :
    IsFreeOfJoin ("%" ++ s ++ "%") ↔ IsFreeOfJoin s := by
  have hlist : ("%" ++ s ++ "%").toList = '%' :: (s.toList ++ ['%']) := by simp
  have hpercent : isWordChar '%' = false := by decide
  unfold IsFreeOfJoin holdsWord
  rw [hlist, runs, hpercent, runs_append_cons hpercent]
  simp [runs]

theorem items_names (n : String) (names : List String) :
    items 0 (listed (word n) (names.map word)) = (n :: names).map fun m => [word m] := by
  induction names generalizing n with
  | nil => rfl
  | cons m names ih =>
    have hm := ih m
    have hlist : listed (word n) ((m :: names).map word) =
        word n :: comma :: listed (word m) (names.map word) := rfl
    have hdepth : depthAfter 0 ⟨(word n).kind, 0, 0⟩ = 0 := rfl
    have hcomma (ps : List Piece) : items 0 (comma :: ps) = [] :: items 0 ps := rfl
    rw [hlist, items, if_neg (by simp [word]), hdepth, hcomma, hm]
    rfl

theorem Projection.IsCanonical.projection_pieces {p : Projection} (h : p.IsCanonical) :
    projection p.pieces = p := by
  match p with
  | all => rfl
  | columns (n :: names) =>
    have hfold : ∀ m ∈ n :: names, fold (String.ofList (sourceOf [word m])) = m := by
      intro m hm
      rw [sourceOf, textOf_nil, List.append_nil, word, String.ofList_toList]
      exact (h.2 m hm).2
    have hnames : ((n :: names).map fun m => [word m]).map
        (fun item => fold (String.ofList (sourceOf item))) = n :: names := by
      rw [List.map_map]
      exact (List.map_congr_left hfold).trans (List.map_id _)
    have hkept {p : List Piece → Bool} (hp : ∀ m, p [word m] = true) :
        ((n :: names).map fun m => [word m]).filter p = (n :: names).map fun m => [word m] :=
      List.filter_eq_self.2 (List.forall_mem_map.2 fun m _ => hp m)
    rw [pieces, projection, items_names, hkept fun _ => rfl, hkept fun _ => rfl, hnames]
    rfl

theorem filterMap_quoted?_listed (gap : List Char) (v : String) (values : List String) :
    ((listed (quoted gap v) (values.map (quoted [' ']))).map (·.kind)).filterMap TokenKind.quoted? =
      v :: values := by
  induction values generalizing gap v with
  | nil => rfl
  | cons w values ih =>
    have hw := ih [' '] w
    exact congrArg (v :: ·) hw

theorem isLiteralList_listed (gap : List Char) (v : String) (values : List String) :
    Predicate.IsLiteralList ((listed (quoted gap v) (values.map (quoted [' ']))).map (·.kind)) := by
  induction values generalizing gap v with
  | nil => exact .single v
  | cons w values ih => exact .cons v (ih [' '] w)

/-- A printed condition is one of the documented grammar. -/
theorem Predicate.IsLegible.grammar {p : Predicate} (h : p.IsLegible) :
    Grammar IsLiteralList (p.pieces.map (·.kind)) p := by
  match p with
  | equals column value => exact .equals column value h.2.1
  | contains column text =>
    have hkeyword : (TokenKind.word "LIKE").isKeyword "LIKE" = true := by decide
    exact .contains column text hkeyword h.2.1
  | oneOf column (v :: values) =>
    have hkeyword : (TokenKind.word "IN").isKeyword "IN" = true := by decide
    have hgrammar := Grammar.oneOf column hkeyword (isLiteralList_listed [] v values)
    have hpieces : (oneOf column (v :: values)).pieces.map (·.kind) = .word column :: .word "IN" ::
        .openParen :: ((listed (quoted [] v) (values.map (quoted [' ']))).map (·.kind) ++ [.closeParen]) := by
      rw [pieces, List.map_append, List.map_append]
      rfl
    rwa [filterMap_quoted?_listed, ← hpieces] at hgrammar

theorem Predicate.IsLegible.ofTokens {p : Predicate} (h : p.IsLegible) (source : List Char)
    (position : Nat) : Predicate.ofTokens source (place position p.pieces) = p := by
  refine ofTokens_of_grammar ?_ source
  rw [map_kind_place]
  exact h.grammar.mono fun _ => IsLiteralList.isFlatList

theorem OrderBy.ofTokens?_place (o : OrderBy) (position : Nat) :
    OrderBy.ofTokens? (place position o.pieces) = some o := by
  obtain ⟨column, order⟩ := o
  cases order <;> rfl

theorem limitOfNumber_toDigits (n : UInt64) : limitOfNumber (Nat.toDigits 10 n.toNat) = n := by
  have hdigits : ∀ c ∈ Nat.toDigits 10 n.toNat, (c != '.') = true := by
    intro c hc
    have hd : c.isDigit = true := Nat.isDigit_of_mem_toDigits (by decide) (by decide) hc
    rw [bne_iff_ne]
    rintro rfl
    revert hd
    decide
  have hmax : n.toNat ≤ maxLimit := Nat.le_pred_of_lt n.toNat_lt
  rw [limitOfNumber, takeWhile_eq_self hdigits, Nat.ofDigitChars_toDigits (by decide) (by decide),
    Nat.min_eq_right hmax, UInt64.ofNat_toNat]

theorem limitOfTokens?_place (n : UInt64) (position : Nat) :
    limitOfTokens? (place position [number n.toNat]) = some n := by
  have hn := limitOfNumber_toDigits n
  change some (limitOfNumber (String.ofList (Nat.toDigits 10 n.toNat)).toList) = some n
  rw [String.toList_ofList, hn]

def IsInert (p : Piece) : Prop := p.kind.mentionsJoin = false ∧ p.kind ≠ .semicolon

theorem IsName.isInert {w : String} (h : IsName w) : IsInert (word w) := ⟨h.ne_join, TokenKind.noConfusion⟩

theorem IsFreeOfJoin.isInert {s : String} (h : IsFreeOfJoin s) (gap : List Char) : IsInert (quoted gap s) :=
  ⟨h, TokenKind.noConfusion⟩

theorem isInert_mark {gap : List Char} {c : Char} (hj : (TokenKind.ofMark c).mentionsJoin = false)
    (hc : TokenKind.ofMark c ≠ .semicolon) : IsInert (mark gap c) :=
  ⟨hj, hc⟩

theorem isInert_words (kind : ClauseKind) : ∀ p ∈ kind.words.map word, IsInert p := by
  have hwords : ∀ w ∈ kind.words, (word w).kind.mentionsJoin = false := by
    cases kind <;> decide
  intro p hp
  obtain ⟨w, hw, rfl⟩ := List.mem_map.1 hp
  exact ⟨hwords w hw, TokenKind.noConfusion⟩

theorem Projection.isInert_pieces {p : Projection}
    (h : ∀ names, p = .columns names → ∀ n ∈ names, IsPlain n) : ∀ q ∈ p.pieces, IsInert q := by
  have hstar : ∀ q ∈ [mark [' '] '*'], IsInert q := by
    intro q hq
    rw [List.mem_singleton.1 hq]
    exact isInert_mark rfl TokenKind.noConfusion
  match p with
  | all | unresolved => exact hstar
  | columns [] => exact List.forall_mem_nil _
  | columns (n :: names) =>
    intro q hq
    rcases mem_listed hq with rfl | hq
    · exact isInert_mark rfl TokenKind.noConfusion
    · obtain ⟨m, hm, rfl⟩ := List.mem_map.1 (List.map_cons ▸ hq : q ∈ (n :: names).map word)
      exact (h _ rfl m hm).isName.isInert

theorem Predicate.IsLegible.isInert_pieces {p : Predicate} (h : p.IsLegible) :
    ∀ q ∈ p.pieces, IsInert q := by
  match p with
  | equals column value =>
    simp only [pieces, List.forall_mem_cons]
    exact ⟨h.1.isInert, isInert_mark rfl TokenKind.noConfusion, h.2.2.isInert _, List.forall_mem_nil _⟩
  | contains column text =>
    simp only [pieces, List.forall_mem_cons]
    exact ⟨h.1.isInert, isPlain_like.isName.isInert, (isFreeOfJoin_between_percents.2 h.2.2).isInert _,
      List.forall_mem_nil _⟩
  | oneOf column (v :: values) =>
    have hlist : ∀ q ∈ listed (quoted [] v) (values.map (quoted [' '])), IsInert q := by
      intro q hq
      rcases mem_literals hq with rfl | ⟨gap, w, hw, rfl⟩
      · exact isInert_mark rfl TokenKind.noConfusion
      · exact (h.2.2 w hw).isInert gap
    simp only [pieces, List.forall_mem_append, List.forall_mem_cons]
    have hopen : IsInert (mark [' '] '(') := isInert_mark rfl TokenKind.noConfusion
    have hclose : IsInert (mark [] ')') := isInert_mark rfl TokenKind.noConfusion
    exact ⟨⟨⟨h.1.isInert, isPlain_in.isName.isInert, hopen, List.forall_mem_nil _⟩, hlist⟩, hclose,
      List.forall_mem_nil _⟩

theorem OrderBy.isInert_pieces {o : OrderBy} (h : IsName o.column) : ∀ q ∈ o.pieces, IsInert q := by
  unfold pieces
  split
  · simp only [List.forall_mem_cons]
    exact ⟨h.isInert, isPlain_desc.isName.isInert, List.forall_mem_nil _⟩
  · simp only [List.forall_mem_cons]
    exact ⟨h.isInert, List.forall_mem_nil _⟩

theorem isInert_ofBody {kind : ClauseKind} {body : List Piece} (h : ∀ p ∈ body, IsInert p) :
    ∀ p ∈ (Clause.ofBody kind body).pieces, IsInert p :=
  List.forall_mem_append.2 ⟨isInert_words kind, h⟩

namespace Query
variable {q : Query}

theorem IsCanonical.isInert_projection (h : q.IsCanonical) : ∀ p ∈ q.projection.pieces, IsInert p := by
  apply Projection.isInert_pieces
  intro names hnames n hn
  rcases h.source with ⟨hp, -⟩ | ⟨hp, -⟩
  · rw [hp] at hnames
    cases hnames
  · rw [hnames] at hp
    exact (hp.2 n hn).1

theorem IsCanonical.isInert_pieces (h : q.IsCanonical) : ∀ p ∈ q.pieces, IsInert p := by
  have hclauses : ∀ c ∈ q.clauses, ∀ p ∈ c.pieces, IsInert p := by
    apply forall_mem_clauses
    · intro n hn
      exact isInert_ofBody (List.forall_mem_singleton.2 (h.isPlain_table n hn).isName.isInert)
    · intro p hp
      exact isInert_ofBody (h.predicate p hp).isLegible.isInert_pieces
    · intro o ho
      exact isInert_ofBody (OrderBy.isInert_pieces (h.orderBy o ho).isName)
    · intro n _
      exact isInert_ofBody (List.forall_mem_singleton.2 ⟨rfl, TokenKind.noConfusion⟩)
  have hselect : IsInert ⟨[], "SELECT".toList, .word "SELECT"⟩ := ⟨by decide, TokenKind.noConfusion⟩
  intro p hp
  rcases List.mem_cons.1 hp with rfl | hp
  · exact hselect
  · rcases List.mem_append.1 hp with hp | hp
    · exact h.isInert_projection p hp
    · obtain ⟨c, hc, hp⟩ := List.mem_flatMap.1 hp
      exact hclauses c hc p hp

theorem IsCanonical.textOf_pieces (h : q.IsCanonical) : textOf q.pieces = q.chars := by
  have hproj : q.projection ≠ .columns [] := by
    intro hp
    rcases h.source with ⟨hq, -⟩ | ⟨hq, -⟩
    · rw [hp] at hq
      cases hq
    · rw [hp] at hq
      exact hq.1 rfl
  have hpred : ∀ p ∈ q.predicate, p.isSupported = true :=
    fun p hp => (h.predicate p hp).isLegible.isSupported
  exact Query.textOf_pieces hproj hpred

theorem IsCanonical.tokenize_display (h : q.IsCanonical) : tokenize q.display = place 0 q.pieces := by
  rw [display, ← h.textOf_pieces, tokenize_ofList h.spelled.reads]

theorem IsCanonical.clauseBody?_place (h : q.IsCanonical) (kind : ClauseKind) : ∃ position,
    clauseBody? (place 0 q.pieces) kind = (q.bodyPieces? kind).map (place position) := by
  obtain ⟨p, hp⟩ := clauseBody?_statement (h.quiet_projection _) h.sound_clauses
    q.nodup_map_kind_clauses kind
  refine ⟨p, ?_⟩
  rw [pieces, hp, ← find?_clauses, Option.map_map]
  rfl

theorem toList_display (hq : textOf q.pieces = q.chars) : q.display.toList = textOf q.pieces := by
  rw [display, String.toList_ofList, hq]

theorem IsCanonical.projection_ofTokens (h : q.IsCanonical) :
    (if (clauseBody? (place 0 q.pieces) .source).isSome then
        .ofTokens q.display.toList (selectList (place 0 q.pieces)) else .unresolved) = q.projection := by
  obtain ⟨p, hp⟩ := h.clauseBody?_place .source
  rw [hp, bodyPieces?, Option.isSome_map, Option.isSome_map]
  rcases h.source with ⟨hproj, htable⟩ | ⟨hproj, table, htable, -⟩
  · rw [htable, hproj]
    rfl
  · have hlist : selectList (place 0 q.pieces) = place _ q.projection.pieces :=
      selectList_statement (h.quiet_projection _) h.sound_clauses q.nodup_map_kind_clauses
    have hstands : Stands q.display.toList (selectList (place 0 q.pieces)) q.projection.pieces := by
      refine ⟨_, textOf (q.clauses.flatMap Clause.pieces), ?_, hlist⟩
      rw [toList_display h.textOf_pieces, pieces, statement, textOf_cons, textOf_append]
      rw [Piece.chars, List.append_assoc]
    rw [htable, Option.isSome_some, if_pos rfl, hstands.projection_eq, hproj.projection_pieces]

theorem IsCanonical.ofTokens_place (h : q.IsCanonical) :
    ofTokens q.display.toList (place 0 q.pieces) = q := by
  obtain ⟨psource, hsource⟩ := h.clauseBody?_place .source
  obtain ⟨pfilter, hfilter⟩ := h.clauseBody?_place .filter
  obtain ⟨pgroup, hgroup⟩ := h.clauseBody?_place .groupBy
  obtain ⟨porder, horder⟩ := h.clauseBody?_place .orderBy
  obtain ⟨plimit, hlimit⟩ := h.clauseBody?_place .limit
  have htable : (clauseBody? (place 0 q.pieces) .source).bind tableOfTokens? = q.table := by
    rw [hsource, bodyPieces?]
    cases q.table <;> rfl
  have hpredicate : (clauseBody? (place 0 q.pieces) .filter).map (.ofTokens q.display.toList) =
      q.predicate := by
    rw [hfilter, bodyPieces?]
    cases hq : q.predicate with
    | none => rfl
    | some p => exact congrArg some ((h.predicate p hq).isLegible.ofTokens _ _)
  have hsort : (clauseBody? (place 0 q.pieces) .orderBy).bind OrderBy.ofTokens? = q.orderBy := by
    rw [horder, bodyPieces?]
    cases q.orderBy with
    | none => rfl
    | some o => exact o.ofTokens?_place _
  have hcount : (clauseBody? (place 0 q.pieces) .limit).bind limitOfTokens? = q.limit := by
    rw [hlimit, bodyPieces?]
    cases q.limit with
    | none => rfl
    | some n => exact limitOfTokens?_place n _
  have hgroups : (clauseBody? (place 0 q.pieces) .groupBy).isSome = q.groupBy := by
    rw [hgroup, h.groupBy_eq_false]
    rfl
  unfold ofTokens
  rw [h.projection_ofTokens, htable, hpredicate, hsort, hcount, hgroups]

/-- A canonical query is read back from its text. -/
theorem parse_display (q : Query) (h : q.IsCanonical) : parse q.display = .ok q := by
  have hselect : ((place 0 q.pieces).head?.any (·.kind.isKeyword "SELECT")) = true := by
    rw [pieces, statement, place_cons, List.head?_cons, Option.any_some]
    decide
  have hjoin : (place 0 q.pieces).any (·.kind.mentionsJoin) = false := by
    rw [List.any_eq_false]
    intro t ht
    obtain ⟨p, hp, hkind⟩ := exists_kind_of_mem_place ht
    rw [← hkind, (h.isInert_pieces p hp).1]
    exact Bool.false_ne_true
  have hend : dropSemicolons (place 0 q.pieces) = place 0 q.pieces := by
    have hkeep : ∀ t ∈ place 0 q.pieces, t.kind ≠ .semicolon := by
      intro t ht
      obtain ⟨p, hp, hkind⟩ := exists_kind_of_mem_place ht
      rw [← hkind]
      exact (h.isInert_pieces p hp).2
    have hdrop : dropSemicolons (place 0 q.pieces ++ []) = place 0 q.pieces :=
      dropSemicolons_append hkeep (List.forall_mem_nil _)
    rwa [List.append_nil] at hdrop
  unfold parse
  dsimp only
  rw [h.tokenize_display, hselect, hjoin, hend, h.ofTokens_place]
  rfl

/-- Names that are keywords elsewhere and literals full of syntax are read back, too. -/
theorem parse_display_hard_query :
    let q : Query := ⟨.columns ["order", "desc"], some "GROUP",
      some (.oneOf "BY" ["a'');", "", "%(FROM t, WHERE", "joint"]), some ⟨"by", .descending⟩,
      some 18446744073709551615, false⟩
    q.IsCanonical ∧ parse q.display = .ok q := by
  have h : IsCanonical ⟨.columns ["order", "desc"], some "GROUP",
      some (.oneOf "BY" ["a'');", "", "%(FROM t, WHERE", "joint"]), some ⟨"by", .descending⟩,
      some 18446744073709551615, false⟩ := by
    constructor
    · refine .inr ⟨⟨by decide, ?_⟩, "GROUP", rfl, by decide +kernel⟩
      decide +kernel
    · intro p hp
      cases hp
      refine ⟨by decide +kernel, by decide, ?_⟩
      unfold IsFreeOfJoin
      decide +kernel
    · intro o ho
      cases ho
      decide +kernel
    · rfl
  exact ⟨h, parse_display _ h⟩

end Query
end TableQuery
