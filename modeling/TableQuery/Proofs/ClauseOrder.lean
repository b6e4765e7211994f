import Mathlib.Data.List.Find
import TableQuery.Proofs.Statements
import TableQuery.Proofs.Wording

/-! # The order of clauses

What a statement asks for is put together from what each of its parts says by itself. So neither the order of
its clauses matters, nor the case of its keywords, nor the semicolons at its end.
-/
namespace TableQuery
open Text Piece

structure Wording where
  select : Piece
  gap : List Char
  list : List Char
  clauses : List WordedClause
  tail : List Char

namespace Wording

def chars (u : Wording) : List Char :=
  u.select.chars ++ (u.gap ++ (u.list ++ (u.clauses.flatMap WordedClause.chars ++ u.tail)))

def text (u : Wording) : String := String.ofList u.chars

def bodies (u : Wording) : List (ClauseKind × List Char) := u.clauses.map fun c => (c.kind, c.body)

/-- Of each kind there is at most one clause. -/
structure Sound (u : Wording) : Prop where
  spells_select : u.select.Spells "SELECT"
  gap_isSpace : ∀ c ∈ u.gap, isSpace c = true
  endsWord_list : EndsWord (u.gap ++ u.list)
  isSealed_list : IsSealed u.list
  sound_clauses : ∀ c ∈ u.clauses, c.Sound
  nodup_kinds : (u.clauses.map (·.kind)).Nodup
  tail_end : ∀ c ∈ u.tail, isSpace c = true ∨ c = ';'

instance (u : Wording) : Decidable u.Sound :=
  have : Decidable (∀ c ∈ u.gap, isSpace c = true) := List.decidableBAll _ _
  have : Decidable (∀ c ∈ u.tail, isSpace c = true ∨ c = ';') := List.decidableBAll _ _
  decidable_of_iff (_ ∧ _ ∧ _ ∧ _ ∧ _ ∧ _ ∧ _)
    ⟨fun h => ⟨h.1, h.2.1, h.2.2.1, h.2.2.2.1, h.2.2.2.2.1, h.2.2.2.2.2.1, h.2.2.2.2.2.2⟩,
      fun h => ⟨h.1, h.2, h.3, h.4, h.5, h.6, h.7⟩⟩

end Wording

def bodyOf? (bodies : List (ClauseKind × List Char)) (kind : ClauseKind) : Option (List Char) :=
  (bodies.find? (·.1 = kind)).map (·.2)

section
variable {α β γ : Type} {r : α → β → Prop} {a : Option α} {b : Option β}

theorem isSome_eq_of_rel (h : Option.Rel r a b) : a.isSome = b.isSome := by
  cases h <;> rfl

theorem bind_eq_of_rel {f : α → Option γ} {g : β → Option γ} (h : Option.Rel r a b)
    (hfg : ∀ x y, r x y → f x = g y) : a.bind f = b.bind g := by
  cases h with
  | none => rfl
  | some hxy => exact hfg _ _ hxy

theorem map_eq_of_rel {f : α → γ} {g : β → γ} (h : Option.Rel r a b) (hfg : ∀ x y, r x y → f x = g y) :
    a.map f = b.map g := by
  cases h with
  | none => rfl
  | some hxy => exact congrArg some (hfg _ _ hxy)

end

namespace Query

def ofBodies (list : List Char) (bodies : List (ClauseKind × List Char)) : Query where
  projection := if (bodyOf? bodies .source).isSome then .ofTokens list (tokensFrom 0 list) else .unresolved
  table := (bodyOf? bodies .source).bind fun cs => tableOfTokens? (tokensFrom 0 cs)
  predicate := (bodyOf? bodies .filter).map fun cs => .ofTokens cs (tokensFrom 0 cs)
  orderBy := (bodyOf? bodies .orderBy).bind fun cs => OrderBy.ofTokens? (tokensFrom 0 cs)
  limit := (bodyOf? bodies .limit).bind fun cs => limitOfTokens? (tokensFrom 0 cs)
  groupBy := (bodyOf? bodies .groupBy).isSome

def parseBodies (list : List Char) (bodies : List (ClauseKind × List Char)) : Except GrammarError Query :=
  if (kinds list).any TokenKind.mentionsJoin || bodies.any (fun b => (kinds b.2).any TokenKind.mentionsJoin) then
    .error .joinUnsupported
  else .ok (ofBodies list bodies)

/-- Clauses of different kinds are found in any order. -/
theorem bodyOf?_perm {xs ys : List (ClauseKind × List Char)} (h : xs.Perm ys) (hk : (xs.map (·.1)).Nodup)
    (kind : ClauseKind) : bodyOf? xs kind = bodyOf? ys kind := by
  refine congrArg _ (List.find?_eq_find?_of_perm h ?_)
  rintro x ⟨hx, hxk⟩ y ⟨hy, hyk⟩
  exact List.inj_on_of_nodup_map hk hx hy ((of_decide_eq_true hxk).trans (of_decide_eq_true hyk).symm)

theorem parseBodies_perm {xs ys : List (ClauseKind × List Char)} (h : xs.Perm ys)
    (hk : (xs.map (·.1)).Nodup) (list : List Char) : parseBodies list xs = parseBodies list ys := by
  unfold parseBodies ofBodies
  rw [h.any_eq]
  simp only [bodyOf?_perm h hk]

/-- Each part of a statement says the same as by itself. -/
theorem ofTokens_eq_ofBodies {source list : List Char} {bodies : List (ClauseKind × List Char)}
    {tokens : List Token} (hlist : IsPart source (selectList tokens) list)
    (hbody : ∀ kind, Option.Rel (IsPart source) (clauseBody? tokens kind) (bodyOf? bodies kind)) :
    ofTokens source tokens = ofBodies list bodies := by
  have hbind {α : Type} {f : List Token → Option α}
      (hf : ∀ ts us : List Token, ts.map (·.kind) = us.map (·.kind) → f ts = f us) (kind : ClauseKind) :
      (clauseBody? tokens kind).bind f = (bodyOf? bodies kind).bind fun cs => f (tokensFrom 0 cs) :=
    bind_eq_of_rel (hbody kind) fun _ _ hpart => hf _ _ hpart.map_kind
  have hpredicate : (clauseBody? tokens .filter).map (Predicate.ofTokens source) =
      (bodyOf? bodies .filter).map fun cs => .ofTokens cs (tokensFrom 0 cs) :=
    map_eq_of_rel (hbody .filter) fun _ _ hpart => hpart.predicate_eq
  rw [ofTokens, ofBodies, isSome_eq_of_rel (hbody .source), isSome_eq_of_rel (hbody .groupBy),
    hlist.projection_eq, hpredicate, hbind (fun _ _ => tableOfTokens?_congr),
    hbind (fun _ _ => OrderBy.ofTokens?_congr), hbind (fun _ _ => limitOfTokens?_congr)]

end Query

theorem kind_of_mem_tokensFrom_tail {cs : List Char} (h : ∀ c ∈ cs, isSpace c = true ∨ c = ';')
    (position : Nat) : ∀ t ∈ tokensFrom position cs, t.kind = .semicolon := by
  induction cs generalizing position with
  | nil =>
    rw [tokensFrom]
    exact List.forall_mem_nil _
  | cons c cs ih =>
    obtain ⟨hc, hcs⟩ := List.forall_mem_cons.1 h
    rw [tokensFrom]
    split
    next => exact ih hcs _
    next hspace =>
      obtain rfl := hc.resolve_left hspace
      rw [Lexeme.first_of_isStop (by decide)]
      exact List.forall_mem_cons.2 ⟨rfl, ih hcs _⟩

namespace Wording
variable {u : Wording}

theorem bodyOf?_bodies (u : Wording) (kind : ClauseKind) :
    bodyOf? u.bodies kind = (u.clauses.find? (·.kind = kind)).map (·.body) := by
  rw [bodyOf?, bodies, List.find?_map, Option.map_map]
  rfl

def selectToken (u : Wording) : Token :=
  ⟨u.select.kind, byteLength u.select.gap, byteLength u.select.chars⟩

def listTokens (u : Wording) : List Token := tokensFrom (byteLength (u.select.chars ++ u.gap)) u.list

def segments (u : Wording) : List Segment :=
  WordedClause.segments (byteLength (u.select.chars ++ u.gap ++ u.list)) u.clauses

def tailTokens (u : Wording) : List Token :=
  tokensFrom (byteLength (u.select.chars ++ u.gap ++ u.list ++ u.clauses.flatMap WordedClause.chars)) u.tail

theorem toList_text (u : Wording) : u.text.toList = u.chars := String.toList_ofList

theorem Sound.tokenize_text (h : u.Sound) : tokenize u.text =
    u.selectToken :: (u.listTokens ++ u.segments.flatMap Segment.tokens) ++ u.tailTokens := by
  have htail : Stops u.tail := by
    intro c hc
    rcases h.tail_end c (List.mem_of_mem_head? hc) with hspace | rfl
    · exact isStop_of_isSpace hspace
    · decide
  have hclauses := WordedClause.stops_chars h.sound_clauses htail
  have hends : EndsWord (u.gap ++ (u.list ++ (u.clauses.flatMap WordedClause.chars ++ u.tail))) := by
    rw [← List.append_assoc]
    exact h.endsWord_list.append (.of_stops hclauses)
  have hselect :
      Reads (u.gap ++ (u.list ++ (u.clauses.flatMap WordedClause.chars ++ u.tail))) [u.select] :=
    ⟨h.spells_select.gap_isSpace, h.spells_select.readsBefore (by decide) hends, trivial⟩
  have htext : textOf [u.select] = u.select.chars := by
    rw [textOf_cons, textOf_nil, List.append_nil, Piece.chars]
  rw [tokenize, toList_text, chars, ← htext, tokensFrom_textOf hselect, tokensFrom_gap h.gap_isSpace,
    tokensFrom_append h.isSealed_list.isClosed hclauses,
    WordedClause.tokensFrom_flatMap_chars h.sound_clauses htail, htext]
  simp only [place, selectToken, listTokens, segments, tailTokens, Piece.chars, byteLength_append, Nat.zero_add,
    Nat.add_assoc, List.append_assoc, List.cons_append, List.nil_append]

theorem isPart_list (u : Wording) : IsPart u.text.toList u.listTokens u.list := by
  refine ⟨u.select.chars ++ u.gap, u.clauses.flatMap WordedClause.chars ++ u.tail, ?_, rfl⟩
  rw [toList_text, chars]
  simp only [List.append_assoc]

/-- Outside of bodies and the select list there are only keywords and semicolons. -/
theorem Sound.any_tokens (h : u.Sound) {f : TokenKind → Bool}
    (hselect : ∀ k : TokenKind, k.isKeyword "SELECT" = true → f k = false)
    (hf : ∀ kind : ClauseKind, ∀ w ∈ kind.words, ∀ k : TokenKind, k.isKeyword w = true → f k = false) :
    (u.selectToken :: (u.listTokens ++ u.segments.flatMap Segment.tokens)).any (f ·.kind) =
      ((kinds u.list).any f || u.bodies.any fun b => (kinds b.2).any f) := by
  have hlist : u.listTokens.any (f ·.kind) = (kinds u.list).any f := by
    rw [← map_kind_tokensFrom, List.any_map, listTokens]
    rfl
  have hbodies : (u.bodies.any fun b => (kinds b.2).any f) = u.clauses.any fun c => (kinds c.body).any f := by
    rw [bodies, List.any_map]
    rfl
  rw [List.any_cons, selectToken, hselect _ h.spells_select.isKeyword, Bool.false_or, List.any_append, hlist,
    segments, WordedClause.any_segments h.sound_clauses hf, hbodies]

theorem Sound.ne_semicolon (h : u.Sound) :
    ∀ t ∈ u.selectToken :: (u.listTokens ++ u.segments.flatMap Segment.tokens), t.kind ≠ .semicolon := by
  have hword (w : String) (k : TokenKind) (hk : k.isKeyword w = true) : (k == .semicolon) = false := by
    cases k with
    | word s => rfl
    | _ => cases hk
  have hsealed {cs : List Char} (hcs : IsSealed cs) : (kinds cs).any (· == .semicolon) = false := by
    rw [List.any_eq_false]
    intro k hk
    simpa using hcs.ne_semicolon k hk
  have hbodies : (u.bodies.any fun b => (kinds b.2).any (· == .semicolon)) = false := by
    rw [bodies, List.any_map, List.any_eq_false]
    intro c hc
    rw [Function.comp_apply, hsealed (h.sound_clauses c hc).isSealed_body]
    exact Bool.false_ne_true
  have hnone := h.any_tokens (hword "SELECT") fun _ w _ => hword w
  rw [hsealed h.isSealed_list, hbodies, Bool.or_false, List.any_eq_false] at hnone
  intro t ht
  simpa using hnone t ht

theorem Sound.tokens_text (h : u.Sound) : Query.tokens u.text =
    u.selectToken :: (u.listTokens ++ u.segments.flatMap Segment.tokens) := by
  rw [Query.tokens, h.tokenize_text]
  exact dropSemicolons_append h.ne_semicolon (kind_of_mem_tokensFrom_tail h.tail_end _)

theorem Sound.any_mentionsJoin (h : u.Sound) : (tokenize u.text).any (·.kind.mentionsJoin) =
    ((kinds u.list).any TokenKind.mentionsJoin ||
      u.bodies.any fun b => (kinds b.2).any TokenKind.mentionsJoin) := by
  have hword {w : String} (hw : eqIgnoreAsciiCase w "JOIN" = false) (k : TokenKind)
      (hk : k.isKeyword w = true) : k.mentionsJoin = false := by
    cases k with
    | word s => exact (TokenKind.isKeyword_of_isKeyword hk "JOIN").trans hw
    | _ => cases hk
  have hkeyword : ∀ kind : ClauseKind, ∀ w ∈ kind.words, eqIgnoreAsciiCase w "JOIN" = false := by
    intro kind
    cases kind <;> decide
  have htail : u.tailTokens.any (·.kind.mentionsJoin) = false := by
    rw [List.any_eq_false]
    intro t ht
    rw [kind_of_mem_tokensFrom_tail h.tail_end _ t ht]
    decide
  rw [h.tokenize_text, List.any_append, htail, Bool.or_false]
  exact h.any_tokens (hword (by decide)) fun kind w hw => hword (hkeyword kind w hw)

/-- However a statement is worded, it is read by its parts. -/
theorem Sound.parse_text (h : u.Sound) : Query.parse u.text = Query.parseBodies u.list u.bodies := by
  have hquiet : Quiet u.listTokens :=
    h.isSealed_list.quiet.congr (by rw [listTokens, map_kind_tokensFrom, map_kind_tokensFrom])
  have hordered : Ordered [] u.segments := by
    refine ordered_of_sound (WordedClause.sound_of_mem_segments h.sound_clauses _) ?_ fun _ _ => List.not_mem_nil
    rw [segments, WordedClause.map_kind_segments]
    exact h.nodup_kinds
  have hlist : IsPart u.text.toList (selectList (Query.tokens u.text)) u.list := by
    rw [h.tokens_text, selectList_segments hquiet hordered]
    exact u.isPart_list
  have hbody (kind : ClauseKind) : Option.Rel (IsPart u.text.toList)
      (clauseBody? (Query.tokens u.text) kind) (bodyOf? u.bodies kind) := by
    have hsource : u.text.toList = u.select.chars ++ u.gap ++ u.list ++
        (u.clauses.flatMap WordedClause.chars ++ u.tail) := by
      rw [toList_text, chars]
      simp only [List.append_assoc]
    rw [h.tokens_text, clauseBody?_segments hquiet hordered, bodyOf?_bodies]
    exact WordedClause.rel_find?_segments hsource kind
  have hselect : (tokenize u.text).head?.any (·.kind.isKeyword "SELECT") = true := by
    rw [h.tokenize_text]
    exact h.spells_select.isKeyword
  have hquery : Query.ofTokens u.text.toList (dropSemicolons (tokenize u.text)) =
      Query.ofBodies u.list u.bodies := Query.ofTokens_eq_ofBodies hlist hbody
  unfold Query.parse Query.parseBodies
  simp only [hselect, h.any_mentionsJoin, hquery, Bool.not_true, Bool.false_eq_true, if_false]

end Wording

namespace Query
variable {u v : Wording}

/-- A statement means the same, and fails alike, whatever the order of its clauses, the case of its keywords and
the white space around them are, and however many semicolons it ends with. -/
theorem parse_clause_order (hu : u.Sound) (hv : v.Sound) (hlist : u.list = v.list)
    (hbodies : u.bodies.Perm v.bodies) : parse u.text = parse v.text := by
  have hkinds : u.bodies.map (·.1) = u.clauses.map (·.kind) := by
    rw [Wording.bodies, List.map_map]
    rfl
  have hnodup : (u.bodies.map (·.1)).Nodup := hkinds ▸ hu.nodup_kinds
  rw [hu.parse_text, hv.parse_text, ← hlist, parseBodies_perm hbodies hnodup]

/-- A condition that is not supported holds keywords in parentheses, the groups have no body, and both statements
end in another clause. -/
theorem parse_clause_order_hidden_keywords :
    let select (source : String) : Piece := ⟨[], source.toList, .word source⟩
    let word (source : String) : Piece := ⟨[' '], source.toList, .word source⟩
    let clause (kind : ClauseKind) (words : List String) (body : String) : WordedClause :=
      ⟨kind, words.map word, [' '], body.toList⟩
    let u : Wording := ⟨select "SELECT", [' '], "age, max(city)".toList,
      [clause .filter ["WHERE"] "age > (from 'limit;' order by 3)", clause .groupBy ["Group", "BY"] "",
        clause .source ["FROM"] "t"], [';', ';']⟩
    let v : Wording := ⟨select "select", ['\n'], "age, max(city)".toList,
      [clause .source ["from"] "t", clause .groupBy ["GROUP", "by"] "",
        clause .filter ["wHere"] "age > (from 'limit;' order by 3)"], []⟩
    u.text = "SELECT age, max(city) WHERE age > (from 'limit;' order by 3) Group BY  FROM t;;" ∧
      v.text = "select\nage, max(city) from t GROUP by  wHere age > (from 'limit;' order by 3)" ∧
      u.Sound ∧ v.Sound ∧ u.bodies.Perm v.bodies ∧ parse u.text = parse v.text ∧
      parse u.text = .ok ⟨.columns ["age", "max(city)"], some "t",
        some (.unsupported "age > (from 'limit;' order by 3)"), none, none, true⟩ := by
  intro select word clause u v
  have hu : u.Sound := by decide +kernel
  have hv : v.Sound := by decide +kernel
  have hbodies : u.bodies.Perm v.bodies := by decide +kernel
  refine ⟨by decide +kernel, by decide +kernel, hu, hv, hbodies, ?_, by decide +kernel⟩
  exact parse_clause_order hu hv rfl hbodies

end Query
end TableQuery
