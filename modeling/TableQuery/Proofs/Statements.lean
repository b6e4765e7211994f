import Mathlib.Data.List.Nodup
import TableQuery.Query.Parsing

/-! # The clauses of a statement

A clause may begin at each keyword outside parentheses. Of each kind a statement has at most one clause, so
that the body of a kind of clause is that of the clause of this kind. The bodies are parts of the text.
-/
namespace TableQuery

theorem mem_clauseMarks_cons {t : Token} {ts : List Token} {depth position : Nat} {m : ClauseMark} :
    m ∈ clauseMarks depth position (t :: ts) ↔
      depth = 0 ∧ ClauseKind.ofTokens? t ts = some m.kind ∧ m.position = position ∨
        m ∈ clauseMarks (depthAfter depth t) (position + 1) ts := by
  rw [clauseMarks]
  split
  next hzero =>
    split
    next kind hkind =>
      have hm : m = ⟨kind, position⟩ ↔ kind = m.kind ∧ m.position = position := by
        cases m
        simp [eq_comm]
      rw [List.mem_cons, hm, hkind, Option.some.injEq, and_iff_right hzero]
    next hnone => simp [hnone]
  next hopen => simp [hopen]

/-- A mark stands at each keyword that no parenthesis is open before. -/
theorem mem_clauseMarks_iff {ts : List Token} {depth position : Nat} {m : ClauseMark} :
    m ∈ clauseMarks depth position ts ↔ ∃ xs t ys, ts = xs ++ t :: ys ∧ m.position = position + xs.length ∧
      xs.foldl depthAfter depth = 0 ∧ ClauseKind.ofTokens? t ys = some m.kind := by
  induction ts generalizing depth position with
  | nil =>
    refine iff_of_false List.not_mem_nil ?_
    rintro ⟨xs, t, ys, hts, -⟩
    cases xs <;> cases hts
  | cons t ts ih =>
    rw [mem_clauseMarks_cons, ih]
    constructor
    · rintro (⟨hdepth, hkind, hposition⟩ | ⟨xs, u, ys, rfl, hposition, hdepth, hkind⟩)
      · exact ⟨[], t, ts, rfl, hposition, hdepth, hkind⟩
      · refine ⟨t :: xs, u, ys, rfl, ?_, hdepth, hkind⟩
        rw [hposition, List.length_cons]
        omega
    · rintro ⟨xs, u, ys, hts, hposition, hdepth, hkind⟩
      cases xs with
      | nil =>
        obtain ⟨rfl, rfl⟩ := List.cons.inj hts
        exact .inl ⟨hdepth, hkind, hposition⟩
      | cons x xs =>
        obtain ⟨rfl, rfl⟩ := List.cons.inj hts
        refine .inr ⟨xs, u, ys, rfl, ?_, hdepth, hkind⟩
        rw [hposition, List.length_cons]
        omega

theorem mem_map_kind_firstOfEachKind_iff {seen : List ClauseKind} {marks : List ClauseMark}
    {kind : ClauseKind} :
    kind ∈ (firstOfEachKind seen marks).map (·.kind) ↔ kind ∈ marks.map (·.kind) ∧ kind ∉ seen := by
  induction marks generalizing seen with
  | nil => exact iff_of_false List.not_mem_nil fun h => List.not_mem_nil h.1
  | cons m marks ih =>
    rw [firstOfEachKind, List.map_cons, List.mem_cons]
    by_cases heq : kind = m.kind
    · subst heq
      split
      next hm => rw [ih, iff_false_intro (not_not_intro hm), and_false, and_false]
      next hm => simp [hm]
    · split
      next => rw [ih, or_iff_right heq]
      next => rw [List.map_cons, List.mem_cons, ih, or_iff_right heq, or_iff_right heq, List.mem_cons,
        not_or, and_iff_right heq]

theorem nodup_kind_firstOfEachKind (seen : List ClauseKind) (marks : List ClauseMark) :
    ((firstOfEachKind seen marks).map (·.kind)).Nodup := by
  induction marks generalizing seen with
  | nil => exact List.nodup_nil
  | cons m marks ih =>
    rw [firstOfEachKind]
    split
    next => exact ih seen
    next =>
      refine List.nodup_cons.2 ⟨fun hmem => ?_, ih _⟩
      exact (mem_map_kind_firstOfEachKind_iff.1 hmem).2 List.mem_cons_self

theorem map_kind_clauseSpans (stop : Nat) (marks : List ClauseMark) :
    (clauseSpans stop marks).map (·.kind) = marks.map (·.kind) := by
  induction marks with
  | nil => rfl
  | cons m marks ih => rw [clauseSpans, List.map_cons, ih, List.map_cons]

theorem nodup_kind_splitClauses (tokens : List Token) :
    ((splitClauses tokens).map (·.kind)).Nodup := by
  rw [splitClauses, map_kind_clauseSpans]
  exact nodup_kind_firstOfEachKind _ _

theorem find?_kind_eq_some_iff {spans : List ClauseSpan} (h : (spans.map (·.kind)).Nodup)
    {kind : ClauseKind} {span : ClauseSpan} :
    spans.find? (·.kind = kind) = some span ↔ span ∈ spans ∧ span.kind = kind := by
  constructor
  · intro hspan
    exact ⟨List.mem_of_find?_eq_some hspan, by simpa using List.find?_some hspan⟩
  · rintro ⟨hspan, rfl⟩
    have hsome : (spans.find? fun other => other.kind = span.kind).isSome = true :=
      List.find?_isSome.2 ⟨span, hspan, by simp⟩
    obtain ⟨found, hfound⟩ := Option.isSome_iff_exists.1 hsome
    have hkind : found.kind = span.kind := by simpa using List.find?_some hfound
    rw [hfound, List.inj_on_of_nodup_map h (List.mem_of_find?_eq_some hfound) hspan hkind]

theorem clauseBody?_eq_some_iff {tokens body : List Token} {kind : ClauseKind} :
    clauseBody? tokens kind = some body ↔
      ∃ span ∈ splitClauses tokens, span.kind = kind ∧ span.body tokens = body := by
  rw [clauseBody?, Option.map_eq_some_iff]
  simp only [find?_kind_eq_some_iff (nodup_kind_splitClauses tokens), and_assoc]

theorem ClauseSpan.isInfix_body (span : ClauseSpan) (tokens : List Token) :
    span.body tokens <:+: tokens := by
  have hdrop : tokens.drop span.start <:+: tokens := (List.drop_suffix _ _).isInfix
  have htake : span.body tokens <+: tokens.drop span.start := List.take_prefix _ _
  exact htake.isInfix.trans hdrop

theorem isInfix_dropSemicolons (tokens : List Token) : dropSemicolons tokens <:+: tokens := by
  have hreverse : (dropSemicolons tokens).reverse <:+ tokens.reverse := by
    rw [dropSemicolons, List.reverse_reverse]
    exact List.dropWhile_suffix _
  exact (List.reverse_suffix.1 hreverse).isInfix

theorem head?_bind_kind {α : Type} (f : TokenKind → Option α) (ts : List Token) :
    ts.head?.bind (fun t => f t.kind) = (ts.map (·.kind)).head?.bind f := by
  cases ts <;> rfl

theorem tableOfTokens?_congr {ts us : List Token} (h : ts.map (·.kind) = us.map (·.kind)) :
    tableOfTokens? ts = tableOfTokens? us := by
  rw [tableOfTokens?, tableOfTokens?, head?_bind_kind, head?_bind_kind, h]

theorem OrderBy.ofTokens?_congr {ts us : List Token} (h : ts.map (·.kind) = us.map (·.kind)) :
    ofTokens? ts = ofTokens? us := by
  have hsecond (vs : List Token) : vs[1]?.any (·.kind.isKeyword "DESC") =
      (vs.map (·.kind))[1]?.any (·.isKeyword "DESC") := by
    rw [List.getElem?_map, Option.any_map]
  rw [ofTokens?, ofTokens?, head?_bind_kind, head?_bind_kind, hsecond, hsecond, h]

theorem limitOfTokens?_congr {ts us : List Token} (h : ts.map (·.kind) = us.map (·.kind)) :
    limitOfTokens? ts = limitOfTokens? us := by
  rw [limitOfTokens?, limitOfTokens?, head?_bind_kind, head?_bind_kind, h]

namespace Query
variable {s : String} {q : Query} {body : List Token}

def tokens (s : String) : List Token := dropSemicolons (tokenize s)

theorem parse_eq_ok_iff : parse s = .ok q ↔
    (tokenize s).head?.any (·.kind.isKeyword "SELECT") = true ∧
      (∀ t ∈ tokenize s, t.kind.mentionsJoin = false) ∧ q = ofTokens s.toList (tokens s) := by
  have hfree : (∀ t ∈ tokenize s, t.kind.mentionsJoin = false) ↔
      ¬(tokenize s).any (·.kind.mentionsJoin) = true := by
    simp only [Bool.not_eq_true, List.any_eq_false]
  rw [parse, hfree]
  split
  next hselect => exact iff_of_false nofun fun h => by simp [h.1] at hselect
  next hselect =>
    rw [Bool.not_eq_true, Bool.not_eq_false'] at hselect
    split
    next hjoin => exact iff_of_false nofun fun h => h.2.1 hjoin
    next hjoin => rw [and_iff_right hselect, and_iff_right hjoin, Except.ok.injEq, eq_comm, tokens]

theorem parse_eq_ok (h : parse s = .ok q) : q = ofTokens s.toList (tokens s) := (parse_eq_ok_iff.1 h).2.2

theorem isInfix_of_clauseBody? {kind : ClauseKind}
    (h : clauseBody? (tokens s) kind = some body) : body <:+: tokenize s := by
  obtain ⟨span, -, -, rfl⟩ := clauseBody?_eq_some_iff.1 h
  exact (span.isInfix_body _).trans (isInfix_dropSemicolons _)

theorem predicate_of_parse (h : parse s = .ok q) (hbody : clauseBody? (tokens s) .filter = some body) :
    q.predicate = some (.ofTokens s.toList body) := by
  rw [parse_eq_ok h, ofTokens, hbody, Option.map_some]

theorem groupBy_of_parse (h : parse s = .ok q) (hbody : clauseBody? (tokens s) .groupBy = some body) :
    q.groupBy = true := by
  rw [parse_eq_ok h, ofTokens, hbody, Option.isSome_some]

theorem orderBy_of_parse (h : parse s = .ok q) (hbody : clauseBody? (tokens s) .orderBy = some body) :
    q.orderBy = OrderBy.ofTokens? body := by
  rw [parse_eq_ok h, ofTokens, hbody, Option.bind_some]

theorem limit_of_parse (h : parse s = .ok q) (hbody : clauseBody? (tokens s) .limit = some body) :
    q.limit = limitOfTokens? body := by
  rw [parse_eq_ok h, ofTokens, hbody, Option.bind_some]

end Query
end TableQuery
