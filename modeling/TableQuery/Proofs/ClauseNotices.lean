import TableQuery.Proofs.ConditionGrammar
import TableQuery.Proofs.Omission

/-! # Notices of clauses

A clause that a run does not apply is reported by one notice, unless its body could not be read: of a sort
clause that does not begin with a word, and of a limit that does not begin with a number, no trace is left.
-/
namespace TableQuery
open Outcome

def Notice.clause? : Notice → Option ClauseKind
  | projectionFallback => none
  | ignoredPredicate _ => some .filter
  | ignoredGroupBy => some .groupBy
  | unknownSortColumn _ => some .orderBy

namespace ClauseSpan

def notice? (span : ClauseSpan) (source : List Char) (tokens : List Token) : Option Notice :=
  match span.kind with
  | .source | .limit => none
  | .filter => some (.ignoredPredicate (sourceText source (span.body tokens)))
  | .groupBy => some .ignoredGroupBy
  | .orderBy => ((span.body tokens).head?.bind (·.kind.word?)).map .unknownSortColumn

/-- The body of a sort clause or of a limit does not begin with what is looked for there. -/
def IsUnread (span : ClauseSpan) (tokens : List Token) : Prop :=
  span.kind = .orderBy ∧ (span.body tokens).head?.bind (·.kind.word?) = none ∨
    span.kind = .limit ∧ (span.body tokens).head?.bind (·.kind.number?) = none

end ClauseSpan

namespace Query
variable {s : String} {q : Query} {d : Dataset} {e : Execution}

def applies (q : Query) (d : Dataset) : ClauseKind → Bool
  | .source => true
  | .filter => q.predicate.any Predicate.isSupported
  | .groupBy => false
  | .orderBy => q.orderBy.any fun o => (d.fieldIndex? o.column).isSome
  | .limit => q.limit.isSome

def notice? (q : Query) (d : Dataset) : ClauseKind → Option Notice
  | .source | .limit => none
  | .filter => q.unsupportedClause?.map .ignoredPredicate
  | .groupBy => if q.groupBy then some .ignoredGroupBy else none
  | .orderBy => (q.orderBy.filter fun o => (d.fieldIndex? o.column).isNone).map fun o =>
      .unknownSortColumn o.column

theorem filter_notice? (q : Query) (d : Dataset) (kind other : ClauseKind) :
    (q.notice? d other).filter (·.clause? = some kind) =
      if other = kind then q.notice? d other else none := by
  have hclause : ∀ n ∈ q.notice? d other, n.clause? = some other := by
    intro n hn
    cases other with
    | source | limit => cases hn
    | filter | orderBy =>
      obtain ⟨_, -, rfl⟩ := Option.map_eq_some_iff.1 hn
      rfl
    | groupBy =>
      rw [notice?, Option.mem_ite_none_right] at hn
      rw [← Option.some.inj hn.2]
      rfl
  cases hn : q.notice? d other with
  | none => exact (ite_self _).symm
  | some n =>
    rw [Option.filter_some, hclause n hn]
    simp only [Option.some.injEq, decide_eq_true_eq]

/-- Of a kind of clause there is at most one notice. -/
theorem filter_clause?_notices (q : Query) (d : Dataset) (kind : ClauseKind) :
    (q.notices d).filter (·.clause? = some kind) = (q.notice? d kind).toList := by
  have hnotices : q.notices d = [if q.projection = .unresolved then some .projectionFallback else none,
      q.notice? d .filter, q.notice? d .groupBy, q.notice? d .orderBy].reduceOption := q.notices_eq d
  have hprojection : (if q.projection = .unresolved then some Notice.projectionFallback else none).filter
      (·.clause? = some kind) = none := by
    split <;> rfl
  rw [hnotices]
  simp only [reduceOption_cons, List.reduceOption_nil, List.filter_append, ← Option.toList_filter,
    hprojection, filter_notice?]
  cases kind <;> simp [notice?]

/-- The notice of a query about a clause is the one that is due, if the clause is not applied. -/
theorem notice?_eq {span : ClauseSpan} (h : parse s = .ok q) (hspan : span ∈ splitClauses (tokens s))
    (d : Dataset) :
    q.notice? d span.kind = if q.applies d span.kind then none else span.notice? s.toList (tokens s) := by
  have hbody := clauseBody?_eq_some_iff.2 ⟨span, hspan, rfl, rfl⟩
  unfold ClauseSpan.notice?
  generalize hkind : span.kind = kind at hbody
  cases kind with
  | source => rfl
  | limit => exact (ite_self _).symm
  | filter =>
    have hpredicate := predicate_of_parse h hbody
    cases hs : (Predicate.ofTokens s.toList (span.body (tokens s))).isSupported with
    | false =>
      rw [Predicate.ofTokens_of_not_isSupported hs] at hpredicate
      rw [notice?, applies, unsupportedClause?_of_unsupported hpredicate, hpredicate]
      rfl
    | true =>
      have hsupported : ∀ clause, q.predicate ≠ some (.unsupported clause) := by
        intro clause hclause
        rw [← Option.some.inj (hclause.symm.trans hpredicate)] at hs
        cases hs
      rw [notice?, applies, unsupportedClause?_of_supported hsupported, hpredicate, Option.any_some, hs]
      rfl
  | groupBy =>
    rw [notice?, groupBy_of_parse h hbody]
    rfl
  | orderBy =>
    rw [notice?, applies, orderBy_of_parse h hbody, OrderBy.ofTokens?]
    cases (span.body (tokens s)).head?.bind (·.kind.word?) with
    | none => rfl
    | some column => cases hi : d.fieldIndex? column <;> simp [hi]

theorem isUnread_iff {span : ClauseSpan} (h : parse s = .ok q) (hspan : span ∈ splitClauses (tokens s))
    (d : Dataset) : span.IsUnread (tokens s) ↔
      q.applies d span.kind = false ∧ span.notice? s.toList (tokens s) = none := by
  have hbody := clauseBody?_eq_some_iff.2 ⟨span, hspan, rfl, rfl⟩
  unfold ClauseSpan.notice? ClauseSpan.IsUnread
  generalize hkind : span.kind = kind at hbody
  cases kind with
  | source | filter | groupBy => simp [applies]
  | orderBy =>
    rw [applies, orderBy_of_parse h hbody, OrderBy.ofTokens?]
    cases (span.body (tokens s)).head?.bind (·.kind.word?) <;> simp
  | limit =>
    rw [applies, limit_of_parse h hbody, limitOfTokens?]
    cases (span.body (tokens s)).head?.bind (·.kind.number?) <;> simp

theorem notices_of_run (hrows : d.rows ≠ []) {policy : Policy} (h : run policy s d = .ok e) :
    ∃ q, parse s = .ok q ∧ e.notices = q.notices d := by
  rw [run, if_neg (ne_true_of_eq_false (Dataset.isEmpty_eq_false hrows))] at h
  obtain ⟨q, hq, he⟩ := bind_eq_ok.1 h
  exact ⟨q, mapError_eq_ok.1 hq, (execute_eq_ok hrows he).2.2.2⟩

/-- Of a clause that is not applied there is one notice, and there is none just when its body is unread. -/
theorem clause_notices_of_run (hrows : d.rows ≠ []) (h : run .ignore s d = .ok e) :
    ∃ q, parse s = .ok q ∧ ∀ span ∈ splitClauses (tokens s),
      e.notices.filter (·.clause? = some span.kind) =
        (if q.applies d span.kind then none else span.notice? s.toList (tokens s)).toList ∧
      (q.applies d span.kind = false ∧ (∀ n ∈ e.notices, n.clause? ≠ some span.kind) ↔
        span.IsUnread (tokens s)) := by
  obtain ⟨q, hq, he⟩ := notices_of_run hrows h
  refine ⟨q, hq, fun span hspan => ?_⟩
  have hfilter := filter_clause?_notices q d span.kind
  rw [notice?_eq hq hspan] at hfilter
  rw [he, isUnread_iff hq hspan d]
  refine ⟨hfilter, and_congr_right fun hskipped => ?_⟩
  rw [hskipped, if_neg Bool.false_ne_true] at hfilter
  rw [← Option.toList_eq_nil_iff, ← hfilter, List.filter_eq_nil_iff]
  simp only [decide_eq_true_eq, ne_eq]

/-- Neither the number that rows are to be sorted by nor the word that is no limit leaves a trace. -/
theorem clause_notices_of_run_unread :
    let s := "SELECT * FROM t WHERE a IS NULL GROUP BY a ORDER BY 5 LIMIT all"
    let d : Dataset := ⟨[⟨"a", .integer⟩], [0], ["a"], [[.integer 1]]⟩
    let e : Execution := ⟨d, [.ignoredPredicate "a IS NULL", .ignoredGroupBy]⟩
    d.rows ≠ [] ∧ run .ignore s d = .ok e ∧ ∃ q, parse s = .ok q ∧ ∀ span ∈ splitClauses (tokens s),
      e.notices.filter (·.clause? = some span.kind) =
        (if q.applies d span.kind then none else span.notice? s.toList (tokens s)).toList ∧
      (q.applies d span.kind = false ∧ (∀ n ∈ e.notices, n.clause? ≠ some span.kind) ↔
        span.IsUnread (tokens s)) := by
  intro s d e
  have hrows : d.rows ≠ [] := by decide
  have hrun : run .ignore s d = .ok e := by decide +kernel
  exact ⟨hrows, hrun, clause_notices_of_run hrows hrun⟩

/-- Rows that are to be sorted by a number are not, and nothing says so. -/
theorem not_every_skip_is_noticed : ¬∀ (s : String) (d : Dataset) (q : Query) (e : Execution),
    d.WellFormed → d.rows ≠ [] → parse s = .ok q → run .ignore s d = .ok e →
      ∀ span ∈ splitClauses (tokens s), q.applies d span.kind = false →
        ∃ n ∈ e.notices, n.clause? = some span.kind := by
  intro h
  let s := "SELECT * FROM t ORDER BY 5"
  let d : Dataset := ⟨[⟨"a", .integer⟩], [0], ["a"], [[.integer 1]]⟩
  have hd : d.WellFormed := by constructor <;> decide
  have hparse : parse s = .ok ⟨.all, some "t", none, none, none, false⟩ := by decide +kernel
  have hrun : run .ignore s d = .ok ⟨d, []⟩ := by decide +kernel
  have hspan : ⟨.orderBy, 4, 6, 7⟩ ∈ splitClauses (tokens s) := by decide +kernel
  obtain ⟨n, hn, -⟩ := h s d _ _ hd (by decide) hparse hrun _ hspan rfl
  cases hn

end Query
end TableQuery
