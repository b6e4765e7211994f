import TableQuery.Proofs.Folding
import TableQuery.Proofs.Omission
import TableQuery.Proofs.Statements

/-! # Queries that fail

On a well-formed dataset with rows a query fails for three reasons only: its text is not read, none of the
names that it asks for is that of a column, or its condition is rejected. The first of them that applies is
reported. The columns and rows that are left always make up a dataset.
-/
namespace TableQuery.Query
open Text Outcome
variable {policy : Policy} {q : Query} {s : String} {d : Dataset} {error : QueryError}

def requested (q : Query) : List String := (q.projection.names?.getD []).map fold

def FindsNone (q : Query) (columns : List Column) : Prop :=
  q.requested ≠ [] ∧ ∀ c ∈ columns, fold c.name ∉ q.requested

theorem selectColumns_eq_error_iff {columns : List Column} {names : List String} :
    selectColumns q.projection.names? columns = .error names ↔
      q.FindsNone columns ∧ names = q.requested := by
  have hnone : (q.projection.names?.getD [] ≠ [] ∧ ∀ c ∈ columns, ¬q.projection.Asks c.name) ↔
      q.FindsNone columns := by
    rw [FindsNone, requested, Ne, Ne, List.map_eq_nil_iff]
    exact and_congr_right fun h => forall₂_congr fun c _ => not_congr (Projection.asks_iff_mem h)
  rw [selectColumns_eq_ite]
  split
  next h =>
    rw [and_iff_right (hnone.1 h), Except.error.injEq]
    exact eq_comm
  next h => exact iff_of_false nofun fun hfails => h (hnone.2 hfails.1)

theorem checkPredicate_eq_error_iff : q.checkPredicate policy = .error error ↔
    policy = .reject ∧ ∃ clause, q.predicate = some (.unsupported clause) ∧
      error = .unsupportedPredicate clause := by
  constructor
  · intro h
    cases policy with
    | ignore =>
      rw [checkPredicate_ignore] at h
      cases h
    | reject =>
      by_cases hp : ∃ clause, q.predicate = some (.unsupported clause)
      · obtain ⟨clause, hp⟩ := hp
        rw [checkPredicate_reject hp] at h
        exact ⟨rfl, clause, hp, (Except.error.inj h).symm⟩
      · rw [checkPredicate_of_supported fun clause hclause => hp ⟨clause, hclause⟩] at h
        cases h
  · rintro ⟨rfl, clause, hp, rfl⟩
    exact checkPredicate_reject hp

/-- Names that find no column are reported before a condition is rejected, and nothing else fails. -/
theorem execute_eq_error_iff (hd : d.WellFormed) (hrows : d.rows ≠ []) :
    q.execute policy d = .error error ↔
      q.FindsNone d.columns ∧ error = .noMatchingColumns q.requested ∨
        ¬q.FindsNone d.columns ∧ policy = .reject ∧ ∃ clause, q.predicate = some (.unsupported clause) ∧
          error = .unsupportedPredicate clause := by
  rw [← checkPredicate_eq_error_iff]
  cases hc : selectColumns q.projection.names? d.columns with
  | error names =>
    obtain ⟨hnone, rfl⟩ := selectColumns_eq_error_iff.1 hc
    rw [execute_of_not_selected hrows hc, Except.error.injEq]
    simp only [hnone, true_and, not_true_eq_false, false_and, or_false]
    exact eq_comm
  | ok columns =>
    have hfound : ¬q.FindsNone d.columns := by
      intro hnone
      rw [selectColumns_eq_error_iff.2 ⟨hnone, rfl⟩] at hc
      cases hc
    simp only [hfound, false_and, false_or, not_false_eq_true, true_and]
    cases hp : q.checkPredicate policy with
    | error cause => rw [execute_of_rejected hrows hc hp, Except.error.injEq, Except.error.injEq]
    | ok _ =>
      obtain ⟨result, hr⟩ := exists_derive_resultRows hd hc
      rw [execute_of_derived hrows hc hp hr]
      exact iff_of_false nofun nofun

theorem execute_of_rows_eq_nil (hrows : d.rows = []) (policy : Policy) (q : Query) :
    q.execute policy d = .ok ⟨d, []⟩ := by
  rw [execute, Dataset.isEmpty, hrows, List.isEmpty_nil, if_pos rfl]

theorem execute_ne_dataset_error (hd : d.WellFormed) (policy : Policy) (q : Query) (cause : DatasetError) :
    q.execute policy d ≠ .error (.dataset cause) := by
  by_cases hrows : d.rows = []
  · rw [execute_of_rows_eq_nil hrows]
    exact nofun
  · rw [Ne, execute_eq_error_iff hd hrows]
    rintro (⟨-, ⟨⟩⟩ | ⟨-, -, clause, -, ⟨⟩⟩)

theorem run_of_rows_eq_nil (hrows : d.rows = []) (policy : Policy) (s : String) :
    run policy s d = .ok ⟨d, []⟩ := by
  rw [run, Dataset.isEmpty, hrows, List.isEmpty_nil, if_pos rfl]

theorem run_of_parse_eq_error {cause : GrammarError} (hrows : d.rows ≠ []) (h : parse s = .error cause)
    (policy : Policy) : run policy s d = .error (.grammar cause) := by
  rw [run, if_neg (ne_true_of_eq_false (Dataset.isEmpty_eq_false hrows)), h]
  rfl

theorem run_of_parse_eq_ok (h : parse s = .ok q) (policy : Policy) (d : Dataset) :
    run policy s d = q.execute policy d := by
  by_cases hrows : d.rows = []
  · rw [run_of_rows_eq_nil hrows, execute_of_rows_eq_nil hrows]
  · rw [run, if_neg (ne_true_of_eq_false (Dataset.isEmpty_eq_false hrows)), h]
    rfl

/-- The items of a select list that are no star, as they are written. -/
def writtenNames (s : String) : List String :=
  ((splitItems 0 (selectList (tokens s))).filter fun item => !isLoneStar item && !item.isEmpty).map
    (sourceText s.toList)

/-- What a text asks for is what it lists, folded. -/
theorem requested_of_parse (h : parse s = .ok q) (hne : q.requested ≠ []) :
    q.requested = (writtenNames s).map fold := by
  obtain rfl := parse_eq_ok h
  unfold requested at hne ⊢
  cases hp : (ofTokens s.toList (tokens s)).projection with
  | all | unresolved =>
    rw [hp] at hne
    exact absurd rfl hne
  | columns names =>
    change (if (clauseBody? (tokens s) .source).isSome then _ else _) = _ at hp
    have hnames : names = (writtenNames s).map fold := by
      split at hp
      next =>
        unfold Projection.ofTokens at hp
        dsimp only at hp
        split at hp
        next => cases hp
        next =>
          split at hp
          next => cases hp
          next =>
            rw [List.filter_filter] at hp
            rw [← Projection.columns.inj hp, writtenNames, List.map_map]
            rfl
      next => cases hp
    rw [Projection.names?, Option.getD_some, hnames, List.map_map, fold_comp_fold]

inductive Fails (policy : Policy) (s : String) (d : Dataset) : QueryError → Prop where
  | grammar {cause : GrammarError} (h : parse s = .error cause) : Fails policy s d (.grammar cause)
  | noMatchingColumns {q : Query} (h : parse s = .ok q) (hnone : q.FindsNone d.columns) :
      Fails policy s d (.noMatchingColumns ((writtenNames s).map fold))
  | unsupportedPredicate {q : Query} {clause : String} (h : parse s = .ok q)
      (hfound : ¬q.FindsNone d.columns) (hpolicy : policy = .reject)
      (hp : q.predicate = some (.unsupported clause)) : Fails policy s d (.unsupportedPredicate clause)

theorem run_eq_error_iff (hd : d.WellFormed) (hrows : d.rows ≠ []) :
    run policy s d = .error error ↔ Fails policy s d error := by
  cases hs : parse s with
  | error cause =>
    rw [run_of_parse_eq_error hrows hs, Except.error.injEq]
    constructor
    · rintro rfl
      exact .grammar hs
    · rintro (h | ⟨h, _⟩ | ⟨h, _⟩)
      · rw [Except.error.inj (hs.symm.trans h)]
      all_goals cases hs.symm.trans h
  | ok q =>
    rw [run_of_parse_eq_ok hs, execute_eq_error_iff hd hrows]
    constructor
    · rintro (⟨hnone, rfl⟩ | ⟨hfound, hpolicy, clause, hp, rfl⟩)
      · rw [requested_of_parse hs hnone.1]
        exact .noMatchingColumns hs hnone
      · exact .unsupportedPredicate hs hfound hpolicy hp
    · rintro (h | ⟨h, hnone⟩ | ⟨h, hfound, hpolicy, hp⟩)
      · cases hs.symm.trans h
      · obtain rfl := Except.ok.inj (hs.symm.trans h)
        rw [requested_of_parse hs hnone.1]
        exact .inl ⟨hnone, rfl⟩
      · obtain rfl := Except.ok.inj (hs.symm.trans h)
        exact .inr ⟨hfound, hpolicy, _, hp, rfl⟩

/-- More than twenty rows are sorted, and rounding ties the keys of three of them. -/
structure SortsRoundedTie (q : Query) (d : Dataset) : Prop where
  many : 20 < (q.keptRows d).length
  tie : ∃ o ∈ q.orderBy, ∃ i ∈ d.fieldIndex? o.column, ∃ a b c, Value.RoundedTie a b c ∧
    ∀ v ∈ [a, b, c], ∃ row ∈ q.keptRows d, sortKey? i row = some v

theorem sortsRoundedTie_of_failsToSort (h : q.failsToSort d = true) : q.SortsRoundedTie d := by
  unfold failsToSort at h
  cases ho : q.orderBy with
  | none => simp [ho] at h
  | some o =>
    cases hi : d.fieldIndex? o.column with
    | none => simp [ho, hi, sortRows?] at h
    | some i =>
      simp only [ho, hi, sortRows?, Option.isNone_iff_eq_none] at h
      obtain ⟨hmany, hcmp⟩ := sortBy_eq_none h
      refine ⟨hmany, o, ho, i, hi, ?_⟩
      by_contra htie
      have hkeys := o.order.cmpKeys_preorderOn (p := fun key => ∃ row ∈ q.keptRows d, sortKey? i row = key)
        fun {a b c} ha hb hc h => htie ⟨a, b, c, h, by simp [ha, hb, hc]⟩
      exact hcmp ((hkeys.comap (sortKey? i)).mono fun row hrow => ⟨row, hrow, rfl⟩)

/-- Where the sort gives up, nothing before it has failed, and nothing behind it would. -/
theorem execute?_cases (hd : d.WellFormed) (policy : Policy) (q : Query) :
    q.execute? policy d = some (q.execute policy d) ∨ q.execute? policy d = none ∧ d.rows ≠ [] ∧
      q.SortsRoundedTie d ∧ ∃ e, q.execute policy d = .ok e := by
  unfold execute?
  dsimp only
  split
  next h =>
    simp only [Bool.and_eq_true, Bool.not_eq_true'] at h
    obtain ⟨⟨⟨hempty, hselected⟩, hpredicate⟩, hsort⟩ := h
    have hrows : d.rows ≠ [] := by simpa [Dataset.isEmpty] using hempty
    refine .inr ⟨rfl, hrows, sortsRoundedTie_of_failsToSort hsort, ?_⟩
    cases hc : selectColumns q.projection.names? d.columns with
    | error names => simp [hc, Except.isOk, Except.toBool] at hselected
    | ok columns =>
      cases hp : q.checkPredicate policy with
      | error cause => simp [hp, Except.isOk, Except.toBool] at hpredicate
      | ok _ =>
        obtain ⟨result, hr⟩ := exists_derive_resultRows hd hc
        exact ⟨_, execute_of_derived hrows hc hp hr⟩
  next => exact .inl rfl

theorem run?_cases (hd : d.WellFormed) (policy : Policy) (s : String) :
    run? policy s d = some (run policy s d) ∨ run? policy s d = none ∧ d.rows ≠ [] ∧
      (∃ q, parse s = .ok q ∧ q.SortsRoundedTie d) ∧ ∃ e, run policy s d = .ok e := by
  by_cases hrows : d.rows = []
  · simp [run?, run_of_rows_eq_nil hrows, Dataset.isEmpty, hrows]
  · have hempty := Dataset.isEmpty_eq_false hrows
    cases hs : parse s with
    | error cause => simp [run?, run_of_parse_eq_error hrows hs, hempty, hs]
    | ok q =>
      have hrun : run? policy s d = q.execute? policy d := by simp [run?, hempty, hs]
      rw [hrun, run_of_parse_eq_ok hs]
      rcases execute?_cases hd policy q with h | ⟨hnone, hrows, htie, he⟩
      · exact .inl h
      · exact .inr ⟨hnone, hrows, ⟨q, rfl, htie⟩, he⟩

theorem SortsRoundedTie.exists_not_moderate (h : q.SortsRoundedTie d) :
    ∃ row ∈ d.rows, ¬q.SortsModerately d row := by
  obtain ⟨o, ho, i, hi, a, b, c, htie, hkeys⟩ := h.tie
  by_contra hm
  have hmoderate {v : Value} (hv : v ∈ [a, b, c]) : v.IsModerate := by
    obtain ⟨row, hrow, hkey⟩ := hkeys v hv
    rw [keptRows_eq] at hrow
    refine Decidable.byContradiction fun hnot => hm ⟨row, (List.mem_filter.1 hrow).1, fun hsorts => hnot ?_⟩
    exact hsorts o ho i hi v (Option.filter_eq_some_iff.1 hkey).1
  exact Value.not_roundedTie_of_moderate (hmoderate (by simp)) (hmoderate (by simp)) htie

/-- Where no integer is too great to be told from others by a float, every run comes to an end of its own. -/
theorem run?_eq_some (hd : d.WellFormed) (hm : ∀ q, parse s = .ok q → ∀ row ∈ d.rows, q.SortsModerately d row) :
    run? policy s d = some (run policy s d) := by
  rcases run?_cases hd policy s with h | ⟨-, -, ⟨q, hq, htie⟩, -⟩
  · exact h
  · obtain ⟨row, hrow, hnot⟩ := htie.exists_not_moderate
    exact absurd (hm q hq row hrow) hnot

theorem run?_eq_error_iff (hd : d.WellFormed) (hrows : d.rows ≠ []) :
    run? policy s d = some (.error error) ↔ Fails policy s d error := by
  rw [← run_eq_error_iff hd hrows]
  rcases run?_cases hd policy s with h | ⟨h, -, -, e, he⟩
  · rw [h, Option.some.injEq]
  · rw [h, he]
    exact iff_of_false nofun nofun

/-- A dataset without rows is returned as it is. On any other one a text fails just for one of the reasons.
Otherwise it gives a result, unless the sort meets keys that rounding ties; then there is not even an error.
No query makes up an invalid dataset. -/
theorem run_outcome (policy : Policy) (s : String) (hd : d.WellFormed) :
    (d.rows = [] → run? policy s d = some (.ok ⟨d, []⟩)) ∧
      (d.rows ≠ [] → (∀ error, run? policy s d = some (.error error) ↔ Fails policy s d error) ∧
        ((∀ error, ¬Fails policy s d error) → (∃ e, run? policy s d = some (.ok e)) ∨
          run? policy s d = none ∧ ∃ q, parse s = .ok q ∧ q.SortsRoundedTie d)) ∧
      ∀ cause, run? policy s d ≠ some (.error (.dataset cause)) ∧
        ∀ q : Query, q.execute? policy d ≠ some (.error (.dataset cause)) := by
  refine ⟨fun hrows => ?_, fun hrows => ⟨fun error => run?_eq_error_iff hd hrows, fun hnone => ?_⟩,
    fun cause => ⟨fun h => ?_, fun q h => ?_⟩⟩
  · rw [run?, Dataset.isEmpty, hrows, List.isEmpty_nil, if_pos rfl]
  · rcases run?_cases hd policy s with h | ⟨h, -, htie, -⟩
    · cases hrun : run policy s d with
      | error error => exact absurd ((run_eq_error_iff hd hrows).1 hrun) (hnone error)
      | ok e => exact .inl ⟨e, by rw [h, hrun]⟩
    · exact .inr ⟨h, htie⟩
  · by_cases hrows : d.rows = []
    · rw [run?, Dataset.isEmpty, hrows, List.isEmpty_nil, if_pos rfl] at h
      cases h
    · cases (run?_eq_error_iff hd hrows).1 h
  · rcases execute?_cases hd policy q with hq | ⟨hq, -⟩
    · exact execute_ne_dataset_error hd policy q cause (Option.some.inj (hq.symm.trans h))
    · cases hq.symm.trans h

/-- A field that is not shown is not found, and this is reported although the condition is rejected, too. -/
theorem run_outcome_hidden_field :
    let d : Dataset := ⟨[⟨"age", .integer⟩], [1], ["city", "age"], [[.text "Ulm", .integer 52]]⟩
    let s := "SELECT ÄGE, City FROM t WHERE age > 3"
    d.WellFormed ∧ d.rows ≠ [] ∧ (parse s).toOption.bind unsupportedClause? = some "age > 3" ∧
      Fails .reject s d (.noMatchingColumns ["äge", "city"]) ∧
      run? .reject s d = some (.error (.noMatchingColumns ["äge", "city"])) := by
  intro d s
  have hd : d.WellFormed := by constructor <;> decide
  have hparse : parse s = .ok ⟨.columns ["äge", "city"], some "t", some (.unsupported "age > 3"), none, none,
      false⟩ := by decide +kernel
  have hwritten : (writtenNames s).map fold = ["äge", "city"] := by decide +kernel
  have hnone : FindsNone ⟨.columns ["äge", "city"], some "t", some (.unsupported "age > 3"), none, none, false⟩
      d.columns := by
    constructor <;> decide +kernel
  have hfails : Fails .reject s d (.noMatchingColumns ["äge", "city"]) :=
    hwritten ▸ .noMatchingColumns hparse hnone
  refine ⟨hd, by decide, by rw [hparse]; rfl, hfails, ?_⟩
  exact ((run_outcome .reject s hd).2.1 (by decide)).1 _ |>.2 hfails

/-- One float among integers that are next to each other, `2 ^ 53` and the one above it, which is rounded to the
float. The merge of the two halves meets the float from both sides. -/
theorem not_run_succeeds : ¬∀ (policy : Policy) (s : String) (d : Dataset), d.WellFormed → d.rows ≠ [] →
    (∀ error, ¬Fails policy s d error) → ∃ e, run? policy s d = some (.ok e) := by
  intro h
  let low : Row := [.integer 9007199254740992]
  let high : Row := [.integer 9007199254740993]
  let d : Dataset := ⟨[⟨"a", .integer⟩], [0], ["a"],
    [high, low] ++ List.replicate 8 high ++ [[.float ⟨0x4340000000000000⟩]] ++ List.replicate 10 low⟩
  let s := "SELECT * FROM t ORDER BY a"
  have hd : d.WellFormed := by constructor <;> decide
  have hrun : run? .ignore s d = none := by decide +kernel
  have hnone : ∀ error, ¬Fails .ignore s d error := by
    intro error
    rw [← run?_eq_error_iff hd (by decide), hrun]
    exact nofun
  obtain ⟨e, he⟩ := h .ignore s d hd (by decide) hnone
  cases hrun.symm.trans he

end TableQuery.Query
