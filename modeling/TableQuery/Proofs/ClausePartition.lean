import Mathlib.Order.Bounds.Basic
import TableQuery.Proofs.Acceptance

/-! # The parts of a statement

Behind its first token a statement consists of the select list and of the clauses, each of them a keyword
and a body. Every token is in one of these parts, and in no other.
-/
namespace TableQuery

theorem ClauseKind.length_words (kind : ClauseKind) : kind.words.length = kind.keywordLength := by
  cases kind <;> rfl

theorem ClauseKind.keywordLength_pos (kind : ClauseKind) : 0 < kind.keywordLength := by
  cases kind <;> decide

def ClauseKind.IsKeyword (kind : ClauseKind) (ts : List Token) : Prop :=
  List.Forall₂ (fun t w => t.kind.isKeyword w = true) ts kind.words

theorem ClauseKind.IsKeyword.length_eq {kind : ClauseKind} {ts : List Token} (h : kind.IsKeyword ts) :
    ts.length = kind.keywordLength :=
  (List.Forall₂.length_eq h).trans kind.length_words

theorem ClauseKind.IsKeyword.ofTokens?_eq {kind : ClauseKind} {t : Token} {words : List Token}
    (h : kind.IsKeyword (t :: words)) (rest : List Token) : ofTokens? t (words ++ rest) = some kind := by
  unfold IsKeyword at h
  cases kind with
  | source | filter | limit =>
    rcases h with _ | ⟨ht, ⟨⟩⟩
    simp only [ofTokens?, TokenKind.isKeyword_of_isKeyword ht]
    rfl
  | groupBy | orderBy =>
    rcases h with _ | ⟨ht, _ | ⟨hu, ⟨⟩⟩⟩
    simp only [ofTokens?, List.cons_append, List.head?_cons, Option.any_some,
      TokenKind.isKeyword_of_isKeyword ht, TokenKind.isKeyword_of_isKeyword hu]
    rfl

theorem ClauseKind.exists_isKeyword_of_ofTokens? {t : Token} {rest : List Token} {kind : ClauseKind}
    (h : ofTokens? t rest = some kind) : ∃ words after, rest = words ++ after ∧ kind.IsKeyword (t :: words) := by
  have hone {kind : ClauseKind} {w : String} (hwords : kind.words = [w]) (hw : t.kind.isKeyword w = true) :
      ∃ words after, rest = words ++ after ∧ kind.IsKeyword (t :: words) := by
    refine ⟨[], rest, rfl, ?_⟩
    rw [IsKeyword, hwords]
    exact .cons hw .nil
  have htwo {kind : ClauseKind} {w : String} (hwords : kind.words = [w, "BY"])
      (hw : (t.kind.isKeyword w && rest.head?.any (·.kind.isKeyword "BY")) = true) :
      ∃ words after, rest = words ++ after ∧ kind.IsKeyword (t :: words) := by
    obtain ⟨ht, hby⟩ := Bool.and_eq_true_iff.1 hw
    cases rest with
    | nil => cases hby
    | cons u rest =>
      refine ⟨[u], rest, rfl, ?_⟩
      rw [IsKeyword, hwords]
      exact .cons ht (.cons hby .nil)
  simp only [ofTokens?] at h
  split at h
  next hfrom => cases h; exact hone rfl hfrom
  split at h
  next hwhere => cases h; exact hone rfl hwhere
  split at h
  next hlimit => cases h; exact hone rfl hlimit
  split at h
  next horder => cases h; exact htwo rfl horder
  split at h
  next hgroup => cases h; exact htwo rfl hgroup
  cases h

theorem ClauseKind.keywordLength_le (kind : ClauseKind) : kind.keywordLength ≤ 2 := by
  cases kind <;> decide

theorem ClauseKind.keywordLength_le_of_ofTokens? {t : Token} {rest : List Token} {kind : ClauseKind}
    (h : ofTokens? t rest = some kind) : kind.keywordLength ≤ rest.length + 1 := by
  obtain ⟨words, after, rfl, hwords⟩ := exists_isKeyword_of_ofTokens? h
  have hlength := hwords.length_eq
  rw [List.length_cons] at hlength
  rw [List.length_append]
  omega

/-- No keyword begins with the second word of another one. -/
theorem ClauseKind.notBy_of_ofTokens? {t : Token} {rest : List Token} {kind : ClauseKind}
    (h : ofTokens? t rest = some kind) : NotBy (t :: rest) := by
  obtain ⟨words, after, rfl, hwords⟩ := exists_isKeyword_of_ofTokens? h
  have hkeyed : Segment.Keyed ⟨kind, t :: words, after⟩ := hwords
  simpa [Segment.tokens] using hkeyed.notBy []

/-- The next keyword begins behind the last word of this one. -/
theorem keywordLength_le_of_mem {t : Token} {ts : List Token} {kind : ClauseKind} {depth position : Nat}
    (h : ClauseKind.ofTokens? t ts = some kind) {m : ClauseMark}
    (hm : m ∈ clauseMarks depth (position + 1) ts) : position + kind.keywordLength ≤ m.position := by
  obtain ⟨xs, u, ys, rfl, hposition, -, hnext⟩ := mem_clauseMarks_iff.1 hm
  cases xs with
  | cons x xs =>
    have htwo := kind.keywordLength_le
    rw [hposition, List.length_cons]
    omega
  | nil =>
    -- Two keywords next to each other: the first one has a single word, as no keyword begins with BY.
    have hby : NotBy ([] ++ u :: ys) := ClauseKind.notBy_of_ofTokens? hnext
    rw [← List.nil_append ([] ++ _), ClauseKind.ofTokens?_append hby] at h
    have hone : kind.keywordLength ≤ 0 + 1 := ClauseKind.keywordLength_le_of_ofTokens? h
    rw [hposition, List.length_nil]
    omega

theorem pairwise_clauseMarks (depth position : Nat) (ts : List Token) :
    (clauseMarks depth position ts).Pairwise fun m n => m.position + m.kind.keywordLength ≤ n.position := by
  induction ts generalizing depth position with
  | nil => exact .nil
  | cons t ts ih =>
    rw [clauseMarks]
    split
    next =>
      split
      next kind hkind => exact .cons (fun n hn => keywordLength_le_of_mem hkind hn) (ih _ _)
      next => exact ih _ _
    next => exact ih _ _

theorem firstOfEachKind_sublist (seen : List ClauseKind) (marks : List ClauseMark) :
    (firstOfEachKind seen marks).Sublist marks := by
  induction marks generalizing seen with
  | nil => exact .slnil
  | cons m marks ih =>
    rw [firstOfEachKind]
    split
    next => exact (ih seen).cons m
    next => exact (ih _).cons_cons m

/-- Among marks in order a mark that is kept stands before all others of its kind. -/
theorem position_le_of_mem_firstOfEachKind {seen : List ClauseKind} {marks : List ClauseMark}
    (h : marks.Pairwise fun m n => m.position ≤ n.position) {m n : ClauseMark}
    (hm : m ∈ firstOfEachKind seen marks) (hn : n ∈ marks) (hkind : n.kind = m.kind) :
    m.position ≤ n.position := by
  induction marks generalizing seen with
  | nil => cases hn
  | cons a marks ih =>
    obtain ⟨ha, hmarks⟩ := List.pairwise_cons.1 h
    have hlater {seen : List ClauseKind} (hm : m ∈ firstOfEachKind seen marks) (hseen : a.kind ∈ seen) :
        m.position ≤ n.position := by
      have hnot := (mem_map_kind_firstOfEachKind_iff.1 (List.mem_map_of_mem hm)).2
      rcases List.mem_cons.1 hn with rfl | hn
      · exact absurd (hkind ▸ hseen) hnot
      · exact ih hmarks hm hn
    rw [firstOfEachKind] at hm
    split at hm
    next hseen => exact hlater hm hseen
    next =>
      rcases List.mem_cons.1 hm with rfl | hm
      · rcases List.mem_cons.1 hn with rfl | hn
        · exact le_rfl
        · exact ha n hn
      · exact hlater hm List.mem_cons_self

/-- The parts begin and end behind one another, the first at `low` and the last at `high`. -/
def Tiles : Nat → List (Nat × Nat) → Nat → Prop
  | low, [], high => low = high
  | low, part :: parts, high => part.1 = low ∧ low ≤ part.2 ∧ Tiles part.2 parts high

theorem Tiles.le {parts : List (Nat × Nat)} {low high : Nat} (h : Tiles low parts high) : low ≤ high := by
  induction parts generalizing low with
  | nil => exact Nat.le_of_eq h
  | cons part parts ih => exact h.2.1.trans (ih h.2.2)

/-- A position of the range lies in exactly one of the parts, any other one in none. -/
theorem Tiles.countP_eq {parts : List (Nat × Nat)} {low high : Nat} (h : Tiles low parts high) (i : Nat) :
    parts.countP (fun part => part.1 ≤ i ∧ i < part.2) = if low ≤ i ∧ i < high then 1 else 0 := by
  induction parts generalizing low with
  | nil =>
    obtain rfl : low = high := h
    rw [List.countP_nil, if_neg (by omega)]
  | cons part parts ih =>
    obtain ⟨rfl, hle, hrest⟩ := h
    have hhigh := hrest.le
    rw [List.countP_cons, ih hrest]
    split_ifs <;> simp_all <;> omega

theorem Tiles.of_mem {parts : List (Nat × Nat)} {low high : Nat} (h : Tiles low parts high) :
    ∀ part ∈ parts, low ≤ part.1 ∧ part.1 ≤ part.2 ∧ part.2 ≤ high := by
  induction parts generalizing low with
  | nil => exact List.forall_mem_nil _
  | cons part parts ih =>
    obtain ⟨rfl, hle, hrest⟩ := h
    refine List.forall_mem_cons.2 ⟨⟨le_rfl, hle, hrest.le⟩, fun other hother => ?_⟩
    obtain ⟨hlow, hother⟩ := ih hrest other hother
    exact ⟨hle.trans hlow, hother⟩

section
variable {stop : Nat} {marks : List ClauseMark}

theorem map_mark_clauseSpans (stop : Nat) (marks : List ClauseMark) :
    (clauseSpans stop marks).map (fun span => ⟨span.kind, span.keyword⟩) = marks := by
  induction marks with
  | nil => rfl
  | cons m marks ih => rw [clauseSpans, List.map_cons, ih]

theorem map_keyword_clauseSpans (stop : Nat) (marks : List ClauseMark) :
    (clauseSpans stop marks).map (·.keyword) = marks.map (·.position) := by
  conv_rhs => rw [← map_mark_clauseSpans stop marks, List.map_map]
  rfl

theorem head?_clauseSpans (stop : Nat) (marks : List ClauseMark) :
    (clauseSpans stop marks).head?.map (·.keyword) = marks.head?.map (·.position) := by
  cases marks <;> rfl

theorem start_of_mem_clauseSpans : ∀ span ∈ clauseSpans stop marks,
    span.start = span.keyword + span.kind.keywordLength := by
  induction marks with
  | nil => exact List.forall_mem_nil _
  | cons m marks ih => exact List.forall_mem_cons.2 ⟨rfl, ih⟩

theorem stop_of_getElem?_clauseSpans {i : Nat} {span : ClauseSpan}
    (h : (clauseSpans stop marks)[i]? = some span) :
    span.stop = ((clauseSpans stop marks)[i + 1]?.map (·.keyword)).getD stop := by
  induction marks generalizing i with
  | nil => cases h
  | cons m marks ih =>
    cases i with
    | succ i => exact ih h
    | zero =>
      cases h
      simp [clauseSpans, ← List.head?_eq_getElem?, head?_clauseSpans]

def ClauseSpan.parts (span : ClauseSpan) : List (Nat × Nat) :=
  [(span.keyword, span.start), (span.start, span.stop)]

theorem tiles_clauseSpans
    (h : marks.Pairwise fun m n => m.position + m.kind.keywordLength ≤ n.position)
    (hstop : ∀ m ∈ marks, m.position + m.kind.keywordLength ≤ stop) :
    Tiles ((marks.head?.map (·.position)).getD stop)
      ((clauseSpans stop marks).flatMap ClauseSpan.parts) stop := by
  induction marks with
  | nil => rfl
  | cons m marks ih =>
    obtain ⟨hm, hmarks⟩ := List.pairwise_cons.1 h
    obtain ⟨hend, hends⟩ := List.forall_mem_cons.1 hstop
    refine ⟨rfl, Nat.le_add_right _ _, rfl, ?_, ih hmarks hends⟩
    cases marks with
    | nil => exact hend
    | cons n marks => exact hm n List.mem_cons_self

end

/-- The keyword of a clause stands at a position, with no parenthesis open before it. The first token is
not looked at. -/
def StandsAt (tokens : List Token) (kind : ClauseKind) (position : Nat) : Prop :=
  ∃ before keyword after, tokens.tail = before ++ (keyword ++ after) ∧ position = 1 + before.length ∧
    before.foldl depthAfter 0 = 0 ∧ kind.IsKeyword keyword

def partsOf (tokens : List Token) (spans : List ClauseSpan) : List (Nat × Nat) :=
  (1, (spans.head?.map (·.keyword)).getD tokens.length) :: spans.flatMap ClauseSpan.parts

/-- The spans of a statement are those of the first keywords of each kind, in order. Together with the
select list they hold every token but the first one once. -/
structure IsPartition (tokens : List Token) (spans : List ClauseSpan) : Prop where
  keyword_pos : ∀ span ∈ spans, 1 ≤ span.keyword
  increasing : (spans.map (·.keyword)).Pairwise (· < ·)
  nodup_kinds : (spans.map (·.kind)).Nodup
  found_iff : ∀ kind position, (∃ span ∈ spans, span.kind = kind ∧ span.keyword = position) ↔
    IsLeast {p | StandsAt tokens kind p} position
  start_eq : ∀ span ∈ spans, span.start = span.keyword + span.kind.words.length
  stop_eq : ∀ i span, spans[i]? = some span →
    span.stop = (spans[i + 1]?.map (·.keyword)).getD tokens.length
  in_range : ∀ span ∈ spans, span.start ≤ span.stop ∧ span.stop ≤ tokens.length
  once : ∀ i, 1 ≤ i → i < tokens.length →
    (partsOf tokens spans).countP (fun part => part.1 ≤ i ∧ i < part.2) = 1

theorem standsAt_iff {tokens : List Token} {kind : ClauseKind} {position : Nat} :
    StandsAt tokens kind position ↔ ⟨kind, position⟩ ∈ clauseMarks 0 1 tokens.tail := by
  rw [mem_clauseMarks_iff]
  constructor
  · rintro ⟨before, keyword, after, htail, hposition, hdepth, hwords⟩
    have hne : keyword ≠ [] := by
      rw [← List.length_pos_iff, hwords.length_eq]
      exact kind.keywordLength_pos
    obtain ⟨t, words, rfl⟩ := List.exists_cons_of_ne_nil hne
    exact ⟨before, t, words ++ after, htail, hposition, hdepth, hwords.ofTokens?_eq after⟩
  · rintro ⟨before, t, rest, htail, hposition, hdepth, hkind⟩
    obtain ⟨words, after, rfl, hwords⟩ := ClauseKind.exists_isKeyword_of_ofTokens? hkind
    exact ⟨before, t :: words, after, htail, hposition, hdepth, hwords⟩

theorem tiles_splitClauses {tokens : List Token} (h : tokens ≠ []) :
    Tiles 1 (partsOf tokens (splitClauses tokens)) tokens.length := by
  have hend : ∀ m ∈ clauseMarks 0 1 tokens.tail,
      1 ≤ m.position ∧ m.position + m.kind.keywordLength ≤ tokens.length := by
    intro m hm
    obtain ⟨xs, t, ys, htail, hposition, -, hkind⟩ := mem_clauseMarks_iff.1 hm
    have hkeyword := ClauseKind.keywordLength_le_of_ofTokens? hkind
    have hlength := congrArg List.length htail
    simp only [List.length_tail, List.length_append, List.length_cons] at hlength
    have hpos := List.length_pos_iff.2 h
    omega
  have hsub := firstOfEachKind_sublist [] (clauseMarks 0 1 tokens.tail)
  have hspans := tiles_clauseSpans ((pairwise_clauseMarks 0 1 tokens.tail).sublist hsub)
    fun m hm => (hend m (hsub.subset hm)).2
  rw [← head?_clauseSpans tokens.length] at hspans
  refine ⟨rfl, ?_, hspans⟩
  rw [splitClauses, head?_clauseSpans]
  cases hfirst : firstOfEachKind [] (clauseMarks 0 1 tokens.tail) with
  | nil => exact List.length_pos_iff.2 h
  | cons m marks => exact (hend m (hsub.subset (hfirst ▸ List.mem_cons_self))).1

theorem pairwise_keyword_splitClauses (tokens : List Token) :
    ((splitClauses tokens).map (·.keyword)).Pairwise (· < ·) := by
  rw [splitClauses, map_keyword_clauseSpans]
  refine List.pairwise_map.2 (((pairwise_clauseMarks 0 1 tokens.tail).sublist
    (firstOfEachKind_sublist [] _)).imp fun {m n} hmn => ?_)
  have hpos := m.kind.keywordLength_pos
  omega

theorem isLeast_of_mem_firstOfEachKind {tokens : List Token} {m : ClauseMark}
    (hm : m ∈ firstOfEachKind [] (clauseMarks 0 1 tokens.tail)) :
    IsLeast {p | StandsAt tokens m.kind p} m.position := by
  have hle : (clauseMarks 0 1 tokens.tail).Pairwise fun m n => m.position ≤ n.position :=
    (pairwise_clauseMarks 0 1 tokens.tail).imp fun hmn => (Nat.le_add_right _ _).trans hmn
  refine ⟨standsAt_iff.2 ((firstOfEachKind_sublist [] _).subset hm), fun p hp => ?_⟩
  exact position_le_of_mem_firstOfEachKind hle hm (standsAt_iff.1 hp) rfl

/-- The spans are those of the first keywords of each kind. -/
theorem exists_mem_splitClauses_iff {tokens : List Token} {kind : ClauseKind} {position : Nat} :
    (∃ span ∈ splitClauses tokens, span.kind = kind ∧ span.keyword = position) ↔
      IsLeast {p | StandsAt tokens kind p} position := by
  have hspan : (∃ span ∈ splitClauses tokens, span.kind = kind ∧ span.keyword = position) ↔
      ⟨kind, position⟩ ∈ firstOfEachKind [] (clauseMarks 0 1 tokens.tail) := by
    conv_rhs => rw [← map_mark_clauseSpans tokens.length (firstOfEachKind [] _)]
    simp [splitClauses]
  rw [hspan]
  refine ⟨fun hm => isLeast_of_mem_firstOfEachKind hm, fun hposition => ?_⟩
  have hkind : kind ∈ (firstOfEachKind [] (clauseMarks 0 1 tokens.tail)).map (·.kind) :=
    mem_map_kind_firstOfEachKind_iff.2
      ⟨List.mem_map_of_mem (standsAt_iff.1 hposition.1), List.not_mem_nil⟩
  obtain ⟨m, hm, rfl⟩ := List.mem_map.1 hkind
  rwa [hposition.unique (isLeast_of_mem_firstOfEachKind hm)]

theorem isPartition_splitClauses {tokens : List Token} (h : tokens ≠ []) :
    IsPartition tokens (splitClauses tokens) := by
  have htiles := tiles_splitClauses h
  have hpart {span : ClauseSpan} (hspan : span ∈ splitClauses tokens) {part : Nat × Nat}
      (hpart : part ∈ span.parts) : 1 ≤ part.1 ∧ part.1 ≤ part.2 ∧ part.2 ≤ tokens.length :=
    htiles.of_mem part (List.mem_cons_of_mem _ (List.mem_flatMap.2 ⟨span, hspan, hpart⟩))
  constructor
  case keyword_pos => exact fun span hspan => (hpart hspan List.mem_cons_self).1
  case increasing => exact pairwise_keyword_splitClauses tokens
  case nodup_kinds => exact nodup_kind_splitClauses tokens
  case found_iff => exact fun kind position => exists_mem_splitClauses_iff
  case start_eq =>
    intro span hspan
    rw [span.kind.length_words]
    exact start_of_mem_clauseSpans span hspan
  case stop_eq => exact fun i span hspan => stop_of_getElem?_clauseSpans hspan
  case in_range =>
    exact fun span hspan => (hpart hspan (List.mem_cons_of_mem _ List.mem_cons_self)).2
  case once => exact fun i hlow hhigh => (htiles.countP_eq i).trans (if_pos ⟨hlow, hhigh⟩)

/-- The first word of a statement is no semicolon, so it is not dropped. -/
theorem Query.StartsWithSelect.exists_cons {s : String} (h : StartsWithSelect s) : ∃ first rest,
    tokenize s = first :: rest ∧ first.kind ≠ .semicolon ∧ tokens s = first :: dropSemicolons rest := by
  obtain ⟨first, hfirst, hselect⟩ := h
  obtain ⟨rest, hrest⟩ := List.head?_eq_some_iff.1 hfirst
  have hkind : first.kind ≠ .semicolon := by
    intro hk
    rw [hk] at hselect
    cases hselect
  refine ⟨first, rest, hrest, hkind, ?_⟩
  rw [tokens, hrest]
  exact dropSemicolons_append_cons hkind [] rest

theorem Query.StartsWithSelect.tokens_ne_nil {s : String} (h : StartsWithSelect s) : tokens s ≠ [] := by
  obtain ⟨first, rest, -, -, htokens⟩ := h.exists_cons
  rw [htokens]
  exact List.cons_ne_nil _ _

end TableQuery
