import TableQuery.Proofs.PrintedQuery
import TableQuery.Proofs.Verbatim

/-! # The clauses of a printed query

A query can be printed with clauses whose bodies hold keywords, open quotes or parentheses. The text is
split into the clauses that were printed as long as no body takes what belongs to a later one.
-/
namespace TableQuery
open Text Piece

def ClauseKind.chars (kind : ClauseKind) : List Char := kind.words.flatMap fun w => ' ' :: w.toList

theorem ClauseKind.kinds_chars (kind : ClauseKind) : kinds kind.chars = kind.words.map .word := by
  cases kind <;> decide +kernel

theorem ClauseKind.isClosed_chars (kind : ClauseKind) : IsClosed kind.chars := by
  unfold IsClosed
  rw [kind.kinds_chars]
  intro k hk
  obtain ⟨w, -, rfl⟩ := List.mem_map.1 hk
  rfl

def clauseText (bodies : List (ClauseKind × List Char)) : List Char :=
  bodies.flatMap fun b => b.1.chars ++ ' ' :: b.2

theorem stops_clauseText (bodies : List (ClauseKind × List Char)) : Stops (clauseText bodies) := by
  cases bodies with
  | nil => exact nofun
  | cons b bodies =>
    obtain ⟨kind, body⟩ := b
    have hkind : kind.chars.head? = some ' ' := by cases kind <;> rfl
    intro c hc
    rw [clauseText, List.flatMap_cons, List.append_assoc, List.head?_append, hkind] at hc
    cases hc
    decide

/-- No body holds the keyword of a clause that is not in `seen` and has not begun. If another clause
follows, the body closes its quotes and parentheses. -/
def IsSeparable (seen : List ClauseKind) : List (ClauseKind × List Char) → Prop
  | [] => True
  | (kind, body) :: bodies => (∀ m ∈ clauseMarks 0 0 (tokensFrom 0 body), m.kind ∈ kind :: seen) ∧
      (bodies ≠ [] → IsClosed body ∧ (tokensFrom 0 body).foldl depthAfter 0 = 0) ∧
        IsSeparable (kind :: seen) bodies

instance decidableIsSeparable : (seen : List ClauseKind) → (bodies : List (ClauseKind × List Char)) →
    Decidable (IsSeparable seen bodies)
  | _, [] => inferInstanceAs (Decidable True)
  | seen, (kind, _) :: bodies =>
    have := decidableIsSeparable (kind :: seen) bodies
    inferInstanceAs (Decidable (_ ∧ _ ∧ _))

def segmentsFrom (position : Nat) : List (ClauseKind × List Char) → List Segment
  | [] => []
  | (kind, body) :: bodies =>
    let start := position + byteLength kind.chars
    let stop := start + byteLength (' ' :: body)
    ⟨kind, tokensFrom position kind.chars, tokensFrom start (' ' :: body)⟩ :: segmentsFrom stop bodies

section
variable {seen : List ClauseKind} {bodies : List (ClauseKind × List Char)}

theorem kinds_space_cons (cs : List Char) : kinds (' ' :: cs) = kinds cs :=
  kinds_gap isSpace_of_mem_space cs

theorem IsClosed.space_cons {cs : List Char} (h : IsClosed cs) : IsClosed (' ' :: cs) := by
  unfold IsClosed
  rwa [kinds_space_cons]

theorem map_kind_body (position : Nat) (body : List Char) :
    (tokensFrom position (' ' :: body)).map (·.kind) = (tokensFrom 0 body).map (·.kind) := by
  rw [map_kind_tokensFrom, map_kind_tokensFrom, kinds_space_cons]

theorem IsSeparable.tokensFrom_clauseText (h : IsSeparable seen bodies) (position : Nat) :
    tokensFrom position (clauseText bodies) = (segmentsFrom position bodies).flatMap Segment.tokens := by
  induction bodies generalizing seen position with
  | nil =>
    rw [clauseText, List.flatMap_nil, tokensFrom]
    rfl
  | cons b bodies ih =>
    obtain ⟨kind, body⟩ := b
    obtain ⟨-, hclosed, hrest⟩ := h
    have hspace : Stops (' ' :: body ++ clauseText bodies) := by
      intro c hc
      cases hc
      decide
    have hbody (start : Nat) : tokensFrom start (' ' :: body ++ clauseText bodies) =
        tokensFrom start (' ' :: body) ++
          tokensFrom (start + byteLength (' ' :: body)) (clauseText bodies) := by
      cases bodies with
      | nil => rw [clauseText, List.flatMap_nil, List.append_nil, tokensFrom.eq_1, List.append_nil]
      | cons c bodies =>
        exact tokensFrom_append (hclosed (List.cons_ne_nil _ _)).1.space_cons (stops_clauseText _) start
    have htext : clauseText ((kind, body) :: bodies) =
        kind.chars ++ (' ' :: body ++ clauseText bodies) := by
      rw [clauseText, List.flatMap_cons, List.append_assoc]
      rfl
    rw [htext, tokensFrom_append kind.isClosed_chars hspace, hbody, ih hrest]
    rw [segmentsFrom, List.flatMap_cons, Segment.tokens, List.append_assoc]

theorem keyed_segment (kind : ClauseKind) (position : Nat) (body : List Token) :
    Segment.Keyed ⟨kind, tokensFrom position kind.chars, body⟩ := by
  apply Segment.Keyed.of_kinds
  rw [map_kind_tokensFrom, kind.kinds_chars, List.forall₂_map_left_iff, List.forall₂_same]
  intro w _
  exact beq_self_eq_true _

theorem IsSeparable.ordered (h : IsSeparable seen bodies) (hk : (bodies.map (·.1)).Nodup)
    (hseen : ∀ b ∈ bodies, b.1 ∉ seen) (position : Nat) : Ordered seen (segmentsFrom position bodies) := by
  induction bodies generalizing seen position with
  | nil => trivial
  | cons b bodies ih =>
    obtain ⟨kind, body⟩ := b
    obtain ⟨hmarks, hclosed, hrest⟩ := h
    obtain ⟨hkind, hnodup⟩ := List.nodup_cons.1 hk
    obtain ⟨hkindseen, hrestseen⟩ := List.forall_mem_cons.1 hseen
    have hbody (p : Nat) := map_kind_body p body
    refine ⟨keyed_segment kind position _, hkindseen, ?_, ?_, ih hrest hnodup ?_ _⟩
    · intro m hm
      have hmem : m.kind ∈ (clauseMarks 0 0 (tokensFrom _ (' ' :: body))).map (·.kind) :=
        List.mem_map_of_mem hm
      rw [map_kind_clauseMarks (hbody _) 0 0 0] at hmem
      obtain ⟨n, hn, hnm⟩ := List.mem_map.1 hmem
      exact hnm ▸ hmarks n hn
    · intro hne
      have hbodies : bodies ≠ [] := by
        rintro rfl
        exact hne rfl
      rw [foldl_depthAfter_congr (hbody _)]
      exact (hclosed hbodies).2
    · intro b hb hmem
      rcases List.mem_cons.1 hmem with he | hmem
      · exact hkind (List.mem_map.2 ⟨b, hb, he⟩)
      · exact hrestseen b hb hmem

/-- A token of the clauses belongs to a keyword or to a body. -/
theorem kind_of_mem_segmentsFrom {position : Nat} {t : Token}
    (h : t ∈ (segmentsFrom position bodies).flatMap Segment.tokens) :
    (∃ kind : ClauseKind, ∃ w ∈ kind.words, t.kind = .word w) ∨ ∃ b ∈ bodies, t.kind ∈ kinds b.2 := by
  induction bodies generalizing position with
  | nil => cases h
  | cons b bodies ih =>
    obtain ⟨kind, body⟩ := b
    rw [segmentsFrom, List.flatMap_cons, Segment.tokens] at h
    rcases List.mem_append.1 h with h | h
    · rcases List.mem_append.1 h with h | h
      · have hkind : t.kind ∈ (tokensFrom position kind.chars).map (·.kind) := List.mem_map_of_mem h
        rw [map_kind_tokensFrom, kind.kinds_chars] at hkind
        obtain ⟨w, hw, hword⟩ := List.mem_map.1 hkind
        exact .inl ⟨kind, w, hw, hword.symm⟩
      · have hkind : t.kind ∈ (tokensFrom _ (' ' :: body)).map (·.kind) := List.mem_map_of_mem h
        rw [map_kind_tokensFrom, kinds_space_cons] at hkind
        exact .inr ⟨(kind, body), List.mem_cons_self, hkind⟩
    · rcases ih h with hword | ⟨b, hb, hkind⟩
      · exact .inl hword
      · exact .inr ⟨b, List.mem_cons_of_mem _ hb, hkind⟩

theorem map_kind_segmentsFrom (position : Nat) (bodies : List (ClauseKind × List Char)) :
    (segmentsFrom position bodies).map (·.kind) = bodies.map (·.1) := by
  induction bodies generalizing position with
  | nil => rfl
  | cons b bodies ih => rw [segmentsFrom, List.map_cons, ih, List.map_cons]

theorem find?_segmentsFrom (position : Nat) (bodies : List (ClauseKind × List Char)) (kind : ClauseKind) :
    ∃ p, ((segmentsFrom position bodies).find? (·.kind = kind)).map (·.body) =
      (bodies.find? (·.1 = kind)).map fun b => tokensFrom p (' ' :: b.2) := by
  induction bodies generalizing position with
  | nil => exact ⟨0, rfl⟩
  | cons b bodies ih =>
    obtain ⟨bkind, body⟩ := b
    rw [segmentsFrom, List.find?_cons, List.find?_cons]
    dsimp only
    cases decide (bkind = kind) with
    | true => exact ⟨_, rfl⟩
    | false => exact ih _

end

theorem exists_eq_dropSemicolons (ts : List Token) :
    ∃ semicolons, ts = dropSemicolons ts ++ semicolons ∧ ∀ t ∈ semicolons, t.kind = .semicolon := by
  refine ⟨(ts.reverse.takeWhile (·.kind == .semicolon)).reverse, ?_, fun t ht => ?_⟩
  · rw [dropSemicolons, ← List.reverse_append, List.takeWhile_append_dropWhile, List.reverse_reverse]
  · exact beq_iff_eq.1 (List.all_eq_true.1 List.all_takeWhile t (List.mem_reverse.1 ht))

theorem dropSemicolons_append_cons {t : Token} (ht : t.kind ≠ .semicolon) (xs ys : List Token) :
    dropSemicolons (xs ++ t :: ys) = xs ++ t :: dropSemicolons ys := by
  have hreverse : (xs ++ t :: ys).reverse = ys.reverse ++ t :: xs.reverse := by simp
  have hkeep : (t :: xs.reverse).dropWhile (·.kind == .semicolon) = t :: xs.reverse :=
    List.dropWhile_cons_of_neg (by simpa using ht)
  rw [dropSemicolons, hreverse, List.dropWhile_append, hkeep, dropSemicolons]
  split
  next hempty =>
    rw [List.isEmpty_iff.1 hempty]
    simp
  next => simp

theorem map_kind_dropSemicolons {ts us : List Token} (h : ts.map (·.kind) = us.map (·.kind)) :
    (dropSemicolons ts).map (·.kind) = (dropSemicolons us).map (·.kind) := by
  have hkinds (vs : List Token) : (dropSemicolons vs).map (·.kind) =
      ((vs.map (·.kind)).reverse.dropWhile (· == .semicolon)).reverse := by
    rw [dropSemicolons, List.map_reverse, ← List.map_reverse (l := vs), List.dropWhile_map]
    rfl
  rw [hkinds, hkinds, h]

theorem dropSemicolons_eq_self {ts : List Token} (h : ∀ t ∈ ts, t.kind ≠ .semicolon) :
    dropSemicolons ts = ts := by
  have hts := dropSemicolons_append h (List.forall_mem_nil _)
  rwa [List.append_nil] at hts

theorem clauseMarks_dropSemicolons_subset (ts : List Token) :
    clauseMarks 0 0 (dropSemicolons ts) ⊆ clauseMarks 0 0 ts := by
  obtain ⟨semicolons, hts, hs⟩ := exists_eq_dropSemicolons ts
  have hby : NotBy semicolons := by
    cases semicolons with
    | nil => rfl
    | cons t semicolons =>
      rw [NotBy, List.head?_cons, Option.any_some, hs t List.mem_cons_self]
      rfl
  have happend := clauseMarks_append hby (dropSemicolons ts) 0 0
  rw [← hts] at happend
  rw [happend]
  exact List.subset_append_left _ _

def trimLast : List Segment → List Segment
  | [] => []
  | [s] => [{ s with body := dropSemicolons s.body }]
  | s :: t :: segments => s :: trimLast (t :: segments)

section
variable {seen : List ClauseKind} {segments : List Segment}

theorem Segment.Keyed.exists_keyword {s : Segment} (h : s.Keyed) :
    ∃ ts t, s.keyword = ts ++ [t] ∧ t.kind ≠ .semicolon := by
  have hword {t : Token} {w : String} (ht : t.kind.isKeyword w = true) : t.kind ≠ .semicolon := by
    intro hk
    rw [hk] at ht
    cases ht
  obtain ⟨kind, keyword, body⟩ := s
  unfold Keyed at h
  cases kind with
  | source | filter | limit =>
    rcases h with _ | ⟨ht, ⟨⟩⟩
    exact ⟨[], _, rfl, hword ht⟩
  | groupBy | orderBy =>
    rcases h with _ | ⟨_, _ | ⟨hu, ⟨⟩⟩⟩
    exact ⟨[_], _, rfl, hword hu⟩

theorem dropSemicolons_segments (h : ∀ s ∈ segments, s.Keyed) (hne : segments ≠ []) (xs : List Token) :
    dropSemicolons (xs ++ segments.flatMap Segment.tokens) =
      xs ++ (trimLast segments).flatMap Segment.tokens := by
  induction segments using trimLast.induct generalizing xs with
  | case1 => exact absurd rfl hne
  | case2 s =>
    obtain ⟨ts, t, hkeyword, ht⟩ := (h s List.mem_cons_self).exists_keyword
    have hleft : xs ++ [s].flatMap Segment.tokens = (xs ++ ts) ++ t :: s.body := by
      simp [Segment.tokens, hkeyword]
    rw [hleft, dropSemicolons_append_cons ht]
    simp [trimLast, Segment.tokens, hkeyword]
  | case3 s t segments ih =>
    have hrest := ih (fun u hu => h u (List.mem_cons_of_mem s hu)) (List.cons_ne_nil _ _) (xs ++ s.tokens)
    have hleft : xs ++ (s :: t :: segments).flatMap Segment.tokens =
        xs ++ s.tokens ++ (t :: segments).flatMap Segment.tokens := by
      rw [List.flatMap_cons, List.append_assoc]
    rw [hleft, hrest, trimLast, List.flatMap_cons, List.append_assoc]

theorem Ordered.trimLast (h : Ordered seen segments) : Ordered seen (trimLast segments) := by
  induction segments using trimLast.induct generalizing seen with
  | case1 => trivial
  | case2 s =>
    obtain ⟨hkeyed, hseen, hmarks, -, -⟩ := h
    refine ⟨hkeyed, hseen, fun m hm => ?_, fun hne => absurd rfl hne, trivial⟩
    exact hmarks m (clauseMarks_dropSemicolons_subset s.body hm)
  | case3 s t segments ih =>
    obtain ⟨hkeyed, hseen, hmarks, hdepth, hrest⟩ := h
    exact ⟨hkeyed, hseen, hmarks, fun _ => hdepth (List.cons_ne_nil _ _), ih hrest⟩

/-- The body of a clause is the one that was printed, but for semicolons if it is the last one. -/
theorem find?_trimLast (segments : List Segment) (kind : ClauseKind) :
    ((trimLast segments).find? (·.kind = kind)).map (·.body) =
        (segments.find? (·.kind = kind)).map (·.body) ∨
      ((trimLast segments).find? (·.kind = kind)).map (·.body) =
          (segments.find? (·.kind = kind)).map (dropSemicolons ·.body) ∧
        segments.getLast?.map (·.kind) = some kind := by
  induction segments using trimLast.induct with
  | case1 => exact .inl rfl
  | case2 s =>
    by_cases hs : s.kind = kind
    · refine .inr ⟨?_, ?_⟩
      · simp [TableQuery.trimLast, hs]
      · simp [hs]
    · left
      simp [TableQuery.trimLast, hs]
  | case3 s t segments ih =>
    rw [TableQuery.trimLast, List.find?_cons, List.find?_cons, List.getLast?_cons_cons]
    cases decide (s.kind = kind) with
    | true => exact .inl rfl
    | false => exact ih

end
end TableQuery
