import TableQuery.Proofs.Omission
import TableQuery.Proofs.PrintedClauses
import TableQuery.Proofs.ReadQuery

/-! # Queries that are printed and read again

The text of a query means what the query means, if no part of it is taken for something else in print. Then
the query that is read from the text gives the same dataset as the query that was printed.
-/
namespace TableQuery
open Text Piece

theorem quiet_joined {item : List Piece} {later : List (List Piece)}
    (h : ∀ i ∈ item :: later, ∀ position, Quiet (place position i)) (position : Nat) :
    Quiet (place position (joined item later)) := by
  have hspaced {i : List Piece} (hi : ∀ position, Quiet (place position i)) (position : Nat) :
      Quiet (place position (spaced i)) :=
    (hi position).congr (by rw [map_kind_place, map_kind_place, map_kind_spaced])
  induction later generalizing item position with
  | nil =>
    rw [joined, List.flatMap_nil, List.append_nil]
    exact hspaced (h item List.mem_cons_self) position
  | cons i later ih =>
    obtain ⟨hitem, hlater⟩ := List.forall_mem_cons.1 h
    rw [joined_cons, place_append]
    exact (hspaced hitem position).append (quiet_cons_of_not_word (ih hlater) rfl rfl) rfl

structure Projection.IsPrintedAs (p : Projection) (ps : List Piece) : Prop where
  reads : Reads [] ps
  textOf_eq : textOf ps = ' ' :: p.chars
  isUnclosed_eq_false : ∀ r ∈ ps, r.kind.isUnclosed = false
  mentionsJoin_eq_false : ∀ r ∈ ps, r.kind.mentionsJoin = false
  quiet : ∀ position, Quiet (place position ps)
  names?_projection : (projection ps).names? = p.names?
  ne_semicolon : p.names? = none → ∀ r ∈ ps, r.kind ≠ .semicolon

theorem Projection.isPrintedAs_star {p : Projection} (h : p.names? = none) :
    p.IsPrintedAs [mark [' '] '*'] := by
  have hchars : p.chars = ['*'] := by
    cases p with
    | columns names => cases h
    | _ => rfl
  constructor
  · have hstar : Readable [mark [' '] '*'] :=
      readable_space_mark (by decide) (by decide) fun _ => TokenKind.noConfusion
    exact (hstar.spelled [] nofun).reads
  · rw [hchars]
    rfl
  · exact List.forall_mem_singleton.2 rfl
  · exact List.forall_mem_singleton.2 rfl
  · exact quiet_star
  · rw [h]
    rfl
  · exact fun _ => List.forall_mem_singleton.2 TokenKind.noConfusion

/-- Nothing in the name is a keyword by itself. -/
structure IsQuietName (n : String) : Prop where
  clauseMarks_eq_nil : clauseMarks 0 0 (tokenize n) = []
  mentionsJoin_eq_false : ∀ t ∈ tokenize n, t.kind.mentionsJoin = false

/-- The pieces of one column in a select list. -/
theorem exists_quiet_column {n : String} (h : IsColumnName n) (hq : IsQuietName n) : ∃ ps, IsColumn ps ∧
    textOf ps = n.toList ∧ sourceOf ps = n.toList ∧ (∀ position, Quiet (place position ps)) ∧
      ∀ r ∈ ps, r.kind.mentionsJoin = false := by
  obtain ⟨ps, hps, htext, hsource⟩ := exists_isColumn h
  have hkinds : (tokenize n).map (·.kind) = ps.map (·.kind) := by
    rw [← kinds_textOf hps.reads, htext]
    rfl
  refine ⟨ps, hps, htext, hsource, fun position => ?_, fun r hr => ?_⟩
  · have hquiet : Quiet (tokenize n) := by
      refine ⟨hq.clauseMarks_eq_nil, IsItem.foldl_depthAfter ?_⟩
      rw [hkinds]
      exact hps.isItem
    refine hquiet.congr ?_
    rw [map_kind_place, hkinds]
  · have hmem : r.kind ∈ (tokenize n).map (·.kind) := hkinds ▸ List.mem_map_of_mem hr
    obtain ⟨t, ht, hkind⟩ := List.mem_map.1 hmem
    exact hkind ▸ hq.mentionsJoin_eq_false t ht

theorem exists_quiet_columns {names : List String} (h : ∀ n ∈ names, IsColumnName n ∧ IsQuietName n) :
    ∃ list : List (List Piece), list.map textOf = names.map String.toList ∧
      list.map sourceOf = names.map String.toList ∧
        ∀ i ∈ list, IsColumn i ∧ (∀ position, Quiet (place position i)) ∧
          ∀ r ∈ i, r.kind.mentionsJoin = false := by
  induction names with
  | nil => exact ⟨[], rfl, rfl, List.forall_mem_nil _⟩
  | cons n names ih =>
    obtain ⟨hn, hnames⟩ := List.forall_mem_cons.1 h
    obtain ⟨ps, hps, htext, hsource, hquiet, hjoin⟩ := exists_quiet_column hn.1 hn.2
    obtain ⟨list, htexts, hsources, hlist⟩ := ih hnames
    refine ⟨ps :: list, ?_, ?_, List.forall_mem_cons.2 ⟨⟨hps, hquiet, hjoin⟩, hlist⟩⟩
    · rw [List.map_cons, htext, htexts, List.map_cons]
    · rw [List.map_cons, hsource, hsources, List.map_cons]

/-- What holds of the kinds in every item and of a comma holds of all kinds in the list. -/
theorem forall_mem_joined {item : List Piece} {later : List (List Piece)} (p : TokenKind → Prop)
    (hcomma : p .comma) (h : ∀ i ∈ item :: later, ∀ t ∈ i, p t.kind) : ∀ r ∈ joined item later, p r.kind := by
  have hspaced : ∀ i ∈ item :: later, ∀ r ∈ spaced i, p r.kind := by
    intro i hi r hr
    have hkind : r.kind ∈ (spaced i).map (·.kind) := List.mem_map_of_mem hr
    rw [map_kind_spaced] at hkind
    obtain ⟨t, ht, hk⟩ := List.mem_map.1 hkind
    exact hk ▸ h i hi t ht
  intro r hr
  rcases List.mem_append.1 hr with hr | hr
  · exact hspaced item List.mem_cons_self r hr
  · obtain ⟨i, hi, hr⟩ := List.mem_flatMap.1 hr
    rcases List.mem_cons.1 hr with rfl | hr
    · exact hcomma
    · exact hspaced i (List.mem_cons_of_mem item hi) r hr

theorem Projection.exists_isPrintedAs_columns {names : List String} (hne : names ≠ [])
    (h : ∀ n ∈ names, IsColumnName n ∧ IsQuietName n) (hfold : ∀ n ∈ names, fold n = n) :
    ∃ ps, (columns names).IsPrintedAs ps := by
  obtain ⟨list, htext, hsource, hitems⟩ := exists_quiet_columns h
  cases list with
  | nil => exact absurd (List.map_eq_nil_iff.1 htext.symm) hne
  | cons item later =>
    have hcolumns : ∀ i ∈ item :: later, IsColumn i := fun i hi => (hitems i hi).1
    refine ⟨joined item later, reads_joined hcolumns, ?_,
      forall_mem_joined (·.isUnclosed = false) rfl fun i hi => (hcolumns i hi).isUnclosed_eq_false,
      forall_mem_joined (·.mentionsJoin = false) rfl fun i hi => (hitems i hi).2.2,
      quiet_joined fun i hi => (hitems i hi).2.1, ?_, nofun⟩
    · rw [textOf_joined fun i hi => (hcolumns i hi).ne_nil, htext]
      rfl
    · rw [projection_joined hcolumns]
      have hnames : (item :: later).map (fun i => fold (String.ofList (sourceOf i))) =
          ((item :: later).map sourceOf).map fun cs => fold (String.ofList cs) := by
        rw [List.map_map]
        rfl
      have hself : (names.map String.toList).map (fun cs => fold (String.ofList cs)) = names := by
        rw [List.map_map]
        refine (List.map_congr_left fun n hn => ?_).trans (List.map_id _)
        exact (congrArg fold String.ofList_toList).trans (hfold n hn)
      rw [hnames, hsource, hself]

namespace Query

def bodies (q : Query) : List (ClauseKind × List Char) :=
  (q.table.map fun n => (ClauseKind.source, n.toList)).toList ++
    (q.predicate.map fun p => (ClauseKind.filter, p.chars)).toList ++
    (q.orderBy.map fun o => (ClauseKind.orderBy, o.chars)).toList ++
    (q.limit.map fun n => (ClauseKind.limit, Nat.toDigits 10 n.toNat)).toList

def body? (q : Query) : ClauseKind → Option (List Char)
  | .source => q.table.map String.toList
  | .filter => q.predicate.map Predicate.chars
  | .groupBy => none
  | .orderBy => q.orderBy.map OrderBy.chars
  | .limit => q.limit.map fun n => Nat.toDigits 10 n.toNat

theorem find?_bodies (q : Query) (kind : ClauseKind) :
    (q.bodies.find? (·.1 = kind)).map (·.2) = q.body? kind := by
  obtain ⟨projection, table, predicate, orderBy, limit, groupBy⟩ := q
  cases table <;> cases predicate <;> cases orderBy <;> cases limit <;> cases kind <;> rfl

theorem nodup_map_fst_bodies (q : Query) : (q.bodies.map (·.1)).Nodup := by
  obtain ⟨projection, table, predicate, orderBy, limit, groupBy⟩ := q
  cases table <;> cases predicate <;> cases orderBy <;> cases limit <;> simp [bodies]

/-- The condition is printed last only if neither an order nor a limit is printed. -/
theorem eq_none_of_getLast?_bodies {q : Query} (h : q.bodies.getLast?.map (·.1) = some .filter) :
    q.orderBy = none ∧ q.limit = none := by
  obtain ⟨projection, table, predicate, orderBy, limit, groupBy⟩ := q
  cases table <;> cases predicate <;> cases orderBy <;> cases limit <;> simp [bodies] at h ⊢

theorem mem_bodies_iff {q : Query} {kind : ClauseKind} {cs : List Char} :
    (kind, cs) ∈ q.bodies ↔ q.body? kind = some cs := by
  obtain ⟨projection, table, predicate, orderBy, limit, groupBy⟩ := q
  cases table <;> cases predicate <;> cases orderBy <;> cases limit <;> cases kind <;>
    simp [bodies, body?, eq_comm]

theorem chars_eq (q : Query) :
    q.chars = "SELECT".toList ++ (' ' :: q.projection.chars ++ clauseText q.bodies) := by
  obtain ⟨projection, table, predicate, orderBy, limit, groupBy⟩ := q
  unfold chars
  cases table <;> cases predicate <;> cases orderBy <;> cases limit <;>
    simp [bodies, clauseText, clauseChars, ClauseKind.chars, ClauseKind.words]

def selectToken : Token := ⟨.word "SELECT", 0, 6⟩

section
variable {q : Query} {ps : List Piece}

theorem tokenize_display (hps : q.projection.IsPrintedAs ps) (hsep : IsSeparable [] q.bodies) : ∃ position,
    tokenize q.display = selectToken ::
      (place 6 ps ++ (segmentsFrom position q.bodies).flatMap Segment.tokens) := by
  have hselect : tokensFrom 0 "SELECT".toList = [selectToken] := by decide +kernel
  have hclosed : IsClosed "SELECT".toList := by decide +kernel
  have hlist (position : Nat) : tokensFrom position (' ' :: q.projection.chars) = place position ps := by
    have ht := tokensFrom_eq_place hps.reads (List.forall_mem_nil _) position
    rwa [List.append_nil, hps.textOf_eq] at ht
  have hlistClosed : IsClosed (' ' :: q.projection.chars) := by
    intro k hk
    rw [kinds, hlist, map_kind_place] at hk
    obtain ⟨r, hr, rfl⟩ := List.mem_map.1 hk
    exact hps.isUnclosed_eq_false r hr
  have hspace : Stops (' ' :: q.projection.chars ++ clauseText q.bodies) := by
    intro c hc
    cases hc
    decide
  refine ⟨0 + byteLength "SELECT".toList + byteLength (' ' :: q.projection.chars), ?_⟩
  rw [tokenize, display, String.toList_ofList, q.chars_eq, tokensFrom_append hclosed hspace, hselect,
    tokensFrom_append hlistClosed (stops_clauseText _), hlist, hsep.tokensFrom_clauseText]
  rfl

theorem tokens_display (hps : q.projection.IsPrintedAs ps) (hsep : IsSeparable [] q.bodies)
    (hbodies : q.projection.names?.isSome = true → q.bodies ≠ []) : ∃ position,
    tokens q.display = selectToken ::
      (place 6 ps ++ (trimLast (segmentsFrom position q.bodies)).flatMap Segment.tokens) := by
  obtain ⟨position, ht⟩ := tokenize_display hps hsep
  have hordered := hsep.ordered q.nodup_map_fst_bodies (fun _ _ => List.not_mem_nil) position
  refine ⟨position, ?_⟩
  rw [tokens, ht]
  by_cases hnil : q.bodies = []
  · have hnames : q.projection.names? = none := by
      rw [← Option.not_isSome_iff_eq_none]
      exact fun hsome => hbodies hsome hnil
    have hkeep : ∀ t ∈ selectToken :: place 6 ps, t.kind ≠ .semicolon := by
      refine List.forall_mem_cons.2 ⟨TokenKind.noConfusion, fun t ht => ?_⟩
      obtain ⟨r, hr, hkind⟩ := exists_kind_of_mem_place ht
      exact hkind ▸ hps.ne_semicolon hnames r hr
    rw [hnil, segmentsFrom, trimLast, List.flatMap_nil, List.append_nil, dropSemicolons_eq_self hkeep]
  · have hne : segmentsFrom position q.bodies ≠ [] := by
      obtain ⟨b, bodies, hb⟩ := List.exists_cons_of_ne_nil hnil
      rw [hb]
      exact List.cons_ne_nil _ _
    exact dropSemicolons_segments hordered.keyed hne (selectToken :: place 6 ps)

theorem stands_selectList_display (hps : q.projection.IsPrintedAs ps) (hsep : IsSeparable [] q.bodies)
    (hbodies : q.projection.names?.isSome = true → q.bodies ≠ []) :
    Stands q.display.toList (selectList (tokens q.display)) ps := by
  obtain ⟨position, ht⟩ := tokens_display hps hsep hbodies
  have hordered := hsep.ordered q.nodup_map_fst_bodies (fun _ _ => List.not_mem_nil) position
  refine ⟨"SELECT".toList, clauseText q.bodies, ?_, ?_⟩
  · rw [display, String.toList_ofList, q.chars_eq, hps.textOf_eq]
  · rw [ht, selectList_segments (hps.quiet 6) hordered.trimLast]
    rfl

/-- The clauses of the text are those that were printed. The last one lost the semicolons at its end. -/
theorem clauseBody?_display (hps : q.projection.IsPrintedAs ps) (hsep : IsSeparable [] q.bodies)
    (hbodies : q.projection.names?.isSome = true → q.bodies ≠ []) (kind : ClauseKind) : ∃ position,
    clauseBody? (tokens q.display) kind =
        (q.body? kind).map (fun cs => tokensFrom position (' ' :: cs)) ∨
      clauseBody? (tokens q.display) kind =
          (q.body? kind).map (fun cs => dropSemicolons (tokensFrom position (' ' :: cs))) ∧
        q.bodies.getLast?.map (·.1) = some kind := by
  obtain ⟨position, ht⟩ := tokens_display hps hsep hbodies
  have hordered := hsep.ordered q.nodup_map_fst_bodies (fun _ _ => List.not_mem_nil) position
  obtain ⟨p, hp⟩ := find?_segmentsFrom position q.bodies kind
  have hfound : ((segmentsFrom position q.bodies).find? (·.kind = kind)).map (·.body) =
      (q.body? kind).map fun cs => tokensFrom p (' ' :: cs) := by
    rw [hp, ← find?_bodies, Option.map_map]
    rfl
  have hlast : (segmentsFrom position q.bodies).getLast?.map (·.kind) = q.bodies.getLast?.map (·.1) := by
    rw [← List.getLast?_map, map_kind_segmentsFrom, List.getLast?_map]
  refine ⟨p, ?_⟩
  rw [ht, clauseBody?_segments (hps.quiet 6) hordered.trimLast]
  rcases find?_trimLast (segmentsFrom position q.bodies) kind with hbody | ⟨hbody, hkind⟩
  · exact .inl (hbody.trans hfound)
  · refine .inr ⟨?_, hlast ▸ hkind⟩
    rw [hbody, ← Function.comp_def, ← Option.map_map, hfound, Option.map_map]
    rfl

theorem exists_clauseBody?_display (hps : q.projection.IsPrintedAs ps) (hsep : IsSeparable [] q.bodies)
    (hbodies : q.projection.names?.isSome = true → q.bodies ≠ []) {kind : ClauseKind} {cs : List Char}
    (hcs : q.body? kind = some cs) (hs : ∀ k ∈ kinds cs, k ≠ .semicolon) :
    ∃ body, clauseBody? (tokens q.display) kind = some body ∧ body.map (·.kind) = kinds cs := by
  obtain ⟨position, hbody⟩ := clauseBody?_display hps hsep hbodies kind
  have hmap := map_kind_body position cs
  have hkeep : dropSemicolons (tokensFrom position (' ' :: cs)) = tokensFrom position (' ' :: cs) := by
    refine dropSemicolons_eq_self fun t ht => hs _ ?_
    rw [kinds, ← hmap]
    exact List.mem_map_of_mem ht
  refine ⟨tokensFrom position (' ' :: cs), ?_, hmap⟩
  rw [hcs] at hbody
  rcases hbody with hbody | ⟨hbody, -⟩
  · exact hbody
  · rwa [Option.map_some, hkeep] at hbody

end
end Query

theorem kinds_of_readable {ps : List Piece} {cs : List Char} (h : Readable ps) (ht : textOf ps = ' ' :: cs) :
    kinds cs = ps.map (·.kind) := by
  rw [← kinds_space_cons, ← ht, kinds_textOf (h.spelled [] nofun).reads]

theorem Predicate.IsLegible.kinds_chars {p : Predicate} (h : p.IsLegible) :
    kinds p.chars = p.pieces.map (·.kind) :=
  kinds_of_readable h.readable (textOf_pieces h.isSupported)

theorem OrderBy.kinds_chars {o : OrderBy} (h : IsName o.column) : kinds o.chars = o.pieces.map (·.kind) :=
  kinds_of_readable (readable_pieces h) o.textOf_pieces

theorem kinds_toDigits (n : Nat) : kinds (Nat.toDigits 10 n) = [(number n).kind] :=
  kinds_of_readable (readable_limit n) (List.append_nil _)

namespace Query

/-- Nothing in the query is lost or taken for something else when it is printed. This is sufficient for it to be
read as it was, but not necessary: a condition that is not supported may hold the keyword of a clause that is never
printed, such as a second `GROUP BY`, and lose what follows it without any other rows being asked for. -/
structure IsFaithful (q : Query) : Prop where
  /-- A list of columns is not read without a table. -/
  table_isSome : q.projection.names?.isSome = true → q.table.isSome = true
  /-- Folding a name can split a keyword off a word. -/
  columns : ∀ names ∈ q.projection.names?, ∀ n ∈ names, IsQuietName n
  /-- A list without members is not in the grammar. -/
  members : ∀ column, q.predicate ≠ some (.oneOf column [])
  separable : IsSeparable [] q.bodies
  /-- A condition at the end of the text is read without its semicolons. -/
  unsupported : ∀ clause, q.predicate = some (.unsupported clause) → q.orderBy = none → q.limit = none →
    Predicate.ofKinds? ((tokens clause).map (·.kind)) = none

section
variable {q : Query} {ps : List Piece}

theorem IsFaithful.isLegible (h : q.IsFaithful) {p : Predicate} (hp : q.predicate = some p)
    (hread : p.IsRead) (hs : p.isSupported = true) : p.IsLegible := by
  cases p with
  | unsupported clause => cases hs
  | oneOf column values =>
    refine ⟨hread.1, ?_, hread.2⟩
    rintro rfl
    exact h.members column hp
  | _ => exact hread

theorem IsFaithful.bodies_ne_nil (h : q.IsFaithful) : q.projection.names?.isSome = true → q.bodies ≠ [] := by
  intro hnames hnil
  obtain ⟨n, hn⟩ := Option.isSome_iff_exists.1 (h.table_isSome hnames)
  have hmem : (ClauseKind.source, n.toList) ∈ q.bodies := by
    rw [mem_bodies_iff, body?, hn]
    rfl
  rw [hnil] at hmem
  cases hmem

theorem IsRead.exists_isPrintedAs (hread : q.IsRead) (h : q.IsFaithful) :
    ∃ ps, q.projection.IsPrintedAs ps := by
  cases hp : q.projection with
  | columns names =>
    obtain ⟨hne, hnames⟩ := hread.columns names hp
    exact Projection.exists_isPrintedAs_columns hne
      (fun n hn => ⟨(hnames n hn).1, h.columns names (by rw [hp]; rfl) n hn⟩) fun n hn => (hnames n hn).2
  | all => exact ⟨_, Projection.isPrintedAs_star rfl⟩
  | unresolved => exact ⟨_, Projection.isPrintedAs_star rfl⟩

/-- Clauses in the grammar neither mention a join nor end a statement. -/
theorem IsRead.isInert_body? (hread : q.IsRead) (h : q.IsFaithful) {kind : ClauseKind} {cs : List Char}
    (hcs : q.body? kind = some cs)
    (hs : kind = .filter → ∀ p ∈ q.predicate, p.isSupported = true) :
    ∀ k ∈ kinds cs, k.mentionsJoin = false ∧ k ≠ .semicolon := by
  have hpieces {ps : List Piece} (hps : ∀ r ∈ ps, IsInert r) :
      ∀ k ∈ ps.map (·.kind), k.mentionsJoin = false ∧ k ≠ .semicolon := by
    intro k hk
    obtain ⟨r, hr, rfl⟩ := List.mem_map.1 hk
    exact hps r hr
  cases kind with
  | source =>
    obtain ⟨n, hn, rfl⟩ := Option.map_eq_some_iff.1 hcs
    have hname := hread.table n hn
    have hkinds : kinds n.toList = [word n].map (·.kind) := hname.isIdentifier
    rw [hkinds]
    exact hpieces (List.forall_mem_singleton.2 hname.isInert)
  | filter =>
    obtain ⟨p, hp, rfl⟩ := Option.map_eq_some_iff.1 hcs
    have hlegible := h.isLegible hp (hread.predicate p hp) (hs rfl p hp)
    rw [hlegible.kinds_chars]
    exact hpieces hlegible.isInert_pieces
  | groupBy => cases hcs
  | orderBy =>
    obtain ⟨o, ho, rfl⟩ := Option.map_eq_some_iff.1 hcs
    rw [OrderBy.kinds_chars (hread.orderBy o ho)]
    exact hpieces (OrderBy.isInert_pieces (hread.orderBy o ho))
  | limit =>
    obtain ⟨n, hn, rfl⟩ := Option.map_eq_some_iff.1 hcs
    rw [kinds_toDigits]
    exact List.forall_mem_singleton.2 ⟨rfl, TokenKind.noConfusion⟩

theorem IsRead.mentionsJoin_body? (hread : q.IsRead) (h : q.IsFaithful) {kind : ClauseKind} {cs : List Char}
    (hcs : q.body? kind = some cs) : ∀ k ∈ kinds cs, k.mentionsJoin = false := by
  by_cases hs : kind = .filter → ∀ p ∈ q.predicate, p.isSupported = true
  · exact fun k hk => (hread.isInert_body? h hcs hs k hk).1
  · push Not at hs
    obtain ⟨rfl, p, hp, hs⟩ := hs
    rw [body?, Option.mem_def.1 hp] at hcs
    cases hcs
    cases p with
    | unsupported clause => exact (hread.predicate _ hp).2
    | _ => exact absurd rfl hs

theorem IsRead.mentionsJoin_of_mem_tokenize_display (hread : q.IsRead) (h : q.IsFaithful) :
    ∀ t ∈ tokenize q.display, t.kind.mentionsJoin = false := by
  obtain ⟨ps, hps⟩ := hread.exists_isPrintedAs h
  obtain ⟨position, ht⟩ := tokenize_display hps h.separable
  rw [ht]
  refine List.forall_mem_cons.2 ⟨by decide, List.forall_mem_append.2 ⟨fun t ht => ?_, fun t ht => ?_⟩⟩
  · obtain ⟨r, hr, hkind⟩ := exists_kind_of_mem_place ht
    exact hkind ▸ hps.mentionsJoin_eq_false r hr
  · rcases kind_of_mem_segmentsFrom ht with ⟨kind, w, hw, hkind⟩ | ⟨⟨kind, cs⟩, hb, hkind⟩
    · have hwords : ∀ v ∈ kind.words, (TokenKind.word v).mentionsJoin = false := by
        cases kind <;> decide
      exact hkind ▸ hwords w hw
    · exact hread.mentionsJoin_body? h (mem_bodies_iff.1 hb) _ hkind

structure AsksAs (q q' : Query) : Prop where
  names?_eq : q.projection.names? = q'.projection.names?
  predicate_eq : q.predicate.filter Predicate.isSupported = q'.predicate.filter Predicate.isSupported
  orderBy_eq : q.orderBy = q'.orderBy
  limit_eq : q.limit = q'.limit

theorem AsksAs.resultRows_eq {q' : Query} (h : q.AsksAs q') (d : Dataset) :
    q.resultRows d = q'.resultRows d := by
  have hkept : q.keptRows d = q'.keptRows d := by
    rw [← q.keptRows_effective, ← q'.keptRows_effective]
    unfold keptRows effective
    rw [h.predicate_eq]
  unfold resultRows sortedRows
  rw [hkept, h.orderBy_eq, h.limit_eq]

/-- Queries that ask for the same give the same dataset or fail alike. -/
theorem AsksAs.execute_eq {q' : Query} (h : q.AsksAs q') (d : Dataset) :
    (q.execute .ignore d).map (·.dataset) = (q'.execute .ignore d).map (·.dataset) := by
  unfold execute
  rw [h.names?_eq, checkPredicate_ignore, checkPredicate_ignore, h.resultRows_eq]
  split
  next => rfl
  next =>
    cases selectColumns q'.projection.names? d.columns with
    | error names => rfl
    | ok columns =>
      simp only [Except.mapError, bind, Except.bind]
      cases d.derive columns (q'.resultRows d) <;> rfl

theorem clauseBody?_display_of_none (h : q.IsFaithful) (hps : q.projection.IsPrintedAs ps)
    {kind : ClauseKind} (hcs : q.body? kind = none) : clauseBody? (tokens q.display) kind = none := by
  obtain ⟨position, hbody⟩ := clauseBody?_display hps h.separable h.bodies_ne_nil kind
  rw [hcs] at hbody
  exact hbody.elim id And.left

namespace IsRead

/-- A clause in the grammar is found again as it was printed. -/
theorem exists_clauseBody?_display (hread : q.IsRead) (h : q.IsFaithful) (hps : q.projection.IsPrintedAs ps)
    {kind : ClauseKind} {cs : List Char} (hcs : q.body? kind = some cs)
    (hs : kind = .filter → ∀ p ∈ q.predicate, p.isSupported = true) :
    ∃ body, clauseBody? (tokens q.display) kind = some body ∧ body.map (·.kind) = kinds cs :=
  Query.exists_clauseBody?_display hps h.separable h.bodies_ne_nil hcs fun k hk =>
    (hread.isInert_body? h hcs hs k hk).2

theorem names?_ofTokens (hread : q.IsRead) (h : q.IsFaithful) (hps : q.projection.IsPrintedAs ps) :
    (ofTokens q.display.toList (tokens q.display)).projection.names? = q.projection.names? := by
  change (if (clauseBody? (tokens q.display) .source).isSome = true then
    Projection.ofTokens q.display.toList (selectList (tokens q.display)) else .unresolved).names? = _
  cases hn : q.table with
  | none =>
    have hnames : q.projection.names? = none := by
      rw [← Option.not_isSome_iff_eq_none]
      intro hsome
      have htable := h.table_isSome hsome
      rw [hn] at htable
      cases htable
    rw [clauseBody?_display_of_none h hps (by rw [body?, hn, Option.map_none]), hnames]
    rfl
  | some n =>
    have hcs : q.body? .source = some n.toList := by rw [body?, hn, Option.map_some]
    obtain ⟨body, hclause, -⟩ := hread.exists_clauseBody?_display h hps hcs nofun
    have hstands := stands_selectList_display hps h.separable h.bodies_ne_nil
    rw [hclause, Option.isSome_some, if_pos rfl, hstands.projection_eq, hps.names?_projection]

/-- A condition that is not in the grammar is not in it either when it is read again. -/
theorem filter_isSupported_ofTokens_unsupported (hread : q.IsRead) (h : q.IsFaithful)
    (hps : q.projection.IsPrintedAs ps) {clause : String} (hp : q.predicate = some (.unsupported clause)) :
    ((clauseBody? (tokens q.display) .filter).map (Predicate.ofTokens q.display.toList)).filter
      Predicate.isSupported = none := by
  have hnone {body : List Token} (hb : Predicate.ofKinds? (body.map (·.kind)) = none) :
      ((some body).map (Predicate.ofTokens q.display.toList)).filter Predicate.isSupported = none := by
    rw [Option.map_some, Predicate.ofTokens, hb]
    rfl
  have hcs : q.body? .filter = some clause.toList := by
    rw [body?, hp]
    rfl
  obtain ⟨position, hbody⟩ := clauseBody?_display hps h.separable h.bodies_ne_nil .filter
  rw [hcs, Option.map_some, Option.map_some] at hbody
  rcases hbody with hbody | ⟨hbody, hlast⟩
  · rw [hbody]
    refine hnone ?_
    rw [map_kind_body]
    exact (hread.predicate _ hp).1
  · obtain ⟨horder, hlimit⟩ := eq_none_of_getLast?_bodies hlast
    rw [hbody]
    refine hnone ?_
    rw [map_kind_dropSemicolons (map_kind_body position _)]
    exact h.unsupported clause hp horder hlimit

theorem predicate_ofTokens (hread : q.IsRead) (h : q.IsFaithful) (hps : q.projection.IsPrintedAs ps) :
    (ofTokens q.display.toList (tokens q.display)).predicate.filter Predicate.isSupported =
      q.predicate.filter Predicate.isSupported := by
  change ((clauseBody? (tokens q.display) .filter).map (Predicate.ofTokens q.display.toList)).filter
    Predicate.isSupported = _
  cases hp : q.predicate with
  | none =>
    rw [clauseBody?_display_of_none h hps (by rw [body?, hp, Option.map_none])]
    rfl
  | some p =>
    cases hs : p.isSupported with
    | true =>
      have hlegible := h.isLegible hp (hread.predicate p hp) hs
      have hcs : q.body? .filter = some p.chars := by rw [body?, hp, Option.map_some]
      obtain ⟨body, hclause, hkinds⟩ := hread.exists_clauseBody?_display h hps hcs
        fun _ p' hp' => by rwa [Option.mem_unique hp' hp]
      have hgrammar : Predicate.Grammar Predicate.IsFlatList (body.map (·.kind)) p := by
        rw [hkinds, hlegible.kinds_chars]
        exact hlegible.grammar.mono fun _ => Predicate.IsLiteralList.isFlatList
      rw [hclause, Option.map_some, Predicate.ofTokens_of_grammar hgrammar]
    | false =>
      cases p with
      | unsupported clause =>
        rw [hread.filter_isSupported_ofTokens_unsupported h hps hp]
        rfl
      | _ => cases hs

theorem orderBy_ofTokens (hread : q.IsRead) (h : q.IsFaithful) (hps : q.projection.IsPrintedAs ps) :
    (ofTokens q.display.toList (tokens q.display)).orderBy = q.orderBy := by
  change (clauseBody? (tokens q.display) .orderBy).bind OrderBy.ofTokens? = q.orderBy
  cases ho : q.orderBy with
  | none => rw [clauseBody?_display_of_none h hps (by rw [body?, ho, Option.map_none]), Option.bind_none]
  | some o =>
    have hcs : q.body? .orderBy = some o.chars := by rw [body?, ho, Option.map_some]
    obtain ⟨body, hclause, hkinds⟩ := hread.exists_clauseBody?_display h hps hcs nofun
    rw [OrderBy.kinds_chars (hread.orderBy o ho), ← map_kind_place 0] at hkinds
    rw [hclause, Option.bind_some, OrderBy.ofTokens?_congr hkinds, o.ofTokens?_place]

theorem limit_ofTokens (hread : q.IsRead) (h : q.IsFaithful) (hps : q.projection.IsPrintedAs ps) :
    (ofTokens q.display.toList (tokens q.display)).limit = q.limit := by
  change (clauseBody? (tokens q.display) .limit).bind limitOfTokens? = q.limit
  cases hn : q.limit with
  | none => rw [clauseBody?_display_of_none h hps (by rw [body?, hn, Option.map_none]), Option.bind_none]
  | some n =>
    have hcs : q.body? .limit = some (Nat.toDigits 10 n.toNat) := by rw [body?, hn, Option.map_some]
    obtain ⟨body, hclause, hkinds⟩ := hread.exists_clauseBody?_display h hps hcs nofun
    have hplace : [(number n.toNat).kind] = (place 0 [number n.toNat]).map (·.kind) := by
      rw [map_kind_place, List.map_singleton]
    rw [kinds_toDigits, hplace] at hkinds
    rw [hclause, Option.bind_some, limitOfTokens?_congr hkinds, limitOfTokens?_place]

/-- The text is read as a query that asks for what the printed one asks for. -/
theorem asksAs_ofTokens (hread : q.IsRead) (h : q.IsFaithful) :
    (ofTokens q.display.toList (tokens q.display)).AsksAs q := by
  obtain ⟨ps, hps⟩ := hread.exists_isPrintedAs h
  exact ⟨hread.names?_ofTokens h hps, hread.predicate_ofTokens h hps, hread.orderBy_ofTokens h hps,
    hread.limit_ofTokens h hps⟩

end IsRead

/-- The text of a query that was read from some text is a query again, which gives the same columns and the
same rows in the same order, or the same error. -/
theorem execute_display_eq {s : String} {q : Query} (hq : parse s = .ok q) (h : q.IsFaithful) :
    ∃ q', parse q.display = .ok q' ∧ ∀ d : Dataset,
      (q'.execute .ignore d).map (·.dataset) = (q.execute .ignore d).map (·.dataset) := by
  have hread := isRead_of_parse hq
  obtain ⟨ps, hps⟩ := hread.exists_isPrintedAs h
  obtain ⟨position, ht⟩ := tokenize_display hps h.separable
  have hselect : (tokenize q.display).head?.any (·.kind.isKeyword "SELECT") = true := by
    rw [ht, List.head?_cons, Option.any_some]
    decide
  have hjoin : (tokenize q.display).any (·.kind.mentionsJoin) = false := by
    rw [List.any_eq_false]
    intro t ht
    rw [hread.mentionsJoin_of_mem_tokenize_display h t ht]
    exact Bool.false_ne_true
  refine ⟨ofTokens q.display.toList (tokens q.display), ?_, (hread.asksAs_ofTokens h).execute_eq⟩
  unfold parse
  dsimp only
  rw [hselect, hjoin]
  rfl

end

/-- A list without members keeps no row, and its text keeps them all. -/
theorem not_execute_display_eq : ¬∀ (s : String) (q : Query), parse s = .ok q →
    ∃ q', parse q.display = .ok q' ∧ ∀ d : Dataset, d.WellFormed →
      (q'.execute .ignore d).map (·.dataset) = (q.execute .ignore d).map (·.dataset) := by
  intro h
  have hparse : parse "SELECT * FROM t WHERE a IN (1)" =
      .ok ⟨.all, some "t", some (.oneOf "a" []), none, none, false⟩ := by decide +kernel
  have hdisplay : parse (display ⟨.all, some "t", some (.oneOf "a" []), none, none, false⟩) =
      .ok ⟨.all, some "t", some (.unsupported "a IN ()"), none, none, false⟩ := by decide +kernel
  have hd : Dataset.WellFormed ⟨[⟨"a", .integer⟩], [0], ["a"], [[.integer 1]]⟩ := by
    constructor <;> decide
  obtain ⟨q', hq', hsame⟩ := h _ _ hparse
  rw [hdisplay] at hq'
  cases hq'
  exact absurd (hsame _ hd) (by decide +kernel)

/-- Parentheses in a name and a quote that is not closed are read again as they are. -/
theorem execute_display_eq_open_quote :
    let s := "SELECT (A, b), * FROM t GROUP BY a WHERE x > 'it;"
    let q : Query := ⟨.columns ["(a, b)"], some "t", some (.unsupported "x > 'it;"), none, none, true⟩
    parse s = .ok q ∧ q.IsFaithful ∧ ∃ q', parse q.display = .ok q' ∧ ∀ d : Dataset,
      (q'.execute .ignore d).map (·.dataset) = (q.execute .ignore d).map (·.dataset) := by
  intro s q
  have hparse : parse s = .ok q := by decide +kernel
  have hq : q.IsFaithful := by
    constructor
    · exact fun _ => rfl
    · intro names hnames
      cases hnames
      exact List.forall_mem_singleton.2 ⟨by decide +kernel, by decide +kernel⟩
    · intro column hcolumn
      cases hcolumn
    · decide +kernel
    · intro clause hclause _ _
      cases hclause
      decide +kernel
  exact ⟨hparse, hq, execute_display_eq hparse hq⟩

end Query
end TableQuery
