import TableQuery.Proofs.PrintedClauses
import TableQuery.Proofs.ReadQuery

/-! # The texts that are read

Which texts are rejected, and for which of the two faults, is told by their tokens alone. Every other text
is read, as a query whose names can be asked for and whose literals mention no join.
-/
namespace TableQuery
open Text

def TokenKind.MentionsJoin : TokenKind → Prop
  | word w => w.toList.map Char.toLower = "join".toList
  | quoted v | unclosed v => HoldsWord "join".toList v.toList
  | _ => False

theorem TokenKind.mentionsJoin_iff {k : TokenKind} : k.mentionsJoin = true ↔ k.MentionsJoin := by
  cases k with
  | word w =>
    have hlower : "JOIN".toList.map Char.toLower = "join".toList := by decide
    change (w.toList.map Char.toLower == "JOIN".toList.map Char.toLower) = true ↔ _
    rw [hlower, beq_iff_eq, MentionsJoin]
  | quoted v | unclosed v => exact holdsWord_iff
  | _ => exact iff_of_false Bool.false_ne_true id

theorem isFreeOfJoin_iff {v : String} : IsFreeOfJoin v ↔ ¬HoldsWord "join".toList v.toList := by
  rw [IsFreeOfJoin, ← holdsWord_iff, Bool.not_eq_true]

def HasClause (depth : Nat) (kind : ClauseKind) (ts : List Token) : Prop :=
  ∃ xs t ys, ts = xs ++ t :: ys ∧ xs.foldl depthAfter depth = 0 ∧ ClauseKind.ofTokens? t ys = some kind

theorem mem_map_kind_clauseMarks_iff {ts : List Token} {depth position : Nat} {kind : ClauseKind} :
    kind ∈ (clauseMarks depth position ts).map (·.kind) ↔ HasClause depth kind ts := by
  constructor
  · intro h
    obtain ⟨m, hm, rfl⟩ := List.mem_map.1 h
    obtain ⟨xs, t, ys, hts, -, hdepth, hkind⟩ := mem_clauseMarks_iff.1 hm
    exact ⟨xs, t, ys, hts, hdepth, hkind⟩
  · rintro ⟨xs, t, ys, hts, hdepth, hkind⟩
    exact List.mem_map.2
      ⟨⟨kind, position + xs.length⟩, mem_clauseMarks_iff.2 ⟨xs, t, ys, hts, rfl, hdepth, hkind⟩, rfl⟩

/-- A statement has the clauses whose keywords stand outside parentheses. -/
theorem isSome_clauseBody?_iff {tokens : List Token} {kind : ClauseKind} :
    (clauseBody? tokens kind).isSome = true ↔ HasClause 0 kind tokens.tail := by
  have hspans : (clauseBody? tokens kind).isSome = true ↔ kind ∈ (splitClauses tokens).map (·.kind) := by
    rw [clauseBody?, Option.isSome_map, List.find?_isSome, List.mem_map]
    simp only [decide_eq_true_eq]
  rw [hspans, splitClauses, map_kind_clauseSpans, mem_map_kind_firstOfEachKind_iff,
    mem_map_kind_clauseMarks_iff, and_iff_left List.not_mem_nil]

theorem ClauseKind.ofTokens?_eq_source_iff {t : Token} {rest : List Token} :
    ofTokens? t rest = some source ↔ t.kind.isKeyword "FROM" = true := by
  constructor
  · intro h
    by_contra hfrom
    rw [ofTokens?, if_neg hfrom] at h
    repeat' split at h
    all_goals cases h
  · exact fun h => if_pos h

def HasSource (ts : List Token) : Prop :=
  ∃ xs t ys, ts = xs ++ t :: ys ∧ xs.foldl depthAfter 0 = 0 ∧ t.kind.isKeyword "FROM" = true

/-- The shape of every condition that is read: no text to compare with is empty, and none mentions a join. -/
def Predicate.HasShape : Predicate → Prop
  | equals _ value => value ≠ "" ∧ ¬HoldsWord "join".toList value.toList
  | contains _ text => text ≠ "" ∧ ¬HoldsWord "join".toList text.toList
  | oneOf _ values => ∀ v ∈ values, ¬HoldsWord "join".toList v.toList
  | unsupported clause => ∀ t ∈ tokenize clause, ¬t.kind.MentionsJoin

theorem Predicate.IsRead.hasShape {p : Predicate} (h : p.IsRead) : p.HasShape := by
  cases p with
  | equals column value => exact ⟨h.2.1, isFreeOfJoin_iff.1 h.2.2⟩
  | contains column text => exact ⟨h.2.1, isFreeOfJoin_iff.1 h.2.2⟩
  | oneOf column values => exact fun v hv => isFreeOfJoin_iff.1 (h.2 v hv)
  | unsupported clause =>
    intro t ht hjoin
    have hfree := h.2 t.kind (List.mem_map_of_mem ht)
    rw [TokenKind.mentionsJoin_iff.2 hjoin] at hfree
    cases hfree

namespace Query

/-- The shape of every query that is read: its columns have names, trimmed and folded, and none is a star. -/
structure HasShape (q : Query) : Prop where
  columns : ∀ names, q.projection = .columns names →
    names ≠ [] ∧ ∀ n ∈ names, n ≠ "" ∧ n ≠ "*" ∧ IsTrimmed n.toList ∧ fold n = n
  predicate : ∀ p ∈ q.predicate, p.HasShape

variable {s : String} {q : Query}

theorem IsRead.hasShape (h : q.IsRead) : q.HasShape where
  columns names hnames := by
    obtain ⟨hne, hall⟩ := h.columns names hnames
    refine ⟨hne, fun n hn => ?_⟩
    obtain ⟨hname, hfold⟩ := hall n hn
    exact ⟨hname.ne_empty, hname.ne_star, hname.isTrimmed, hfold⟩
  predicate p hp := (h.predicate p hp).hasShape

def StartsWithSelect (s : String) : Prop := ∃ t ∈ (tokenize s).head?, t.kind.isKeyword "SELECT" = true

def MentionsJoin (s : String) : Prop := ∃ t ∈ tokenize s, t.kind.MentionsJoin

theorem any_isKeyword_iff :
    (tokenize s).head?.any (·.kind.isKeyword "SELECT") = true ↔ StartsWithSelect s := Option.any_eq_true ..

theorem any_mentionsJoin_iff : (tokenize s).any (·.kind.mentionsJoin) = true ↔ MentionsJoin s := by
  rw [List.any_eq_true]
  simp only [TokenKind.mentionsJoin_iff, MentionsJoin]

theorem parse_of_not_startsWithSelect (h : ¬StartsWithSelect s) : parse s = .error .notSelect := by
  rw [← any_isKeyword_iff, Bool.not_eq_true] at h
  simp only [parse, h, Bool.not_false, if_true]

theorem parse_of_mentionsJoin (hselect : StartsWithSelect s) (hjoin : MentionsJoin s) :
    parse s = .error .joinUnsupported := by
  simp only [parse, any_isKeyword_iff.2 hselect, any_mentionsJoin_iff.2 hjoin, Bool.not_true,
    Bool.false_eq_true, if_false, if_true]

theorem parse_of_not_mentionsJoin (hselect : StartsWithSelect s) (hjoin : ¬MentionsJoin s) :
    parse s = .ok (ofTokens s.toList (tokens s)) := by
  refine parse_eq_ok_iff.2 ⟨any_isKeyword_iff.2 hselect, fun t ht => ?_, rfl⟩
  rw [← Bool.not_eq_true, TokenKind.mentionsJoin_iff]
  exact fun h => hjoin ⟨t, ht, h⟩

theorem hasSource_of_isSome (hselect : StartsWithSelect s)
    (h : (clauseBody? (tokens s) .source).isSome = true) : HasSource (tokenize s) := by
  obtain ⟨first, hfirst, hselect⟩ := hselect
  obtain ⟨xs, t, ys, htail, hdepth, hkind⟩ := isSome_clauseBody?_iff.1 h
  obtain ⟨semicolons, htokens, -⟩ := exists_eq_dropSemicolons (tokenize s)
  change tokenize s = tokens s ++ semicolons at htokens
  cases hcut : tokens s with
  | nil =>
    rw [hcut] at htail
    cases xs <;> cases htail
  | cons u us =>
    rw [hcut, List.cons_append] at htokens
    rw [hcut, List.tail_cons] at htail
    subst htail
    rw [htokens] at hfirst
    obtain rfl := Option.some.inj hfirst
    refine ⟨u :: xs, t, ys ++ semicolons, by simp [htokens], ?_, ClauseKind.ofTokens?_eq_source_iff.1 hkind⟩
    rwa [List.foldl_cons, depthAfter_of_isKeyword hselect]

/-- A text is rejected for its first word, else for a join in it, and for nothing else. -/
theorem parse_outcomes (s : String) :
    (parse s = .error .notSelect ↔ ¬StartsWithSelect s) ∧
    (parse s = .error .joinUnsupported ↔ StartsWithSelect s ∧ MentionsJoin s) ∧
    (StartsWithSelect s → ¬MentionsJoin s → ∃ q, parse s = .ok q ∧
      (¬HasSource (tokenize s) → q.projection = .unresolved) ∧ q.HasShape) := by
  by_cases hselect : StartsWithSelect s
  · by_cases hjoin : MentionsJoin s
    · rw [parse_of_mentionsJoin hselect hjoin]
      exact ⟨iff_of_false nofun (not_not_intro hselect), iff_of_true rfl ⟨hselect, hjoin⟩,
        fun _ hfree => absurd hjoin hfree⟩
    · have hq := parse_of_not_mentionsJoin hselect hjoin
      have hshape := (isRead_of_parse hq).hasShape
      rw [hq]
      refine ⟨iff_of_false nofun (not_not_intro hselect), iff_of_false nofun fun h => hjoin h.2,
        fun _ _ => ⟨_, rfl, fun hsource => ?_, hshape⟩⟩
      exact if_neg fun hsome => hsource (hasSource_of_isSome hselect hsome)
  · rw [parse_of_not_startsWithSelect hselect]
    exact ⟨iff_of_true rfl hselect, iff_of_false nofun fun h => hselect h.1, fun h => absurd h hselect⟩

end Query
end TableQuery
