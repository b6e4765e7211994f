import TableQuery.Proofs.CanonicalQuery
import TableQuery.Proofs.ListItems
import TableQuery.Proofs.Statements

/-! # Queries that are read from a text

What a query holds that some text is read as: its names are words of the text, the names of its columns
are single items, and its condition is in the grammar or a clause that is not.
-/
namespace TableQuery
open Text Piece

/-- Where there is a clause, the select list stands before a keyword and closes its parentheses. -/
theorem exists_eq_selectList {tokens : List Token} {kind : ClauseKind}
    (h : (clauseBody? tokens kind).isSome = true) : ∃ first t ys,
      tokens = first :: (selectList tokens ++ t :: ys) ∧ (selectList tokens).foldl depthAfter 0 = 0 := by
  cases tokens with
  | nil => cases h
  | cons first rest =>
    cases hm : clauseMarks 0 1 rest with
    | nil =>
      have hnone : clauseBody? (first :: rest) kind = none := by
        rw [clauseBody?, splitClauses, List.tail_cons, hm]
        rfl
      rw [hnone] at h
      cases h
    | cons m marks =>
      have hmem : m ∈ clauseMarks 0 1 rest := hm ▸ List.mem_cons_self
      obtain ⟨xs, t, ys, rfl, hposition, hdepth, -⟩ := mem_clauseMarks_iff.1 hmem
      have hlist : selectList (first :: (xs ++ t :: ys)) = xs := by
        have hnil : m.kind ∉ ([] : List ClauseKind) := List.not_mem_nil
        rw [selectList, splitClauses, List.tail_cons, hm, firstOfEachKind, if_neg hnil, clauseSpans]
        simp [hposition]
      rw [hlist]
      exact ⟨first, t, ys, rfl, hdepth⟩

theorem eq_nil_of_isUnclosed {s : String} {t : Token} {ts : List Token} (h : t :: ts <:+: tokenize s)
    (ht : t.kind.isUnclosed = true) : ts = [] := by
  obtain ⟨ps, ⟨before, after, -, hplace⟩, hps⟩ := exists_reads_of_isInfix h
  cases ps with
  | nil => cases hplace
  | cons p ps =>
    obtain ⟨rfl, hts⟩ := List.cons.inj hplace
    rw [hts, hps.eq_nil_of_isUnclosed ht]
    rfl

/-- An open quote can only be the last token. -/
theorem isUnclosed_eq_false_of_mem {s : String} {first t : Token} {ts us : List Token}
    (h : first :: (ts ++ t :: us) <:+: tokenize s) : ∀ u ∈ ts, u.kind.isUnclosed = false := by
  intro u hu
  obtain ⟨xs, ys, rfl⟩ := List.append_of_mem hu
  rw [Bool.eq_false_iff]
  intro hopen
  have hlater : u :: (ys ++ t :: us) <:+: tokenize s := List.IsInfix.trans ⟨first :: xs, [], by simp⟩ h
  exact List.append_ne_nil_of_right_ne_nil _ (List.cons_ne_nil _ _) (eq_nil_of_isUnclosed hlater hopen)

theorem isTrimmed_sourceText {s : String} {item : List Token} (h : item <:+: tokenize s)
    (hclosed : ∀ t ∈ item, t.kind.isUnclosed = false) : IsTrimmed (sourceText s.toList item).toList := by
  obtain ⟨ps, hstands, hps⟩ := exists_reads_of_isInfix h
  have hmap : item.map (·.kind) = ps.map (·.kind) := by
    obtain ⟨before, after, -, rfl⟩ := hstands
    rw [map_kind_place]
  rw [hstands.sourceText_eq, String.toList_ofList]
  refine isTrimmed_sourceOf hps fun p hp => ?_
  have hmem : p.kind ∈ item.map (·.kind) := hmap ▸ List.mem_map_of_mem hp
  obtain ⟨t, ht, hkind⟩ := List.mem_map.1 hmem
  exact hkind ▸ hclosed t ht

/-- The fold of an item is what a column can be called. -/
theorem isColumnName_fold_sourceText {s : String} {item : List Token} (h : item <:+: tokenize s)
    (hne : item ≠ []) (hstar : TableQuery.isLoneStar item = false)
    (hclosed : ∀ t ∈ item, t.kind.isUnclosed = false) (hitem : IsItem 0 (item.map (·.kind))) :
    IsColumnName (fold (sourceText s.toList item)) := by
  have hkinds := kinds_sourceText h
  constructor
  · intro hempty
    have hnil : (sourceText s.toList item).toList = [] := by
      refine eq_nil_of_foldAfter (?_ : foldAfter [] _ = [])
      rw [← foldChars, ← toList_fold, hempty]
      rfl
    rw [hnil, kinds, tokensFrom] at hkinds
    exact hne (List.map_eq_nil_iff.1 hkinds.symm)
  · intro hfold
    have hone : kinds "*".toList = [.star] := by decide +kernel
    rw [eq_star_of_fold hfold, hone] at hkinds
    obtain ⟨t, rfl, ht⟩ := List.map_eq_singleton_iff.1 hkinds.symm
    rw [TableQuery.isLoneStar, ht] at hstar
    cases hstar
  · rw [toList_fold]
    exact (isTrimmed_sourceText h hclosed).foldChars
  · apply isClosed_fold
    intro k hk
    rw [hkinds] at hk
    obtain ⟨t, ht, rfl⟩ := List.mem_map.1 hk
    exact hclosed t ht
  · apply isItem_fold
    rwa [hkinds]

theorem isColumnName_of_mem_columns {s : String} {list : List Token} {names : List String}
    (hlist : list <:+: tokenize s) (hclosed : ∀ t ∈ list, t.kind.isUnclosed = false)
    (hdepth : list.foldl depthAfter 0 = 0) (h : Projection.ofTokens s.toList list = .columns names) :
    names ≠ [] ∧ ∀ n ∈ names, IsColumnName n ∧ fold n = n := by
  unfold Projection.ofTokens at h
  dsimp only at h
  split at h
  next => cases h
  next =>
    split at h
    next => cases h
    next hne =>
      cases h
      refine ⟨fun hnil => hne (List.isEmpty_iff.2 hnil), fun n hn => ?_⟩
      obtain ⟨item, hmem, rfl⟩ := List.mem_map.1 hn
      obtain ⟨hmem, hstar⟩ := List.mem_filter.1 hmem
      obtain ⟨hmem, hempty⟩ := List.mem_filter.1 hmem
      obtain ⟨hsub, hitem⟩ := isItem_of_mem_splitItems hdepth item hmem
      exact ⟨isColumnName_fold_sourceText (hsub.trans hlist) (by simpa using hempty) (by simpa using hstar)
        (fun t ht => hclosed t (hsub.subset ht)) hitem, fold_fold _⟩

/-- The condition is in the grammar, but for a list without members, or a clause that is not. -/
def Predicate.IsRead : Predicate → Prop
  | equals column value => IsName column ∧ value ≠ "" ∧ IsFreeOfJoin value
  | contains column text => IsName column ∧ text ≠ "" ∧ IsFreeOfJoin text
  | oneOf column values => IsName column ∧ ∀ v ∈ values, IsFreeOfJoin v
  | unsupported clause =>
    ofKinds? (kinds clause.toList) = none ∧ ∀ k ∈ kinds clause.toList, k.mentionsJoin = false

structure IsReadKind (k : TokenKind) : Prop where
  mentionsJoin_eq_false : k.mentionsJoin = false
  isIdentifier : ∀ w, k = .word w → IsIdentifier w

theorem IsReadKind.isName {w : String} (h : IsReadKind (.word w)) : IsName w :=
  ⟨h.isIdentifier w rfl, h.mentionsJoin_eq_false⟩

theorem Predicate.Grammar.isRead {kinds : List TokenKind} {p : Predicate} (h : Grammar IsFlatList kinds p)
    (hk : ∀ k ∈ kinds, IsReadKind k) : p.IsRead := by
  have hcolumn {c : String} {rest : List TokenKind} (hrest : kinds = .word c :: rest) : IsName c :=
    (hk _ (hrest ▸ List.mem_cons_self)).isName
  cases h with
  | equals column value h =>
    exact ⟨hcolumn rfl, h, (hk (.quoted value) (by simp)).mentionsJoin_eq_false⟩
  | contains column text hkeyword h =>
    have hjoin := (hk (.quoted ("%" ++ text ++ "%")) (by simp)).mentionsJoin_eq_false
    exact ⟨hcolumn rfl, h, isFreeOfJoin_between_percents.1 hjoin⟩
  | @oneOf column keyword members hkeyword h =>
    refine ⟨hcolumn rfl, fun v hv => ?_⟩
    obtain ⟨k, hmem, hquoted⟩ := List.mem_filterMap.1 hv
    have hkv : k = .quoted v := by
      cases k <;> cases hquoted
      rfl
    have hjoin := (hk k (by simp [hmem])).mentionsJoin_eq_false
    rwa [hkv] at hjoin

theorem Predicate.isRead_ofTokens {s : String} {body : List Token} (h : body <:+: tokenize s)
    (hk : ∀ t ∈ body, IsReadKind t.kind) : (ofTokens s.toList body).IsRead := by
  have hkinds : ∀ k ∈ body.map (·.kind), IsReadKind k := by
    intro k hmem
    obtain ⟨t, ht, rfl⟩ := List.mem_map.1 hmem
    exact hk t ht
  rw [ofTokens]
  cases hp : ofKinds? (body.map (·.kind)) with
  | some p => exact (ofKinds?_eq_some_iff.1 hp).isRead hkinds
  | none =>
    rw [Option.getD_none, IsRead, kinds_sourceText h]
    exact ⟨hp, fun k hmem => (hkinds k hmem).mentionsJoin_eq_false⟩

namespace Query

structure IsRead (q : Query) : Prop where
  columns : ∀ names, q.projection = .columns names →
    names ≠ [] ∧ ∀ n ∈ names, IsColumnName n ∧ fold n = n
  table : ∀ n ∈ q.table, IsName n
  predicate : ∀ p ∈ q.predicate, p.IsRead
  orderBy : ∀ o ∈ q.orderBy, IsName o.column

variable {s : String} {q : Query}

theorem isReadKind_of_mem_tokenize (h : parse s = .ok q) : ∀ t ∈ tokenize s, IsReadKind t.kind :=
  fun t ht => ⟨(parse_eq_ok_iff.1 h).2.1 t ht, fun _ hw => isIdentifier_of_mem ht hw⟩

theorem isName_of_head {tokens : List Token} {n : String} (hk : ∀ t ∈ tokens, IsReadKind t.kind)
    (h : tokens.head?.bind (·.kind.word?) = some n) : IsName n := by
  obtain ⟨t, ht, hword⟩ := Option.bind_eq_some_iff.1 h
  have hkind : t.kind = .word n := by
    cases hk : t.kind <;> rw [hk] at hword <;> cases hword
    rfl
  exact (hkind ▸ hk t (List.mem_of_mem_head? ht) : IsReadKind (.word n)).isName

theorem isRead_of_parse (h : parse s = .ok q) : q.IsRead := by
  have hkinds := isReadKind_of_mem_tokenize h
  have hbody {kind : ClauseKind} {body : List Token} (hb : clauseBody? (tokens s) kind = some body) :
      ∀ t ∈ body, IsReadKind t.kind :=
    fun t ht => hkinds t ((isInfix_of_clauseBody? hb).subset ht)
  obtain rfl := parse_eq_ok h
  constructor
  · intro names hnames
    change (if (clauseBody? (tokens s) .source).isSome then _ else _) = _ at hnames
    split at hnames
    next hsome =>
      obtain ⟨first, t, ys, htokens, hdepth⟩ := exists_eq_selectList hsome
      have hsub : first :: (selectList (tokens s) ++ t :: ys) <:+: tokenize s := by
        rw [← htokens]
        exact isInfix_dropSemicolons _
      have hlist : selectList (tokens s) <:+: first :: (selectList (tokens s) ++ t :: ys) :=
        ⟨[first], t :: ys, List.append_assoc ..⟩
      exact isColumnName_of_mem_columns (hlist.trans hsub) (isUnclosed_eq_false_of_mem hsub) hdepth hnames
    next => cases hnames
  · intro n hn
    obtain ⟨body, hb, hn⟩ := Option.bind_eq_some_iff.1 (hn : (clauseBody? (tokens s) .source).bind _ = some n)
    exact isName_of_head (hbody hb) hn
  · intro p hp
    obtain ⟨body, hb, rfl⟩ := Option.map_eq_some_iff.1
      (hp : (clauseBody? (tokens s) .filter).map (.ofTokens s.toList) = some p)
    exact Predicate.isRead_ofTokens (isInfix_of_clauseBody? hb) (hbody hb)
  · intro o ho
    obtain ⟨body, hb, ho⟩ := Option.bind_eq_some_iff.1
      (ho : (clauseBody? (tokens s) .orderBy).bind OrderBy.ofTokens? = some o)
    obtain ⟨n, hn, rfl⟩ := Option.map_eq_some_iff.1 ho
    exact isName_of_head (hbody hb) hn

end Query
end TableQuery
