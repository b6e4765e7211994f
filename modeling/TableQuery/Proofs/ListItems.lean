import TableQuery.Proofs.Delimiters
import TableQuery.Proofs.PrintedQuery

/-! # Items of a select list

A select list is split into items. A list of items that is printed again, each in its folded form, is
split into as many items with the same folds.
-/
namespace TableQuery
open Text Piece

def IsItem (depth : Nat) : List TokenKind → Prop
  | [] => depth = 0
  | k :: ks => ¬(k = .comma ∧ depth = 0) ∧ IsItem (depthAfter depth ⟨k, 0, 0⟩) ks

/-- Only commas and parentheses matter. -/
theorem isItem_filterMap_delimiter? {depth : Nat} {ks : List TokenKind} :
    IsItem depth (ks.filterMap TokenKind.delimiter?) ↔ IsItem depth ks := by
  induction ks generalizing depth with
  | nil => rfl
  | cons k ks ih =>
    cases k with
    | comma | openParen | closeParen => exact and_congr_right fun _ => ih
    | unclosed s =>
      have hne (s : String) : ¬(TokenKind.unclosed s = .comma ∧ depth = 0) := nofun
      exact and_congr (iff_of_true (hne "") (hne s)) ih
    | _ =>
      rw [List.filterMap_cons_none rfl, ih]
      simp [IsItem, depthAfter]

theorem isClosed_filterMap_delimiter? {ks : List TokenKind} :
    (∀ k ∈ ks.filterMap TokenKind.delimiter?, k.isUnclosed = false) ↔ ∀ k ∈ ks, k.isUnclosed = false := by
  induction ks with
  | nil => rfl
  | cons k ks ih =>
    cases k with
    | comma | openParen | closeParen =>
      rw [List.filterMap_cons_some (f := TokenKind.delimiter?) rfl, List.forall_mem_cons,
        List.forall_mem_cons, ih]
    | unclosed s =>
      have hopen (s : String) : (TokenKind.unclosed s).isUnclosed ≠ false := Bool.noConfusion
      rw [List.forall_mem_cons]
      exact iff_of_false (fun h => hopen "" (h _ List.mem_cons_self)) fun h => hopen s h.1
    | _ =>
      rw [List.filterMap_cons_none rfl, List.forall_mem_cons, ih]
      exact (and_iff_right rfl).symm

theorem isItem_fold {s : String} (h : IsItem 0 (kinds s.toList)) : IsItem 0 (kinds (fold s).toList) := by
  rwa [← isItem_filterMap_delimiter?, filterMap_delimiter?_kinds_fold, isItem_filterMap_delimiter?]

theorem isClosed_fold {s : String} (h : IsClosed s.toList) : IsClosed (fold s).toList := by
  unfold IsClosed at h ⊢
  rwa [← isClosed_filterMap_delimiter?, filterMap_delimiter?_kinds_fold, isClosed_filterMap_delimiter?]

theorem IsItem.foldl_depthAfter {depth : Nat} {ts : List Token} (h : IsItem depth (ts.map (·.kind))) :
    ts.foldl depthAfter depth = 0 := by
  induction ts generalizing depth with
  | nil => exact h
  | cons t ts ih => exact ih h.2

/-- A list is split into items, if it closes its parentheses. -/
theorem splitItems_isItem {ts : List Token} {depth : Nat} (h : ts.foldl depthAfter depth = 0) :
    ∃ item later, splitItems depth ts = item :: later ∧ item <+: ts ∧ IsItem depth (item.map (·.kind)) ∧
      ∀ i ∈ later, i <:+: ts ∧ IsItem 0 (i.map (·.kind)) := by
  induction ts generalizing depth with
  | nil => exact ⟨[], [], rfl, List.nil_prefix, h, List.forall_mem_nil _⟩
  | cons t ts ih =>
    by_cases hc : t.kind = .comma ∧ depth = 0
    · obtain ⟨hcomma, rfl⟩ := hc
      have hdepth : depthAfter 0 t = 0 := by rw [depthAfter, hcomma]
      rw [List.foldl_cons, hdepth] at h
      obtain ⟨item, later, hsplit, hpre, hitem, hlater⟩ := ih h
      refine ⟨[], item :: later, by rw [splitItems, if_pos ⟨hcomma, rfl⟩, hsplit], List.nil_prefix, rfl, ?_⟩
      exact List.forall_mem_cons.2 ⟨⟨List.infix_cons hpre.isInfix, hitem⟩,
        fun i hi => ⟨List.infix_cons (hlater i hi).1, (hlater i hi).2⟩⟩
    · obtain ⟨item, later, hsplit, hpre, hitem, hlater⟩ := ih h
      refine ⟨t :: item, later, by rw [splitItems, if_neg hc, hsplit], List.cons_prefix_cons.2 ⟨rfl, hpre⟩,
        ⟨hc, hitem⟩, fun i hi => ⟨List.infix_cons (hlater i hi).1, (hlater i hi).2⟩⟩

theorem isItem_of_mem_splitItems {ts : List Token} (h : ts.foldl depthAfter 0 = 0) :
    ∀ item ∈ splitItems 0 ts, item <:+: ts ∧ IsItem 0 (item.map (·.kind)) := by
  obtain ⟨item, later, hsplit, hpre, hitem, hlater⟩ := splitItems_isItem h
  rw [hsplit]
  exact List.forall_mem_cons.2 ⟨⟨hpre.isInfix, hitem⟩, hlater⟩

namespace Piece
variable {ps : List Piece} {depth : Nat}

theorem items_of_isItem (h : IsItem depth (ps.map (·.kind))) : items depth ps = [ps] := by
  induction ps generalizing depth with
  | nil => rfl
  | cons p ps ih => rw [items, if_neg h.1, ih h.2]

theorem items_append_comma (h : IsItem depth (ps.map (·.kind))) (qs : List Piece) :
    items depth (ps ++ comma :: qs) = ps :: items 0 qs := by
  induction ps generalizing depth with
  | nil =>
    obtain rfl : depth = 0 := h
    rfl
  | cons p ps ih => rw [List.cons_append, items, if_neg h.1, ih h.2]

end Piece

def IsTrimmed (cs : List Char) : Prop :=
  (∀ c ∈ cs.head?, isSpace c = false) ∧ ∀ c ∈ cs.getLast?, isSpace c = false

section
variable {cs : List Char}

theorem Lexeme.not_isSpace_of_mem_getLast? {c : Char} (hc : isSpace c = false)
    (hu : (first c cs).kind.isUnclosed = false) : ∀ x ∈ (first c cs).source.getLast?, isSpace x = false := by
  have hword (lexeme : Lexeme) (h : ∀ x ∈ lexeme.source, isWordPart x = true) :
      ∀ x ∈ lexeme.source.getLast?, isSpace x = false :=
    fun x hx => not_isSpace_of_isWordPart (h x (List.mem_of_mem_getLast? hx))
  unfold first at hu ⊢
  split
  next hq =>
    rw [if_pos hq] at hu
    unfold ofQuote at hu ⊢
    split
    next content rest hs =>
      have hlast : (Quoted.encode c content).getLast? = some c := List.getLast?_concat
      intro x hx
      rw [hlast] at hx
      cases hx
      exact hc
    next content hs =>
      rw [hs] at hu
      cases hu
  next =>
    split
    next => exact hword _ isWordPart_of_mem_ofNumber
    next =>
      split
      next => exact hword _ (forall_mem_takeWhile _ _)
      next =>
        intro x hx
        cases hx
        exact hc

theorem Piece.Reads.not_isSpace_of_mem_getLast? {p : Piece} {ps : List Piece} (h : Reads [] (p :: ps))
    (hu : ∀ q ∈ p :: ps, q.kind.isUnclosed = false) :
    ∀ c ∈ (p.source ++ textOf ps).getLast?, isSpace c = false := by
  induction ps generalizing p with
  | nil =>
    obtain ⟨-, ⟨c, cs, -, hc, hf⟩, -⟩ := h
    have hkind : (Lexeme.first c (cs ++ (textOf [] ++ []))).kind.isUnclosed = false := by
      rw [hf]
      exact hu p List.mem_cons_self
    have hlast := Lexeme.not_isSpace_of_mem_getLast? hc hkind
    rw [hf] at hlast
    rwa [textOf_nil, List.append_nil]
  | cons q ps ih =>
    have hq := ih h.2.2 fun r hr => hu r (List.mem_cons_of_mem p hr)
    obtain ⟨-, -, -, ⟨d, ds, hd, -⟩, -⟩ := h
    have hne : q.source ++ textOf ps ≠ [] := by simp [hd]
    rwa [textOf_cons, ← List.append_assoc, List.getLast?_append_of_ne_nil _ hne]

theorem isTrimmed_sourceOf {ps : List Piece} (h : Reads [] ps) (hu : ∀ p ∈ ps, p.kind.isUnclosed = false) :
    IsTrimmed (sourceOf ps) := by
  cases ps with
  | nil => exact ⟨nofun, nofun⟩
  | cons p ps =>
    refine ⟨?_, h.not_isSpace_of_mem_getLast? hu⟩
    obtain ⟨-, ⟨c, cs, hs, hc, -⟩, -⟩ := h
    rw [sourceOf, hs]
    intro x hx
    cases hx
    exact hc

/-- The text is put together from the pieces that are read from it. -/
theorem IsTrimmed.exists_reads (h : IsTrimmed cs) :
    ∃ ps, Reads [] ps ∧ textOf ps = cs ∧ sourceOf ps = cs := by
  obtain ⟨ps, after, rfl, hafter, hps⟩ := Piece.exists_reads cs
  have hnil : after = [] := by
    by_contra hne
    have hmem : after.getLast hne ∈ (textOf ps ++ after).getLast? := by
      rw [List.getLast?_append_of_ne_nil _ hne]
      exact List.getLast?_eq_some_getLast hne
    have hlast := h.2 _ hmem
    rw [hafter _ (List.getLast_mem hne)] at hlast
    cases hlast
  subst hnil
  rw [List.append_nil] at h ⊢
  refine ⟨ps, hps, rfl, ?_⟩
  cases ps with
  | nil => rfl
  | cons p ps =>
    have hgap : p.gap = [] := by
      cases hg : p.gap with
      | nil => rfl
      | cons c gap =>
        have hc := hps.1 c (hg ▸ List.mem_cons_self)
        rw [h.1 c (by rw [textOf_cons, hg]; rfl)] at hc
        cases hc
    rw [sourceOf, textOf_cons, hgap, List.nil_append]

theorem exists_foldAfter_append (before xs ys : List Char) :
    ∃ zs before', foldAfter before (xs ++ ys) = zs ++ foldAfter before' ys := by
  induction xs generalizing before with
  | nil => exact ⟨[], before, rfl⟩
  | cons x xs ih =>
    obtain ⟨ds, -, hfold⟩ := exists_foldAfter_cons before x (xs ++ ys)
    obtain ⟨zs, before', hrest⟩ := ih (x :: before)
    refine ⟨ds ++ zs, before', ?_⟩
    rw [List.cons_append, hfold, hrest, List.append_assoc]

theorem exists_foldAfter_cons_of_not_isSpace {c : Char} (hc : isSpace c = false) (before cs : List Char) :
    ∃ d ds, (∀ x ∈ d :: ds, isSpace x = false) ∧
      foldAfter before (c :: cs) = d :: ds ++ foldAfter (c :: before) cs := by
  refine exists_foldAfter_cons_of_forall (fun x hx => Bool.eq_false_iff.2 fun hs => ?_) hc before cs
  rw [isSeparator_of_isSpace hs] at hx
  cases hx

theorem IsTrimmed.foldChars (h : IsTrimmed cs) : IsTrimmed (foldChars cs) := by
  constructor
  · cases cs with
    | nil => exact nofun
    | cons c cs =>
      obtain ⟨d, ds, hds, hfold⟩ := exists_foldAfter_cons_of_not_isSpace (h.1 c rfl) [] cs
      rw [Text.foldChars, hfold]
      intro x hx
      cases hx
      exact hds d List.mem_cons_self
  · rcases List.eq_nil_or_concat' cs with rfl | ⟨xs, c, rfl⟩
    · exact nofun
    · obtain ⟨zs, before', hfold⟩ := exists_foldAfter_append [] xs [c]
      obtain ⟨d, ds, hds, hlast⟩ :=
        exists_foldAfter_cons_of_not_isSpace (h.2 c List.getLast?_concat) before' []
      rw [Text.foldChars, hfold, hlast, foldAfter, List.append_nil,
        List.getLast?_append_of_ne_nil _ (List.cons_ne_nil _ _)]
      exact fun x hx => hds x (List.mem_of_mem_getLast? hx)

theorem eq_nil_of_foldAfter {before : List Char} (h : foldAfter before cs = []) : cs = [] := by
  cases cs with
  | nil => rfl
  | cons c cs =>
    obtain ⟨ds, ⟨-, hds⟩, hfold⟩ := exists_foldAfter_cons before c cs
    obtain ⟨hnil, -⟩ := List.append_eq_nil_iff.1 (hfold.symm.trans h)
    rcases hds with hc | ⟨-, hne, -⟩
    · rw [hnil] at hc
      cases hc
    · exact absurd hnil hne

/-- Only the star is folded to the star. -/
theorem eq_star_of_fold {s : String} (h : fold s = "*") : s = "*" := by
  have hs : foldAfter [] s.toList = ['*'] := by
    rw [← foldChars, ← toList_fold, h]
    rfl
  rw [← String.toList_inj]
  cases hcs : s.toList with
  | nil =>
    rw [hcs] at hs
    cases hs
  | cons c cs =>
    rw [hcs] at hs
    cases hsep : isSeparator c with
    | true =>
      rw [foldAfter_cons_of_isSeparator hsep] at hs
      obtain ⟨rfl, hrest⟩ := List.cons.inj hs
      rw [eq_nil_of_foldAfter hrest]
      rfl
    | false =>
      obtain ⟨d, ds, hds, hfold⟩ := exists_foldAfter_cons_of_not_isSeparator hsep [] cs
      rw [hfold, List.cons_append] at hs
      obtain ⟨rfl, -⟩ := List.cons.inj hs
      exact absurd (hds '*' List.mem_cons_self) (by decide)

end

theorem TokenKind.eq_star_of_ofMark {c : Char} (h : ofMark c = .star) : c = '*' := by
  by_contra hne
  unfold ofMark at h
  rw [if_neg hne] at h
  repeat' split at h
  all_goals cases h

theorem Lexeme.source_eq_of_kind_eq_star {c : Char} {cs : List Char} (h : (first c cs).kind = .star) :
    (first c cs).source = ['*'] := by
  have hw := isWrittenAs_first c cs
  rw [h] at hw
  obtain ⟨d, hd, hsource⟩ := hw
  rw [hsource, TokenKind.eq_star_of_ofMark hd.symm]

/-- What a column of a select list is called, as it can be printed. -/
structure IsColumnName (n : String) : Prop where
  ne_empty : n ≠ ""
  ne_star : n ≠ "*"
  isTrimmed : IsTrimmed n.toList
  isClosed : IsClosed n.toList
  isItem : IsItem 0 (kinds n.toList)

namespace Piece

structure IsColumn (ps : List Piece) : Prop where
  ne_nil : ps ≠ []
  reads : Reads [] ps
  isUnclosed_eq_false : ∀ p ∈ ps, p.kind.isUnclosed = false
  isItem : IsItem 0 (ps.map (·.kind))
  isLoneStar_eq_false : isLoneStar ps = false

theorem exists_isColumn {n : String} (h : IsColumnName n) :
    ∃ ps, IsColumn ps ∧ textOf ps = n.toList ∧ sourceOf ps = n.toList := by
  obtain ⟨ps, hps, htext, hsource⟩ := h.isTrimmed.exists_reads
  have hkinds : kinds n.toList = ps.map (·.kind) := by rw [← htext, kinds_textOf hps]
  refine ⟨ps, ⟨?_, hps, ?_, ?_, ?_⟩, htext, hsource⟩
  · rintro rfl
    exact h.ne_empty (String.toList_eq_nil_iff.1 htext.symm)
  · intro p hp
    exact h.isClosed _ (hkinds ▸ List.mem_map_of_mem hp)
  · rw [← hkinds]
    exact h.isItem
  · rw [Bool.eq_false_iff]
    intro hstar
    rcases ps with _ | ⟨p, _ | ⟨q, ps⟩⟩
    · cases hstar
    · obtain ⟨-, ⟨c, cs, -, -, hf⟩, -⟩ := hps
      have hkind : (Lexeme.first c (cs ++ (textOf [] ++ []))).kind = .star := by
        rw [hf]
        exact beq_iff_eq.1 hstar
      have hp := Lexeme.source_eq_of_kind_eq_star hkind
      rw [hf] at hp
      rw [sourceOf, textOf_nil, List.append_nil] at hsource
      exact h.ne_star (String.toList_inj.1 (hsource.symm.trans hp))
    · cases hstar

def spaced : List Piece → List Piece
  | [] => []
  | p :: ps => { p with gap := ' ' :: p.gap } :: ps

def joined (item : List Piece) (later : List (List Piece)) : List Piece :=
  spaced item ++ later.flatMap fun i => comma :: spaced i

theorem joined_cons (item i : List Piece) (later : List (List Piece)) :
    joined item (i :: later) = spaced item ++ comma :: joined i later :=
  rfl

section
variable {ps item : List Piece} {later : List (List Piece)} {ys : List Char}

@[simp] theorem map_kind_spaced (ps : List Piece) : (spaced ps).map (·.kind) = ps.map (·.kind) := by
  cases ps <;> rfl

@[simp] theorem sourceOf_spaced (ps : List Piece) : sourceOf (spaced ps) = sourceOf ps := by
  cases ps <;> rfl

theorem textOf_spaced (h : ps ≠ []) : textOf (spaced ps) = ' ' :: textOf ps := by
  obtain ⟨p, ps, rfl⟩ := List.exists_cons_of_ne_nil h
  rfl

theorem Reads.spaced (h : Reads ys ps) : Reads ys (spaced ps) := by
  cases ps with
  | nil => trivial
  | cons p ps => exact ⟨List.forall_mem_cons.2 ⟨by decide, h.1⟩, h.2⟩

theorem Reads.comma_cons (h : Reads ys ps) : Reads ys (comma :: ps) :=
  ⟨List.forall_mem_nil _, ⟨',', [], rfl, by decide, Lexeme.first_of_isStop (by decide) _⟩, h⟩

theorem reads_joined (h : ∀ i ∈ item :: later, IsColumn i) : Reads [] (joined item later) := by
  induction later generalizing item with
  | nil =>
    rw [joined, List.flatMap_nil, List.append_nil]
    exact (h item List.mem_cons_self).reads.spaced
  | cons i later ih =>
    obtain ⟨hitem, hlater⟩ := List.forall_mem_cons.1 h
    have hstops : Stops (textOf (comma :: joined i later) ++ []) := by
      intro c hc
      cases hc
      decide
    rw [joined_cons, reads_append]
    exact ⟨(hitem.reads.extend hitem.isUnclosed_eq_false hstops).spaced, (ih hlater).comma_cons⟩

theorem textOf_joined (h : ∀ i ∈ item :: later, i ≠ []) :
    textOf (joined item later) = ' ' :: commaSeparated ((item :: later).map textOf) := by
  induction later generalizing item with
  | nil =>
    rw [joined, List.flatMap_nil, List.append_nil, textOf_spaced (h item List.mem_cons_self)]
    simp [commaSeparated]
  | cons i later ih =>
    obtain ⟨hitem, hlater⟩ := List.forall_mem_cons.1 h
    have hcomma (i j : List Char) (later : List (List Char)) : commaSeparated (i :: j :: later) =
        i ++ ", ".toList ++ commaSeparated (j :: later) := List.intercalate_cons_cons
    rw [joined_cons, textOf_append, textOf_spaced hitem, textOf_cons, ih hlater]
    simp only [List.map_cons]
    rw [hcomma, List.append_assoc]
    rfl

theorem items_joined (h : ∀ i ∈ item :: later, IsItem 0 (i.map (·.kind))) :
    items 0 (joined item later) = (item :: later).map spaced := by
  induction later generalizing item with
  | nil =>
    rw [joined, List.flatMap_nil, List.append_nil, items_of_isItem]
    · rfl
    · rw [map_kind_spaced]
      exact h item List.mem_cons_self
  | cons i later ih =>
    obtain ⟨hitem, hlater⟩ := List.forall_mem_cons.1 h
    rw [joined_cons, items_append_comma, ih hlater]
    · rfl
    · rwa [map_kind_spaced]

/-- A printed list asks for the folds of its items. -/
theorem projection_joined (h : ∀ i ∈ item :: later, IsColumn i) : projection (joined item later) =
    .columns ((item :: later).map fun i => fold (String.ofList (sourceOf i))) := by
  have hempty : ((item :: later).map spaced).filter (!·.isEmpty) = (item :: later).map spaced := by
    apply List.filter_eq_self.2
    intro j hj
    obtain ⟨i, hi, rfl⟩ := List.mem_map.1 hj
    obtain ⟨p, ps, rfl⟩ := List.exists_cons_of_ne_nil (h i hi).ne_nil
    rfl
  have hstar : ((item :: later).map spaced).filter (!isLoneStar ·) = (item :: later).map spaced := by
    apply List.filter_eq_self.2
    intro j hj
    obtain ⟨i, hi, rfl⟩ := List.mem_map.1 hj
    have hlone : isLoneStar (spaced i) = isLoneStar i := by
      match i with
      | [] | [_] | _ :: _ :: _ => rfl
    rw [hlone, (h i hi).isLoneStar_eq_false]
    rfl
  have hnames : ((item :: later).map spaced).map (fun i => fold (String.ofList (sourceOf i))) =
      (item :: later).map fun i => fold (String.ofList (sourceOf i)) := by
    rw [List.map_map]
    exact List.map_congr_left fun i _ => congrArg (fun cs => fold (String.ofList cs)) (sourceOf_spaced i)
  rw [projection, items_joined fun i hi => (h i hi).isItem, hempty, hstar, hnames]
  rfl

end
end Piece
end TableQuery
