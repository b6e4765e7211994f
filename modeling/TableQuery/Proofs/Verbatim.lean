import TableQuery.Proofs.Pieces
import TableQuery.Proofs.SourceText

/-! # Parts of a text

The text of a run of tokens is read as these tokens when it stands alone. A text whose quotes are closed
is read alike when another one that begins with a stop is put behind it.
-/
namespace TableQuery
open Text

namespace Lexeme
variable {cs mid ys : List Char} {kind : TokenKind}

theorem ofWord_cut (h : ofWord (cs ++ (mid ++ ys)) = ⟨kind, cs, mid ++ ys⟩) :
    ofWord (cs ++ mid) = ⟨kind, cs, mid⟩ := by
  have hsource : (cs ++ (mid ++ ys)).takeWhile isWordPart = cs := congrArg source h
  have hrest : (cs ++ (mid ++ ys)).dropWhile isWordPart = mid ++ ys := congrArg rest h
  have hkind : TokenKind.word (String.ofList ((cs ++ (mid ++ ys)).takeWhile isWordPart)) = kind :=
    congrArg Lexeme.kind h
  have hword := forall_mem_takeWhile isWordPart (cs ++ (mid ++ ys))
  have hend := forall_head_dropWhile isWordPart (cs ++ (mid ++ ys))
  rw [hsource] at hword hkind
  rw [hrest] at hend
  rw [ofWord, takeWhile_run hword (forall_head_of_append hend), hkind,
    dropWhile_run hword (forall_head_of_append hend)]

theorem splitFraction_point {ds rest : List Char} (hne : ds ≠ []) (hd : ∀ d ∈ ds, d.isDigit = true)
    (hrest : ∀ c ∈ rest.head?, c.isDigit = false) :
    splitFraction ('.' :: ds ++ rest) = ('.' :: ds, rest) := by
  obtain ⟨d, ds, rfl⟩ := List.exists_cons_of_ne_nil hne
  obtain ⟨hd, hds⟩ := List.forall_mem_cons.1 hd
  rw [List.cons_append, List.cons_append, splitFraction, if_pos hd, takeWhile_run hds hrest,
    dropWhile_run hds hrest]

theorem splitFraction_cases (cs : List Char) : splitFraction cs = ([], cs) ∨
    ∃ ds rest, ds ≠ [] ∧ (∀ d ∈ ds, d.isDigit = true) ∧ (∀ c ∈ rest.head?, c.isDigit = false) ∧
      cs = '.' :: ds ++ rest ∧ splitFraction cs = ('.' :: ds, rest) := by
  unfold splitFraction
  split
  next d cs =>
    split
    next hd =>
      refine .inr ⟨d :: cs.takeWhile Char.isDigit, cs.dropWhile Char.isDigit, List.cons_ne_nil _ _,
        List.forall_mem_cons.2 ⟨hd, forall_mem_takeWhile _ _⟩, forall_head_dropWhile _ _, ?_, rfl⟩
      rw [List.cons_append, List.cons_append, List.takeWhile_append_dropWhile]
    next => exact .inl rfl
  next => exact .inl rfl

/-- A point without a digit after it has none either when the text is cut off. -/
theorem splitFraction_cut (h : splitFraction (mid ++ ys) = ([], mid ++ ys)) :
    splitFraction mid = ([], mid) := by
  rcases splitFraction_cases mid with hmid | ⟨ds, rest, hne, hd, -, rfl, -⟩
  · exact hmid
  · obtain ⟨d, ds, rfl⟩ := List.exists_cons_of_ne_nil hne
    have hfst := congrArg Prod.fst h
    simp [splitFraction, hd d List.mem_cons_self] at hfst

theorem ofNumber_cut (h : ofNumber (cs ++ (mid ++ ys)) = ⟨kind, cs, mid ++ ys⟩) :
    ofNumber (cs ++ mid) = ⟨kind, cs, mid⟩ := by
  unfold ofNumber at h ⊢
  have hdigits := forall_mem_takeWhile Char.isDigit (cs ++ (mid ++ ys))
  have hend := forall_head_dropWhile Char.isDigit (cs ++ (mid ++ ys))
  generalize (cs ++ (mid ++ ys)).takeWhile Char.isDigit = whole at h hdigits
  generalize (cs ++ (mid ++ ys)).dropWhile Char.isDigit = later at h hend
  rcases splitFraction_cases later with hsplit | ⟨ds, rest, hne, hd, hrest, rfl, hsplit⟩
  · rw [hsplit] at h
    injection h with hkind hsource hrest
    rw [List.append_nil] at hkind hsource
    subst hsource hrest
    have hmid := forall_head_of_append hend
    rw [takeWhile_run hdigits hmid, dropWhile_run hdigits hmid, splitFraction_cut hsplit]
    simp [hkind]
  · rw [hsplit] at h
    injection h with hkind hsource hlater
    subst hsource hlater
    have hmid := forall_head_of_append hrest
    have hpoint : ∀ c ∈ ('.' :: ds ++ mid).head?, c.isDigit = false := by
      intro c hc
      cases hc
      rfl
    rw [List.append_assoc, takeWhile_run hdigits hpoint, dropWhile_run hdigits hpoint,
      splitFraction_point hne hd hmid]
    simp [← hkind]

theorem ofQuote_cut {quote : Char} (h : ofQuote quote (cs ++ (mid ++ ys)) = ⟨kind, quote :: cs, mid ++ ys⟩) :
    ofQuote quote (cs ++ mid) = ⟨kind, quote :: cs, mid⟩ := by
  unfold ofQuote at h ⊢
  cases hs : Quoted.scan quote (cs ++ (mid ++ ys)) with
  | mk content tail =>
    rw [hs] at h
    cases tail with
    | none =>
      injection h with hkind hsource hrest
      obtain ⟨rfl, rfl⟩ := List.append_eq_nil_iff.1 hrest.symm
      rw [List.append_nil, List.append_nil] at hs
      rw [List.append_nil, hs]
      simp only [hkind, hsource]
    | some rest =>
      injection h with hkind hsource hrest
      subst hrest
      have hcs : cs = Quoted.doubled quote content ++ [quote] := (List.cons.inj hsource).2.symm
      have hmid : mid.head? ≠ some quote := by
        intro hm
        cases mid with
        | nil => cases hm
        | cons x mid => exact (Quoted.eq_append_of_scan hs).2 hm
      rw [hcs, List.append_assoc, List.singleton_append, Quoted.scan_doubled hmid, ← hcs]
      simp only [← hkind, Quoted.encode, hcs, List.cons_append]

/-- A token is read alike when the text after it is cut off somewhere. -/
theorem first_cut {c : Char} (h : first c (cs ++ (mid ++ ys)) = ⟨kind, c :: cs, mid ++ ys⟩) :
    first c (cs ++ mid) = ⟨kind, c :: cs, mid⟩ := by
  unfold first at h ⊢
  split
  next hq =>
    rw [if_pos hq] at h
    exact ofQuote_cut h
  next hq =>
    rw [if_neg hq] at h
    split
    next hd =>
      rw [if_pos hd] at h
      rw [← List.cons_append] at h ⊢
      exact ofNumber_cut h
    next hd =>
      rw [if_neg hd] at h
      split
      next hw =>
        rw [if_pos hw] at h
        rw [← List.cons_append] at h ⊢
        exact ofWord_cut h
      next hw =>
        rw [if_neg hw] at h
        injection h with hkind hsource hrest
        obtain rfl : [] = cs := (List.cons.inj hsource).2
        rw [← hkind, List.nil_append]

end Lexeme

def TokenKind.isUnclosed : TokenKind → Bool
  | unclosed _ => true
  | _ => false

theorem TokenKind.ne_unclosed {kind : TokenKind} (h : kind.isUnclosed = false) (s : String) :
    kind ≠ .unclosed s := by
  rintro rfl
  cases h

theorem TokenKind.isUnclosed_ofMark (c : Char) : (ofMark c).isUnclosed = false := by
  unfold ofMark
  repeat' split
  all_goals rfl

/-- Nothing follows an open quote. -/
theorem Lexeme.rest_first_eq_nil {c : Char} {cs : List Char} (h : (first c cs).kind.isUnclosed = true) :
    (first c cs).rest = [] := by
  unfold first at h ⊢
  split
  next hq =>
    rw [if_pos hq] at h
    unfold ofQuote at h ⊢
    split at h
    next => cases h
    next => rfl
  next hq =>
    rw [if_neg hq] at h
    split at h
    next => cases h
    next =>
      split at h
      next => cases h
      next =>
        rw [TokenKind.isUnclosed_ofMark] at h
        cases h

theorem isStop_of_isSpace {c : Char} (h : isSpace c = true) : isStop c = true := by
  have hranges : ∀ r ∈ spaceRanges, ∀ i < r.2 + 1 - r.1, isStop (Char.ofNat (r.1 + i)) = true := by
    decide +kernel
  obtain ⟨r, hr, hfirst, hlast⟩ := inRanges_iff.1 h
  have hc := hranges r hr (c.toNat - r.1) (by omega)
  rwa [Nat.add_sub_cancel' hfirst, Char.ofNat_toNat] at hc

theorem not_isSpace_of_isWordPart {c : Char} (h : Lexeme.isWordPart c = true) : isSpace c = false := by
  rw [Bool.eq_false_iff]
  intro hs
  rw [(isStop_iff.1 (isStop_of_isSpace hs)).1] at h
  cases h

namespace Piece
variable {p : Piece} {ps : List Piece} {ys zs : List Char}

theorem Stops.append (hy : Stops ys) (hz : Stops zs) : Stops (ys ++ zs) := by
  cases ys with
  | nil => exact hz
  | cons y ys => exact hy

theorem stops_of_isSpace (h : ∀ c ∈ ys, isSpace c = true) : Stops ys :=
  fun c hc => isStop_of_isSpace (h c (List.mem_of_mem_head? hc))

theorem Reads.cut (h : Reads ys ps) : Reads [] ps := by
  induction ps with
  | nil => trivial
  | cons p ps ih =>
    obtain ⟨hgap, ⟨c, cs, hs, hspace, hf⟩, hps⟩ := h
    refine ⟨hgap, ⟨c, cs, hs, hspace, ?_⟩, ih hps⟩
    rw [hs] at hf ⊢
    rw [List.append_nil]
    exact Lexeme.first_cut hf

theorem Reads.extend (h : Reads [] ps) (hu : ∀ p ∈ ps, p.kind.isUnclosed = false) (hy : Stops ys) :
    Reads ys ps := by
  induction ps with
  | nil => trivial
  | cons p ps ih =>
    obtain ⟨hgap, ⟨c, cs, hs, hspace, hf⟩, hps⟩ := h
    obtain ⟨hp, hlater⟩ := List.forall_mem_cons.1 hu
    refine ⟨hgap, ⟨c, cs, hs, hspace, ?_⟩, ih hps hlater⟩
    rw [List.append_nil] at hf
    rw [← List.append_assoc, Lexeme.first_extend hy, hf]
    rw [hf]
    exact TokenKind.ne_unclosed hp

theorem Reads.eq_nil_of_isUnclosed (h : Reads ys (p :: ps)) (hu : p.kind.isUnclosed = true) : ps = [] := by
  obtain ⟨-, ⟨c, cs, -, -, hf⟩, hps⟩ := h
  have hrest : (Lexeme.first c (cs ++ (textOf ps ++ ys))).rest = [] := Lexeme.rest_first_eq_nil (by rwa [hf])
  rw [hf] at hrest
  cases ps with
  | nil => rfl
  | cons q ps =>
    obtain ⟨-, ⟨d, ds, hs, -⟩, -⟩ := hps
    simp [hs] at hrest

end Piece

def kinds (cs : List Char) : List TokenKind := (tokensFrom 0 cs).map (·.kind)

def IsClosed (cs : List Char) : Prop := ∀ k ∈ kinds cs, k.isUnclosed = false

instance (cs : List Char) : Decidable (IsClosed cs) := inferInstanceAs (Decidable (∀ k ∈ kinds cs, _))

section
open Piece
variable {cs ys : List Char}

theorem map_kind_tokensFrom (position : Nat) (cs : List Char) :
    (tokensFrom position cs).map (·.kind) = kinds cs := by
  obtain ⟨ps, after, rfl, hafter, hps⟩ := exists_reads cs
  rw [kinds, tokensFrom_eq_place hps hafter, tokensFrom_eq_place hps hafter, map_kind_place, map_kind_place]

theorem kinds_gap {gap : List Char} (h : ∀ c ∈ gap, isSpace c = true) (cs : List Char) :
    kinds (gap ++ cs) = kinds cs := by
  rw [kinds, tokensFrom_gap h, map_kind_tokensFrom]

theorem tokensFrom_append (h : IsClosed cs) (hy : Stops ys) (position : Nat) :
    tokensFrom position (cs ++ ys) =
      tokensFrom position cs ++ tokensFrom (position + byteLength cs) ys := by
  obtain ⟨ps, after, rfl, hafter, hps⟩ := exists_reads cs
  have hclosed : ∀ p ∈ ps, p.kind.isUnclosed = false := by
    intro p hp
    apply h
    rw [kinds, tokensFrom_eq_place hps hafter, map_kind_place]
    exact List.mem_map_of_mem hp
  have hlong : Reads (after ++ ys) ps := hps.cut.extend hclosed ((stops_of_isSpace hafter).append hy)
  rw [List.append_assoc, tokensFrom_textOf hlong, tokensFrom_gap hafter, tokensFrom_eq_place hps hafter,
    byteLength_append, Nat.add_assoc]

theorem kinds_textOf {ps : List Piece} (h : Reads [] ps) : kinds (textOf ps) = ps.map (·.kind) := by
  have ht := tokensFrom_eq_place h (List.forall_mem_nil _) 0
  rw [List.append_nil] at ht
  rw [kinds, ht, map_kind_place]

theorem kinds_sourceOf {ps : List Piece} (h : Reads [] ps) : kinds (sourceOf ps) = ps.map (·.kind) := by
  cases ps with
  | nil => exact kinds_textOf h
  | cons p ps =>
    obtain ⟨-, hp, hps⟩ := h
    have hreads : Reads [] ({ p with gap := [] } :: ps) := ⟨List.forall_mem_nil _, hp, hps⟩
    exact kinds_textOf hreads

end

section
open Piece
variable {s : String} {ts : List Token}

theorem exists_reads_of_isInfix (h : ts <:+: tokenize s) : ∃ ps, Stands s.toList ts ps ∧ Reads [] ps := by
  obtain ⟨ps, after, hs, -, hps, htokens⟩ := exists_reads_tokenize s
  obtain ⟨xs, ys, hts⟩ := h
  rw [htokens, List.append_assoc] at hts
  obtain ⟨qs, rs, rfl, -, hrest⟩ := exists_append_of_place_eq_append hts.symm
  obtain ⟨qs', rs', rfl, rfl, -⟩ := exists_append_of_place_eq_append hrest.symm
  refine ⟨qs', ⟨textOf qs, textOf rs' ++ after, ?_, ?_⟩, (reads_append.1 (reads_append.1 hps).2).1.cut⟩
  · rw [hs]
    simp only [textOf_append, List.append_assoc]
  · rw [Nat.zero_add]

/-- The text of a run of tokens is read as these tokens. -/
theorem kinds_sourceText (h : ts <:+: tokenize s) :
    kinds (sourceText s.toList ts).toList = ts.map (·.kind) := by
  obtain ⟨ps, hstands, hps⟩ := exists_reads_of_isInfix h
  rw [hstands.sourceText_eq, String.toList_ofList, kinds_sourceOf hps]
  obtain ⟨before, after, -, rfl⟩ := hstands
  rw [map_kind_place]

theorem isInfix_singleton {t : Token} (h : t ∈ ts) : [t] <:+: ts := by
  obtain ⟨xs, ys, rfl⟩ := List.append_of_mem h
  exact ⟨xs, ys, by simp⟩

/-- A word of a text is a word when it stands alone. -/
theorem isIdentifier_of_mem {t : Token} (h : t ∈ tokenize s) {w : String} (hw : t.kind = .word w) :
    IsIdentifier w := by
  obtain ⟨ps, ⟨before, after, -, hplace⟩, hps⟩ := exists_reads_of_isInfix (isInfix_singleton h)
  match ps with
  | [p] =>
    have hkinds := kinds_sourceOf hps
    have hkind : p.kind = .word w := by
      rw [← hw, (List.cons.inj hplace).1]
    obtain ⟨-, ⟨c, cs, -, -, hf⟩, -⟩ := hps
    have hsource : p.source = w.toList := by
      have hfirst := Lexeme.source_eq_of_kind_eq_word (by rw [hf, hkind])
      rwa [hf] at hfirst
    rw [sourceOf, textOf_nil, List.append_nil, hsource, List.map_singleton, hkind] at hkinds
    exact hkinds
  | [] | _ :: _ :: _ => cases hplace

end
end TableQuery
