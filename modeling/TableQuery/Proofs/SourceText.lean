import TableQuery.Proofs.Spelling
import TableQuery.Query.Parsing

/-! # Source texts of tokens

Every text is put together from the pieces of its tokens. So each run of its tokens stands in it, from
the start of the first token to the end of the last one, and its source text is what stands there.
-/
namespace TableQuery
open Text

def IsSourceOf (source : List Char) (tokens : List Token) (text : String) : Prop :=
  (tokens = [] → text = "") ∧ ∀ first ∈ tokens.head?, ∀ last ∈ tokens.getLast?,
    ∃ before after, source = before ++ (text.toList ++ after) ∧
      first.start = byteLength before ∧ last.stop = byteLength (before ++ text.toList)

theorem IsSourceOf.sourceText_eq {source : List Char} {tokens : List Token} {text : String}
    (h : IsSourceOf source tokens text) : sourceText source tokens = text := by
  cases hfirst : tokens.head? with
  | none =>
    rw [sourceText, hfirst, h.1 (List.head?_eq_none_iff.1 hfirst)]
  | some first =>
    obtain ⟨last, hlast⟩ : ∃ last, tokens.getLast? = some last := by
      rw [← Option.isSome_iff_exists, List.getLast?_isSome]
      exact List.isSome_head?.1 (by rw [hfirst]; rfl)
    obtain ⟨before, after, rfl, hstart, hstop⟩ := h.2 first hfirst last hlast
    rw [sourceText, hfirst, hlast]
    dsimp only
    rw [hstart, hstop, slice_append, String.ofList_toList]

namespace Piece

def sourceOf : List Piece → List Char
  | [] => []
  | p :: ps => p.source ++ textOf ps

/-- The tokens are those of the pieces, and the pieces stand in the source where the tokens say. -/
def Stands (source : List Char) (ts : List Token) (ps : List Piece) : Prop :=
  ∃ before after, source = before ++ (textOf ps ++ after) ∧ ts = place (byteLength before) ps

theorem stop_of_mem_getLast?_place {ps : List Piece} {position : Nat} :
    ∀ t ∈ (place position ps).getLast?, t.stop = position + byteLength (textOf ps) := by
  induction ps generalizing position with
  | nil => exact nofun
  | cons p ps ih =>
    have hlength : byteLength (textOf (p :: ps)) =
        byteLength p.gap + (byteLength p.source + byteLength (textOf ps)) := by
      rw [textOf_cons, byteLength_append, byteLength_append]
    intro t ht
    cases ps with
    | nil =>
      obtain rfl : _ = t := Option.some.inj ht
      rw [hlength]
      simp only [textOf_nil, Nat.add_assoc]
      rfl
    | cons q ps =>
      have hq := ih t (by simpa only [place, List.getLast?_cons_cons] using ht)
      omega

theorem Stands.isSourceOf {source : List Char} {ts : List Token} {ps : List Piece}
    (h : Stands source ts ps) : IsSourceOf source ts (String.ofList (sourceOf ps)) := by
  obtain ⟨before, after, rfl, rfl⟩ := h
  cases ps with
  | nil => exact ⟨fun _ => rfl, nofun⟩
  | cons p ps =>
    refine ⟨fun hnil => absurd hnil (List.cons_ne_nil _ _), fun first hfirst last hlast => ?_⟩
    refine ⟨before ++ p.gap, after, ?_, ?_, ?_⟩
    · simp only [sourceOf, textOf_cons, String.toList_ofList, List.append_assoc]
    · cases hfirst
      exact (byteLength_append ..).symm
    · rw [stop_of_mem_getLast?_place last hlast, String.toList_ofList, sourceOf, textOf_cons]
      simp only [byteLength_append, Nat.add_assoc]

theorem Stands.sourceText_eq {source : List Char} {ts : List Token} {ps : List Piece}
    (h : Stands source ts ps) : sourceText source ts = String.ofList (sourceOf ps) :=
  h.isSourceOf.sourceText_eq

/-- A text is its tokens with the white space before each of them, and after the last one. -/
theorem exists_reads (cs : List Char) : ∃ ps after,
    cs = textOf ps ++ after ∧ (∀ c ∈ after, isSpace c = true) ∧ Reads after ps := by
  induction 0, cs using tokensFrom.induct with
  | case1 => exact ⟨[], [], rfl, List.forall_mem_nil _, trivial⟩
  | case2 _ c cs hc ih =>
    obtain ⟨ps, after, hcs, hafter, hps⟩ := ih
    cases ps with
    | nil => exact ⟨[], c :: after, by rw [hcs]; rfl, List.forall_mem_cons.2 ⟨hc, hafter⟩, trivial⟩
    | cons p ps =>
      obtain ⟨hgap, hp, hps⟩ := hps
      refine ⟨{ p with gap := c :: p.gap } :: ps, after, ?_, hafter, List.forall_mem_cons.2 ⟨hc, hgap⟩,
        hp, hps⟩
      rw [hcs, textOf_cons, textOf_cons]
      rfl
  | case3 _ c cs hc lexeme _ ih =>
    obtain ⟨ps, after, hrest, hafter, hps⟩ := ih
    have happend : lexeme.source ++ lexeme.rest = c :: cs := Lexeme.first_append c cs
    obtain ⟨x, xs, hsource⟩ := List.exists_cons_of_ne_nil (Lexeme.source_first_ne_nil c cs)
    rw [hsource, List.cons_append] at happend
    obtain ⟨rfl, hcs⟩ := List.cons.inj happend
    refine ⟨⟨[], lexeme.source, lexeme.kind⟩ :: ps, after, ?_, hafter, List.forall_mem_nil _,
      ⟨x, xs, hsource, by simpa using hc, ?_⟩, hps⟩
    · rw [textOf_cons, List.nil_append, List.append_assoc, ← hrest]
      exact (Lexeme.first_append x cs).symm
    · rw [← hrest, hcs]

theorem exists_reads_tokenize (s : String) : ∃ ps after, s.toList = textOf ps ++ after ∧
    (∀ c ∈ after, isSpace c = true) ∧ Reads after ps ∧ tokenize s = place 0 ps := by
  obtain ⟨ps, after, hs, hafter, hps⟩ := exists_reads s.toList
  refine ⟨ps, after, hs, hafter, hps, ?_⟩
  rw [tokenize, hs, tokensFrom_eq_place hps hafter]

theorem exists_stands_tokenize (s : String) : ∃ ps, Stands s.toList (tokenize s) ps := by
  obtain ⟨ps, after, hs, -, -, htokens⟩ := exists_reads_tokenize s
  exact ⟨ps, [], after, hs, htokens⟩

theorem exists_append_of_place_eq_append {position : Nat} {ps : List Piece} {xs ys : List Token}
    (h : place position ps = xs ++ ys) : ∃ qs rs, ps = qs ++ rs ∧ xs = place position qs ∧
      ys = place (position + byteLength (textOf qs)) rs := by
  induction xs generalizing position ps with
  | nil => exact ⟨[], ps, rfl, rfl, h.symm⟩
  | cons x xs ih =>
    cases ps with
    | nil => cases h
    | cons p ps =>
      rw [place_cons, List.cons_append] at h
      obtain ⟨hx, hrest⟩ := List.cons.inj h
      obtain ⟨qs, rs, rfl, hxs, hys⟩ := ih hrest
      refine ⟨p :: qs, rs, rfl, by rw [place_cons, hx, hxs], ?_⟩
      rw [hys, textOf_cons, byteLength_append, byteLength_append]
      simp only [Nat.add_assoc]

theorem Stands.of_isInfix {source : List Char} {ts us : List Token} {ps : List Piece}
    (h : Stands source ts ps) (hu : us <:+: ts) : ∃ qs, Stands source us qs := by
  obtain ⟨before, after, rfl, hts⟩ := h
  obtain ⟨xs, ys, rfl⟩ := hu
  rw [List.append_assoc] at hts
  obtain ⟨qs, rs, rfl, -, hrest⟩ := exists_append_of_place_eq_append hts.symm
  obtain ⟨qs', rs', rfl, hus, -⟩ := exists_append_of_place_eq_append hrest.symm
  refine ⟨qs', before ++ textOf qs, textOf rs' ++ after, ?_, ?_⟩
  · simp only [textOf_append, List.append_assoc]
  · rw [hus, byteLength_append]

end Piece

/-- What stands for a run of tokens is what the source has in their place. -/
theorem isSourceOf_sourceText {s : String} {ts : List Token} (h : ts <:+: tokenize s) :
    IsSourceOf s.toList ts (sourceText s.toList ts) := by
  obtain ⟨ps, hps⟩ := Piece.exists_stands_tokenize s
  obtain ⟨qs, hqs⟩ := hps.of_isInfix h
  rw [hqs.sourceText_eq]
  exact hqs.isSourceOf

end TableQuery
