import TableQuery.Proofs.PrintedQuery
import TableQuery.Proofs.SelectList
import TableQuery.Proofs.Verbatim

/-! # Statements as they are worded

A statement can be worded in many ways: its keywords in any case, its clauses in any order, with white space
between them and semicolons at the end. However it is worded, its tokens are those of its parts, if each part
closes its quotes.
-/
namespace TableQuery
open Text Piece

namespace Piece

structure Spells (p : Piece) (w : String) : Prop where
  gap_isSpace : ∀ c ∈ p.gap, isSpace c = true
  kind_eq : p.kind = .word (String.ofList p.source)
  eqIgnoreAsciiCase_eq : eqIgnoreAsciiCase (String.ofList p.source) w = true

instance (p : Piece) (w : String) : Decidable (p.Spells w) :=
  have : Decidable (∀ c ∈ p.gap, isSpace c = true) := List.decidableBAll _ _
  decidable_of_iff (_ ∧ _ ∧ _) ⟨fun h => ⟨h.1, h.2.1, h.2.2⟩, fun h => ⟨h.1, h.2, h.3⟩⟩

def EndsWord (ys : List Char) : Prop := ∀ c ∈ ys.head?, Lexeme.isWordPart c = false

instance (ys : List Char) : Decidable (EndsWord ys) := Option.decidableForallMem _

theorem EndsWord.of_stops {ys : List Char} (h : Stops ys) : EndsWord ys := fun c hc => (isStop_iff.1 (h c hc)).1

theorem EndsWord.append {xs ys : List Char} (hx : EndsWord xs) (hy : EndsWord ys) : EndsWord (xs ++ ys) := by
  cases xs with
  | nil => exact hy
  | cons x xs => exact hx

variable {p : Piece} {w : String} {ys : List Char}

theorem Spells.isKeyword (h : p.Spells w) : p.kind.isKeyword w = true := by
  rw [h.kind_eq]
  exact h.eqIgnoreAsciiCase_eq

theorem Spells.source_eq_map (h : p.Spells w) : p.source.map Char.toLower = w.toList.map Char.toLower := by
  have heq := h.eqIgnoreAsciiCase_eq
  rwa [eqIgnoreAsciiCase, String.toList_ofList, beq_iff_eq] at heq

theorem Spells.isAlpha (h : p.Spells w) (hw : IsLettered w) : ∀ c ∈ p.source, c.isAlpha = true := by
  intro c hc
  have hmem : c.toLower ∈ w.toList.map Char.toLower := h.source_eq_map ▸ List.mem_map_of_mem hc
  obtain ⟨d, hd, hdc⟩ := List.mem_map.1 hmem
  exact isAlpha_of_isAlpha_toLower (hdc ▸ hw.2 d hd)

theorem Spells.readsBefore (h : p.Spells w) (hw : IsLettered w) (hy : EndsWord ys) : p.ReadsBefore ys := by
  have halpha := h.isAlpha hw
  cases hs : p.source with
  | nil =>
    have hmap := h.source_eq_map
    rw [hs] at hmap
    exact absurd (String.toList_eq_nil_iff.1 (List.map_eq_nil_iff.1 hmap.symm)) hw.1
  | cons c cs =>
    rw [hs] at halpha
    have hspace := (Lexeme.isWordStart_of_isAlpha (halpha c List.mem_cons_self)).2.2
    refine ⟨c, cs, hs, hspace, ?_⟩
    rw [Lexeme.first_of_isAlpha halpha hy, h.kind_eq, hs]

/-- Words behind white space, however they are written, are read as words. -/
theorem reads_of_spells {ps : List Piece} {words : List String}
    (h : List.Forall₂ (fun p w => p.Spells w ∧ p.gap ≠ []) ps words) (hwords : ∀ w ∈ words, IsLettered w)
    (hy : EndsWord ys) : EndsWord (textOf ps ++ ys) ∧ Reads ys ps := by
  induction h with
  | nil => exact ⟨hy, trivial⟩
  | @cons p w ps words hp _ ih =>
    obtain ⟨hw, hlater⟩ := List.forall_mem_cons.1 hwords
    obtain ⟨hends, hreads⟩ := ih hlater
    obtain ⟨c, gap, hgap⟩ := List.exists_cons_of_ne_nil hp.2
    refine ⟨fun x hx => ?_, hp.1.gap_isSpace, hp.1.readsBefore hw hends, hreads⟩
    rw [textOf_cons, hgap] at hx
    obtain rfl : c = x := Option.some.inj hx
    have hspace := hp.1.gap_isSpace c (hgap ▸ List.mem_cons_self)
    exact (isStop_iff.1 (isStop_of_isSpace hspace)).1

theorem exists_spells_of_mem {ps : List Piece} {words : List String}
    (h : List.Forall₂ (fun p w => p.Spells w ∧ p.gap ≠ []) ps words) (hp : p ∈ ps) :
    ∃ w ∈ words, p.Spells w := by
  induction h with
  | nil => cases hp
  | @cons q w qs words hq _ ih =>
    rcases List.mem_cons.1 hp with rfl | hp
    · exact ⟨w, List.mem_cons_self, hq.1⟩
    · obtain ⟨v, hv, hspells⟩ := ih hp
      exact ⟨v, List.mem_cons_of_mem w hv, hspells⟩

end Piece

def IsPart (source : List Char) (ts : List Token) (cs : List Char) : Prop :=
  ∃ before after, source = before ++ (cs ++ after) ∧ ts = tokensFrom (byteLength before) cs

namespace IsPart
variable {source cs : List Char} {ts : List Token}

theorem map_kind (h : IsPart source ts cs) : ts.map (·.kind) = (tokensFrom 0 cs).map (·.kind) := by
  obtain ⟨before, after, -, rfl⟩ := h
  rw [map_kind_tokensFrom, map_kind_tokensFrom]

/-- A part has the same pieces wherever it stands. -/
theorem exists_stands (h : IsPart source ts cs) :
    ∃ ps, Stands source ts ps ∧ Stands cs (tokensFrom 0 cs) ps := by
  obtain ⟨before, after, rfl, rfl⟩ := h
  obtain ⟨ps, rest, hcs, hrest, hps⟩ := exists_reads cs
  have hplace (position : Nat) : tokensFrom position cs = place position ps := by
    rw [hcs]
    exact tokensFrom_eq_place hps hrest position
  refine ⟨ps, ⟨before, rest ++ after, ?_, hplace _⟩, ⟨[], rest, hcs, hplace _⟩⟩
  rw [hcs, List.append_assoc]

theorem sourceText_eq (h : IsPart source ts cs) : sourceText source ts = sourceText cs (tokensFrom 0 cs) := by
  obtain ⟨ps, hts, hcs⟩ := h.exists_stands
  rw [hts.sourceText_eq, hcs.sourceText_eq]

theorem projection_eq (h : IsPart source ts cs) :
    Projection.ofTokens source ts = Projection.ofTokens cs (tokensFrom 0 cs) := by
  obtain ⟨ps, hts, hcs⟩ := h.exists_stands
  rw [hts.projection_eq, hcs.projection_eq]

theorem predicate_eq (h : IsPart source ts cs) :
    Predicate.ofTokens source ts = Predicate.ofTokens cs (tokensFrom 0 cs) := by
  rw [Predicate.ofTokens, Predicate.ofTokens, h.map_kind, h.sourceText_eq]

end IsPart

/-- The text is complete in itself: it closes its quotes and parentheses, and outside of them holds neither a
semicolon nor the keyword of a clause. -/
structure IsSealed (cs : List Char) : Prop where
  isClosed : IsClosed cs
  ne_semicolon : ∀ k ∈ kinds cs, k ≠ .semicolon
  quiet : Quiet (tokensFrom 0 cs)

instance (cs : List Char) : Decidable (IsSealed cs) :=
  decidable_of_iff (_ ∧ _ ∧ _ ∧ _)
    ⟨fun h => ⟨h.1, h.2.1, h.2.2.1, h.2.2.2⟩, fun h => ⟨h.1, h.2, h.3.1, h.3.2⟩⟩

structure WordedClause where
  kind : ClauseKind
  keyword : List Piece
  gap : List Char
  body : List Char

namespace WordedClause

def chars (c : WordedClause) : List Char := textOf c.keyword ++ (c.gap ++ c.body)

structure Sound (c : WordedClause) : Prop where
  keyword_forall₂ : List.Forall₂ (fun p w => p.Spells w ∧ p.gap ≠ []) c.keyword c.kind.words
  gap_isSpace : ∀ x ∈ c.gap, isSpace x = true
  endsWord_body : EndsWord (c.gap ++ c.body)
  isSealed_body : IsSealed c.body

instance (c : WordedClause) : Decidable c.Sound :=
  have : Decidable (∀ x ∈ c.gap, isSpace x = true) := List.decidableBAll _ _
  decidable_of_iff (_ ∧ _ ∧ _ ∧ _)
    ⟨fun h => ⟨h.1, h.2.1, h.2.2.1, h.2.2.2⟩, fun h => ⟨h.1, h.2, h.3, h.4⟩⟩

def bodyStart (position : Nat) (c : WordedClause) : Nat :=
  position + byteLength (textOf c.keyword) + byteLength c.gap

def segment (position : Nat) (c : WordedClause) : Segment :=
  ⟨c.kind, place position c.keyword, tokensFrom (c.bodyStart position) c.body⟩

def segments (position : Nat) : List WordedClause → List Segment
  | [] => []
  | c :: clauses => c.segment position :: segments (position + byteLength c.chars) clauses

theorem Sound.segment {c : WordedClause} (h : c.Sound) (position : Nat) : (c.segment position).Sound := by
  constructor
  · apply Segment.Keyed.of_kinds
    rw [WordedClause.segment, map_kind_place]
    exact List.forall₂_map_left_iff.2 (h.keyword_forall₂.imp fun _ _ hp => hp.1.isKeyword)
  · refine h.isSealed_body.quiet.congr ?_
    rw [WordedClause.segment, map_kind_tokensFrom, map_kind_tokensFrom]

theorem Sound.tokensFrom_chars {c : WordedClause} (h : c.Sound) {ys : List Char} (hy : Stops ys)
    (position : Nat) : tokensFrom position (c.chars ++ ys) =
      (c.segment position).tokens ++ tokensFrom (position + byteLength c.chars) ys := by
  have hends : EndsWord (c.gap ++ (c.body ++ ys)) := by
    rw [← List.append_assoc]
    exact h.endsWord_body.append (.of_stops hy)
  have hkeyword := (reads_of_spells h.keyword_forall₂ c.kind.isLettered_words hends).2
  have hlength : position + byteLength (textOf c.keyword) + byteLength c.gap + byteLength c.body =
      position + byteLength c.chars := by
    rw [chars, byteLength_append, byteLength_append]
    omega
  rw [chars, List.append_assoc, List.append_assoc, tokensFrom_textOf hkeyword, tokensFrom_gap h.gap_isSpace,
    tokensFrom_append h.isSealed_body.isClosed hy, hlength, ← List.append_assoc]
  rfl

variable {clauses : List WordedClause}

/-- Clauses begin with white space. -/
theorem stops_chars (h : ∀ c ∈ clauses, c.Sound) {ys : List Char} (hy : Stops ys) :
    Stops (clauses.flatMap chars ++ ys) := by
  cases clauses with
  | nil => exact hy
  | cons c clauses =>
    obtain ⟨kind, keyword, gap, body⟩ := c
    have hkeyword := (h _ List.mem_cons_self).keyword_forall₂
    dsimp only at hkeyword
    obtain ⟨w, words, hwords⟩ : ∃ w words, kind.words = w :: words := by cases kind <;> exact ⟨_, _, rfl⟩
    rw [hwords] at hkeyword
    rcases hkeyword with _ | ⟨hp, _⟩
    obtain ⟨x, xs, hgap⟩ := List.exists_cons_of_ne_nil hp.2
    intro y hy
    simp only [List.flatMap_cons, chars, textOf_cons, hgap, List.cons_append] at hy
    obtain rfl : x = y := Option.some.inj hy
    exact isStop_of_isSpace (hp.1.gap_isSpace x (hgap ▸ List.mem_cons_self))

theorem tokensFrom_flatMap_chars (h : ∀ c ∈ clauses, c.Sound) {ys : List Char} (hy : Stops ys)
    (position : Nat) : tokensFrom position (clauses.flatMap chars ++ ys) =
      (segments position clauses).flatMap Segment.tokens ++
        tokensFrom (position + byteLength (clauses.flatMap chars)) ys := by
  induction clauses generalizing position with
  | nil => rfl
  | cons c clauses ih =>
    obtain ⟨hc, hclauses⟩ := List.forall_mem_cons.1 h
    rw [List.flatMap_cons, List.append_assoc, hc.tokensFrom_chars (stops_chars hclauses hy), ih hclauses,
      segments, List.flatMap_cons, List.append_assoc, byteLength_append, Nat.add_assoc]

theorem map_kind_segments (position : Nat) (clauses : List WordedClause) :
    (segments position clauses).map (·.kind) = clauses.map (·.kind) := by
  induction clauses generalizing position with
  | nil => rfl
  | cons c clauses ih => rw [segments, List.map_cons, ih, List.map_cons, segment]

theorem sound_of_mem_segments (h : ∀ c ∈ clauses, c.Sound) (position : Nat) :
    ∀ s ∈ segments position clauses, s.Sound := by
  induction clauses generalizing position with
  | nil => exact List.forall_mem_nil _
  | cons c clauses ih =>
    obtain ⟨hc, hclauses⟩ := List.forall_mem_cons.1 h
    exact List.forall_mem_cons.2 ⟨hc.segment position, ih hclauses _⟩

/-- What is no keyword stands in a body. -/
theorem any_segments (h : ∀ c ∈ clauses, c.Sound) {f : TokenKind → Bool}
    (hf : ∀ kind : ClauseKind, ∀ w ∈ kind.words, ∀ k : TokenKind, k.isKeyword w = true → f k = false)
    (position : Nat) : ((segments position clauses).flatMap Segment.tokens).any (f ·.kind) =
      clauses.any fun c => (kinds c.body).any f := by
  induction clauses generalizing position with
  | nil => rfl
  | cons c clauses ih =>
    obtain ⟨hc, hclauses⟩ := List.forall_mem_cons.1 h
    have hkeyword : (place position c.keyword).any (f ·.kind) = false := by
      rw [List.any_eq_false]
      intro t ht
      obtain ⟨p, hp, hkind⟩ := exists_kind_of_mem_place ht
      obtain ⟨w, hw, hspells⟩ := exists_spells_of_mem hc.keyword_forall₂ hp
      rw [← hkind, hf c.kind w hw p.kind hspells.isKeyword]
      exact Bool.false_ne_true
    have hbody (start : Nat) : (tokensFrom start c.body).any (f ·.kind) = (kinds c.body).any f := by
      rw [← map_kind_tokensFrom start, List.any_map]
      rfl
    rw [segments, List.flatMap_cons, List.any_append, ih hclauses, Segment.tokens, segment, List.any_append,
      hkeyword, hbody, Bool.false_or, List.any_cons]

/-- The body of a clause is a part of the source, wherever the clause stands. -/
theorem rel_find?_segments {source before after : List Char}
    (hs : source = before ++ (clauses.flatMap chars ++ after)) (kind : ClauseKind) :
    Option.Rel (IsPart source) (((segments (byteLength before) clauses).find? (·.kind = kind)).map (·.body))
      ((clauses.find? (·.kind = kind)).map (·.body)) := by
  induction clauses generalizing before with
  | nil => exact .none
  | cons c clauses ih =>
    have hkind (position : Nat) : (c.segment position).kind = c.kind := rfl
    rw [segments, List.find?_cons, List.find?_cons, hkind]
    cases decide (c.kind = kind) with
    | true =>
      refine .some ⟨before ++ (textOf c.keyword ++ c.gap), clauses.flatMap chars ++ after, ?_, ?_⟩
      · rw [hs, List.flatMap_cons, chars]
        simp only [List.append_assoc]
      · rw [segment, bodyStart, byteLength_append, byteLength_append, Nat.add_assoc]
    | false =>
      have hlater := @ih (before ++ c.chars) (by rw [hs, List.flatMap_cons]; simp only [List.append_assoc])
      rwa [byteLength_append] at hlater

end WordedClause
end TableQuery
