import TableQuery.Proofs.Verbatim

/-! # The layout of tokens

The tokens of a text stand in it one behind another, with nothing but white space around them, and each is
written as its kind says. The same writings with other white space between them are the same tokens.
-/
namespace TableQuery
open Text

/-- What stands in the source between two byte positions, both of them between characters. -/
def StandsBetween (source : List Char) (start stop : Nat) (cs : List Char) : Prop :=
  ∃ before after, source = before ++ (cs ++ after) ∧ start = byteLength before ∧
    stop = byteLength (before ++ cs)

theorem StandsBetween.slice_eq {source cs : List Char} {start stop : Nat}
    (h : StandsBetween source start stop cs) : slice source start stop = cs := by
  obtain ⟨before, after, rfl, rfl, rfl⟩ := h
  exact slice_append before cs after

def Token.chars (source : List Char) (t : Token) : List Char := slice source t.start t.stop

def gapSpans (length position : Nat) : List Token → List (Nat × Nat)
  | [] => [(position, length)]
  | t :: ts => (position, t.start) :: gapSpans length t.stop ts

structure IsLaidOut (source : List Char) (ts : List Token) : Prop where
  standsBetween : ∀ t ∈ ts, StandsBetween source t.start t.stop (t.chars source) ∧ t.start < t.stop
  pairwise_stop_le : ts.Pairwise (·.stop ≤ ·.start)
  gaps : ∀ g ∈ gapSpans (byteLength source) 0 ts,
    ∃ gap, StandsBetween source g.1 g.2 gap ∧ ∀ c ∈ gap, isSpace c = true
  not_isSpace : ∀ t ∈ ts, ∀ c ∈ (t.chars source).head?, isSpace c = false
  isWrittenAs : ∀ t ∈ ts, t.kind.IsWrittenAs (t.chars source)
  isUnclosed : ∀ t ∈ ts.dropLast, t.kind.isUnclosed = false

namespace Piece
variable {source before after ys : List Char} {position : Nat} {p : Piece} {ps : List Piece}

theorem place_behind (before : List Char) (p : Piece) (ps : List Piece) :
    place (byteLength before) (p :: ps) =
      ⟨p.kind, byteLength (before ++ p.gap), byteLength (before ++ p.gap ++ p.source)⟩ ::
        place (byteLength (before ++ p.gap ++ p.source)) ps := by
  simp [place_cons, byteLength_append, Nat.add_assoc]

theorem standsBetween_head (h : source = before ++ (textOf (p :: ps) ++ after)) :
    StandsBetween source (byteLength (before ++ p.gap)) (byteLength (before ++ p.gap ++ p.source)) p.source :=
  ⟨before ++ p.gap, textOf ps ++ after, by simp [h], rfl, rfl⟩

/-- The pieces stand in the source where their tokens say. -/
theorem exists_of_mem_place (h : source = before ++ (textOf ps ++ after)) {t : Token}
    (ht : t ∈ place (byteLength before) ps) :
    ∃ p ∈ ps, t.kind = p.kind ∧ StandsBetween source t.start t.stop p.source := by
  induction ps generalizing before with
  | nil => cases ht
  | cons p ps ih =>
    rw [place_behind] at ht
    rcases List.mem_cons.1 ht with rfl | ht
    · exact ⟨p, List.mem_cons_self, rfl, standsBetween_head h⟩
    · obtain ⟨q, hq, hstands⟩ := ih (by simp [h]) ht
      exact ⟨q, List.mem_cons_of_mem p hq, hstands⟩

theorem map_chars_place (h : source = before ++ (textOf ps ++ after)) :
    (place (byteLength before) ps).map (·.chars source) = ps.map Piece.source := by
  induction ps generalizing before with
  | nil => rfl
  | cons p ps ih =>
    rw [place_behind, List.map_cons, List.map_cons, ih (by simp [h]), Token.chars,
      (standsBetween_head h).slice_eq]

theorem le_start_of_mem_place {t : Token} (h : t ∈ place position ps) : position ≤ t.start := by
  induction ps generalizing position with
  | nil => cases h
  | cons p ps ih =>
    rw [place_cons] at h
    rcases List.mem_cons.1 h with rfl | h
    · exact Nat.le_add_right _ _
    · have hp := ih h
      omega

theorem pairwise_place (position : Nat) (ps : List Piece) :
    (place position ps).Pairwise (·.stop ≤ ·.start) := by
  induction ps generalizing position with
  | nil => exact .nil
  | cons p ps ih =>
    rw [place_cons]
    exact .cons (fun t ht => le_start_of_mem_place ht) (ih _)

/-- Around the pieces there is only their white space and what follows them. -/
theorem standsBetween_of_mem_gapSpans (hps : Reads ys ps) (hafter : ∀ c ∈ after, isSpace c = true)
    (h : source = before ++ (textOf ps ++ after)) :
    ∀ g ∈ gapSpans (byteLength source) (byteLength before) (place (byteLength before) ps),
      ∃ gap, StandsBetween source g.1 g.2 gap ∧ ∀ c ∈ gap, isSpace c = true := by
  induction ps generalizing before with
  | nil => exact List.forall_mem_singleton.2 ⟨after, ⟨before, [], by simp [h], rfl, by simp [h]⟩, hafter⟩
  | cons p ps ih =>
    obtain ⟨hgap, -, hps⟩ := hps
    rw [place_behind, gapSpans]
    exact List.forall_mem_cons.2
      ⟨⟨p.gap, ⟨before, p.source ++ (textOf ps ++ after), by simp [h], rfl, rfl⟩, hgap⟩,
        ih hps (by simp [h])⟩

theorem Reads.of_mem (h : Reads ys ps) (hp : p ∈ ps) : ∃ zs, p.ReadsBefore zs := by
  induction ps with
  | nil => cases hp
  | cons q ps ih =>
    obtain ⟨-, hq, hps⟩ := h
    rcases List.mem_cons.1 hp with rfl | hp
    · exact ⟨_, hq⟩
    · exact ih hps hp

theorem ReadsBefore.isWrittenAs (h : p.ReadsBefore ys) : p.kind.IsWrittenAs p.source := by
  obtain ⟨c, cs, -, -, hf⟩ := h
  have hw := Lexeme.isWrittenAs_first c (cs ++ ys)
  rwa [hf] at hw

/-- An open quote ends the text. -/
theorem Reads.isUnclosed_eq_false (h : Reads ys ps) : ∀ p ∈ ps.dropLast, p.kind.isUnclosed = false := by
  induction ps with
  | nil => exact List.forall_mem_nil _
  | cons p ps ih =>
    cases ps with
    | nil => exact List.forall_mem_nil _
    | cons q ps =>
      rw [List.dropLast_cons_cons]
      refine List.forall_mem_cons.2 ⟨?_, ih h.2.2⟩
      rw [Bool.eq_false_iff]
      exact fun hu => List.cons_ne_nil q ps (h.eq_nil_of_isUnclosed hu)

end Piece

theorem isLaidOut_tokenize (s : String) : IsLaidOut s.toList (tokenize s) := by
  obtain ⟨ps, after, hs, hafter, hps, htokens⟩ := Piece.exists_reads_tokenize s
  have hpiece : ∀ t ∈ tokenize s, ∃ p ∈ ps, t.kind = p.kind ∧ t.chars s.toList = p.source ∧
      StandsBetween s.toList t.start t.stop p.source := by
    intro t ht
    rw [htokens] at ht
    obtain ⟨p, hp, hkind, hstands⟩ := Piece.exists_of_mem_place (hs.trans (List.nil_append _).symm) ht
    exact ⟨p, hp, hkind, hstands.slice_eq, hstands⟩
  constructor
  case standsBetween =>
    intro t ht
    obtain ⟨p, hp, -, hchars, hstands⟩ := hpiece t ht
    obtain ⟨_, c, cs, hsource, -, -⟩ := hps.of_mem hp
    refine ⟨hchars ▸ hstands, ?_⟩
    obtain ⟨before, -, -, hstart, hstop⟩ := hstands
    have hpos : 0 < byteLength p.source := byteLength_pos (hsource ▸ List.cons_ne_nil c cs)
    rw [hstart, hstop, byteLength_append]
    omega
  case pairwise_stop_le =>
    rw [htokens]
    exact Piece.pairwise_place 0 ps
  case gaps =>
    rw [htokens]
    exact Piece.standsBetween_of_mem_gapSpans hps hafter (hs.trans (List.nil_append _).symm)
  case not_isSpace =>
    intro t ht x hx
    obtain ⟨p, hp, -, hchars, -⟩ := hpiece t ht
    obtain ⟨_, c, cs, hsource, hspace, -⟩ := hps.of_mem hp
    rw [hchars, hsource] at hx
    cases hx
    exact hspace
  case isWrittenAs =>
    intro t ht
    obtain ⟨p, hp, hkind, hchars, -⟩ := hpiece t ht
    obtain ⟨_, hreads⟩ := hps.of_mem hp
    rw [hkind, hchars]
    exact hreads.isWrittenAs
  case isUnclosed =>
    have hkinds : ∀ k ∈ ((tokenize s).dropLast).map (·.kind), k.isUnclosed = false := by
      rw [List.map_dropLast, htokens, Piece.map_kind_place, ← List.map_dropLast]
      exact List.forall_mem_map.2 hps.isUnclosed_eq_false
    exact List.forall_mem_map.1 hkinds

inductive Respaced : List (List Char) → List Char → Prop
  | nil : Respaced [] []
  | single (cs : List Char) : Respaced [cs] cs
  | cons (cs : List Char) {ds gap text : List Char} {rest : List (List Char)} (hne : gap ≠ [])
      (hgap : ∀ c ∈ gap, isSpace c = true) (htext : Respaced (ds :: rest) text) :
      Respaced (cs :: ds :: rest) (cs ++ (gap ++ text))

theorem respaced_intercalate {gap : List Char} (hne : gap ≠ []) (hgap : ∀ c ∈ gap, isSpace c = true)
    (css : List (List Char)) : Respaced css (gap.intercalate css) := by
  induction css with
  | nil => exact .nil
  | cons cs css ih =>
    cases css with
    | nil => simpa using Respaced.single cs
    | cons ds css => simpa [List.intercalate_cons_cons] using Respaced.cons cs hne hgap ih

namespace Piece
variable {gap text ys : List Char} {p : Piece} {ps : List Piece}

/-- A piece reads the same alone, whatever white space is put before it. -/
theorem ReadsBefore.reads_singleton (h : p.ReadsBefore ys) (hgap : ∀ c ∈ gap, isSpace c = true) :
    Reads [] [{ p with gap := gap }] := by
  have hlong : Reads ys [{ p with gap := gap }] := ⟨hgap, h, trivial⟩
  exact hlong.cut

/-- The sources of pieces with white space between them are pieces of the same kinds. -/
theorem Reads.exists_reads_of_respaced (h : Reads ys (p :: ps))
    (ht : Respaced ((p :: ps).map source) text) (hgap : ∀ c ∈ gap, isSpace c = true) :
    ∃ qs, Reads [] qs ∧ textOf qs = gap ++ text ∧ qs.map kind = (p :: ps).map kind := by
  induction ps generalizing p gap text with
  | nil =>
    cases ht
    exact ⟨[{ p with gap := gap }], h.2.1.reads_singleton hgap, by simp, rfl⟩
  | cons q ps ih =>
    obtain ⟨-, hp, hps⟩ := id h
    cases ht with
    | cons _ hne hspace htext =>
      obtain ⟨qs, hqs, htextOf, hkinds⟩ := ih hps htext hspace
      have hclosed : p.kind.isUnclosed = false := h.isUnclosed_eq_false p (by simp)
      have hstops : Stops (textOf qs) := by
        rw [htextOf]
        obtain ⟨c, cs, rfl⟩ := List.exists_cons_of_ne_nil hne
        intro x hx
        cases hx
        exact isStop_of_isSpace (hspace c List.mem_cons_self)
      have hlong : Reads (textOf qs ++ []) [{ p with gap := gap }] := by
        rw [List.append_nil]
        exact (hp.reads_singleton hgap).extend (List.forall_mem_singleton.2 hclosed) hstops
      refine ⟨{ p with gap := gap } :: qs, reads_append.2 ⟨hlong, hqs⟩, ?_, ?_⟩
      · simp [htextOf]
      · simp [hkinds]

end Piece

/-- The writings of tokens with other white space between them are read as the same tokens. -/
theorem kinds_of_respaced {s : String} {text : List Char}
    (h : Respaced ((tokenize s).map (·.chars s.toList)) text) : kinds text = (tokenize s).map (·.kind) := by
  obtain ⟨ps, after, hs, -, hps, htokens⟩ := Piece.exists_reads_tokenize s
  have hchars : (tokenize s).map (·.chars s.toList) = ps.map Piece.source :=
    htokens ▸ Piece.map_chars_place (hs.trans (List.nil_append _).symm)
  rw [hchars] at h
  rw [htokens, Piece.map_kind_place]
  cases ps with
  | nil =>
    cases h
    rw [kinds, tokensFrom]
    rfl
  | cons p ps =>
    obtain ⟨qs, hqs, htextOf, hkinds⟩ := hps.exists_reads_of_respaced h (List.forall_mem_nil _)
    rw [← hkinds, ← kinds_textOf hqs, htextOf, List.nil_append]

/-- No character of a text is lost between its tokens but white space, and other white space between the
writings of its tokens changes nothing. -/
theorem tokenize_layout (s : String) : IsLaidOut s.toList (tokenize s) ∧
    ∀ text, Respaced ((tokenize s).map (·.chars s.toList)) text.toList →
      (tokenize text).map (·.kind) = (tokenize s).map (·.kind) :=
  ⟨isLaidOut_tokenize s, fun _ => kinds_of_respaced⟩

/-- Letters beyond ASCII, a digit that starts no number, points, doubled quotes and an open quote. -/
theorem tokenize_layout_open_quote :
    let s := "né.$=1.2.٣'it''s'\t\"o'p"
    let text := "né.$\u3000=\u30001.2\u3000.\u3000٣\u3000'it''s'\u3000\"o'p"
    Respaced ((tokenize s).map (·.chars s.toList)) text.toList ∧ (tokenize text).map (·.kind) =
      [.word "né.$", .equals, .number "1.2", .symbol '.', .symbol '٣', .quoted "it's", .unclosed "o'p"] := by
  intro s text
  have htext : text.toList = ['\u3000'].intercalate ((tokenize s).map (·.chars s.toList)) := by decide +kernel
  have hspaced : Respaced ((tokenize s).map (·.chars s.toList)) text.toList := by
    rw [htext]
    exact respaced_intercalate (List.cons_ne_nil _ _) (List.forall_mem_singleton.2 (by decide)) _
  have hkinds : (tokenize s).map (·.kind) =
      [.word "né.$", .equals, .number "1.2", .symbol '.', .symbol '٣', .quoted "it's", .unclosed "o'p"] := by
    decide +kernel
  exact ⟨hspaced, ((tokenize_layout s).2 text hspaced).trans hkinds⟩

end TableQuery
