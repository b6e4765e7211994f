import TableQuery.Proofs.Runs
import TableQuery.Query.Token

/-! # Texts put together from tokens

A text that consists of pieces, each a token behind a gap of white space, reads as the tokens of its
pieces as long as none of them runs on into the next one. Marks never do, and a character that can
neither continue a word or a number nor double a quote stops every other token. Each token is written in one
of the ways that its kind allows.
-/
namespace TableQuery
open Text

/-- A character that no token but a mark begins with and that continues none. -/
def isStop (c : Char) : Bool := !Lexeme.isWordPart c && c != '\x27' && c != '"'

theorem isStop_iff {c : Char} : isStop c = true ↔ Lexeme.isWordPart c = false ∧ c ≠ '\x27' ∧ c ≠ '"' := by
  simp [isStop, and_assoc]

theorem Text.Quoted.scan_append {quote : Char} {cs content rest ys : List Char}
    (hy : ∀ c ∈ ys.head?, c ≠ quote) (h : scan quote cs = (content, some rest)) :
    scan quote (cs ++ ys) = (content, some (rest ++ ys)) := by
  obtain ⟨rfl, hr⟩ := eq_append_of_scan h
  rw [List.append_assoc, List.cons_append]
  refine scan_doubled ?_ content
  cases rest with
  | nil => exact fun he => hy quote he rfl
  | cons c rest => exact hr

namespace Lexeme

theorem isWordPart_of_isDigit {c : Char} (h : c.isDigit = true) : isWordPart c = true := by
  have hc : c.toNat < 0x80 := Nat.lt_of_le_of_lt (Char.isDigit_iff_toNat.1 h).2 (by decide)
  simp [isWordPart, isAlphanumeric, isNumeric, hc, h]

theorem isWordPart_of_isWordStart {c : Char} (h : isWordStart c = true) : isWordPart c = true := by
  simp only [isWordStart, isWordPart, isAlphanumeric, Bool.or_eq_true] at h ⊢
  rcases h with h | h <;> simp [h]

theorem isDigit_of_not_isWordPart {c : Char} (h : isWordPart c = false) : c.isDigit = false :=
  Bool.eq_false_iff.2 fun hd => by simp [isWordPart_of_isDigit hd] at h

theorem splitFraction_of_head_ne {cs : List Char} (h : cs.head? ≠ some '.') :
    splitFraction cs = ([], cs) := by
  unfold splitFraction
  split
  · exact absurd rfl h
  · rfl

theorem splitFraction_extend {cs ys : List Char} (hy : ∀ c ∈ ys.head?, isWordPart c = false) :
    splitFraction (cs ++ ys) = ((splitFraction cs).1, (splitFraction cs).2 ++ ys) := by
  have hdigit : ∀ c ∈ ys.head?, c.isDigit = false := fun c hc => isDigit_of_not_isWordPart (hy c hc)
  have hpoint : ys.head? ≠ some '.' := fun hp => absurd (hy '.' hp) (by decide)
  cases cs with
  | nil => exact splitFraction_of_head_ne hpoint
  | cons c cs =>
    by_cases hc : c = '.'
    · subst hc
      cases cs with
      | nil =>
        cases ys with
        | nil => rfl
        | cons d ys => simp [splitFraction, hdigit d rfl]
      | cons d cs =>
        simp only [List.cons_append, splitFraction, takeWhile_append_of_head hdigit,
          dropWhile_append_of_head hdigit]
        split <;> rfl
    · have hn (zs : List Char) : (c :: zs).head? ≠ some '.' := by simpa using hc
      rw [List.cons_append, splitFraction_of_head_ne (hn _), splitFraction_of_head_ne (hn _),
        List.cons_append]

/-- A token that is not an open quote is read alike when the text goes on with a stop. -/
theorem first_extend {c : Char} {cs ys : List Char} (hy : ∀ x ∈ ys.head?, isStop x = true)
    (hu : ∀ s, (first c cs).kind ≠ .unclosed s) :
    first c (cs ++ ys) = { first c cs with rest := (first c cs).rest ++ ys } := by
  have hword : ∀ x ∈ ys.head?, isWordPart x = false := fun x hx => (isStop_iff.1 (hy x hx)).1
  have hdigit : ∀ x ∈ ys.head?, x.isDigit = false := fun x hx =>
    isDigit_of_not_isWordPart (hword x hx)
  unfold first at hu ⊢
  split
  next hq =>
    rw [if_pos hq] at hu
    have hquote : ∀ x ∈ ys.head?, x ≠ c := by
      rintro x hx rfl
      obtain ⟨-, h₁, h₂⟩ := isStop_iff.1 (hy x hx)
      exact hq.elim h₁ h₂
    unfold ofQuote at hu ⊢
    cases hs : Quoted.scan c cs with
    | mk content tail =>
      cases tail with
      | none =>
        simp only [hs] at hu
        exact absurd rfl (hu _)
      | some rest => simp only [Quoted.scan_append hquote hs]
  next hq =>
    split
    next hd =>
      simp only [ofNumber, ← List.cons_append, takeWhile_append_of_head hdigit,
        dropWhile_append_of_head hdigit, splitFraction_extend hword]
    next hd =>
      split
      next hw =>
        simp only [ofWord, ← List.cons_append, takeWhile_append_of_head hword,
          dropWhile_append_of_head hword]
      next => rfl

/-- A stop is a mark, which is read alike whatever follows it. -/
theorem first_of_isStop {c : Char} (h : isStop c = true) (ys : List Char) :
    first c ys = ⟨.ofMark c, [c], ys⟩ := by
  obtain ⟨hw, hq⟩ := isStop_iff.1 h
  have hd : ¬c.isDigit = true := by simp [isDigit_of_not_isWordPart hw]
  have hs : isWordStart c ≠ true := fun hs => by simp [isWordPart_of_isWordStart hs] at hw
  rw [first, if_neg (not_or.2 hq), if_neg hd, if_neg hs]

end Lexeme

def TokenKind.IsWrittenAs : TokenKind → List Char → Prop
  | word s, cs => cs = s.toList
  | number s, cs => cs = s.toList
  | quoted s, cs => ∃ quote, (quote = '\x27' ∨ quote = '"') ∧ cs = Quoted.encode quote s.toList
  | unclosed s, cs => ∃ quote, (quote = '\x27' ∨ quote = '"') ∧ cs = quote :: Quoted.doubled quote s.toList
  | kind, cs => ∃ c, kind = ofMark c ∧ cs = [c]

theorem TokenKind.isWrittenAs_ofMark (c : Char) : (ofMark c).IsWrittenAs [c] := by
  unfold ofMark
  repeat' split
  all_goals exact ⟨c, by simp_all [ofMark], rfl⟩

namespace Lexeme

theorem isWrittenAs_first (c : Char) (cs : List Char) : (first c cs).kind.IsWrittenAs (first c cs).source := by
  unfold first
  split
  next hq =>
    unfold ofQuote
    split
    next => exact ⟨c, hq, by rw [String.toList_ofList]⟩
    next => exact ⟨c, hq, by rw [String.toList_ofList]⟩
  next =>
    split
    next => exact String.toList_ofList.symm
    next =>
      split
      next => exact String.toList_ofList.symm
      next => exact TokenKind.isWrittenAs_ofMark c

theorem source_eq_of_kind_eq_word {c : Char} {cs : List Char} {s : String}
    (h : (first c cs).kind = .word s) : (first c cs).source = s.toList := by
  have hw := isWrittenAs_first c cs
  rwa [h] at hw

end Lexeme

structure Piece where
  gap : List Char
  source : List Char
  kind : TokenKind

namespace Piece

def chars (p : Piece) : List Char := p.gap ++ p.source

structure Sound (p : Piece) : Prop where
  gap_isSpace : ∀ c ∈ p.gap, isSpace c = true
  first_eq : ∃ c cs, p.source = c :: cs ∧ isSpace c = false ∧
    Lexeme.first c cs = ⟨p.kind, p.source, []⟩
  kind_ne_unclosed : ∀ s, p.kind ≠ .unclosed s

def Stops (ys : List Char) : Prop := ∀ x ∈ ys.head?, isStop x = true

def EndsBefore (p : Piece) (ys : List Char) : Prop := (∃ c, p.source = [c] ∧ isStop c = true) ∨ Stops ys

def ReadsBefore (p : Piece) (ys : List Char) : Prop := ∃ c cs, p.source = c :: cs ∧ isSpace c = false ∧
  Lexeme.first c (cs ++ ys) = ⟨p.kind, p.source, ys⟩

theorem Sound.readsBefore {p : Piece} (h : p.Sound) {ys : List Char} (hy : p.EndsBefore ys) :
    p.ReadsBefore ys := by
  obtain ⟨c, cs, hs, hspace, hf⟩ := h.first_eq
  refine ⟨c, cs, hs, hspace, ?_⟩
  rcases hy with ⟨x, hx, hstop⟩ | hy
  · obtain ⟨rfl, rfl⟩ := List.cons.inj (hs.symm.trans hx)
    rw [Lexeme.first_of_isStop hstop] at hf
    have hkind : TokenKind.ofMark c = p.kind := congrArg Lexeme.kind hf
    rw [List.nil_append, Lexeme.first_of_isStop hstop, hkind, hx]
  · rw [Lexeme.first_extend hy fun s => by rw [hf]; exact h.kind_ne_unclosed s, hf]
    rfl

def textOf (ps : List Piece) : List Char := ps.flatMap chars

@[simp] theorem textOf_nil : textOf [] = [] := rfl

@[simp] theorem textOf_cons (p : Piece) (ps : List Piece) :
    textOf (p :: ps) = p.gap ++ (p.source ++ textOf ps) := by
  simp [textOf, chars]

@[simp] theorem textOf_append (ps qs : List Piece) : textOf (ps ++ qs) = textOf ps ++ textOf qs :=
  List.flatMap_append

/-- Each piece is sound and ends where the next one or the text after all of them begins. -/
def Spelled (ys : List Char) : List Piece → Prop
  | [] => True
  | p :: ps => p.Sound ∧ p.EndsBefore (textOf ps ++ ys) ∧ Spelled ys ps

def Reads (ys : List Char) : List Piece → Prop
  | [] => True
  | p :: ps => (∀ c ∈ p.gap, isSpace c = true) ∧ p.ReadsBefore (textOf ps ++ ys) ∧ Reads ys ps

theorem Spelled.reads {ys : List Char} {ps : List Piece} (h : Spelled ys ps) : Reads ys ps := by
  induction ps with
  | nil => trivial
  | cons p ps ih => exact ⟨h.1.gap_isSpace, h.1.readsBefore h.2.1, ih h.2.2⟩

theorem reads_append {ys : List Char} {ps qs : List Piece} :
    Reads ys (ps ++ qs) ↔ Reads (textOf qs ++ ys) ps ∧ Reads ys qs := by
  induction ps with
  | nil => simp [Reads]
  | cons p ps ih => simp [Reads, ih, and_assoc]

theorem spelled_append {ys : List Char} {ps qs : List Piece} :
    Spelled ys (ps ++ qs) ↔ Spelled (textOf qs ++ ys) ps ∧ Spelled ys qs := by
  induction ps with
  | nil => simp [Spelled]
  | cons p ps ih => simp [Spelled, ih, and_assoc]

def place (position : Nat) : List Piece → List Token
  | [] => []
  | p :: ps =>
    let start := position + byteLength p.gap
    let stop := start + byteLength p.source
    ⟨p.kind, start, stop⟩ :: place stop ps

theorem place_cons (position : Nat) (p : Piece) (ps : List Piece) : place position (p :: ps) =
    ⟨p.kind, position + byteLength p.gap, position + byteLength p.gap + byteLength p.source⟩ ::
      place (position + byteLength p.gap + byteLength p.source) ps :=
  rfl

theorem tokensFrom_gap {gap : List Char} (h : ∀ c ∈ gap, isSpace c = true) (position : Nat)
    (cs : List Char) : tokensFrom position (gap ++ cs) = tokensFrom (position + byteLength gap) cs := by
  induction gap generalizing position with
  | nil => rfl
  | cons c gap ih =>
    obtain ⟨hc, hgap⟩ := List.forall_mem_cons.1 h
    rw [List.cons_append, tokensFrom, if_pos hc, ih hgap, byteLength_cons, Nat.add_assoc]

/-- Pieces are read as their tokens, whatever the text after them is. -/
theorem tokensFrom_textOf {ys : List Char} {ps : List Piece} (h : Reads ys ps) (position : Nat) :
    tokensFrom position (textOf ps ++ ys) =
      place position ps ++ tokensFrom (position + byteLength (textOf ps)) ys := by
  induction ps generalizing position with
  | nil => rfl
  | cons p ps ih =>
    obtain ⟨hgap, ⟨c, cs, hs, hspace, hf⟩, hps⟩ := h
    rw [textOf_cons, List.append_assoc, tokensFrom_gap hgap, List.append_assoc, hs,
      List.cons_append, tokensFrom, if_neg (by simp [hspace]), hf]
    dsimp only
    rw [ih hps, place]
    simp only [byteLength_append, byteLength_cons, List.cons_append, Nat.add_assoc, hs]

theorem tokensFrom_eq_nil {cs : List Char} (h : ∀ c ∈ cs, isSpace c = true) (position : Nat) :
    tokensFrom position cs = [] := by
  have hcs := tokensFrom_gap h position []
  rwa [List.append_nil, tokensFrom] at hcs

theorem tokensFrom_eq_place {ys : List Char} {ps : List Piece} (h : Reads ys ps)
    (hy : ∀ c ∈ ys, isSpace c = true) (position : Nat) :
    tokensFrom position (textOf ps ++ ys) = place position ps := by
  rw [tokensFrom_textOf h, tokensFrom_eq_nil hy, List.append_nil]

theorem tokenize_ofList {ps : List Piece} (h : Reads [] ps) :
    tokenize (String.ofList (textOf ps)) = place 0 ps := by
  have ht := tokensFrom_eq_place h (List.forall_mem_nil _) 0
  rw [tokenize, String.toList_ofList]
  rwa [List.append_nil] at ht

theorem place_append (position : Nat) (ps qs : List Piece) :
    place position (ps ++ qs) = place position ps ++ place (position + byteLength (textOf ps)) qs := by
  induction ps generalizing position with
  | nil => rfl
  | cons p ps ih => simp [place, ih, byteLength_append, Nat.add_assoc]

@[simp] theorem map_kind_place (position : Nat) (ps : List Piece) :
    (place position ps).map (·.kind) = ps.map kind := by
  induction ps generalizing position with
  | nil => rfl
  | cons p ps ih => simp [place, ih]

theorem exists_kind_of_mem_place {position : Nat} {ps : List Piece} {t : Token}
    (h : t ∈ place position ps) : ∃ p ∈ ps, p.kind = t.kind := by
  have ht : t.kind ∈ (place position ps).map (·.kind) := List.mem_map_of_mem h
  rw [map_kind_place] at ht
  exact List.mem_map.1 ht

end Piece
end TableQuery
