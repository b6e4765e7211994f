import TableQuery.Proofs.Spelling
import TableQuery.Query.Printing

/-! # The pieces of a query text

Words, marks, numbers and literals, and lists of them behind commas. All but the first piece of a text
begin with a stop, so that they can be put one after another.
-/
namespace TableQuery
open Text

def IsIdentifier (w : String) : Prop := (tokenize w).map (·.kind) = [.word w]

instance (w : String) : Decidable (IsIdentifier w) := inferInstanceAs (Decidable (_ = _))

theorem length_le_of_mem_tokensFrom {position : Nat} {cs : List Char} {t : Token} {s : String}
    (ht : t ∈ tokensFrom position cs) (hs : t.kind = .word s) : s.toList.length ≤ cs.length := by
  induction position, cs using tokensFrom.induct with
  | case1 => simp [tokensFrom] at ht
  | case2 position c cs hc ih =>
    rw [tokensFrom, if_pos hc] at ht
    exact Nat.le_succ_of_le (ih ht)
  | case3 position c cs hc lexeme stop ih =>
    have happ := congrArg List.length (Lexeme.first_append c cs)
    rw [List.length_append] at happ
    rw [tokensFrom, if_neg hc] at ht
    rcases List.mem_cons.1 ht with rfl | ht
    · have hl := congrArg List.length (Lexeme.source_eq_of_kind_eq_word hs)
      omega
    · have hl := ih ht
      change s.toList.length ≤ (Lexeme.first c cs).rest.length at hl
      omega

theorem IsIdentifier.first_eq {w : String} (h : IsIdentifier w) : ∃ c cs, w.toList = c :: cs ∧
    isSpace c = false ∧ Lexeme.first c cs = ⟨.word w, w.toList, []⟩ := by
  unfold IsIdentifier tokenize at h
  cases hw : w.toList with
  | nil => simp [hw, tokensFrom] at h
  | cons c cs =>
    rw [hw, tokensFrom] at h
    by_cases hc : isSpace c = true
    · rw [if_pos hc] at h
      obtain ⟨t, ht, hkind⟩ := List.map_eq_singleton_iff.1 h
      have hmem : t ∈ tokensFrom (0 + c.utf8Size) cs := by
        rw [ht]
        exact List.mem_singleton_self t
      have hlen := length_le_of_mem_tokensFrom hmem hkind
      rw [hw, List.length_cons] at hlen
      omega
    · rw [if_neg hc] at h
      have hkind : (Lexeme.first c cs).kind = .word w := (List.cons.inj h).1
      have hsource := Lexeme.source_eq_of_kind_eq_word hkind
      have happ := Lexeme.first_append c cs
      have hrest : (Lexeme.first c cs).rest = [] := by
        rw [hsource, hw] at happ
        exact List.append_right_eq_self.1 happ
      refine ⟨c, cs, rfl, by simpa using hc, ?_⟩
      rw [← hw, ← hkind, ← hsource, ← hrest]

def IsLettered (w : String) : Prop := w ≠ "" ∧ ∀ c ∈ w.toList, c.toLower.isAlpha = true

instance (w : String) : Decidable (IsLettered w) :=
  have : Decidable (∀ c ∈ w.toList, c.toLower.isAlpha = true) := List.decidableBAll _ _
  inferInstanceAs (Decidable (_ ∧ _))

theorem isAlpha_of_isAlpha_toLower {c : Char} (h : c.toLower.isAlpha = true) : c.isAlpha = true := by
  unfold Char.toLower at h
  split at h
  next hupper =>
    have hc : c.isUpper = true := decide_eq_true hupper
    exact Bool.or_eq_true_iff.2 (.inl hc)
  next => exact h

theorem toNat_lt_of_isAlpha {c : Char} (h : c.isAlpha = true) : c.toNat < 128 := by
  rcases Bool.or_eq_true_iff.1 h with hupper | hlower
  · have hle : c.toNat ≤ 90 := (of_decide_eq_true hupper).2
    omega
  · have hle : c.toNat ≤ 122 := of_decide_eq_true (Bool.and_eq_true_iff.1 (hlower : (_ && _) = true)).2
    omega

theorem Lexeme.isWordStart_of_isAlpha {c : Char} (h : c.isAlpha = true) :
    isWordStart c = true ∧ c.isDigit = false ∧ isSpace c = false := by
  have hascii : ∀ n < 128, (Char.ofNat n).isAlpha = true → isWordStart (Char.ofNat n) = true ∧
      (Char.ofNat n).isDigit = false ∧ isSpace (Char.ofNat n) = false := by decide +kernel
  have hc := hascii c.toNat (toNat_lt_of_isAlpha h)
  rw [Char.ofNat_toNat] at hc
  exact hc h

/-- Letters are read as a word up to where no word goes on. -/
theorem Lexeme.first_of_isAlpha {c : Char} {cs ys : List Char} (halpha : ∀ x ∈ c :: cs, x.isAlpha = true)
    (hy : ∀ x ∈ ys.head?, isWordPart x = false) :
    first c (cs ++ ys) = ⟨.word (String.ofList (c :: cs)), c :: cs, ys⟩ := by
  have hparts : ∀ x ∈ c :: cs, isWordPart x = true := fun x hx =>
    isWordPart_of_isWordStart (isWordStart_of_isAlpha (halpha x hx)).1
  obtain ⟨hstart, hdigit, -⟩ := isWordStart_of_isAlpha (halpha c List.mem_cons_self)
  have hquote : ¬(c = '\x27' ∨ c = '"') := by
    rintro (rfl | rfl) <;> exact absurd hstart (by decide)
  rw [first, if_neg hquote, if_neg (Bool.eq_false_iff.1 hdigit), if_pos hstart, ofWord, ← List.cons_append,
    takeWhile_run hparts hy, dropWhile_run hparts hy]

theorem IsLettered.isIdentifier {w : String} (h : IsLettered w) : IsIdentifier w := by
  obtain ⟨hne, hletters⟩ := h
  have halpha : ∀ c ∈ w.toList, c.isAlpha = true := fun c hc => isAlpha_of_isAlpha_toLower (hletters c hc)
  unfold IsIdentifier tokenize
  cases hw : w.toList with
  | nil => exact absurd (String.toList_eq_nil_iff.1 hw) hne
  | cons c cs =>
    rw [hw] at halpha
    have hspace := (Lexeme.isWordStart_of_isAlpha (halpha c List.mem_cons_self)).2.2
    have hfirst := Lexeme.first_of_isAlpha halpha (nofun : ∀ x ∈ ([] : List Char).head?, _)
    rw [List.append_nil, ← hw, String.ofList_toList] at hfirst
    simp [tokensFrom, hspace, hfirst]

namespace Piece

def word (w : String) : Piece := ⟨[' '], w.toList, .word w⟩
def mark (gap : List Char) (c : Char) : Piece := ⟨gap, [c], .ofMark c⟩
def quoted (gap : List Char) (s : String) : Piece := ⟨gap, literal s, .quoted s⟩
def number (n : Nat) : Piece := ⟨[' '], Nat.toDigits 10 n, .number (String.ofList (Nat.toDigits 10 n))⟩

theorem isSpace_of_mem_space : ∀ c ∈ [' '], isSpace c = true := by
  intro c hc
  rw [List.mem_singleton.1 hc]
  decide

theorem sound_word {gap : List Char} (hgap : ∀ c ∈ gap, isSpace c = true) {w : String}
    (h : IsIdentifier w) : Sound ⟨gap, w.toList, .word w⟩ where
  gap_isSpace := hgap
  first_eq := h.first_eq
  kind_ne_unclosed _ := TokenKind.noConfusion

theorem sound_mark {gap : List Char} {c : Char} (hgap : ∀ x ∈ gap, isSpace x = true)
    (hspace : isSpace c = false) (hstop : isStop c = true) (hkind : ∀ s, TokenKind.ofMark c ≠ .unclosed s) :
    (mark gap c).Sound :=
  ⟨hgap, ⟨c, [], rfl, hspace, Lexeme.first_of_isStop hstop []⟩, hkind⟩

theorem sound_quoted {gap : List Char} (hgap : ∀ c ∈ gap, isSpace c = true) (s : String) :
    (quoted gap s).Sound where
  gap_isSpace := hgap
  first_eq := by
    refine ⟨'\x27', Quoted.doubled '\x27' s.toList ++ ['\x27'], rfl, by decide, ?_⟩
    have hs : Quoted.scan '\x27' (Quoted.doubled '\x27' s.toList ++ ['\x27']) = (s.toList, some []) :=
      Quoted.scan_doubled (by simp) s.toList
    rw [Lexeme.first, if_pos (.inl rfl), Lexeme.ofQuote, hs]
    simp [quoted, literal]
  kind_ne_unclosed _ := TokenKind.noConfusion

theorem sound_number (n : Nat) : (number n).Sound where
  gap_isSpace := isSpace_of_mem_space
  first_eq := by
    have hall : ∀ c ∈ Nat.toDigits 10 n, c.isDigit = true := fun c hc =>
      Nat.isDigit_of_mem_toDigits (by decide) (by decide) hc
    cases hd : Nat.toDigits 10 n with
    | nil => exact absurd hd Nat.toDigits_ne_nil
    | cons c cs =>
      rw [hd] at hall
      have hc : c.isDigit = true := hall c List.mem_cons_self
      have hquote : ¬(c = '\x27' ∨ c = '"') := by
        rintro (rfl | rfl) <;> revert hc <;> decide
      refine ⟨c, cs, hd, isSpace_of_isDigit hc, ?_⟩
      rw [Lexeme.first, if_neg hquote, if_pos hc, Lexeme.ofNumber, takeWhile_eq_self hall,
        dropWhile_eq_nil hall]
      simp [number, hd, Lexeme.splitFraction]
  kind_ne_unclosed _ := TokenKind.noConfusion

def Opens (p : Piece) : Prop := ∃ c cs, p.chars = c :: cs ∧ isStop c = true

/-- The pieces can stand behind any piece and before any stop. -/
structure Readable (ps : List Piece) : Prop where
  spelled : ∀ ys, Stops ys → Spelled ys ps
  stops : ∀ ys, Stops ys → Stops (textOf ps ++ ys)

theorem readable_nil : Readable [] := ⟨fun _ _ => trivial, fun _ h => h⟩

theorem Readable.append {ps qs : List Piece} (hp : Readable ps) (hq : Readable qs) :
    Readable (ps ++ qs) where
  spelled ys hy := spelled_append.2 ⟨hp.spelled _ (hq.stops ys hy), hq.spelled ys hy⟩
  stops ys hy := by
    rw [textOf_append, List.append_assoc]
    exact hp.stops _ (hq.stops ys hy)

theorem Opens.stops {p : Piece} (h : p.Opens) (ps : List Piece) (ys : List Char) :
    Stops (textOf (p :: ps) ++ ys) := by
  obtain ⟨c, cs, hc, hstop⟩ := h
  rw [chars] at hc
  rw [textOf_cons, ← List.append_assoc, hc]
  intro x hx
  cases hx
  exact hstop

theorem Sound.readable {p : Piece} (hp : p.Sound) (ho : p.Opens) : Readable [p] where
  spelled _ hy := ⟨hp, .inr hy, trivial⟩
  stops _ _ := ho.stops [] _

/-- Behind a mark no space is needed. -/
theorem Sound.readable_behind_mark {gap : List Char} {c : Char} {p : Piece} (hp : p.Sound)
    (hm : (mark gap c).Sound) (ho : (mark gap c).Opens) (hc : isStop c = true) :
    Readable [mark gap c, p] where
  spelled _ hy := ⟨hm, .inl ⟨c, rfl, hc⟩, hp, .inr hy, trivial⟩
  stops _ _ := ho.stops [p] _

theorem readable_flatMap {α : Type} {f : α → List Piece} {xs : List α} (h : ∀ x ∈ xs, Readable (f x)) :
    Readable (xs.flatMap f) := by
  induction xs with
  | nil => exact readable_nil
  | cons x xs ih =>
    obtain ⟨hx, hrest⟩ := List.forall_mem_cons.1 h
    rw [List.flatMap_cons]
    exact hx.append (ih hrest)

theorem readable_map {α : Type} {f : α → Piece} {xs : List α} (h : ∀ x ∈ xs, Readable [f x]) :
    Readable (xs.map f) := by
  rw [List.map_eq_flatMap]
  exact readable_flatMap h

theorem opens_of_space (source : List Char) (kind : TokenKind) : Opens ⟨[' '], source, kind⟩ :=
  ⟨' ', source, rfl, by decide⟩

def comma : Piece := mark [] ','

def listed (p : Piece) (ps : List Piece) : List Piece := p :: ps.flatMap fun q => [comma, q]

theorem mem_listed {p : Piece} {ps : List Piece} {q : Piece} (h : q ∈ listed p ps) :
    q = comma ∨ q ∈ p :: ps := by
  rcases List.mem_cons.1 h with rfl | h
  · exact .inr List.mem_cons_self
  · obtain ⟨r, hr, hq⟩ := List.mem_flatMap.1 h
    rcases List.mem_cons.1 hq with rfl | hq
    · exact .inl rfl
    · rw [List.mem_singleton.1 hq]
      exact .inr (List.mem_cons_of_mem p hr)

theorem textOf_listed (p : Piece) (ps : List Piece) :
    textOf (listed p ps) = p.chars ++ ps.flatMap fun q => ',' :: q.chars := by
  have hps : textOf (ps.flatMap fun q => [comma, q]) = ps.flatMap fun q => ',' :: q.chars := by
    rw [textOf, List.flatMap_assoc]
    simp [chars, comma, mark]
  rw [listed, textOf_cons, ← List.append_assoc, hps, chars]

theorem readable_comma : Readable [comma] :=
  (sound_mark (by simp) (by decide) (by decide) fun _ => TokenKind.noConfusion).readable
    ⟨',', [], rfl, by decide⟩

theorem readable_later {ps : List Piece} (h : ∀ p ∈ ps, Readable [p]) :
    Readable (ps.flatMap fun p => [comma, p]) :=
  readable_flatMap fun p hp => readable_comma.append (h p hp)

theorem readable_listed {p : Piece} {ps : List Piece} (h : ∀ q ∈ p :: ps, Readable [q]) :
    Readable (listed p ps) :=
  (h p List.mem_cons_self).append (readable_later fun q hq => h q (List.mem_cons_of_mem p hq))

end Piece
end TableQuery
