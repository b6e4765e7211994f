import TableQuery.Proofs.Folding
import TableQuery.Proofs.SelectList
import TableQuery.Proofs.Verbatim

/-! # Commas and parentheses in a text

What splits a select list can be seen from its characters outside quotes. Folding changes none of them, so
the fold of an item is one item again.
-/
namespace TableQuery
open Text

namespace TokenKind

/-- What matters for the extent of items: a comma, a parenthesis or a quote that is not closed. -/
def delimiter? : TokenKind → Option TokenKind
  | comma => some comma
  | openParen => some openParen
  | closeParen => some closeParen
  | unclosed _ => some (unclosed "")
  | _ => none

end TokenKind

def delimiters : List Char → List TokenKind
  | [] => []
  | c :: cs =>
    if c = '\x27' ∨ c = '"' then
      match _h : Quoted.scan c cs with
      | (_, some rest) => delimiters rest
      | (_, none) => [.unclosed ""]
    else (TokenKind.ofMark c).delimiter?.toList ++ delimiters cs
termination_by cs => cs.length
decreasing_by
  · have := Quoted.length_lt_of_scan _h
    simp
    omega
  · simp

section
variable {c : Char} {cs ds rest content : List Char}

theorem delimiters_of_closed (hc : c = '\x27' ∨ c = '"') (hs : Quoted.scan c cs = (content, some rest)) :
    delimiters (c :: cs) = delimiters rest := by
  rw [delimiters, if_pos hc]
  split
  next hs' =>
    rw [hs] at hs'
    cases hs'
    rfl
  next hs' =>
    rw [hs] at hs'
    cases hs'

theorem delimiters_of_unclosed (hc : c = '\x27' ∨ c = '"') (hs : Quoted.scan c cs = (content, none)) :
    delimiters (c :: cs) = [.unclosed ""] := by
  rw [delimiters, if_pos hc]
  split
  next hs' =>
    rw [hs] at hs'
    cases hs'
  next => rfl

theorem delimiters_cons (hc : ¬(c = '\x27' ∨ c = '"')) (cs : List Char) :
    delimiters (c :: cs) = (TokenKind.ofMark c).delimiter?.toList ++ delimiters cs := by
  rw [delimiters, if_neg hc]

theorem isSeparator_of_isQuote (hc : c = '\x27' ∨ c = '"') : isSeparator c = true := by
  rcases hc with rfl | rfl <;> decide

theorem ne_of_not_isSeparator (h : isSeparator c = false) {d : Char} (hd : isSeparator d = true) : c ≠ d := by
  rintro rfl
  rw [hd] at h
  cases h

theorem delimiters_cons_of_ne (hc : ∀ d ∈ ['\x27', '"', ',', '(', ')'], c ≠ d) (cs : List Char) :
    delimiters (c :: cs) = delimiters cs := by
  have hquote : ¬(c = '\x27' ∨ c = '"') := not_or.2 ⟨hc _ (by simp), hc _ (by simp)⟩
  have hmark : (TokenKind.ofMark c).delimiter? = none := by
    unfold TokenKind.ofMark
    rw [if_neg (hc ',' (by simp)), if_neg (hc '(' (by simp)), if_neg (hc ')' (by simp))]
    repeat' split
    all_goals rfl
  rw [delimiters_cons hquote, hmark]
  rfl

theorem delimiters_append_of_not_isSeparator (h : ∀ d ∈ ds, isSeparator d = false) (cs : List Char) :
    delimiters (ds ++ cs) = delimiters cs := by
  induction ds with
  | nil => rfl
  | cons d ds ih =>
    obtain ⟨hd, hds⟩ := List.forall_mem_cons.1 h
    have hmarks : ∀ x ∈ ['\x27', '"', ',', '(', ')'], isSeparator x = true :=
      List.all_eq_true.1 (by decide)
    rw [List.cons_append, delimiters_cons_of_ne (fun x hx => ne_of_not_isSeparator hd (hmarks x hx)), ih hds]

theorem not_isSeparator_of_isWordPart (h : Lexeme.isWordPart c = true) : isSeparator c = false := by
  rw [Bool.eq_false_iff]
  intro hs
  obtain ⟨r, hr, hc⟩ := inRanges_iff.1 hs
  rcases List.mem_append.1 hr with hr | hr
  · have hstop := isStop_of_isSpace (inRanges_iff.2 ⟨r, hr, hc⟩)
    rw [(isStop_iff.1 hstop).1] at h
    cases h
  · have hmarks : ∀ r ∈ [(0x22, 0x22), (0x27, 0x2A), (0x2C, 0x2C)], ∀ i < r.2 + 1 - r.1,
        Lexeme.isWordPart (Char.ofNat (r.1 + i)) = false := by decide +kernel
    have hword := hmarks r hr (c.toNat - r.1) (by omega)
    rw [Nat.add_sub_cancel' hc.1, Char.ofNat_toNat, h] at hword
    cases hword

end

namespace Lexeme

theorem isWordPart_of_mem_ofNumber {cs : List Char} :
    ∀ c ∈ (ofNumber cs).source, isWordPart c = true := by
  have hdigit : ∀ ds : List Char, (∀ d ∈ ds, d.isDigit = true) → ∀ d ∈ ds, isWordPart d = true :=
    fun ds h d hd => isWordPart_of_isDigit (h d hd)
  have hsource : (ofNumber cs).source =
      cs.takeWhile Char.isDigit ++ (splitFraction (cs.dropWhile Char.isDigit)).1 := rfl
  rw [hsource]
  refine List.forall_mem_append.2 ⟨hdigit _ (forall_mem_takeWhile _ _), ?_⟩
  rcases splitFraction_cases (cs.dropWhile Char.isDigit) with hs | ⟨ds, rest, -, hd, -, -, hs⟩
  · rw [hs]
    exact List.forall_mem_nil _
  · rw [hs]
    exact List.forall_mem_cons.2 ⟨by decide, hdigit ds hd⟩

/-- The delimiters of a text are that of its first token and those of the rest. -/
theorem delimiters_first {c : Char} {cs : List Char} :
    delimiters (c :: cs) = (first c cs).kind.delimiter?.toList ++ delimiters (first c cs).rest := by
  have hrun (lexeme : Lexeme) (happ : lexeme.source ++ lexeme.rest = c :: cs)
      (hword : ∀ x ∈ lexeme.source, isWordPart x = true) :
      delimiters (c :: cs) = delimiters lexeme.rest := by
    rw [← happ]
    exact delimiters_append_of_not_isSeparator (fun x hx => not_isSeparator_of_isWordPart (hword x hx)) _
  unfold first
  split
  next hq =>
    unfold ofQuote
    cases hs : Quoted.scan c cs with
    | mk content tail =>
      cases tail with
      | none =>
        rw [delimiters_of_unclosed hq hs, delimiters]
        rfl
      | some rest =>
        rw [delimiters_of_closed hq hs]
        rfl
  next hq =>
    split
    next => exact hrun _ (ofNumber_append _) isWordPart_of_mem_ofNumber
    next =>
      split
      next => exact hrun _ (ofWord_append _) (forall_mem_takeWhile _ _)
      next => exact delimiters_cons hq cs

end Lexeme

theorem filterMap_delimiter?_kinds (cs : List Char) :
    (kinds cs).filterMap TokenKind.delimiter? = delimiters cs := by
  unfold kinds
  induction 0, cs using tokensFrom.induct with
  | case1 =>
    rw [tokensFrom, delimiters]
    rfl
  | case2 position c cs hc ih =>
    have hmarks : ∀ x ∈ ['\x27', '"', ',', '(', ')'], (!isSpace x) = true :=
      List.all_eq_true.1 (by decide)
    have hne : ∀ x ∈ ['\x27', '"', ',', '(', ')'], c ≠ x := by
      rintro x hx rfl
      have hspace := hmarks c hx
      rw [hc] at hspace
      cases hspace
    rw [tokensFrom, if_pos hc, delimiters_cons_of_ne hne, ih]
  | case3 position c cs hc lexeme stop ih =>
    rw [tokensFrom, if_neg hc, Lexeme.delimiters_first, ← ih, List.map_cons]
    dsimp only
    cases hk : (Lexeme.first c cs).kind.delimiter? with
    | none => rw [List.filterMap_cons_none hk]; rfl
    | some k => rw [List.filterMap_cons_some hk]; rfl

section
variable {quote : Char} {cs : List Char}

theorem Text.Quoted.scan_append_of_ne {ds : List Char} (h : ∀ d ∈ ds, d ≠ quote) (cs : List Char) :
    Quoted.scan quote (ds ++ cs) = (ds ++ (Quoted.scan quote cs).1, (Quoted.scan quote cs).2) := by
  induction ds with
  | nil => rfl
  | cons d ds ih =>
    obtain ⟨hd, hds⟩ := List.forall_mem_cons.1 h
    rw [List.cons_append, Quoted.scan.eq_def]
    simp [hd, ih hds]

theorem exists_foldAfter_cons_of_ne {c : Char} (hq : isSeparator quote = true) (hc : c ≠ quote)
    (before cs : List Char) : ∃ d ds, (∀ x ∈ d :: ds, x ≠ quote) ∧
      foldAfter before (c :: cs) = d :: ds ++ foldAfter (c :: before) cs :=
  exists_foldAfter_cons_of_forall (fun _ hx => ne_of_not_isSeparator hx hq) hc before cs

/-- A quoted text ends at the same quote when it is folded. -/
theorem scan_foldAfter (hq : isSeparator quote = true) (before cs : List Char) :
    ∃ content before', Quoted.scan quote (foldAfter before cs) =
      (content, (Quoted.scan quote cs).2.map (foldAfter before')) := by
  have hquote := fun before cs => foldAfter_cons_of_isSeparator hq before cs
  induction cs using Quoted.scan.induct quote generalizing before with
  | case1 => exact ⟨[], [], rfl⟩
  | case2 =>
    refine ⟨[], [], ?_⟩
    rw [hquote]
    simp [foldAfter, Quoted.scan]
  | case3 rest ih =>
    obtain ⟨content, before', hscan⟩ := ih (quote :: quote :: before)
    refine ⟨quote :: content, before', ?_⟩
    rw [hquote, hquote]
    simp [Quoted.scan, hscan]
  | case4 d rest hd =>
    obtain ⟨x, xs, hx, hfold⟩ := exists_foldAfter_cons_of_ne hq hd (quote :: before) rest
    refine ⟨[], quote :: before, ?_⟩
    rw [hquote, hfold, List.cons_append]
    simp [Quoted.scan, hd, hx x List.mem_cons_self, hfold]
  | case5 c cs hc ih =>
    obtain ⟨x, xs, hx, hfold⟩ := exists_foldAfter_cons_of_ne hq hc before cs
    obtain ⟨content, before', hscan⟩ := ih (c :: before)
    refine ⟨x :: xs ++ content, before', ?_⟩
    rw [hfold, Quoted.scan_append_of_ne hx, hscan, Quoted.scan.eq_def quote (c :: cs)]
    simp [hc]

/-- Folding keeps the delimiters of a text. -/
theorem delimiters_foldAfter (before cs : List Char) :
    delimiters (foldAfter before cs) = delimiters cs := by
  induction cs using delimiters.induct generalizing before with
  | case1 => rfl
  | case2 c cs hq content rest hs ih =>
    have hsep := isSeparator_of_isQuote hq
    obtain ⟨content', before', hscan⟩ := scan_foldAfter hsep (c :: before) cs
    rw [hs] at hscan
    rw [foldAfter_cons_of_isSeparator hsep, delimiters_of_closed hq hscan, delimiters_of_closed hq hs, ih]
  | case3 c cs hq content hs =>
    have hsep := isSeparator_of_isQuote hq
    obtain ⟨content', before', hscan⟩ := scan_foldAfter hsep (c :: before) cs
    rw [hs] at hscan
    rw [foldAfter_cons_of_isSeparator hsep, delimiters_of_unclosed hq hscan, delimiters_of_unclosed hq hs]
  | case4 c cs hq ih =>
    cases hsep : isSeparator c with
    | true => rw [foldAfter_cons_of_isSeparator hsep, delimiters_cons hq, delimiters_cons hq, ih]
    | false =>
      obtain ⟨d, ds, hds, hfold⟩ := exists_foldAfter_cons_of_not_isSeparator hsep before cs
      rw [hfold, delimiters_append_of_not_isSeparator hds, ih, ← List.singleton_append,
        delimiters_append_of_not_isSeparator (List.forall_mem_singleton.2 hsep)]

theorem filterMap_delimiter?_kinds_fold (s : String) :
    (kinds (fold s).toList).filterMap TokenKind.delimiter? =
      (kinds s.toList).filterMap TokenKind.delimiter? := by
  rw [toList_fold, filterMap_delimiter?_kinds, filterMap_delimiter?_kinds]
  exact delimiters_foldAfter [] s.toList

end
end TableQuery
