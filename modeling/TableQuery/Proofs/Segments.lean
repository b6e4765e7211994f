import Mathlib.Data.List.Forall2
import TableQuery.Query.Parsing

/-! # Statements put together from clauses

A statement is split into the clauses that it is put together from, if outside parentheses their bodies
hold no keywords but those of clauses that have begun, and if all but the last one close every
parenthesis.
-/
namespace TableQuery

theorem TokenKind.isKeyword_of_isKeyword {kind : TokenKind} {v : String} (h : kind.isKeyword v = true)
    (w : String) : kind.isKeyword w = Text.eqIgnoreAsciiCase v w := by
  cases kind with
  | word s =>
    have hs : s.toList.map Char.toLower = v.toList.map Char.toLower := by
      simpa [isKeyword, Text.eqIgnoreAsciiCase] using h
    rw [isKeyword, Text.eqIgnoreAsciiCase, hs, Text.eqIgnoreAsciiCase]
  | _ => simp [isKeyword] at h

theorem depthAfter_of_isKeyword {t : Token} {v : String} (h : t.kind.isKeyword v = true) (depth : Nat) :
    depthAfter depth t = depth := by
  unfold depthAfter
  cases hk : t.kind <;> simp_all [TokenKind.isKeyword]

theorem depthAfter_of_not_isParen {t : Token} (h : t.kind.isParen = false) (depth : Nat) :
    depthAfter depth t = depth := by
  unfold depthAfter
  cases hk : t.kind <;> simp_all [TokenKind.isParen]

def NotBy (ys : List Token) : Prop := ys.head?.any (·.kind.isKeyword "BY") = false

theorem ClauseKind.ofTokens?_append {t : Token} {xs ys : List Token} (hy : NotBy ys) :
    ofTokens? t (xs ++ ys) = ofTokens? t xs := by
  have hhead : (xs ++ ys).head?.any (·.kind.isKeyword "BY") = xs.head?.any (·.kind.isKeyword "BY") := by
    cases xs with
    | nil => exact hy
    | cons x xs => rfl
  simp only [ofTokens?, hhead]

theorem clauseMarks_append {ys : List Token} (hy : NotBy ys) (xs : List Token) (depth position : Nat) :
    clauseMarks depth position (xs ++ ys) =
      clauseMarks depth position xs ++
        clauseMarks (xs.foldl depthAfter depth) (position + xs.length) ys := by
  induction xs generalizing depth position with
  | nil => rfl
  | cons x xs ih =>
    have hn : position + (x :: xs).length = position + 1 + xs.length := by
      rw [List.length_cons]
      omega
    rw [List.cons_append, clauseMarks, clauseMarks, ClauseKind.ofTokens?_append hy, ih, List.foldl_cons, hn]
    split
    · split <;> rfl
    · rfl

theorem ClauseKind.ofTokens?_congr {t u : Token} {ts us : List Token} (ht : t.kind = u.kind)
    (hts : ts.map (·.kind) = us.map (·.kind)) : ofTokens? t ts = ofTokens? u us := by
  have hhead (vs : List Token) : vs.head?.any (·.kind.isKeyword "BY") =
      (vs.map (·.kind)).head?.any (·.isKeyword "BY") := by
    cases vs <;> rfl
  simp only [ofTokens?, hhead, ht, hts]

theorem depthAfter_congr {t u : Token} (h : t.kind = u.kind) (depth : Nat) :
    depthAfter depth t = depthAfter depth u := by
  unfold depthAfter
  rw [h]

/-- Which clauses begin among tokens depends on what the tokens are. -/
theorem map_kind_clauseMarks {ts us : List Token} (h : ts.map (·.kind) = us.map (·.kind))
    (depth p q : Nat) : (clauseMarks depth p ts).map (·.kind) = (clauseMarks depth q us).map (·.kind) := by
  induction ts generalizing us depth p q with
  | nil =>
    rw [List.map_eq_nil_iff.1 h.symm]
    rfl
  | cons t ts ih =>
    cases us with
    | nil => cases h
    | cons u us =>
      obtain ⟨ht, hts⟩ := List.cons.inj h
      have hlater := ih hts (depthAfter depth t) (p + 1) (q + 1)
      rw [clauseMarks, clauseMarks, ← ClauseKind.ofTokens?_congr ht hts, ← depthAfter_congr ht]
      split
      next =>
        cases ClauseKind.ofTokens? t ts with
        | none => exact hlater
        | some kind => rw [List.map_cons, List.map_cons, hlater]
      next => exact hlater

theorem foldl_depthAfter_congr {ts us : List Token} (h : ts.map (·.kind) = us.map (·.kind))
    (depth : Nat) : ts.foldl depthAfter depth = us.foldl depthAfter depth := by
  induction ts generalizing us depth with
  | nil => rw [List.map_eq_nil_iff.1 h.symm]
  | cons t ts ih =>
    cases us with
    | nil => cases h
    | cons u us =>
      obtain ⟨ht, hts⟩ := List.cons.inj h
      rw [List.foldl_cons, List.foldl_cons, depthAfter_congr ht, ih hts]

theorem clauseMarks_eq_nil_of_eq_nil {xs : List Token} {depth p : Nat} (h : clauseMarks depth p xs = [])
    (q : Nat) : clauseMarks depth q xs = [] := by
  have hmap := @map_kind_clauseMarks xs xs rfl depth p q
  rw [h] at hmap
  exact List.map_eq_nil_iff.1 hmap.symm

/-- Tokens that no clause begins among and that leave no parenthesis open. -/
structure Quiet (ts : List Token) : Prop where
  clauseMarks_eq_nil : clauseMarks 0 0 ts = []
  depth_eq_zero : ts.foldl depthAfter 0 = 0

theorem Quiet.clauseMarks_append {xs ys : List Token} (hx : Quiet xs) (hy : NotBy ys) (position : Nat) :
    clauseMarks 0 position (xs ++ ys) = clauseMarks 0 (position + xs.length) ys := by
  rw [TableQuery.clauseMarks_append hy, clauseMarks_eq_nil_of_eq_nil hx.clauseMarks_eq_nil,
    hx.depth_eq_zero, List.nil_append]

theorem Quiet.congr {ts us : List Token} (h : Quiet ts) (hk : ts.map (·.kind) = us.map (·.kind)) :
    Quiet us := by
  have hmarks := map_kind_clauseMarks hk 0 0 0
  rw [h.clauseMarks_eq_nil] at hmarks
  refine ⟨List.map_eq_nil_iff.1 hmarks.symm, ?_⟩
  rw [← foldl_depthAfter_congr hk, h.depth_eq_zero]

theorem Quiet.append {xs ys : List Token} (hx : Quiet xs) (hy : Quiet ys) (hby : NotBy ys) :
    Quiet (xs ++ ys) := by
  constructor
  · rw [hx.clauseMarks_append hby]
    exact clauseMarks_eq_nil_of_eq_nil hy.clauseMarks_eq_nil _
  · rw [List.foldl_append, hx.depth_eq_zero, hy.depth_eq_zero]

theorem quiet_nil : Quiet [] := ⟨rfl, rfl⟩

theorem clauseMarks_cons_of_none {t : Token} {rest : List Token} (h : ClauseKind.ofTokens? t rest = none)
    (depth position : Nat) :
    clauseMarks depth position (t :: rest) = clauseMarks (depthAfter depth t) (position + 1) rest := by
  rw [clauseMarks, h]
  exact ite_self _

theorem Quiet.cons {t : Token} {rest : List Token} (h : Quiet rest)
    (ht : ClauseKind.ofTokens? t rest = none) (hp : t.kind.isParen = false) : Quiet (t :: rest) := by
  constructor
  · rw [clauseMarks_cons_of_none ht, depthAfter_of_not_isParen hp]
    exact clauseMarks_eq_nil_of_eq_nil h.clauseMarks_eq_nil 1
  · rw [List.foldl_cons, depthAfter_of_not_isParen hp, h.depth_eq_zero]

theorem foldl_depthAfter_of_not_isParen {ts : List Token} (h : ∀ t ∈ ts, t.kind.isParen = false)
    (depth : Nat) : ts.foldl depthAfter depth = depth := by
  induction ts with
  | nil => rfl
  | cons t ts ih =>
    obtain ⟨ht, hts⟩ := List.forall_mem_cons.1 h
    rw [List.foldl_cons, depthAfter_of_not_isParen ht, ih hts]

theorem clauseMarks_inside {ts : List Token} (h : ∀ t ∈ ts, t.kind.isParen = false) (depth position : Nat) :
    clauseMarks (depth + 1) position ts = [] := by
  induction ts generalizing position with
  | nil => rfl
  | cons t ts ih =>
    obtain ⟨ht, hts⟩ := List.forall_mem_cons.1 h
    rw [clauseMarks, if_neg (Nat.succ_ne_zero depth), depthAfter_of_not_isParen ht, ih hts]

/-- In parentheses any words may stand. -/
theorem quiet_parens {t u : Token} {ts : List Token} (ht : t.kind = .openParen) (hu : u.kind = .closeParen)
    (h : ∀ x ∈ ts, x.kind.isParen = false) : Quiet (t :: (ts ++ [u])) := by
  have hopen : ClauseKind.ofTokens? t (ts ++ [u]) = none := by
    simp [ClauseKind.ofTokens?, ht, TokenKind.isKeyword]
  have hdepth : depthAfter 0 t = 0 + 1 := by rw [depthAfter, ht]
  have hby : NotBy [u] := by
    rw [NotBy, List.head?_cons, Option.any_some, hu]
    rfl
  have hinside := clauseMarks_inside h 0 1
  constructor
  · rw [clauseMarks_cons_of_none hopen, hdepth, clauseMarks_append hby, hinside,
      foldl_depthAfter_of_not_isParen h, clauseMarks, if_neg (Nat.succ_ne_zero 0)]
    rfl
  · rw [List.foldl_cons, hdepth, List.foldl_append, foldl_depthAfter_of_not_isParen h, List.foldl_cons,
      List.foldl_nil, depthAfter, hu]

def ClauseKind.words : ClauseKind → List String
  | source => ["FROM"]
  | filter => ["WHERE"]
  | groupBy => ["GROUP", "BY"]
  | orderBy => ["ORDER", "BY"]
  | limit => ["LIMIT"]

structure Segment where
  kind : ClauseKind
  keyword : List Token
  body : List Token

namespace Segment

def tokens (s : Segment) : List Token := s.keyword ++ s.body

def Keyed (s : Segment) : Prop :=
  List.Forall₂ (fun t w => t.kind.isKeyword w = true) s.keyword s.kind.words

theorem Keyed.of_kinds {s : Segment} (h : List.Forall₂ (fun k w => k.isKeyword w = true)
    (s.keyword.map (·.kind)) s.kind.words) : s.Keyed :=
  List.forall₂_map_left_iff.1 h

theorem Keyed.length_keyword {s : Segment} (h : s.Keyed) : s.keyword.length = s.kind.keywordLength := by
  rw [List.Forall₂.length_eq h]
  cases s.kind <;> rfl

/-- A clause begins with its keyword, which is not BY. -/
theorem Keyed.notBy {s : Segment} (h : s.Keyed) (ys : List Token) : NotBy (s.tokens ++ ys) := by
  obtain ⟨kind, keyword, body⟩ := s
  unfold Keyed at h
  cases kind <;> cases h <;> rename_i ht _ <;>
    simp [NotBy, tokens, TokenKind.isKeyword_of_isKeyword ht] <;> decide

/-- A keyword is marked where it begins, its second word not again. -/
theorem Keyed.clauseMarks_keyword {s : Segment} (h : s.Keyed) (position : Nat) (ys : List Token) :
    clauseMarks 0 position (s.keyword ++ ys) =
      ⟨s.kind, position⟩ :: clauseMarks 0 (position + s.keyword.length) ys := by
  obtain ⟨kind, keyword, body⟩ := s
  unfold Keyed at h
  cases kind with
  | source | filter | limit =>
    rcases h with _ | ⟨ht, ⟨⟩⟩
    simp only [List.cons_append, List.nil_append, clauseMarks, ClauseKind.ofTokens?,
      depthAfter_of_isKeyword ht, TokenKind.isKeyword_of_isKeyword ht]
    rfl
  | groupBy | orderBy =>
    rcases h with _ | ⟨ht, _ | ⟨hu, ⟨⟩⟩⟩
    simp only [List.cons_append, List.nil_append, clauseMarks, ClauseKind.ofTokens?, List.head?_cons,
      Option.any_some, depthAfter_of_isKeyword ht, depthAfter_of_isKeyword hu,
      TokenKind.isKeyword_of_isKeyword ht, TokenKind.isKeyword_of_isKeyword hu]
    rfl

end Segment

def marksOf (position : Nat) : List Segment → List ClauseMark
  | [] => []
  | s :: segments => ⟨s.kind, position⟩ :: marksOf (position + s.tokens.length) segments

/-- Each clause is of another kind than those in `seen` and before it. Its body holds no keywords but
theirs and its own, and closes every parenthesis if another clause follows. -/
def Ordered (seen : List ClauseKind) : List Segment → Prop
  | [] => True
  | s :: segments => s.Keyed ∧ s.kind ∉ seen ∧ (∀ m ∈ clauseMarks 0 0 s.body, m.kind ∈ s.kind :: seen) ∧
      (segments ≠ [] → s.body.foldl depthAfter 0 = 0) ∧ Ordered (s.kind :: seen) segments

theorem Ordered.keyed {seen : List ClauseKind} {segments : List Segment} (h : Ordered seen segments) :
    ∀ s ∈ segments, s.Keyed := by
  induction segments generalizing seen with
  | nil => exact List.forall_mem_nil _
  | cons s segments ih => exact List.forall_mem_cons.2 ⟨h.1, ih h.2.2.2.2⟩

theorem Ordered.notBy {seen : List ClauseKind} {segments : List Segment} (h : Ordered seen segments) :
    NotBy (segments.flatMap Segment.tokens) := by
  cases segments with
  | nil => rfl
  | cons s segments => exact h.1.notBy _

theorem firstOfEachKind_append {seen : List ClauseKind} {marks : List ClauseMark}
    (h : ∀ m ∈ marks, m.kind ∈ seen) (later : List ClauseMark) :
    firstOfEachKind seen (marks ++ later) = firstOfEachKind seen later := by
  induction marks with
  | nil => rfl
  | cons m marks ih =>
    obtain ⟨hm, hmarks⟩ := List.forall_mem_cons.1 h
    rw [List.cons_append, firstOfEachKind, if_pos hm, ih hmarks]

theorem kind_mem_of_mem_clauseMarks {ts : List Token} {kinds : List ClauseKind}
    (h : ∀ m ∈ clauseMarks 0 0 ts, m.kind ∈ kinds) (position : Nat) :
    ∀ m ∈ clauseMarks 0 position ts, m.kind ∈ kinds := by
  intro m hm
  have hkind : m.kind ∈ (clauseMarks 0 position ts).map (·.kind) := List.mem_map_of_mem hm
  rw [map_kind_clauseMarks rfl 0 position 0] at hkind
  obtain ⟨n, hn, hmn⟩ := List.mem_map.1 hkind
  exact hmn ▸ h n hn

/-- A keyword that is repeated in a body marks nothing. -/
theorem Ordered.firstOfEachKind_clauseMarks {seen : List ClauseKind} {segments : List Segment}
    (h : Ordered seen segments) (position : Nat) :
    firstOfEachKind seen (clauseMarks 0 position (segments.flatMap Segment.tokens)) =
      marksOf position segments := by
  induction segments generalizing seen position with
  | nil => rfl
  | cons s segments ih =>
    obtain ⟨hkeyed, hseen, hbody, hdepth, hrest⟩ := h
    have hlength : position + s.keyword.length + s.body.length = position + s.tokens.length := by
      rw [Segment.tokens, List.length_append, Nat.add_assoc]
    have hlater (p : Nat) :
        clauseMarks (s.body.foldl depthAfter 0) p (segments.flatMap Segment.tokens) =
          clauseMarks 0 p (segments.flatMap Segment.tokens) := by
      cases segments with
      | nil => rfl
      | cons t segments => rw [hdepth (List.cons_ne_nil _ _)]
    rw [List.flatMap_cons, Segment.tokens, List.append_assoc, hkeyed.clauseMarks_keyword, firstOfEachKind,
      if_neg hseen, clauseMarks_append hrest.notBy,
      firstOfEachKind_append (kind_mem_of_mem_clauseMarks hbody _), hlater, ih hrest, hlength, marksOf]

structure Segment.Sound (s : Segment) : Prop where
  keyed : s.Keyed
  quiet_body : Quiet s.body

theorem ordered_of_sound {seen : List ClauseKind} {segments : List Segment} (h : ∀ s ∈ segments, s.Sound)
    (hk : (segments.map (·.kind)).Nodup) (hseen : ∀ s ∈ segments, s.kind ∉ seen) :
    Ordered seen segments := by
  induction segments generalizing seen with
  | nil => trivial
  | cons s segments ih =>
    obtain ⟨hs, hrest⟩ := List.forall_mem_cons.1 h
    obtain ⟨hkind, hnodup⟩ := List.nodup_cons.1 hk
    obtain ⟨hsseen, hrestseen⟩ := List.forall_mem_cons.1 hseen
    refine ⟨hs.keyed, hsseen, ?_, fun _ => hs.quiet_body.depth_eq_zero, ih hrest hnodup fun t ht hmem => ?_⟩
    · rw [hs.quiet_body.clauseMarks_eq_nil]
      exact List.forall_mem_nil _
    · rcases List.mem_cons.1 hmem with he | hmem
      · exact hkind (List.mem_map.2 ⟨t, ht, he⟩)
      · exact hrestseen t ht hmem

section
variable {first : Token} {list : List Token} {segments : List Segment}

def spansOf (position : Nat) : List Segment → List ClauseSpan
  | [] => []
  | s :: segments =>
    let start := position + s.keyword.length
    let stop := position + s.tokens.length
    ⟨s.kind, position, start, stop⟩ :: spansOf stop segments

theorem clauseSpans_marksOf (h : ∀ s ∈ segments, s.Keyed) (position : Nat) :
    clauseSpans (position + (segments.flatMap Segment.tokens).length) (marksOf position segments) =
      spansOf position segments := by
  induction segments generalizing position with
  | nil => rfl
  | cons s segments ih =>
    obtain ⟨hs, hrest⟩ := List.forall_mem_cons.1 h
    have hi := ih hrest (position + s.tokens.length)
    rw [List.flatMap_cons, List.length_append, ← Nat.add_assoc, marksOf, clauseSpans, hi, spansOf,
      hs.length_keyword]
    cases segments <;> rfl

theorem splitClauses_segments (hlist : Quiet list) (h : Ordered [] segments) :
    splitClauses (first :: (list ++ segments.flatMap Segment.tokens)) =
      spansOf (1 + list.length) segments := by
  have hlength : (first :: (list ++ segments.flatMap Segment.tokens)).length =
      1 + list.length + (segments.flatMap Segment.tokens).length := by
    simp only [List.length_cons, List.length_append]
    omega
  rw [splitClauses, List.tail_cons, hlist.clauseMarks_append h.notBy, h.firstOfEachKind_clauseMarks, hlength,
    clauseSpans_marksOf h.keyed]

theorem find?_spansOf (before : List Token) (segments : List Segment) (kind : ClauseKind) :
    ((spansOf before.length segments).find? (·.kind = kind)).map
        (·.body (before ++ segments.flatMap Segment.tokens)) =
      (segments.find? (·.kind = kind)).map (·.body) := by
  induction segments generalizing before with
  | nil => rfl
  | cons s segments ih =>
    rw [spansOf, List.find?_cons, List.find?_cons]
    cases hs : decide (s.kind = kind) with
    | true =>
      have hstop : before.length + s.tokens.length - (before.length + s.keyword.length) =
          s.body.length := by
        rw [Segment.tokens, List.length_append]
        omega
      simp only [Option.map_some, ClauseSpan.body, hstop, List.flatMap_cons]
      simp [Segment.tokens]
    | false =>
      have hi := ih (before ++ s.tokens)
      rw [List.length_append, List.append_assoc] at hi
      exact hi

/-- The body of a clause is the body of the segment of this kind. -/
theorem clauseBody?_segments (hlist : Quiet list) (h : Ordered [] segments) (kind : ClauseKind) :
    clauseBody? (first :: (list ++ segments.flatMap Segment.tokens)) kind =
      (segments.find? (·.kind = kind)).map (·.body) := by
  rw [clauseBody?, splitClauses_segments hlist h, Nat.add_comm]
  exact find?_spansOf (first :: list) segments kind

theorem selectList_segments (hlist : Quiet list) (h : Ordered [] segments) :
    selectList (first :: (list ++ segments.flatMap Segment.tokens)) = list := by
  rw [selectList, splitClauses_segments hlist h]
  cases segments with
  | nil => simp [spansOf]
  | cons s segments => simp [spansOf]

end

theorem dropSemicolons_append {ts semicolons : List Token} (h : ∀ t ∈ ts, t.kind ≠ .semicolon)
    (hs : ∀ t ∈ semicolons, t.kind = .semicolon) : dropSemicolons (ts ++ semicolons) = ts := by
  have hdrop : ∀ t ∈ semicolons.reverse, (t.kind == .semicolon) = true := fun t ht =>
    beq_iff_eq.2 (hs t (List.mem_reverse.1 ht))
  have hkeep : ts.reverse.dropWhile (·.kind == .semicolon) = ts.reverse := by
    cases hr : ts.reverse with
    | nil => rfl
    | cons t rest =>
      have ht : t ∈ ts := List.mem_reverse.1 (hr ▸ List.mem_cons_self)
      exact List.dropWhile_cons_of_neg (by simpa using h t ht)
  rw [dropSemicolons, List.reverse_append, List.dropWhile_append_of_pos hdrop, hkeep, List.reverse_reverse]

end TableQuery
