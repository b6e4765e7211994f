import Mathlib.Data.List.ReduceOption
import TableQuery.Proofs.ClausePartition

/-! # Reading by positions

A statement is read by positions among its tokens and by byte positions in its source. Here such a reading
fails as soon as a position is out of range. It gives the same queries, so that no position ever is.
-/
namespace TableQuery
open Text

namespace Positional

def between {α : Type} (xs : List α) (start stop : Nat) : List α := (xs.drop start).take (stop - start)

section
variable {α : Type} {xs : List α} {start stop : Nat}

theorem between_eq_nil (h : stop ≤ start) : between xs start stop = [] := by
  rw [between, Nat.sub_eq_zero_of_le h, List.take_zero]

theorem between_eq_cons (hstart : start < stop) (hstop : stop ≤ xs.length) :
    between xs start stop = xs[start] :: between xs (start + 1) stop := by
  have hlength : stop - start = stop - (start + 1) + 1 := by omega
  rw [between, List.drop_eq_getElem_cons, hlength, List.take_succ_cons, between]

theorem length_between (hstop : stop ≤ xs.length) : (between xs start stop).length = stop - start := by
  rw [between, List.length_take, List.length_drop]
  omega

theorem between_take {n : Nat} (h : stop ≤ n) : between (xs.take n) start stop = between xs start stop := by
  rw [between, List.drop_take, List.take_take, Nat.min_eq_left (by omega), between]

theorem drop_between (n : Nat) : (between xs start stop).drop n = between xs (start + n) stop := by
  rw [between, List.drop_take, List.drop_drop, Nat.sub_sub, between]

theorem isInfix_between (xs : List α) (start stop : Nat) : between xs start stop <:+: xs :=
  (List.take_prefix _ _).isInfix.trans (List.drop_suffix _ _).isInfix

theorem head?_between (hstart : start < stop) (hstop : stop ≤ xs.length) :
    (between xs start stop).head? = xs[start]? := by
  rw [between_eq_cons hstart hstop, List.head?_cons, List.getElem?_eq_getElem]

theorem getLast?_between (hstart : start < stop) (hstop : stop ≤ xs.length) :
    (between xs start stop).getLast? = xs[stop - 1]? := by
  rw [List.getLast?_eq_getElem?, length_between hstop, between, List.getElem?_take_of_lt (by omega),
    List.getElem?_drop]
  congr 1
  omega

end

def range? (tokens : List Token) (start stop : Nat) : Option (List Token) :=
  if start ≤ stop ∧ stop ≤ tokens.length then some (between tokens start stop) else none

/-- A character starts or the text ends at the byte position. -/
def isBoundary (position : Nat) : List Char → Bool
  | [] => position == 0
  | c :: cs => position == 0 || c.utf8Size ≤ position && isBoundary (position - c.utf8Size) cs

theorem isBoundary_append (cs ds : List Char) : isBoundary (byteLength cs) (cs ++ ds) = true := by
  induction cs with
  | nil => cases ds <;> simp [isBoundary, byteLength]
  | cons c cs ih => simp [isBoundary, byteLength_cons, ih]

def slice? (source : List Char) (start stop : Nat) : Option (List Char) :=
  if start ≤ stop ∧ isBoundary start source ∧ isBoundary stop source then some (slice source start stop)
  else none

def text? (source : List Char) (tokens : List Token) (start stop : Nat) : Option String :=
  if start < stop then do
    let first ← tokens[start]?
    let last ← tokens[stop - 1]?
    let chars ← slice? source first.start last.stop
    return String.ofList chars
  else some ""

theorem slice?_append (before part after : List Char) :
    slice? (before ++ (part ++ after)) (byteLength before) (byteLength (before ++ part)) = some part := by
  have hle : byteLength before ≤ byteLength (before ++ part) := by
    rw [byteLength_append]
    exact Nat.le_add_right _ _
  have hstop := isBoundary_append (before ++ part) after
  rw [List.append_assoc] at hstop
  rw [slice?, if_pos ⟨hle, isBoundary_append before _, hstop⟩, slice_append]

/-- The tokens of a text stand in it one behind another, each between characters. -/
theorem text?_eq (s : String) {start stop : Nat} (h : stop ≤ (tokenize s).length) :
    text? s.toList (tokenize s) start stop = some (sourceText s.toList (between (tokenize s) start stop)) := by
  have hsource := isSourceOf_sourceText (isInfix_between (tokenize s) start stop)
  rw [text?]
  split
  next hstart =>
    have hfirst := head?_between hstart h
    have hlast := getLast?_between hstart h
    rw [List.getElem?_eq_getElem (hstart.trans_le h)] at hfirst
    rw [List.getElem?_eq_getElem (by omega)] at hlast
    obtain ⟨before, after, htext, hbefore, hafter⟩ := hsource.2 _ hfirst _ hlast
    have hslice := slice?_append before (sourceText s.toList (between (tokenize s) start stop)).toList after
    rw [← htext, ← hbefore, ← hafter] at hslice
    rw [List.getElem?_eq_getElem (hstart.trans_le h), List.getElem?_eq_getElem (by omega)]
    simp [hslice]
  next hstart =>
    rw [between_eq_nil (Nat.le_of_not_lt hstart)]
    rfl

def statementEnd? (tokens : List Token) : Nat → Option Nat
  | n + 2 => do
    let last ← tokens[n + 1]?
    if last.kind = .semicolon then statementEnd? tokens (n + 1) else return n + 2
  | n => some n

theorem dropSemicolons_concat (ts : List Token) (t : Token) :
    dropSemicolons (ts ++ [t]) = if t.kind = .semicolon then dropSemicolons ts else ts ++ [t] := by
  by_cases ht : t.kind = .semicolon <;> simp [dropSemicolons, ht]

theorem statementEnd?_eq {first : Token} {rest : List Token} (hfirst : first.kind ≠ .semicolon) {n : Nat}
    (h : n ≤ (first :: rest).length) :
    statementEnd? (first :: rest) n = some (dropSemicolons ((first :: rest).take n)).length := by
  induction n with
  | zero => rfl
  | succ n ih =>
    cases n with
    | zero => simp [statementEnd?, dropSemicolons, hfirst]
    | succ n =>
      have hlast : (first :: rest).take (n + 2) = (first :: rest).take (n + 1) ++ [(first :: rest)[n + 1]] :=
        List.take_succ_eq_append_getElem h
      rw [statementEnd?, hlast, dropSemicolons_concat, ih (Nat.le_of_succ_le h), List.getElem?_eq_getElem h]
      simp only [Option.bind_eq_bind, Option.bind_some]
      split
      next => rfl
      next =>
        have hrest : n + 1 ≤ rest.length := Nat.le_of_succ_le_succ h
        simp [hrest]

def clauseAt? (tokens : List Token) (stop i : Nat) : Option (Option ClauseKind) := do
  let t ← tokens[i]?
  let next ← (if i + 1 < stop then tokens[i + 1]?.map some else some none)
  return ClauseKind.ofTokens? t next.toList

theorem clauseAt?_eq {tokens : List Token} {stop i : Nat} (hi : i < stop) (hstop : stop ≤ tokens.length) :
    clauseAt? tokens stop i = some (ClauseKind.ofTokens? tokens[i] (between tokens (i + 1) stop)) := by
  have hnext : (if i + 1 < stop then tokens[i + 1]?.map some else some none) =
      some (between tokens (i + 1) stop).head? := by
    split
    next hi' => rw [head?_between hi' hstop, List.getElem?_eq_getElem (by omega), Option.map_some]
    next hi' => rw [between_eq_nil (Nat.le_of_not_lt hi'), List.head?_nil]
  rw [clauseAt?, hnext, List.getElem?_eq_getElem (hi.trans_le hstop)]
  cases between tokens (i + 1) stop <;> rfl

/-- The first keyword of each kind that is not in `seen`, from a position on. Behind a keyword the scan
goes on after its last word. -/
def marks? (tokens : List Token) (stop depth : Nat) (seen : List ClauseKind) (i : Nat) :
    Option (List ClauseMark) :=
  if _h : i < stop then do
    let t ← tokens[i]?
    if t.kind.isParen || depth != 0 then marks? tokens stop (depthAfter depth t) seen (i + 1)
    else
      match ← clauseAt? tokens stop i with
      | none => marks? tokens stop depth seen (i + 1)
      | some kind =>
        if kind ∈ seen then marks? tokens stop depth seen (i + kind.keywordLength)
        else
          let later ← marks? tokens stop depth (kind :: seen) (i + kind.keywordLength)
          return ⟨kind, i⟩ :: later
  else some []
termination_by stop - i
decreasing_by
  · omega
  · omega
  all_goals have hpos := kind.keywordLength_pos
  all_goals omega

theorem clauseMarks_cons_of_some {t : Token} {rest : List Token} {kind : ClauseKind}
    (h : ClauseKind.ofTokens? t rest = some kind) (position : Nat) :
    clauseMarks 0 position (t :: rest) = ⟨kind, position⟩ ::
      clauseMarks 0 (position + kind.keywordLength) ((t :: rest).drop kind.keywordLength) := by
  obtain ⟨words, after, rfl, hwords⟩ := ClauseKind.exists_isKeyword_of_ofTokens? h
  have hkeyed : Segment.Keyed ⟨kind, t :: words, after⟩ := hwords
  rw [← List.cons_append, ← hwords.length_eq, List.drop_left]
  exact hkeyed.clauseMarks_keyword position after

theorem ofTokens?_of_isParen {t : Token} (h : t.kind.isParen = true) (rest : List Token) :
    ClauseKind.ofTokens? t rest = none := by
  cases hk : t.kind <;> simp_all [ClauseKind.ofTokens?, TokenKind.isKeyword, TokenKind.isParen]

theorem marks?_eq {tokens : List Token} {stop : Nat} (hstop : stop ≤ tokens.length) (depth : Nat)
    (seen : List ClauseKind) (i : Nat) : marks? tokens stop depth seen i =
      some (firstOfEachKind seen (clauseMarks depth i (between tokens i stop))) := by
  induction hn : stop - i using Nat.strongRecOn generalizing depth seen i with
  | _ n ih =>
    rw [marks?]
    split
    next hi =>
      rw [List.getElem?_eq_getElem (hi.trans_le hstop), between_eq_cons hi hstop]
      simp only [Option.bind_eq_bind, Option.bind_some, clauseAt?_eq hi hstop]
      split
      next hskip =>
        have hmarks : clauseMarks depth i (tokens[i] :: between tokens (i + 1) stop) =
            clauseMarks (depthAfter depth tokens[i]) (i + 1) (between tokens (i + 1) stop) := by
          rcases Bool.or_eq_true_iff.1 hskip with hparen | hdepth
          · exact clauseMarks_cons_of_none (ofTokens?_of_isParen hparen _) depth i
          · rw [clauseMarks, if_neg (by simpa using hdepth)]
        rw [hmarks]
        exact ih _ (by omega) _ _ _ rfl
      next hread =>
        obtain ⟨hparen, rfl⟩ : tokens[i].kind.isParen = false ∧ depth = 0 := by simpa using hread
        cases hkind : ClauseKind.ofTokens? tokens[i] (between tokens (i + 1) stop) with
        | none =>
          rw [clauseMarks_cons_of_none hkind, depthAfter_of_not_isParen hparen]
          exact ih _ (by omega) _ _ _ rfl
        | some kind =>
          -- The scan leaves out the other word of a keyword, at which the list has no mark.
          have hpos := kind.keywordLength_pos
          have hless : stop - (i + kind.keywordLength) < n := by omega
          have hlater (seen : List ClauseKind) := ih _ hless 0 seen _ rfl
          rw [clauseMarks_cons_of_some hkind, ← between_eq_cons hi hstop, drop_between, firstOfEachKind]
          simp only [hlater]
          split <;> rfl
    next hi =>
      rw [between_eq_nil (Nat.le_of_not_lt hi)]
      rfl

def items? (tokens : List Token) (stop depth start i : Nat) : Option (List (Nat × Nat)) :=
  if _h : i < stop then do
    let t ← tokens[i]?
    if t.kind = .comma ∧ depth = 0 then
      let later ← items? tokens stop depth (i + 1) (i + 1)
      return (start, i) :: later
    else items? tokens stop (depthAfter depth t) start (i + 1)
  else some [(start, stop)]
termination_by stop - i

/-- The item that has begun goes on to its comma, and every later range holds an item. -/
theorem exists_items?_eq {tokens : List Token} {stop : Nat} (hstop : stop ≤ tokens.length)
    (depth start i : Nat) (hi : i ≤ stop) : ∃ mid later,
      items? tokens stop depth start i = some ((start, mid) :: later) ∧
      (i ≤ mid ∧ mid ≤ stop) ∧ (∀ item ∈ later, item.1 ≤ item.2 ∧ item.2 ≤ stop) ∧
      splitItems depth (between tokens i stop) =
        between tokens i mid :: later.map fun item => between tokens item.1 item.2 := by
  induction hn : stop - i using Nat.strongRecOn generalizing depth start i with
  | _ n ih =>
    rw [items?]
    split
    next hlt =>
      have hnext (depth start : Nat) := ih _ (show stop - (i + 1) < n by omega) depth start (i + 1) hlt rfl
      rw [List.getElem?_eq_getElem (hlt.trans_le hstop), between_eq_cons hlt hstop, splitItems]
      simp only [Option.bind_eq_bind, Option.bind_some]
      split
      next hcomma =>
        obtain ⟨mid, later, hitems, hmid, hlater, hsplit⟩ := hnext depth (i + 1)
        refine ⟨i, (i + 1, mid) :: later, by rw [hitems]; rfl, ⟨le_rfl, hi⟩,
          List.forall_mem_cons.2 ⟨hmid, hlater⟩, ?_⟩
        rw [hsplit, between_eq_nil le_rfl, List.map_cons]
      next =>
        obtain ⟨mid, later, hitems, hmid, hlater, hsplit⟩ := hnext (depthAfter depth tokens[i]) start
        refine ⟨mid, later, hitems, ⟨by omega, hmid.2⟩, hlater, ?_⟩
        rw [hsplit, between_eq_cons (by omega : i < mid) (hmid.2.trans hstop)]
    next hge =>
      obtain rfl : i = stop := by omega
      refine ⟨i, [], rfl, ⟨le_rfl, le_rfl⟩, List.forall_mem_nil _, ?_⟩
      rw [between_eq_nil le_rfl]
      rfl

def name? (source : List Char) (tokens : List Token) (item : Nat × Nat) : Option (Option String) := do
  let star ← (if item.2 - item.1 = 1 then tokens[item.1]?.map (·.kind == .star) else some false)
  if star then return none
  else
    let text ← text? source tokens item.1 item.2
    return some (fold text)

theorem name?_eq {s : String} {item : Nat × Nat} (hstop : item.2 ≤ (tokenize s).length) :
    name? s.toList (tokenize s) item =
      some (if isLoneStar (between (tokenize s) item.1 item.2) then none
        else some (fold (sourceText s.toList (between (tokenize s) item.1 item.2)))) := by
  have hstar : (if item.2 - item.1 = 1 then (tokenize s)[item.1]?.map (·.kind == .star) else some false) =
      some (isLoneStar (between (tokenize s) item.1 item.2)) := by
    have hlength : (between (tokenize s) item.1 item.2).length = item.2 - item.1 := length_between hstop
    split
    next hone =>
      have hstart : item.1 < item.2 := by omega
      rw [List.getElem?_eq_getElem (by omega), between_eq_cons hstart hstop, between_eq_nil (by omega)]
      rfl
    next hother =>
      rw [← hlength] at hother
      generalize between (tokenize s) item.1 item.2 = ts at hother
      match ts with
      | [] => rfl
      | [t] => exact absurd rfl hother
      | t :: u :: ts => rfl
  rw [name?, hstar, text?_eq s hstop]
  simp only [Option.bind_eq_bind, Option.bind_some]
  split <;> rfl

theorem mapM_eq_some_map {α β : Type} {f : α → Option β} {g : α → β} {xs : List α}
    (h : ∀ x ∈ xs, f x = some (g x)) : xs.mapM f = some (xs.map g) := by
  induction xs with
  | nil => rfl
  | cons x xs ih =>
    obtain ⟨hx, hxs⟩ := List.forall_mem_cons.1 h
    simp [List.mapM_cons, hx, ih hxs]

def projection? (source : List Char) (tokens : List Token) (start stop : Nat) : Option Projection := do
  let ranges ← items? tokens stop 0 start start
  let items := ranges.filter fun item => item.1 < item.2
  let names ← items.mapM (name? source tokens)
  return if items.isEmpty then .unresolved
    else if names.reduceOption.isEmpty then .all
    else .columns names.reduceOption

theorem reduceOption_map_ite {α β : Type} (p : α → Bool) (f : α → β) (xs : List α) :
    (xs.map fun x => if p x then none else some (f x)).reduceOption = (xs.filter (!p ·)).map f := by
  induction xs with
  | nil => rfl
  | cons x xs ih =>
    cases hx : p x with
    | true => simpa [hx, List.reduceOption_cons_of_none] using ih
    | false => simpa [hx, List.reduceOption_cons_of_some] using ih

/-- The ranges of items lie one behind another in the range that is divided. -/
theorem exists_items?_eq_some {tokens : List Token} {start stop : Nat} (hstart : start ≤ stop)
    (hstop : stop ≤ tokens.length) : ∃ ranges, items? tokens stop 0 start start = some ranges ∧
      (∀ item ∈ ranges, item.1 ≤ item.2 ∧ item.2 ≤ tokens.length) ∧
      splitItems 0 (between tokens start stop) = ranges.map fun item => between tokens item.1 item.2 := by
  obtain ⟨mid, later, hitems, hmid, hlater, hsplit⟩ := exists_items?_eq hstop 0 start start hstart
  refine ⟨(start, mid) :: later, hitems, fun item hitem => ?_, hsplit⟩
  have hrange : item.1 ≤ item.2 ∧ item.2 ≤ stop := by
    rcases List.mem_cons.1 hitem with rfl | hitem
    · exact hmid
    · exact hlater item hitem
  exact ⟨hrange.1, hrange.2.trans hstop⟩

theorem filter_map_between {tokens : List Token} {ranges : List (Nat × Nat)}
    (h : ∀ item ∈ ranges, item.1 ≤ item.2 ∧ item.2 ≤ tokens.length) :
    (ranges.map fun item => between tokens item.1 item.2).filter (!·.isEmpty) =
      (ranges.filter fun item => item.1 < item.2).map fun item => between tokens item.1 item.2 := by
  rw [List.filter_map]
  refine congrArg _ (List.filter_congr fun item hitem => Bool.eq_iff_iff.2 ?_)
  have hlength : (between tokens item.1 item.2).length = item.2 - item.1 := length_between (h item hitem).2
  rw [Function.comp_apply, Bool.not_eq_true', List.isEmpty_eq_false_iff, ← List.length_pos_iff, hlength,
    decide_eq_true_eq]
  omega

theorem projection?_eq {s : String} {start stop : Nat} (hstart : start ≤ stop)
    (hstop : stop ≤ (tokenize s).length) : projection? s.toList (tokenize s) start stop =
      some (.ofTokens s.toList (between (tokenize s) start stop)) := by
  obtain ⟨ranges, hitems, hranges, hsplit⟩ := exists_items?_eq_some hstart hstop
  let part (item : Nat × Nat) := between (tokenize s) item.1 item.2
  have hnames : (ranges.filter fun item => item.1 < item.2).mapM (name? s.toList (tokenize s)) =
      some ((ranges.filter fun item => item.1 < item.2).map fun item =>
        if isLoneStar (part item) then none else some (fold (sourceText s.toList (part item)))) :=
    mapM_eq_some_map fun item hitem => name?_eq (hranges item (List.mem_of_mem_filter hitem)).2
  rw [projection?, hitems, Projection.ofTokens, hsplit, filter_map_between hranges, List.filter_map,
    List.map_map]
  simp only [Option.bind_eq_bind, Option.bind_some, hnames, List.isEmpty_map,
    reduceOption_map_ite (fun item => isLoneStar (part item))]
  rfl

/-- The condition in a range; only one outside the supported forms is read from the source. -/
def predicate? (source : List Char) (tokens : List Token) (start stop : Nat) : Option Predicate := do
  let body ← range? tokens start stop
  match Predicate.ofKinds? (body.map (·.kind)) with
  | some p => return p
  | none =>
    let text ← text? source tokens start stop
    return .unsupported text

theorem predicate?_eq {s : String} {start stop : Nat} (hstart : start ≤ stop)
    (hstop : stop ≤ (tokenize s).length) : predicate? s.toList (tokenize s) start stop =
      some (.ofTokens s.toList (between (tokenize s) start stop)) := by
  rw [predicate?, range?, if_pos ⟨hstart, hstop⟩, text?_eq s hstop, Predicate.ofTokens]
  simp only [Option.bind_eq_bind, Option.bind_some]
  cases Predicate.ofKinds? ((between (tokenize s) start stop).map (·.kind)) <;> rfl

def query? (source : List Char) (tokens : List Token) : Option Query := do
  let stop ← statementEnd? tokens tokens.length
  let marks ← marks? tokens stop 0 [] 1
  let spans := clauseSpans stop marks
  let span? (kind : ClauseKind) := spans.find? (·.kind = kind)
  let body? (kind : ClauseKind) := (span? kind).mapM fun span => range? tokens span.start span.stop
  let listEnd := (spans.head?.map (·.keyword)).getD stop
  let projection ← (if (span? .source).isSome then projection? source tokens 1 listEnd
    else some .unresolved)
  let source? ← body? .source
  let predicate ← (span? .filter).mapM fun span => predicate? source tokens span.start span.stop
  let orderBy ← body? .orderBy
  let limit ← body? .limit
  return {
    projection
    table := source?.bind tableOfTokens?
    predicate
    orderBy := orderBy.bind OrderBy.ofTokens?
    limit := limit.bind limitOfTokens?
    groupBy := (span? .groupBy).isSome }

/-- What is read in every span of a statement is read from the body of its clause. -/
theorem mapM_find?_splitClauses {α : Type} {tokens : List Token} {read : ClauseSpan → Option α}
    {ofBody : List Token → α}
    (h : ∀ span ∈ splitClauses tokens, read span = some (ofBody (span.body tokens))) (kind : ClauseKind) :
    ((splitClauses tokens).find? (·.kind = kind)).mapM read = some ((clauseBody? tokens kind).map ofBody) := by
  rw [clauseBody?]
  cases hspan : (splitClauses tokens).find? (·.kind = kind) with
  | none => rfl
  | some span => simp [h span (List.mem_of_find?_eq_some hspan)]

section
variable {s : String}

theorem length_tokens_le (s : String) : (Query.tokens s).length ≤ (tokenize s).length :=
  (isInfix_dropSemicolons (tokenize s)).length_le

theorem between_tokenize {start stop : Nat} (hstop : stop ≤ (Query.tokens s).length) :
    between (tokenize s) start stop = between (Query.tokens s) start stop := by
  obtain ⟨semicolons, happend, -⟩ := exists_eq_dropSemicolons (tokenize s)
  have htake : (tokenize s).take (Query.tokens s).length = Query.tokens s := by
    rw [happend]
    exact List.take_left
  rw [← between_take hstop, htake]

theorem statementEnd?_tokenize (h : Query.StartsWithSelect s) :
    statementEnd? (tokenize s) (tokenize s).length = some (Query.tokens s).length := by
  obtain ⟨first, rest, hcons, hkind, -⟩ := h.exists_cons
  rw [Query.tokens, hcons, statementEnd?_eq hkind le_rfl, List.take_length]

theorem clauseSpans_tokenize (s : String) : clauseSpans (Query.tokens s).length
    (firstOfEachKind [] (clauseMarks 0 1 (between (tokenize s) 1 (Query.tokens s).length))) =
      splitClauses (Query.tokens s) := by
  rw [between_tokenize le_rfl, between, List.drop_one, ← List.length_tail, List.take_length, splitClauses]

/-- The body of a clause lies among the tokens. -/
theorem range?_span (h : Query.StartsWithSelect s) {span : ClauseSpan}
    (hspan : span ∈ splitClauses (Query.tokens s)) :
    range? (tokenize s) span.start span.stop = some (span.body (Query.tokens s)) := by
  obtain ⟨hstart, hstop⟩ := (isPartition_splitClauses h.tokens_ne_nil).in_range span hspan
  rw [range?, if_pos ⟨hstart, hstop.trans (length_tokens_le s)⟩, between_tokenize hstop]
  rfl

theorem predicate?_span (h : Query.StartsWithSelect s) {span : ClauseSpan}
    (hspan : span ∈ splitClauses (Query.tokens s)) :
    predicate? s.toList (tokenize s) span.start span.stop =
      some (.ofTokens s.toList (span.body (Query.tokens s))) := by
  obtain ⟨hstart, hstop⟩ := (isPartition_splitClauses h.tokens_ne_nil).in_range span hspan
  rw [predicate?_eq hstart (hstop.trans (length_tokens_le s)), between_tokenize hstop]
  rfl

/-- The select list lies among the tokens, before the first clause. -/
theorem projection?_selectList (h : Query.StartsWithSelect s) : projection? s.toList (tokenize s) 1
    (((splitClauses (Query.tokens s)).head?.map (·.keyword)).getD (Query.tokens s).length) =
      some (.ofTokens s.toList (selectList (Query.tokens s))) := by
  obtain ⟨-, hstart, hrest⟩ := tiles_splitClauses h.tokens_ne_nil
  rw [projection?_eq hstart (hrest.le.trans (length_tokens_le s)), between_tokenize hrest.le]
  rfl

theorem query?_eq (h : Query.StartsWithSelect s) :
    query? s.toList (tokenize s) = some (.ofTokens s.toList (Query.tokens s)) := by
  have hbody (kind : ClauseKind) := mapM_find?_splitClauses
    (fun span hspan => (range?_span h hspan).trans (congrArg some (id_eq _).symm)) kind
  have hpredicate := mapM_find?_splitClauses (fun span hspan => predicate?_span h hspan) .filter
  have hisSome (kind : ClauseKind) : ((splitClauses (Query.tokens s)).find? (·.kind = kind)).isSome =
      (clauseBody? (Query.tokens s) kind).isSome := by
    rw [clauseBody?, Option.isSome_map]
  rw [query?, statementEnd?_tokenize h]
  simp only [Option.bind_eq_bind, Option.bind_some, marks?_eq (length_tokens_le s), clauseSpans_tokenize,
    projection?_selectList h, hbody, hpredicate, hisSome, Option.map_id_fun, id]
  rw [Query.ofTokens]
  split <;> rfl

end

def parse? (s : String) : Option (Except GrammarError Query) :=
  let tokens := tokenize s
  if !tokens.head?.any (·.kind.isKeyword "SELECT") then some (.error .notSelect)
  else if tokens.any (·.kind.mentionsJoin) then some (.error .joinUnsupported)
  else (query? s.toList tokens).map .ok

end Positional

namespace Query

/-- Behind SELECT a statement is divided into the select list, the keywords of its clauses and their bodies.
All positions and all parts of the source that a text is read from are in range. -/
theorem clauses_partition (s : String) :
    (StartsWithSelect s → IsPartition (tokens s) (splitClauses (tokens s))) ∧
      Positional.parse? s = some (parse s) := by
  refine ⟨fun h => isPartition_splitClauses h.tokens_ne_nil, ?_⟩
  rw [Positional.parse?, parse]
  split
  next => rfl
  next hselect =>
    split
    next => rfl
    next =>
      rw [Positional.query?_eq (any_isKeyword_iff.1 (by simpa using hselect))]
      rfl

/-- Keywords in parentheses, a parenthesis that closes nothing, a repeated keyword, one whose second word is
missing, and a keyword at the very end before semicolons. -/
theorem clauses_partition_nested :
    let s := "SELECT f(a, (FROM)), b FROM t WHERE (x LIMIT 1)) = 'y' FROM u ORDER limit 1 GROUP BY ; ;"
    StartsWithSelect s ∧
      splitClauses (tokens s) = [⟨.source, 11, 12, 13⟩, ⟨.filter, 13, 14, 25⟩, ⟨.limit, 25, 26, 27⟩,
        ⟨.groupBy, 27, 29, 29⟩] ∧
      IsPartition (tokens s) (splitClauses (tokens s)) ∧ Positional.parse? s = some (parse s) := by
  intro s
  have hselect : StartsWithSelect s := any_isKeyword_iff.1 (by decide +kernel)
  have hspans : splitClauses (tokens s) = [⟨.source, 11, 12, 13⟩, ⟨.filter, 13, 14, 25⟩,
      ⟨.limit, 25, 26, 27⟩, ⟨.groupBy, 27, 29, 29⟩] := by decide +kernel
  exact ⟨hselect, hspans, (clauses_partition s).1 hselect, (clauses_partition s).2⟩

end Query
end TableQuery
