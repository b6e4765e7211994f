import TableQuery.Proofs.Clauses
import TableQuery.Proofs.Pieces

/-! # Printed queries

A query is canonical when it asks for nothing that its text cannot say: its names are plain identifiers,
its condition is a supported one and it forms no groups. Its text consists of pieces that are read one
by one, and of clauses that are found where they stand.
-/
namespace TableQuery
open Text

structure IsName (w : String) : Prop where
  isIdentifier : IsIdentifier w
  ne_join : eqIgnoreAsciiCase w "JOIN" = false

structure IsPlain (w : String) : Prop where
  isIdentifier : IsIdentifier w
  not_keyword : ∀ keyword ∈ ["FROM", "WHERE", "LIMIT", "JOIN"], eqIgnoreAsciiCase w keyword = false

theorem IsPlain.isName {w : String} (h : IsPlain w) : IsName w :=
  ⟨h.isIdentifier, h.not_keyword "JOIN" (by simp)⟩

def IsFreeOfJoin (s : String) : Prop := holdsWord "join".toList s.toList = false

def Projection.IsCanonical : Projection → Prop
  | all => True
  | unresolved => False
  | columns names => names ≠ [] ∧ ∀ n ∈ names, IsPlain n ∧ fold n = n

def Predicate.IsCanonical : Predicate → Prop
  | equals column value => IsPlain column ∧ value ≠ "" ∧ IsFreeOfJoin value
  | contains column text => IsPlain column ∧ text ≠ "" ∧ IsFreeOfJoin text
  | oneOf column values => IsPlain column ∧ values ≠ [] ∧ ∀ v ∈ values, IsFreeOfJoin v
  | unsupported _ => False

/-- The condition is in the grammar when it is printed, whatever its column is called. -/
def Predicate.IsLegible : Predicate → Prop
  | equals column value => IsName column ∧ value ≠ "" ∧ IsFreeOfJoin value
  | contains column text => IsName column ∧ text ≠ "" ∧ IsFreeOfJoin text
  | oneOf column values => IsName column ∧ values ≠ [] ∧ ∀ v ∈ values, IsFreeOfJoin v
  | unsupported _ => False

theorem Predicate.IsCanonical.isLegible {p : Predicate} (h : p.IsCanonical) : p.IsLegible := by
  cases p with
  | unsupported clause => exact h
  | _ => exact ⟨h.1.isName, h.2⟩

theorem Predicate.IsLegible.isSupported {p : Predicate} (h : p.IsLegible) : p.isSupported = true := by
  cases p with
  | unsupported clause => exact h.elim
  | _ => rfl

/-- The query is what some text asks for, and nothing in it is lost in print. -/
structure Query.IsCanonical (q : Query) : Prop where
  source : (q.projection = .unresolved ∧ q.table = none) ∨
    (q.projection.IsCanonical ∧ ∃ table, q.table = some table ∧ IsPlain table)
  predicate : ∀ p ∈ q.predicate, p.IsCanonical
  orderBy : ∀ o ∈ q.orderBy, IsPlain o.column
  groupBy_eq_false : q.groupBy = false

open Piece

def Projection.pieces : Projection → List Piece
  | all | unresolved => [mark [' '] '*']
  | columns [] => []
  | columns (n :: names) => listed (word n) (names.map word)

namespace Predicate

def pieces : Predicate → List Piece
  | equals column value => [word column, mark [' '] '=', quoted [' '] value]
  | contains column text => [word column, word "LIKE", quoted [' '] ("%" ++ text ++ "%")]
  | oneOf column [] => [word column, word "IN", mark [' '] '(', mark [] ')']
  | oneOf column (v :: values) =>
    [word column, word "IN", mark [' '] '('] ++ listed (quoted [] v) (values.map (quoted [' '])) ++
      [mark [] ')']
  | unsupported _ => []

end Predicate

theorem mem_literals {v : String} {values : List String} {p : Piece}
    (h : p ∈ listed (quoted [] v) (values.map (quoted [' ']))) :
    p = comma ∨ ∃ gap, ∃ w ∈ v :: values, p = quoted gap w := by
  rcases mem_listed h with rfl | h
  · exact .inl rfl
  · refine .inr ?_
    rcases List.mem_cons.1 h with rfl | h
    · exact ⟨_, v, List.mem_cons_self, rfl⟩
    · obtain ⟨w, hw, rfl⟩ := List.mem_map.1 h
      exact ⟨_, w, List.mem_cons_of_mem v hw, rfl⟩

def OrderBy.pieces (o : OrderBy) : List Piece :=
  word o.column :: if o.order = .descending then [word "DESC"] else []

def Clause.ofBody (kind : ClauseKind) (body : List Piece) : Clause := ⟨kind, kind.words.map word, body⟩

namespace Query

def clauses (q : Query) : List Clause :=
  (q.table.map fun n => Clause.ofBody .source [word n]).toList ++
    (q.predicate.map fun p => Clause.ofBody .filter p.pieces).toList ++
    (q.orderBy.map fun o => Clause.ofBody .orderBy o.pieces).toList ++
    (q.limit.map fun n => Clause.ofBody .limit [number n.toNat]).toList

def pieces (q : Query) : List Piece :=
  statement ⟨[], "SELECT".toList, .word "SELECT"⟩ q.projection.pieces q.clauses

end Query

theorem commaSeparated_cons (item : List Char) (items : List (List Char)) :
    commaSeparated (item :: items) = item ++ items.flatMap fun i => ", ".toList ++ i := by
  induction items generalizing item with
  | nil => simp [commaSeparated]
  | cons i items ih =>
    have hi := ih i
    simp only [commaSeparated] at hi ⊢
    rw [List.intercalate_cons_cons, hi, List.flatMap_cons, List.append_assoc, List.append_assoc]

theorem Projection.textOf_pieces {p : Projection} (h : p ≠ .columns []) :
    textOf p.pieces = ' ' :: p.chars := by
  match p with
  | all | unresolved => rfl
  | columns (n :: names) =>
    rw [pieces, textOf_listed, Projection.chars, List.map_cons, commaSeparated_cons, List.flatMap_map,
      List.flatMap_map]
    rfl

theorem Predicate.textOf_pieces {p : Predicate} (h : p.isSupported = true) :
    textOf p.pieces = ' ' :: p.chars := by
  match p with
  | equals column value => simp [pieces, Predicate.chars, word, mark, quoted]
  | contains column text => simp [pieces, Predicate.chars, word, quoted]
  | oneOf column [] => simp [pieces, Predicate.chars, word, mark, commaSeparated]
  | oneOf column (v :: values) =>
    rw [pieces, Predicate.chars, List.map_cons, commaSeparated_cons, textOf_append, textOf_append,
      textOf_listed, List.flatMap_map, List.flatMap_map]
    simp [word, mark, quoted, Piece.chars]

theorem OrderBy.textOf_pieces (o : OrderBy) : textOf o.pieces = ' ' :: o.chars := by
  unfold pieces OrderBy.chars
  split <;> simp [word]

theorem Clause.textOf_ofBody (kind : ClauseKind) (body : List Piece) :
    textOf (ofBody kind body).pieces = textOf (kind.words.map word) ++ textOf body :=
  textOf_append ..

theorem textOf_optional {α : Type} {o : Option α} {clause : α → Clause} {keyword : String}
    {chars : α → List Char} (h : ∀ x ∈ o, textOf (clause x).pieces = keyword.toList ++ chars x) :
    textOf ((o.map clause).toList.flatMap Clause.pieces) = Query.clauseChars keyword (o.map chars) := by
  cases o with
  | none => rfl
  | some x =>
    have hx := h x rfl
    simpa [Query.clauseChars] using hx

theorem Query.textOf_clauses {q : Query} (hpred : ∀ p ∈ q.predicate, p.isSupported = true) :
    textOf (q.clauses.flatMap Clause.pieces) =
      clauseChars " FROM " (q.table.map String.toList) ++
        clauseChars " WHERE " (q.predicate.map Predicate.chars) ++
        clauseChars " ORDER BY " (q.orderBy.map OrderBy.chars) ++
        clauseChars " LIMIT " (q.limit.map fun n => Nat.toDigits 10 n.toNat) := by
  rw [clauses, List.flatMap_append, List.flatMap_append, List.flatMap_append, textOf_append, textOf_append,
    textOf_append]
  congr 1
  · congr 1
    · congr 1
      · apply textOf_optional
        intro n _
        simp [Clause.textOf_ofBody, ClauseKind.words, word]
      · apply textOf_optional
        intro p hp
        simp [Clause.textOf_ofBody, ClauseKind.words, word, Predicate.textOf_pieces (hpred p hp)]
    · apply textOf_optional
      intro o _
      simp [Clause.textOf_ofBody, ClauseKind.words, word, OrderBy.textOf_pieces]
  · apply textOf_optional
    intro n _
    simp [Clause.textOf_ofBody, ClauseKind.words, word, number]

theorem Query.textOf_pieces {q : Query} (hproj : q.projection ≠ .columns [])
    (hpred : ∀ p ∈ q.predicate, p.isSupported = true) : textOf q.pieces = q.chars := by
  unfold Query.chars
  rw [Query.pieces, statement, textOf_cons, textOf_append, Projection.textOf_pieces hproj,
    textOf_clauses hpred]
  simp only [List.nil_append, List.append_assoc]
  rfl

theorem IsName.readable {w : String} (h : IsName w) : Readable [word w] :=
  (sound_word isSpace_of_mem_space h.isIdentifier).readable (opens_of_space _ _)

theorem isPlain_iff {w : String} : IsPlain w ↔ IsIdentifier w ∧
    ∀ keyword ∈ ["FROM", "WHERE", "LIMIT", "JOIN"], eqIgnoreAsciiCase w keyword = false :=
  ⟨fun h => ⟨h.1, h.2⟩, fun h => ⟨h.1, h.2⟩⟩

instance (w : String) : Decidable (IsPlain w) := decidable_of_iff' _ isPlain_iff

theorem isPlain_like : IsPlain "LIKE" := ⟨IsLettered.isIdentifier (by decide), by decide⟩
theorem isPlain_in : IsPlain "IN" := ⟨IsLettered.isIdentifier (by decide), by decide⟩
theorem isPlain_desc : IsPlain "DESC" := ⟨IsLettered.isIdentifier (by decide), by decide⟩

theorem readable_space_mark {c : Char} (hspace : isSpace c = false) (hstop : isStop c = true)
    (hkind : ∀ s, TokenKind.ofMark c ≠ .unclosed s) : Readable [mark [' '] c] :=
  (sound_mark isSpace_of_mem_space hspace hstop hkind).readable (opens_of_space _ _)

theorem readable_quoted (s : String) : Readable [quoted [' '] s] :=
  (sound_quoted isSpace_of_mem_space s).readable (opens_of_space _ _)

theorem Projection.IsCanonical.readable {p : Projection} (h : p.IsCanonical) : Readable p.pieces := by
  match p with
  | all => exact readable_space_mark (by decide) (by decide) fun _ => TokenKind.noConfusion
  | columns (n :: names) =>
    apply readable_listed
    intro q hq
    obtain ⟨m, hm, rfl⟩ := List.mem_map.1 (List.map_cons ▸ hq : q ∈ (n :: names).map word)
    exact (h.2 m hm).1.isName.readable

theorem Predicate.IsLegible.readable {p : Predicate} (h : p.IsLegible) : Readable p.pieces := by
  have hequals : Readable [mark [' '] '='] :=
    readable_space_mark (by decide) (by decide) fun _ => TokenKind.noConfusion
  match p with
  | equals column value => exact (h.1.readable.append hequals).append (readable_quoted value)
  | contains column text => exact (h.1.readable.append isPlain_like.isName.readable).append (readable_quoted _)
  | oneOf column (v :: values) =>
    have hopen : (mark [' '] '(').Sound :=
      sound_mark isSpace_of_mem_space (by decide) (by decide) fun _ => TokenKind.noConfusion
    have hclose : Readable [mark [] ')'] :=
      (sound_mark (by simp) (by decide) (by decide) fun _ => TokenKind.noConfusion).readable
        ⟨')', [], rfl, by decide⟩
    have hfirst : Readable [mark [' '] '(', quoted [] v] :=
      (sound_quoted (by simp) v).readable_behind_mark hopen (opens_of_space _ _) (by decide)
    have hlater : Readable ((values.map (quoted [' '])).flatMap fun q => [comma, q]) := by
      apply readable_later
      intro q hq
      obtain ⟨w, -, rfl⟩ := List.mem_map.1 hq
      exact readable_quoted w
    have hlist := (((h.1.readable.append isPlain_in.isName.readable).append hfirst).append hlater).append hclose
    simpa [pieces, listed] using hlist

theorem OrderBy.readable_pieces {o : OrderBy} (h : IsName o.column) : Readable o.pieces := by
  unfold pieces
  split
  · exact h.readable.append isPlain_desc.isName.readable
  · exact h.readable

theorem readable_limit (n : Nat) : Readable [number n] :=
  (sound_number n).readable (opens_of_space _ _)

theorem ClauseKind.isLettered_words (kind : ClauseKind) : ∀ w ∈ kind.words, IsLettered w := by
  cases kind <;> decide

theorem readable_words (kind : ClauseKind) : Readable (kind.words.map word) := by
  apply readable_map
  intro w hw
  exact (sound_word isSpace_of_mem_space (kind.isLettered_words w hw).isIdentifier).readable (opens_of_space _ _)

theorem readable_ofBody {kind : ClauseKind} {body : List Piece} (h : Readable body) :
    Readable (Clause.ofBody kind body).pieces :=
  (readable_words kind).append h

namespace Query

/-- A property of all clauses holds if it holds of the clause of each kind. -/
theorem forall_mem_clauses {q : Query} {P : Clause → Prop}
    (hsource : ∀ n ∈ q.table, P (.ofBody .source [word n]))
    (hfilter : ∀ p ∈ q.predicate, P (.ofBody .filter p.pieces))
    (horder : ∀ o ∈ q.orderBy, P (.ofBody .orderBy o.pieces))
    (hlimit : ∀ n ∈ q.limit, P (.ofBody .limit [number n.toNat])) : ∀ c ∈ q.clauses, P c := by
  intro c hc
  simp only [clauses, List.mem_append, Option.mem_toList, Option.map_eq_some_iff] at hc
  rcases hc with ((⟨n, hn, rfl⟩ | ⟨p, hp, rfl⟩) | ⟨o, ho, rfl⟩) | ⟨n, hn, rfl⟩
  · exact hsource n hn
  · exact hfilter p hp
  · exact horder o ho
  · exact hlimit n hn

theorem IsCanonical.isPlain_table {q : Query} (h : q.IsCanonical) : ∀ n ∈ q.table, IsPlain n := by
  intro n hn
  rcases h.source with ⟨-, htable⟩ | ⟨-, table, htable, hplain⟩
  · rw [htable] at hn
    cases hn
  · rw [htable] at hn
    cases hn
    exact hplain

theorem IsCanonical.readable_projection {q : Query} (h : q.IsCanonical) :
    Readable q.projection.pieces := by
  rcases h.source with ⟨hp, -⟩ | ⟨hp, -⟩
  · rw [hp]
    exact readable_space_mark (by decide) (by decide) fun _ => TokenKind.noConfusion
  · exact hp.readable

theorem IsCanonical.spelled {q : Query} (h : q.IsCanonical) : Spelled [] q.pieces := by
  have hclauses : Readable (q.clauses.flatMap Clause.pieces) := by
    apply readable_flatMap
    apply forall_mem_clauses
    · intro n hn
      exact readable_ofBody (h.isPlain_table n hn).isName.readable
    · intro p hp
      exact readable_ofBody (h.predicate p hp).isLegible.readable
    · intro o ho
      exact readable_ofBody (OrderBy.readable_pieces (h.orderBy o ho).isName)
    · intro n _
      exact readable_ofBody (readable_limit n.toNat)
  have hrest := h.readable_projection.append hclauses
  have hnil : Stops [] := nofun
  have hselect : IsIdentifier "SELECT" := IsLettered.isIdentifier (by decide)
  exact ⟨sound_word (by simp) hselect, .inr (hrest.stops [] hnil), hrest.spelled [] hnil⟩

end Query

theorem IsPlain.ofTokens?_eq_none {w : String} (h : IsPlain w) {t : Token} (ht : t.kind = .word w)
    {rest : List Token} (hby : NotBy rest) : ClauseKind.ofTokens? t rest = none := by
  have hkeyword : ∀ keyword, t.kind.isKeyword keyword = eqIgnoreAsciiCase w keyword := by
    intro keyword
    rw [ht, TokenKind.isKeyword]
  have hfrom := h.not_keyword "FROM" (by simp)
  have hwhere := h.not_keyword "WHERE" (by simp)
  have hlimit := h.not_keyword "LIMIT" (by simp)
  have hnext : rest.head?.any (·.kind.isKeyword "BY") = false := hby
  simp [ClauseKind.ofTokens?, hkeyword, hfrom, hwhere, hlimit, hnext]

theorem ClauseKind.ofTokens?_of_not_word {t : Token} (h : t.kind.word? = none) (rest : List Token) :
    ofTokens? t rest = none := by
  have hkeyword : ∀ keyword, t.kind.isKeyword keyword = false := by
    intro keyword
    unfold TokenKind.isKeyword
    split
    next hk => simp [hk, TokenKind.word?] at h
    next => rfl
  simp [ofTokens?, hkeyword]

theorem IsPlain.quiet_cons {w : String} (h : IsPlain w) {ps : List Piece} {position : Nat}
    (hps : ∀ p, Quiet (place p ps)) (hby : ∀ p, NotBy (place p ps)) :
    Quiet (place position (word w :: ps)) :=
  (hps _).cons (h.ofTokens?_eq_none rfl (hby _)) rfl

theorem quiet_cons_of_not_word {p : Piece} {ps : List Piece} {position : Nat}
    (hps : ∀ p, Quiet (place p ps)) (hp : p.kind.word? = none) (hparen : p.kind.isParen = false) :
    Quiet (place position (p :: ps)) :=
  (hps _).cons (ClauseKind.ofTokens?_of_not_word hp _) hparen

theorem quiet_names {n : String} {names : List String} (h : ∀ m ∈ n :: names, IsPlain m) (position : Nat) :
    Quiet (place position (listed (word n) (names.map word))) := by
  induction names generalizing n position with
  | nil => exact (h n List.mem_cons_self).quiet_cons (fun _ => quiet_nil) fun _ => rfl
  | cons m names ih =>
    obtain ⟨hn, hnames⟩ := List.forall_mem_cons.1 h
    apply hn.quiet_cons
    · intro p
      exact quiet_cons_of_not_word (ih hnames) rfl rfl
    · intro p
      rfl

theorem quiet_star (position : Nat) : Quiet (place position [mark [' '] '*']) :=
  quiet_cons_of_not_word (fun _ => quiet_nil) rfl rfl

theorem Projection.IsCanonical.quiet {p : Projection} (h : p.IsCanonical) (position : Nat) :
    Quiet (place position p.pieces) := by
  match p with
  | all => exact quiet_star position
  | columns (n :: names) => exact quiet_names (fun m hm => (h.2 m hm).1) position

theorem Predicate.IsCanonical.quiet {p : Predicate} (h : p.IsCanonical) (position : Nat) :
    Quiet (place position p.pieces) := by
  have hquoted : ∀ gap s position, Quiet (place position [quoted gap s]) := by
    intro gap s position
    exact quiet_cons_of_not_word (fun _ => quiet_nil) rfl rfl
  match p with
  | equals column value =>
    exact h.1.quiet_cons (fun _ => quiet_cons_of_not_word (hquoted _ _) rfl rfl) fun _ => rfl
  | contains column text =>
    exact h.1.quiet_cons (fun _ => isPlain_like.quiet_cons (hquoted _ _) fun _ => rfl) fun _ => rfl
  | oneOf column (v :: values) =>
    let inner := listed (quoted [] v) (values.map (quoted [' ']))
    have hpieces : (oneOf column (v :: values)).pieces =
        word column :: word "IN" :: mark [' '] '(' :: (inner ++ [mark [] ')']) := by
      simp [pieces, inner]
    have hparens : ∀ p, Quiet (place p (mark [' '] '(' :: (inner ++ [mark [] ')']))) := by
      intro p
      rw [place, place_append]
      apply quiet_parens rfl rfl
      intro t ht
      obtain ⟨q, hq, hkind⟩ := exists_kind_of_mem_place ht
      rw [← hkind]
      rcases mem_literals hq with rfl | ⟨gap, w, -, rfl⟩ <;> rfl
    rw [hpieces]
    exact h.1.quiet_cons (fun _ => isPlain_in.quiet_cons hparens fun _ => rfl) fun _ => rfl

theorem OrderBy.quiet_pieces {o : OrderBy} (h : IsPlain o.column) (position : Nat) :
    Quiet (place position o.pieces) := by
  unfold pieces
  split
  · exact h.quiet_cons (fun _ => isPlain_desc.quiet_cons (fun _ => quiet_nil) fun _ => rfl) fun _ => rfl
  · exact h.quiet_cons (fun _ => quiet_nil) fun _ => rfl

theorem Clause.sound_ofBody {kind : ClauseKind} {body : List Piece}
    (h : ∀ position, Quiet (place position body)) : (ofBody kind body).Sound where
  keyword_forall₂ := by
    cases kind <;> simp [ofBody, ClauseKind.words, word, TokenKind.isKeyword, eqIgnoreAsciiCase]
  quiet_body := h

namespace Query
variable {q : Query}

theorem IsCanonical.quiet_projection (h : q.IsCanonical) (position : Nat) :
    Quiet (place position q.projection.pieces) := by
  rcases h.source with ⟨hp, -⟩ | ⟨hp, -⟩
  · rw [hp]
    exact quiet_star position
  · exact hp.quiet position

theorem IsCanonical.sound_clauses (h : q.IsCanonical) : ∀ c ∈ q.clauses, c.Sound := by
  apply forall_mem_clauses
  · intro n hn
    exact Clause.sound_ofBody fun _ => (h.isPlain_table n hn).quiet_cons (fun _ => quiet_nil) fun _ => rfl
  · intro p hp
    exact Clause.sound_ofBody (h.predicate p hp).quiet
  · intro o ho
    exact Clause.sound_ofBody (OrderBy.quiet_pieces (h.orderBy o ho))
  · intro n _
    exact Clause.sound_ofBody fun _ => quiet_cons_of_not_word (fun _ => quiet_nil) rfl rfl

theorem nodup_map_kind_clauses (q : Query) : (q.clauses.map (·.kind)).Nodup := by
  obtain ⟨projection, table, predicate, orderBy, limit, groupBy⟩ := q
  cases table <;> cases predicate <;> cases orderBy <;> cases limit <;>
    simp [clauses, Clause.ofBody]

def bodyPieces? (q : Query) : ClauseKind → Option (List Piece)
  | .source => q.table.map fun n => [word n]
  | .filter => q.predicate.map Predicate.pieces
  | .groupBy => none
  | .orderBy => q.orderBy.map OrderBy.pieces
  | .limit => q.limit.map fun n => [number n.toNat]

theorem find?_clauses (q : Query) (kind : ClauseKind) :
    (q.clauses.find? (·.kind = kind)).map (·.body) = q.bodyPieces? kind := by
  obtain ⟨projection, table, predicate, orderBy, limit, groupBy⟩ := q
  cases table <;> cases predicate <;> cases orderBy <;> cases limit <;> cases kind <;> rfl

end Query
end TableQuery
