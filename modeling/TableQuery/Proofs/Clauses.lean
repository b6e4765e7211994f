import TableQuery.Proofs.Segments
import TableQuery.Proofs.Spelling

/-! # The clauses of a text

When a statement is put together from pieces, its clauses are found where their pieces stand.
-/
namespace TableQuery
open Text Piece

structure Clause where
  kind : ClauseKind
  keyword : List Piece
  body : List Piece

namespace Clause

def pieces (c : Clause) : List Piece := c.keyword ++ c.body

structure Sound (c : Clause) : Prop where
  keyword_forall₂ : List.Forall₂ (fun p w => p.kind.isKeyword w = true) c.keyword c.kind.words
  quiet_body : ∀ position, Quiet (place position c.body)

def segment (position : Nat) (c : Clause) : Segment :=
  ⟨c.kind, place position c.keyword, place (position + byteLength (textOf c.keyword)) c.body⟩

theorem tokens_segment (position : Nat) (c : Clause) :
    (c.segment position).tokens = place position c.pieces := by
  rw [Segment.tokens, segment, pieces, place_append]

theorem Sound.segment {c : Clause} (h : c.Sound) (position : Nat) : (c.segment position).Sound := by
  constructor
  · apply Segment.Keyed.of_kinds
    rw [Clause.segment, map_kind_place]
    exact List.forall₂_map_left_iff.2 h.keyword_forall₂
  · exact h.quiet_body _

end Clause

def segmentsAt (position : Nat) : List Clause → List Segment
  | [] => []
  | c :: clauses => c.segment position :: segmentsAt (position + byteLength (textOf c.pieces)) clauses

theorem flatMap_tokens_segmentsAt (position : Nat) (clauses : List Clause) :
    (segmentsAt position clauses).flatMap Segment.tokens =
      place position (clauses.flatMap Clause.pieces) := by
  induction clauses generalizing position with
  | nil => rfl
  | cons c clauses ih =>
    rw [segmentsAt, List.flatMap_cons, List.flatMap_cons, ih, c.tokens_segment, place_append]

theorem map_kind_segmentsAt (position : Nat) (clauses : List Clause) :
    (segmentsAt position clauses).map (·.kind) = clauses.map (·.kind) := by
  induction clauses generalizing position with
  | nil => rfl
  | cons c clauses ih =>
    rw [segmentsAt, List.map_cons, ih, List.map_cons, Clause.segment]

theorem sound_of_mem_segmentsAt {clauses : List Clause} (h : ∀ c ∈ clauses, c.Sound) (position : Nat) :
    ∀ s ∈ segmentsAt position clauses, s.Sound := by
  induction clauses generalizing position with
  | nil =>
    intro s hs
    cases hs
  | cons c clauses ih =>
    obtain ⟨hc, hrest⟩ := List.forall_mem_cons.1 h
    intro s hs
    rcases List.mem_cons.1 hs with rfl | hs
    · exact hc.segment position
    · exact ih hrest _ s hs

theorem find?_segmentsAt (position : Nat) (clauses : List Clause) (kind : ClauseKind) :
    ∃ p, ((segmentsAt position clauses).find? (·.kind = kind)).map (·.body) =
      (clauses.find? (·.kind = kind)).map fun c => place p c.body := by
  induction clauses generalizing position with
  | nil => exact ⟨0, rfl⟩
  | cons c clauses ih =>
    have hkind : (c.segment position).kind = c.kind := rfl
    rw [segmentsAt, List.find?_cons, List.find?_cons, hkind]
    cases decide (c.kind = kind) with
    | true => exact ⟨_, rfl⟩
    | false => exact ih _

section
variable {first : Piece} {list : List Piece} {clauses : List Clause}

def statement (first : Piece) (list : List Piece) (clauses : List Clause) : List Piece :=
  first :: (list ++ clauses.flatMap Clause.pieces)

theorem place_statement : ∃ token position, place 0 (statement first list clauses) =
    token :: (place (byteLength first.chars) list ++
      (segmentsAt position clauses).flatMap Segment.tokens) := by
  refine ⟨⟨first.kind, byteLength first.gap, byteLength first.gap + byteLength first.source⟩,
    byteLength first.chars + byteLength (textOf list), ?_⟩
  rw [flatMap_tokens_segmentsAt, ← place_append, chars, byteLength_append]
  simp only [statement, place, Nat.zero_add]

theorem ordered_segmentsAt (h : ∀ c ∈ clauses, c.Sound) (hk : (clauses.map (·.kind)).Nodup)
    (position : Nat) : Ordered [] (segmentsAt position clauses) := by
  apply ordered_of_sound (sound_of_mem_segmentsAt h position)
  · rwa [map_kind_segmentsAt]
  · exact fun _ _ => List.not_mem_nil

theorem clauseBody?_statement (hlist : Quiet (place (byteLength first.chars) list))
    (h : ∀ c ∈ clauses, c.Sound) (hk : (clauses.map (·.kind)).Nodup) (kind : ClauseKind) :
    ∃ p, clauseBody? (place 0 (statement first list clauses)) kind =
      (clauses.find? (·.kind = kind)).map fun c => place p c.body := by
  obtain ⟨token, position, ht⟩ := @place_statement first list clauses
  obtain ⟨p, hp⟩ := find?_segmentsAt position clauses kind
  refine ⟨p, ?_⟩
  rw [ht, clauseBody?_segments hlist (ordered_segmentsAt h hk position), hp]

theorem selectList_statement (hlist : Quiet (place (byteLength first.chars) list))
    (h : ∀ c ∈ clauses, c.Sound) (hk : (clauses.map (·.kind)).Nodup) :
    selectList (place 0 (statement first list clauses)) = place (byteLength first.chars) list := by
  obtain ⟨token, position, ht⟩ := @place_statement first list clauses
  rw [ht, selectList_segments hlist (ordered_segmentsAt h hk position)]

end
end TableQuery
