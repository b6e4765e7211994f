import Mathlib.Data.List.Forall2
import TableQuery.Proofs.SourceText

/-! # Select lists

What a select list asks for depends on its pieces only, not on where it stands in a statement.
-/
namespace TableQuery
open Text Relator

namespace Piece

def items (depth : Nat) : List Piece → List (List Piece)
  | [] => [[]]
  | p :: ps =>
    if p.kind = .comma ∧ depth = 0 then [] :: items depth ps
    else
      match items (depthAfter depth ⟨p.kind, 0, 0⟩) ps with
      | [] => [[p]]
      | item :: later => (p :: item) :: later

/-- The first item begins where the pieces begin. -/
theorem splitItems_place {source : List Char} {ps : List Piece} {before after : List Char}
    (hs : source = before ++ (textOf ps ++ after)) (depth : Nat) : ∃ item later later' rest,
      items depth ps = item :: later ∧ textOf ps = textOf item ++ rest ∧
        splitItems depth (place (byteLength before) ps) = place (byteLength before) item :: later' ∧
          List.Forall₂ (Stands source) later' later := by
  induction ps generalizing before depth with
  | nil => exact ⟨[], [], [], [], rfl, rfl, rfl, .nil⟩
  | cons p ps ih =>
    have hps : source = (before ++ p.chars) ++ (textOf ps ++ after) := by
      rw [hs, textOf_cons, chars]
      simp only [List.append_assoc]
    have hposition : byteLength before + byteLength p.gap + byteLength p.source =
        byteLength (before ++ p.chars) := by
      rw [chars, byteLength_append, byteLength_append, Nat.add_assoc]
    by_cases hc : p.kind = .comma ∧ depth = 0
    · obtain ⟨item, later, later', rest, hitems, htext, hsplit, hlater⟩ := ih hps depth
      refine ⟨[], item :: later, place (byteLength (before ++ p.chars)) item :: later', textOf (p :: ps),
        ?_, rfl, ?_, .cons ⟨before ++ p.chars, rest ++ after, ?_, rfl⟩ hlater⟩
      · rw [items, if_pos hc, hitems]
      · rw [place_cons, splitItems, if_pos hc, hposition, hsplit]
        rfl
      · rw [hps, htext, List.append_assoc (textOf item)]
    · obtain ⟨item, later, later', rest, hitems, htext, hsplit, hlater⟩ :=
        ih hps (depthAfter depth ⟨p.kind, 0, 0⟩)
      refine ⟨p :: item, later, later', rest, ?_, ?_, ?_, hlater⟩
      · rw [items, if_neg hc, hitems]
      · rw [textOf_cons, textOf_cons, htext]
        simp only [List.append_assoc]
      · have hdepth (start stop : Nat) : depthAfter depth ⟨p.kind, start, stop⟩ =
            depthAfter depth ⟨p.kind, 0, 0⟩ := rfl
        rw [place_cons, splitItems, if_neg hc, hposition, hdepth, hsplit, place_cons, hposition]

theorem Stands.splitItems {source : List Char} {ts : List Token} {ps : List Piece} (h : Stands source ts ps)
    (depth : Nat) : List.Forall₂ (Stands source) (splitItems depth ts) (items depth ps) := by
  obtain ⟨before, after, hs, rfl⟩ := h
  obtain ⟨item, later, later', rest, hitems, htext, hsplit, hlater⟩ := splitItems_place hs depth
  rw [hitems, hsplit]
  refine .cons ⟨before, rest ++ after, ?_, rfl⟩ hlater
  rw [hs, htext, List.append_assoc]

def isLoneStar : List Piece → Bool
  | [p] => p.kind == .star
  | _ => false

def projection (ps : List Piece) : Projection :=
  let found := (items 0 ps).filter (!·.isEmpty)
  let names := (found.filter (!isLoneStar ·)).map fun item => fold (String.ofList (sourceOf item))
  if found.isEmpty then .unresolved
  else if names.isEmpty then .all
  else .columns names

theorem Stands.isEmpty_eq {source : List Char} {ts : List Token} {ps : List Piece}
    (h : Stands source ts ps) : ts.isEmpty = ps.isEmpty := by
  obtain ⟨before, after, -, rfl⟩ := h
  cases ps <;> rfl

theorem Stands.isLoneStar_eq {source : List Char} {ts : List Token} {ps : List Piece}
    (h : Stands source ts ps) : TableQuery.isLoneStar ts = isLoneStar ps := by
  obtain ⟨before, after, -, rfl⟩ := h
  match ps with
  | [] | [_] | _ :: _ :: _ => rfl

/-- A select list asks for the same wherever it stands. -/
theorem Stands.projection_eq {source : List Char} {ts : List Token} {ps : List Piece}
    (h : Stands source ts ps) : Projection.ofTokens source ts = projection ps := by
  have hempty : (Stands source ⇒ (· ↔ ·)) (fun ts => !ts.isEmpty) (fun ps => !ps.isEmpty) := by
    intro ts ps hs
    dsimp only
    rw [hs.isEmpty_eq]
  have hstar : (Stands source ⇒ (· ↔ ·)) (fun ts => !TableQuery.isLoneStar ts)
      (fun ps => !isLoneStar ps) := by
    intro ts ps hs
    dsimp only
    rw [hs.isLoneStar_eq]
  have htext : (Stands source ⇒ Eq) (fun ts => fold (sourceText source ts))
      (fun ps => fold (String.ofList (sourceOf ps))) := by
    intro ts ps hs
    exact congrArg fold hs.sourceText_eq
  have hfound := List.rel_filter hempty (h.splitItems 0)
  have hnames := List.rel_map htext (List.rel_filter hstar hfound)
  have hisEmpty : ((TableQuery.splitItems 0 ts).filter (!·.isEmpty)).isEmpty =
      ((items 0 ps).filter (!·.isEmpty)).isEmpty := by
    rw [Bool.eq_iff_iff, List.isEmpty_iff_length_eq_zero, List.isEmpty_iff_length_eq_zero, hfound.length_eq]
  rw [List.forall₂_eq_eq_eq] at hnames
  unfold Projection.ofTokens projection
  dsimp only
  rw [hisEmpty, hnames]

end Piece
end TableQuery
