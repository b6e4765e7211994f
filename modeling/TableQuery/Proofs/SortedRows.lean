import Mathlib.Data.List.FinRange
import TableQuery.Proofs.TopRows

/-! # Sorted rows

Sorting puts the rows that have a key in its order, and all others behind them. Rows that tie stay as they
came. Rows may repeat, so they are told apart by their positions before sorting.
-/
namespace TableQuery

/-- A sorted list takes its elements from the positions of the list, each of them once; of two that tie the
earlier one comes first. -/
theorem exists_positions_sortBy {α : Type} {p : α → Prop} {cmp : α → α → Ordering} {xs : List α} (size : Nat)
    (hcmp : PreorderOn p cmp) (hxs : ∀ x ∈ xs, p x) : ∃ positions : List (Fin xs.length),
      positions.Perm (List.finRange xs.length) ∧ sortBy size cmp xs = some (positions.map xs.get) ∧
        positions.Pairwise (StandsBefore (fun i j => cmp (xs.get i) (xs.get j)) (· < ·)) := by
  refine ⟨stableSort (fun i j => cmp (xs.get i) (xs.get j)) (List.finRange xs.length), stableSort_perm _, ?_, ?_⟩
  · rw [map_stableSort, List.map_get_finRange, sortBy_eq hcmp hxs]
  · exact pairwise_stableSort (hcmp.comap xs.get) (fun i _ => hxs _ (xs.get_mem i)) (List.pairwise_lt_finRange _)

namespace SortOrder
variable {o : SortOrder} {a b : Value} {x y : Option Value}

def Allows : SortOrder → Value → Value → Prop
  | ascending, a, b => compare a b ≠ .gt
  | descending, a, b => compare a b ≠ .lt

def Ties : Option Value → Option Value → Prop
  | none, none => True
  | some a, some b => compare a b = .eq
  | _, _ => False

theorem eq_none_of_cmpKeys_none_ne_gt (h : o.cmpKeys none y ≠ .gt) : y = none := by
  cases y with
  | none => rfl
  | some b => cases o <;> exact absurd rfl h

theorem allows_of_cmpKeys_ne_gt (h : o.cmpKeys (some a) (some b) ≠ .gt) : o.Allows a b := by
  cases o with
  | ascending => exact h
  | descending =>
    intro hlt
    have hswap : compare b a = (compare a b).swap := Value.cmp_swap b a
    exact h (by rw [cmpKeys, hswap, hlt, Ordering.swap_lt])

theorem cmpKeys_eq_of_ties (h : Ties x y) : o.cmpKeys x y = .eq := by
  cases x with
  | none =>
    cases y with
    | none => cases o <;> rfl
    | some b => exact h.elim
  | some a =>
    cases y with
    | none => exact h.elim
    | some b =>
      have hab : compare a b = .eq := h
      cases o with
      | ascending => exact hab
      | descending =>
        have hswap : compare b a = (compare a b).swap := Value.cmp_swap b a
        rw [cmpKeys, hswap, hab, Ordering.swap_eq]

/-- The rows at the positions, in their order, are the given rows sorted by the value at an index. -/
structure IsSorting (o : SortOrder) (index : Nat) (rows : List Row) (positions : List (Fin rows.length)) :
    Prop where
  perm : positions.Perm (List.finRange rows.length)
  nulls_last : positions.Pairwise fun i j =>
    sortKey? index (rows.get i) = none → sortKey? index (rows.get j) = none
  ordered : positions.Pairwise fun i j => ∀ a b, sortKey? index (rows.get i) = some a →
    sortKey? index (rows.get j) = some b → o.Allows a b
  stable : positions.Pairwise fun i j =>
    Ties (sortKey? index (rows.get i)) (sortKey? index (rows.get j)) → i < j

theorem exists_isSorting (o : SortOrder) {index : Nat} {rows : List Row}
    (hm : ∀ row ∈ rows, ∀ v ∈ row[index]?, v.IsModerate) : ∃ positions,
      sortRows (some index) o rows = positions.map rows.get ∧ o.IsSorting index rows positions := by
  have hcmp : PreorderOn (fun row => ∀ v ∈ sortKey? index row, v.IsModerate) (o.cmpRows index) :=
    o.cmpKeys_preorder.comap (sortKey? index)
  have hkeys : ∀ row ∈ rows, ∀ v ∈ sortKey? index row, v.IsModerate := fun row hrow v hv =>
    hm row hrow v (Option.mem_filter_iff.1 hv).1
  obtain ⟨positions, hperm, hrows, hpairwise⟩ := exists_positions_sortBy 8 hcmp hkeys
  refine ⟨positions, by rw [sortRows, sortRows?, hrows, Option.getD_some], ?_⟩
  constructor
  case perm => exact hperm
  case nulls_last =>
    refine hpairwise.imp fun {i j} h hi => ?_
    have hne := h.ne_gt
    rw [cmpRows, hi] at hne
    exact eq_none_of_cmpKeys_none_ne_gt hne
  case ordered =>
    refine hpairwise.imp fun {i j} h a b ha hb => ?_
    have hne := h.ne_gt
    rw [cmpRows, ha, hb] at hne
    exact allows_of_cmpKeys_ne_gt hne
  case stable =>
    refine hpairwise.imp fun {i j} h hties => ?_
    rcases h with hlt | ⟨-, hij⟩
    · have heq : o.cmpRows index (rows.get i) (rows.get j) = .eq := cmpKeys_eq_of_ties hties
      cases heq.symm.trans hlt
    · exact hij

end SortOrder

/-- Rows are sorted by the value at an index, as long as no integer there is rounded when it meets a float.
Without an index they stay in their order. -/
theorem sortRows_isSorting (o : SortOrder) {index : Option Nat} {rows : List Row}
    (hm : ∀ i ∈ index, ∀ row ∈ rows, ∀ v ∈ row[i]?, v.IsModerate) :
    (index = none → sortRows index o rows = rows) ∧ ∀ i, index = some i → ∃ positions,
      sortRows index o rows = positions.map rows.get ∧ o.IsSorting i rows positions := by
  constructor
  · rintro rfl
    rfl
  · rintro i rfl
    exact o.exists_isSorting (hm i rfl)

/-- Falling keys of several kinds: a text, numbers of which one is none and two are zeros, a boolean, and at
the end the rows without a key, one of which is too short. -/
theorem sortRows_isSorting_mixed :
    let rows : List Row := [[.null, .integer 1], [.integer 2], [.float ⟨0x8000000000000000⟩, .integer 3],
      [.boolean true, .integer 4], [.integer 0, .integer 5], [.text "x", .integer 6], [],
      [.float ⟨0x7FF8000000000000⟩, .integer 8]]
    (∀ i ∈ some 0, ∀ row ∈ rows, ∀ v ∈ row[i]?, v.IsModerate) ∧
      sortRows (some 0) .descending rows = [[.text "x", .integer 6], [.float ⟨0x7FF8000000000000⟩, .integer 8],
        [.integer 2], [.float ⟨0x8000000000000000⟩, .integer 3], [.integer 0, .integer 5],
        [.boolean true, .integer 4], [.null, .integer 1], []] ∧
      ∃ positions, sortRows (some 0) .descending rows = positions.map rows.get ∧
        SortOrder.descending.IsSorting 0 rows positions := by
  intro rows
  have hm : ∀ i ∈ some 0, ∀ row ∈ rows, ∀ v ∈ row[i]?, v.IsModerate := by decide +kernel
  exact ⟨hm, by decide +kernel, (sortRows_isSorting .descending hm).2 0 rfl⟩

end TableQuery
