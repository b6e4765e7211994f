import Mathlib.Data.Finset.Card
import TableQuery.Proofs.Records

/-! # Records from any pairs

Pairs that are put into a record one after another leave each key in the place where it came first, with the
value that came last.
-/
namespace TableQuery.Record

theorem get?_eq_none_iff {r : Record} {key : String} : r.get? key = none ↔ key ∉ r.keys := by
  rw [get?, Option.map_eq_none_iff, List.find?_eq_none, keys, List.mem_map]
  simp only [beq_iff_eq, not_exists, not_and]

theorem keys_insert (r : Record) (key : String) (value : Value) :
    (r.insert key value).keys = if key ∈ r.keys then r.keys else r.keys ++ [key] := by
  obtain ⟨entries⟩ := r
  change (insertEntry key value entries).map Prod.fst =
    if key ∈ entries.map Prod.fst then entries.map Prod.fst else entries.map Prod.fst ++ [key]
  split
  next hmem =>
    induction entries with
    | nil => cases hmem
    | cons e entries ih =>
      rw [insertEntry]
      split
      next he => rw [List.map_cons, List.map_cons, he]
      next he =>
        have hrest := (List.mem_cons.1 hmem).resolve_left (Ne.symm he)
        rw [List.map_cons, List.map_cons, ih hrest]
  next hmem => rw [insertEntry_of_not_mem hmem, List.map_append, List.map_singleton]

theorem get?_insert (r : Record) (key : String) (value : Value) (other : String) :
    (r.insert key value).get? other = if key = other then some value else r.get? other := by
  obtain ⟨entries⟩ := r
  change ((insertEntry key value entries).find? (·.1 == other)).map Prod.snd =
    if key = other then some value else (entries.find? (·.1 == other)).map Prod.snd
  induction entries with
  | nil => by_cases h : key = other <;> simp [insertEntry, h]
  | cons e entries ih =>
    rw [insertEntry]
    split
    next he => by_cases h : key = other <;> simp [he, h]
    next he =>
      rw [List.find?_cons, List.find?_cons]
      cases h : e.1 == other with
      | true =>
        have hne : key ≠ other := fun hkey => he ((beq_iff_eq.1 h).trans hkey.symm)
        rw [if_neg hne]
      | false => exact ih

def IsLast (pairs : List (String × Value)) (key : String) (value : Value) : Prop :=
  ∃ before after, pairs = before ++ (key, value) :: after ∧ key ∉ after.map Prod.fst

/-- The record is what the pairs leave when they are put one after another into an empty one. -/
structure IsLeftBy (r : Record) (pairs : List (String × Value)) : Prop where
  nodup_keys : r.keys.Nodup
  mem_keys_iff : ∀ key, key ∈ r.keys ↔ key ∈ pairs.map Prod.fst
  /-- Keys stand in the order in which they came first. -/
  pairwise_keys : r.keys.Pairwise fun a b => (pairs.map Prod.fst).idxOf a < (pairs.map Prod.fst).idxOf b
  size_eq : r.size = (pairs.map Prod.fst).toFinset.card
  get?_eq_some_iff : ∀ key value, r.get? key = some value ↔ IsLast pairs key value
  get?_eq_none_iff : ∀ key, r.get? key = none ↔ key ∉ pairs.map Prod.fst
  toRow_forall₂ : ∀ fields, List.Forall₂ (fun field value => IsLast pairs field value ∨
    field ∉ pairs.map Prod.fst ∧ value = .null) fields (r.toRow fields)

theorem isLast_append_singleton {pairs : List (String × Value)} {p : String × Value} {key : String}
    {value : Value} : IsLast (pairs ++ [p]) key value ↔
      if p.1 = key then p.2 = value else IsLast pairs key value := by
  constructor
  · rintro ⟨before, after, heq, hafter⟩
    rcases after.eq_nil_or_concat with rfl | ⟨after, q, rfl⟩
    · obtain ⟨-, hp⟩ := List.append_inj' heq rfl
      obtain rfl := List.singleton_inj.1 hp
      rw [if_pos rfl]
    · rw [List.concat_eq_append, ← List.cons_append, ← List.append_assoc] at heq
      obtain ⟨rfl, hp⟩ := List.append_inj' heq rfl
      obtain rfl := List.singleton_inj.1 hp
      rw [List.concat_eq_append, List.map_append, List.mem_append, not_or] at hafter
      have hne : p.1 ≠ key := fun h => hafter.2 (List.mem_singleton.2 h.symm)
      rw [if_neg hne]
      exact ⟨before, after, rfl, hafter.1⟩
  · intro h
    split at h
    next hkey => exact ⟨pairs, [], by rw [← hkey, ← h], List.not_mem_nil⟩
    next hkey =>
      obtain ⟨before, after, rfl, hafter⟩ := h
      refine ⟨before, after ++ [p], by rw [List.append_assoc, List.cons_append], ?_⟩
      rw [List.map_append, List.mem_append, not_or]
      exact ⟨hafter, fun hp => hkey (List.mem_singleton.1 hp).symm⟩

namespace IsLeftBy
variable {r : Record} {pairs : List (String × Value)}

/-- Keys in order are distinct, and the values under them make up the rows. -/
theorem of_keys (hmem : ∀ key, key ∈ r.keys ↔ key ∈ pairs.map Prod.fst)
    (hkeys : r.keys.Pairwise fun a b => (pairs.map Prod.fst).idxOf a < (pairs.map Prod.fst).idxOf b)
    (hget : ∀ key value, r.get? key = some value ↔ IsLast pairs key value) : r.IsLeftBy pairs := by
  have hnodup : r.keys.Nodup := by
    refine hkeys.imp ?_
    rintro a b hlt rfl
    exact Nat.lt_irrefl _ hlt
  have hnone (key : String) : r.get? key = none ↔ key ∉ pairs.map Prod.fst := by
    rw [Record.get?_eq_none_iff, hmem]
  constructor
  case nodup_keys => exact hnodup
  case mem_keys_iff => exact hmem
  case pairwise_keys => exact hkeys
  case size_eq =>
    have hset : r.keys.toFinset = (pairs.map Prod.fst).toFinset := by
      ext key
      rw [List.mem_toFinset, List.mem_toFinset, hmem]
    rw [← hset, List.toFinset_card_of_nodup hnodup, keys, List.length_map, size]
  case get?_eq_some_iff => exact hget
  case get?_eq_none_iff => exact hnone
  case toRow_forall₂ =>
    intro fields
    rw [toRow, List.forall₂_map_right_iff, List.forall₂_same]
    intro field _
    cases hfield : r.get? field with
    | none => exact .inr ⟨(hnone field).1 hfield, rfl⟩
    | some value => exact .inl ((hget field value).1 hfield)

theorem nil : empty.IsLeftBy [] := by
  refine of_keys (fun _ => Iff.rfl) .nil fun key value => iff_of_false nofun ?_
  rintro ⟨before, after, heq, -⟩
  cases before <;> cases heq

/-- A pair goes to the place of its key, or to the end if the key is new. -/
theorem insert (h : r.IsLeftBy pairs) (key : String) (value : Value) :
    (r.insert key value).IsLeftBy (pairs ++ [(key, value)]) := by
  have hfst : (pairs ++ [(key, value)]).map Prod.fst = pairs.map Prod.fst ++ [key] := by
    rw [List.map_append, List.map_singleton]
  apply of_keys
  · intro other
    rw [keys_insert, hfst, List.mem_append, List.mem_singleton, ← h.mem_keys_iff]
    split
    next hkey => exact ⟨.inl, fun hother => hother.elim id fun heq => heq ▸ hkey⟩
    next => rw [List.mem_append, List.mem_singleton]
  · -- A key that is there already keeps its place, also among the pairs.
    have hplace (other : String) (hother : other ∈ r.keys) :
        (pairs.map Prod.fst ++ [key]).idxOf other = (pairs.map Prod.fst).idxOf other :=
      List.idxOf_append_of_mem ((h.mem_keys_iff other).1 hother)
    have hold : r.keys.Pairwise fun a b =>
        (pairs.map Prod.fst ++ [key]).idxOf a < (pairs.map Prod.fst ++ [key]).idxOf b := by
      refine h.pairwise_keys.imp_of_mem fun ha hb hlt => ?_
      rwa [hplace _ ha, hplace _ hb]
    rw [keys_insert, hfst]
    split
    next => exact hold
    next hkey =>
      refine List.pairwise_append.2 ⟨hold, List.pairwise_singleton _ _, fun a ha b hb => ?_⟩
      have hnew : key ∉ pairs.map Prod.fst := mt (h.mem_keys_iff key).2 hkey
      rw [List.mem_singleton.1 hb, hplace a ha, List.idxOf_append_of_notMem hnew]
      exact Nat.lt_add_right _ (List.idxOf_lt_length_iff.2 ((h.mem_keys_iff a).1 ha))
  · intro other v
    rw [get?_insert, isLast_append_singleton]
    split
    next => exact Option.some_inj
    next => exact h.get?_eq_some_iff other v

theorem foldl_insert {before : List (String × Value)} (h : r.IsLeftBy before) (pairs : List (String × Value)) :
    (pairs.foldl (fun r p => r.insert p.1 p.2) r).IsLeftBy (before ++ pairs) := by
  induction pairs generalizing r before with
  | nil => rwa [List.append_nil]
  | cons p pairs ih =>
    have hp := ih (h.insert p.1 p.2)
    rwa [List.append_assoc] at hp

end IsLeftBy

/-- A record collected from pairs, into which others are put one after another, holds each key in the place
where it came first, with the value that came last. -/
theorem isLeftBy_foldl_insert (collected inserted : List (String × Value)) :
    (inserted.foldl (fun r p => r.insert p.1 p.2) (ofList collected)).IsLeftBy (collected ++ inserted) :=
  (IsLeftBy.nil.foldl_insert collected).foldl_insert inserted

example : ofList [("a", .integer 1), ("b", .null), ("a", .text "x")] = ⟨[("a", .text "x"), ("b", .null)]⟩ := by
  decide

end TableQuery.Record
