import TableQuery.Record

/-! # Records from distinct keys

A pair with a new key is put at the end, so that pairs with distinct keys make up a record as they are.
-/
namespace TableQuery.Record

theorem insertEntry_of_not_mem {key : String} {entries : List (String × Value)}
    (h : key ∉ entries.map Prod.fst) (value : Value) :
    insertEntry key value entries = entries ++ [(key, value)] := by
  induction entries with
  | nil => rfl
  | cons e entries ih =>
    obtain ⟨hne, hrest⟩ := not_or.1 (fun hm => h (List.mem_cons.2 hm))
    rw [insertEntry, if_neg (Ne.symm hne), ih hrest, List.cons_append]

theorem foldl_insert_of_nodup {pairs entries : List (String × Value)}
    (h : ((entries ++ pairs).map Prod.fst).Nodup) :
    pairs.foldl (fun (r : Record) p => r.insert p.1 p.2) ⟨entries⟩ = ⟨entries ++ pairs⟩ := by
  induction pairs generalizing entries with
  | nil => rw [List.foldl_nil, List.append_nil]
  | cons p pairs ih =>
    have hp : p.1 ∉ entries.map Prod.fst := by
      rw [List.map_append, List.map_cons] at h
      intro hmem
      exact (List.nodup_append.1 h).2.2 p.1 hmem p.1 List.mem_cons_self rfl
    have happ : entries ++ p :: pairs = entries ++ [p] ++ pairs := by simp
    rw [happ] at h ⊢
    rw [List.foldl_cons, insert, insertEntry_of_not_mem hp, ih h]

theorem ofList_of_nodup {pairs : List (String × Value)} (h : (pairs.map Prod.fst).Nodup) :
    ofList pairs = ⟨pairs⟩ :=
  foldl_insert_of_nodup h

end TableQuery.Record
