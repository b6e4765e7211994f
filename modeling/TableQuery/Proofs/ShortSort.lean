import TableQuery.Proofs.Merging

/-! # Short lists sorted

On a total preorder the networks, the insertions and the merge from both ends give the stable sort, and nothing
makes them give up. Whatever the comparison is, what they give is a permutation.
-/
namespace TableQuery.Sorting
variable {α : Type} {p : α → Prop} {cmp : α → α → Ordering} {size total : Nat} {xs ys : List α}

theorem insertAll_perm (cmp : α → α → Ordering) (sorted xs : List α) :
    (insertAll cmp sorted xs).Perm (sorted ++ xs) :=
  (List.reverse_perm _).trans ((foldl_insertBehind_perm xs _).trans
    ((List.perm_append_comm).trans ((List.reverse_perm sorted).append_right xs)))

theorem insertAll_stableSort (xs ys : List α) :
    insertAll cmp (stableSort cmp xs) ys = stableSort cmp (xs ++ ys) := by
  simp [insertAll, stableSort, List.foldl_append]

theorem mergePairs_perm (a b c d : α) : (mergePairs cmp a b c d).Perm [a, b, c, d] := by
  classical
  rw [List.perm_iff_count]
  intro z
  unfold mergePairs sortMiddle
  split_ifs <;> simp only [List.count_cons, List.count_nil] <;> omega

theorem sortFour_perm (cmp : α → α → Ordering) (xs : List α) : (sortFour cmp xs).Perm xs := by
  unfold sortFour
  split
  next v w x y =>
    have hvw : [w, v].Perm [v, w] := List.Perm.swap v w []
    have hxy : [y, x].Perm [x, y] := List.Perm.swap x y []
    split_ifs
    · exact (mergePairs_perm w v y x).trans (hvw.append hxy)
    · exact (mergePairs_perm w v x y).trans (hvw.append_right [x, y])
    · exact (mergePairs_perm v w y x).trans (hxy.append_left [v, w])
    · exact mergePairs_perm v w x y
  next => rfl

/-- The three comparisons are those of a merge, but for the one that the others decide. -/
theorem mergePairs_eq {a b c d : α} (hcmp : PreorderOn p cmp) (ha : p a) (hb : p b) (hc : p c) (hd : p d)
    (hab : cmp b a ≠ .lt) (hcd : cmp d c ≠ .lt) : mergePairs cmp a b c d = mergeRuns cmp [a, b] [c, d] := by
  unfold mergePairs sortMiddle
  by_cases hca : cmp c a = .lt
  · by_cases hdb : cmp d b = .lt
    · by_cases hda : cmp d a = .lt <;> simp [mergeRuns, mergeSteps, hca, hdb, hda]
    · have hda : cmp d a ≠ .lt := fun hda =>
        hdb (hcmp.lt_of_lt_of_ne_gt hd ha hb hda ((hcmp.ne_gt_iff ha hb).2 hab))
      simp [mergeRuns, mergeSteps, hca, hdb, hda, hab]
  · by_cases hdb : cmp d b = .lt
    · have hcb : cmp c b = .lt := hcmp.lt_of_ne_gt_of_lt hc hd hb ((hcmp.ne_gt_iff hc hd).2 hcd) hdb
      simp [mergeRuns, mergeSteps, hca, hdb, hcb, hcd]
    · by_cases hcb : cmp c b = .lt <;> simp [mergeRuns, mergeSteps, hca, hdb, hcb]

theorem sortFour_eq (hcmp : PreorderOn p cmp) (hxs : ∀ x ∈ xs, p x) (hlen : xs.length = 4) :
    sortFour cmp xs = stableSort cmp xs := by
  obtain ⟨v, w, x, y, rfl⟩ := List.length_eq_four.1 hlen
  simp only [List.forall_mem_cons] at hxs
  obtain ⟨hv, hw, hx, hy, -⟩ := hxs
  have hpair {a b : α} : stableSort cmp [a, b] = if cmp b a = .lt then [b, a] else [a, b] := by
    by_cases h : cmp b a = .lt <;> simp [stableSort, insertBehind, h]
  have hlt {a b : α} (ha : p a) (hb : p b) (h : cmp b a = .lt) : cmp a b ≠ .lt := fun hab =>
    (hcmp.ne_gt_iff ha hb).1 (by simp [hab]) h
  have hmerge : mergeRuns cmp (stableSort cmp [v, w]) (stableSort cmp [x, y]) = stableSort cmp [v, w, x, y] :=
    mergeRuns_stableSort hcmp (by simp [hv, hw]) (by simp [hx, hy])
  rw [hpair, hpair] at hmerge
  refine Eq.trans ?_ hmerge
  simp only [sortFour]
  split_ifs with hwv hyx hyx
  · exact mergePairs_eq hcmp hw hv hy hx (hlt hv hw hwv) (hlt hx hy hyx)
  · exact mergePairs_eq hcmp hw hv hx hy (hlt hv hw hwv) hyx
  · exact mergePairs_eq hcmp hv hw hy hx hwv (hlt hx hy hyx)
  · exact mergePairs_eq hcmp hv hw hx hy hwv hyx

theorem sortEight_perm (h : sortEight cmp xs = some ys) : ys.Perm xs := by
  have hparts := (sortFour_perm cmp (xs.take 4)).append (sortFour_perm cmp (xs.drop 4))
  rw [List.take_append_drop] at hparts
  exact (mergeEnds_perm h).trans hparts

theorem sortEight_eq (hcmp : PreorderOn p cmp) (hxs : ∀ x ∈ xs, p x) (hlen : xs.length = 8) :
    sortEight cmp xs = some (stableSort cmp xs) := by
  have htake : ∀ x ∈ xs.take 4, p x := fun x hx => hxs x (List.mem_of_mem_take hx)
  have hdrop : ∀ x ∈ xs.drop 4, p x := fun x hx => hxs x (List.mem_of_mem_drop hx)
  rw [sortEight, sortFour_eq hcmp htake (by simp [hlen]), sortFour_eq hcmp hdrop (by simp [hlen]),
    mergeEnds_stableSort hcmp htake hdrop (by simp [hlen]) (by simp [hlen]), List.take_append_drop]

theorem sortHalf_perm (h : sortHalf cmp size total xs = some ys) : ys.Perm xs := by
  have hinsert {n : Nat} {sorted : List α} (hsorted : sorted.Perm (xs.take n)) :
      (insertAll cmp sorted (xs.drop n)).Perm xs := by
    have hperm := (insertAll_perm cmp sorted (xs.drop n)).trans (hsorted.append_right (xs.drop n))
    rwa [List.take_append_drop] at hperm
  unfold sortHalf at h
  split_ifs at h
  · obtain ⟨sorted, hsorted, rfl⟩ := Option.map_eq_some_iff.1 h
    exact hinsert (sortEight_perm hsorted)
  · obtain rfl := Option.some.inj h
    exact hinsert (sortFour_perm cmp _)
  · obtain rfl := Option.some.inj h
    exact stableSort_perm xs

theorem sortHalf_eq (hcmp : PreorderOn p cmp) (hxs : ∀ x ∈ xs, p x) (hlen : total / 2 ≤ xs.length) :
    sortHalf cmp size total xs = some (stableSort cmp xs) := by
  have htake {n : Nat} : ∀ x ∈ xs.take n, p x := fun x hx => hxs x (List.mem_of_mem_take hx)
  unfold sortHalf
  split_ifs with hwide hlong
  · rw [sortEight_eq hcmp htake (by simp; omega), Option.map_some, insertAll_stableSort, List.take_append_drop]
  · rw [sortFour_eq hcmp htake (by simp; omega), insertAll_stableSort, List.take_append_drop]
  · rfl

theorem sortShort_perm (h : sortShort cmp size xs = some ys) : ys.Perm xs := by
  simp only [sortShort, Option.bind_eq_bind, Option.bind_eq_some_iff] at h
  obtain ⟨left, hleft, right, hright, h⟩ := h
  have hparts := (sortHalf_perm hleft).append (sortHalf_perm hright)
  rw [List.take_append_drop] at hparts
  exact (mergeEnds_perm h).trans hparts

theorem sortShort_eq (hcmp : PreorderOn p cmp) (hxs : ∀ x ∈ xs, p x) :
    sortShort cmp size xs = some (stableSort cmp xs) := by
  have htake : ∀ x ∈ xs.take (xs.length / 2), p x := fun x hx => hxs x (List.mem_of_mem_take hx)
  have hdrop : ∀ x ∈ xs.drop (xs.length / 2), p x := fun x hx => hxs x (List.mem_of_mem_drop hx)
  rw [sortShort, sortHalf_eq hcmp htake (by simp; omega), sortHalf_eq hcmp hdrop (by simp; omega)]
  refine (mergeEnds_stableSort hcmp htake hdrop (by simp; omega) (by simp; omega)).trans ?_
  rw [List.take_append_drop]

end TableQuery.Sorting
