import TableQuery.Proofs.ShortSort

/-! # Quicksort

A partition at the pivot permutes the list, and it keeps what passes its test in order. The recursion gives the
stable sort since the parts on the two sides of a pivot are sorted apart from each other, and what equals the
least element is sorted as it stands.
-/
namespace TableQuery.Sorting
variable {α : Type} {p : α → Prop} {cmp : α → α → Ordering} {size : Nat} {xs ys : List α}

theorem partitionAt_perm (i : Nat) (pivotPasses : Bool) (test : α → Bool) (xs : List α) :
    ((partitionAt i pivotPasses test xs).1 ++ (partitionAt i pivotPasses test xs).2).Perm xs := by
  classical
  have hxs : (xs.take i ++ ((xs.drop i).take 1 ++ xs.drop (i + 1))) = xs := by
    rw [← List.drop_drop, List.take_append_drop, List.take_append_drop]
  have hpart (ys : List α) : ((ys.partition test).1 ++ (ys.partition test).2).Perm ys := by
    rw [List.partition_eq_filter_filter]
    exact List.filter_append_perm test ys
  refine .trans ?_ (.of_eq hxs)
  rw [List.perm_iff_count]
  intro a
  have hbefore := (hpart (xs.take i)).count_eq a
  have hafter := (hpart (xs.drop (i + 1))).count_eq a
  unfold partitionAt
  cases pivotPasses <;> simp only [List.count_append, if_true, Bool.false_eq_true, if_false] at * <;> omega

theorem partitionAt_eq {i : Nat} {pivotPasses : Bool} {test : α → Bool} {pivot : α}
    (hi : xs[i]? = some pivot) (h : test pivot = pivotPasses) :
    partitionAt i pivotPasses test xs = (xs.filter test, xs.filter fun x => !test x) := by
  obtain ⟨hlt, hget⟩ := List.getElem?_eq_some_iff.1 hi
  have hxs : xs.take i ++ (pivot :: xs.drop (i + 1)) = xs := by
    rw [← hget, List.getElem_cons_drop, List.take_append_drop]
  have hpivot : (xs.drop i).take 1 = [pivot] := by
    rw [← List.getElem_cons_drop hlt, hget, List.take_succ_cons, List.take_zero]
  have hfilter (t : α → Bool) : xs.filter t = (xs.take i).filter t ++ ((pivot :: xs.drop (i + 1)).filter t) := by
    rw [← List.filter_append, hxs]
  rw [hfilter test, hfilter fun x => !test x]
  unfold partitionAt
  subst h
  cases ht : test pivot <;> simp [List.partition_eq_filter_filter, Function.comp_def, hpivot, ht]

theorem sameTies_filter {test : α → Bool} (hcmp : PreorderOn p cmp) (hxs : ∀ x ∈ xs, p x)
    (h : ∀ a ∈ xs, ∀ b ∈ xs, test a = true → test b = false → cmp a b = .lt) :
    SameTies p cmp (xs.filter test ++ xs.filter fun x => !test x) xs := by
  induction xs with
  | nil => exact SameTies.refl _
  | cons x xs ih =>
    obtain ⟨hx, hxs⟩ := List.forall_mem_cons.1 hxs
    have ih := ih hxs fun a ha b hb => h a (List.mem_cons_of_mem x ha) b (List.mem_cons_of_mem x hb)
    have hcons : SameTies p cmp ([x] ++ (xs.filter test ++ xs.filter fun x => !test x)) (x :: xs) :=
      (SameTies.refl [x]).append ih
    cases ht : test x with
    | true => simpa [ht] using hcons
    | false =>
      have hswap : SameTies p cmp (xs.filter test ++ [x]) ([x] ++ xs.filter test) := by
        apply sameTies_append_comm hcmp (by simpa using hx) fun a ha => hxs a (List.mem_filter.1 ha).1
        intro a ha b hb
        obtain ⟨ha, hta⟩ := List.mem_filter.1 ha
        obtain rfl := List.mem_singleton.1 hb
        exact h a (List.mem_cons_of_mem b ha) b List.mem_cons_self hta ht
      have hmove := hswap.append (.refl (xs.filter fun x => !test x))
      simpa [ht] using hmove.trans (by simpa using hcons)

/-- What passes a test is sorted apart from the rest if it is less than the rest. -/
theorem stableSort_filter_append {test : α → Bool} (hcmp : PreorderOn p cmp) (hxs : ∀ x ∈ xs, p x)
    (h : ∀ a ∈ xs, ∀ b ∈ xs, test a = true → test b = false → cmp a b = .lt) :
    stableSort cmp (xs.filter test) ++ stableSort cmp (xs.filter fun x => !test x) = stableSort cmp xs := by
  have hfilter {t : α → Bool} : ∀ x ∈ xs.filter t, p x := fun x hx => hxs x (List.mem_filter.1 hx).1
  have hperm {t : α → Bool} : (stableSort cmp (xs.filter t)).Perm (xs.filter t) := stableSort_perm _
  apply eq_stableSort hcmp hxs
  · exact (hperm.append hperm).trans (List.filter_append_perm test xs)
  · refine List.pairwise_append.2 ⟨sorted_stableSort hcmp hfilter, sorted_stableSort hcmp hfilter, ?_⟩
    intro a ha b hb
    obtain ⟨ha, hta⟩ := List.mem_filter.1 (hperm.mem_iff.1 ha)
    obtain ⟨hb, htb⟩ := List.mem_filter.1 (hperm.mem_iff.1 hb)
    simp [h a ha b hb hta (by simpa using htb)]
  · exact ((sameTies_stableSort hcmp hfilter).append (sameTies_stableSort hcmp hfilter)).trans
      (sameTies_filter hcmp hxs h)

/-- What is less than the pivot is sorted apart from the rest. -/
theorem stableSort_less_append {pivot : α} (hcmp : PreorderOn p cmp) (hxs : ∀ x ∈ xs, p x) (hp : p pivot) :
    stableSort cmp (xs.filter fun x => cmp x pivot = .lt) ++
      stableSort cmp (xs.filter fun x => !decide (cmp x pivot = .lt)) = stableSort cmp xs := by
  apply stableSort_filter_append hcmp hxs
  intro a ha b hb hta htb
  have hpb : cmp pivot b ≠ .gt := (hcmp.ne_gt_iff hp (hxs b hb)).2 (by simpa using htb)
  exact hcmp.lt_of_lt_of_ne_gt (hxs a ha) hp (hxs b hb) (by simpa using hta) hpb

/-- Where nothing is less than the pivot, what it is not less than ties with it and stays as it stands. -/
theorem equal_append_stableSort {pivot : α} (hcmp : PreorderOn p cmp) (hxs : ∀ x ∈ xs, p x) (hp : p pivot)
    (hall : ∀ x ∈ xs, cmp pivot x ≠ .gt) :
    (xs.filter fun x => cmp pivot x ≠ .lt) ++
      stableSort cmp (xs.filter fun x => !decide (cmp pivot x ≠ .lt)) = stableSort cmp xs := by
  have hle {x : α} (hx : x ∈ xs) (hpx : cmp pivot x ≠ .lt) : cmp x pivot ≠ .gt :=
    (hcmp.ne_gt_iff (hxs x hx) hp).2 hpx
  have hequal : stableSort cmp (xs.filter fun x => cmp pivot x ≠ .lt) =
      xs.filter fun x => cmp pivot x ≠ .lt := by
    refine stableSort_of_pairwise (List.pairwise_of_forall_mem_list fun a ha b hb => ?_)
    obtain ⟨ha, hpa⟩ := List.mem_filter.1 ha
    obtain ⟨hb, -⟩ := List.mem_filter.1 hb
    apply (hcmp.ne_gt_iff (hxs a ha) (hxs b hb)).1
    exact hcmp.trans (hxs a ha) hp (hxs b hb) (hle ha (of_decide_eq_true hpa)) (hall b hb)
  nth_rewrite 1 [← hequal]
  apply stableSort_filter_append hcmp hxs
  intro a ha b hb hta htb
  exact hcmp.lt_of_ne_gt_of_lt (hxs a ha) hp (hxs b hb) (hle ha (by simpa using hta)) (by simpa using htb)

theorem medianOf_mem (less : Nat → Nat → Bool) (a b c : Nat) : medianOf less a b c ∈ [a, b, c] := by
  unfold medianOf
  split_ifs <;> simp

theorem medianFrom_lt {less : Nat → Nat → Bool} {a b c n bound : Nat} (hn : 0 < n) (ha : a + n ≤ bound)
    (hb : b + n ≤ bound) (hc : c + n ≤ bound) : medianFrom less a b c n < bound := by
  induction n using Nat.strongRecOn generalizing a b c with
  | _ n ih =>
    have hmedian {a b c : Nat} (ha : a < bound) (hb : b < bound) (hc : c < bound) :
        medianOf less a b c < bound := by
      rcases List.mem_cons.1 (medianOf_mem less a b c) with h | h
      · rwa [h]
      · rcases List.mem_pair.1 h with h | h <;> rwa [h]
    unfold medianFrom
    split
    · exact hmedian (by omega) (by omega) (by omega)
    · have hlow {i : Nat} (hi : i + n ≤ bound) :
          medianFrom less i (i + 4 * (n / 8)) (i + 7 * (n / 8)) (n / 8) < bound :=
        ih (n / 8) (by omega) (by omega) (by omega) (by omega) (by omega)
      exact hmedian (hlow ha) (hlow hb) (hlow hc)

theorem pivotIndex_lt (less : Nat → Nat → Bool) {n : Nat} (hn : 8 ≤ n) : pivotIndex less n < n := by
  simp only [pivotIndex]
  split
  · have hmem := medianOf_mem less 0 (4 * (n / 8)) (7 * (n / 8))
    simp only [List.mem_cons, List.not_mem_nil, or_false] at hmem
    omega
  · exact medianFrom_lt (by omega) (by omega) (by omega) (by omega)

section quicksort
variable {fallback : List α → Option (List α)} {limit : Nat} {least : Option α}

theorem quicksort_perm (hfallback : ∀ {xs ys}, fallback xs = some ys → ys.Perm xs)
    (h : quicksort cmp size fallback limit least xs = some ys) : ys.Perm xs := by
  induction limit generalizing least xs ys with
  | zero =>
    unfold quicksort at h
    split at h
    · exact sortShort_perm h
    · exact hfallback h
  | succ limit ih =>
    unfold quicksort at h
    dsimp only at h
    split at h
    · exact sortShort_perm h
    split at h
    · rw [Option.some.inj h]
    split at h
    · obtain ⟨right, hright, h⟩ := Option.bind_eq_some_iff.1 h
      rw [← Option.some.inj h]
      exact ((ih hright).append_left _).trans (partitionAt_perm _ _ _ xs)
    · obtain ⟨right, hright, h⟩ := Option.bind_eq_some_iff.1 h
      obtain ⟨left, hleft, h⟩ := Option.bind_eq_some_iff.1 h
      rw [← Option.some.inj h]
      exact ((ih hleft).append (ih hright)).trans (partitionAt_perm _ _ _ xs)

/-- No element is less than `least`. So if that is no less than the pivot, the elements that the pivot is not
less than are equal to it, and are sorted as they stand. -/
theorem quicksort_eq (hcmp : PreorderOn p cmp)
    (hfallback : ∀ xs, (∀ x ∈ xs, p x) → fallback xs = some (stableSort cmp xs)) (hxs : ∀ x ∈ xs, p x)
    (hleast : ∀ a ∈ least, p a ∧ ∀ x ∈ xs, cmp x a ≠ .lt) :
    quicksort cmp size fallback limit least xs = some (stableSort cmp xs) := by
  induction limit generalizing least xs with
  | zero =>
    unfold quicksort
    split
    · exact sortShort_eq hcmp hxs
    · exact hfallback xs hxs
  | succ limit ih =>
    unfold quicksort
    dsimp only
    split
    next => exact sortShort_eq hcmp hxs
    next hlong =>
    obtain ⟨pivot, hpivot⟩ : ∃ pivot, xs[pivotIndex (lessAt cmp xs) xs.length]? = some pivot :=
      ⟨_, List.getElem?_eq_getElem (pivotIndex_lt _ (by omega))⟩
    have hp : p pivot := hxs pivot (List.mem_of_getElem? hpivot)
    have hfilter {t : α → Bool} : ∀ x ∈ xs.filter t, p x := fun x hx => hxs x (List.mem_filter.1 hx).1
    rw [hpivot]
    dsimp only
    rw [partitionAt_eq hpivot (by simp [hcmp.refl hp]), partitionAt_eq hpivot (by simp [hcmp.refl hp])]
    dsimp only
    split
    next hcond =>
      have hall : ∀ x ∈ xs, cmp pivot x ≠ .gt := by
        intro x hx
        rcases Bool.or_eq_true_iff.1 hcond with ha | hnone
        · obtain ⟨a, ha, hap⟩ := Option.any_eq_true _ _ |>.1 ha
          obtain ⟨hpa, hax⟩ := hleast a ha
          have hle : cmp pivot a ≠ .gt := (hcmp.ne_gt_iff hp hpa).2 (of_decide_eq_true hap)
          exact hcmp.trans hp hpa (hxs x hx) hle ((hcmp.ne_gt_iff hpa (hxs x hx)).2 (hax x hx))
        · refine (hcmp.ne_gt_iff hp (hxs x hx)).2 fun hlt => ?_
          simpa [hlt] using List.filter_eq_nil_iff.1 (List.isEmpty_iff.1 hnone) x hx
      rw [ih hfilter (by simp), ← equal_append_stableSort hcmp hxs hp hall]
      rfl
    next =>
      have hright : ∀ a ∈ some pivot, p a ∧
          ∀ x ∈ xs.filter fun x => !decide (cmp x pivot = .lt), cmp x a ≠ .lt := by
        intro a ha
        obtain rfl := Option.mem_some_iff.1 ha
        exact ⟨hp, fun x hx => by simpa using (List.mem_filter.1 hx).2⟩
      have hleft : ∀ a ∈ least, p a ∧
          ∀ x ∈ xs.filter fun x => decide (cmp x pivot = .lt), cmp x a ≠ .lt := fun a ha =>
        ⟨(hleast a ha).1, fun x hx => (hleast a ha).2 x (List.mem_filter.1 hx).1⟩
      rw [ih hfilter hright, ih hfilter hleft, ← stableSort_less_append hcmp hxs hp]
      rfl

end quicksort

end TableQuery.Sorting
