import TableQuery.Sorting.Short

/-! # Stable sorting

Sorting by insertion permutes a list so that each element stands behind all that come before it, and
behind the older ones among those that it ties with. The comparison need only be a preorder on the
elements that occur. A list in order that keeps the order among ties is the sorted list, however it was
made.
-/
namespace TableQuery
variable {α β : Type}

structure PreorderOn (p : α → Prop) (cmp : α → α → Ordering) : Prop where
  swap : ∀ {a b}, p a → p b → cmp a b = (cmp b a).swap
  trans : ∀ {a b c}, p a → p b → p c → cmp a b ≠ .gt → cmp b c ≠ .gt → cmp a c ≠ .gt

theorem PreorderOn.comap {p : β → Prop} {cmp : β → β → Ordering} (h : PreorderOn p cmp) (f : α → β) :
    PreorderOn (fun a => p (f a)) (fun a b => cmp (f a) (f b)) :=
  ⟨fun ha hb => h.swap ha hb, fun ha hb hc => h.trans ha hb hc⟩

theorem PreorderOn.mono {p q : α → Prop} {cmp : α → α → Ordering} (h : PreorderOn p cmp)
    (hq : ∀ a, q a → p a) : PreorderOn q cmp :=
  ⟨fun ha hb => h.swap (hq _ ha) (hq _ hb), fun ha hb hc => h.trans (hq _ ha) (hq _ hb) (hq _ hc)⟩

namespace PreorderOn
variable {p : α → Prop} {cmp : α → α → Ordering} {a b c z : α}

theorem flip (h : PreorderOn p cmp) : PreorderOn p fun a b => cmp b a :=
  ⟨fun ha hb => h.swap hb ha, fun ha hb hc hab hbc => h.trans hc hb ha hbc hab⟩

theorem ne_gt_iff (h : PreorderOn p cmp) (ha : p a) (hb : p b) : cmp a b ≠ .gt ↔ cmp b a ≠ .lt := by
  rw [h.swap ha hb]
  cases cmp b a <;> simp

theorem lt_of_lt_of_ne_gt (h : PreorderOn p cmp) (ha : p a) (hb : p b) (hc : p c) (hab : cmp a b = .lt)
    (hbc : cmp b c ≠ .gt) : cmp a c = .lt := by
  refine Decidable.byContradiction fun hac => (h.ne_gt_iff hb ha).1 ?_ hab
  exact h.trans hb hc ha hbc ((h.ne_gt_iff hc ha).2 hac)

theorem lt_of_ne_gt_of_lt (h : PreorderOn p cmp) (ha : p a) (hb : p b) (hc : p c) (hab : cmp a b ≠ .gt)
    (hbc : cmp b c = .lt) : cmp a c = .lt := by
  refine Decidable.byContradiction fun hac => (h.ne_gt_iff hc hb).1 ?_ hbc
  exact h.trans hc ha hb ((h.ne_gt_iff hc ha).2 hac) hab

theorem not_lt_of_ties (h : PreorderOn p cmp) (hz : p z) (ha : p a) (hb : p b) (hza : cmp z a = .eq)
    (hzb : cmp z b = .eq) : cmp a b ≠ .lt := by
  intro hab
  simp [h.lt_of_ne_gt_of_lt hz ha hb (by simp [hza]) hab] at hzb

theorem refl (h : PreorderOn p cmp) (ha : p a) : cmp a a = .eq := by
  have hswap := h.swap ha ha
  cases haa : cmp a a with
  | eq => rfl
  | lt | gt => simp [haa] at hswap

end PreorderOn

/-- Before another element stand those that are less, and of those that tie the older ones. -/
def StandsBefore (cmp : α → α → Ordering) (older : α → α → Prop) (a b : α) : Prop :=
  cmp a b = .lt ∨ cmp a b = .eq ∧ older a b

theorem StandsBefore.of_ne_gt {cmp : α → α → Ordering} {older : α → α → Prop} {a b : α}
    (h : cmp a b ≠ .gt) (ho : older a b) : StandsBefore cmp older a b := by
  cases hc : cmp a b with
  | lt => exact Or.inl hc
  | eq => exact Or.inr ⟨hc, ho⟩
  | gt => exact absurd hc h

theorem StandsBefore.ne_gt {cmp : α → α → Ordering} {older : α → α → Prop} {a b : α}
    (h : StandsBefore cmp older a b) : cmp a b ≠ .gt := by
  rcases h with h | ⟨h, _⟩ <;> rw [h] <;> exact nofun

section Insertion
variable {cmp : α → α → Ordering}

theorem insertBehind_perm (x : α) (ys : List α) : (insertBehind cmp x ys).Perm (x :: ys) := by
  induction ys with
  | nil => exact List.Perm.refl _
  | cons y ys ih =>
    unfold insertBehind
    split
    · exact (ih.cons y).trans (List.Perm.swap x y ys)
    · exact List.Perm.refl _

/-- The list has its last element first, so that the newest element walks past those that it comes
before. -/
theorem pairwise_insertBehind {p : α → Prop} {older : α → α → Prop} (hcmp : PreorderOn p cmp) {x : α}
    {ys : List α} (hx : p x) (hys : ∀ y ∈ ys, p y) (hold : ∀ y ∈ ys, older y x)
    (hs : ys.Pairwise fun a b => StandsBefore cmp older b a) :
    (insertBehind cmp x ys).Pairwise fun a b => StandsBefore cmp older b a := by
  induction ys with
  | nil => exact List.pairwise_singleton _ _
  | cons y ys ih =>
    obtain ⟨hy, hs⟩ := List.pairwise_cons.1 hs
    obtain ⟨hpy, hpys⟩ := List.forall_mem_cons.1 hys
    obtain ⟨hoy, hoys⟩ := List.forall_mem_cons.1 hold
    unfold insertBehind
    split
    next hlt =>
      refine List.pairwise_cons.2 ⟨fun z hz => ?_, ih hpys hoys hs⟩
      rcases List.mem_cons.1 ((insertBehind_perm x ys).mem_iff.1 hz) with rfl | hz
      · exact Or.inl hlt
      · exact hy z hz
    next hlt =>
      have hyx : cmp y x ≠ .gt := by
        rw [hcmp.swap hpy hx]
        cases h : cmp x y with
        | lt => exact absurd h hlt
        | eq => exact nofun
        | gt => exact nofun
      refine List.pairwise_cons.2 ⟨fun z hz => ?_, List.pairwise_cons.2 ⟨hy, hs⟩⟩
      rcases List.mem_cons.1 hz with rfl | hz
      · exact .of_ne_gt hyx hoy
      · exact .of_ne_gt (hcmp.trans (hpys z hz) hpy hx (hy z hz).ne_gt hyx) (hoys z hz)

end Insertion

section Sorting
variable {cmp : α → α → Ordering}

theorem foldl_insertBehind_perm (xs sorted : List α) :
    (xs.foldl (fun sorted x => insertBehind cmp x sorted) sorted).Perm (xs ++ sorted) := by
  induction xs generalizing sorted with
  | nil => exact List.Perm.refl _
  | cons x xs ih =>
    exact (ih _).trans (((insertBehind_perm x sorted).append_left xs).trans List.perm_middle)

theorem stableSort_perm (xs : List α) : (stableSort cmp xs).Perm xs := by
  refine (List.reverse_perm _).trans ((foldl_insertBehind_perm xs []).trans ?_)
  rw [List.append_nil]

/-- What is sorted so far is older than what is to come, and each insertion keeps it in order. -/
theorem pairwise_foldl_insertBehind {p : α → Prop} {older : α → α → Prop} (hcmp : PreorderOn p cmp)
    {xs sorted : List α} (hxs : ∀ x ∈ xs, p x) (hsorted : ∀ x ∈ sorted, p x) (hold : xs.Pairwise older)
    (hcross : ∀ a ∈ sorted, ∀ x ∈ xs, older a x)
    (hs : sorted.Pairwise fun a b => StandsBefore cmp older b a) :
    (xs.foldl (fun sorted x => insertBehind cmp x sorted) sorted).Pairwise
      fun a b => StandsBefore cmp older b a := by
  induction xs generalizing sorted with
  | nil => exact hs
  | cons x xs ih =>
    obtain ⟨hpx, hpxs⟩ := List.forall_mem_cons.1 hxs
    obtain ⟨hox, hoxs⟩ := List.pairwise_cons.1 hold
    have hmem {a : α} (ha : a ∈ insertBehind cmp x sorted) : a = x ∨ a ∈ sorted :=
      List.mem_cons.1 ((insertBehind_perm x sorted).mem_iff.1 ha)
    apply ih hpxs _ hoxs
    · intro a ha y hy
      rcases hmem ha with rfl | ha
      · exact hox y hy
      · exact hcross a ha y (List.mem_cons_of_mem _ hy)
    · exact pairwise_insertBehind hcmp hpx hsorted (fun a ha => hcross a ha x List.mem_cons_self) hs
    · intro a ha
      rcases hmem ha with rfl | ha
      · exact hpx
      · exact hsorted a ha

/-- A sorted list is in order, and ties keep the order that they came in. -/
theorem pairwise_stableSort {p : α → Prop} {older : α → α → Prop} (hcmp : PreorderOn p cmp)
    {xs : List α} (hxs : ∀ x ∈ xs, p x) (hold : xs.Pairwise older) :
    (stableSort cmp xs).Pairwise (StandsBefore cmp older) :=
  List.pairwise_reverse.2 (pairwise_foldl_insertBehind hcmp hxs nofun hold nofun List.Pairwise.nil)

/-- A list in which no element belongs before an earlier one stays as it is. -/
theorem stableSort_of_pairwise {xs : List α} (h : xs.Pairwise fun a b => cmp b a ≠ .lt) :
    stableSort cmp xs = xs := by
  have hfold (sorted : List α) (hcross : ∀ a ∈ sorted, ∀ x ∈ xs, cmp x a ≠ .lt) :
      xs.foldl (fun sorted x => insertBehind cmp x sorted) sorted = xs.reverse ++ sorted := by
    induction xs generalizing sorted with
    | nil => rfl
    | cons x xs ih =>
      obtain ⟨hx, hxs⟩ := List.pairwise_cons.1 h
      have hinsert : insertBehind cmp x sorted = x :: sorted := by
        cases sorted with
        | nil => rfl
        | cons y sorted => exact if_neg (hcross y List.mem_cons_self x List.mem_cons_self)
      have hlater : ∀ a ∈ x :: sorted, ∀ y ∈ xs, cmp y a ≠ .lt := by
        refine List.forall_mem_cons.2 ⟨hx, fun a ha y hy => ?_⟩
        exact hcross a ha y (List.mem_cons_of_mem x hy)
      rw [List.foldl_cons, hinsert, ih hxs _ hlater, List.reverse_cons, List.append_assoc,
        List.singleton_append]
  rw [stableSort, hfold [] nofun, List.append_nil, List.reverse_reverse]

end Sorting

/-- Among the elements that tie with one another both lists have the same order. -/
def SameTies (p : α → Prop) (cmp : α → α → Ordering) (xs ys : List α) : Prop :=
  ∀ z, p z → xs.filter (cmp z · = .eq) = ys.filter (cmp z · = .eq)

section SameTies
variable {p : α → Prop} {cmp : α → α → Ordering} {xs ys zs xs' ys' : List α}

theorem SameTies.refl (xs : List α) : SameTies p cmp xs xs := fun _ _ => rfl

theorem SameTies.symm (h : SameTies p cmp xs ys) : SameTies p cmp ys xs := fun z hz => (h z hz).symm

theorem SameTies.trans (h : SameTies p cmp xs ys) (h' : SameTies p cmp ys zs) : SameTies p cmp xs zs :=
  fun z hz => (h z hz).trans (h' z hz)

theorem SameTies.append (h : SameTies p cmp xs ys) (h' : SameTies p cmp xs' ys') :
    SameTies p cmp (xs ++ xs') (ys ++ ys') := by
  intro z hz
  rw [List.filter_append, List.filter_append, h z hz, h' z hz]

theorem SameTies.reverse (h : SameTies p cmp xs ys) : SameTies p cmp xs.reverse ys.reverse := by
  intro z hz
  rw [List.filter_reverse, List.filter_reverse, h z hz]

theorem SameTies.of_flip (hcmp : PreorderOn p cmp) (hxs : ∀ x ∈ xs, p x) (hys : ∀ y ∈ ys, p y)
    (h : SameTies p (fun a b => cmp b a) xs ys) : SameTies p cmp xs ys := by
  intro z hz
  have hflip {zs : List α} (hzs : ∀ a ∈ zs, p a) : zs.filter (cmp z · = .eq) = zs.filter (cmp · z = .eq) :=
    List.filter_congr fun a ha => by simp [hcmp.swap hz (hzs a ha)]
  rw [hflip hxs, hflip hys, h z hz]

/-- Two lists may change places if each element of one is less than each of the other. -/
theorem sameTies_append_comm (hcmp : PreorderOn p cmp) (hxs : ∀ x ∈ xs, p x) (hys : ∀ y ∈ ys, p y)
    (h : ∀ y ∈ ys, ∀ x ∈ xs, cmp y x = .lt) : SameTies p cmp (ys ++ xs) (xs ++ ys) := by
  intro z hz
  rw [List.filter_append, List.filter_append]
  by_cases hex : ∃ y ∈ ys, cmp z y = .eq
  · obtain ⟨y, hy, hzy⟩ := hex
    have hnil : xs.filter (cmp z · = .eq) = [] := by
      refine List.filter_eq_nil_iff.2 fun x hx hzx => ?_
      exact hcmp.not_lt_of_ties hz (hys y hy) (hxs x hx) hzy (of_decide_eq_true hzx) (h y hy x hx)
    rw [hnil, List.append_nil, List.nil_append]
  · have hnil : ys.filter (cmp z · = .eq) = [] :=
      List.filter_eq_nil_iff.2 fun y hy hzy => hex ⟨y, hy, of_decide_eq_true hzy⟩
    rw [hnil, List.append_nil, List.nil_append]

theorem sameTies_insertBehind (hcmp : PreorderOn p cmp) {x : α} (hx : p x) (hys : ∀ y ∈ ys, p y) :
    SameTies p cmp (insertBehind cmp x ys) (x :: ys) := by
  induction ys with
  | nil => exact SameTies.refl _
  | cons y ys ih =>
    obtain ⟨hy, hys⟩ := List.forall_mem_cons.1 hys
    unfold insertBehind
    split
    next hlt =>
      have hswap : SameTies p cmp ([x] ++ [y]) ([y] ++ [x]) :=
        sameTies_append_comm hcmp (by simpa using hy) (by simpa using hx) (by simpa using hlt)
      exact ((SameTies.refl [y]).append (ih hys)).trans (hswap.symm.append (SameTies.refl ys))
    next => exact SameTies.refl _

theorem sameTies_stableSort (hcmp : PreorderOn p cmp) (hxs : ∀ x ∈ xs, p x) :
    SameTies p cmp (stableSort cmp xs) xs := by
  have hfold (sorted : List α) (hsorted : ∀ a ∈ sorted, p a) : SameTies p cmp
      (xs.foldl (fun sorted x => insertBehind cmp x sorted) sorted) (xs.reverse ++ sorted) := by
    induction xs generalizing sorted with
    | nil => exact SameTies.refl _
    | cons x xs ih =>
      obtain ⟨hx, hxs⟩ := List.forall_mem_cons.1 hxs
      have hinsert : ∀ a ∈ insertBehind cmp x sorted, p a := fun a ha =>
        List.forall_mem_cons.2 ⟨hx, hsorted⟩ a ((insertBehind_perm x sorted).mem_iff.1 ha)
      rw [List.reverse_cons, List.append_assoc]
      exact (ih hxs _ hinsert).trans ((SameTies.refl _).append (sameTies_insertBehind hcmp hx hsorted))
  simpa [stableSort] using (hfold [] nofun).reverse

/-- The heads of the lists tie, since each occurs in the other list; so they are the first of the same ties. -/
theorem eq_of_sameTies (hcmp : PreorderOn p cmp) (hxs : ∀ x ∈ xs, p x) (hys : ∀ y ∈ ys, p y)
    (hx : xs.Pairwise (cmp · · ≠ .gt)) (hy : ys.Pairwise (cmp · · ≠ .gt)) (h : SameTies p cmp xs ys) :
    xs = ys := by
  have hmem {a : α} {zs zs' : List α} (ha : p a) (h : SameTies p cmp zs zs') (hz : a ∈ zs) : a ∈ zs' := by
    have : a ∈ zs.filter (cmp a · = .eq) := by simp [hz, hcmp.refl ha]
    rw [h a ha] at this
    exact (List.mem_filter.1 this).1
  induction xs generalizing ys with
  | nil =>
    refine (List.eq_nil_iff_forall_not_mem.2 fun y hy => ?_).symm
    exact absurd (hmem (hys y hy) h.symm hy) List.not_mem_nil
  | cons x xs ih =>
    cases ys with
    | nil => exact absurd (hmem (hxs x List.mem_cons_self) h List.mem_cons_self) List.not_mem_nil
    | cons y ys =>
      obtain ⟨hpx, hpxs⟩ := List.forall_mem_cons.1 hxs
      obtain ⟨hpy, hpys⟩ := List.forall_mem_cons.1 hys
      obtain ⟨hx, hxs'⟩ := List.pairwise_cons.1 hx
      obtain ⟨hy, hys'⟩ := List.pairwise_cons.1 hy
      have hxy : cmp x y ≠ .gt := by
        rcases List.mem_cons.1 (hmem hpy h.symm List.mem_cons_self) with rfl | hy
        · simp [hcmp.refl hpy]
        · exact hx y hy
      have hyx : cmp y x ≠ .gt := by
        rcases List.mem_cons.1 (hmem hpx h List.mem_cons_self) with rfl | hx
        · simp [hcmp.refl hpx]
        · exact hy x hx
      have heq : cmp x y = .eq := by
        cases hc : cmp x y with
        | lt => exact absurd hc ((hcmp.ne_gt_iff hpy hpx).1 hyx)
        | eq => rfl
        | gt => exact absurd hc hxy
      have hhead : x = y := by
        have := h x hpx
        simp only [List.filter_cons, hcmp.refl hpx, heq, decide_true, if_true] at this
        exact (List.cons.inj this).1
      subst hhead
      rw [ih hpxs hpys hxs' hys']
      intro z hz
      have := h z hz
      simp only [List.filter_cons] at this
      split at this
      · exact (List.cons.inj this).2
      · exact this

theorem forall_mem_stableSort (hxs : ∀ x ∈ xs, p x) : ∀ x ∈ stableSort cmp xs, p x :=
  fun x hx => hxs x ((stableSort_perm xs).mem_iff.1 hx)

theorem sorted_stableSort (hcmp : PreorderOn p cmp) (hxs : ∀ x ∈ xs, p x) :
    (stableSort cmp xs).Pairwise (cmp · · ≠ .gt) := by
  have h : (stableSort cmp xs).Pairwise (StandsBefore cmp fun _ _ => True) :=
    pairwise_stableSort hcmp hxs (List.pairwise_of_forall fun _ _ => trivial)
  exact h.imp StandsBefore.ne_gt

theorem eq_stableSort (hcmp : PreorderOn p cmp) (hxs : ∀ x ∈ xs, p x) (hperm : ys.Perm xs)
    (hy : ys.Pairwise (cmp · · ≠ .gt)) (h : SameTies p cmp ys xs) : ys = stableSort cmp xs :=
  eq_of_sameTies hcmp (fun y hy => hxs y (hperm.mem_iff.1 hy)) (forall_mem_stableSort hxs) hy
    (sorted_stableSort hcmp hxs) (h.trans (sameTies_stableSort hcmp hxs).symm)

theorem stableSort_append_stableSort (hcmp : PreorderOn p cmp) (hxs : ∀ x ∈ xs, p x) (hys : ∀ y ∈ ys, p y) :
    stableSort cmp (stableSort cmp xs ++ stableSort cmp ys) = stableSort cmp (xs ++ ys) := by
  have hperm : (stableSort cmp xs ++ stableSort cmp ys).Perm (xs ++ ys) :=
    (stableSort_perm xs).append (stableSort_perm ys)
  have hp : ∀ a ∈ xs ++ ys, p a := List.forall_mem_append.2 ⟨hxs, hys⟩
  have hp' : ∀ a ∈ stableSort cmp xs ++ stableSort cmp ys, p a :=
    List.forall_mem_append.2 ⟨forall_mem_stableSort hxs, forall_mem_stableSort hys⟩
  apply eq_stableSort hcmp hp ((stableSort_perm _).trans hperm) (sorted_stableSort hcmp hp')
  exact (sameTies_stableSort hcmp hp').trans ((sameTies_stableSort hcmp hxs).append (sameTies_stableSort hcmp hys))

end SameTies

theorem map_insertBehind (f : α → β) (cmp : β → β → Ordering) (x : α) (ys : List α) :
    (insertBehind (fun a b => cmp (f a) (f b)) x ys).map f = insertBehind cmp (f x) (ys.map f) := by
  induction ys with
  | nil => rfl
  | cons y ys ih =>
    simp only [insertBehind, List.map_cons]
    split
    · rw [List.map_cons, ih]
    · rfl

/-- To sort by an image is to sort the images. -/
theorem map_stableSort (f : α → β) (cmp : β → β → Ordering) (xs : List α) :
    (stableSort (fun a b => cmp (f a) (f b)) xs).map f = stableSort cmp (xs.map f) := by
  have h (sorted : List α) :
      (xs.foldl (fun sorted x => insertBehind (fun a b => cmp (f a) (f b)) x sorted) sorted).map f =
        (xs.map f).foldl (fun sorted x => insertBehind cmp x sorted) (sorted.map f) := by
    induction xs generalizing sorted with
    | nil => rfl
    | cons x xs ih => rw [List.foldl_cons, ih, map_insertBehind, List.map_cons, List.foldl_cons]
  rw [stableSort, stableSort, List.map_reverse, h, List.map_nil]

end TableQuery
