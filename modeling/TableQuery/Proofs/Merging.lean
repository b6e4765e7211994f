import Mathlib.Data.List.Perm.Basic
import TableQuery.Proofs.StableSort
import TableQuery.Sorting.Adaptive

/-! # Merging

The steps of a merge take elements from the beginnings of two lists, each before all that are left. Merged from
both ends, two sorted lists meet: an element that both ends take and one that neither takes would each have to
stand before the other.
-/
namespace TableQuery.Sorting
variable {α : Type} {p : α → Prop} {cmp : α → α → Ordering} {n : Nat} {xs ys zs : List α}

section
variable (cmp)

theorem mergeSteps_le (n : Nat) (xs ys : List α) :
    (mergeSteps cmp n xs ys).left ≤ xs.length ∧ (mergeSteps cmp n xs ys).right ≤ ys.length := by
  fun_induction mergeSteps cmp n xs ys <;> grind

theorem mergeSteps_add (hx : n ≤ xs.length) (hy : n ≤ ys.length) :
    (mergeSteps cmp n xs ys).left + (mergeSteps cmp n xs ys).right = n := by
  fun_induction mergeSteps cmp n xs ys <;> grind

theorem mergeSteps_all (h : xs.length + ys.length ≤ n) :
    (mergeSteps cmp n xs ys).left = xs.length ∨ (mergeSteps cmp n xs ys).right = ys.length := by
  fun_induction mergeSteps cmp n xs ys <;> grind

theorem mergeSteps_perm (n : Nat) (xs ys : List α) :
    (mergeSteps cmp n xs ys).merged.Perm
      (xs.take (mergeSteps cmp n xs ys).left ++ ys.take (mergeSteps cmp n xs ys).right) := by
  fun_induction mergeSteps cmp n xs ys with
  | case4 n x xs y ys hlt steps ih => exact (ih.cons y).trans List.perm_middle.symm
  | case5 n x xs y ys hlt steps ih => exact ih.cons x
  | _ => simp

end

/-- The steps of a merge took `taken` from the left list and `taken'` from the right one, and left the others. -/
structure Takes (p : α → Prop) (cmp : α → α → Ordering) (merged taken left taken' left' : List α) : Prop where
  perm : merged.Perm (taken ++ taken')
  sorted : merged.Pairwise (cmp · · ≠ .gt)
  before : ∀ a ∈ merged, ∀ b ∈ left ++ left', cmp a b ≠ .gt
  ties : SameTies p cmp merged (taken ++ taken')
  /-- An element of the right list is taken first only if it is less. -/
  less : ∀ y ∈ taken', ∀ x ∈ left, cmp y x = .lt

theorem mem_of_mem_merged {a : α} (h : a ∈ (mergeSteps cmp n xs ys).merged) : a ∈ xs ++ ys := by
  rcases List.mem_append.1 ((mergeSteps_perm cmp n xs ys).mem_iff.1 h) with h | h
  · exact List.mem_append_left _ (List.mem_of_mem_take h)
  · exact List.mem_append_right _ (List.mem_of_mem_take h)

theorem mem_of_mem_left {a : α} (h : a ∈ xs.drop (mergeSteps cmp n xs ys).left ++
    ys.drop (mergeSteps cmp n xs ys).right) : a ∈ xs ++ ys := by
  rcases List.mem_append.1 h with h | h
  · exact List.mem_append_left _ (List.mem_of_mem_drop h)
  · exact List.mem_append_right _ (List.mem_of_mem_drop h)

theorem takes_mergeSteps (hcmp : PreorderOn p cmp) (hxs : ∀ x ∈ xs, p x) (hys : ∀ y ∈ ys, p y)
    (hx : xs.Pairwise (cmp · · ≠ .gt)) (hy : ys.Pairwise (cmp · · ≠ .gt)) :
    Takes p cmp (mergeSteps cmp n xs ys).merged
      (xs.take (mergeSteps cmp n xs ys).left) (xs.drop (mergeSteps cmp n xs ys).left)
      (ys.take (mergeSteps cmp n xs ys).right) (ys.drop (mergeSteps cmp n xs ys).right) := by
  fun_induction mergeSteps cmp n xs ys with
  | case4 n x xs y ys hlt steps ih =>
    obtain ⟨hpx, hpxs⟩ := List.forall_mem_cons.1 hxs
    obtain ⟨hpy, hpys⟩ := List.forall_mem_cons.1 hys
    obtain ⟨hyy, hys'⟩ := List.pairwise_cons.1 hy
    obtain ⟨hperm, hsorted, hbefore, hties, hless⟩ := ih hxs hpys hx hys'
    have hy : ∀ x' ∈ x :: xs, cmp y x' = .lt := List.forall_mem_cons.2 ⟨hlt, fun x' hx' =>
      hcmp.lt_of_lt_of_ne_gt hpy hpx (hpxs x' hx') hlt ((List.pairwise_cons.1 hx).1 x' hx')⟩
    have hle : ∀ b ∈ x :: xs ++ ys, cmp y b ≠ .gt :=
      List.forall_mem_append.2 ⟨fun b hb => by simp [hy b hb], hyy⟩
    constructor
    case perm => exact (hperm.cons y).trans List.perm_middle.symm
    case sorted => exact List.pairwise_cons.2 ⟨fun a ha => hle a (mem_of_mem_merged ha), hsorted⟩
    case before => exact List.forall_mem_cons.2 ⟨fun b hb => hle b (mem_of_mem_left hb), hbefore⟩
    case ties =>
      have hcomm : SameTies p cmp ([y] ++ (x :: xs).take steps.left) ((x :: xs).take steps.left ++ [y]) :=
        sameTies_append_comm hcmp (fun a ha => hxs a (List.mem_of_mem_take ha)) (by simpa using hpy)
          (by simpa using fun a ha => hy a (List.mem_of_mem_take ha))
      simpa using ((SameTies.refl [y]).append hties).trans
        (by simpa using hcomm.append (SameTies.refl (ys.take steps.right)))
    case less => exact List.forall_mem_cons.2 ⟨fun a ha => hy a (List.mem_of_mem_drop ha), hless⟩
  | case5 n x xs y ys hlt steps ih =>
    obtain ⟨hpx, hpxs⟩ := List.forall_mem_cons.1 hxs
    obtain ⟨hpy, hpys⟩ := List.forall_mem_cons.1 hys
    obtain ⟨hxx, hxs'⟩ := List.pairwise_cons.1 hx
    obtain ⟨hperm, hsorted, hbefore, hties, hless⟩ := ih hpxs hys hxs' hy
    have hxy : cmp x y ≠ .gt := (hcmp.ne_gt_iff hpx hpy).2 hlt
    have hx : ∀ y' ∈ y :: ys, cmp x y' ≠ .gt := List.forall_mem_cons.2 ⟨hxy, fun y' hy' =>
      hcmp.trans hpx hpy (hpys y' hy') hxy ((List.pairwise_cons.1 hy).1 y' hy')⟩
    have hle : ∀ b ∈ xs ++ y :: ys, cmp x b ≠ .gt := List.forall_mem_append.2 ⟨hxx, hx⟩
    constructor
    case perm => exact hperm.cons x
    case sorted => exact List.pairwise_cons.2 ⟨fun a ha => hle a (mem_of_mem_merged ha), hsorted⟩
    case before => exact List.forall_mem_cons.2 ⟨fun b hb => hle b (mem_of_mem_left hb), hbefore⟩
    case ties => simpa using (SameTies.refl [x]).append hties
    case less => exact hless
  | _ => exact ⟨by simp, List.Pairwise.nil, nofun, SameTies.refl _, nofun⟩

section
variable (cmp)

theorem mergeStepsBack_le (n : Nat) (xs ys : List α) :
    (mergeStepsBack cmp n xs ys).left ≤ xs.length ∧ (mergeStepsBack cmp n xs ys).right ≤ ys.length := by
  simpa [mergeStepsBack, and_comm] using mergeSteps_le (fun a b => cmp b a) n ys.reverse xs.reverse

theorem mergeStepsBack_add (hx : n ≤ xs.length) (hy : n ≤ ys.length) :
    (mergeStepsBack cmp n xs ys).left + (mergeStepsBack cmp n xs ys).right = n := by
  rw [Nat.add_comm]
  exact mergeSteps_add _ (by simpa using hy) (by simpa using hx)

theorem mergeStepsBack_all (h : xs.length + ys.length ≤ n) :
    (mergeStepsBack cmp n xs ys).left = xs.length ∨ (mergeStepsBack cmp n xs ys).right = ys.length := by
  have hlen : ys.reverse.length + xs.reverse.length ≤ n := by simpa [Nat.add_comm] using h
  simpa [mergeStepsBack, or_comm] using mergeSteps_all (fun a b => cmp b a) hlen

theorem mergeStepsBack_perm (n : Nat) (xs ys : List α) :
    (mergeStepsBack cmp n xs ys).merged.Perm
      (xs.drop (xs.length - (mergeStepsBack cmp n xs ys).left) ++
        ys.drop (ys.length - (mergeStepsBack cmp n xs ys).right)) := by
  have h := mergeSteps_perm (fun a b => cmp b a) n ys.reverse xs.reverse
  rw [List.take_reverse, List.take_reverse, ← List.reverse_append] at h
  exact (List.reverse_perm _).trans (h.trans (List.reverse_perm _))

end

/-- The same of the steps from the end. -/
structure TakesBack (p : α → Prop) (cmp : α → α → Ordering) (merged left taken left' taken' : List α) : Prop where
  perm : merged.Perm (taken ++ taken')
  sorted : merged.Pairwise (cmp · · ≠ .gt)
  after : ∀ a ∈ left ++ left', ∀ b ∈ merged, cmp a b ≠ .gt
  ties : SameTies p cmp merged (taken ++ taken')
  less : ∀ y ∈ left', ∀ x ∈ taken, cmp y x = .lt

theorem takesBack_mergeStepsBack (hcmp : PreorderOn p cmp) (hxs : ∀ x ∈ xs, p x) (hys : ∀ y ∈ ys, p y)
    (hx : xs.Pairwise (cmp · · ≠ .gt)) (hy : ys.Pairwise (cmp · · ≠ .gt)) :
    TakesBack p cmp (mergeStepsBack cmp n xs ys).merged
      (xs.take (xs.length - (mergeStepsBack cmp n xs ys).left))
      (xs.drop (xs.length - (mergeStepsBack cmp n xs ys).left))
      (ys.take (ys.length - (mergeStepsBack cmp n xs ys).right))
      (ys.drop (ys.length - (mergeStepsBack cmp n xs ys).right)) := by
  have h := takes_mergeSteps (n := n) hcmp.flip (by simpa using hys) (by simpa using hxs)
    (List.pairwise_reverse.2 hy) (List.pairwise_reverse.2 hx)
  have hp {i j : Nat} : ∀ a ∈ ys.reverse.take i ++ xs.reverse.take j, p a := List.forall_mem_append.2
    ⟨fun a ha => hys a (by simpa using List.mem_of_mem_take ha),
      fun a ha => hxs a (by simpa using List.mem_of_mem_take ha)⟩
  have hties := (h.ties.of_flip hcmp (fun a ha => hp a (h.perm.mem_iff.1 ha)) hp).reverse
  simp only [List.take_reverse, List.drop_reverse] at h hties
  constructor
  case perm => exact mergeStepsBack_perm cmp n xs ys
  case sorted => exact List.pairwise_reverse.2 h.sorted
  case after =>
    intro a ha b hb
    apply h.before b (List.mem_reverse.1 hb) a
    exact List.mem_append.2 ((List.mem_append.1 ha).symm.imp List.mem_reverse.2 List.mem_reverse.2)
  case ties =>
    rw [List.reverse_append, List.reverse_reverse, List.reverse_reverse] at hties
    exact hties
  case less => exact fun y hy x hx => h.less x (List.mem_reverse.2 hx) y (List.mem_reverse.2 hy)

theorem takes_nil (xs ys : List α) : Takes p cmp [] (xs.take 0) (xs.drop 0) (ys.take 0) (ys.drop 0) :=
  ⟨by simp, List.Pairwise.nil, nofun, by simp [SameTies.refl], by simp⟩

theorem takesBack_nil (xs ys : List α) : TakesBack p cmp [] (xs.take xs.length) (xs.drop xs.length)
    (ys.take ys.length) (ys.drop ys.length) :=
  ⟨by simp, List.Pairwise.nil, nofun, by simp [SameTies.refl], by simp⟩

section Pieces
variable {front back x₁ x₂ x₃ y₁ y₂ y₃ : List α}

theorem perm_pieces (x₂ y₂ : List α) (hf : front.Perm (x₁ ++ y₁)) (hb : back.Perm (x₃ ++ y₃)) :
    (front ++ x₂ ++ y₂ ++ back).Perm (x₁ ++ (x₂ ++ x₃) ++ (y₁ ++ (y₂ ++ y₃))) := by
  classical
  rw [List.perm_iff_count] at *
  intro a
  have hfa := hf a
  have hba := hb a
  simp only [List.count_append] at *
  omega

/-- What is taken from both ends, and what is left of one list in the middle. -/
theorem pieces_eq_stableSort (front back x₁ x₂ x₃ y₁ y₂ y₃ : List α) (hcmp : PreorderOn p cmp)
    (hxs : ∀ x ∈ x₁ ++ (x₂ ++ x₃), p x)
    (hys : ∀ y ∈ y₁ ++ (y₂ ++ y₃), p y) (hx : x₂.Pairwise (cmp · · ≠ .gt)) (hy : y₂.Pairwise (cmp · · ≠ .gt))
    (hf : Takes p cmp front x₁ (x₂ ++ x₃) y₁ (y₂ ++ y₃)) (hb : TakesBack p cmp back (x₁ ++ x₂) x₃ (y₁ ++ y₂) y₃)
    (hmid : x₂ = [] ∨ y₂ = []) :
    front ++ x₂ ++ y₂ ++ back = stableSort cmp (x₁ ++ (x₂ ++ x₃) ++ (y₁ ++ (y₂ ++ y₃))) := by
  apply eq_stableSort hcmp (List.forall_mem_append.2 ⟨hxs, hys⟩) (perm_pieces x₂ y₂ hf.perm hb.perm)
  · have hxy : (x₂ ++ y₂).Pairwise (cmp · · ≠ .gt) := by
      rcases hmid with rfl | rfl
      · exact hy
      · simpa using hx
    have hback : ∀ b ∈ back, b ∈ (x₂ ++ x₃) ++ (y₂ ++ y₃) := by
      intro b hb'
      have := hb.perm.mem_iff.1 hb'
      grind
    rw [List.append_assoc front]
    refine List.pairwise_append.2 ⟨List.pairwise_append.2 ⟨hf.sorted, hxy, ?_⟩, hb.sorted, ?_⟩
    · exact fun a ha b hb => hf.before a ha b (by grind)
    · intro a ha b hb'
      rcases List.mem_append.1 ha with ha | ha
      · exact hf.before a ha b (hback b hb')
      · exact hb.after a (by grind) b hb'
  · have hy₁ : SameTies p cmp (y₁ ++ (x₂ ++ x₃)) ((x₂ ++ x₃) ++ y₁) :=
      sameTies_append_comm hcmp (by grind) (by grind) hf.less
    have hy₂ : SameTies p cmp (y₂ ++ x₃) (x₃ ++ y₂) :=
      sameTies_append_comm hcmp (by grind) (by grind) fun y hy => hb.less y (by grind)
    have hfront : SameTies p cmp (front ++ x₂ ++ y₂ ++ back) (x₁ ++ y₁ ++ x₂ ++ y₂ ++ (x₃ ++ y₃)) :=
      ((hf.ties.append (.refl x₂)).append (.refl y₂)).append hb.ties
    have hright : SameTies p cmp (x₁ ++ y₁ ++ x₂ ++ (y₂ ++ x₃) ++ y₃) (x₁ ++ y₁ ++ x₂ ++ (x₃ ++ y₂) ++ y₃) :=
      ((SameTies.refl (x₁ ++ y₁ ++ x₂)).append hy₂).append (.refl y₃)
    have hleft : SameTies p cmp (x₁ ++ (y₁ ++ (x₂ ++ x₃)) ++ (y₂ ++ y₃))
        (x₁ ++ (x₂ ++ x₃ ++ y₁) ++ (y₂ ++ y₃)) :=
      ((SameTies.refl x₁).append hy₁).append (.refl (y₂ ++ y₃))
    simp only [List.append_assoc] at hfront hright hleft ⊢
    exact hfront.trans (hright.trans hleft)

end Pieces

theorem middle_append_drop {i j : Nat} (h : i ≤ j) : (xs.take j).drop i ++ xs.drop j = xs.drop i := by
  have hi := List.take_append_drop (j - i) (xs.drop i)
  rwa [List.drop_drop, Nat.add_sub_of_le h, ← List.drop_take] at hi

theorem take_append_middle {i j : Nat} (h : i ≤ j) : xs.take i ++ (xs.take j).drop i = xs.take j := by
  have hi := List.take_append_drop i (xs.take j)
  rwa [List.take_take, Nat.min_eq_left h] at hi

theorem exists_mem_take_and_drop (xs : List α) {i j : Nat} (hij : i < j) (hi : i < xs.length) :
    ∃ a ∈ xs.take j, a ∈ xs.drop i :=
  ⟨xs[i], List.mem_take_iff_getElem.2 ⟨i, Nat.lt_min.2 ⟨hij, hi⟩, rfl⟩,
    List.mem_drop_iff_getElem.2 ⟨0, by simpa using hi, by simp⟩⟩

theorem middle_perm {i j k l : Nat} {front back : List α} (hij : i ≤ j) (hkl : k ≤ l)
    (hf : front.Perm (xs.take i ++ ys.take k)) (hb : back.Perm (xs.drop j ++ ys.drop l)) :
    (front ++ (xs.take j).drop i ++ (ys.take l).drop k ++ back).Perm (xs ++ ys) := by
  have h := perm_pieces ((xs.take j).drop i) ((ys.take l).drop k) hf hb
  rwa [middle_append_drop hij, middle_append_drop hkl, List.take_append_drop, List.take_append_drop] at h

theorem mergeEnds_perm (h : mergeEnds cmp xs ys = some zs) : zs.Perm (xs ++ ys) := by
  obtain ⟨⟨hx, hy⟩, heq⟩ := Option.ite_none_right_eq_some.1 h
  rw [← Option.some.inj heq]
  exact middle_perm (Nat.le_sub_of_add_le hx) (Nat.le_sub_of_add_le hy) (mergeSteps_perm cmp _ xs ys)
    (mergeStepsBack_perm cmp _ xs ys)

/-- An element of one list that both ends take and one of the other that neither takes would each belong
before the other. -/
theorem mergeEnds_meets (hcmp : PreorderOn p cmp) (hxs : ∀ x ∈ xs, p x) (hys : ∀ y ∈ ys, p y)
    (hx : xs.Pairwise (cmp · · ≠ .gt)) (hy : ys.Pairwise (cmp · · ≠ .gt)) (hlen : xs.length ≤ ys.length) :
    (mergeSteps cmp xs.length xs ys).left + (mergeStepsBack cmp xs.length xs ys).left ≤ xs.length ∧
      (mergeSteps cmp xs.length xs ys).right + (mergeStepsBack cmp xs.length xs ys).right ≤ ys.length := by
  have hf := takes_mergeSteps (n := xs.length) hcmp hxs hys hx hy
  have hb := takesBack_mergeStepsBack (n := xs.length) hcmp hxs hys hx hy
  have hfront := mergeSteps_add cmp (Nat.le_refl xs.length) hlen
  have hback := mergeStepsBack_add cmp (Nat.le_refl xs.length) hlen
  have hfx := mergeSteps_le cmp xs.length xs ys
  have hbx := mergeStepsBack_le cmp xs.length xs ys
  generalize mergeSteps cmp xs.length xs ys = front at *
  generalize mergeStepsBack cmp xs.length xs ys = back at *
  have hno {x y : α} (hx : p x) (hy : p y) (hxy : cmp x y ≠ .gt) (hyx : cmp y x = .lt) : False :=
    (hcmp.ne_gt_iff hx hy).1 hxy hyx
  by_contra hmeet
  rcases Nat.lt_or_ge xs.length (front.left + back.left) with hover | hover
  · obtain ⟨x, hxf, hxb⟩ := exists_mem_take_and_drop xs (i := xs.length - back.left) (j := front.left)
      (by omega) (by omega)
    obtain ⟨y, hyb, hyf⟩ := exists_mem_take_and_drop ys (i := front.right) (j := ys.length - back.right)
      (by omega) (by omega)
    refine hno (hxs x (List.mem_of_mem_take hxf)) (hys y (List.mem_of_mem_take hyb)) ?_ (hb.less y hyb x hxb)
    exact hf.before x (hf.perm.mem_iff.2 (List.mem_append_left _ hxf)) y (List.mem_append_right _ hyf)
  · obtain ⟨x, hxb, hxf⟩ := exists_mem_take_and_drop xs (i := front.left) (j := xs.length - back.left)
      (by omega) (by omega)
    obtain ⟨y, hyf, hyb⟩ := exists_mem_take_and_drop ys (i := ys.length - back.right) (j := front.right)
      (by omega) (by omega)
    refine hno (hxs x (List.mem_of_mem_take hxb)) (hys y (List.mem_of_mem_take hyf)) ?_ (hf.less y hyf x hxf)
    exact hb.after x (List.mem_append_left _ hxb) y (hb.perm.mem_iff.2 (List.mem_append_right _ hyb))

theorem middle_eq_stableSort {i j k l : Nat} {front back : List α} (hcmp : PreorderOn p cmp)
    (hxs : ∀ x ∈ xs, p x) (hys : ∀ y ∈ ys, p y) (hx : xs.Pairwise (cmp · · ≠ .gt))
    (hy : ys.Pairwise (cmp · · ≠ .gt)) (hij : i ≤ j) (hkl : k ≤ l)
    (hf : Takes p cmp front (xs.take i) (xs.drop i) (ys.take k) (ys.drop k))
    (hb : TakesBack p cmp back (xs.take j) (xs.drop j) (ys.take l) (ys.drop l))
    (hmid : (xs.take j).drop i = [] ∨ (ys.take l).drop k = []) :
    front ++ (xs.take j).drop i ++ (ys.take l).drop k ++ back = stableSort cmp (xs ++ ys) := by
  have h := pieces_eq_stableSort front back (xs.take i) ((xs.take j).drop i) (xs.drop j) (ys.take k)
    ((ys.take l).drop k) (ys.drop l) hcmp
  simp only [middle_append_drop hij, middle_append_drop hkl, take_append_middle hij, take_append_middle hkl,
    List.take_append_drop] at h
  exact h hxs hys ((hx.sublist (List.take_sublist _ _)).sublist (List.drop_sublist _ _))
    ((hy.sublist (List.take_sublist _ _)).sublist (List.drop_sublist _ _)) hf hb hmid

theorem mergeEnds_eq (hcmp : PreorderOn p cmp) (hxs : ∀ x ∈ xs, p x) (hys : ∀ y ∈ ys, p y)
    (hx : xs.Pairwise (cmp · · ≠ .gt)) (hy : ys.Pairwise (cmp · · ≠ .gt)) (hlen : xs.length ≤ ys.length)
    (hlen' : ys.length ≤ xs.length + 1) : mergeEnds cmp xs ys = some (stableSort cmp (xs ++ ys)) := by
  have hmeets := mergeEnds_meets hcmp hxs hys hx hy hlen
  have hfront := mergeSteps_add cmp (Nat.le_refl xs.length) hlen
  have hback := mergeStepsBack_add cmp (Nat.le_refl xs.length) hlen
  refine (if_pos hmeets).trans (congrArg some ?_)
  apply middle_eq_stableSort hcmp hxs hys hx hy (Nat.le_sub_of_add_le hmeets.1) (Nat.le_sub_of_add_le hmeets.2)
    (takes_mergeSteps hcmp hxs hys hx hy) (takesBack_mergeStepsBack hcmp hxs hys hx hy)
  -- At most one element is left in the middle.
  rw [← List.length_eq_zero_iff, ← List.length_eq_zero_iff]
  simp only [List.length_drop, List.length_take]
  omega

theorem mergeRuns_perm (xs ys : List α) : (mergeRuns cmp xs ys).Perm (xs ++ ys) := by
  unfold mergeRuns
  split
  · have hle := mergeSteps_le cmp (xs.length + ys.length) xs ys
    have hnone : [].Perm (xs.drop xs.length ++ ys.drop ys.length) := by simp
    simpa using middle_perm hle.1 hle.2 (mergeSteps_perm cmp _ xs ys) hnone
  · have hnone : [].Perm (xs.take 0 ++ ys.take 0) := by simp
    simpa using middle_perm (Nat.zero_le _) (Nat.zero_le _) hnone (mergeStepsBack_perm cmp _ xs ys)

theorem mergeRuns_eq (hcmp : PreorderOn p cmp) (hxs : ∀ x ∈ xs, p x) (hys : ∀ y ∈ ys, p y)
    (hx : xs.Pairwise (cmp · · ≠ .gt)) (hy : ys.Pairwise (cmp · · ≠ .gt)) :
    mergeRuns cmp xs ys = stableSort cmp (xs ++ ys) := by
  unfold mergeRuns
  split
  · have hall := mergeSteps_all cmp (Nat.le_refl (xs.length + ys.length))
    have hle := mergeSteps_le cmp (xs.length + ys.length) xs ys
    have h := middle_eq_stableSort hcmp hxs hys hx hy hle.1 hle.2 (takes_mergeSteps hcmp hxs hys hx hy)
      (takesBack_nil xs ys) (by simp; omega)
    simpa using h
  · have hall := mergeStepsBack_all cmp (Nat.le_refl (xs.length + ys.length))
    have h := middle_eq_stableSort hcmp hxs hys hx hy (Nat.zero_le _) (Nat.zero_le _) (takes_nil xs ys)
      (takesBack_mergeStepsBack (n := xs.length + ys.length) hcmp hxs hys hx hy) (by simp; omega)
    simpa using h

theorem mergeRuns_stableSort (hcmp : PreorderOn p cmp) (hxs : ∀ x ∈ xs, p x) (hys : ∀ y ∈ ys, p y) :
    mergeRuns cmp (stableSort cmp xs) (stableSort cmp ys) = stableSort cmp (xs ++ ys) := by
  rw [← stableSort_append_stableSort hcmp hxs hys]
  exact mergeRuns_eq hcmp (forall_mem_stableSort hxs) (forall_mem_stableSort hys)
    (sorted_stableSort hcmp hxs) (sorted_stableSort hcmp hys)

theorem mergeEnds_stableSort (hcmp : PreorderOn p cmp) (hxs : ∀ x ∈ xs, p x) (hys : ∀ y ∈ ys, p y)
    (hlen : xs.length ≤ ys.length) (hlen' : ys.length ≤ xs.length + 1) :
    mergeEnds cmp (stableSort cmp xs) (stableSort cmp ys) = some (stableSort cmp (xs ++ ys)) := by
  have hx : (stableSort cmp xs).length = xs.length := (stableSort_perm xs).length_eq
  have hy : (stableSort cmp ys).length = ys.length := (stableSort_perm ys).length_eq
  rw [← stableSort_append_stableSort hcmp hxs hys]
  exact mergeEnds_eq hcmp (forall_mem_stableSort hxs) (forall_mem_stableSort hys)
    (sorted_stableSort hcmp hxs) (sorted_stableSort hcmp hys) (by rwa [hx, hy]) (by rwa [hx, hy])

end TableQuery.Sorting
