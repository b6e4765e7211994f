import TableQuery.Proofs.Quicksort

/-! # Lists of any length sorted

Runs are followed from the cuts to the last merge. What is shown of them is left open at first: that each is a
permutation of its part of the list, whatever the comparison is, or that it is the stable sort of its part, which
takes a total preorder and shows that the sort does not give up.
-/
namespace TableQuery.Sorting
variable {α β γ : Type} {p : α → Prop} {cmp : α → α → Ordering} {size : Nat} {xs ys zs : List α}

/-- What comes of a computation has the property. If the computation is total, something comes of it. -/
def Gives (total : Prop) (q : β → Prop) (o : Option β) : Prop :=
  (total → o.isSome) ∧ ∀ b, o = some b → q b

section Gives
variable {total : Prop} {q : β → Prop} {r : γ → Prop} {o : Option β}

@[simp] theorem gives_some {b : β} : Gives total q (some b) ↔ q b := by
  simp [Gives]

theorem Gives.bind {f : β → Option γ} (h : Gives total q o) (hf : ∀ b, q b → Gives total r (f b)) :
    Gives total r (o >>= f) := by
  cases o with
  | none => exact ⟨h.1, nofun⟩
  | some b => exact hf b (gives_some.1 h)

theorem Gives.map {f : β → γ} (h : Gives total q o) (hf : ∀ b, q b → r (f b)) : Gives total r (o.map f) := by
  cases o with
  | none => exact ⟨h.1, nofun⟩
  | some b => exact gives_some.2 (hf b (gives_some.1 h))

end Gives

/-- The stages of a sort keep `Made`, which ties a run to its part of the list, and end with `Sorted`, which ties
what is sorted to it. -/
structure Keeps (cmp : α → α → Ordering) (finish : List α → Option (List α)) (eager : Bool) (size good : Nat)
    (total : Prop) (p : α → Prop) (Made : Run α → List α → Prop) (Sorted : List α → List α → Prop) : Prop where
  nil : Made ⟨[], true⟩ []
  first : ∀ {xs}, xs ≠ [] → (∀ x ∈ xs, p x) → Gives total
    (fun r => ∃ part, part ≠ [] ∧ part ++ r.2 = xs ∧ Made r.1 part) (firstRun cmp eager size good xs)
  sorted : ∀ {run xs}, Made run xs → run.sorted = true → Sorted run.elements xs
  finish : ∀ {run xs}, Made run xs → run.sorted = false → Gives total (Sorted · xs) (finish run.elements)
  merge : ∀ {xs ys xs' ys'}, Sorted xs' xs → Sorted ys' ys → Made ⟨mergeRuns cmp xs' ys', true⟩ (xs ++ ys)
  join : ∀ {left right xs ys}, Made left xs → left.sorted = false → Made right ys → right.sorted = false →
    Made ⟨left.elements ++ right.elements, false⟩ (xs ++ ys)

/-- The runs on a stack, the last one first, are made of the parts of a list. Nothing is joined to the run
at the bottom, which is none. -/
inductive Covers (Made : Run α → List α → Prop) : List (Run α × Nat) → List α → Prop where
  | bottom (run : Run α) (depth : Nat) : Covers Made [(run, depth)] []
  | push {e : Run α × Nat} {stack : List (Run α × Nat)} {xs ys : List α} {run : Run α} {depth : Nat}
    (h : Covers Made (e :: stack) xs) (hrun : Made run ys) : Covers Made ((run, depth) :: e :: stack) (xs ++ ys)

section Keeps
variable {finish : List α → Option (List α)} {eager : Bool} {good room n : Nat} {total : Prop}
  {Made : Run α → List α → Prop} {Sorted : List α → List α → Prop}

theorem Keeps.gives_cutRuns (h : Keeps cmp finish eager size good total p Made Sorted) (hxs : ∀ x ∈ xs, p x)
    (hn : xs.length ≤ n) : Gives total (fun runs => ∃ parts, List.Forall₂ Made runs parts ∧ parts.flatten = xs)
      (cutRuns cmp eager size good n xs) := by
  induction n generalizing xs with
  | zero =>
    obtain rfl := List.eq_nil_of_length_eq_zero (Nat.le_zero.1 hn)
    exact gives_some.2 ⟨[], .nil, rfl⟩
  | succ n ih =>
    cases xs with
    | nil => exact gives_some.2 ⟨[], .nil, rfl⟩
    | cons x xs =>
      refine (h.first (List.cons_ne_nil x xs) hxs).bind ?_
      rintro ⟨run, rest⟩ ⟨part, hne, hpart, hrun⟩
      have hrest : rest.length ≤ n := by
        have hlen := congrArg List.length hpart
        have hpos := List.length_pos_iff.2 hne
        simp only [List.length_append, List.length_cons] at hlen hn
        omega
      refine (ih (fun a ha => hxs a (hpart ▸ List.mem_append_right part ha)) hrest).bind ?_
      rintro runs ⟨parts, hruns, rfl⟩
      exact gives_some.2 ⟨part :: parts, .cons hrun hruns, hpart⟩

theorem Keeps.gives_finished (h : Keeps cmp finish eager size good total p Made Sorted) {run : Run α}
    (hrun : Made run xs) : Gives total (Sorted · xs) (run.finished finish) := by
  unfold Run.finished
  split
  next hs => exact gives_some.2 (h.sorted hrun hs)
  next hs => exact h.finish hrun (Bool.eq_false_iff.2 hs)

theorem Keeps.gives_joinRuns (h : Keeps cmp finish eager size good total p Made Sorted) {left right : Run α}
    (hleft : Made left xs) (hright : Made right ys) :
    Gives total (Made · (xs ++ ys)) (joinRuns cmp finish room left right) := by
  unfold joinRuns
  split
  next =>
    refine (h.gives_finished hleft).bind fun xs' hxs => (h.gives_finished hright).bind fun ys' hys => ?_
    exact gives_some.2 (h.merge hxs hys)
  next hjoin =>
    simp only [not_or, Bool.not_eq_true] at hjoin
    exact gives_some.2 (h.join hleft hjoin.2.1 hright hjoin.2.2)

theorem Keeps.gives_collapse (h : Keeps cmp finish eager size good total p Made Sorted)
    {stack : List (Run α × Nat)} {run : Run α} {depth : Nat} (hstack : Covers Made stack xs) (hrun : Made run ys) :
    Gives total (fun r => ∃ xs' ys', Covers Made r.1 xs' ∧ Made r.2 ys' ∧ xs' ++ ys' = xs ++ ys ∧
      (depth = 0 → xs' = [])) (collapse cmp finish room depth stack run) := by
  induction hstack generalizing run ys with
  | bottom left d => exact gives_some.2 ⟨[], ys, .bottom left d, hrun, rfl, fun _ => rfl⟩
  | @push e stack xs zs left d hstack hleft ih =>
    unfold collapse
    split
    next => exact (h.gives_joinRuns hleft hrun).bind fun joined hjoined => by simpa using ih hjoined
    next hd => exact gives_some.2 ⟨xs ++ zs, ys, hstack.push hleft, hrun, rfl, by omega⟩

theorem Keeps.gives_joinAll (h : Keeps cmp finish eager size good total p Made Sorted)
    {stack : List (Run α × Nat)} {last : Run α} {start : Nat} {runs : List (Run α)} {parts : List (List α)}
    (hstack : Covers Made stack xs) (hlast : Made last ys) (hruns : List.Forall₂ Made runs parts) :
    Gives total (Made · (xs ++ ys ++ parts.flatten)) (joinAll cmp finish room n stack last start runs) := by
  induction hruns generalizing stack last start xs ys with
  | nil =>
    refine (h.gives_collapse hstack hlast).bind ?_
    rintro ⟨stack', run⟩ ⟨xs', ys', -, hrun, heq, hnil⟩
    rw [hnil rfl, List.nil_append] at heq
    simpa [← heq] using hrun
  | @cons run part runs parts hrun hruns ih =>
    refine (h.gives_collapse hstack hlast).bind ?_
    rintro ⟨stack', last'⟩ ⟨xs', ys', hstack', hlast', heq, -⟩
    obtain ⟨e, stack'', rfl⟩ : ∃ e stack'', stack' = e :: stack'' := by cases hstack' <;> exact ⟨_, _, rfl⟩
    simpa [heq] using ih (hstack'.push hlast') hrun

theorem Keeps.gives_sortRuns (h : Keeps cmp finish eager size (goodRunLength xs.length) total p Made Sorted)
    (hxs : ∀ x ∈ xs, p x) : Gives total (Sorted · xs) (sortRuns cmp finish room eager size xs) := by
  refine (h.gives_cutRuns hxs (Nat.le_refl _)).bind ?_
  rintro runs ⟨parts, hruns, rfl⟩
  have hjoin : Gives total (Made · parts.flatten)
      (joinAll cmp finish room parts.flatten.length [] ⟨[], true⟩ 0 runs) := by
    cases hruns with
    | nil => exact gives_some.2 h.nil
    | cons hrun hruns => exact h.gives_joinAll (.bottom _ _) hrun hruns
  exact hjoin.bind fun run hrun => h.gives_finished hrun

end Keeps

theorem chainLength_le (test : α → α → Bool) (x : α) (xs : List α) : chainLength test x xs ≤ xs.length := by
  fun_induction chainLength test x xs <;> simp_all

theorem pairwise_chain {test : α → α → Bool} {r : α → α → Prop} {x : α} (hxs : ∀ a ∈ x :: xs, p a)
    (htest : ∀ {a b}, p a → p b → test a b → r a b)
    (htrans : ∀ {a b c}, p a → p b → p c → r a b → r b c → r a c) :
    (x :: xs.take (chainLength test x xs)).Pairwise r := by
  induction xs generalizing x with
  | nil => simp
  | cons y ys ih =>
    obtain ⟨hx, hys⟩ := List.forall_mem_cons.1 hxs
    obtain ⟨hy, hys'⟩ := List.forall_mem_cons.1 hys
    unfold chainLength
    split
    next h =>
      have ih := ih hys
      refine List.pairwise_cons.2 ⟨List.forall_mem_cons.2 ⟨htest hx hy h, fun z hz => ?_⟩, ih⟩
      exact htrans hx hy (hys' z (List.mem_of_mem_take hz)) (htest hx hy h) ((List.pairwise_cons.1 ih).1 z hz)
    next => simp

theorem existingRun_bounds (cmp : α → α → Ordering) (hne : xs ≠ []) :
    0 < (existingRun cmp xs).1 ∧ (existingRun cmp xs).1 ≤ xs.length := by
  cases xs with
  | nil => exact absurd rfl hne
  | cons x xs =>
    have hfalls := chainLength_le (fun a b => cmp b a = .lt) x xs
    have hrises := chainLength_le (fun a b => cmp b a ≠ .lt) x xs
    simp only [existingRun]
    split <;> simp only [List.length_cons] <;> omega

theorem sameTies_reverse (hcmp : PreorderOn p cmp) (hxs : ∀ x ∈ xs, p x)
    (h : xs.Pairwise fun a b => cmp b a = .lt) : SameTies p cmp xs.reverse xs := by
  induction xs with
  | nil => exact SameTies.refl _
  | cons x xs ih =>
    obtain ⟨hx, hxs⟩ := List.forall_mem_cons.1 hxs
    obtain ⟨hlt, h⟩ := List.pairwise_cons.1 h
    rw [List.reverse_cons]
    exact ((ih hxs h).append (.refl [x])).trans
      (sameTies_append_comm hcmp (by simpa using hx) hxs (by simpa using hlt))

theorem existingRun_eq (hcmp : PreorderOn p cmp) (hxs : ∀ x ∈ xs, p x) :
    (if (existingRun cmp xs).2 then (xs.take (existingRun cmp xs).1).reverse
      else xs.take (existingRun cmp xs).1) = stableSort cmp (xs.take (existingRun cmp xs).1) := by
  cases xs with
  | nil => rfl
  | cons x xs =>
    have htake {n : Nat} : ∀ a ∈ x :: xs.take n, p a :=
      List.forall_mem_cons.2 ⟨hxs x List.mem_cons_self, fun a ha =>
        hxs a (List.mem_cons_of_mem x (List.mem_of_mem_take ha))⟩
    simp only [existingRun]
    split
    next =>
      have hfalls : (x :: xs.take (chainLength (fun a b => cmp b a = .lt) x xs)).Pairwise
          fun a b => cmp b a = .lt :=
        pairwise_chain hxs (fun _ _ h => of_decide_eq_true h)
          fun ha hb hc hab hbc => hcmp.lt_of_lt_of_ne_gt hc hb ha hbc (by simp [hab])
      simp only [List.take_succ_cons, if_true]
      apply eq_stableSort hcmp htake (List.reverse_perm _) _ (sameTies_reverse hcmp htake hfalls)
      exact List.pairwise_reverse.2 (hfalls.imp fun h => by simp [h])
    next =>
      have hrises : (x :: xs.take (chainLength (fun a b => cmp b a ≠ .lt) x xs)).Pairwise
          fun a b => cmp b a ≠ .lt :=
        pairwise_chain hxs (fun _ _ h => of_decide_eq_true h) fun ha hb hc hab hbc =>
          (hcmp.ne_gt_iff ha hc).1
            (hcmp.trans ha hb hc ((hcmp.ne_gt_iff ha hb).2 hab) ((hcmp.ne_gt_iff hb hc).2 hbc))
      simpa using (stableSort_of_pairwise hrises).symm

theorem gives_firstRun {eager : Bool} {good : Nat} {total : Prop} (Made : Run α → List α → Prop) (hne : xs ≠ [])
    (hgood : 0 < good)
    (hexisting : Made ⟨if (existingRun cmp xs).2 then (xs.take (existingRun cmp xs).1).reverse
      else xs.take (existingRun cmp xs).1, true⟩ (xs.take (existingRun cmp xs).1))
    (hshort : Gives total (fun sorted => Made ⟨sorted, true⟩ (xs.take 32)) (sortShort cmp size (xs.take 32)))
    (hlater : eager = false → Made ⟨xs.take good, false⟩ (xs.take good)) :
    Gives total (fun r => ∃ part, part ≠ [] ∧ part ++ r.2 = xs ∧ Made r.1 part)
      (firstRun cmp eager size good xs) := by
  have htake {n : Nat} (hn : 0 < n) : xs.take n ≠ [] := by simp [hne, Nat.ne_of_gt hn]
  unfold firstRun
  split
  next n falling heq =>
    rw [heq] at hexisting
    split
    next =>
      have hn : 0 < n := by simpa [heq] using (existingRun_bounds cmp hne).1
      exact gives_some.2 ⟨_, htake hn, List.take_append_drop n xs, hexisting⟩
    next =>
      split
      next =>
        exact hshort.map fun sorted hs => ⟨_, htake (by decide), List.take_append_drop 32 xs, hs⟩
      next heager =>
        exact gives_some.2 ⟨_, htake hgood, List.take_append_drop good xs, hlater (Bool.eq_false_iff.2 heager)⟩

theorem goodRunLength_pos {n : Nat} (h : 0 < n) : 0 < goodRunLength n := by
  unfold goodRunLength
  split
  · omega
  · have hlog : 12 ≤ n.log2 := (Nat.le_log2 (Nat.ne_of_gt h)).2 (by omega)
    have hroot : 2 ^ 1 ≤ 2 ^ ((1 + n.log2) / 2) := Nat.pow_le_pow_right (by decide) (by omega)
    exact Nat.div_pos (Nat.le_trans hroot (Nat.le_add_right _ _)) (by decide)

section sortRuns
variable {finish : List α → Option (List α)} {eager : Bool} {good room : Nat}

theorem keeps_perm (hgood : 0 < good) (hfinish : ∀ {xs ys}, finish xs = some ys → ys.Perm xs) :
    Keeps cmp finish eager size good False (fun _ => True) (fun run xs => run.elements.Perm xs) List.Perm where
  nil := .refl []
  first {xs} hne _ := by
    apply gives_firstRun (fun run xs => run.elements.Perm xs) hne hgood
    · dsimp only
      split
      · exact List.reverse_perm _
      · exact .refl _
    · exact ⟨nofun, fun ys hys => sortShort_perm hys⟩
    · exact fun _ => .refl _
  sorted h _ := h
  finish h _ := ⟨nofun, fun ys hys => (hfinish hys).trans h⟩
  merge hxs hys := (mergeRuns_perm _ _).trans (hxs.append hys)
  join hleft _ hright _ := hleft.append hright

theorem sortRuns_perm (hfinish : ∀ {xs ys}, finish xs = some ys → ys.Perm xs)
    (h : sortRuns cmp finish room eager size xs = some ys) : ys.Perm xs := by
  cases xs with
  | nil => rw [← Option.some.inj h]
  | cons x xs =>
    exact ((keeps_perm (goodRunLength_pos (Nat.succ_pos _)) hfinish).gives_sortRuns (by simp)).2 ys h

def Run.IsOf (p : α → Prop) (cmp : α → α → Ordering) (eager : Bool) (run : Run α) (xs : List α) : Prop :=
  (∀ x ∈ xs, p x) ∧ if run.sorted then run.elements = stableSort cmp xs else eager = false ∧ run.elements = xs

theorem keeps_stableSort (hcmp : PreorderOn p cmp) (hgood : 0 < good)
    (hfinish : eager = false → ∀ xs, (∀ x ∈ xs, p x) → finish xs = some (stableSort cmp xs)) :
    Keeps cmp finish eager size good True p (Run.IsOf p cmp eager)
      fun ys xs => (∀ x ∈ xs, p x) ∧ ys = stableSort cmp xs where
  nil := ⟨nofun, rfl⟩
  first {xs} hne hxs := by
    have htake {n : Nat} : ∀ x ∈ xs.take n, p x := fun x hx => hxs x (List.mem_of_mem_take hx)
    apply gives_firstRun _ hne hgood
    · exact ⟨htake, by simpa using existingRun_eq hcmp hxs⟩
    · rw [sortShort_eq hcmp htake, gives_some]
      exact ⟨htake, by simp⟩
    · exact fun heager => ⟨htake, by simpa using heager⟩
  sorted {run xs} h hs := ⟨h.1, by simpa [hs] using h.2⟩
  finish {run xs} h hs := by
    have heager : eager = false ∧ run.elements = xs := by simpa [hs] using h.2
    rw [heager.2, hfinish heager.1 xs h.1, gives_some]
    exact ⟨h.1, rfl⟩
  merge {xs ys xs' ys'} hxs hys := by
    refine ⟨List.forall_mem_append.2 ⟨hxs.1, hys.1⟩, ?_⟩
    rw [hxs.2, hys.2]
    simpa using mergeRuns_stableSort hcmp hxs.1 hys.1
  join {left right xs ys} hleft hl hright hr := by
    have hx : eager = false ∧ left.elements = xs := by simpa [hl] using hleft.2
    have hy : eager = false ∧ right.elements = ys := by simpa [hr] using hright.2
    exact ⟨List.forall_mem_append.2 ⟨hleft.1, hright.1⟩, by simp [hx, hy.2]⟩

theorem sortRuns_eq (hcmp : PreorderOn p cmp) (hxs : ∀ x ∈ xs, p x)
    (hfinish : eager = false → ∀ xs, (∀ x ∈ xs, p x) → finish xs = some (stableSort cmp xs)) :
    sortRuns cmp finish room eager size xs = some (stableSort cmp xs) := by
  cases xs with
  | nil => rfl
  | cons x xs =>
    have h : Gives True (fun ys => (∀ a ∈ x :: xs, p a) ∧ ys = stableSort cmp (x :: xs))
        (sortRuns cmp finish room eager size (x :: xs)) :=
      (keeps_stableSort hcmp (goodRunLength_pos (Nat.succ_pos xs.length)) hfinish).gives_sortRuns hxs
    obtain ⟨ys, hys⟩ := Option.isSome_iff_exists.1 (h.1 trivial)
    rw [hys, (h.2 ys hys).2]

end sortRuns

theorem sortEagerly_perm (h : sortEagerly cmp size xs = some ys) : ys.Perm xs :=
  sortRuns_perm (fun h => by rw [Option.some.inj h]) h

theorem sortEagerly_eq (hcmp : PreorderOn p cmp) (hxs : ∀ x ∈ xs, p x) :
    sortEagerly cmp size xs = some (stableSort cmp xs) :=
  sortRuns_eq hcmp hxs nofun

theorem sortLazily_perm {room : Nat} (h : sortLazily cmp size room xs = some ys) : ys.Perm xs :=
  sortRuns_perm (quicksort_perm sortEagerly_perm) h

theorem sortLazily_eq {room : Nat} (hcmp : PreorderOn p cmp) (hxs : ∀ x ∈ xs, p x) :
    sortLazily cmp size room xs = some (stableSort cmp xs) :=
  sortRuns_eq hcmp hxs fun _ _ hys => quicksort_eq hcmp (fun _ => sortEagerly_eq hcmp) hys (by simp)

theorem chainLength_of_pairwise {test : α → α → Bool} {x : α} (h : (x :: xs).Pairwise (test · ·)) :
    chainLength test x xs = xs.length := by
  induction xs generalizing x with
  | nil => rfl
  | cons y ys ih =>
    obtain ⟨hx, hys⟩ := List.pairwise_cons.1 h
    rw [chainLength, if_pos (hx y List.mem_cons_self), ih hys, List.length_cons]

theorem goodRunLength_le (n : Nat) : goodRunLength n ≤ n := by
  unfold goodRunLength
  split
  · omega
  · have hroot : 2 ^ ((1 + n.log2) / 2) ≤ n :=
      Nat.le_trans (Nat.pow_le_pow_right (by decide) (by omega)) (Nat.log2_self_le (by omega))
    have hquotient := Nat.div_le_self n (2 ^ ((1 + n.log2) / 2))
    simp only [Nat.pow_eq]
    omega

/-- A list in order is its own first run, and there is no other one. -/
theorem sortRuns_of_pairwise {finish : List α → Option (List α)} {room : Nat} {eager : Bool}
    (h : xs.Pairwise fun a b => cmp b a ≠ .lt) : sortRuns cmp finish room eager size xs = some xs := by
  cases xs with
  | nil => rfl
  | cons x xs =>
    have hfalls : chainLength (fun a b => cmp b a = .lt) x xs = 0 := by
      cases xs with
      | nil => rfl
      | cons y ys => exact if_neg (by simpa using (List.pairwise_cons.1 h).1 y List.mem_cons_self)
    have hrises : chainLength (fun a b => cmp b a ≠ .lt) x xs = xs.length :=
      chainLength_of_pairwise (by simpa using h)
    have hexisting : existingRun cmp (x :: xs) = ((x :: xs).length, false) := by
      simp only [existingRun, hfalls, hrises, Nat.lt_irrefl, if_false, List.length_cons]
    have hfirst : firstRun cmp eager size (goodRunLength (x :: xs).length) (x :: xs) =
        some (⟨x :: xs, true⟩, []) := by
      rw [firstRun, hexisting]
      dsimp only
      rw [if_pos (goodRunLength_le _), List.take_length, List.drop_length]
      rfl
    have hcut : cutRuns cmp eager size (goodRunLength (x :: xs).length) (x :: xs).length (x :: xs) =
        some [⟨x :: xs, true⟩] := by
      rw [List.length_cons, cutRuns, ← List.length_cons, hfirst]
      · simp only [Option.bind_eq_bind, Option.bind_some]
        cases xs.length <;> rfl
      · exact nofun
    rw [sortRuns, hcut]
    rfl

end TableQuery.Sorting

namespace TableQuery
open Sorting
variable {α : Type} {p : α → Prop} {cmp : α → α → Ordering} {size : Nat} {xs ys : List α}

/-- What comes of a sort is a permutation, whatever the comparison is. -/
theorem sortBy_perm (h : sortBy size cmp xs = some ys) : ys.Perm xs := by
  unfold sortBy at h
  split_ifs at h
  · rw [← Option.some.inj h]
    exact stableSort_perm xs
  · exact sortEagerly_perm h
  · exact sortLazily_perm h

/-- On a total preorder the sort does not give up, and it is the stable sort. -/
theorem sortBy_eq (hcmp : PreorderOn p cmp) (hxs : ∀ x ∈ xs, p x) :
    sortBy size cmp xs = some (stableSort cmp xs) := by
  unfold sortBy
  split_ifs
  · rfl
  · exact sortEagerly_eq hcmp hxs
  · exact sortLazily_eq hcmp hxs

theorem sortBy_of_pairwise (h : xs.Pairwise fun a b => cmp b a ≠ .lt) : sortBy size cmp xs = some xs := by
  unfold sortBy
  split_ifs
  · rw [stableSort_of_pairwise h]
  · exact sortRuns_of_pairwise h
  · exact sortRuns_of_pairwise h

/-- A sort gives up only if the list is long and the comparison contradicts itself on it. -/
theorem sortBy_eq_none (h : sortBy size cmp xs = none) : 20 < xs.length ∧ ¬PreorderOn (· ∈ xs) cmp := by
  constructor
  · refine Nat.lt_of_not_le fun hlen => ?_
    rw [sortBy, if_pos hlen] at h
    cases h
  · intro hcmp
    cases h.symm.trans (sortBy_eq hcmp fun _ => id)

end TableQuery
