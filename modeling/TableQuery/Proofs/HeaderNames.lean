import Mathlib.Data.List.Nodup
import Mathlib.Data.List.Perm.Subperm
import TableQuery.Csv.Header

/-! # Free names

The names that a header gives to columns are distinct, whatever names it repeats, and only an empty name
makes an empty one. A name changes exactly when it was given before, by the least number that makes it free,
and distinct names stay as they are.
-/
namespace TableQuery.Csv

theorem numbered_injective {name : String} {m n : Nat} (h : numbered name m = numbered name n) : m = n := by
  have hchars := congrArg String.toList h
  simp only [numbered, String.toList_append, String.toList_ofList] at hchars
  have hdigits := List.append_cancel_left hchars
  rw [← Nat.ofDigitChars_ten_toDigits (n := m), hdigits, Nat.ofDigitChars_ten_toDigits]

theorem numbered_ne_empty (name : String) (n : Nat) : numbered name n ≠ "" := by
  intro h
  have hchars := congrArg String.toList h
  simp [numbered] at hchars

theorem nodup_numbered (name : String) (width : Nat) :
    ((List.range width).map fun i => numbered name (i + 1)).Nodup :=
  List.Nodup.map (fun _ _ hij => Nat.succ.inj (numbered_injective hij)) List.nodup_range

/-- Among one more numbers than there are taken names one is free. -/
theorem exists_numbered_not_mem (taken : List String) (name : String) :
    ∃ i < taken.length + 1, numbered name (i + 1) ∉ taken := by
  refine Classical.byContradiction fun hnone => ?_
  have hall : ∀ i < taken.length + 1, numbered name (i + 1) ∈ taken := fun i hi =>
    Classical.byContradiction fun hfree => hnone ⟨i, hi, hfree⟩
  have hsubset : ((List.range (taken.length + 1)).map fun i => numbered name (i + 1)) ⊆ taken := by
    intro s hs
    obtain ⟨i, hi, rfl⟩ := List.mem_map.1 hs
    exact hall i (List.mem_range.1 hi)
  have hlength := ((nodup_numbered name _).subperm hsubset).length_le
  rw [List.length_map, List.length_range] at hlength
  omega

theorem freeName_not_mem (taken : List String) (name : String) : freeName taken name ∉ taken := by
  unfold freeName
  split
  next =>
    dsimp only
    cases hfind : (List.range (taken.length + 1)).find? fun i => !taken.contains (numbered name (i + 1)) with
    | none =>
      obtain ⟨i, hi, hfree⟩ := exists_numbered_not_mem taken name
      have htaken := List.find?_eq_none.1 hfind i (List.mem_range.2 hi)
      simp [hfree] at htaken
    | some i =>
      have hfree := List.find?_some hfind
      simpa using hfree
  next h => exact h

theorem freeName_eq_empty_iff {taken : List String} {name : String} (h : "" ∉ taken) :
    freeName taken name = "" ↔ name = "" := by
  unfold freeName
  split
  next hmem => exact iff_of_false (numbered_ne_empty _ _) fun hname => h (hname ▸ hmem)
  next => exact Iff.rfl

theorem nodup_uniqueNames_append (taken names : List String) :
    (uniqueNames taken names).Nodup ∧ ∀ n ∈ uniqueNames taken names, n ∉ taken := by
  induction names generalizing taken with
  | nil => exact ⟨List.nodup_nil, nofun⟩
  | cons name names ih =>
    obtain ⟨hnodup, hfresh⟩ := ih (freeName taken name :: taken)
    rw [uniqueNames]
    refine ⟨List.nodup_cons.2 ⟨fun hmem => hfresh _ hmem List.mem_cons_self, hnodup⟩, ?_⟩
    intro n hn
    rcases List.mem_cons.1 hn with rfl | hn
    · exact freeName_not_mem taken name
    · exact fun hmem => hfresh n hn (List.mem_cons_of_mem _ hmem)

theorem nodup_uniqueNames (names : List String) : (uniqueNames [] names).Nodup :=
  (nodup_uniqueNames_append [] names).1

/-- Names that are not empty stay so. -/
theorem uniqueNames_ne_empty {taken names : List String} (ht : "" ∉ taken) (h : ∀ n ∈ names, n ≠ "") :
    ∀ n ∈ uniqueNames taken names, n ≠ "" := by
  induction names generalizing taken with
  | nil => exact nofun
  | cons name names ih =>
    obtain ⟨hname, hnames⟩ := List.forall_mem_cons.1 h
    have hfree : freeName taken name ≠ "" := fun hempty => hname ((freeName_eq_empty_iff ht).1 hempty)
    rw [uniqueNames]
    refine List.forall_mem_cons.2 ⟨hfree, ih ?_ hnames⟩
    exact fun hmem => (List.mem_cons.1 hmem).elim (fun he => hfree he.symm) ht

structure IsLeastFree (taken : List String) (name : String) (n : Nat) : Prop where
  one_le : 1 ≤ n
  not_mem : numbered name n ∉ taken
  mem_of_lt : ∀ m, 1 ≤ m → m < n → numbered name m ∈ taken

theorem exists_freeName_eq {taken : List String} {name : String} (h : name ∈ taken) :
    ∃ n, freeName taken name = numbered name n ∧ IsLeastFree taken name n := by
  obtain ⟨i, hi, hfree⟩ := exists_numbered_not_mem taken name
  obtain ⟨k, hk⟩ : ∃ k, ((List.range (taken.length + 1)).find? fun i =>
      !taken.contains (numbered name (i + 1))) = some k := by
    rw [← Option.isSome_iff_exists, List.find?_isSome]
    exact ⟨i, List.mem_range.2 hi, by simpa using hfree⟩
  obtain ⟨hkfree, -, hbefore⟩ := List.find?_range_eq_some.1 hk
  refine ⟨k + 1, ?_, Nat.succ_pos k, by simpa using hkfree, fun m hm hlt => ?_⟩
  · rw [freeName, if_pos h]
    dsimp only
    rw [hk, Option.getD_some]
  · have htaken := hbefore (m - 1) (by omega)
    simpa [Nat.sub_add_cancel hm] using htaken

theorem IsLeastFree.congr {taken taken' : List String} {name : String} {n : Nat}
    (h : IsLeastFree taken name n) (ht : ∀ s, s ∈ taken ↔ s ∈ taken') : IsLeastFree taken' name n :=
  ⟨h.one_le, fun hmem => h.not_mem ((ht _).2 hmem), fun m hm hlt => (ht _).1 (h.mem_of_lt m hm hlt)⟩

/-- Each name is made free of those before it. -/
theorem getElem?_uniqueNames (taken names : List String) (i : Nat) :
    (uniqueNames taken names)[i]? =
      names[i]?.map (freeName (((uniqueNames taken names).take i).reverse ++ taken)) := by
  induction names generalizing taken i with
  | nil => rfl
  | cons name names ih =>
    rw [uniqueNames]
    cases i with
    | zero => rfl
    | succ i => simp [ih]

/-- The names are changed where they repeat one that was given before, and nowhere else. -/
structure IsRenaming (names unique : List String) : Prop where
  length_eq : unique.length = names.length
  nodup : unique.Nodup
  kept : ∀ i, ∀ name ∈ names[i]?, name ∉ unique.take i → unique[i]? = some name
  changed : ∀ i, ∀ name ∈ names[i]?, name ∈ unique.take i →
    ∃ n, unique[i]? = some (numbered name n) ∧ IsLeastFree (unique.take i) name n

theorem isRenaming_uniqueNames (names : List String) : IsRenaming names (uniqueNames [] names) := by
  have hmem (i : Nat) (s : String) : s ∈ ((uniqueNames [] names).take i).reverse ++ [] ↔
      s ∈ (uniqueNames [] names).take i := by simp
  constructor
  case length_eq => exact length_uniqueNames [] names
  case nodup => exact nodup_uniqueNames names
  case kept =>
    intro i name hname hfree
    rw [getElem?_uniqueNames, Option.mem_def.1 hname, Option.map_some, freeName,
      if_neg fun hm => hfree ((hmem i name).1 hm)]
  case changed =>
    intro i name hname htaken
    obtain ⟨n, hn, hleast⟩ := exists_freeName_eq ((hmem i name).2 htaken)
    refine ⟨n, ?_, hleast.congr (hmem i)⟩
    rw [getElem?_uniqueNames, Option.mem_def.1 hname, Option.map_some, hn]

/-- A name that is free stays as it is. -/
theorem uniqueNames_of_nodup {names taken : List String} (h : names.Nodup) (ht : ∀ n ∈ names, n ∉ taken) :
    uniqueNames taken names = names := by
  induction names generalizing taken with
  | nil => rfl
  | cons n names ih =>
    obtain ⟨hn, hnames⟩ := List.nodup_cons.1 h
    obtain ⟨hfree, hrest⟩ := List.forall_mem_cons.1 ht
    have hname : freeName taken n = n := if_neg hfree
    rw [uniqueNames, hname, ih hnames]
    intro m hm hmem
    rcases List.mem_cons.1 hmem with rfl | hmem
    · exact hn hm
    · exact hrest m hm hmem

theorem renamed_eq_map_filter (names unique : List String) :
    renamed names unique =
      ((names.zip unique).filter fun p => p.1 ≠ p.2).map fun p => .duplicateHeader p.1 p.2 := by
  rw [renamed]
  induction names.zip unique with
  | nil => rfl
  | cons p pairs ih => by_cases h : p.1 = p.2 <;> simp [h, ih]

theorem renamed_self (names : List String) : renamed names names = [] := by
  induction names with
  | nil => rfl
  | cons n names ih =>
    refine (List.filterMap_cons_none ?_).trans ih
    exact if_pos rfl

variable {names unique : List String}

theorem IsRenaming.ne_iff (h : IsRenaming names unique) {i : Nat} {name new : String}
    (hname : names[i]? = some name) (hnew : unique[i]? = some new) : name ≠ new ↔ name ∈ unique.take i := by
  by_cases htaken : name ∈ unique.take i
  · obtain ⟨n, hn, hleast⟩ := h.changed i name hname htaken
    obtain rfl : new = numbered name n := Option.some.inj (hnew.symm.trans hn)
    refine iff_of_true (fun he => hleast.not_mem ?_) htaken
    rwa [← he]
  · have hkept := h.kept i name hname htaken
    obtain rfl : new = name := Option.some.inj (hnew.symm.trans hkept)
    exact iff_of_false (fun hne => hne rfl) htaken

theorem IsRenaming.getElem?_ne_iff (h : IsRenaming names unique) (i : Nat) :
    unique[i]? ≠ names[i]? ↔ ∃ name ∈ names[i]?, name ∈ unique.take i := by
  cases hname : names[i]? with
  | none =>
    have hnone : unique[i]? = none := by
      rw [List.getElem?_eq_none_iff, h.length_eq]
      exact List.getElem?_eq_none_iff.1 hname
    simp [hnone]
  | some name =>
    obtain ⟨new, hnew⟩ : ∃ new, unique[i]? = some new := by
      have hi := (List.getElem?_eq_some_iff.1 hname).1
      exact ⟨_, List.getElem?_eq_getElem (h.length_eq ▸ hi)⟩
    have hne : new ≠ name ↔ name ∈ unique.take i := ne_comm.trans (h.ne_iff hname hnew)
    simp [hnew, hne]

/-- The repeated names are reported in order. -/
theorem IsRenaming.renamed_eq (h : IsRenaming names unique) : renamed names unique =
    ((names.zip unique).zipIdx.filter fun p => p.1.1 ∈ unique.take p.2).map fun p =>
      .duplicateHeader p.1.1 p.1.2 := by
  have hrepeated : ∀ p ∈ (names.zip unique).zipIdx,
      decide (p.1.1 ∈ unique.take p.2) = decide (p.1.1 ≠ p.1.2) := by
    intro p hp
    obtain ⟨hname, hnew⟩ := List.getElem?_zip_eq_some.1 (List.mk_mem_zipIdx_iff_getElem?.1 hp)
    exact decide_eq_decide.2 (h.ne_iff hname hnew).symm
  rw [List.filter_congr hrepeated, renamed_eq_map_filter]
  conv_lhs => rw [← List.zipIdx_map_fst 0 (names.zip unique)]
  rw [List.filter_map, List.map_map]
  rfl

/-- A header's names are told apart by changing only those that repeat one before them, which is reported.
Doing so again changes and reports nothing. -/
theorem uniqueNames_renaming (names : List String) :
    IsRenaming names (uniqueNames [] names) ∧
      let unique := uniqueNames [] names
      (∀ i, unique[i]? ≠ names[i]? ↔ ∃ name ∈ names[i]?, name ∈ unique.take i) ∧
      renamed names unique = ((names.zip unique).zipIdx.filter fun p => p.1.1 ∈ unique.take p.2).map
        (fun p => .duplicateHeader p.1.1 p.1.2) ∧
      uniqueNames [] unique = unique ∧ renamed unique unique = [] := by
  have hrenaming := isRenaming_uniqueNames names
  exact ⟨hrenaming, hrenaming.getElem?_ne_iff, hrenaming.renamed_eq,
    uniqueNames_of_nodup hrenaming.nodup fun _ _ => List.not_mem_nil, renamed_self _⟩

example : uniqueNames [] ["a", "a", "a_1", "", "a", ""] = ["a", "a_1", "a_1_1", "", "a_2", "_1"] := by
  decide +kernel

end TableQuery.Csv
