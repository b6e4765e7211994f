import TableQuery.Proofs.Conditions
import TableQuery.Proofs.Datasets
import TableQuery.Proofs.Folding
import TableQuery.Proofs.Pieces

/-! # Names of columns

A name stands for columns in two ways. To be shown a column is found by its folded name; to be tested or
sorted by it is found by its exact name, or else up to the case of ASCII letters. What is found in the second
way is also found in the first, and what is found in the first way only differs from the name in the case of
other letters.
-/
namespace TableQuery

namespace Text

theorem toLower_cases (c : Char) : c.toLower = c ∨
    (0x41 ≤ c.toNat ∧ c.toNat ≤ 0x5A) ∧ 0x61 ≤ c.toLower.toNat ∧ c.toLower.toNat ≤ 0x7A := by
  by_cases hc : 0x41 ≤ c.toNat ∧ c.toNat ≤ 0x5A
  · have hletters : ∀ i < 26, 0x61 ≤ (Char.ofNat (0x41 + i)).toLower.toNat ∧
        (Char.ofNat (0x41 + i)).toLower.toNat ≤ 0x7A := by decide
    have hlower := hletters (c.toNat - 0x41) (by omega)
    rw [Nat.add_sub_cancel' hc.1, Char.ofNat_toNat] at hlower
    exact .inr ⟨hc, hlower⟩
  · exact .inl (dif_neg hc)

theorem isCased_toLower (c : Char) : isCased c.toLower = isCased c := by
  rcases toLower_cases c with h | ⟨hupper, hlower⟩
  · rw [h]
  · rw [isCased, isCased, inRanges_iff.2 ⟨(0x61, 0x7A), by decide, hlower⟩,
      inRanges_iff.2 ⟨(0x41, 0x5A), by decide, hupper⟩]

theorem isCaseIgnorable_toLower (c : Char) : isCaseIgnorable c.toLower = isCaseIgnorable c := by
  rcases toLower_cases c with h | ⟨hupper, hlower⟩
  · rw [h]
  · rw [isCaseIgnorable, isCaseIgnorable,
      CaseRun.not_inRanges_of_avoids (by decide +kernel) hlower.1 hlower.2,
      CaseRun.not_inRanges_of_avoids (by decide +kernel) hupper.1 hupper.2]

theorem lowerChar_toLower (c : Char) : lowerChar c.toLower = lowerChar c := by
  rcases toLower_cases c with h | ⟨hupper, hlower⟩
  · rw [h]
  · have hsettled : c.toLower.toLower = c.toLower := by
      rcases toLower_cases c.toLower with h | ⟨h, -⟩
      · exact h
      · omega
    rw [lowerChar, lowerChar, if_pos (by omega), if_pos (by omega), hsettled]

theorem toLower_eq_capitalSigma_iff (c : Char) : c.toLower = capitalSigma ↔ c = capitalSigma := by
  rcases toLower_cases c with h | ⟨hupper, hlower⟩
  · rw [h]
  · have hsigma : capitalSigma.toNat = 0x3A3 := by decide
    refine iff_of_false (fun h => ?_) fun h => ?_
    · rw [h] at hlower
      omega
    · rw [h] at hupper
      omega

theorem meetsCased_map_toLower (cs : List Char) : meetsCased (cs.map Char.toLower) = meetsCased cs := by
  induction cs with
  | nil => rfl
  | cons c cs ih =>
    unfold meetsCased at ih ⊢
    rw [List.map_cons, List.dropWhile_cons, List.dropWhile_cons, isCaseIgnorable_toLower]
    split
    · exact ih
    · exact isCased_toLower c

/-- For the fold of a text the case of its ASCII letters does not matter. -/
theorem foldAfter_map_toLower (before cs : List Char) :
    foldAfter (before.map Char.toLower) (cs.map Char.toLower) = foldAfter before cs := by
  induction cs generalizing before with
  | nil => rfl
  | cons c cs ih =>
    rw [List.map_cons, foldAfter, foldAfter, ← List.map_cons, ih, lowerChar_toLower, sigmaBetween,
      sigmaBetween, meetsCased_map_toLower, meetsCased_map_toLower]
    simp only [toLower_eq_capitalSigma_iff]

theorem fold_eq_of_eqIgnoreAsciiCase {s t : String} (h : eqIgnoreAsciiCase s t = true) : fold s = fold t := by
  have hlower : s.toList.map Char.toLower = t.toList.map Char.toLower := beq_iff_eq.1 h
  rw [fold, fold, foldChars, foldChars, ← foldAfter_map_toLower [] s.toList, hlower, foldAfter_map_toLower]

/-- Among ASCII texts there is no other case. -/
theorem eqIgnoreAsciiCase_of_fold_eq {s t : String} (hs : isAscii s.toList = true)
    (ht : isAscii t.toList = true) (h : fold s = fold t) : eqIgnoreAsciiCase s t = true := by
  have heq := eqIgnoreCase_iff.2 h
  rwa [eqIgnoreCase, hs, ht, Bool.and_self, if_pos rfl] at heq

end Text

open Text

namespace Dataset
variable {d : Dataset} {w : String}

theorem exists_of_fieldIndex? {i : Nat} (h : d.fieldIndex? w = some i) :
    ∃ f, d.fields[i]? = some f ∧ eqIgnoreAsciiCase f w = true := by
  rcases Option.or_eq_some_iff.1 h with h | ⟨-, h⟩
  · obtain ⟨hi, hname, -⟩ := List.idxOf?_eq_some_iff.1 h
    exact ⟨w, List.getElem?_eq_some_iff.2 ⟨hi, hname⟩, beq_self_eq_true _⟩
  · obtain ⟨hi, hname, -⟩ := List.findIdx?_eq_some_iff_getElem.1 h
    exact ⟨_, List.getElem?_eq_getElem hi, hname⟩

theorem isSome_fieldIndex?_iff :
    (d.fieldIndex? w).isSome = true ↔ ∃ f ∈ d.fields, eqIgnoreAsciiCase f w = true := by
  constructor
  · intro h
    obtain ⟨i, hi⟩ := Option.isSome_iff_exists.1 h
    obtain ⟨f, hf, hname⟩ := exists_of_fieldIndex? hi
    exact ⟨f, List.mem_of_getElem? hf, hname⟩
  · rintro ⟨f, hf, hname⟩
    rw [fieldIndex?, Option.isSome_or, List.findIdx?_isSome, List.any_eq_true.2 ⟨f, hf, hname⟩, Bool.or_true]

end Dataset

/-- A name shows the columns with its fold, if there are any. -/
theorem selectColumns_name_eq_ok_iff {w : String} {columns selected : List Column} :
    selectColumns (some [w]) columns = .ok selected ↔
      selected = columns.filter (fun c => decide (fold c.name = fold w)) ∧ selected ≠ [] := by
  have hselect : selectColumns (some [w]) columns =
      if columns.filter (fun c => decide (fold c.name = fold w)) = [] then .error [fold w]
      else .ok (columns.filter fun c => decide (fold c.name = fold w)) := by
    simp [selectColumns]
  rw [hselect]
  split
  next hnil => exact iff_of_false nofun fun h => h.2 (h.1.trans hnil)
  next hne =>
    rw [Except.ok.injEq]
    constructor
    · rintro rfl
      exact ⟨rfl, hne⟩
    · exact fun h => h.1.symm

namespace Dataset
variable {d : Dataset}

/-- The field that a name stands for in a condition is among the columns that the name shows. If it stands
for none, no column shown has the name up to the case of ASCII letters. -/
theorem shown_columns_found (hall : d.columns.map (·.name) = d.fields) (w : String) :
    (∀ i, d.fieldIndex? w = some i → ∃ selected c, selectColumns (some [w]) d.columns = .ok selected ∧
        d.columns[i]? = some c ∧ c ∈ selected) ∧
      ∀ selected, selectColumns (some [w]) d.columns = .ok selected → selected ≠ [] ∧
        ((d.fieldIndex? w).isSome = true ↔ ∃ c ∈ selected, eqIgnoreAsciiCase c.name w = true) ∧
        (isAscii w.toList = true → (∃ c ∈ selected, isAscii c.name.toList = true) →
          (d.fieldIndex? w).isSome = true) := by
  have hshown {c : Column} (hc : c ∈ d.columns) (hname : eqIgnoreAsciiCase c.name w = true) :
      c ∈ d.columns.filter fun c => decide (fold c.name = fold w) :=
    List.mem_filter.2 ⟨hc, decide_eq_true (fold_eq_of_eqIgnoreAsciiCase hname)⟩
  constructor
  · intro i hi
    obtain ⟨f, hf, hname⟩ := exists_of_fieldIndex? hi
    rw [← hall, List.getElem?_map] at hf
    obtain ⟨c, hc, rfl⟩ := Option.map_eq_some_iff.1 hf
    have hmem := hshown (List.mem_of_getElem? hc) hname
    exact ⟨_, c, selectColumns_name_eq_ok_iff.2 ⟨rfl, List.ne_nil_of_mem hmem⟩, hc, hmem⟩
  · intro selected hselected
    obtain ⟨rfl, hne⟩ := selectColumns_name_eq_ok_iff.1 hselected
    have hfound {c : Column} (hc : c ∈ d.columns) (hname : eqIgnoreAsciiCase c.name w = true) :
        (d.fieldIndex? w).isSome = true :=
      isSome_fieldIndex?_iff.2 ⟨c.name, hall ▸ List.mem_map_of_mem hc, hname⟩
    refine ⟨hne, ⟨fun h => ?_, ?_⟩, ?_⟩
    · obtain ⟨f, hf, hname⟩ := isSome_fieldIndex?_iff.1 h
      rw [← hall] at hf
      obtain ⟨c, hc, rfl⟩ := List.mem_map.1 hf
      exact ⟨c, hshown hc hname, hname⟩
    · rintro ⟨c, hc, hname⟩
      exact hfound (List.mem_filter.1 hc).1 hname
    · rintro hw ⟨c, hc, hascii⟩
      obtain ⟨hc, hfold⟩ := List.mem_filter.1 hc
      exact hfound hc (eqIgnoreAsciiCase_of_fold_eq hascii hw (of_decide_eq_true hfold))

/-- Of two columns with one fold the condition tests the second, whose other letter is as in the name. -/
theorem shown_columns_found_umlauts :
    let d : Dataset := ⟨[⟨"ÄB", .string⟩, ⟨"n", .integer⟩, ⟨"äB", .string⟩], [0, 1, 2], ["ÄB", "n", "äB"], []⟩
    d.columns.map (·.name) = d.fields ∧ d.fieldIndex? "äb" = some 2 ∧
      ∃ selected c, selectColumns (some ["äb"]) d.columns = .ok selected ∧ d.columns[2]? = some c ∧
        c ∈ selected := by
  intro d
  have hindex : d.fieldIndex? "äb" = some 2 := by decide +kernel
  exact ⟨rfl, hindex, (shown_columns_found (d := d) rfl "äb").1 2 hindex⟩

/-- A column whose name begins with another capital letter is shown and not found. -/
theorem not_shown_iff_found : ¬∀ (d : Dataset) (w : String), d.WellFormed →
    d.columns.map (·.name) = d.fields → IsIdentifier w →
      ((∃ selected, selectColumns (some [w]) d.columns = .ok selected ∧ selected ≠ []) ↔
        (d.fieldIndex? w).isSome = true) ∧
      ∀ i selected, d.fieldIndex? w = some i → selectColumns (some [w]) d.columns = .ok selected →
        ∃ c ∈ selected, d.columns[i]? = some c := by
  intro h
  have hd : WellFormed ⟨[⟨"Ä", .string⟩], [0], ["Ä"], [[.text "x"]]⟩ := by constructor <;> decide
  have hw : IsIdentifier "ä" := by decide +kernel
  have hshown : selectColumns (some ["ä"]) [⟨"Ä", .string⟩] = .ok [⟨"Ä", .string⟩] := by decide +kernel
  have hfound := (h _ "ä" hd rfl hw).1.1 ⟨_, hshown, List.cons_ne_nil _ _⟩
  revert hfound
  decide +kernel

end Dataset
end TableQuery
