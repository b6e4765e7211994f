import TableQuery.Text.Fold
import TableQuery.Text.Space

/-! # Folds

Folding is idempotent, since the lower case of a character is its own lower case. White space and the
marks that a text is divided by stay as they are, and no other character turns into one.
-/
namespace TableQuery.Text

def separatorRanges : List CodeRange := spaceRanges ++ [(0x22, 0x22), (0x27, 0x2A), (0x2C, 0x2C)]

def isSeparator (c : Char) : Bool := inRanges separatorRanges c.toNat

theorem isSeparator_of_isSpace {c : Char} (h : isSpace c = true) : isSeparator c = true := by
  obtain ⟨r, hr, hc⟩ := inRanges_iff.1 h
  exact inRanges_iff.2 ⟨r, List.mem_append_left _ hr, hc⟩

namespace CaseRun

def lastImage (r : CaseRun) : Nat := r.image + (r.last - r.first)

/-- The images of a run lie outside another run or between its code points. -/
def isApart (r s : CaseRun) : Bool :=
  r.lastImage < s.first || s.last < r.image ||
    s.step == 2 && (r.step == 2 || r.first == r.last) && (r.image + s.first) % 2 == 1

def avoids (first last : Nat) (range : CodeRange) : Bool := last < range.1 || range.2 < first

def isProper (r : CaseRun) : Bool :=
  (r.lastImage < 0xD800 || 0xDFFF < r.image && r.lastImage < 0x110000) &&
    avoids r.image r.lastImage (0x130, 0x130) &&
    separatorRanges.all (avoids r.first r.last) &&
    separatorRanges.all (avoids r.image r.lastImage) &&
    caseRuns.all r.isApart

theorem isProper_of_mem : ∀ r ∈ caseRuns, r.isProper = true := by
  rw [← List.all_eq_true]
  decide +kernel

theorem not_inRanges_of_avoids {first last n : Nat} {ranges : List CodeRange}
    (h : ranges.all (avoids first last) = true) (hfirst : first ≤ n) (hlast : n ≤ last) :
    inRanges ranges n = false := by
  rw [Bool.eq_false_iff]
  intro hn
  obtain ⟨range, hrange, hlow, hhigh⟩ := inRanges_iff.1 hn
  have ha := List.all_eq_true.1 h range hrange
  simp only [avoids, Bool.or_eq_true, decide_eq_true_eq] at ha
  omega

theorem covers_iff {r : CaseRun} {n : Nat} :
    r.covers n = true ↔ r.first ≤ n ∧ n ≤ r.last ∧ (n - r.first) % r.step = 0 := by
  simp [covers, and_assoc]

theorem not_covers_of_isApart {r s : CaseRun} {n : Nat} (h : r.isApart s = true) (hn : r.covers n = true) :
    s.covers (r.image + (n - r.first)) = false := by
  obtain ⟨hfirst, hlast, hstep⟩ := covers_iff.1 hn
  rw [Bool.eq_false_iff]
  intro hs
  obtain ⟨hsfirst, hslast, hsstep⟩ := covers_iff.1 hs
  simp only [isApart, Bool.or_eq_true, Bool.and_eq_true, decide_eq_true_eq, beq_iff_eq] at h
  unfold lastImage at h
  rcases h with (h | h) | ⟨⟨htwo, hr⟩, hodd⟩
  · omega
  · omega
  · rw [htwo] at hsstep
    rcases hr with hr | hr
    · rw [hr] at hstep
      omega
    · omega

end CaseRun

theorem lowerCode_of_not_covers {n : Nat} (h : ∀ r ∈ caseRuns, r.covers n = false) : lowerCode n = n := by
  have hnone : caseRuns.find? (·.covers n) = none :=
    List.find?_eq_none.2 fun r hr => Bool.eq_false_iff.1 (h r hr)
  rw [lowerCode, hnone]

theorem lowerCode_eq_or_covers (n : Nat) :
    lowerCode n = n ∨ ∃ r ∈ caseRuns, r.covers n = true ∧ lowerCode n = r.image + (n - r.first) := by
  unfold lowerCode
  split
  next r hr =>
    have hcovers := List.find?_some hr
    exact .inr ⟨r, List.mem_of_find?_eq_some hr, hcovers, rfl⟩
  next => exact .inl rfl

def IsSettled (c : Char) : Prop := lowerChar c = [c]

instance (c : Char) : Decidable (IsSettled c) := inferInstanceAs (Decidable (_ = _))

/-- The characters are settled, and if they are not the character itself, neither it nor they are
separators. -/
def IsLowerOf (c : Char) (ds : List Char) : Prop :=
  (∀ d ∈ ds, IsSettled d) ∧
    (ds = [c] ∨ isSeparator c = false ∧ ds ≠ [] ∧ ∀ d ∈ ds, isSeparator d = false)

instance (c : Char) (ds : List Char) : Decidable (IsLowerOf c ds) :=
  have (p : Char → Prop) [DecidablePred p] : Decidable (∀ d ∈ ds, p d) := List.decidableBAll p ds
  inferInstanceAs (Decidable (_ ∧ _))

theorem isLowerOf_lowerChar_of_ascii {c : Char} (h : c.toNat < 0x80) : IsLowerOf c (lowerChar c) := by
  have hascii : ∀ n < 0x80, IsLowerOf (Char.ofNat n) (lowerChar (Char.ofNat n)) := by decide +kernel
  rw [← Char.ofNat_toNat c]
  exact hascii c.toNat h

theorem isSettled_of_not_covers {c : Char} (hdot : c.toNat ≠ 0x130)
    (h : ∀ r ∈ caseRuns, r.covers c.toNat = false) : IsSettled c := by
  unfold IsSettled lowerChar
  rw [if_neg hdot]
  split
  next hascii =>
    have hlower : ∀ n < 0x80, (⟨0x41, 0x5A, 1, 0x61⟩ : CaseRun).covers n = false →
        (Char.ofNat n).toLower = Char.ofNat n := by decide +kernel
    have hc := hlower c.toNat hascii (h _ List.mem_cons_self)
    rw [Char.ofNat_toNat] at hc
    rw [hc]
  next =>
    rw [lowerCode_of_not_covers h, Char.ofNat_toNat]

theorem toNat_ofNat_of_isValidChar {n : Nat} (h : n.isValidChar) : (Char.ofNat n).toNat = n := by
  rw [Char.ofNat, dif_pos h]
  rfl

theorem isLowerOf_lowerChar (c : Char) : IsLowerOf c (lowerChar c) := by
  by_cases hascii : c.toNat < 0x80
  · exact isLowerOf_lowerChar_of_ascii hascii
  by_cases hdot : c.toNat = 0x130
  · have hi : IsLowerOf (Char.ofNat 0x130) (lowerChar (Char.ofNat 0x130)) := by decide +kernel
    rwa [← hdot, Char.ofNat_toNat] at hi
  have hlower : lowerChar c = [Char.ofNat (lowerCode c.toNat)] := by
    rw [lowerChar, if_neg hascii, if_neg hdot]
  rcases lowerCode_eq_or_covers c.toNat with hcode | ⟨r, hr, hcovers, hcode⟩
  · have hc : lowerChar c = [c] := by rw [hlower, hcode, Char.ofNat_toNat]
    rw [hc]
    exact ⟨List.forall_mem_singleton.2 hc, .inl rfl⟩
  · have hproper := CaseRun.isProper_of_mem r hr
    simp only [CaseRun.isProper, Bool.and_eq_true] at hproper
    obtain ⟨⟨⟨⟨hvalid, havoids⟩, hfirst⟩, himage⟩, hapart⟩ := hproper
    obtain ⟨hlow, hhigh, -⟩ := CaseRun.covers_iff.1 hcovers
    have hlast : r.image + (c.toNat - r.first) ≤ r.lastImage := by
      unfold CaseRun.lastImage
      omega
    have htoNat : (Char.ofNat (r.image + (c.toNat - r.first))).toNat = r.image + (c.toNat - r.first) := by
      simp only [Bool.or_eq_true, Bool.and_eq_true, decide_eq_true_eq] at hvalid
      refine toNat_ofNat_of_isValidChar ?_
      unfold Nat.isValidChar
      omega
    rw [hlower, hcode]
    refine ⟨List.forall_mem_singleton.2 (isSettled_of_not_covers ?_ ?_), .inr ⟨?_, List.cons_ne_nil _ _,
      List.forall_mem_singleton.2 ?_⟩⟩
    · rw [htoNat]
      simp only [CaseRun.avoids, Bool.or_eq_true, decide_eq_true_eq] at havoids
      omega
    · rw [htoNat]
      exact fun s hs => CaseRun.not_covers_of_isApart (List.all_eq_true.1 hapart s hs) hcovers
    · exact CaseRun.not_inRanges_of_avoids hfirst hlow hhigh
    · rw [isSeparator, htoNat]
      exact CaseRun.not_inRanges_of_avoids himage (Nat.le_add_right _ _) hlast

theorem isLowerOf_sigmaBetween (before after : List Char) :
    IsLowerOf capitalSigma [sigmaBetween before after] := by
  have hsmall : IsLowerOf capitalSigma [smallSigma] := by decide +kernel
  have hfinal : IsLowerOf capitalSigma [finalSigma] := by decide +kernel
  unfold sigmaBetween
  split
  · exact hfinal
  · exact hsmall

/-- The characters of a text are folded one after another. -/
theorem exists_foldAfter_cons (before : List Char) (c : Char) (cs : List Char) : ∃ ds, IsLowerOf c ds ∧
    foldAfter before (c :: cs) = ds ++ foldAfter (c :: before) cs := by
  rw [foldAfter]
  split
  next hc => exact ⟨_, hc ▸ isLowerOf_sigmaBetween before cs, rfl⟩
  next => exact ⟨_, isLowerOf_lowerChar c, rfl⟩

theorem isSettled_of_mem_foldAfter {before cs : List Char} : ∀ d ∈ foldAfter before cs, IsSettled d := by
  induction cs generalizing before with
  | nil => exact List.forall_mem_nil _
  | cons c cs ih =>
    obtain ⟨ds, hds, hfold⟩ := exists_foldAfter_cons before c cs
    rw [hfold]
    exact List.forall_mem_append.2 ⟨hds.1, ih⟩

theorem not_isSettled_capitalSigma : ¬IsSettled capitalSigma := by decide +kernel

theorem foldAfter_cons_of_isSettled {c : Char} (h : IsSettled c) (before cs : List Char) :
    foldAfter before (c :: cs) = c :: foldAfter (c :: before) cs := by
  have hne : c ≠ capitalSigma := fun he => not_isSettled_capitalSigma (he ▸ h)
  rw [foldAfter, if_neg hne, h, List.singleton_append]

theorem foldAfter_of_isSettled {before cs : List Char} (h : ∀ c ∈ cs, IsSettled c) :
    foldAfter before cs = cs := by
  induction cs generalizing before with
  | nil => rfl
  | cons c cs ih =>
    obtain ⟨hc, hcs⟩ := List.forall_mem_cons.1 h
    rw [foldAfter_cons_of_isSettled hc, ih hcs]

/-- A folded text is its own fold. -/
theorem fold_fold (s : String) : fold (fold s) = fold s := by
  have hs : foldChars (fold s).toList = (fold s).toList := by
    apply foldAfter_of_isSettled
    rw [toList_fold]
    exact isSettled_of_mem_foldAfter
  rw [fold, hs, String.ofList_toList]

theorem fold_comp_fold : fold ∘ fold = fold := funext fold_fold

/-- A separator is folded to itself, and what is folded to a separator is this separator. -/
theorem foldAfter_cons_of_isSeparator {c : Char} (h : isSeparator c = true) (before cs : List Char) :
    foldAfter before (c :: cs) = c :: foldAfter (c :: before) cs := by
  obtain ⟨ds, ⟨-, hds⟩, hfold⟩ := exists_foldAfter_cons before c cs
  rcases hds with rfl | ⟨hc, -, -⟩
  · exact hfold
  · rw [h] at hc
    cases hc

/-- What holds of a character and of all that are no separators holds of what the character becomes. -/
theorem exists_foldAfter_cons_of_forall {p : Char → Prop} (hp : ∀ x, isSeparator x = false → p x) {c : Char}
    (hc : p c) (before cs : List Char) : ∃ d ds, (∀ x ∈ d :: ds, p x) ∧
      foldAfter before (c :: cs) = d :: ds ++ foldAfter (c :: before) cs := by
  obtain ⟨ds, ⟨-, hds⟩, hfold⟩ := exists_foldAfter_cons before c cs
  rcases hds with rfl | ⟨-, hne, hds⟩
  · exact ⟨c, [], List.forall_mem_singleton.2 hc, hfold⟩
  · obtain ⟨d, ds, rfl⟩ := List.exists_cons_of_ne_nil hne
    exact ⟨d, ds, fun x hx => hp x (hds x hx), hfold⟩

theorem exists_foldAfter_cons_of_not_isSeparator {c : Char} (h : isSeparator c = false)
    (before cs : List Char) : ∃ d ds, (∀ x ∈ d :: ds, isSeparator x = false) ∧
      foldAfter before (c :: cs) = d :: ds ++ foldAfter (c :: before) cs :=
  exists_foldAfter_cons_of_forall (fun _ hx => hx) h before cs

end TableQuery.Text
