import TableQuery.Text.Space

/-! # Runs of characters

A maximal run of characters that reaches the end of a text ends at the same place when the text goes
on with a character that is not in the run.
-/
namespace TableQuery.Text
variable {p : Char → Bool} {xs ys : List Char}

theorem takeWhile_append_of_head (h : ∀ c ∈ ys.head?, p c = false) :
    (xs ++ ys).takeWhile p = xs.takeWhile p := by
  induction xs with
  | nil =>
    cases ys with
    | nil => rfl
    | cons c ys => exact List.takeWhile_cons_of_neg (by simp [h c rfl])
  | cons x xs ih => simp only [List.cons_append, List.takeWhile_cons, ih]

theorem dropWhile_append_of_head (h : ∀ c ∈ ys.head?, p c = false) :
    (xs ++ ys).dropWhile p = xs.dropWhile p ++ ys := by
  induction xs with
  | nil =>
    cases ys with
    | nil => rfl
    | cons c ys => exact List.dropWhile_cons_of_neg (by simp [h c rfl])
  | cons x xs ih =>
    simp only [List.cons_append, List.dropWhile_cons, ih]
    split <;> rfl

theorem takeWhile_eq_self (h : ∀ c ∈ xs, p c = true) : xs.takeWhile p = xs := by
  have ht : (xs ++ []).takeWhile p = xs ++ [].takeWhile p := List.takeWhile_append_of_pos h
  rwa [List.append_nil, List.takeWhile_nil, List.append_nil] at ht

theorem dropWhile_eq_nil (h : ∀ c ∈ xs, p c = true) : xs.dropWhile p = [] := by
  have hd : (xs ++ []).dropWhile p = [].dropWhile p := List.dropWhile_append_of_pos h
  rwa [List.append_nil, List.dropWhile_nil] at hd

/-- A run and a text that begins with another character are told apart. -/
theorem takeWhile_run (hx : ∀ c ∈ xs, p c = true) (hy : ∀ c ∈ ys.head?, p c = false) :
    (xs ++ ys).takeWhile p = xs := by
  rw [takeWhile_append_of_head hy, takeWhile_eq_self hx]

theorem dropWhile_run (hx : ∀ c ∈ xs, p c = true) (hy : ∀ c ∈ ys.head?, p c = false) :
    (xs ++ ys).dropWhile p = ys := by
  rw [dropWhile_append_of_head hy, dropWhile_eq_nil hx, List.nil_append]

theorem forall_mem_takeWhile (p : Char → Bool) (xs : List Char) : ∀ c ∈ xs.takeWhile p, p c = true :=
  List.all_eq_true.1 List.all_takeWhile

theorem forall_head_dropWhile (p : Char → Bool) (xs : List Char) :
    ∀ c ∈ (xs.dropWhile p).head?, p c = false := by
  intro c hc
  have h := List.head?_dropWhile_not p xs
  rwa [Option.mem_def.1 hc] at h

theorem forall_head_of_append (h : ∀ c ∈ (xs ++ ys).head?, p c = false) : ∀ c ∈ xs.head?, p c = false := by
  cases xs with
  | nil => exact nofun
  | cons x xs => exact h

theorem isSpace_of_isDigit {c : Char} (h : c.isDigit = true) : isSpace c = false := by
  have hdigits : ∀ i < 10, inRanges spaceRanges (48 + i) = false := by decide
  obtain ⟨hlow, hhigh⟩ : 48 ≤ c.toNat ∧ c.toNat ≤ 57 := Char.isDigit_iff_toNat.1 h
  have hc := hdigits (c.toNat - 48) (by omega)
  rwa [Nat.add_sub_cancel' hlow] at hc

theorem trim_eq_self {cs : List Char} (h : ∀ c ∈ cs, isSpace c = false) : trim cs = cs := by
  have hkeep : ∀ ds : List Char, (∀ c ∈ ds, isSpace c = false) → ds.dropWhile isSpace = ds := by
    intro ds hds
    cases ds with
    | nil => rfl
    | cons c ds => exact List.dropWhile_cons_of_neg (Bool.eq_false_iff.1 (hds c List.mem_cons_self))
  have hreverse : ∀ c ∈ cs.reverse, isSpace c = false := fun c hc => h c (List.mem_reverse.1 hc)
  rw [trim, hkeep cs h, hkeep cs.reverse hreverse, List.reverse_reverse]

end TableQuery.Text
