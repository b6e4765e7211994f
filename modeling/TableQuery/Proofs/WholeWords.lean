import Mathlib.Data.List.Basic
import TableQuery.Text.Word

/-! # Whole words

The runs of a text are what stands between the characters without the property. A word is held by a text
if it stands there with no letter, digit or underscore next to it.
-/
namespace TableQuery.Text
variable {p : Char → Bool} {run cs : List Char} {c : Char}

theorem runs_ne_nil (p : Char → Bool) (cs : List Char) : runs p cs ≠ [] := by
  cases cs with
  | nil => exact List.cons_ne_nil _ _
  | cons c cs =>
    unfold runs
    split
    · split <;> exact List.cons_ne_nil _ _
    · exact List.cons_ne_nil _ _

/-- The runs before and after a character that is in none. -/
theorem runs_append_cons (hc : p c = false) (xs ys : List Char) :
    runs p (xs ++ c :: ys) = runs p xs ++ runs p ys := by
  induction xs with
  | nil => simp [runs, hc]
  | cons x xs ih =>
    rw [List.cons_append, runs, runs, ih]
    cases hx : p x with
    | false => rfl
    | true =>
      cases hr : runs p xs with
      | nil => exact absurd hr (runs_ne_nil p xs)
      | cons run later => rfl

theorem runs_eq_singleton (h : ∀ c ∈ cs, p c = true) : runs p cs = [cs] := by
  induction cs with
  | nil => rfl
  | cons c cs ih =>
    obtain ⟨hc, hcs⟩ := List.forall_mem_cons.1 h
    rw [runs, if_pos hc, ih hcs]

def IsRun (p : Char → Bool) (run cs : List Char) : Prop :=
  ∃ before after, cs = before ++ (run ++ after) ∧ (∀ c ∈ run, p c = true) ∧
    (∀ c ∈ before.getLast?, p c = false) ∧ ∀ c ∈ after.head?, p c = false

theorem IsRun.append_cons {ys : List Char} (h : IsRun p run ys) (hc : p c = false) (xs : List Char) :
    IsRun p run (xs ++ c :: ys) := by
  obtain ⟨before, after, rfl, hrun, hbefore, hafter⟩ := h
  refine ⟨xs ++ c :: before, after, by simp, hrun, fun d hd => ?_, hafter⟩
  cases before with
  | nil =>
    rw [List.getLast?_concat] at hd
    exact Option.some.inj hd ▸ hc
  | cons b before =>
    apply hbefore d
    simpa using hd

theorem mem_runs_of_head (hrun : ∀ c ∈ run, p c = true) {after : List Char}
    (hafter : ∀ c ∈ after.head?, p c = false) : run ∈ runs p (run ++ after) := by
  cases after with
  | nil =>
    rw [List.append_nil, runs_eq_singleton hrun]
    exact List.mem_singleton_self run
  | cons c after =>
    rw [runs_append_cons (hafter c rfl), runs_eq_singleton hrun]
    exact List.mem_append_left _ (List.mem_singleton_self run)

/-- The text is taken apart at its first character without the property. -/
theorem isRun_of_mem_runs {cs : List Char} (h : run ∈ runs p cs) : IsRun p run cs := by
  cases hbreak : cs.find? (fun c => !p c) with
  | none =>
    have hall : ∀ c ∈ cs, p c = true := by simpa using hbreak
    obtain rfl : run = cs := by rwa [runs_eq_singleton hall, List.mem_singleton] at h
    exact ⟨[], [], (List.append_nil _).symm, hall, nofun, nofun⟩
  | some c =>
    obtain ⟨hc, xs, ys, rfl, hxs⟩ := List.find?_eq_some_iff_append.1 hbreak
    have hc : p c = false := by simpa using hc
    have hxs : ∀ x ∈ xs, p x = true := by simpa using hxs
    rw [runs_append_cons hc, runs_eq_singleton hxs, List.singleton_append, List.mem_cons] at h
    rcases h with rfl | h
    · exact ⟨[], c :: ys, rfl, hxs, nofun, fun d hd => Option.some.inj hd ▸ hc⟩
    · exact (isRun_of_mem_runs h).append_cons hc xs
termination_by cs.length

/-- The runs that a text is taken apart into are its maximal ones. -/
theorem mem_runs_iff : run ∈ runs p cs ↔ IsRun p run cs := by
  refine ⟨isRun_of_mem_runs, ?_⟩
  rintro ⟨before, after, rfl, hrun, hbefore, hafter⟩
  rcases List.eq_nil_or_concat' before with rfl | ⟨xs, c, rfl⟩
  · exact mem_runs_of_head hrun hafter
  · rw [List.append_assoc, List.singleton_append, runs_append_cons (hbefore c List.getLast?_concat)]
    exact List.mem_append_right _ (mem_runs_of_head hrun hafter)

def HoldsWord (word cs : List Char) : Prop :=
  ∃ run, IsRun isWordChar run cs ∧ run.map Char.toLower = word

theorem holdsWord_iff {word cs : List Char} : holdsWord word cs = true ↔ HoldsWord word cs := by
  rw [holdsWord, List.any_eq_true]
  simp only [beq_iff_eq, mem_runs_iff, HoldsWord]

end TableQuery.Text
