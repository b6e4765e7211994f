import Mathlib.Data.List.Infix
import TableQuery.Proofs.Conditions
import TableQuery.Proofs.Folding

/-! # Literal substrings

A capital sigma is folded by what stands around it, so the fold of a text need not stand in the fold of a
longer text. It stands in all of them exactly when the text itself decides the form of each of its sigmas;
a condition then keeps every row that has the text verbatim.
-/
namespace TableQuery

namespace Text
variable {before after needle text : List Char} {c d : Char}

/-- What stands around a sigma decides its form, whatever stands further out. -/
def IsDecided (before after : List Char) : Prop :=
  (before.all isCaseIgnorable = true → meetsCased after = true) ∧
    (meetsCased before = true → after.all isCaseIgnorable = false)

instance (before after : List Char) : Decidable (IsDecided before after) := inferInstanceAs (Decidable (_ ∧ _))

theorem meetsCased_append (cs ds : List Char) :
    meetsCased (cs ++ ds) = if cs.all isCaseIgnorable then meetsCased ds else meetsCased cs := by
  induction cs with
  | nil => rfl
  | cons c cs ih =>
    unfold meetsCased at ih ⊢
    cases hc : isCaseIgnorable c with
    | true => simpa [hc] using ih
    | false => simp [hc]

theorem meetsCased_of_all (h : before.all isCaseIgnorable = true) : meetsCased before = false := by
  have happ := meetsCased_append before []
  rw [List.append_nil, if_pos h] at happ
  exact happ

theorem sigmaBetween_append (h : IsDecided before after) (outer outer' : List Char) :
    sigmaBetween (before ++ outer) (after ++ outer') = sigmaBetween before after := by
  obtain ⟨hbefore, hafter⟩ := h
  unfold sigmaBetween
  rw [meetsCased_append before, meetsCased_append after]
  cases hb : before.all isCaseIgnorable with
  | true =>
    -- Nothing before the sigma counts, but a cased character follows: it is not final anywhere.
    have hmeets := hbefore hb
    have ha : after.all isCaseIgnorable ≠ true := fun ha => by
      rw [meetsCased_of_all ha] at hmeets
      cases hmeets
    rw [if_neg ha, hmeets]
    simp
  | false =>
    cases hmeets : meetsCased before with
    | true => simp [hafter hmeets]
    | false => simp

theorem finalSigma_ne_smallSigma : finalSigma ≠ smallSigma := by decide

/-- A cased letter next to what stands around an undecided sigma changes its form, on one side or the
other. -/
theorem sigmaBetween_ne_of_not_isDecided (h : ¬IsDecided before after) (hc : meetsCased [c] = true)
    (hd : meetsCased [d] = true) :
    sigmaBetween (before ++ [c]) after ≠ sigmaBetween before after ∨
      sigmaBetween before (after ++ [d]) ≠ sigmaBetween before after := by
  unfold sigmaBetween
  rcases not_and_or.1 h with h | h
  · obtain ⟨hb, ha⟩ := Classical.not_imp.1 h
    left
    simp [meetsCased_append, hb, hc, meetsCased_of_all hb, ha, finalSigma_ne_smallSigma]
  · obtain ⟨hb, ha⟩ := Classical.not_imp.1 h
    rw [Bool.not_eq_false] at ha
    right
    simp [meetsCased_append, ha, hd, meetsCased_of_all ha, hb, finalSigma_ne_smallSigma.symm]

def foldBetween (before : List Char) : List Char → List Char → List Char
  | [], _ => []
  | c :: cs, after =>
    (if c = capitalSigma then [sigmaBetween before (cs ++ after)] else lowerChar c) ++
      foldBetween (c :: before) cs after

theorem foldBetween_nil (before cs : List Char) : foldBetween before cs [] = foldAfter before cs := by
  induction cs generalizing before with
  | nil => rfl
  | cons c cs ih => rw [foldBetween, foldAfter, ih, List.append_nil]

theorem foldAfter_append (before cs ds : List Char) :
    foldAfter before (cs ++ ds) = foldBetween before cs ds ++ foldAfter (cs.reverse ++ before) ds := by
  induction cs generalizing before with
  | nil => rfl
  | cons c cs ih => simp [foldAfter, foldBetween, ih]

theorem length_foldBetween (before before' cs after after' : List Char) :
    (foldBetween before cs after).length = (foldBetween before' cs after').length := by
  induction cs generalizing before before' with
  | nil => rfl
  | cons c cs ih =>
    rw [foldBetween, foldBetween, List.length_append, List.length_append, ih (c :: before) (c :: before')]
    split <;> rfl

/-- Every way to take one character out of a text takes out the first one or leaves it. -/
theorem forall_splits_cons {x : Char} {cs : List Char} {p : List Char → List Char → Prop} :
    (∀ u v, c :: cs = u ++ x :: v → p u v) ↔
      (c = x → p [] cs) ∧ ∀ u v, cs = u ++ x :: v → p (c :: u) v := by
  constructor
  · intro h
    exact ⟨fun hc => h [] cs (hc ▸ rfl), fun u v hcs => h (c :: u) v (hcs ▸ rfl)⟩
  · rintro ⟨hfirst, hrest⟩ u v h
    rcases List.cons_eq_append_iff.1 h with ⟨rfl, heq⟩ | ⟨u, rfl, hcs⟩
    · obtain ⟨rfl, rfl⟩ := List.cons_eq_cons.1 heq
      exact hfirst rfl
    · exact hrest u v hcs

/-- A part is folded alike in two places exactly when each of its sigmas has one form in both. -/
theorem foldBetween_eq_iff {cs before before' after after' : List Char} :
    foldBetween before cs after = foldBetween before' cs after' ↔
      ∀ u v, cs = u ++ capitalSigma :: v →
        sigmaBetween (u.reverse ++ before) (v ++ after) = sigmaBetween (u.reverse ++ before') (v ++ after') := by
  induction cs generalizing before before' with
  | nil => simp [foldBetween]
  | cons c cs ih =>
    have hlength : (if c = capitalSigma then [sigmaBetween before (cs ++ after)] else lowerChar c).length =
        (if c = capitalSigma then [sigmaBetween before' (cs ++ after')] else lowerChar c).length := by
      split <;> rfl
    rw [forall_splits_cons, foldBetween, foldBetween, List.append_eq_append_iff_of_size_eq_left hlength, ih]
    refine and_congr ?_ ?_
    · by_cases hc : c = capitalSigma <;> simp [hc]
    · simp

theorem foldBetween_eq_foldChars_iff : foldBetween before needle after = foldChars needle ↔
    ∀ u v, needle = u ++ capitalSigma :: v →
      sigmaBetween (u.reverse ++ before) (v ++ after) = sigmaBetween u.reverse v := by
  rw [foldChars, ← foldBetween_nil, foldBetween_eq_iff]
  simp only [List.append_nil]

theorem length_foldBetween_eq (before needle after : List Char) :
    (foldChars needle).length = (foldBetween before needle after).length := by
  rw [foldChars, ← foldBetween_nil, length_foldBetween]

/-- The text stands in another one, and each of its capital sigmas has the form there that it has in the
text alone. -/
def OccursAlike (needle text : List Char) : Prop :=
  ∃ before after, text = before ++ needle ++ after ∧ ∀ u v, needle = u ++ capitalSigma :: v →
    sigmaBetween (u.reverse ++ before.reverse) (v ++ after) = sigmaBetween u.reverse v

def DecidesSigmas (cs : List Char) : Prop :=
  ∀ u v, cs = u ++ capitalSigma :: v → IsDecided u.reverse v

theorem OccursAlike.infix_foldChars (h : OccursAlike needle text) : foldChars needle <:+: foldChars text := by
  obtain ⟨before, after, rfl, hsigmas⟩ := h
  have hsplit : foldChars (before ++ needle ++ after) =
      foldBetween [] before (needle ++ after) ++ foldBetween before.reverse needle after ++
        foldAfter (needle.reverse ++ before.reverse) after := by
    rw [foldChars, List.append_assoc, foldAfter_append, foldAfter_append, List.append_nil, List.append_assoc]
  rw [hsplit, foldBetween_eq_foldChars_iff.2 hsigmas]
  exact List.infix_append _ _ _

theorem DecidesSigmas.occursAlike (h : DecidesSigmas needle) (hstands : needle <:+: text) :
    OccursAlike needle text := by
  obtain ⟨before, after, rfl⟩ := hstands
  exact ⟨before, after, rfl, fun u v hsplit => sigmaBetween_append (h u v hsplit) _ _⟩

/-- As many other elements behind a new one hold the list only if it begins with that. -/
theorem not_infix_cons {fs gs : List Char} (hlength : fs.length = gs.length) (hne : gs ≠ fs)
    (hhead : fs.head? ≠ some c) : ¬fs <:+: c :: gs := by
  intro h
  rcases List.infix_cons_iff.1 h with h | h
  · rcases List.prefix_cons_iff.1 h with rfl | ⟨t, rfl, -⟩
    · exact hne (List.eq_nil_of_length_eq_zero hlength.symm)
    · exact hhead rfl
  · exact hne (h.eq_of_length hlength).symm

theorem not_infix_concat {fs gs : List Char} (hlength : fs.length = gs.length) (hne : gs ≠ fs)
    (hlast : fs.getLast? ≠ some c) : ¬fs <:+: gs ++ [c] := by
  rw [← List.reverse_infix, List.reverse_append, List.reverse_singleton, List.singleton_append]
  refine not_infix_cons ?_ ?_ ?_
  · rw [List.length_reverse, List.length_reverse, hlength]
  · exact fun h => hne (List.reverse_injective h)
  · rwa [List.head?_reverse]

theorem exists_cased_ne (x : Option Char) : ∃ c, meetsCased [c] = true ∧ IsSettled c ∧ x ≠ some c := by
  have ha : meetsCased ['a'] = true ∧ IsSettled 'a' := by decide +kernel
  have hb : meetsCased ['b'] = true ∧ IsSettled 'b' := by decide +kernel
  by_cases hx : x = some 'a'
  · refine ⟨'b', hb.1, hb.2, ?_⟩
    rw [hx]
    decide
  · exact ⟨'a', ha.1, ha.2, hx⟩

/-- A text with an undecided sigma is not found behind one letter, or not before one. -/
theorem exists_not_infix_of_not_decidesSigmas (h : ¬DecidesSigmas needle) :
    ∃ text, needle <:+: text ∧ ¬foldChars needle <:+: foldChars text := by
  unfold DecidesSigmas at h
  push Not at h
  obtain ⟨u, v, hsplit, hopen⟩ := h
  -- The letters differ from the ends of the fold, so that it is found at no other place either.
  obtain ⟨c, hcased, hc, hhead⟩ := exists_cased_ne (foldChars needle).head?
  obtain ⟨d, hcased', hd, hlast⟩ := exists_cased_ne (foldChars needle).getLast?
  rcases sigmaBetween_ne_of_not_isDecided hopen hcased hcased' with hne | hne
  · refine ⟨c :: needle, (List.suffix_cons c needle).isInfix, ?_⟩
    have hfold : foldChars (c :: needle) = c :: foldBetween [c] needle [] := by
      rw [foldChars, foldAfter_cons_of_isSettled hc, foldBetween_nil]
    rw [hfold]
    refine not_infix_cons (length_foldBetween_eq _ _ _) (fun heq => hne ?_) hhead
    simpa using foldBetween_eq_foldChars_iff.1 heq u v hsplit
  · refine ⟨needle ++ [d], (List.prefix_append needle [d]).isInfix, ?_⟩
    have hfold : foldChars (needle ++ [d]) = foldBetween [] needle [d] ++ [d] := by
      rw [foldChars, foldAfter_append, foldAfter_of_isSettled (List.forall_mem_singleton.2 hd)]
    rw [hfold]
    refine not_infix_concat (length_foldBetween_eq _ _ _) (fun heq => hne ?_) hlast
    simpa using foldBetween_eq_foldChars_iff.1 heq u v hsplit

theorem containsIgnoreCase_of_occursAlike {text needle : String}
    (h : OccursAlike needle.toList text.toList) : containsIgnoreCase text needle = true :=
  containsIgnoreCase_iff.2 h.infix_foldChars

theorem forall_containsIgnoreCase_iff {needle : String} :
    (∀ text : String, needle.toList <:+: text.toList → containsIgnoreCase text needle = true) ↔
      DecidesSigmas needle.toList := by
  constructor
  · intro h
    by_contra hsigmas
    obtain ⟨text, hstands, hfold⟩ := exists_not_infix_of_not_decidesSigmas hsigmas
    have hcontains := h (String.ofList text) (by simpa using hstands)
    rw [containsIgnoreCase_iff, String.toList_ofList] at hcontains
    exact hfold hcontains
  · exact fun h text hstands => containsIgnoreCase_of_occursAlike (h.occursAlike hstands)

/-- A sigma that ends a word stands in it verbatim and is not found in it. -/
theorem not_containsIgnoreCase_of_infix : ¬∀ text needle : String,
    needle.toList <:+: text.toList → containsIgnoreCase text needle = true := by
  intro h
  have hstands : "Σ".toList <:+: "ΑΣ".toList := ⟨['Α'], [], rfl⟩
  have hfold : containsIgnoreCase "ΑΣ" "Σ" = false := by decide +kernel
  rw [h "ΑΣ" "Σ" hstands] at hfold
  cases hfold

end Text

theorem Dataset.exists_textAt?_eq (column s : String) :
    ∃ (d : Dataset) (row : Row), row ∈ d.rows ∧ d.textAt? column row = some s := by
  refine ⟨⟨[⟨column, .string⟩], [0], [column], [[.text s]]⟩, [.text s], List.mem_singleton.2 rfl, ?_⟩
  have hindex : ([column].idxOf? column) = some 0 := by simp [List.idxOf?]
  rw [textAt?, fieldIndex?, hindex]
  rfl

namespace Query

theorem mem_keptRows_iff_containsIgnoreCase {q : Query} {d : Dataset} {row : Row} {column needle s : String}
    (hq : q.predicate = some (.contains column needle)) (hrow : row ∈ d.rows)
    (hs : d.textAt? column row = some s) :
    row ∈ q.keptRows d ↔ Text.containsIgnoreCase s needle = true := by
  simp [keptRows_eq, Admits, hq, hrow, Predicate.Holds, hs, Text.containsIgnoreCase_iff]

/-- A text is found without regard to case wherever it stands with the forms of its sigmas, so it is found
wherever it stands verbatim exactly when it decides these forms. A condition keeps the rows accordingly. -/
theorem literal_substrings_found_iff (needle : String) :
    (∀ text : String, Text.OccursAlike needle.toList text.toList → Text.containsIgnoreCase text needle = true) ∧
    ((∀ text : String, needle.toList <:+: text.toList → Text.containsIgnoreCase text needle = true) ↔
      Text.DecidesSigmas needle.toList) ∧
    ∀ (q : Query) (column : String), q.predicate = some (.contains column needle) →
      (∀ (d : Dataset) (row : Row) (s : String), row ∈ d.rows → d.textAt? column row = some s →
        Text.OccursAlike needle.toList s.toList → row ∈ q.keptRows d) ∧
      ((∀ (d : Dataset) (row : Row) (s : String), row ∈ d.rows → d.textAt? column row = some s →
        needle.toList <:+: s.toList → row ∈ q.keptRows d) ↔ Text.DecidesSigmas needle.toList) := by
  refine ⟨fun _ => Text.containsIgnoreCase_of_occursAlike, Text.forall_containsIgnoreCase_iff,
    fun q column hq => ⟨?_, ?_, ?_⟩⟩
  · intro d row s hrow hs h
    exact (mem_keptRows_iff_containsIgnoreCase hq hrow hs).2 (Text.containsIgnoreCase_of_occursAlike h)
  · intro h
    refine Text.forall_containsIgnoreCase_iff.1 fun s hstands => ?_
    obtain ⟨d, row, hrow, hs⟩ := Dataset.exists_textAt?_eq column s
    exact (mem_keptRows_iff_containsIgnoreCase hq hrow hs).1 (h d row s hrow hs hstands)
  · intro h d row s hrow hs hstands
    exact (mem_keptRows_iff_containsIgnoreCase hq hrow hs).2
      (Text.containsIgnoreCase_of_occursAlike (h.occursAlike hstands))

end Query

end TableQuery
