import TableQuery.Proofs.NumeralSpelling
import TableQuery.Text.Date

/-! # Dates at the beginning of a text

The scan for a date takes as many digits as it may and never goes back. As no separator is a digit, it still finds
a date wherever there is one, in the characters of a text as well as in its bytes.
-/
namespace TableQuery.Text
open Numeral
variable {least most : Nat} {cs ds rest : List Char} {c : Char}

structure IsDigitRun (least most : Nat) (ds : List Char) : Prop where
  digits : Digits ds
  least_le : least ≤ ds.length
  le_most : ds.length ≤ most

def IsDateSeparator (c : Char) : Prop := c = '-' ∨ c = '/'

/-- A year of four digits, a month and a day of one or two, and a separator of either kind before the month and
before the day. -/
inductive IsDate : List Char → Prop
  | intro {year month day : List Char} {first second : Char} (hyear : IsDigitRun 4 4 year)
      (hfirst : IsDateSeparator first) (hmonth : IsDigitRun 1 2 month) (hsecond : IsDateSeparator second)
      (hday : IsDigitRun 1 2 day) : IsDate (year ++ first :: (month ++ second :: day))

theorem IsDateSeparator.isDigit_eq_false (h : IsDateSeparator c) : c.isDigit = false := by
  rcases h with rfl | rfl <;> decide

theorem IsDate.exists_separator (h : IsDate cs) : ∃ c ∈ cs, IsDateSeparator c := by
  cases h with
  | intro _ hfirst _ _ _ => exact ⟨_, List.mem_append_right _ List.mem_cons_self, hfirst⟩

theorem IsDigitRun.toNat_lt (h : IsDigitRun least most ds) : ∀ c ∈ ds, c.toNat < 128 := by
  intro c hc
  have hdigit : c.toNat ≤ 57 := (Char.isDigit_iff_toNat.1 (h.digits c hc)).2
  exact Nat.lt_of_le_of_lt hdigit (by decide)

theorem IsDateSeparator.toNat_lt (h : IsDateSeparator c) : c.toNat < 128 := by
  rcases h with rfl | rfl <;> decide

/-- No character of a date takes more than one byte. -/
theorem IsDate.toNat_lt (h : IsDate cs) : ∀ c ∈ cs, c.toNat < 128 := by
  cases h with
  | @intro year month day first second hyear hfirst hmonth hsecond hday =>
    have hmonthDay : ∀ c ∈ month ++ second :: day, c.toNat < 128 :=
      List.forall_mem_append.2 ⟨hmonth.toNat_lt, List.forall_mem_cons.2 ⟨hsecond.toNat_lt, hday.toNat_lt⟩⟩
    exact List.forall_mem_append.2 ⟨hyear.toNat_lt, List.forall_mem_cons.2 ⟨hfirst.toNat_lt, hmonthDay⟩⟩

/-- Behind digits the scan goes on for as many more as are left to it. -/
theorem skipDigits?_append (h : IsDigitRun least most ds) (rest : List Char) :
    skipDigits? least most (ds ++ rest) = skipDigits? 0 (most - ds.length) rest := by
  have hrun : ((ds ++ rest).take most).takeWhile Char.isDigit =
      ds ++ (rest.take (most - ds.length)).takeWhile Char.isDigit := by
    rw [List.take_append, List.take_of_length_le h.le_most, List.takeWhile_append_of_pos h.digits]
  have hleast : least ≤ (ds ++ (rest.take (most - ds.length)).takeWhile Char.isDigit).length := by
    rw [List.length_append]
    exact Nat.le_add_right_of_le h.least_le
  rw [skipDigits?, skipDigits?, hrun, if_pos hleast, if_pos (Nat.zero_le _), List.length_append,
    List.drop_length_add_append]

/-- At a separator the scan of a run ends, also where more digits would be allowed. -/
theorem skipDigits?_append_separator (h : IsDigitRun least most ds) (hc : IsDateSeparator c) (cs : List Char) :
    skipDigits? least most (ds ++ c :: cs) = some (c :: cs) := by
  have hrun : ((c :: cs).take (most - ds.length)).takeWhile Char.isDigit = [] := by
    cases most - ds.length with
    | zero => rfl
    | succ k => rw [List.take_succ_cons, List.takeWhile_cons_of_neg (ne_true_of_eq_false hc.isDigit_eq_false)]
  rw [skipDigits?_append h, skipDigits?, hrun]
  rfl

theorem isSome_skipDigits?_zero (most : Nat) (cs : List Char) : (skipDigits? 0 most cs).isSome = true := by
  rw [skipDigits?, if_pos (Nat.zero_le _)]
  rfl

theorem exists_of_skipDigits? (h : skipDigits? least most cs = some rest) :
    ∃ ds, IsDigitRun least most ds ∧ cs = ds ++ rest := by
  have hstart : (cs.take most).takeWhile Char.isDigit <+: cs :=
    (List.takeWhile_prefix _).trans (List.take_prefix _ _)
  have hmost : ((cs.take most).takeWhile Char.isDigit).length ≤ most :=
    Nat.le_trans (List.takeWhile_prefix _).length_le (List.length_take_le _ _)
  rw [skipDigits?] at h
  split at h
  next hleast =>
    obtain rfl := Option.some.inj h
    exact ⟨_, ⟨forall_mem_takeWhile _ _, hleast, hmost⟩, (List.prefix_iff_eq_append.1 hstart).symm⟩
  next => cases h

theorem skipSeparator?_cons (h : IsDateSeparator c) (cs : List Char) : skipSeparator? (c :: cs) = some cs := by
  rcases h with rfl | rfl <;> rfl

theorem exists_of_skipSeparator? (h : skipSeparator? cs = some rest) : ∃ c, IsDateSeparator c ∧ cs = c :: rest := by
  unfold skipSeparator? at h
  split at h
  next => exact ⟨'-', .inl rfl, congrArg _ (Option.some.inj h)⟩
  next => exact ⟨'/', .inr rfl, congrArg _ (Option.some.inj h)⟩
  next => cases h

/-- No end of a run of digits has to be found again: behind the year and the month stands a separator, and any rest
may follow the day. -/
theorem isSome_dateRest?_append (h : IsDate cs) (rest : List Char) : (dateRest? (cs ++ rest)).isSome = true := by
  cases h with
  | @intro year month day first second hyear hfirst hmonth hsecond hday =>
    have hscan : dateRest? (year ++ first :: (month ++ second :: day) ++ rest) =
        skipDigits? 0 (2 - day.length) rest := by
      simp only [dateRest?, List.append_assoc, List.cons_append, Option.bind_eq_bind, Option.bind_some,
        skipDigits?_append_separator hyear hfirst, skipSeparator?_cons hfirst,
        skipDigits?_append_separator hmonth hsecond, skipSeparator?_cons hsecond, skipDigits?_append hday]
    rw [hscan, isSome_skipDigits?_zero]

theorem isSome_dateRest?_iff : (dateRest? cs).isSome = true ↔ ∃ date, IsDate date ∧ date <+: cs := by
  constructor
  · intro h
    obtain ⟨rest, hrest⟩ := Option.isSome_iff_exists.1 h
    unfold dateRest? at hrest
    obtain ⟨_, hyearSkip, hrest⟩ := Option.bind_eq_some_iff.1 hrest
    obtain ⟨_, hfirstSkip, hrest⟩ := Option.bind_eq_some_iff.1 hrest
    obtain ⟨_, hmonthSkip, hrest⟩ := Option.bind_eq_some_iff.1 hrest
    obtain ⟨_, hsecondSkip, hdaySkip⟩ := Option.bind_eq_some_iff.1 hrest
    obtain ⟨year, hyear, rfl⟩ := exists_of_skipDigits? hyearSkip
    obtain ⟨first, hfirst, rfl⟩ := exists_of_skipSeparator? hfirstSkip
    obtain ⟨month, hmonth, rfl⟩ := exists_of_skipDigits? hmonthSkip
    obtain ⟨second, hsecond, rfl⟩ := exists_of_skipSeparator? hsecondSkip
    obtain ⟨day, hday, rfl⟩ := exists_of_skipDigits? hdaySkip
    exact ⟨_, .intro hyear hfirst hmonth hsecond hday, rest, by simp⟩
  · rintro ⟨date, hdate, rest, rfl⟩
    exact isSome_dateRest?_append hdate rest

def byteChars (s : String) : List Char := s.toUTF8.data.toList.map Char.ofUInt8

theorem byteChars_eq_flatMap (s : String) :
    byteChars s = s.toList.flatMap fun c => (String.utf8EncodeChar c).map Char.ofUInt8 := by
  rw [byteChars, String.toUTF8_eq_toByteArray, ← String.utf8Encode_toList, List.utf8Encode,
    List.toList_data_toByteArray, List.map_flatMap]

theorem toNat_ofUInt8_ofNat {n : Nat} (h : n < 256) : (Char.ofUInt8 (UInt8.ofNat n)).toNat = n :=
  (UInt8.toNat_toUInt32 _).trans (UInt8.toNat_ofNat_of_lt' h)

theorem map_utf8EncodeChar_of_lt (h : c.toNat < 128) : (String.utf8EncodeChar c).map Char.ofUInt8 = [c] := by
  have hc : c.val.toNat ≤ 127 := Nat.le_of_lt_succ h
  have hchar : Char.ofUInt8 (UInt8.ofNat c.toNat) = c := Char.toNat_inj.1 (toNat_ofUInt8_ofNat (by omega))
  rw [String.utf8EncodeChar, if_pos hc, List.map_singleton]
  exact congrArg (fun d => [d]) hchar

/-- The first byte of another character is none of a character that has one byte only. -/
theorem exists_map_utf8EncodeChar_of_le (h : 128 ≤ c.toNat) :
    ∃ d ds, (String.utf8EncodeChar c).map Char.ofUInt8 = d :: ds ∧ 128 ≤ d.toNat := by
  have hlead : ∀ n, 128 ≤ n → n < 256 → 128 ≤ (Char.ofUInt8 (UInt8.ofNat n)).toNat := by
    intro n hlow hhigh
    rwa [toNat_ofUInt8_ofNat hhigh]
  have hc : ¬c.val.toNat ≤ 127 := Nat.not_le.2 h
  rw [String.utf8EncodeChar, if_neg hc]
  split
  next => exact ⟨_, _, rfl, hlead _ (by omega) (by omega)⟩
  next =>
    split
    next => exact ⟨_, _, rfl, hlead _ (by omega) (by omega)⟩
    next => exact ⟨_, _, rfl, hlead _ (by omega) (by omega)⟩

/-- Characters of one byte each stand at the beginning of a text exactly if they stand there in its bytes. -/
theorem isPrefix_byteChars_iff {s : String} (h : ∀ c ∈ ds, c.toNat < 128) :
    ds <+: byteChars s ↔ ds <+: s.toList := by
  rw [byteChars_eq_flatMap]
  generalize s.toList = cs
  induction cs generalizing ds with
  | nil => rfl
  | cons c cs ih =>
    cases ds with
    | nil => exact iff_of_true List.nil_prefix List.nil_prefix
    | cons d ds =>
      obtain ⟨hd, hds⟩ := List.forall_mem_cons.1 h
      rw [List.flatMap_cons, List.cons_prefix_cons]
      rcases Nat.lt_or_ge c.toNat 128 with hc | hc
      · rw [map_utf8EncodeChar_of_lt hc, List.singleton_append, List.cons_prefix_cons, ih hds]
      · obtain ⟨lead, others, hbytes, hlead⟩ := exists_map_utf8EncodeChar_of_le hc
        rw [hbytes, List.cons_append, List.cons_prefix_cons]
        refine iff_of_false ?_ ?_
        · rintro ⟨rfl, -⟩
          omega
        · rintro ⟨rfl, -⟩
          omega

/-- A text starts with a date exactly if it is put together from one and any rest, also when its bytes are scanned
in place of its characters. So it still does when more is written behind it. -/
theorem startsWithDate_iff_exists_date (s : String) :
    (startsWithDate s = true ↔ ∃ date, IsDate date ∧ ∃ rest, s.toList = date ++ rest) ∧
      (dateRest? (byteChars s)).isSome = startsWithDate s ∧
      (startsWithDate s = true → ∀ t, startsWithDate (s ++ t) = true) := by
  have hchars : ∀ s : String, startsWithDate s = true ↔ ∃ date, IsDate date ∧ date <+: s.toList :=
    fun _ => isSome_dateRest?_iff
  refine ⟨?_, ?_, fun h t => ?_⟩
  · rw [hchars]
    simp only [List.IsPrefix, eq_comm]
  · rw [Bool.eq_iff_iff, hchars, isSome_dateRest?_iff]
    exact exists_congr fun date => and_congr_right fun hdate => isPrefix_byteChars_iff hdate.toNat_lt
  · obtain ⟨date, hdate, hstart⟩ := (hchars s).1 h
    rw [hchars, String.toList_append]
    exact ⟨date, hdate, hstart.trans (List.prefix_append _ _)⟩

/-- A third digit belongs to the rest behind a day, but not behind a month. -/
example : startsWithDate "2014-3/077ü" = true ∧ startsWithDate "2014-003-07" = false := by decide +kernel

end TableQuery.Text
