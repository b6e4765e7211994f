import TableQuery.Proofs.CsvRecords
import TableQuery.Proofs.Sheets

/-! # Lines of records

The records of a text stand behind one another, each up to its line break. A record is reported with the
line that its first character stands on, whatever line breaks there are before it, between quotes or not.
-/
namespace TableQuery

def CsvWarning.place? : CsvWarning → Option (Nat × Nat)
  | tooFewFields row line _ _ | tooManyFields row line _ _ => some (row, line)
  | duplicateHeader .. => none

namespace Csv
open Text
variable {delimiter : Char}

theorem Cell.exists_of_scan? {cs rest : List Char} {c : Cell} (h : scan? delimiter cs = some (c, rest)) :
    ∃ written, cs = written ++ rest ∧ c.IsWrittenAs delimiter written ∧ Ends delimiter rest := by
  unfold scan? at h
  split at h
  next hquote =>
    obtain ⟨source, rfl⟩ := List.head?_eq_some_iff.1 hquote
    split at h
    next => cases h
    next content mid hscan =>
      obtain ⟨rfl, hhead⟩ : source = _ ∧ _ := Quoted.eq_append_of_scan hscan
      cases h
      -- What follows the closing quote belongs to the cell up to the first character that is not bare.
      have hmid : mid = mid.takeWhile (isBare delimiter) ++ mid.dropWhile (isBare delimiter) :=
        List.takeWhile_append_dropWhile.symm
      refine ⟨Quoted.encode '"' content ++ mid.takeWhile (isBare delimiter), ?_,
        .quoted content (forall_mem_takeWhile _ _) ?_, forall_head_dropWhile _ _⟩
      · simp [Quoted.encode]
      · intro hquoted
        rw [hmid, List.head?_append, hquoted] at hhead
        exact hhead rfl
  next hquote =>
    cases h
    refine ⟨cs.takeWhile (isBare delimiter), List.takeWhile_append_dropWhile.symm,
      .bare (forall_mem_takeWhile _ _) fun hhead => hquote ?_, forall_head_dropWhile _ _⟩
    rw [← List.takeWhile_append_dropWhile (p := isBare delimiter) (l := cs), List.head?_append, hhead]
    rfl

theorem Cell.exists_of_scan?_eq_none {cs : List Char} (h : scan? delimiter cs = none) :
    ∃ content, cs = '"' :: Quoted.doubled '"' content := by
  unfold scan? at h
  split at h
  next hquote =>
    obtain ⟨source, rfl⟩ := List.head?_eq_some_iff.1 hquote
    split at h
    next content hscan => exact ⟨content, congrArg _ (Quoted.eq_doubled_of_scan_eq_none hscan)⟩
    next => cases h
  next => cases h

inductive IsOpenRecord (delimiter : Char) : List Char → Prop where
  | quote (content : List Char) : IsOpenRecord delimiter ('"' :: Quoted.doubled '"' content)
  | cons {c : Cell} {cs text : List Char} (hc : c.IsWrittenAs delimiter cs)
      (htext : IsOpenRecord delimiter text) : IsOpenRecord delimiter (cs ++ delimiter :: text)

/-- What ends a cell and is no line break is the delimiter. -/
theorem exists_eq_delimiter_cons {cs : List Char} (hne : cs ≠ []) (hends : Cell.Ends delimiter cs)
    (hdrop : dropBreak? cs = none) : ∃ rest, cs = delimiter :: rest := by
  obtain ⟨x, rest, rfl⟩ := List.exists_cons_of_ne_nil hne
  have hcr : x ≠ '\r' := by
    rintro rfl
    unfold dropBreak? at hdrop
    split at hdrop <;> simp_all
  have hlf : x ≠ '\n' := by
    rintro rfl
    simp [dropBreak?] at hdrop
  have hx := hends x rfl
  simp only [Cell.isBare, Bool.and_eq_false_iff, bne_eq_false_iff_eq, hcr, hlf, or_false] at hx
  exact ⟨rest, by rw [hx]⟩

theorem exists_of_scanCells? {cs rest : List Char} {cells : List Cell}
    (h : RawRecord.scanCells? delimiter cs = some (cells, rest)) :
    ∃ text tail, cs = text ++ tail ∧ IsRecordText delimiter cells text ∧ EndsRecord tail rest := by
  fun_induction RawRecord.scanCells? delimiter cs generalizing cells with
  | case1 => cases h
  | case2 cs c mid hscan next hdrop =>
    cases h
    obtain ⟨written, rfl, hc, -⟩ := Cell.exists_of_scan? hscan
    exact ⟨written, mid, rfl, .single hc, .inl hdrop⟩
  | case3 cs c hscan hdrop =>
    cases h
    obtain ⟨written, rfl, hc, -⟩ := Cell.exists_of_scan? hscan
    exact ⟨written, [], rfl, .single hc, .inr ⟨rfl, rfl⟩⟩
  | case4 cs c mid hscan hdrop hne ih =>
    obtain ⟨found, hfound, he⟩ := Option.map_eq_some_iff.1 h
    cases he
    obtain ⟨written, rfl, hc, hends⟩ := Cell.exists_of_scan? hscan
    obtain ⟨next, rfl⟩ := exists_eq_delimiter_cons hne hends hdrop
    obtain ⟨text, tail, htext, hrecord, hend⟩ := ih hfound
    refine ⟨written ++ delimiter :: text, tail, ?_, .cons hc hrecord, hend⟩
    simpa using htext

theorem isOpenRecord_of_scanCells? {cs : List Char} (h : RawRecord.scanCells? delimiter cs = none) :
    IsOpenRecord delimiter cs := by
  fun_induction RawRecord.scanCells? delimiter cs with
  | case1 cs hscan =>
    obtain ⟨content, rfl⟩ := Cell.exists_of_scan?_eq_none hscan
    exact .quote content
  | case2 => cases h
  | case3 => cases h
  | case4 cs c mid hscan hdrop hne ih =>
    obtain ⟨written, rfl, hc, hends⟩ := Cell.exists_of_scan? hscan
    obtain ⟨next, rfl⟩ := exists_eq_delimiter_cons hne hends hdrop
    exact .cons hc (ih (Option.map_eq_none_iff.1 h))

theorem scan_doubled_open (content : List Char) :
    Quoted.scan '"' (Quoted.doubled '"' content) = (content, none) := by
  induction content with
  | nil => rfl
  | cons c content ih =>
    by_cases hc : c = '"'
    · simp [Quoted.doubled, Quoted.scan, hc, ih]
    · rw [Quoted.doubled, if_neg hc, Quoted.scan.eq_def]
      simp [hc, ih]

theorem IsOpenRecord.scanCells?_eq_none (hd : validDelimiter delimiter = true) {cs : List Char}
    (h : IsOpenRecord delimiter cs) : RawRecord.scanCells? delimiter cs = none := by
  obtain ⟨hquote, hcr, hlf⟩ := validDelimiter_iff.1 hd
  induction h with
  | quote content =>
    have hscan : Cell.scan? delimiter ('"' :: Quoted.doubled '"' content) = none := by
      simp [Cell.scan?, scan_doubled_open]
    rw [RawRecord.scanCells?]
    split
    next => rfl
    next hsome => simp [hscan] at hsome
  | cons hc _ ih =>
    rw [scanCells?_of_scan? (hc.scan?_append hquote (ends_delimiter _)), dropBreak?_of_ne hcr hlf]
    simp [ih]

theorem splitFrom_of_isOpenRecord (hd : validDelimiter delimiter = true) {cs : List Char}
    (h : IsOpenRecord delimiter cs) (line : Nat) :
    RawRecord.splitFrom delimiter line cs = .error (.unterminatedQuote line) := by
  have hne : cs ≠ [] := by
    cases h <;> simp
  have hscan := h.scanCells?_eq_none hd
  rw [RawRecord.splitFrom, if_neg hne]
  split
  next => rfl
  next hsome => simp [hscan] at hsome

theorem exists_of_dropBreak? {tail rest : List Char} (h : dropBreak? tail = some rest) :
    ∃ lineBreak, IsLineBreak lineBreak ∧ Follows lineBreak rest ∧ tail = lineBreak ++ rest := by
  unfold dropBreak? at h
  split at h
  next cs =>
    cases h
    exact ⟨['\r', '\n'], .inl rfl, nofun, rfl⟩
  next cs hcs =>
    cases h
    refine ⟨['\r'], .inr (.inr rfl), fun _ hhead => ?_, rfl⟩
    obtain ⟨more, rfl⟩ := List.head?_eq_some_iff.1 hhead
    exact hcs more rfl
  next cs =>
    cases h
    exact ⟨['\n'], .inr (.inl rfl), nofun, rfl⟩
  next => cases h

/-- No line break reaches from the one text into the other. -/
def Separate (xs ys : List Char) : Prop := xs.getLast? = some '\r' → ys.head? ≠ some '\n'

theorem lineBreaks_append {xs ys : List Char} (h : Separate xs ys) :
    lineBreaks (xs ++ ys) = lineBreaks xs + lineBreaks ys := by
  induction xs with
  | nil => simp [lineBreaks]
  | cons x xs ih =>
    cases xs with
    | nil =>
      have hx : (x = '\n' ∨ x = '\r' ∧ ys.head? ≠ some '\n') ↔ x = '\n' ∨ x = '\r' :=
        or_congr_right (and_iff_left_of_imp fun hx => h (congrArg some hx))
      simp [lineBreaks, hx]
    | cons y xs =>
      have hrest := ih (by simpa [Separate] using h)
      rw [List.cons_append, lineBreaks, hrest, lineBreaks.eq_2 x, Nat.add_assoc]
      rfl

theorem head?_doubled (content : List Char) : (Quoted.doubled '"' content).head? = content.head? := by
  cases content with
  | nil => rfl
  | cons c content => by_cases hc : c = '"' <;> simp [Quoted.doubled, hc]

theorem lineBreaks_doubled (content : List Char) :
    lineBreaks (Quoted.doubled '"' content) = lineBreaks content := by
  induction content with
  | nil => rfl
  | cons c content ih => by_cases hc : c = '"' <;> simp [Quoted.doubled, lineBreaks, hc, ih, head?_doubled]

/-- A text that begins within a line is apart from what stands before it. -/
theorem separate_of_head? {xs ys : List Char} (h : ys.head? ≠ some '\n') : Separate xs ys := fun _ => h

theorem head?_ne_lineFeed {cs : List Char} (h : ∀ x ∈ cs, Cell.isBare delimiter x = true) :
    cs.head? ≠ some '\n' := by
  intro hhead
  simpa [Cell.isBare] using h '\n' (List.mem_of_head? hhead)

theorem getLast?_ne_carriageReturn {cs : List Char} (h : ∀ x ∈ cs, Cell.isBare delimiter x = true) :
    cs.getLast? ≠ some '\r' := by
  intro hlast
  simpa [Cell.isBare] using h '\r' (List.mem_of_getLast? hlast)

namespace Cell.IsWrittenAs
variable {c : Cell} {cs : List Char}

theorem lineBreaks_eq (h : c.IsWrittenAs delimiter cs) : lineBreaks cs = lineBreaks c.text := by
  cases h with
  | bare => rfl
  | quoted content hbare hhead =>
    rename_i tail
    have htail (xs : List Char) : Separate xs tail := separate_of_head? (head?_ne_lineFeed hbare)
    have hclose : Separate (Quoted.doubled '"' content) ('"' :: tail) := separate_of_head? nofun
    simp [Quoted.encode, lineBreaks, lineBreaks_append (htail _), lineBreaks_append hclose, lineBreaks_doubled]

theorem getLast?_ne (h : c.IsWrittenAs delimiter cs) : cs.getLast? ≠ some '\r' := by
  cases h with
  | bare hbare hhead => exact getLast?_ne_carriageReturn hbare
  | quoted content hbare hhead =>
    rename_i tail
    have htail := getLast?_ne_carriageReturn hbare
    rw [List.getLast?_append]
    cases hlast : tail.getLast? with
    | none =>
      rw [Option.none_or, Quoted.encode, List.getLast?_append, List.getLast?_singleton]
      simp
    | some x => simpa [hlast] using htail

end Cell.IsWrittenAs

namespace IsRecordText
variable {cells : List Cell} {text : List Char}

theorem getLast?_ne (hd : validDelimiter delimiter = true) (h : IsRecordText delimiter cells text) :
    text.getLast? ≠ some '\r' := by
  induction h with
  | single hc => exact hc.getLast?_ne
  | @cons c cells cs text hc htext ih =>
    cases text with
    | nil => simpa using (validDelimiter_iff.1 hd).2.1
    | cons x text => simpa [List.getLast?_append, List.getLast?_cons] using ih

/-- A record holds the line breaks of its cells. -/
theorem lineBreaks_eq (hd : validDelimiter delimiter = true) (h : IsRecordText delimiter cells text) :
    lineBreaks text = cells.foldr (fun c n => lineBreaks c.text + n) 0 := by
  obtain ⟨-, hcr, hlf⟩ := validDelimiter_iff.1 hd
  induction h with
  | single hc => exact hc.lineBreaks_eq
  | @cons c cells cs text hc htext ih =>
    have hcell : Separate cs (delimiter :: text) := separate_of_head? (by simpa using hlf)
    simp [lineBreaks_append hcell, lineBreaks, hcr, hlf, hc.lineBreaks_eq, ih]

theorem lineAfter_eq (hd : validDelimiter delimiter = true) (h : IsRecordText delimiter cells text)
    {before lineBreak : List Char} (hbreak : IsLineBreak lineBreak)
    (hbefore : Separate before (text ++ lineBreak)) :
    lineAfter (1 + lineBreaks before) cells = 1 + lineBreaks (before ++ (text ++ lineBreak)) := by
  have htext : Separate text lineBreak := fun hlast => absurd hlast (h.getLast?_ne hd)
  have hone : lineBreaks lineBreak = 1 := by
    rcases hbreak with rfl | rfl | rfl <;> rfl
  rw [lineBreaks_append hbefore, lineBreaks_append htext, h.lineBreaks_eq hd, hone, lineAfter]
  simp only [Nat.add_assoc]

end IsRecordText

theorem Separate.of_append {xs text lineBreak rest : List Char}
    (h : Separate xs (text ++ (lineBreak ++ rest))) (hbreak : IsLineBreak lineBreak) :
    Separate xs (text ++ lineBreak) := by
  intro hlast hhead
  have hne : text ++ lineBreak ≠ [] := by
    rcases hbreak with rfl | rfl | rfl <;> simp
  rw [← List.append_assoc, Separate, List.head?_append_of_ne_nil _ hne] at h
  exact h hlast hhead

theorem IsLineBreak.separate {lineBreak rest : List Char} (hbreak : IsLineBreak lineBreak)
    (hfollows : Follows lineBreak rest) (xs : List Char) : Separate (xs ++ lineBreak) rest := by
  intro hlast
  rcases hbreak with rfl | rfl | rfl
  · simp at hlast
  · simp at hlast
  · exact hfollows rfl

structure PlacedRecord where
  before : List Char
  cells : List Cell

def PlacedRecord.numbered (r : PlacedRecord) : RawRecord := ⟨1 + lineBreaks r.before, r.cells⟩

/-- Behind the text before, a text is divided into records that end at a line break each, and into what
is left. The last record may also end at the end of the text if it is not empty. -/
inductive Divides (delimiter : Char) :
    List Char → List Char → List PlacedRecord → List Char → Prop where
  | done (before tail : List Char) : Divides delimiter before tail [] tail
  | line {before text lineBreak rest tail : List Char} {cells : List Cell} {placed : List PlacedRecord}
      (hrecord : IsRecordText delimiter cells text) (hbreak : IsLineBreak lineBreak)
      (hfollows : Follows lineBreak rest)
      (hrest : Divides delimiter (before ++ (text ++ lineBreak)) rest placed tail) :
      Divides delimiter before (text ++ (lineBreak ++ rest)) (⟨before, cells⟩ :: placed) tail
  | last {before text : List Char} {cells : List Cell} (hrecord : IsRecordText delimiter cells text)
      (hne : text ≠ []) : Divides delimiter before text [⟨before, cells⟩] []

/-- Every text is divided, up to a record in which a quote is never closed. -/
theorem exists_divides (delimiter : Char) (before cs : List Char) :
    ∃ placed tail, Divides delimiter before cs placed tail ∧ (tail = [] ∨ IsOpenRecord delimiter tail) := by
  induction hn : cs.length using Nat.strongRecOn generalizing before cs with
  | _ n ih =>
    by_cases hcs : cs = []
    · exact ⟨[], cs, .done before cs, .inl hcs⟩
    cases hscan : RawRecord.scanCells? delimiter cs with
    | none => exact ⟨[], cs, .done before cs, .inr (isOpenRecord_of_scanCells? hscan)⟩
    | some found =>
      obtain ⟨cells, rest⟩ := found
      have hlength : rest.length < n := by
        have hle := RawRecord.length_le_of_scanCells? hscan
        have hpos := List.length_pos_iff.2 hcs
        omega
      obtain ⟨text, tail, rfl, hrecord, hdrop | ⟨rfl, -⟩⟩ := exists_of_scanCells? hscan
      · obtain ⟨lineBreak, hbreak, hfollows, rfl⟩ := exists_of_dropBreak? hdrop
        obtain ⟨placed, tail, hrest, htail⟩ := ih _ hlength (before ++ (text ++ lineBreak)) rest rfl
        exact ⟨_, tail, .line hrecord hbreak hfollows hrest, htail⟩
      · rw [List.append_nil] at hcs ⊢
        exact ⟨_, [], .last hrecord hcs, .inl rfl⟩

namespace Divides
variable {before cs tail : List Char} {placed : List PlacedRecord}

/-- Splitting goes on with what is left, on the line that it stands on. -/
theorem splitFrom_eq (hd : validDelimiter delimiter = true) (h : Divides delimiter before cs placed tail)
    (hbefore : Separate before cs) {line : Nat} (hline : cs ≠ [] → line = 1 + lineBreaks before) :
    ∃ next, (∀ stop, tail ≠ [] → before ++ cs = stop ++ tail → next = 1 + lineBreaks stop) ∧
      RawRecord.splitFrom delimiter line cs =
        (RawRecord.splitFrom delimiter next tail).map (placed.map PlacedRecord.numbered ++ ·) := by
  induction h generalizing line with
  | done before tail =>
    refine ⟨line, fun stop htail hstop => ?_, ?_⟩
    · rw [hline htail, List.append_cancel_right hstop]
    · cases RawRecord.splitFrom delimiter line tail <;> rfl
  | @line before text lineBreak rest tail cells placed hrecord hbreak hfollows hrest ih =>
    -- The line counted so far is that of the record; the breaks in its cells and its own one are added.
    have hne : text ++ (lineBreak ++ rest) ≠ [] := by
      rcases hbreak with rfl | rfl | rfl <;> simp
    have hscan := hrecord.scanCells?_append hd (endsRecord_lineBreak hbreak hfollows)
    have hnext : lineAfter line cells = 1 + lineBreaks (before ++ (text ++ lineBreak)) := by
      rw [hline hne]
      exact hrecord.lineAfter_eq hd hbreak (hbefore.of_append hbreak)
    have hrest := hbreak.separate hfollows (before ++ text)
    obtain ⟨next, hstop, hsplit⟩ := ih (by simpa using hrest) fun _ => hnext
    refine ⟨next, fun stop htail heq => hstop stop htail (by simpa using heq), ?_⟩
    rw [splitFrom_of_scanCells? hne hscan, hsplit, hline hne]
    cases RawRecord.splitFrom delimiter next tail <;> rfl
  | @last before text cells hrecord hne =>
    -- A line is counted although no line break follows, but nothing is left to stand on it.
    have hscan := hrecord.scanCells?_append hd (.inr ⟨rfl, rfl⟩)
    rw [List.append_nil] at hscan
    refine ⟨lineAfter line cells, fun _ htail => absurd rfl htail, ?_⟩
    rw [splitFrom_of_scanCells? hne hscan, hline hne, splitFrom_nil]
    rfl

theorem exists_append (h : Divides delimiter before cs placed tail) : ∃ stop, cs = stop ++ tail := by
  induction h with
  | done before tail => exact ⟨[], rfl⟩
  | @line before text lineBreak rest tail cells placed _ _ _ _ ih =>
    obtain ⟨stop, rfl⟩ := ih
    exact ⟨text ++ (lineBreak ++ stop), by simp⟩
  | @last before text cells => exact ⟨text, by simp⟩

theorem split_eq_ok (hd : validDelimiter delimiter = true) (h : Divides delimiter [] cs placed []) :
    RawRecord.split delimiter cs = .ok (placed.map PlacedRecord.numbered) := by
  obtain ⟨next, -, hsplit⟩ := h.splitFrom_eq hd nofun fun _ => rfl
  rw [RawRecord.split, show 1 = 1 + lineBreaks [] from rfl, hsplit, splitFrom_nil, Except.map,
    List.append_nil]

theorem split_eq_error (hd : validDelimiter delimiter = true) {stop : List Char}
    (h : Divides delimiter [] (stop ++ tail) placed tail) (hopen : IsOpenRecord delimiter tail) :
    RawRecord.split delimiter (stop ++ tail) = .error (.unterminatedQuote (1 + lineBreaks stop)) := by
  have htail : tail ≠ [] := by
    cases hopen <;> simp
  obtain ⟨next, hnext, hsplit⟩ := h.splitFrom_eq hd nofun fun _ => rfl
  obtain rfl := hnext stop htail rfl
  rw [RawRecord.split, show 1 = 1 + lineBreaks [] from rfl, hsplit,
    splitFrom_of_isOpenRecord hd hopen]
  rfl

end Divides

def ReadOptions.dataOf (o : ReadOptions) (placed : List PlacedRecord) : List PlacedRecord :=
  let counted := if o.skipBlank then placed.filter fun r => r.cells ≠ [⟨[], false⟩] else placed
  if o.header then counted.tail else counted

theorem ReadOptions.data_map_numbered (o : ReadOptions) (placed : List PlacedRecord) :
    o.data (placed.map PlacedRecord.numbered) = (o.dataOf placed).map PlacedRecord.numbered := by
  have hfilter : (placed.map PlacedRecord.numbered).filter (!·.isBlank) =
      (placed.filter fun r => r.cells ≠ [⟨[], false⟩]).map PlacedRecord.numbered := by
    have hblank : ((!·.isBlank) ∘ PlacedRecord.numbered) =
        fun r => decide (r.cells ≠ [⟨[], false⟩]) := by
      funext r
      exact Bool.eq_iff_iff.2 (by simp [RawRecord.isBlank, PlacedRecord.numbered])
    rw [List.filter_map, hblank]
  unfold data dataOf counted
  cases o.skipBlank <;> cases o.header <;> simp [hfilter]

/-- A warning about the number of cells names the line of a record that counts. -/
theorem Sheet.IsReadFrom.line_eq {o : ReadOptions} {placed : List PlacedRecord} {s : Sheet}
    (h : s.IsReadFrom o (placed.map PlacedRecord.numbered)) {w : CsvWarning} (hw : w ∈ s.warnings)
    {row line : Nat} (hplace : w.place? = some (row, line)) :
    ∃ r, (o.dataOf placed)[row]? = some r ∧ line = 1 + lineBreaks r.before := by
  have hwidth : w ∈ s.warnings.filter (·.isWidth) := by
    refine List.mem_filter.2 ⟨hw, ?_⟩
    cases w <;> first | rfl | cases hplace
  rw [h.warnings_eq, o.data_map_numbered] at hwidth
  obtain ⟨⟨record, i⟩, hmem, rfl⟩ := List.mem_map.1 hwidth
  have hrecord := List.mem_zipIdx_iff_getElem?.1 (List.mem_filter.1 hmem).1
  rw [List.getElem?_map] at hrecord
  obtain ⟨r, hr, rfl⟩ := Option.map_eq_some_iff.1 hrecord
  obtain ⟨rfl, rfl⟩ : i = row ∧ r.numbered.line = line := by
    split at hplace <;> cases hplace <;> exact ⟨rfl, rfl⟩
  exact ⟨r, hr, rfl⟩

/-- The line in a warning about the number of cells is that of the first character of the record, and the
line in the error about a quote is that of the first character of the record that the quote is in. -/
theorem reported_lines (o : ReadOptions) (text : String) :
    (∀ s, o.read text = .ok s → ∃ placed, Divides o.delimiter [] (dropMark text.toList) placed [] ∧
      RawRecord.split o.delimiter (dropMark text.toList) = .ok (placed.map PlacedRecord.numbered) ∧
      ∀ w ∈ s.warnings, ∀ row line, w.place? = some (row, line) →
        ∃ r, (o.dataOf placed)[row]? = some r ∧ line = 1 + lineBreaks r.before) ∧
    ∀ line, o.read text = .error (.unterminatedQuote line) → ∃ placed before tail,
      dropMark text.toList = before ++ tail ∧ Divides o.delimiter [] (before ++ tail) placed tail ∧
      IsOpenRecord o.delimiter tail ∧ line = 1 + lineBreaks before := by
  obtain ⟨placed, tail, hdivides, htail⟩ := exists_divides o.delimiter [] (dropMark text.toList)
  obtain ⟨before, htext⟩ := hdivides.exists_append
  rw [htext] at hdivides
  unfold ReadOptions.read
  rw [htext]
  split
  next hd =>
    rcases htail with rfl | hopen
    · have hsplit := hdivides.split_eq_ok hd
      rw [hsplit]
      refine ⟨fun s hs => ⟨placed, hdivides, rfl, fun w hw row line hplace => ?_⟩, fun line hline => ?_⟩
      · obtain rfl := Except.ok.inj hs
        exact (Sheet.isReadFrom_layOut o _).line_eq hw hplace
      · cases hline
    · rw [hdivides.split_eq_error hd hopen]
      refine ⟨fun s hs => ?_, fun line hline => ⟨placed, before, tail, rfl, hdivides, hopen, ?_⟩⟩
      · cases hs
      · cases hline
        rfl
  next => exact ⟨nofun, nofun⟩

/-- All kinds of line breaks behind a mark, between quotes and outside of them, and a quote that is never
closed behind a closed one. -/
theorem reported_lines_mixed_breaks :
    let text := "\uFEFFa,b\r\"x\r\ny\n\",1\n\r\n2\r"
    let s : Sheet := ⟨["a", "b"],
      [⟨[("a", .text "x\r\ny\n"), ("b", .integer 1)]⟩, ⟨[("a", .integer 2), ("b", .null)]⟩],
      [.tooFewFields 1 6 2 1]⟩
    ({} : ReadOptions).read text = .ok s ∧
      (∃ placed, Divides ',' [] (dropMark text.toList) placed [] ∧
        RawRecord.split ',' (dropMark text.toList) = .ok (placed.map PlacedRecord.numbered) ∧
        ∀ w ∈ s.warnings, ∀ row line, w.place? = some (row, line) →
          ∃ r, (({} : ReadOptions).dataOf placed)[row]? = some r ∧ line = 1 + lineBreaks r.before) ∧
      ({} : ReadOptions).read "\"\r\"\r\n1,\"2\n" = .error (.unterminatedQuote 3) ∧
      ∃ placed before tail, dropMark "\"\r\"\r\n1,\"2\n".toList = before ++ tail ∧
        Divides ',' [] (before ++ tail) placed tail ∧ IsOpenRecord ',' tail ∧ 3 = 1 + lineBreaks before := by
  intro text s
  have hread : ({} : ReadOptions).read text = .ok s := by decide +kernel
  have hquote : ({} : ReadOptions).read "\"\r\"\r\n1,\"2\n" = .error (.unterminatedQuote 3) := by
    decide +kernel
  exact ⟨hread, (reported_lines {} text).1 s hread, hquote, (reported_lines {} _).2 3 hquote⟩

end Csv
end TableQuery
