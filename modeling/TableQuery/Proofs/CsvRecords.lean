import TableQuery.Csv.Reading
import TableQuery.Proofs.Runs

/-! # Records as they are written

A record is a line of cells, each between quotes or bare, and the lines of a text end at line breaks of
one kind. Splitting such a text gives its cells back.
-/
namespace TableQuery.Csv
open Text

namespace Cell

def chars (c : Cell) : List Char := if c.quoted then Quoted.encode '"' c.text else c.text

/-- Without quotes a cell holds nothing that would end it, and does not begin like a quoted one. -/
def Writable (delimiter : Char) (c : Cell) : Prop :=
  c.quoted = false → (∀ x ∈ c.text, isBare delimiter x = true) ∧ c.text.head? ≠ some '"'

def Ends (delimiter : Char) (rest : List Char) : Prop := ∀ x ∈ rest.head?, isBare delimiter x = false

variable {delimiter : Char}

theorem head?_ne_quote_of_ends {rest : List Char} (hd : delimiter ≠ '"') (h : Ends delimiter rest) :
    rest.head? ≠ some '"' := by
  intro hr
  have hb := h '"' hr
  simp [isBare, Ne.symm hd] at hb

/-- How a cell is written: bare, or between quotes and with what follows the closing quote as it stands. -/
inductive IsWrittenAs (delimiter : Char) : Cell → List Char → Prop where
  | bare {text : List Char} (hbare : ∀ x ∈ text, isBare delimiter x = true)
      (hhead : text.head? ≠ some '"') : IsWrittenAs delimiter ⟨text, false⟩ text
  | quoted (content : List Char) {tail : List Char} (hbare : ∀ x ∈ tail, isBare delimiter x = true)
      (hhead : tail.head? ≠ some '"') :
      IsWrittenAs delimiter ⟨content ++ tail, true⟩ (Quoted.encode '"' content ++ tail)

theorem Writable.isWrittenAs {c : Cell} (h : c.Writable delimiter) : c.IsWrittenAs delimiter c.chars := by
  obtain ⟨text, quoted⟩ := c
  cases quoted with
  | true =>
    have hquoted : IsWrittenAs delimiter ⟨text ++ [], true⟩ (Quoted.encode '"' text ++ []) :=
      .quoted text (List.forall_mem_nil _) nofun
    simpa [chars] using hquoted
  | false => exact .bare (h rfl).1 (h rfl).2

theorem head?_append_ne_quote {cs rest : List Char} (hd : delimiter ≠ '"') (hcs : cs.head? ≠ some '"')
    (hr : Ends delimiter rest) : (cs ++ rest).head? ≠ some '"' := by
  cases cs with
  | nil => exact head?_ne_quote_of_ends hd hr
  | cons x cs => exact hcs

theorem IsWrittenAs.scan?_append {c : Cell} {cs rest : List Char} (hd : delimiter ≠ '"')
    (hc : c.IsWrittenAs delimiter cs) (hr : Ends delimiter rest) :
    scan? delimiter (cs ++ rest) = some (c, rest) := by
  cases hc with
  | bare hbare hhead =>
    rw [scan?, if_neg (head?_append_ne_quote hd hhead hr), takeWhile_run hbare hr, dropWhile_run hbare hr]
  | quoted content hbare hhead =>
    have hs := Quoted.scan_doubled (head?_append_ne_quote hd hhead hr) content
    simp [Quoted.encode, scan?, hs, takeWhile_run hbare hr, dropWhile_run hbare hr]

end Cell

def lineOf (delimiter : Char) (cells : List Cell) : List Char :=
  [delimiter].intercalate (cells.map Cell.chars)

structure IsLine (delimiter : Char) (cells : List Cell) : Prop where
  ne_nil : cells ≠ []
  writable : ∀ c ∈ cells, c.Writable delimiter

inductive IsRecordText (delimiter : Char) : List Cell → List Char → Prop where
  | single {c : Cell} {cs : List Char} (hc : c.IsWrittenAs delimiter cs) : IsRecordText delimiter [c] cs
  | cons {c : Cell} {cells : List Cell} {cs text : List Char} (hc : c.IsWrittenAs delimiter cs)
      (htext : IsRecordText delimiter cells text) :
      IsRecordText delimiter (c :: cells) (cs ++ delimiter :: text)

def IsLineBreak (cs : List Char) : Prop := cs = ['\r', '\n'] ∨ cs = ['\n'] ∨ cs = ['\r']

def EndsRecord (tail rest : List Char) : Prop := dropBreak? tail = some rest ∨ tail = [] ∧ rest = []

variable {delimiter : Char}

theorem dropBreak?_of_ne {c : Char} (hr : c ≠ '\r') (hn : c ≠ '\n') (cs : List Char) :
    dropBreak? (c :: cs) = none := by
  unfold dropBreak?
  split
  next he => exact absurd (List.cons.inj he).1 hr
  next he => exact absurd (List.cons.inj he).1 hr
  next he => exact absurd (List.cons.inj he).1 hn
  next => rfl

/-- A record ends at the end of the text or at a character that no bare cell holds. -/
theorem ends_of_endsRecord {tail rest : List Char} (h : EndsRecord tail rest) :
    Cell.Ends delimiter tail := by
  rcases h with h | ⟨rfl, -⟩
  · cases tail with
    | nil => exact nofun
    | cons c tail =>
      have hc : c = '\r' ∨ c = '\n' := by
        by_cases hr : c = '\r'
        · exact .inl hr
        · by_cases hn : c = '\n'
          · exact .inr hn
          · rw [dropBreak?_of_ne hr hn] at h
            cases h
      intro x hx
      cases hx
      rcases hc with rfl | rfl <;> simp [Cell.isBare]
  · exact nofun

theorem validDelimiter_iff : validDelimiter delimiter = true ↔
    delimiter ≠ '"' ∧ delimiter ≠ '\r' ∧ delimiter ≠ '\n' := by
  simp [validDelimiter, and_assoc]

theorem lineOf_singleton (c : Cell) : lineOf delimiter [c] = c.chars := by
  simp [lineOf]

theorem lineOf_cons_cons (c d : Cell) (cells : List Cell) :
    lineOf delimiter (c :: d :: cells) = c.chars ++ delimiter :: lineOf delimiter (d :: cells) := by
  simp [lineOf, List.intercalate_cons_cons]

theorem scanCells?_of_scan? {cs rest : List Char} {c : Cell}
    (h : Cell.scan? delimiter cs = some (c, rest)) :
    RawRecord.scanCells? delimiter cs = match dropBreak? rest with
      | some next => some ([c], next)
      | none =>
        if rest = [] then some ([c], [])
        else (RawRecord.scanCells? delimiter rest.tail).map fun found => (c :: found.1, found.2) := by
  rw [RawRecord.scanCells?]
  split
  next hs => simp [hs] at h
  next cell mid hs =>
    obtain ⟨rfl, rfl⟩ : cell = c ∧ mid = rest := by simpa [hs] using h
    cases dropBreak? mid <;> simp

theorem IsLine.isRecordText {cells : List Cell} (h : IsLine delimiter cells) :
    IsRecordText delimiter cells (lineOf delimiter cells) := by
  obtain ⟨hne, hwritable⟩ := h
  induction cells with
  | nil => exact absurd rfl hne
  | cons c cells ih =>
    obtain ⟨hc, hcells⟩ := List.forall_mem_cons.1 hwritable
    cases cells with
    | nil =>
      rw [lineOf_singleton]
      exact .single hc.isWrittenAs
    | cons d cells =>
      rw [lineOf_cons_cons]
      exact .cons hc.isWrittenAs (ih (List.cons_ne_nil _ _) hcells)

theorem ends_delimiter (rest : List Char) : Cell.Ends delimiter (delimiter :: rest) := by
  intro x hx
  cases hx
  simp [Cell.isBare]

theorem IsRecordText.scanCells?_append (hd : validDelimiter delimiter = true) {cells : List Cell}
    {text : List Char} (h : IsRecordText delimiter cells text) {tail rest : List Char}
    (ht : EndsRecord tail rest) : RawRecord.scanCells? delimiter (text ++ tail) = some (cells, rest) := by
  obtain ⟨hquote, hcr, hlf⟩ := validDelimiter_iff.1 hd
  induction h with
  | single hc =>
    rw [scanCells?_of_scan? (hc.scan?_append hquote (ends_of_endsRecord ht))]
    rcases ht with ht | ⟨rfl, rfl⟩
    · rw [ht]
    · rfl
  | cons hc _ ih =>
    rw [List.append_assoc, List.cons_append, scanCells?_of_scan? (hc.scan?_append hquote (ends_delimiter _)),
      dropBreak?_of_ne hcr hlf]
    simp [ih]

/-- Only a record of one bare empty cell is written as nothing. -/
theorem lineOf_ne_nil {cells : List Cell} (h : cells ≠ []) (hblank : cells ≠ [⟨[], false⟩]) :
    lineOf delimiter cells ≠ [] := by
  match cells with
  | c :: d :: cells =>
    rw [lineOf_cons_cons]
    exact List.append_ne_nil_of_right_ne_nil _ (List.cons_ne_nil _ _)
  | [⟨text, true⟩] => simp [lineOf_singleton, Cell.chars, Quoted.encode]
  | [⟨text, false⟩] =>
    intro hl
    rw [lineOf_singleton] at hl
    obtain rfl : text = [] := hl
    exact hblank rfl

theorem head?_lineOf_append_ne_lineFeed (hd : validDelimiter delimiter = true) {cells : List Cell}
    (h : IsLine delimiter cells) {tail : List Char} (ht : tail.head? ≠ some '\n') :
    (lineOf delimiter cells ++ tail).head? ≠ some '\n' := by
  obtain ⟨hne, hwritable⟩ := h
  cases cells with
  | nil => exact absurd rfl hne
  | cons c cells =>
    have hc := hwritable c List.mem_cons_self
    obtain ⟨more, hline, hmore⟩ : ∃ more, lineOf delimiter (c :: cells) ++ tail = c.chars ++ more ∧
        more.head? ≠ some '\n' := by
      cases cells with
      | nil => exact ⟨tail, by rw [lineOf_singleton], ht⟩
      | cons d cells =>
        refine ⟨delimiter :: (lineOf delimiter (d :: cells) ++ tail), ?_, ?_⟩
        · rw [lineOf_cons_cons, List.append_assoc, List.cons_append]
        · intro hhead
          exact (validDelimiter_iff.1 hd).2.2 (Option.some.inj hhead)
    rw [hline]
    obtain ⟨text, quoted⟩ := c
    cases quoted with
    | true => exact fun hhead => absurd (Option.some.inj hhead) (by decide)
    | false =>
      cases text with
      | nil => exact hmore
      | cons x text =>
        intro hhead
        have hx : Cell.isBare delimiter x = true := (hc rfl).1 x List.mem_cons_self
        obtain rfl : x = '\n' := Option.some.inj hhead
        simp [Cell.isBare] at hx

/-- A lone carriage return stays alone before this text. -/
def Follows (lineBreak tail : List Char) : Prop := lineBreak = ['\r'] → tail.head? ≠ some '\n'

theorem endsRecord_lineBreak {lineBreak tail : List Char} (hb : IsLineBreak lineBreak)
    (ht : Follows lineBreak tail) : EndsRecord (lineBreak ++ tail) tail := by
  rcases hb with rfl | rfl | rfl
  · exact .inl rfl
  · exact .inl rfl
  · cases tail with
    | nil => exact .inl rfl
    | cons x tail =>
      have hx : x ≠ '\n' := fun he => ht rfl (congrArg some he)
      refine .inl ?_
      change dropBreak? ('\r' :: x :: tail) = some (x :: tail)
      simp [dropBreak?, hx]

def lineAfter (line : Nat) (cells : List Cell) : Nat :=
  line + cells.foldr (fun c n => lineBreaks c.text + n) 0 + 1

theorem splitFrom_of_scanCells? {cs rest : List Char} {cells : List Cell} (hcs : cs ≠ [])
    (h : RawRecord.scanCells? delimiter cs = some (cells, rest)) (line : Nat) :
    RawRecord.splitFrom delimiter line cs =
      (RawRecord.splitFrom delimiter (lineAfter line cells) rest).map (⟨line, cells⟩ :: ·) := by
  rw [RawRecord.splitFrom, if_neg hcs]
  split
  next hs => simp [hs] at h
  next found mid hs =>
    obtain ⟨rfl, rfl⟩ : found = cells ∧ mid = rest := by simpa [hs] using h
    rfl

def recordsFrom (line : Nat) : List (List Cell) → List RawRecord
  | [] => []
  | cells :: records => ⟨line, cells⟩ :: recordsFrom (lineAfter line cells) records

@[simp] theorem map_cells_recordsFrom (line : Nat) (records : List (List Cell)) :
    (recordsFrom line records).map (·.cells) = records := by
  induction records generalizing line with
  | nil => rfl
  | cons cells records ih => simp [recordsFrom, ih]

theorem recordsFrom_append (line : Nat) (before after : List (List Cell)) :
    recordsFrom line (before ++ after) =
      recordsFrom line before ++ recordsFrom (before.foldl lineAfter line) after := by
  induction before generalizing line with
  | nil => rfl
  | cons cells before ih => simp [recordsFrom, ih]

def linesOf (delimiter : Char) (lineBreak : List Char) (records : List (List Cell)) : List Char :=
  records.flatMap fun cells => lineOf delimiter cells ++ lineBreak

section
variable {lineBreak tail : List Char} {records : List (List Cell)}

theorem follows_linesOf (hd : validDelimiter delimiter = true) (h : ∀ r ∈ records, IsLine delimiter r)
    (ht : Follows lineBreak tail) : Follows lineBreak (linesOf delimiter lineBreak records ++ tail) := by
  rintro rfl
  cases records with
  | nil => exact ht rfl
  | cons r records =>
    rw [linesOf, List.flatMap_cons, List.append_assoc, List.append_assoc]
    apply head?_lineOf_append_ne_lineFeed hd (h r List.mem_cons_self)
    exact fun hhead => absurd (Option.some.inj hhead) (by decide)

/-- Lines are split off one by one, up to what follows them. -/
theorem splitFrom_linesOf_append (hd : validDelimiter delimiter = true) (hb : IsLineBreak lineBreak)
    (h : ∀ r ∈ records, IsLine delimiter r) (hf : Follows lineBreak tail) (line : Nat) :
    RawRecord.splitFrom delimiter line (linesOf delimiter lineBreak records ++ tail) =
      (RawRecord.splitFrom delimiter (records.foldl lineAfter line) tail).map
        (recordsFrom line records ++ ·) := by
  induction records generalizing line with
  | nil =>
    change RawRecord.splitFrom delimiter line tail = (RawRecord.splitFrom delimiter line tail).map ([] ++ ·)
    cases RawRecord.splitFrom delimiter line tail <;> rfl
  | cons r records ih =>
    obtain ⟨hr, hrecords⟩ := List.forall_mem_cons.1 h
    have hends := endsRecord_lineBreak hb (follows_linesOf hd hrecords hf)
    have hscan := hr.isRecordText.scanCells?_append hd hends
    have hne : lineOf delimiter r ++ (lineBreak ++ (linesOf delimiter lineBreak records ++ tail)) ≠ [] := by
      rcases hb with rfl | rfl | rfl <;> simp
    have htext : linesOf delimiter lineBreak (r :: records) ++ tail =
        lineOf delimiter r ++ (lineBreak ++ (linesOf delimiter lineBreak records ++ tail)) := by
      simp only [linesOf, List.flatMap_cons, List.append_assoc]
    rw [htext, splitFrom_of_scanCells? hne hscan, ih hrecords, List.foldl_cons]
    cases RawRecord.splitFrom delimiter (records.foldl lineAfter (lineAfter line r)) tail <;> rfl

theorem splitFrom_nil (line : Nat) : RawRecord.splitFrom delimiter line [] = .ok [] := by
  rw [RawRecord.splitFrom, if_pos rfl]

/-- Lines that end at a line break each are the records of the text. -/
theorem split_linesOf (hd : validDelimiter delimiter = true) (hb : IsLineBreak lineBreak)
    (h : ∀ r ∈ records, IsLine delimiter r) :
    RawRecord.split delimiter (linesOf delimiter lineBreak records) = .ok (recordsFrom 1 records) := by
  have hlines := splitFrom_linesOf_append hd hb h (show Follows lineBreak [] from nofun) 1
  rw [List.append_nil, splitFrom_nil] at hlines
  rw [RawRecord.split, hlines, Except.map, List.append_nil]

/-- The last record needs no line break unless it is blank. -/
theorem split_linesOf_append_lineOf (hd : validDelimiter delimiter = true) (hb : IsLineBreak lineBreak)
    (h : ∀ r ∈ records, IsLine delimiter r) {r : List Cell} (hr : IsLine delimiter r)
    (hblank : r ≠ [⟨[], false⟩]) :
    RawRecord.split delimiter (linesOf delimiter lineBreak records ++ lineOf delimiter r) =
      .ok (recordsFrom 1 (records ++ [r])) := by
  have hf : Follows lineBreak (lineOf delimiter r) := by
    intro _
    have hhead : (lineOf delimiter r ++ []).head? ≠ some '\n' :=
      head?_lineOf_append_ne_lineFeed hd hr nofun
    rwa [List.append_nil] at hhead
  have hscan := hr.isRecordText.scanCells?_append hd (.inr ⟨rfl, rfl⟩)
  rw [List.append_nil] at hscan
  rw [RawRecord.split, splitFrom_linesOf_append hd hb h hf,
    splitFrom_of_scanCells? (lineOf_ne_nil hr.ne_nil hblank) hscan, splitFrom_nil, recordsFrom_append]
  rfl

/-- However the cells of records are written, the text is split into these records. Only one bare empty cell
makes a blank record, and only such a record is lost at the end of a text without a line break. -/
theorem split_spelled_records (hd : validDelimiter delimiter = true) (hb : IsLineBreak lineBreak)
    (h : ∀ r ∈ records, IsLine delimiter r) :
    ∃ raw, RawRecord.split delimiter (linesOf delimiter lineBreak records) = .ok raw ∧
      raw.map (·.cells) = records ∧ (∀ r ∈ raw, r.isBlank = true ↔ r.cells = [⟨[], false⟩]) ∧
      ∀ before r, records = before ++ [r] →
        RawRecord.split delimiter (linesOf delimiter lineBreak before ++ lineOf delimiter r) =
          .ok (if r = [⟨[], false⟩] then raw.dropLast else raw) := by
  refine ⟨recordsFrom 1 records, split_linesOf hd hb h, map_cells_recordsFrom 1 records,
    fun _ _ => beq_iff_eq, ?_⟩
  rintro before r rfl
  obtain ⟨hbefore, hr⟩ := List.forall_mem_append.1 h
  split
  next hblank =>
    rw [hblank, lineOf_singleton, recordsFrom_append, recordsFrom, recordsFrom, List.dropLast_concat]
    exact (congrArg (RawRecord.split delimiter) (List.append_nil _)).trans (split_linesOf hd hb hbefore)
  next hblank =>
    exact split_linesOf_append_lineOf hd hb hbefore (List.forall_mem_singleton.1 hr) hblank

/-- Quotes in a bare cell, all kinds of marks between quotes, an empty line and an empty quoted cell. -/
theorem split_spelled_records_carriage_return :
    let records : List (List Cell) :=
      [[⟨"a\"".toList, false⟩, ⟨"\r\n;\"".toList, true⟩], [⟨[], false⟩], [⟨[], true⟩], [⟨[], false⟩]]
    (∀ r ∈ records, IsLine ';' r) ∧ linesOf ';' ['\r'] records = "a\";\"\r\n;\"\"\"\r\r\"\"\r\r".toList ∧
      ∃ raw, RawRecord.split ';' (linesOf ';' ['\r'] records) = .ok raw ∧
        raw.map (·.cells) = records ∧ (∀ r ∈ raw, r.isBlank = true ↔ r.cells = [⟨[], false⟩]) ∧
        ∀ before r, records = before ++ [r] →
          RawRecord.split ';' (linesOf ';' ['\r'] before ++ lineOf ';' r) =
            .ok (if r = [⟨[], false⟩] then raw.dropLast else raw) := by
  intro records
  have hlines : ∀ r ∈ records, IsLine ';' r := by
    have hne : ∀ r ∈ records, r ≠ [] := by decide
    have hwritable : ∀ r ∈ records, ∀ c ∈ r, c.Writable ';' := by
      simp [records, Cell.Writable, Cell.isBare]
    exact fun r hr => ⟨hne r hr, hwritable r hr⟩
  exact ⟨hlines, by decide, split_spelled_records (by decide) (.inr (.inr rfl)) hlines⟩

end
end TableQuery.Csv
