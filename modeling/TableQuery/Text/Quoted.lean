/-! # Quoted text

Inside quotes a quote is written twice. Reading stops at the first quote that stands alone.
-/
namespace TableQuery.Text.Quoted

def doubled (quote : Char) : List Char → List Char
  | [] => []
  | c :: cs => if c = quote then quote :: quote :: doubled quote cs else c :: doubled quote cs

def encode (quote : Char) (cs : List Char) : List Char :=
  quote :: doubled quote cs ++ [quote]

/-- The content up to the closing quote and what follows it; nothing follows a content that is never
closed. -/
def scan (quote : Char) : List Char → List Char × Option (List Char)
  | [] => ([], none)
  | c :: cs =>
    if c = quote then
      match cs with
      | [] => ([], some [])
      | d :: rest =>
        if d = quote then (quote :: (scan quote rest).1, (scan quote rest).2)
        else ([], some (d :: rest))
    else (c :: (scan quote cs).1, (scan quote cs).2)

theorem scan_doubled {quote : Char} {rest : List Char} (h : rest.head? ≠ some quote)
    (cs : List Char) :
    scan quote (doubled quote cs ++ quote :: rest) = (cs, some rest) := by
  induction cs with
  | nil =>
    cases rest with
    | nil => simp [doubled, scan]
    | cons d rest =>
      have hd : d ≠ quote := by simpa using h
      simp [doubled, scan, hd]
  | cons c cs ih =>
    by_cases hc : c = quote
    · simp [doubled, scan, hc, ih]
    · rw [doubled, if_neg hc, List.cons_append, scan.eq_def]
      simp [hc, ih]

/-- The source is the content with its quotes doubled, the closing quote and the rest. -/
theorem eq_doubled_of_scan (quote : Char) (source : List Char) :
    match scan quote source with
    | (content, some rest) =>
      source = doubled quote content ++ quote :: rest ∧ rest.head? ≠ some quote
    | (content, none) => source = doubled quote content := by
  fun_induction scan quote source with
  | case1 => simp [doubled]
  | case2 => simp [doubled]
  | case3 rest ih =>
    revert ih
    obtain ⟨content, tail⟩ := scan quote rest
    cases tail with
    | none => simp [doubled]
    | some tail => simp [doubled]
  | case4 d rest hd => simp [doubled, hd]
  | case5 c cs hc ih =>
    revert ih
    obtain ⟨content, tail⟩ := scan quote cs
    cases tail with
    | none => simp [doubled, hc]
    | some tail => simp [doubled, hc]

theorem eq_append_of_scan {quote : Char} {source content rest : List Char}
    (h : scan quote source = (content, some rest)) :
    source = doubled quote content ++ quote :: rest ∧ rest.head? ≠ some quote := by
  have hs := eq_doubled_of_scan quote source
  rwa [h] at hs

theorem eq_doubled_of_scan_eq_none {quote : Char} {source content : List Char}
    (h : scan quote source = (content, none)) : source = doubled quote content := by
  have hs := eq_doubled_of_scan quote source
  rwa [h] at hs

theorem length_lt_of_scan {quote : Char} {source content rest : List Char}
    (h : scan quote source = (content, some rest)) : rest.length < source.length := by
  rw [(eq_append_of_scan h).1, List.length_append, List.length_cons]
  omega

end TableQuery.Text.Quoted
