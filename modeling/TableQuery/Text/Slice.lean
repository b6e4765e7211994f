/-! # Byte offsets

Positions in a text count the bytes of its UTF-8 form.
-/
namespace TableQuery.Text

def byteLength (cs : List Char) : Nat := cs.foldr (fun c n => c.utf8Size + n) 0

theorem byteLength_cons (c : Char) (cs : List Char) :
    byteLength (c :: cs) = c.utf8Size + byteLength cs :=
  rfl

theorem byteLength_cons_sub (c : Char) (cs : List Char) :
    byteLength (c :: cs) - c.utf8Size = byteLength cs :=
  Nat.add_sub_cancel_left ..

theorem byteLength_pos {cs : List Char} (h : cs ≠ []) : 0 < byteLength cs := by
  obtain ⟨c, cs, rfl⟩ := List.exists_cons_of_ne_nil h
  have hc := c.utf8Size_pos
  rw [byteLength_cons]
  omega

theorem byteLength_cons_ne_zero (c : Char) (cs : List Char) : byteLength (c :: cs) ≠ 0 :=
  Nat.ne_of_gt (byteLength_pos (List.cons_ne_nil c cs))

theorem byteLength_append (cs ds : List Char) :
    byteLength (cs ++ ds) = byteLength cs + byteLength ds := by
  induction cs with
  | nil => simp [byteLength]
  | cons c cs ih => rw [List.cons_append, byteLength_cons, byteLength_cons, ih, Nat.add_assoc]

/-- Drops characters until at least `n` bytes are gone. -/
def dropBytes (n : Nat) : List Char → List Char
  | [] => []
  | c :: cs => if n = 0 then c :: cs else dropBytes (n - c.utf8Size) cs

def takeBytes (n : Nat) : List Char → List Char
  | [] => []
  | c :: cs => if n = 0 then [] else c :: takeBytes (n - c.utf8Size) cs

theorem dropBytes_append (cs ds : List Char) : dropBytes (byteLength cs) (cs ++ ds) = ds := by
  induction cs with
  | nil => cases ds <;> simp [byteLength, dropBytes]
  | cons c cs ih =>
    rw [List.cons_append, dropBytes, if_neg (byteLength_cons_ne_zero c cs), byteLength_cons_sub, ih]

theorem takeBytes_append (cs ds : List Char) : takeBytes (byteLength cs) (cs ++ ds) = cs := by
  induction cs with
  | nil => cases ds <;> simp [byteLength, takeBytes]
  | cons c cs ih =>
    rw [List.cons_append, takeBytes, if_neg (byteLength_cons_ne_zero c cs), byteLength_cons_sub, ih]

def slice (cs : List Char) (start stop : Nat) : List Char :=
  takeBytes (stop - start) (dropBytes start cs)

/-- A part of a text lies between the lengths of what comes before and of both together. -/
theorem slice_append (before part after : List Char) :
    slice (before ++ (part ++ after)) (byteLength before) (byteLength (before ++ part)) = part := by
  rw [slice, dropBytes_append, byteLength_append, Nat.add_sub_cancel_left, takeBytes_append]

end TableQuery.Text
