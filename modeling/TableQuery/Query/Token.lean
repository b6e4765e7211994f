import TableQuery.Text.Fold
import TableQuery.Text.Letter
import TableQuery.Text.Quoted
import TableQuery.Text.Slice
import TableQuery.Text.Space

/-! # Tokens

A query text is a sequence of tokens with white space between them. Keywords are words like any
other; they are recognised by position, up to the case of ASCII letters.
-/
namespace TableQuery

inductive TokenKind where
  | word (text : String)
  | number (text : String)
  | quoted (text : String)
  | unclosed (text : String)
  | star
  | comma
  | openParen
  | closeParen
  | equals
  | semicolon
  | symbol (c : Char)
deriving DecidableEq

structure Token where
  kind : TokenKind
  start : Nat
  stop : Nat
deriving DecidableEq

namespace TokenKind

def word? : TokenKind → Option String
  | word s => some s
  | _ => none

def number? : TokenKind → Option String
  | number s => some s
  | _ => none

def quoted? : TokenKind → Option String
  | quoted s => some s
  | _ => none

def isKeyword (keyword : String) : TokenKind → Bool
  | word s => Text.eqIgnoreAsciiCase s keyword
  | _ => false

def isParen : TokenKind → Bool
  | openParen | closeParen => true
  | _ => false

def ofMark (c : Char) : TokenKind :=
  if c = '*' then star
  else if c = ',' then comma
  else if c = '(' then openParen
  else if c = ')' then closeParen
  else if c = '=' then equals
  else if c = ';' then semicolon
  else symbol c

end TokenKind

/-- A token at the start of a text, the characters that it is written with, and the text after it.
-/
structure Lexeme where
  kind : TokenKind
  source : List Char
  rest : List Char

namespace Lexeme

def isWordStart (c : Char) : Bool := Text.isAlphabetic c || c == '_'

def isWordPart (c : Char) : Bool := Text.isAlphanumeric c || c == '_' || c == '.' || c == '$'

def ofWord (cs : List Char) : Lexeme where
  kind := .word (String.ofList (cs.takeWhile isWordPart))
  source := cs.takeWhile isWordPart
  rest := cs.dropWhile isWordPart

def splitFraction : List Char → List Char × List Char
  | '.' :: d :: cs =>
    if d.isDigit then ('.' :: d :: cs.takeWhile Char.isDigit, cs.dropWhile Char.isDigit)
    else ([], '.' :: d :: cs)
  | cs => ([], cs)

def ofNumber (cs : List Char) : Lexeme :=
  let whole := cs.takeWhile Char.isDigit
  let (fraction, rest) := splitFraction (cs.dropWhile Char.isDigit)
  ⟨.number (String.ofList (whole ++ fraction)), whole ++ fraction, rest⟩

def ofQuote (quote : Char) (cs : List Char) : Lexeme :=
  match Text.Quoted.scan quote cs with
  | (content, some rest) =>
    ⟨.quoted (String.ofList content), Text.Quoted.encode quote content, rest⟩
  | (content, none) =>
    ⟨.unclosed (String.ofList content), quote :: Text.Quoted.doubled quote content, []⟩

def first (c : Char) (cs : List Char) : Lexeme :=
  if c = '\x27' ∨ c = '"' then ofQuote c cs
  else if c.isDigit then ofNumber (c :: cs)
  else if isWordStart c then ofWord (c :: cs)
  else ⟨.ofMark c, [c], cs⟩

theorem source_splitFraction (cs : List Char) : (splitFraction cs).1 ++ (splitFraction cs).2 = cs := by
  unfold splitFraction
  split
  · split <;> simp
  · simp

theorem ofWord_append (cs : List Char) : (ofWord cs).source ++ (ofWord cs).rest = cs := by
  simp [ofWord]

theorem ofNumber_append (cs : List Char) : (ofNumber cs).source ++ (ofNumber cs).rest = cs := by
  simp [ofNumber, source_splitFraction]

theorem ofQuote_append (quote : Char) (cs : List Char) :
    (ofQuote quote cs).source ++ (ofQuote quote cs).rest = quote :: cs := by
  have h := Text.Quoted.eq_doubled_of_scan quote cs
  unfold ofQuote
  split <;> rename_i hs <;> rw [hs] at h
  · simp [Text.Quoted.encode, ← h.1]
  · simp [← h]

/-- The characters of the first token and the rest make up the text. -/
theorem first_append (c : Char) (cs : List Char) :
    (first c cs).source ++ (first c cs).rest = c :: cs := by
  unfold first
  split
  · exact ofQuote_append c cs
  · split
    · exact ofNumber_append (c :: cs)
    · split
      · exact ofWord_append (c :: cs)
      · rfl

/-- A token has at least one character. -/
theorem source_first_ne_nil (c : Char) (cs : List Char) : (first c cs).source ≠ [] := by
  unfold first
  split
  · unfold ofQuote
    split <;> simp [Text.Quoted.encode]
  · split
    · rename_i hd
      simp [ofNumber, hd]
    · split
      · rename_i hw
        have hp : isWordPart c = true := by
          simp only [isWordStart, isWordPart, Text.isAlphanumeric, Bool.or_eq_true] at hw ⊢
          rcases hw with h | h <;> simp [h]
        simp [ofWord, hp]
      · simp

theorem length_rest_first_le (c : Char) (cs : List Char) : (first c cs).rest.length ≤ cs.length := by
  have h := congrArg List.length (first_append c cs)
  have h2 := List.length_pos_iff.2 (source_first_ne_nil c cs)
  simp at h
  omega

end Lexeme

def tokensFrom (position : Nat) : List Char → List Token
  | [] => []
  | c :: cs =>
    if Text.isSpace c then tokensFrom (position + c.utf8Size) cs
    else
      let lexeme := Lexeme.first c cs
      let stop := position + Text.byteLength lexeme.source
      ⟨lexeme.kind, position, stop⟩ :: tokensFrom stop lexeme.rest
termination_by cs => cs.length
decreasing_by
  · simp
  · have := Lexeme.length_rest_first_le c cs
    simp
    omega

def tokenize (s : String) : List Token := tokensFrom 0 s.toList

end TableQuery
