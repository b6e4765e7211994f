import TableQuery.Query.Basic
import TableQuery.Query.Clause
import TableQuery.Text.Word

/-! # Reading queries

Two faults are fatal: a statement that does not start with SELECT and one that mentions a join. Any
other text is a query, in which a condition outside the supported forms is kept as it is written.
-/
namespace TableQuery

inductive GrammarError where
  | notSelect
  | joinUnsupported
deriving DecidableEq

def GrammarError.message : GrammarError → String
  | notSelect => "Query must start with SELECT"
  | joinUnsupported => "Unsupported SQL syntax. JOIN clauses are not supported."

/-- The word itself, or a quoted text that holds it as a whole word. -/
def TokenKind.mentionsJoin : TokenKind → Bool
  | quoted s | unclosed s => Text.holdsWord "join".toList s.toList
  | kind => kind.isKeyword "JOIN"

def sourceText (source : List Char) (tokens : List Token) : String :=
  match tokens.head?, tokens.getLast? with
  | some first, some last => String.ofList (Text.slice source first.start last.stop)
  | _, _ => ""

def splitItems (depth : Nat) : List Token → List (List Token)
  | [] => [[]]
  | t :: rest =>
    if t.kind = .comma ∧ depth = 0 then [] :: splitItems depth rest
    else
      match splitItems (depthAfter depth t) rest with
      | [] => [[t]]
      | item :: later => (t :: item) :: later

def isLoneStar : List Token → Bool
  | [t] => t.kind == .star
  | _ => false

namespace Projection

/-- Empty items are skipped. A star beside names is skipped, too; without names it asks for all. -/
def ofTokens (source : List Char) (tokens : List Token) : Projection :=
  let items := (splitItems 0 tokens).filter (!·.isEmpty)
  let names := (items.filter (!isLoneStar ·)).map fun item => Text.fold (sourceText source item)
  if items.isEmpty then .unresolved
  else if names.isEmpty then .all
  else .columns names

end Projection

def textBetweenPercents? (s : String) : Option String :=
  match s.toList with
  | '%' :: cs =>
    if cs.getLast? = some '%' ∧ cs.dropLast ≠ [] then some (String.ofList cs.dropLast) else none
  | _ => none

namespace Predicate

/-- The members of a list of texts in parentheses; whatever is no quoted text is skipped. -/
def members? (kinds : List TokenKind) : Option (List String) :=
  let inner := kinds.dropLast
  if kinds.getLast? = some .closeParen ∧ inner ≠ [] ∧ !inner.any TokenKind.isParen then
    some (inner.filterMap TokenKind.quoted?)
  else none

def ofKinds? : List TokenKind → Option Predicate
  | [.word column, .equals, .quoted value] =>
    if value = "" then none else some (.equals column value)
  | [.word column, keyword, .quoted pattern] =>
    if keyword.isKeyword "LIKE" then (textBetweenPercents? pattern).map (.contains column) else none
  | .word column :: keyword :: .openParen :: rest =>
    if keyword.isKeyword "IN" then (members? rest).map (.oneOf column) else none
  | _ => none

def ofTokens (source : List Char) (tokens : List Token) : Predicate :=
  (ofKinds? (tokens.map (·.kind))).getD (.unsupported (sourceText source tokens))

end Predicate

def tableOfTokens? (tokens : List Token) : Option String :=
  tokens.head?.bind (·.kind.word?)

/-- A column, and the order that a word after it asks for; whatever else follows is skipped. -/
def OrderBy.ofTokens? (tokens : List Token) : Option OrderBy :=
  (tokens.head?.bind (·.kind.word?)).map fun column =>
    ⟨column, if tokens[1]?.any (·.kind.isKeyword "DESC") then .descending else .ascending⟩

def maxLimit : Nat := Nat.pow 2 64 - 1

/-- The digits before the point; a number beyond the greatest limit becomes that limit. -/
def limitOfNumber (digits : List Char) : UInt64 :=
  UInt64.ofNat (min maxLimit (Nat.ofDigitChars 10 (digits.takeWhile (· != '.')) 0))

def limitOfTokens? (tokens : List Token) : Option UInt64 :=
  (tokens.head?.bind (·.kind.number?)).map fun s => limitOfNumber s.toList

def dropSemicolons (tokens : List Token) : List Token :=
  (tokens.reverse.dropWhile (·.kind == .semicolon)).reverse

namespace Query

def ofTokens (source : List Char) (tokens : List Token) : Query where
  projection :=
    if (clauseBody? tokens .source).isSome then .ofTokens source (selectList tokens) else .unresolved
  table := (clauseBody? tokens .source).bind tableOfTokens?
  predicate := (clauseBody? tokens .filter).map (.ofTokens source)
  orderBy := (clauseBody? tokens .orderBy).bind OrderBy.ofTokens?
  limit := (clauseBody? tokens .limit).bind limitOfTokens?
  groupBy := (clauseBody? tokens .groupBy).isSome

def parse (s : String) : Except GrammarError Query :=
  let tokens := tokenize s
  if !tokens.head?.any (·.kind.isKeyword "SELECT") then .error .notSelect
  else if tokens.any (·.kind.mentionsJoin) then .error .joinUnsupported
  else .ok (ofTokens s.toList (dropSemicolons tokens))

end Query

end TableQuery
