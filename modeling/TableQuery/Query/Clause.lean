import TableQuery.Query.Token

/-! # Clauses

A statement is split at the clause keywords outside parentheses. Of each kind of clause the first
keyword counts; a later one belongs to the body that it stands in.
-/
namespace TableQuery

inductive ClauseKind where
  | source
  | filter
  | groupBy
  | orderBy
  | limit
deriving DecidableEq

def ClauseKind.keywordLength : ClauseKind → Nat
  | groupBy | orderBy => 2
  | _ => 1

structure ClauseMark where
  kind : ClauseKind
  position : Nat
deriving DecidableEq

/-- A clause by positions among the tokens: its keyword, and its body from `start` up to `stop`. -/
structure ClauseSpan where
  kind : ClauseKind
  keyword : Nat
  start : Nat
  stop : Nat
deriving DecidableEq

namespace ClauseKind

def ofTokens? (t : Token) (rest : List Token) : Option ClauseKind :=
  let byFollows := rest.head?.any (·.kind.isKeyword "BY")
  if t.kind.isKeyword "FROM" then some source
  else if t.kind.isKeyword "WHERE" then some filter
  else if t.kind.isKeyword "LIMIT" then some limit
  else if t.kind.isKeyword "ORDER" && byFollows then some orderBy
  else if t.kind.isKeyword "GROUP" && byFollows then some groupBy
  else none

end ClauseKind

/-- The depth of parentheses after a token; one that closes nothing is without effect. -/
def depthAfter (depth : Nat) (t : Token) : Nat :=
  match t.kind with
  | .openParen => depth + 1
  | .closeParen => depth - 1
  | _ => depth

def clauseMarks (depth position : Nat) : List Token → List ClauseMark
  | [] => []
  | t :: rest =>
    let later := clauseMarks (depthAfter depth t) (position + 1) rest
    if depth = 0 then
      match ClauseKind.ofTokens? t rest with
      | some kind => ⟨kind, position⟩ :: later
      | none => later
    else later

def firstOfEachKind (seen : List ClauseKind) : List ClauseMark → List ClauseMark
  | [] => []
  | m :: ms =>
    if m.kind ∈ seen then firstOfEachKind seen ms
    else m :: firstOfEachKind (m.kind :: seen) ms

/-- Each body ends where the next keyword stands, the last one at `stop`. -/
def clauseSpans (stop : Nat) : List ClauseMark → List ClauseSpan
  | [] => []
  | m :: ms =>
    let next := (ms.head?.map (·.position)).getD stop
    ⟨m.kind, m.position, m.position + m.kind.keywordLength, next⟩ :: clauseSpans stop ms

def splitClauses (tokens : List Token) : List ClauseSpan :=
  clauseSpans tokens.length (firstOfEachKind [] (clauseMarks 0 1 tokens.tail))

namespace ClauseSpan

def body (span : ClauseSpan) (tokens : List Token) : List Token :=
  (tokens.drop span.start).take (span.stop - span.start)

end ClauseSpan

def clauseBody? (tokens : List Token) (kind : ClauseKind) : Option (List Token) :=
  ((splitClauses tokens).find? (·.kind = kind)).map (·.body tokens)

def selectList (tokens : List Token) : List Token :=
  let stop := ((splitClauses tokens).head?.map (·.keyword)).getD tokens.length
  (tokens.drop 1).take (stop - 1)

end TableQuery
