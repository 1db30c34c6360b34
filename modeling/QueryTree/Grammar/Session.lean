import QueryTree.Grammar.Statement

/-! # Parsing queries

A session holds a query while statements are read from it. A statement that cannot be read leaves
the session where the fault was met, and the next one is read from there. Nothing is read once the
query is cut off.
-/

namespace QueryTree

inductive ParseError where
  | emptyQuery
  | inQuery (fault : ParseFault) (query : String)
  deriving DecidableEq

namespace ParseError

/-- The text that could not be parsed, unless it was blank. -/
def query? : ParseError → Option String
  | emptyQuery => none
  | inQuery _ query => some query

def message : ParseError → String
  | emptyQuery => "query is empty"
  | inQuery (.unexpected fragment expected) query =>
    "unexpected '" ++ fragment ++ "', expected " ++ expected.describe ++ ", in query: " ++ query
  | inQuery (.ended expected) query =>
    "unexpected end of query, expected " ++ expected.describe ++ ", in query: " ++ query
  | inQuery (.lexical e) query => e.message ++ ", in query: " ++ query
  | inQuery .missingEntity query => "no entity given in query: " ++ query

end ParseError

structure Session where
  query : String
  fallback : Option String
  stand : Stand
  deriving DecidableEq

namespace Session

/-- A session faces the first lexeme of its query, so it starts with neither a blank text nor an
error. -/
def start (query : String) : Except ParseError Session :=
  if Text.allBlank query then .error .emptyQuery
  else
    match events query with
    | [] => .ok ⟨query, none, Reader.finished⟩
    | .lexeme l :: ahead => .ok ⟨query, none, Reader.facing l ahead⟩
    | .error e :: _ => .error (.inQuery (.lexical e) query)

def withEntity (s : Session) (name : String) : Session := { s with fallback := some name }

def parse (s : Session) (goal : Grammar.Goal) : Except ParseError Statement × Session :=
  match s.stand with
  | .cutOff .. => (.error (.inQuery (.ended goal.expectation) s.query), s)
  | .reader r =>
    match Grammar.query goal s.fallback r with
    | .read statement r _ => (.ok statement, { s with stand := r })
    | .failed fault stand => (.error (.inQuery fault s.query), { s with stand })

end Session

/-- The statement that a text consists of. Its entity may be left to `fallback`. -/
def parse (query : String) (fallback : Option String) : Except ParseError Statement :=
  match Session.start query with
  | .ok s => ({ s with fallback }.parse none).1
  | .error e => .error e

end QueryTree
