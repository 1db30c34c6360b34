import QueryTree.Token.Cursor

/-! # Faults of a query -/

namespace QueryTree

inductive Expectation where
  | statement
  | selectOrFrom
  | token (t : Token)
  | endOfQuery
  | thisWord
  | loneCount
  | entityName
  | fieldName
  | rowCount
  | comparison
  | negatedComparison
  | operand
  | operandAfterName
  deriving DecidableEq

def Expectation.describe : Expectation → String
  | statement => "SELECT, FROM, DELETE or UPDATE"
  | selectOrFrom => "SELECT or FROM"
  | token t => t.fragment
  | endOfQuery => QueryTree.endOfQuery
  | thisWord => "this"
  | loneCount => "count(this) as the only selected field"
  | entityName => "an entity name"
  | fieldName => "a field name"
  | rowCount => "a non-negative integer"
  | comparison => "a comparison operator"
  | negatedComparison => "LIKE, IN or BETWEEN after NOT"
  | operand => "a literal, parameter or function call"
  | operandAfterName => "a literal, parameter, function call or Enum.CONSTANT"

inductive ParseFault where
  | unexpected (fragment : String) (expected : Expectation)
  | ended (expected : Expectation)
  | lexical (e : LexError)
  | missingEntity
  deriving DecidableEq

end QueryTree
