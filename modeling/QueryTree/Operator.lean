/-! # Operators of a condition -/

namespace QueryTree

inductive Operator where
  | equals | notEquals | greaterThan | greaterEqualsThan | lesserThan | lesserEqualsThan
  | like | in_ | between | contains | startsWith | endsWith
  | and | or | not | ignoreCase
  deriving DecidableEq

namespace Operator

def all : List Operator :=
  [equals, notEquals, greaterThan, greaterEqualsThan, lesserThan, lesserEqualsThan, like, in_,
   between, contains, startsWith, endsWith, and, or, not, ignoreCase]

def name : Operator → String
  | equals => "EQUALS"
  | notEquals => "NOT_EQUALS"
  | greaterThan => "GREATER_THAN"
  | greaterEqualsThan => "GREATER_EQUALS_THAN"
  | lesserThan => "LESSER_THAN"
  | lesserEqualsThan => "LESSER_EQUALS_THAN"
  | like => "LIKE"
  | in_ => "IN"
  | between => "BETWEEN"
  | contains => "CONTAINS"
  | startsWith => "STARTS_WITH"
  | endsWith => "ENDS_WITH"
  | and => "AND"
  | or => "OR"
  | not => "NOT"
  | ignoreCase => "IGNORE_CASE"

def ofName? (s : String) : Option Operator := all.find? (·.name = s)

/-- What stands in the place of a field where an operator joins whole conditions. -/
def sentinel? : Operator → Option String
  | and => some "_AND"
  | or => some "_OR"
  | not => some "_NOT"
  | ignoreCase => some "_IGNORE_CASE"
  | _ => none

theorem ofName?_name (op : Operator) : ofName? op.name = some op := by
  cases op <;> decide +kernel

end Operator

end QueryTree
