import QueryTree.Decimal

/-! # Values

What operands stand for once the parameters have values and the enum constants are known.
-/

namespace QueryTree

inductive Value where
  | null
  | boolean (b : Bool)
  | integer (n : Int)
  | decimal (d : Decimal)
  | string (s : String)
  | enum (type constant : String)
  | list (items : List Value)
  | call (name : String) (args : List Value)

namespace Value

def isCollection : Value → Bool
  | list _ => true
  | _ => false

def typeName : Value → String
  | null => "null"
  | boolean _ => "boolean"
  | integer _ => "integer"
  | decimal _ => "decimal"
  | string _ => "string"
  | enum .. => "enum"
  | list _ => "array"
  | call .. => "function"

end Value

end QueryTree
