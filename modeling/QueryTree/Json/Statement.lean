import QueryTree.Json.Basic
import QueryTree.Statement

/-! # Statements as JSON

The fields of every object stand in alphabetical order. Decimals are strings, so that no digit is
lost.
-/

namespace QueryTree

def Param.toJson (p : Param) : Json :=
  match p.position with
  | some n => .obj [("name", .str p.name), ("position", .num n)]
  | none => .obj [("name", .str p.name)]

mutual

def Operand.toJson : Operand → Json
  | .string s => .str s
  | .integer n => .num n
  | .decimal d => .obj [("decimal", .str d.render)]
  | .boolean b => .bool b
  | .null => .null
  | .enum path => .obj [("enum", .str path)]
  | .param p => .obj [("param", p.toJson)]
  | .list items => .arr (Operand.toJsonAll items)
  | .call name args =>
    .obj [("function", .obj [("args", .arr (Operand.toJsonAll args)), ("name", .str name)])]

def Operand.toJsonAll : List Operand → List Json
  | [] => []
  | v :: rest => v.toJson :: Operand.toJsonAll rest

end

mutual

def Condition.toJson : Condition Operand → Json
  | .leaf field op v =>
    .obj [("field", .str field), ("operator", .str op.name), ("value", v.toJson)]
  | .node op cs =>
    .obj [("conditions", .arr (Condition.toJsonAll cs)),
      ("field", .str (op.sentinel?.getD "_")), ("operator", .str op.name)]

def Condition.toJsonAll : List (Condition Operand) → List Json
  | [] => []
  | c :: rest => c.toJson :: Condition.toJsonAll rest

end

def SortKey.toJson (s : SortKey) : Json :=
  .obj [("direction", .str (if s.ascending then "ASC" else "DESC")), ("property", .str s.property)]

def Assignment.toJson (a : Assignment) : Json :=
  .obj [("field", .str a.field), ("value", a.value.toJson)]

namespace Statement

def whereJson (condition : Option (Condition Operand)) : Json :=
  (condition.map Condition.toJson).getD .null

def fieldsJson (fields : List String) : Json := .arr (fields.map .str)

def jsonFields : Statement → List (String × Json)
  | select q =>
    [("count", .bool q.count), ("entity", .str q.entity), ("fields", fieldsJson q.fields),
     ("limit", .num q.limit), ("skip", .num q.skip), ("sorts", .arr (q.sorts.map SortKey.toJson)),
     ("type", .str "select"), ("where", whereJson q.condition)]
  | delete q =>
    [("entity", .str q.entity), ("fields", fieldsJson q.fields), ("type", .str "delete"),
     ("where", whereJson q.condition)]
  | update q =>
    [("entity", .str q.entity), ("set", .arr (q.items.map Assignment.toJson)),
     ("type", .str "update"), ("where", whereJson q.condition)]

def toJson (s : Statement) : Json := .obj s.jsonFields

end Statement

/-- Puts a field where the alphabetical order of the keys asks for it. -/
def Json.insertField (key : String) (v : Json) : List (String × Json) → List (String × Json)
  | [] => [(key, v)]
  | f :: rest => if f.1 < key then f :: insertField key v rest else (key, v) :: f :: rest

end QueryTree
