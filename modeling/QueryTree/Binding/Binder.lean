import QueryTree.Binding.Enums
import QueryTree.Binding.Params

/-! # Binding conditions and assignments

Parameters are replaced by their values and enum paths by constants. Then `IN` needs a collection,
`BETWEEN` one of two bounds, and every other operator a single value. The leftmost fault is
reported.
-/

namespace QueryTree

inductive BindError where
  | unboundParameter (name : String)
  | expectedCollection (field : String) (op : Operator) (found : String)
  | expectedScalar (field : String) (op : Operator)
  | betweenArity (field : String) (found : Nat)
  | unknownEnum (path : String)
  deriving DecidableEq

def BindError.message : BindError → String
  | unboundParameter name => "parameter '" ++ name ++ "' is not bound"
  | expectedCollection field op found =>
    op.name ++ " on '" ++ field ++ "' expects a collection, got " ++ found
  | expectedScalar field op =>
    op.name ++ " on '" ++ field ++ "' expects a single value, got a collection"
  | betweenArity field found =>
    "BETWEEN on '" ++ field ++ "' expects two bounds, got " ++ found.repr
  | unknownEnum path => "unknown enum constant '" ++ path ++ "'"

/-- Without a registry every enum constant is taken to exist. -/
structure Binder where
  params : Params
  enums : Option EnumRegistry

namespace Binder

def param (b : Binder) (p : Param) : Except BindError Value :=
  match b.params.get? p with
  | some v => .ok v
  | none => .error (.unboundParameter p.name)

def enum (b : Binder) (path : String) : Except BindError Value :=
  let constant :=
    match b.enums with
    | some registry => registry.resolve? path
    | none => Value.ofEnumPath? path
  match constant with
  | some v => .ok v
  | none => .error (.unknownEnum path)

mutual

def value (b : Binder) : Operand → Except BindError Value
  | .string s => .ok (.string s)
  | .integer n => .ok (.integer n)
  | .decimal d => .ok (.decimal d)
  | .boolean x => .ok (.boolean x)
  | .null => .ok .null
  | .enum path => b.enum path
  | .param p => b.param p
  | .list items => (b.values items).map .list
  | .call name args => (b.values args).map (.call name)

def values (b : Binder) : List Operand → Except BindError (List Value)
  | [] => .ok []
  | v :: rest =>
    match b.value v with
    | .error e => .error e
    | .ok w => (b.values rest).map (w :: ·)

end

def shapeError? (field : String) : Operator → Value → Option BindError
  | .in_, .list _ => none
  | .in_, v => some (.expectedCollection field .in_ v.typeName)
  | .between, .list bounds =>
    if bounds.length = 2 then none else some (.betweenArity field bounds.length)
  | .between, v => some (.expectedCollection field .between v.typeName)
  | op, v => if v.isCollection then some (.expectedScalar field op) else none

def leaf (b : Binder) (field : String) (op : Operator) (v : Operand) :
    Except BindError (Condition Value) :=
  match b.value v with
  | .error e => .error e
  | .ok w =>
    match shapeError? field op w with
    | some e => .error e
    | none => .ok (.leaf field op w)

mutual

def condition (b : Binder) : Condition Operand → Except BindError (Condition Value)
  | .leaf field op v => b.leaf field op v
  | .node op cs => (b.conditions cs).map (.node op)

def conditions (b : Binder) : List (Condition Operand) → Except BindError (List (Condition Value))
  | [] => .ok []
  | c :: rest =>
    match b.condition c with
    | .error e => .error e
    | .ok d => (b.conditions rest).map (d :: ·)

end

def assignments (b : Binder) : List Assignment → Except BindError (List (String × Value))
  | [] => .ok []
  | a :: rest =>
    match b.value a.value with
    | .error e => .error e
    | .ok v => (b.assignments rest).map ((a.field, v) :: ·)

end Binder

end QueryTree
