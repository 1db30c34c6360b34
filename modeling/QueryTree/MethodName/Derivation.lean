import QueryTree.MethodName.Property
import QueryTree.Statement
import QueryTree.Text.Dotted

/-! # Derivations

What a method name says: a verb, a bound on the number of results, the groups of segments that the
results have to meet, and their order. A derivation is turned into a statement by numbering the
parameters of its segments from one on.
-/

namespace QueryTree.MethodName

inductive Verb where
  | find | count | exists_ | delete
  deriving DecidableEq

inductive Terminal where
  | compare (op : Operator)
  | between
  | boolean (b : Bool)
  | null
  deriving DecidableEq

structure Segment where
  property : String
  negated : Bool
  ignoreCase : Bool
  terminal : Terminal
  deriving DecidableEq

/-- The segments of a group are met together, and one group is enough. -/
structure Derivation where
  verb : Verb
  limit : Nat
  groups : List (List Segment)
  sorts : List SortKey
  deriving DecidableEq

def Terminal.arity : Terminal → Nat
  | compare _ => 1
  | between => 2
  | boolean _ => 0
  | null => 0

namespace Segment

def field (s : Segment) : String := fieldOf s.property

/-- The parameter at a position is named after the last segment of the field. -/
def param (s : Segment) (position : Nat) : Operand :=
  .param (.indexed (Text.lastSegment s.field) position)

def leaf (s : Segment) (n : Nat) : Condition Operand :=
  match s.terminal with
  | .compare op => .leaf s.field op (s.param n)
  | .between => .leaf s.field .between (.list [s.param n, s.param (n + 1)])
  | .boolean b => .eq s.field (.boolean b)
  | .null => .eq s.field .null

def condition (s : Segment) (n : Nat) : Condition Operand :=
  let cased := if s.ignoreCase then (s.leaf n).ignoreCase else s.leaf n
  if s.negated then cased.not else cased

/-- The conditions of segments in a row, whose parameters are numbered from `n` on. -/
def conditions (n : Nat) : List Segment → List (Condition Operand)
  | [] => []
  | s :: rest => s.condition n :: conditions (n + s.terminal.arity) rest

def arity : List Segment → Nat
  | [] => 0
  | s :: rest => s.terminal.arity + arity rest

def groupConditions (n : Nat) : List (List Segment) → List (Condition Operand)
  | [] => []
  | g :: rest => .join .and (conditions n g) :: groupConditions (n + arity g) rest

end Segment

namespace Derivation

def condition (d : Derivation) : Option (Condition Operand) :=
  if d.groups = [] then none else some (.join .or (Segment.groupConditions 1 d.groups))

def statement (d : Derivation) (entity : String) : Statement :=
  match d.verb with
  | .delete => .delete { entity, fields := [], condition := d.condition }
  | verb =>
    .select
      { entity, fields := [], condition := d.condition, sorts := d.sorts, limit := d.limit,
        skip := 0, count := verb ≠ .find }

end Derivation

end QueryTree.MethodName
