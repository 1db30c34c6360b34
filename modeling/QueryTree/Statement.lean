import QueryTree.Condition.Basic

/-! # Statements

What a query asks for: to select, delete or update the instances of an entity.
-/

namespace QueryTree

structure SortKey where
  property : String
  ascending : Bool
  deriving DecidableEq

/-- Without fields whole instances are selected. A `limit` of zero stands for none. -/
structure Select where
  entity : String
  fields : List String
  condition : Option (Condition Operand)
  sorts : List SortKey
  limit : Nat
  skip : Nat
  count : Bool

structure Delete where
  entity : String
  fields : List String
  condition : Option (Condition Operand)

structure Assignment where
  field : String
  value : Operand

structure Update where
  entity : String
  items : List Assignment
  condition : Option (Condition Operand)

inductive Statement where
  | select (q : Select)
  | delete (q : Delete)
  | update (q : Update)

inductive StatementKind where
  | select | delete | update
  deriving DecidableEq

def StatementKind.name : StatementKind → String
  | select => "SELECT"
  | delete => "DELETE"
  | update => "UPDATE"

def Assignment.equiv (a b : Assignment) : Bool := a.field == b.field && a.value.equiv b.value

namespace Statement

def kind : Statement → StatementKind
  | select _ => .select
  | delete _ => .delete
  | update _ => .update

def entity : Statement → String
  | select q => q.entity
  | delete q => q.entity
  | update q => q.entity

def condition : Statement → Option (Condition Operand)
  | select q => q.condition
  | delete q => q.condition
  | update q => q.condition

def assignments : Statement → List Assignment
  | update q => q.items
  | _ => []

def params (s : Statement) : List Param :=
  s.assignments.flatMap (·.value.params) ++ (s.condition.map Condition.params).getD []

def ofCondition (entity : String) (condition : Option (Condition Operand)) : Statement :=
  select { entity, fields := [], condition, sorts := [], limit := 0, skip := 0, count := false }

def equivCondition : Option (Condition Operand) → Option (Condition Operand) → Bool
  | none, none => true
  | some c, some d => c.equiv d
  | _, _ => false

def equivAssignments : List Assignment → List Assignment → Bool
  | [], [] => true
  | a :: as, b :: bs => a.equiv b && equivAssignments as bs
  | _, _ => false

def equiv : Statement → Statement → Bool
  | select a, select b =>
    a.entity == b.entity && a.fields == b.fields && equivCondition a.condition b.condition &&
      a.sorts == b.sorts && a.limit == b.limit && a.skip == b.skip && a.count == b.count
  | delete a, delete b =>
    a.entity == b.entity && a.fields == b.fields && equivCondition a.condition b.condition
  | update a, update b =>
    a.entity == b.entity && equivAssignments a.items b.items &&
      equivCondition a.condition b.condition
  | _, _ => false

end Statement

end QueryTree
