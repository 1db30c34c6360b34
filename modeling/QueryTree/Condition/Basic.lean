import QueryTree.Operand
import QueryTree.Operator

/-! # Conditions

Trees of comparisons. The values compared with are of any type: operands in a query, values once
its parameters are bound. Neither the number of children nor the operator of a node is restricted.
-/

namespace QueryTree

inductive Condition (α : Type) where
  | leaf (field : String) (op : Operator) (value : α)
  | node (op : Operator) (children : List (Condition α))

namespace Condition

variable {α : Type}

def eq (field : String) (value : α) : Condition α := leaf field .equals value

def not (child : Condition α) : Condition α := node .not [child]

def ignoreCase (child : Condition α) : Condition α := node .ignoreCase [child]

/-- A single condition stands for itself. -/
def join (op : Operator) : List (Condition α) → Condition α
  | [c] => c
  | cs => node op cs

def operator : Condition α → Operator
  | leaf _ op _ => op
  | node op _ => op

def children : Condition α → List (Condition α)
  | leaf .. => []
  | node _ cs => cs

/-- The field of a comparison, the sentinel of what joins conditions. -/
def name : Condition α → String
  | leaf field _ _ => field
  | node op _ => op.sentinel?.getD "_"

mutual

def values : Condition α → List α
  | leaf _ _ v => [v]
  | node _ cs => valuesAll cs

def valuesAll : List (Condition α) → List α
  | [] => []
  | c :: rest => values c ++ valuesAll rest

end

/-- The parameters from left to right, with repeats. -/
def params (c : Condition Operand) : List Param := c.values.flatMap Operand.params

mutual

def render : Condition Operand → String
  | leaf field op v => field ++ " " ++ op.name ++ " " ++ v.render
  | node op cs => op.name ++ "(" ++ ", ".intercalate (renderAll cs) ++ ")"

def renderAll : List (Condition Operand) → List String
  | [] => []
  | c :: rest => render c :: renderAll rest

end

mutual

def equiv : Condition Operand → Condition Operand → Bool
  | leaf f p v, leaf g q w => f == g && p == q && v.equiv w
  | node p cs, node q ds => p == q && equivAll cs ds
  | _, _ => false

def equivAll : List (Condition Operand) → List (Condition Operand) → Bool
  | [], [] => true
  | c :: cs, d :: ds => equiv c d && equivAll cs ds
  | _, _ => false

end

theorem valuesAll_eq_flatMap (cs : List (Condition α)) : valuesAll cs = cs.flatMap values := by
  induction cs with
  | nil => rfl
  | cons c rest ih => simp [valuesAll, ih]

theorem params_leaf (field : String) (op : Operator) (v : Operand) :
    (leaf field op v).params = v.params := by
  simp [params, values]

theorem params_node (op : Operator) (cs : List (Condition Operand)) :
    (node op cs).params = cs.flatMap params := by
  simp only [params, values, valuesAll_eq_flatMap, List.flatMap_assoc]
  rfl

theorem params_join (op : Operator) (cs : List (Condition Operand)) :
    (join op cs).params = cs.flatMap params := by
  match cs with
  | [] => rfl
  | [c] => simp [join]
  | c :: d :: cs => exact params_node op _

end Condition

end QueryTree
