import QueryTree.Decimal
import QueryTree.Param
import QueryTree.Text.Quoted

/-! # Operands

Values as they stand in a query, before parameters have values and enum constants are looked up.
-/

namespace QueryTree

inductive Operand where
  | string (s : String)
  | integer (n : Int)
  | decimal (d : Decimal)
  | boolean (b : Bool)
  | null
  | enum (path : String)
  | param (p : Param)
  | list (items : List Operand)
  | call (name : String) (args : List Operand)

namespace Operand

mutual

def params : Operand → List Param
  | param p => [p]
  | list items => paramsAll items
  | call _ args => paramsAll args
  | _ => []

def paramsAll : List Operand → List Param
  | [] => []
  | v :: rest => params v ++ paramsAll rest

end

mutual

def render : Operand → String
  | string s => Text.quoted s
  | integer n => n.repr
  | decimal d => d.render
  | boolean true => "TRUE"
  | boolean false => "FALSE"
  | null => "NULL"
  | enum path => path
  | param p => p.render
  | list items => "(" ++ ", ".intercalate (renderAll items) ++ ")"
  | call name args => name ++ "(" ++ ", ".intercalate (renderAll args) ++ ")"

def renderAll : List Operand → List String
  | [] => []
  | v :: rest => render v :: renderAll rest

end

mutual

def equiv : Operand → Operand → Bool
  | string a, string b => a == b
  | integer a, integer b => a == b
  | decimal a, decimal b => a.equiv b
  | boolean a, boolean b => a == b
  | null, null => true
  | enum a, enum b => a == b
  | param a, param b => a == b
  | list as, list bs => equivAll as bs
  | call f as, call g bs => f == g && equivAll as bs
  | _, _ => false

def equivAll : List Operand → List Operand → Bool
  | [], [] => true
  | a :: as, b :: bs => equiv a b && equivAll as bs
  | _, _ => false

end

theorem paramsAll_eq_flatMap (items : List Operand) : paramsAll items = items.flatMap params := by
  induction items with
  | nil => rfl
  | cons v rest ih => simp [paramsAll, ih]

theorem renderAll_eq_map (items : List Operand) : renderAll items = items.map render := by
  induction items with
  | nil => rfl
  | cons v rest ih => simp [renderAll, ih]

end Operand

end QueryTree
