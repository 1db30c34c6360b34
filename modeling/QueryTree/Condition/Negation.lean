import QueryTree.Condition.Basic

/-! # Negated comparisons

`simplify` turns the negation of "differs" into "equals"; `desugar` turns "differs" into the
negation of "equals". Both go through the whole tree and leave everything else as it is.
-/

namespace QueryTree.Condition

variable {α : Type}

def simplifyNode (op : Operator) (children : List (Condition α)) : Condition α :=
  match op, children with
  | .not, [leaf field .notEquals v] => leaf field .equals v
  | _, _ => node op children

mutual

def simplify : Condition α → Condition α
  | leaf field op v => leaf field op v
  | node op cs => simplifyNode op (simplifyAll cs)

def simplifyAll : List (Condition α) → List (Condition α)
  | [] => []
  | c :: rest => simplify c :: simplifyAll rest

end

mutual

def desugar : Condition α → Condition α
  | leaf field .notEquals v => not (leaf field .equals v)
  | leaf field op v => leaf field op v
  | node op cs => node op (desugarAll cs)

def desugarAll : List (Condition α) → List (Condition α)
  | [] => []
  | c :: rest => desugar c :: desugarAll rest

end

theorem simplifyAll_eq_map (cs : List (Condition α)) : simplifyAll cs = cs.map simplify := by
  induction cs with
  | nil => rfl
  | cons c rest ih => simp [simplifyAll, ih]

theorem desugarAll_eq_map (cs : List (Condition α)) : desugarAll cs = cs.map desugar := by
  induction cs with
  | nil => rfl
  | cons c rest ih => simp [desugarAll, ih]

end QueryTree.Condition
