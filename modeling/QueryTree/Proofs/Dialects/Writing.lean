import QueryTree.Statement
import QueryTree.Token.Basic

/-! # Statements written as queries

A statement is written without parentheses: what it selects is left out unless the results are
counted, parameters are numbered, and every key is written with its direction. Only the statements
that need no parentheses are the statements of their queries.
-/

namespace QueryTree

def Operator.sign : Operator → String
  | equals => "="
  | notEquals => "<>"
  | greaterThan => ">"
  | greaterEqualsThan => ">="
  | lesserThan => "<"
  | lesserEqualsThan => "<="
  | op => op.name

def Param.written (p : Param) : String :=
  match p.position with
  | some n => "?" ++ n.repr
  | none => ":" ++ p.name

/-- Two bounds are written with `AND` between them. -/
def Operand.written : Operand → String
  | param p => p.written
  | list [low, high] => low.written ++ " AND " ++ high.written
  | v => v.render

namespace Condition

mutual

def written : Condition Operand → String
  | leaf field op v => field ++ " " ++ op.sign ++ " " ++ v.written
  | node .not cs => "NOT " ++ " ".intercalate (writtenAll cs)
  | node op cs => (" " ++ op.name ++ " ").intercalate (writtenAll cs)

def writtenAll : List (Condition Operand) → List String
  | [] => []
  | c :: rest => written c :: writtenAll rest

end

theorem writtenAll_eq_map (cs : List (Condition Operand)) : writtenAll cs = cs.map written := by
  induction cs with
  | nil => rfl
  | cons c rest ih => simp [writtenAll, ih]

theorem written_join {op : Operator} (h : op ≠ .not) (cs : List (Condition Operand)) :
    (join op cs).written = (" " ++ op.name ++ " ").intercalate (cs.map written) := by
  match cs with
  | [] => simp [join, written, writtenAll]
  | [c] => simp [join]
  | c :: d :: cs => simp only [join, written, writtenAll_eq_map]

variable {α : Type}

mutual

def operators : Condition α → List Operator
  | leaf _ op _ => [op]
  | node op cs => op :: operatorsAll cs

def operatorsAll : List (Condition α) → List Operator
  | [] => []
  | c :: rest => operators c ++ operatorsAll rest

end

mutual

def fields : Condition α → List String
  | leaf field _ _ => [field]
  | node _ cs => fieldsAll cs

def fieldsAll : List (Condition α) → List String
  | [] => []
  | c :: rest => fields c ++ fieldsAll rest

end

theorem operatorsAll_eq_flatMap (cs : List (Condition α)) :
    operatorsAll cs = cs.flatMap operators := by
  induction cs with
  | nil => rfl
  | cons c rest ih => simp [operatorsAll, ih]

theorem fieldsAll_eq_flatMap (cs : List (Condition α)) : fieldsAll cs = cs.flatMap fields := by
  induction cs with
  | nil => rfl
  | cons c rest ih => simp [fieldsAll, ih]

theorem eq_or_of_mem_join (op : Operator) {c : Condition α} {cs : List (Condition α)} (h : c ∈ cs) :
    join op cs = c ∨ join op cs = node op cs := by
  match cs with
  | [d] => exact .inl (List.mem_singleton.mp h).symm
  | _ :: _ :: _ => exact .inr rfl

theorem operators_subset_join (op : Operator) {c : Condition α} {cs : List (Condition α)}
    (h : c ∈ cs) : c.operators ⊆ (join op cs).operators := by
  rcases eq_or_of_mem_join op h with same | same
  · exact same ▸ List.Subset.refl _
  · rw [same, operators, operatorsAll_eq_flatMap]
    exact fun o ho => List.mem_cons_of_mem _ (List.mem_flatMap.mpr ⟨c, h, ho⟩)

theorem fields_subset_join (op : Operator) {c : Condition α} {cs : List (Condition α)}
    (h : c ∈ cs) : c.fields ⊆ (join op cs).fields := by
  rcases eq_or_of_mem_join op h with same | same
  · exact same ▸ List.Subset.refl _
  · rw [same, fields, fieldsAll_eq_flatMap]
    exact fun f hf => List.mem_flatMap.mpr ⟨c, h, hf⟩

end Condition

namespace SortKey

def direction (k : SortKey) : Keyword := if k.ascending then .asc else .desc

def written (k : SortKey) : String := k.property ++ " " ++ k.direction.name

end SortKey

namespace Statement

def writtenWhere (condition : Option (Condition Operand)) : String :=
  condition.elim "" fun c => " WHERE " ++ c.written

def writtenOrder (sorts : List SortKey) : String :=
  if sorts = [] then "" else " ORDER BY " ++ ", ".intercalate (sorts.map SortKey.written)

def writtenLimit (limit : Nat) : String := if limit = 0 then "" else " LIMIT " ++ limit.repr

def written : Statement → String
  | select q =>
    (if q.count then "SELECT count(this) " else "") ++ "FROM " ++ q.entity ++
      writtenWhere q.condition ++ writtenOrder q.sorts ++ writtenLimit q.limit
  | delete q => "DELETE FROM " ++ q.entity ++ writtenWhere q.condition
  | update q =>
    "UPDATE " ++ q.entity ++ " SET " ++
      ", ".intercalate (q.items.map fun a => a.field ++ " = " ++ a.value.written) ++
      writtenWhere q.condition

end Statement

end QueryTree
