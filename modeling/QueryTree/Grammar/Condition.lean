import QueryTree.Condition.Negation
import QueryTree.Grammar.Operand

/-! # Reading conditions

`OR` joins what `AND` joins, and `NOT` stands before a comparison or a condition in parentheses.
-/

namespace QueryTree.Grammar

open Reader Trail Phrase

def comparator? : Token → Option Operator
  | .mark .equal => some .equals
  | .mark .notEqual => some .notEquals
  | .mark .less => some .lesserThan
  | .mark .lessEqual => some .lesserEqualsThan
  | .mark .greater => some .greaterThan
  | .mark .greaterEqual => some .greaterEqualsThan
  | _ => none

/-- What follows a field: `LIKE v`, `IN (v, ...)` or `BETWEEN v AND v`. -/
def wordComparison (field : String) (expected : Expectation) : Trail (Condition Operand) := do
  if ← accept (.keyword .like) then
    return .leaf field .like (← operand)
  else if ← accept (.keyword .in_) then
    expect (.mark .opening)
    let items ← chain (.mark .comma) operand
    expect (.mark .closing)
    return .leaf field .in_ (.list items)
  else if ← accept (.keyword .between) then
    let low ← operand
    expect (.keyword .and)
    let high ← operand
    return .leaf field .between (.list [low, high])
  else
    unexpected expected

def comparisonOf (field : String) : Trail (Condition Operand) := do
  match ← acceptAs comparator? with
  | some op => return .leaf field op (← operand)
  | none =>
    if ← accept (.keyword .is) then
      let negated ← accept (.keyword .not)
      expect .null
      let c := Condition.eq field .null
      return if negated then c.not else c
    else if ← accept (.keyword .not) then
      return (← wordComparison field .negatedComparison).not
    else
      wordComparison field .comparison

def comparison : Phrase (Condition Operand) := path.andThen comparisonOf

section Nested

variable (n : Nat) (inner : (r : Reader) → r.size < n → Reading (Condition Operand) r.size)

def primaryWith (r : Reader) (h : r.size ≤ n) : Reading (Condition Operand) r.size :=
  match r.accept? (.mark .opening) with
  | none => comparison r
  | some taken =>
    taken.thenPhrase fun _ r₁ h₁ =>
      (inner r₁ (Nat.lt_of_lt_of_le h₁ h)).thenPhrase fun c r₂ _ =>
        (expect (.mark .closing) r₂).map fun _ => c

def negationWith (r : Reader) (h : r.size ≤ n) : Reading (Condition Operand) r.size :=
  match r.accept? (.keyword .not) with
  | none => primaryWith n inner r h
  | some taken =>
    taken.thenPhrase fun _ r₁ h₁ =>
      (primaryWith n inner r₁ (size_le_of_lt h₁ h)).map Condition.not

def conjunctionWith (r : Reader) (h : r.size ≤ n) : Reading (Condition Operand) r.size :=
  (chainWithin (.keyword .and) n (negationWith n inner) r h).map (Condition.join .and)

def disjunctionWith (r : Reader) (h : r.size ≤ n) : Reading (Condition Operand) r.size :=
  (chainWithin (.keyword .or) n (conjunctionWith n inner) r h).map (Condition.join .or)

end Nested

def condition : Phrase (Condition Operand) := fun r =>
  disjunctionWith r.size (fun r₁ _ => condition r₁) r (Nat.le_refl _)
termination_by r => r.size

def whereClause : Trail (Option (Condition Operand)) := do
  if ← accept (.keyword .where_) then
    return some (← condition).simplify
  else
    return none

end QueryTree.Grammar
