import QueryTree.Grammar.Condition
import QueryTree.Statement

/-! # Reading statements

A query may leave its entity to a default given beside the text. Without a default a reserved word
names an entity, so that `FROM Order` is about the entity `Order`; with a default it does not.
-/

namespace QueryTree.Grammar

open Reader Trail Phrase

def sameWord (a b : String) : Bool := Token.foldCase a == Token.foldCase b

def isThis : Token → Bool
  | .identifier name => sameWord name "this"
  | _ => false

def refuseCount {α : Type} : Trail α := fail (.unexpected "count(this)" .loneCount)

/-- What follows the word `count`, which is a field unless `this` follows in parentheses. -/
def countOrField (word : String) : Trail (Option String) := do
  if ← accept (.mark .opening) then
    tokenAs (fun t => if isThis t then some () else none) .thisWord
    expect (.mark .closing)
    return none
  else
    return some word

/-- A field to select, or none for `count(this)`. -/
def selected : Phrase (Option String) :=
  path.andThen fun field =>
    if sameWord field "count" then countOrField field else return some field

/-- A field to select after other fields, where `count(this)` is out of place. -/
def furtherField : Phrase String :=
  selected.andThen fun
    | some field => return field
    | none => refuseCount

def selection : Trail (List String × Bool) := do
  if (← peek) = some (.keyword .from_) then return ([], false)
  if ← accept (.mark .star) then return ([], false)
  match ← selected with
  | none => if (← peek) = some (.mark .comma) then refuseCount else return ([], true)
  | some field =>
    if ← accept (.mark .comma) then
      return (field :: (← chain (.mark .comma) furtherField), false)
    else
      return ([field], false)

def givenEntity : Option String → Trail String
  | some name => pure name
  | none => fail .missingEntity

def entity (fallback : Option String) : Trail String
  | finished => givenEntity fallback finished
  | facing l ahead =>
    match l.token, fallback with
    | .identifier _, _ => (takeWord l ahead).loosen
    | .keyword .where_, _ => givenEntity fallback (facing l ahead)
    | .keyword _, none => (takeWord l ahead).loosen
    | .keyword _, some _ => givenEntity fallback (facing l ahead)
    | _, _ => .failed (.unexpected l.text .entityName) (facing l ahead)

def sortKey : Phrase SortKey :=
  path.andThen fun property => do
    if ← accept (.keyword .asc) then return ⟨property, true⟩
    else if ← accept (.keyword .desc) then return ⟨property, false⟩
    else return ⟨property, true⟩

def natural? : Token → Option Nat
  | .integer n => if 0 ≤ n then some n.toNat else none
  | _ => none

def rowCount : Phrase Nat := tokenAs natural? .rowCount

def assignment : Phrase Assignment :=
  path.andThen fun field => do
    expect (.mark .equal)
    return ⟨field, ← operand⟩

def sortClause : Trail (List SortKey) := do
  if ← accept (.keyword .order) then
    expect (.keyword .by_)
    chain (.mark .comma) sortKey
  else
    return []

/-- The number of rows after the word `k`; zero without that word. -/
def rowClause (k : Keyword) : Trail Nat := do
  if ← accept (.keyword k) then rowCount else return 0

def selectFrom (fallback : Option String) (fields : List String) (count : Bool) :
    Trail Statement := do
  let _ ← accept (.keyword .from_)
  let entity ← entity fallback
  let condition ← whereClause
  let sorts ← sortClause
  let skip ← rowClause .skip
  let limit ← rowClause .limit
  return .select { entity, fields, condition, sorts, limit, skip, count }

def selectStatement (fallback : Option String) : Trail Statement := do
  if ← accept (.keyword .select) then
    let (fields, count) ← selection
    selectFrom fallback fields count
  else
    selectFrom fallback [] false

def deletedFields : Trail (List String) := do
  if (← peek) = some (.keyword .from_) then return [] else chain (.mark .comma) path

def deleteStatement (fallback : Option String) : Trail Statement := do
  expect (.keyword .delete)
  let fields ← deletedFields
  expect (.keyword .from_)
  let entity ← entity fallback
  let condition ← whereClause
  return .delete { entity, fields, condition }

def updateStatement (fallback : Option String) : Trail Statement := do
  expect (.keyword .update)
  let entity ← entity fallback
  expect (.keyword .set_)
  let items ← chain (.mark .comma) assignment
  let condition ← whereClause
  return .update { entity, items, condition }

def statementOf (fallback : Option String) : StatementKind → Trail Statement
  | .select => selectStatement fallback
  | .delete => deleteStatement fallback
  | .update => updateStatement fallback

def kindOf? : Token → Option StatementKind
  | .keyword .select => some .select
  | .keyword .from_ => some .select
  | .keyword .delete => some .delete
  | .keyword .update => some .update
  | _ => none

abbrev Goal := Option StatementKind

def Goal.expectation : Goal → Expectation
  | none => .statement
  | some .select => .selectOrFrom
  | some .delete => .token (.keyword .delete)
  | some .update => .token (.keyword .update)

/-- A statement of the kind that its first token announces, if that kind is asked for. -/
def announced (goal : Goal) (fallback : Option String) : Trail Statement := do
  match (← peek).bind kindOf? with
  | some kind =>
    if goal.all (· = kind) then statementOf fallback kind else unexpected goal.expectation
  | none => unexpected goal.expectation

def query (goal : Goal) (fallback : Option String) : Trail Statement := do
  let statement ← announced goal fallback
  finish
  return statement

end QueryTree.Grammar
