import QueryTree.Json.Statement
import QueryTree.Proofs.Decimal

/-! # Statements are read back from their JSON

Every object that stands for a part of a statement is told apart by its keys, and a decimal is read
back from its text. So no two statements have the same JSON.
-/

namespace QueryTree

namespace Json

def str? : Json → Option String
  | str s => some s
  | _ => none

def nat? : Json → Option Nat
  | num n => if 0 ≤ n then some n.toNat else none
  | _ => none

end Json

section Operands

def Param.ofJson? : Json → Option Param
  | .obj [("name", .str name)] => some ⟨name, none⟩
  | .obj [("name", .str name), ("position", n)] => n.nat?.map fun n => ⟨name, some n⟩
  | _ => none

mutual

def Operand.ofJson? : Json → Option Operand
  | .str s => some (.string s)
  | .num n => some (.integer n)
  | .bool b => some (.boolean b)
  | .null => some .null
  | .arr items => (Operand.ofJsonAll? items).map .list
  | .obj [("decimal", .str s)] => (Decimal.ofString? s).map .decimal
  | .obj [("enum", .str path)] => some (.enum path)
  | .obj [("param", p)] => (Param.ofJson? p).map .param
  | .obj [("function", .obj [("args", .arr args), ("name", .str name)])] =>
    (Operand.ofJsonAll? args).map (.call name)
  | _ => none

def Operand.ofJsonAll? : List Json → Option (List Operand)
  | [] => some []
  | v :: rest => (Operand.ofJson? v).bind fun a => (Operand.ofJsonAll? rest).map (a :: ·)

end

theorem Param.ofJson?_toJson (p : Param) : Param.ofJson? p.toJson = some p := by
  obtain ⟨name, position⟩ := p
  cases position <;> rfl

mutual

theorem Operand.ofJson?_toJson (v : Operand) : Operand.ofJson? v.toJson = some v := by
  cases v with
  | string s => rw [toJson, ofJson?]
  | integer n => rw [toJson, ofJson?]
  | decimal d => rw [toJson, ofJson?, d.ofString?_render, Option.map_some]
  | boolean b => rw [toJson, ofJson?]
  | null => rw [toJson, ofJson?]
  | enum path => rw [toJson, ofJson?]
  | param p => rw [toJson, ofJson?, p.ofJson?_toJson, Option.map_some]
  | list items => rw [toJson, ofJson?, Operand.ofJsonAll?_toJsonAll items, Option.map_some]
  | call name args => rw [toJson, ofJson?, Operand.ofJsonAll?_toJsonAll args, Option.map_some]

theorem Operand.ofJsonAll?_toJsonAll (vs : List Operand) :
    Operand.ofJsonAll? (Operand.toJsonAll vs) = some vs := by
  cases vs with
  | nil => rw [toJsonAll, ofJsonAll?]
  | cons v rest =>
    rw [toJsonAll, ofJsonAll?, v.ofJson?_toJson, Operand.ofJsonAll?_toJsonAll rest]
    rfl

end

end Operands

section Conditions

mutual

/-- The condition that a JSON value stands for. The field of a node says nothing more than its
operator. -/
def Condition.ofJson? : Json → Option (Condition Operand)
  | .obj [("field", .str field), ("operator", .str op), ("value", v)] =>
    (Operator.ofName? op).bind fun op => (Operand.ofJson? v).map fun v => .leaf field op v
  | .obj [("conditions", .arr cs), ("field", _), ("operator", .str op)] =>
    (Operator.ofName? op).bind fun op => (Condition.ofJsonAll? cs).map fun cs => .node op cs
  | _ => none

def Condition.ofJsonAll? : List Json → Option (List (Condition Operand))
  | [] => some []
  | c :: rest => (Condition.ofJson? c).bind fun a => (Condition.ofJsonAll? rest).map (a :: ·)

end

mutual

theorem Condition.ofJson?_toJson (c : Condition Operand) : Condition.ofJson? c.toJson = some c := by
  cases c with
  | leaf field op v =>
    rw [toJson, ofJson?, Operator.ofName?_name, v.ofJson?_toJson]
    rfl
  | node op cs =>
    rw [toJson, ofJson?, Operator.ofName?_name, Condition.ofJsonAll?_toJsonAll cs]
    rfl

theorem Condition.ofJsonAll?_toJsonAll (cs : List (Condition Operand)) :
    Condition.ofJsonAll? (Condition.toJsonAll cs) = some cs := by
  cases cs with
  | nil => rw [toJsonAll, ofJsonAll?]
  | cons c rest =>
    rw [toJsonAll, ofJsonAll?, c.ofJson?_toJson, Condition.ofJsonAll?_toJsonAll rest]
    rfl

end

end Conditions

theorem mapM_map_eq_some {α β : Type} {write : α → β} {read : β → Option α}
    (inverse : ∀ a, read (write a) = some a) (as : List α) :
    (as.map write).mapM read = some as := by
  have same : read ∘ write = fun a => pure a := funext inverse
  rw [List.mapM_map, same, List.mapM_pure, List.map_id']
  rfl

def SortKey.ofJson? : Json → Option SortKey
  | .obj [("direction", .str "ASC"), ("property", .str property)] => some ⟨property, true⟩
  | .obj [("direction", .str "DESC"), ("property", .str property)] => some ⟨property, false⟩
  | _ => none

theorem SortKey.ofJson?_toJson (k : SortKey) : SortKey.ofJson? k.toJson = some k := by
  obtain ⟨property, ascending⟩ := k
  cases ascending <;> rfl

def Assignment.ofJson? : Json → Option Assignment
  | .obj [("field", .str field), ("value", v)] => (Operand.ofJson? v).map fun v => ⟨field, v⟩
  | _ => none

theorem Assignment.ofJson?_toJson (a : Assignment) : Assignment.ofJson? a.toJson = some a := by
  rw [toJson, ofJson?, a.value.ofJson?_toJson]
  rfl

namespace Statement

def conditionOf? : Json → Option (Option (Condition Operand))
  | .null => some none
  | c => (Condition.ofJson? c).map some

/-- A condition is never taken for a missing one. -/
theorem conditionOf?_whereJson (condition : Option (Condition Operand)) :
    conditionOf? (whereJson condition) = some condition := by
  cases condition with
  | none => rfl
  | some c =>
    rw [whereJson, Option.map_some, Option.getD_some, conditionOf?, c.ofJson?_toJson,
      Option.map_some]
    cases c <;> simp [Condition.toJson]

def ofJson? : Json → Option Statement
  | .obj [("count", .bool count), ("entity", .str entity), ("fields", .arr fields), ("limit", limit),
      ("skip", skip), ("sorts", .arr sorts), ("type", .str "select"), ("where", condition)] => do
    let fields ← fields.mapM Json.str?
    let condition ← conditionOf? condition
    let sorts ← sorts.mapM SortKey.ofJson?
    let limit ← limit.nat?
    let skip ← skip.nat?
    return .select { entity, fields, condition, sorts, limit, skip, count }
  | .obj [("entity", .str entity), ("fields", .arr fields), ("type", .str "delete"),
      ("where", condition)] => do
    let fields ← fields.mapM Json.str?
    let condition ← conditionOf? condition
    return .delete { entity, fields, condition }
  | .obj [("entity", .str entity), ("set", .arr items), ("type", .str "update"),
      ("where", condition)] => do
    let items ← items.mapM Assignment.ofJson?
    let condition ← conditionOf? condition
    return .update { entity, items, condition }
  | _ => none

theorem ofJson?_toJson (s : Statement) : ofJson? s.toJson = some s := by
  have strings (fields : List String) : (fields.map Json.str).mapM Json.str? = some fields := by
    apply mapM_map_eq_some
    intro field
    rfl
  have number (n : Nat) : (Json.num n).nat? = some n := by simp [Json.nat?]
  cases s with
  | select q =>
    simp [toJson, jsonFields, fieldsJson, ofJson?, strings, number, conditionOf?_whereJson,
      mapM_map_eq_some SortKey.ofJson?_toJson]
  | delete q =>
    simp [toJson, jsonFields, fieldsJson, ofJson?, strings, conditionOf?_whereJson]
  | update q =>
    simp [toJson, jsonFields, ofJson?, conditionOf?_whereJson,
      mapM_map_eq_some Assignment.ofJson?_toJson]

end Statement

/-- JSON loses nothing: every statement is read back from its JSON, so statements with the same JSON
are the same. -/
theorem statements_read_back :
    (∀ s : Statement, Statement.ofJson? s.toJson = some s) ∧
      ∀ s s' : Statement, s.toJson = s'.toJson → s = s' := by
  constructor
  · exact Statement.ofJson?_toJson
  · intro s s' same
    have read := s.ofJson?_toJson
    rw [same, s'.ofJson?_toJson] at read
    exact (Option.some.inj read).symm

/-- Decimals of one value and two scales have two JSON values. -/
theorem statements_read_back_scale :
    let update (d : Decimal) : Statement := .update ⟨"a", [⟨"b", .decimal d⟩], none⟩
    (update ⟨false, 10, 1, by decide, by decide, by decide⟩).toJson ≠
      (update ⟨false, 100, 2, by decide, by decide, by decide⟩).toJson := by
  intro update same
  have collapsed := statements_read_back.2 _ _ same
  simp [update] at collapsed

end QueryTree
