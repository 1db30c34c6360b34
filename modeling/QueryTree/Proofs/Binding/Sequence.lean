import QueryTree.Proofs.Binding.Fitting
import QueryTree.Proofs.Fallible

/-! # Binding part by part

An operand is bound exactly if everything that has to be looked up in it is found, a comparison
exactly if its operand is bound to a value that fits the operator.
-/

namespace QueryTree

namespace Operand

mutual

def paths : Operand → List String
  | enum path => [path]
  | list items => pathsAll items
  | call _ args => pathsAll args
  | _ => []

def pathsAll : List Operand → List String
  | [] => []
  | v :: rest => paths v ++ pathsAll rest

end

theorem pathsAll_eq_flatMap (items : List Operand) : pathsAll items = items.flatMap paths := by
  induction items with
  | nil => rfl
  | cons v rest ih => simp [pathsAll, ih]

end Operand

namespace Binder

variable (b : Binder)

section Equations

theorem values_cons (v : Operand) (rest : List Operand) :
    b.values (v :: rest) = (b.value v).bind fun w => (b.values rest).map (w :: ·) := by
  rw [values]
  cases b.value v <;> rfl

theorem leaf_eq (field : String) (op : Operator) (v : Operand) :
    b.leaf field op v = (b.value v).bind fun w =>
      (shapeError? field op w).elim (.ok (.leaf field op w)) .error := by
  unfold leaf
  cases b.value v with
  | error e => rfl
  | ok w =>
    simp only [Except.bind]
    cases shapeError? field op w <;> rfl

theorem conditions_cons (c : Condition Operand) (rest : List (Condition Operand)) :
    b.conditions (c :: rest) =
      (b.condition c).bind fun d => (b.conditions rest).map (d :: ·) := by
  rw [conditions]
  cases b.condition c <;> rfl

theorem assignments_cons (a : Assignment) (rest : List Assignment) :
    b.assignments (a :: rest) =
      (b.value a.value).bind fun v => (b.assignments rest).map ((a.field, v) :: ·) := by
  rw [assignments]
  cases b.value a.value <;> rfl

end Equations

section Operands

/-- The parameters have values and the enum paths name constants. -/
structure Knows (ps : List Param) (paths : List String) : Prop where
  params : ∀ p ∈ ps, ∃ w, b.params.get? p = some w
  constants : ∀ path ∈ paths, ∃ w, b.enum path = .ok w

theorem knows_append_iff {ps qs : List Param} {paths paths' : List String} :
    b.Knows (ps ++ qs) (paths ++ paths') ↔ b.Knows ps paths ∧ b.Knows qs paths' := by
  constructor
  · rintro ⟨bound, known⟩
    rw [List.forall_mem_append] at bound known
    exact ⟨⟨bound.1, known.1⟩, bound.2, known.2⟩
  · rintro ⟨⟨bound, known⟩, bound', known'⟩
    exact ⟨List.forall_mem_append.mpr ⟨bound, bound'⟩, List.forall_mem_append.mpr ⟨known, known'⟩⟩

theorem param_ok_iff (p : Param) :
    (∃ w, b.param p = .ok w) ↔ ∃ w, b.params.get? p = some w := by
  unfold param
  cases b.params.get? p <;> simp

mutual

theorem value_ok_iff : (v : Operand) → ((∃ w, b.value v = .ok w) ↔ b.Knows v.params v.paths)
  | .string _ | .integer _ | .decimal _ | .boolean _ | .null => by
    simp only [value, Except.ok.injEq, exists_eq', true_iff]
    exact ⟨List.forall_mem_nil _, List.forall_mem_nil _⟩
  | .enum path => by
    simp only [value, Operand.params, Operand.paths]
    exact ⟨fun known => ⟨List.forall_mem_nil _, by simpa using known⟩,
      fun known => known.constants path List.mem_cons_self⟩
  | .param p => by
    simp only [value, param_ok_iff, Operand.params, Operand.paths]
    exact ⟨fun bound => ⟨by simpa using bound, List.forall_mem_nil _⟩,
      fun known => known.params p List.mem_cons_self⟩
  | .list items => by
    rw [value, exists_map_eq_ok_iff]
    exact values_ok_iff items
  | .call name args => by
    rw [value, exists_map_eq_ok_iff]
    exact values_ok_iff args

theorem values_ok_iff : (vs : List Operand) →
    ((∃ ws, b.values vs = .ok ws) ↔ b.Knows (Operand.paramsAll vs) (Operand.pathsAll vs))
  | [] => by
    simp only [values, Except.ok.injEq, exists_eq', true_iff]
    exact ⟨List.forall_mem_nil _, List.forall_mem_nil _⟩
  | v :: rest => by
    rw [values_cons, exists_bind_map_eq_ok_iff, value_ok_iff v, values_ok_iff rest,
      Operand.paramsAll, Operand.pathsAll, knows_append_iff]

end

end Operands

section Conditions

theorem leaf_ok_iff {field : String} {op : Operator} {v : Operand} :
    (∃ d, b.leaf field op v = .ok d) ↔ ∃ w, b.value v = .ok w ∧ Fits op w := by
  rw [leaf_eq]
  cases b.value v with
  | error e => simp [Except.bind]
  | ok w =>
    have fits : shapeError? field op w = none ↔ Fits op w := shapeError?_eq_none_iff
    simp only [Except.ok.injEq, exists_eq_left', ← fits]
    cases h : shapeError? field op w <;> simp [Except.bind, h]

theorem assignments_ok_iff {items : List Assignment} :
    (∃ bound, b.assignments items = .ok bound) ↔ ∀ a ∈ items, ∃ w, b.value a.value = .ok w := by
  induction items with
  | nil => simp [assignments]
  | cons a rest ih =>
    rw [assignments_cons, exists_bind_map_eq_ok_iff, ih, List.forall_mem_cons]

end Conditions

end Binder

end QueryTree
