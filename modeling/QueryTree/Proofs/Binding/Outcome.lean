import QueryTree.Proofs.Binding.Fitting
import QueryTree.Proofs.Binding.Sequence
import QueryTree.Proofs.Condition.Comparisons

/-! # The outcome of binding

The outcome is that of looking up what an operand refers to, from left to right, and then checking
the shape of the value, comparison by comparison. The first fault is reported. Without one the
result is the same tree over the values that have been found.
-/

namespace QueryTree

inductive Reference where
  | param (p : Param)
  | path (path : String)

namespace Operand

mutual

/-- The parameters and enum paths from left to right, with repeats. -/
def references : Operand → List Reference
  | param p => [.param p]
  | enum path => [.path path]
  | list items => referencesAll items
  | call _ args => referencesAll args
  | _ => []

def referencesAll : List Operand → List Reference
  | [] => []
  | v :: rest => references v ++ referencesAll rest

end

mutual

/-- Every parameter is replaced by its value and every enum path by its last two segments, with
`null` for what is not found. -/
def filled (params : Params) : Operand → Value
  | string s => .string s
  | integer n => .integer n
  | decimal d => .decimal d
  | boolean x => .boolean x
  | null => .null
  | enum path => (Value.ofEnumPath? path).getD .null
  | param p => (params.get? p).getD .null
  | list items => .list (filledAll params items)
  | call name args => .call name (filledAll params args)

def filledAll (params : Params) : List Operand → List Value
  | [] => []
  | v :: rest => filled params v :: filledAll params rest

end

theorem filledAll_eq_map (params : Params) (vs : List Operand) :
    filledAll params vs = vs.map (filled params) := by
  induction vs with
  | nil => rfl
  | cons v rest ih => rw [filledAll, ih, List.map_cons]

mutual

theorem mem_references_iff {r : Reference} : (v : Operand) →
    (r ∈ v.references ↔ (∃ p ∈ v.params, r = .param p) ∨ ∃ path ∈ v.paths, r = .path path)
  | .string _ | .integer _ | .decimal _ | .boolean _ | .null => by
    simp [references, params, paths]
  | .enum path => by
    simp [references, params, paths]
  | .param p => by
    simp [references, params, paths]
  | .list items => by
    rw [references, params, paths, mem_referencesAll_iff items]
  | .call name args => by
    rw [references, params, paths, mem_referencesAll_iff args]

theorem mem_referencesAll_iff {r : Reference} : (vs : List Operand) →
    (r ∈ referencesAll vs ↔
      (∃ p ∈ paramsAll vs, r = .param p) ∨ ∃ path ∈ pathsAll vs, r = .path path)
  | [] => by
    simp [referencesAll, paramsAll, pathsAll]
  | v :: rest => by
    simp only [referencesAll, paramsAll, pathsAll, List.mem_append, mem_references_iff v,
      mem_referencesAll_iff rest, or_and_right, exists_or]
    exact or_or_or_comm

end

theorem param_mem_references_iff {v : Operand} {p : Param} :
    .param p ∈ v.references ↔ p ∈ v.params := by
  simp [mem_references_iff]

theorem path_mem_references_iff {v : Operand} {path : String} :
    .path path ∈ v.references ↔ path ∈ v.paths := by
  simp [mem_references_iff]

end Operand

namespace Binder

variable (b : Binder)

section Operands

def constant? (path : String) : Option Value :=
  b.enums.elim (Value.ofEnumPath? path) (·.resolve? path)

def missing? : Reference → Option BindError
  | .param p => if (b.params.get? p).isNone then some (.unboundParameter p.name) else none
  | .path path => if (b.constant? path).isNone then some (.unknownEnum path) else none

/-- A registry knows constants by the last two segments of their paths. -/
theorem ofEnumPath?_of_resolve? {registry : EnumRegistry} {path : String} {w : Value}
    (h : registry.resolve? path = some w) : Value.ofEnumPath? path = some w := by
  unfold EnumRegistry.resolve? at h
  split at h
  · cases h
  · next type constant found =>
    rw [Value.ofEnumPath?, found]
    grind

theorem param_eq (p : Param) :
    b.param p = settle (b.missing? (.param p)) ((b.params.get? p).getD .null) := by
  cases found : b.params.get? p <;> simp [param, missing?, settle, found]

theorem ofEnumPath?_of_constant? {path : String} {w : Value} (h : b.constant? path = some w) :
    Value.ofEnumPath? path = some w := by
  unfold constant? at h
  cases given : b.enums with
  | none => rwa [given] at h
  | some registry =>
    rw [given] at h
    exact ofEnumPath?_of_resolve? h

theorem enum_eq (path : String) :
    b.enum path = settle (b.missing? (.path path)) ((Value.ofEnumPath? path).getD .null) := by
  have looked : b.enum path = (b.constant? path).elim (.error (.unknownEnum path)) .ok := by
    unfold enum constant?
    cases b.enums with
    | none => cases Value.ofEnumPath? path <;> rfl
    | some registry => cases found : registry.resolve? path <;> simp [found]
  rw [looked, missing?]
  cases found : b.constant? path with
  | none => rfl
  | some w =>
    rw [b.ofEnumPath?_of_constant? found]
    rfl

mutual

theorem value_eq : (v : Operand) →
    b.value v = settle (v.references.findSome? b.missing?) (v.filled b.params)
  | .string _ | .integer _ | .decimal _ | .boolean _ | .null => rfl
  | .enum path => by
    simp [value, enum_eq, Operand.references, Operand.filled]
  | .param p => by
    simp [value, param_eq, Operand.references, Operand.filled]
  | .list items => by
    rw [value, values_eq items, map_settle, Operand.references, Operand.filled]
  | .call name args => by
    rw [value, values_eq args, map_settle, Operand.references, Operand.filled]

theorem values_eq : (vs : List Operand) →
    b.values vs =
      settle ((Operand.referencesAll vs).findSome? b.missing?) (Operand.filledAll b.params vs)
  | [] => rfl
  | v :: rest => by
    rw [values_cons, value_eq v, values_eq rest, bind_settle, Operand.referencesAll,
      List.findSome?_append, Operand.filledAll]

end

theorem assignments_eq (items : List Assignment) :
    b.assignments items =
      settle ((items.flatMap (·.value.references)).findSome? b.missing?)
        (items.map fun a => (a.field, a.value.filled b.params)) := by
  induction items with
  | nil => rfl
  | cons a rest ih =>
    rw [assignments_cons, value_eq, ih, bind_settle, List.flatMap_cons, List.findSome?_append,
      List.map_cons]

end Operands

section Conditions

/-- The first thing that keeps a comparison from being bound. -/
def fault? (x : Comparison Operand) : Option BindError :=
  (x.value.references.findSome? b.missing?).or
    (shapeError? x.field x.operator (x.value.filled b.params))

theorem condition_comparison (x : Comparison Operand) :
    b.condition x.condition = settle (b.fault? x) (x.condition.map (Operand.filled b.params)) := by
  rw [Comparison.condition, condition, leaf_eq, value_eq, fault?]
  cases x.value.references.findSome? b.missing? <;> rfl

theorem comparison_bound_iff {x : Comparison Operand} :
    (∃ d, b.condition x.condition = .ok d) ↔ b.fault? x = none := by
  rw [condition_comparison, exists_settle_eq_ok_iff]

theorem comparison_faulty_iff {x : Comparison Operand} {e : BindError} :
    b.condition x.condition = .error e ↔ b.fault? x = some e := by
  rw [condition_comparison, settle_eq_error_iff]

mutual

/-- The values of a condition are filled unless there is a fault in a comparison. -/
theorem condition_eq : (c : Condition Operand) →
    b.condition c = settle (c.comparisons.findSome? b.fault?) (c.map (Operand.filled b.params))
  | .leaf field op v => by
    rw [Condition.comparisons, List.findSome?_singleton]
    exact b.condition_comparison ⟨field, op, v⟩
  | .node op cs => by
    rw [condition, conditions_eq cs, map_settle, Condition.comparisons, Condition.map]

theorem conditions_eq : (cs : List (Condition Operand)) →
    b.conditions cs = settle ((Condition.comparisonsAll cs).findSome? b.fault?)
      (Condition.mapAll (Operand.filled b.params) cs)
  | [] => rfl
  | c :: rest => by
    rw [conditions_cons, condition_eq c, conditions_eq rest, bind_settle, Condition.comparisonsAll,
      List.findSome?_append, Condition.mapAll]

end

theorem condition_bound_iff {c : Condition Operand} :
    (∃ d, b.condition c = .ok d) ↔ ∀ x ∈ c.comparisons, ∃ d, b.condition x.condition = .ok d := by
  simp only [comparison_bound_iff]
  rw [condition_eq, exists_settle_eq_ok_iff, List.findSome?_eq_none_iff]

theorem condition_ok_iff {c : Condition Operand} :
    (∃ d, b.condition c = .ok d) ↔
      ∀ field op v, .leaf field op v ∈ c.parts → ∃ d, b.leaf field op v = .ok d := by
  rw [condition_bound_iff]
  constructor
  · intro bound field op v mem
    exact bound ⟨field, op, v⟩ (Condition.condition_mem_parts_iff.mp mem)
  · intro bound x mem
    exact bound x.field x.operator x.value (Condition.condition_mem_parts_iff.mpr mem)

/-- The leftmost comparison that is not bound on its own decides on the error. -/
theorem condition_error_iff {c : Condition Operand} {e : BindError} :
    b.condition c = .error e ↔
      ∃ before x after, c.comparisons = before ++ x :: after ∧
        (∀ y ∈ before, ∃ d, b.condition y.condition = .ok d) ∧
        b.condition x.condition = .error e := by
  simp only [comparison_bound_iff, comparison_faulty_iff]
  rw [condition_eq, settle_eq_error_iff, List.findSome?_eq_some_iff]
  simp only [and_comm]

theorem comparison_error_iff {x : Comparison Operand} {e : BindError} :
    b.condition x.condition = .error e ↔
      x.value.references.findSome? b.missing? = some e ∨
        x.value.references.findSome? b.missing? = none ∧
          Misfit x.field x.operator (x.value.filled b.params) e := by
  rw [comparison_faulty_iff, fault?, Option.or_eq_some_iff, shapeError?_eq_some_iff]

theorem fault?_eq_none_iff {x : Comparison Operand} :
    b.fault? x = none ↔
      b.Knows x.value.params x.value.paths ∧ Fits x.operator (x.value.filled b.params) := by
  rw [fault?, Option.or_eq_none_iff, shapeError?_eq_none_iff, ← value_ok_iff, value_eq,
    exists_settle_eq_ok_iff]

/-- What is bound is the same tree, in which everything has been found and every value fits. -/
theorem condition_eq_ok_iff {c : Condition Operand} {d : Condition Value} :
    b.condition c = .ok d ↔
      d = c.map (Operand.filled b.params) ∧
        (∀ x ∈ c.comparisons, b.Knows x.value.params x.value.paths) ∧
        ∀ x ∈ d.comparisons, Fits x.operator x.value := by
  rw [condition_eq, settle_eq_ok_iff, List.findSome?_eq_none_iff]
  simp only [fault?_eq_none_iff]
  constructor
  · rintro ⟨bound, rfl⟩
    refine ⟨rfl, fun x hx => (bound x hx).1, ?_⟩
    rw [Condition.comparisons_map, List.forall_mem_map]
    exact fun x hx => (bound x hx).2
  · rintro ⟨rfl, known, fits⟩
    rw [Condition.comparisons_map, List.forall_mem_map] at fits
    exact ⟨fun x hx => ⟨known x hx, fits x hx⟩, rfl⟩

end Conditions

/-- A condition is bound exactly if each of its comparisons is bound on its own, and else the error
is that of the leftmost that is not. For a comparison this is the error of the leftmost reference to
what is missing, or else that of a value that does not fit. What is bound is the same tree over
values in which everything has been found, and each of them fits. -/
theorem condition_outcome (c : Condition Operand) :
    ((∃ d, b.condition c = .ok d) ↔ ∀ x ∈ c.comparisons, ∃ d, b.condition x.condition = .ok d) ∧
      (∀ e, b.condition c = .error e ↔
        ∃ before x after, c.comparisons = before ++ x :: after ∧
          (∀ y ∈ before, ∃ d, b.condition y.condition = .ok d) ∧
          b.condition x.condition = .error e) ∧
      (∀ (x : Comparison Operand) e, b.condition x.condition = .error e ↔
        x.value.references.findSome? b.missing? = some e ∨
          x.value.references.findSome? b.missing? = none ∧
            Misfit x.field x.operator (x.value.filled b.params) e) ∧
      ∀ d, b.condition c = .ok d ↔
        d = c.map (Operand.filled b.params) ∧
          (∀ x ∈ c.comparisons, b.Knows x.value.params x.value.paths) ∧
          ∀ x ∈ d.comparisons, Fits x.operator x.value :=
  ⟨b.condition_bound_iff, fun _ => b.condition_error_iff, fun _ _ => b.comparison_error_iff,
    fun _ => b.condition_eq_ok_iff⟩

/-- Looking up goes before the shape, and left before right. -/
example :
    condition ⟨⟨[], [], []⟩, none⟩
        (.node .or
          [.leaf "age" .between (.list [.call "F" [.param (.named "low")]]),
            .leaf "name" .in_ (.param (.named "names"))]) =
      .error (.unboundParameter "low") := by
  rfl

end Binder

end QueryTree
