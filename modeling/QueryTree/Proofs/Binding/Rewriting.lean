import QueryTree.Proofs.Binding.Outcome

/-! # Binding rewritten conditions

It makes no difference whether a condition is rewritten before it is bound or after, except that an
error may name "equals" in place of "differs".
-/

namespace QueryTree

/-- The error of the comparison that has "equals" in place of "differs". -/
def BindError.withEquals : BindError → BindError
  | expectedScalar field op => expectedScalar field op.withEquals
  | e => e

namespace Binder

variable (b : Binder)

theorem shapeError?_withEquals (field : String) (op : Operator) (w : Value) :
    shapeError? field op.withEquals w = (shapeError? field op w).map BindError.withEquals := by
  by_cases differs : op = .notEquals
  · subst differs
    rw [Operator.withEquals, shapeError?_of_ne (by decide) (by decide),
      shapeError?_of_ne (by decide) (by decide)]
    split <;> rfl
  · have kept : op.withEquals = op := by
      cases op with
      | notEquals => exact absurd rfl differs
      | _ => rfl
    rw [kept]
    obtain ⟨same, -⟩ | ⟨e, same, misfit⟩ := shapeError?_cases field op w
    · rw [same, Option.map_none]
    · rw [same, Option.map_some]
      cases misfit with
      | single => rw [BindError.withEquals, kept]
      | _ => rfl

theorem missing?_withEquals (r : Reference) :
    (b.missing? r).map BindError.withEquals = b.missing? r := by
  cases r <;> rw [missing?] <;> split <;> rfl

theorem fault?_withEquals (x : Comparison Operand) :
    b.fault? x.withEquals = (b.fault? x).map BindError.withEquals := by
  have references : (x.value.references.findSome? b.missing?).map BindError.withEquals =
      x.value.references.findSome? b.missing? := by
    rw [List.map_findSome?]
    exact congrArg (List.findSome? · _) (funext b.missing?_withEquals)
  rw [fault?, fault?, Option.map_or, references]
  exact congrArg _ (shapeError?_withEquals x.field x.operator _)

theorem condition_desugar (c : Condition Operand) :
    b.condition c.desugar =
      ((b.condition c).map Condition.desugar).mapError BindError.withEquals := by
  have fault : c.desugar.comparisons.findSome? b.fault? =
      (c.comparisons.findSome? b.fault?).map BindError.withEquals := by
    rw [Condition.comparisons_desugar, List.findSome?_map, List.map_findSome?]
    exact congrArg (List.findSome? · _) (funext b.fault?_withEquals)
  rw [condition_eq, condition_eq, map_settle, mapError_settle, fault, Condition.desugar_map]

theorem findSome?_restated {xs ys : List (Comparison Operand)}
    (h : List.Forall₂ Comparison.Restated xs ys) :
    ys.findSome? b.fault? = xs.findSome? b.fault? ∨
      ys.findSome? b.fault? = (xs.findSome? b.fault?).map BindError.withEquals := by
  induction h with
  | nil => exact .inl rfl
  | @cons x y xs ys restated _ ih =>
    have first : b.fault? y = b.fault? x ∨ b.fault? y = (b.fault? x).map BindError.withEquals := by
      rcases restated with rfl | rfl
      · exact .inl rfl
      · exact .inr (b.fault?_withEquals x)
    rw [List.findSome?_cons, List.findSome?_cons]
    cases fault : b.fault? x with
    | none =>
      have same : b.fault? y = none := by
        simpa [fault] using first
      rw [same]
      exact ih
    | some e =>
      rw [fault] at first
      rcases first with same | same
      · rw [same]
        exact .inl rfl
      · rw [same]
        exact .inr rfl

theorem condition_simplify (c : Condition Operand) :
    b.condition c.simplify = (b.condition c).map Condition.simplify ∨
      b.condition c.simplify =
        ((b.condition c).map Condition.simplify).mapError BindError.withEquals := by
  rw [condition_eq, condition_eq, map_settle, mapError_settle, Condition.simplify_map]
  exact (b.findSome?_restated c.comparisons_simplify).imp (congrArg (settle · _))
    (congrArg (settle · _))

/-- Rewriting before binding comes to the same as rewriting after it, up to "equals" in the place of
"differs" in errors. -/
theorem condition_rewritten (c : Condition Operand) :
    (b.condition c.simplify = (b.condition c).map Condition.simplify ∨
        b.condition c.simplify =
          ((b.condition c).map Condition.simplify).mapError BindError.withEquals) ∧
      b.condition c.desugar =
        ((b.condition c).map Condition.desugar).mapError BindError.withEquals :=
  ⟨b.condition_simplify c, b.condition_desugar c⟩

end Binder

end QueryTree
