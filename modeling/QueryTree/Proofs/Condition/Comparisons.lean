import Mathlib.Data.List.Forall2
import QueryTree.Proofs.Condition.Normal

/-! # The comparisons of a condition

A condition is a tree over its comparisons. Its values can be replaced without touching the rest,
and both rewrites do the same whether the values are replaced before or after. They keep the
comparisons and their order, but "equals" may take the place of "differs".
-/

namespace QueryTree

def Operator.withEquals : Operator → Operator
  | notEquals => equals
  | op => op

structure Comparison (α : Type) where
  field : String
  operator : Operator
  value : α

namespace Comparison

variable {α : Type}

def condition (x : Comparison α) : Condition α := .leaf x.field x.operator x.value

def withEquals (x : Comparison α) : Comparison α := { x with operator := x.operator.withEquals }

/-- The second comparison is the first or has "equals" in place of its "differs". -/
def Restated (x y : Comparison α) : Prop := y = x ∨ y = x.withEquals

theorem withEquals_withEquals (x : Comparison α) : x.withEquals.withEquals = x.withEquals := by
  obtain ⟨field, op, v⟩ := x
  cases op <;> rfl

theorem Restated.withEquals {x y : Comparison α} (h : x.Restated y) : x.Restated y.withEquals := by
  rcases h with rfl | rfl
  · exact .inr rfl
  · exact .inr x.withEquals_withEquals

end Comparison

namespace Condition

variable {α β : Type}

mutual

def comparisons : Condition α → List (Comparison α)
  | leaf field op v => [⟨field, op, v⟩]
  | node _ cs => comparisonsAll cs

def comparisonsAll : List (Condition α) → List (Comparison α)
  | [] => []
  | c :: rest => comparisons c ++ comparisonsAll rest

end

mutual

def map (f : α → β) : Condition α → Condition β
  | leaf field op v => leaf field op (f v)
  | node op cs => node op (mapAll f cs)

def mapAll (f : α → β) : List (Condition α) → List (Condition β)
  | [] => []
  | c :: rest => map f c :: mapAll f rest

end

theorem comparisonsAll_eq_flatMap (cs : List (Condition α)) :
    comparisonsAll cs = cs.flatMap comparisons := by
  induction cs with
  | nil => rfl
  | cons c rest ih => simp [comparisonsAll, ih]

theorem mapAll_eq_map (f : α → β) (cs : List (Condition α)) : mapAll f cs = cs.map (map f) := by
  induction cs with
  | nil => rfl
  | cons c rest ih => simp [mapAll, ih]

theorem comparisons_node (op : Operator) (cs : List (Condition α)) :
    (node op cs).comparisons = cs.flatMap comparisons := by
  rw [comparisons, comparisonsAll_eq_flatMap]

theorem comparisons_join (op : Operator) (cs : List (Condition α)) :
    (join op cs).comparisons = cs.flatMap comparisons := by
  match cs with
  | [] => rfl
  | [c] => simp [join]
  | c :: d :: cs => exact comparisons_node op (c :: d :: cs)

theorem map_node (f : α → β) (op : Operator) (cs : List (Condition α)) :
    (node op cs).map f = node op (cs.map (map f)) := by
  rw [map, mapAll_eq_map]

theorem values_eq_map_comparisons (c : Condition α) : c.values = c.comparisons.map (·.value) := by
  induction c with
  | leaf => rfl
  | node op cs ih =>
    rw [values, valuesAll_eq_flatMap, comparisons_node, List.map_flatMap]
    exact List.flatMap_congr ih

theorem params_eq_flatMap_comparisons (c : Condition Operand) :
    c.params = c.comparisons.flatMap (·.value.params) := by
  rw [params, values_eq_map_comparisons, List.flatMap_map]

theorem condition_mem_parts_iff {x : Comparison α} {c : Condition α} :
    x.condition ∈ c.parts ↔ x ∈ c.comparisons := by
  induction c with
  | leaf field op v =>
    obtain ⟨field', op', v'⟩ := x
    simp [parts, comparisons, Comparison.condition]
  | node op cs ih =>
    rw [parts_node, comparisons_node, List.mem_cons, or_iff_right (by rintro ⟨⟩), List.mem_flatMap,
      List.mem_flatMap]
    exact exists_congr fun c => and_congr_right (ih c)

theorem comparisons_map (f : α → β) (c : Condition α) :
    (c.map f).comparisons = c.comparisons.map fun x => ⟨x.field, x.operator, f x.value⟩ := by
  induction c with
  | leaf field op v => rfl
  | node op cs ih =>
    rw [map_node, comparisons_node, comparisons_node, List.flatMap_map, List.map_flatMap]
    exact List.flatMap_congr ih

section Rewrites

theorem map_eq_leaf_iff {f : α → β} {c : Condition α} {field : String} {op : Operator} {w : β} :
    c.map f = leaf field op w ↔ ∃ v, c = leaf field op v ∧ f v = w := by
  cases c with
  | leaf field' op' v' => simp [map, and_assoc]
  | node op' cs => simp [map]

theorem negatesDiffers_map_iff {f : α → β} {c : Condition α} :
    (c.map f).NegatesDiffers ↔ c.NegatesDiffers := by
  constructor
  · rintro ⟨field, w, same⟩
    cases c with
    | leaf => cases same
    | node op cs =>
      rw [map_node] at same
      obtain ⟨rfl, children⟩ := node.inj same
      obtain ⟨c, rfl, child⟩ := List.map_eq_singleton_iff.mp children
      obtain ⟨v, rfl, -⟩ := map_eq_leaf_iff.mp child
      exact ⟨field, v, rfl⟩
  · rintro ⟨field, v, rfl⟩
    exact ⟨field, f v, rfl⟩

theorem map_simplifyNode (f : α → β) (op : Operator) (cs : List (Condition α)) :
    (simplifyNode op cs).map f = simplifyNode op (cs.map (map f)) := by
  obtain ⟨field, v, redex, same⟩ | ⟨other, same⟩ := simplifyNode_eq op cs
  · obtain ⟨rfl, rfl⟩ := node.inj redex
    rw [same]
    rfl
  · -- Other values do not make a redex of what is none.
    rw [← negatesDiffers_map_iff (f := f), map_node] at other
    obtain ⟨field, w, redex, -⟩ | ⟨-, same'⟩ := simplifyNode_eq op (cs.map (map f))
    · exact absurd ⟨field, w, redex⟩ other
    · rw [same, same', map_node]

theorem simplify_map (f : α → β) (c : Condition α) : (c.map f).simplify = c.simplify.map f := by
  induction c with
  | leaf field op v => rfl
  | node op cs ih =>
    rw [map_node, simplify_node, simplify_node, map_simplifyNode, List.map_map, List.map_map]
    congr 1
    exact List.map_congr_left ih

theorem desugar_map (f : α → β) (c : Condition α) : (c.map f).desugar = c.desugar.map f := by
  induction c with
  | leaf field op v => cases op <;> rfl
  | node op cs ih =>
    rw [map_node, desugar_node, desugar_node, map_node, List.map_map, List.map_map]
    congr 1
    exact List.map_congr_left ih

theorem comparisons_simplifyNode (op : Operator) (cs : List (Condition α)) :
    (simplifyNode op cs).comparisons = (node op cs).comparisons ∨
      (simplifyNode op cs).comparisons = (node op cs).comparisons.map Comparison.withEquals := by
  obtain ⟨field, v, redex, same⟩ | ⟨-, same⟩ := simplifyNode_eq op cs
  · rw [same, redex]
    exact .inr rfl
  · exact .inl (congrArg comparisons same)

/-- Simplifying turns some "differs" into "equals". -/
theorem comparisons_simplify (c : Condition α) :
    List.Forall₂ Comparison.Restated c.comparisons c.simplify.comparisons := by
  induction c with
  | leaf field op v => exact List.forall₂_same.mpr fun x _ => .inl rfl
  | node op cs ih =>
    have children : List.Forall₂ Comparison.Restated (node op cs).comparisons
        (node op (cs.map simplify)).comparisons := by
      rw [comparisons_node, comparisons_node]
      refine List.rel_flatMap (R := fun c d => d = c.simplify ∧ c ∈ cs) ?_ ?_
      · exact List.forall₂_map_right_iff.mpr (List.forall₂_same.mpr fun c hc => ⟨rfl, hc⟩)
      · rintro c _ ⟨rfl, hc⟩
        exact ih c hc
    rw [simplify_node]
    rcases comparisons_simplifyNode op (cs.map simplify) with same | same
    · rwa [same]
    · -- What is restated below a redex is restated again, which makes no difference.
      rw [same, List.forall₂_map_right_iff]
      exact children.imp fun x y => Comparison.Restated.withEquals

theorem comparisons_desugar (c : Condition α) :
    c.desugar.comparisons = c.comparisons.map Comparison.withEquals := by
  induction c with
  | leaf field op v => cases op <;> rfl
  | node op cs ih =>
    rw [desugar_node, comparisons_node, comparisons_node, List.flatMap_map, List.map_flatMap]
    exact List.flatMap_congr ih

end Rewrites

end Condition

end QueryTree
