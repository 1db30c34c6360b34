import Mathlib.Data.List.Basic
import QueryTree.Condition.Negation

/-! # Conditions in normal form

A condition is in normal form if no comparison by "differs" is negated in it, and sugarless if no
comparison is one by "differs". Simplifying leads to the former, desugaring to the latter. Neither
changes a condition that has its form, nor the values that are compared with.
-/

namespace QueryTree.Condition

variable {α : Type} {c d : Condition α} {op : Operator} {cs : List (Condition α)}

/-- What holds of comparisons, and of a node if it holds of the children, holds of conditions. -/
@[elab_as_elim, induction_eliminator]
theorem induction {motive : Condition α → Prop}
    (leaf : ∀ field op value, motive (.leaf field op value))
    (node : ∀ op cs, (∀ c ∈ cs, motive c) → motive (.node op cs)) : ∀ c, motive c
  | .leaf field op value => leaf field op value
  | .node op cs => node op cs fun c _ => induction leaf node c

mutual

/-- The condition and all that it consists of. -/
def parts : Condition α → List (Condition α)
  | leaf field op v => [leaf field op v]
  | node op cs => node op cs :: partsAll cs

def partsAll : List (Condition α) → List (Condition α)
  | [] => []
  | c :: rest => parts c ++ partsAll rest

end

theorem partsAll_eq_flatMap (cs : List (Condition α)) : partsAll cs = cs.flatMap parts := by
  induction cs with
  | nil => rfl
  | cons c rest ih => simp [partsAll, ih]

theorem parts_node (op : Operator) (cs : List (Condition α)) :
    (node op cs).parts = node op cs :: cs.flatMap parts := by
  rw [parts, partsAll_eq_flatMap]

theorem values_join (op : Operator) (cs : List (Condition α)) :
    (join op cs).values = cs.flatMap values := by
  match cs with
  | [] => rfl
  | [c] => simp [join]
  | c :: d :: cs => exact valuesAll_eq_flatMap (c :: d :: cs)

theorem value_mem_of_mem_parts {field : String} {v : α} (h : leaf field op v ∈ c.parts) :
    v ∈ c.values := by
  induction c with
  | leaf field' op' v' =>
    obtain ⟨-, -, rfl⟩ := leaf.inj (List.mem_singleton.mp h)
    exact List.mem_singleton_self _
  | node op' cs ih =>
    rw [parts_node, List.mem_cons] at h
    rcases h with same | mem
    · cases same
    · obtain ⟨d, hd, mem⟩ := List.mem_flatMap.mp mem
      rw [values, valuesAll_eq_flatMap]
      exact List.mem_flatMap.mpr ⟨d, hd, ih d hd mem⟩

/-- The negation of a comparison by "differs". -/
def NegatesDiffers (c : Condition α) : Prop := ∃ field v, c = node .not [leaf field .notEquals v]

def Normal (c : Condition α) : Prop := ∀ d ∈ c.parts, ¬ d.NegatesDiffers

theorem not_negatesDiffers_leaf (field : String) (op : Operator) (v : α) :
    ¬ (leaf field op v).NegatesDiffers := by
  rintro ⟨_, _, ⟨⟩⟩

theorem normal_leaf (field : String) (op : Operator) (v : α) : (leaf field op v).Normal := by
  intro d hd
  rw [parts, List.mem_singleton] at hd
  exact hd ▸ not_negatesDiffers_leaf field op v

theorem normal_node_iff :
    (node op cs).Normal ↔ ¬ (node op cs).NegatesDiffers ∧ ∀ c ∈ cs, c.Normal := by
  simp only [Normal, parts_node, List.forall_mem_cons, List.mem_flatMap]
  grind

theorem not_negatesDiffers_of_ne (other : op ≠ .not) : ¬ (node op cs).NegatesDiffers := by
  rintro ⟨field, v, same⟩
  exact other (node.inj same).1

section Simplify

theorem simplify_node (op : Operator) (cs : List (Condition α)) :
    (node op cs).simplify = simplifyNode op (cs.map simplify) := by
  rw [simplify, simplifyAll_eq_map]

theorem simplifyNode_eq (op : Operator) (cs : List (Condition α)) :
    (∃ field v, node op cs = node .not [leaf field .notEquals v] ∧
        simplifyNode op cs = leaf field .equals v) ∨
      (¬ (node op cs).NegatesDiffers ∧ simplifyNode op cs = node op cs) := by
  unfold simplifyNode
  split
  · next field v => exact .inl ⟨field, v, rfl, rfl⟩
  · next other =>
    refine .inr ⟨?_, rfl⟩
    rintro ⟨field, v, same⟩
    obtain ⟨rfl, rfl⟩ := node.inj same
    exact other field v rfl rfl

theorem simplifyNode_of_ne (other : op ≠ .not) : simplifyNode op cs = node op cs := by
  obtain ⟨field, v, redex, -⟩ | ⟨-, same⟩ := simplifyNode_eq op cs
  · exact absurd (node.inj redex).1 other
  · exact same

theorem normal_simplify (c : Condition α) : c.simplify.Normal := by
  induction c with
  | leaf field op v => exact normal_leaf field op v
  | node op cs ih =>
    rw [simplify_node]
    obtain ⟨field, v, -, same⟩ | ⟨other, same⟩ := simplifyNode_eq op (cs.map simplify)
    · rw [same]
      exact normal_leaf field .equals v
    · rw [same, normal_node_iff]
      exact ⟨other, List.forall_mem_map.mpr ih⟩

theorem simplify_of_normal (h : c.Normal) : c.simplify = c := by
  induction c with
  | leaf field op v => rfl
  | node op cs ih =>
    obtain ⟨other, children⟩ := normal_node_iff.mp h
    have kept : cs.map simplify = cs := by
      rw [List.map_congr_left fun c hc => ih c hc (children c hc), List.map_id']
    rw [simplify_node, kept]
    obtain ⟨field, v, redex, -⟩ | ⟨-, same⟩ := simplifyNode_eq op cs
    · exact absurd ⟨field, v, redex⟩ other
    · exact same

theorem simplify_eq_self_iff : c.simplify = c ↔ c.Normal := by
  constructor
  · intro same
    exact same ▸ normal_simplify c
  · exact simplify_of_normal

theorem values_simplify (c : Condition α) : c.simplify.values = c.values := by
  induction c with
  | leaf field op v => rfl
  | node op cs ih =>
    have children : (node op (cs.map simplify)).values = (node op cs).values := by
      simp only [values, valuesAll_eq_flatMap, List.flatMap_map]
      exact List.flatMap_congr ih
    rw [simplify_node, ← children]
    obtain ⟨field, v, redex, same⟩ | ⟨-, same⟩ := simplifyNode_eq op (cs.map simplify)
    · rw [same, redex]
      rfl
    · rw [same]

theorem params_simplify (c : Condition Operand) : c.simplify.params = c.params := by
  rw [params, values_simplify, params]

end Simplify

section Desugar

/-- No comparison is one by "differs". -/
def Sugarless (c : Condition α) : Prop := ∀ field v, leaf field .notEquals v ∉ c.parts

theorem sugarless_leaf_iff {field : String} {v : α} :
    (leaf field op v).Sugarless ↔ op ≠ .notEquals := by
  simp only [Sugarless, parts, List.mem_singleton, leaf.injEq]
  grind

theorem sugarless_node_iff : (node op cs).Sugarless ↔ ∀ c ∈ cs, c.Sugarless := by
  simp only [Sugarless, parts_node, List.mem_cons, reduceCtorEq, false_or, List.mem_flatMap]
  grind

theorem Sugarless.normal (h : c.Sugarless) : c.Normal := by
  induction c with
  | leaf field op v => exact normal_leaf field op v
  | node op cs ih =>
    have children := sugarless_node_iff.mp h
    rw [normal_node_iff]
    refine ⟨?_, fun c hc => ih c hc (children c hc)⟩
    rintro ⟨field, v, same⟩
    obtain ⟨-, rfl⟩ := node.inj same
    exact sugarless_leaf_iff.mp (children _ List.mem_cons_self) rfl

theorem desugar_node (op : Operator) (cs : List (Condition α)) :
    (node op cs).desugar = node op (cs.map desugar) := by
  rw [desugar, desugarAll_eq_map]

theorem desugar_leaf_of_ne {field : String} {v : α} (other : op ≠ .notEquals) :
    (leaf field op v).desugar = leaf field op v := by
  cases op with
  | notEquals => exact absurd rfl other
  | _ => rfl

theorem sugarless_desugar (c : Condition α) : c.desugar.Sugarless := by
  induction c with
  | leaf field op v =>
    by_cases differs : op = .notEquals
    · subst differs
      rw [desugar, not, sugarless_node_iff, List.forall_mem_singleton, sugarless_leaf_iff]
      decide
    · rwa [desugar_leaf_of_ne differs, sugarless_leaf_iff]
  | node op cs ih =>
    rw [desugar_node, sugarless_node_iff]
    exact List.forall_mem_map.mpr ih

theorem desugar_of_sugarless (h : c.Sugarless) : c.desugar = c := by
  induction c with
  | leaf field op v => exact desugar_leaf_of_ne (sugarless_leaf_iff.mp h)
  | node op cs ih =>
    have children := sugarless_node_iff.mp h
    rw [desugar_node, List.map_congr_left fun c hc => ih c hc (children c hc), List.map_id']

theorem desugar_eq_self_iff : c.desugar = c ↔ c.Sugarless := by
  constructor
  · intro same
    exact same ▸ sugarless_desugar c
  · exact desugar_of_sugarless

theorem values_desugar (c : Condition α) : c.desugar.values = c.values := by
  induction c with
  | leaf field op v => cases op <;> rfl
  | node op cs ih =>
    simp only [desugar_node, values, valuesAll_eq_flatMap, List.flatMap_map]
    exact List.flatMap_congr ih

theorem params_desugar (c : Condition Operand) : c.desugar.params = c.params := by
  rw [params, values_desugar, params]

end Desugar

/-- Each rewrite leads to its normal form, keeps exactly the conditions that have it, and keeps the
parameters. What is desugared is simplified, too. -/
theorem rewrites_reach_normal_forms (c : Condition Operand) :
    (c.simplify.Normal ∧ (c.simplify = c ↔ c.Normal) ∧ c.simplify.simplify = c.simplify) ∧
      (c.desugar.Sugarless ∧ (c.desugar = c ↔ c.Sugarless) ∧ c.desugar.desugar = c.desugar) ∧
      c.desugar.simplify = c.desugar ∧
      c.simplify.params = c.params ∧ c.desugar.params = c.params := by
  have normal := normal_simplify c
  have sugarless := sugarless_desugar c
  refine ⟨⟨normal, simplify_eq_self_iff, simplify_of_normal normal⟩,
    ⟨sugarless, desugar_eq_self_iff, desugar_of_sugarless sugarless⟩,
    simplify_of_normal sugarless.normal, params_simplify c, params_desugar c⟩

end QueryTree.Condition
