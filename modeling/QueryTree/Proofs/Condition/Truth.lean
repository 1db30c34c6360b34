import QueryTree.Proofs.Condition.Normal

/-! # The truth of conditions

An interpretation says which comparisons hold, with and without regard to case. Simplifying and
desugaring change neither what holds nor what does not, whatever the interpretation.
-/

namespace QueryTree

/-- The truth of comparisons, of which "differs" is the negation of "equals". They are made without
regard to case below `IGNORE_CASE`. A node to which logic gives no meaning has the truth that
`other` finds for its operator and the truths of its children. -/
structure Interpretation (α : Type) where
  holds : (caseless : Bool) → (field : String) → Operator → α → Bool
  other : Operator → List Bool → Bool
  differs : ∀ caseless field v,
    holds caseless field .notEquals v = !holds caseless field .equals v

namespace Interpretation

variable {α : Type} (I : Interpretation α)

/-- Whatever the other comparisons mean, "differs" can be given its meaning. -/
def ofHolds (holds : Bool → String → Operator → α → Bool) (other : Operator → List Bool → Bool) :
    Interpretation α where
  holds caseless field
    | .notEquals, v => !holds caseless field .equals v
    | op, v => holds caseless field op v
  other := other
  differs _ _ _ := rfl

def joined : Operator → List Bool → Bool
  | .and, truths => truths.all id
  | .or, truths => truths.any id
  | .not, [truth] => !truth
  | .ignoreCase, [truth] => truth
  | op, truths => I.other op truths

mutual

def truth (caseless : Bool) : Condition α → Bool
  | .leaf field op v => I.holds caseless field op v
  | .node op cs => I.joined op (truths (caseless || op = .ignoreCase) cs)

def truths (caseless : Bool) : List (Condition α) → List Bool
  | [] => []
  | c :: rest => truth caseless c :: truths caseless rest

end

theorem truths_eq_map (caseless : Bool) (cs : List (Condition α)) :
    I.truths caseless cs = cs.map (I.truth caseless) := by
  induction cs with
  | nil => rfl
  | cons c rest ih => rw [truths, ih, List.map_cons]

theorem truth_node (caseless : Bool) (op : Operator) (cs : List (Condition α)) :
    I.truth caseless (.node op cs) =
      I.joined op (cs.map (I.truth (caseless || op = .ignoreCase))) := by
  rw [truth, truths_eq_map]

theorem truth_not (caseless : Bool) (c : Condition α) :
    I.truth caseless c.not = !I.truth caseless c := by
  rw [Condition.not, truth_node]
  simp [joined]

theorem truth_node_map {caseless : Bool} {op : Operator} {cs : List (Condition α)}
    {rewrite : Condition α → Condition α}
    (kept : ∀ c ∈ cs, ∀ caseless, I.truth caseless (rewrite c) = I.truth caseless c) :
    I.truth caseless (.node op (cs.map rewrite)) = I.truth caseless (.node op cs) := by
  rw [truth_node, truth_node, List.map_map]
  congr 1
  exact List.map_congr_left fun c hc => kept c hc _

theorem truth_simplifyNode (caseless : Bool) (op : Operator) (cs : List (Condition α)) :
    I.truth caseless (Condition.simplifyNode op cs) = I.truth caseless (.node op cs) := by
  obtain ⟨field, v, redex, same⟩ | ⟨-, same⟩ := Condition.simplifyNode_eq op cs
  · have negated := I.truth_not caseless (.leaf field .notEquals v)
    rw [Condition.not] at negated
    rw [same, redex, negated, truth, truth, differs, Bool.not_not]
  · rw [same]

theorem truth_simplify (c : Condition α) (caseless : Bool) :
    I.truth caseless c.simplify = I.truth caseless c := by
  induction c generalizing caseless with
  | leaf field op v => rfl
  | node op cs ih =>
    rw [Condition.simplify_node, truth_simplifyNode]
    exact I.truth_node_map ih

theorem truth_desugar (c : Condition α) (caseless : Bool) :
    I.truth caseless c.desugar = I.truth caseless c := by
  induction c generalizing caseless with
  | leaf field op v =>
    by_cases h : op = .notEquals
    · subst h
      rw [Condition.desugar, truth_not, truth, truth, differs]
    · rw [Condition.desugar_leaf_of_ne h]
  | node op cs ih =>
    rw [Condition.desugar_node]
    exact I.truth_node_map ih

/-- Both rewrites keep the truth of every condition under every interpretation. -/
theorem truth_rewritten (c : Condition α) (caseless : Bool) :
    I.truth caseless c.simplify = I.truth caseless c ∧
      I.truth caseless c.desugar = I.truth caseless c :=
  ⟨I.truth_simplify c caseless, I.truth_desugar c caseless⟩

example :
    let ten : Interpretation Int :=
      .ofHolds (fun _ _ op n => op = .equals && n = 10) fun _ _ => false
    ten.truth false (.node .not [.leaf "age" .notEquals 10]) = true ∧
      ten.truth false (.leaf "age" .equals 10) = true := by
  decide

end Interpretation

end QueryTree
