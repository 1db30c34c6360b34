import Mathlib.Algebra.GroupWithZero.Nat
import Mathlib.Data.List.Nodup
import QueryTree.MethodName.Derive

/-! # Positions of parameters

The parameters of a method name have the positions from one on in the order of their segments, so no
parameter occurs twice.
-/

namespace QueryTree

namespace MethodName

namespace Segment

def Numbers (n count : Nat) (ps : List Param) : Prop :=
  ps.map Param.position = (List.range' n count).map some

theorem Numbers.append {n k m : Nat} {ps qs : List Param} (h : Numbers n k ps)
    (h' : Numbers (n + k) m qs) : Numbers n (k + m) (ps ++ qs) := by
  unfold Numbers at *
  rw [List.map_append, h, h', ← List.map_append, List.range'_append_1]

theorem Numbers.nodup {n k : Nat} {ps : List Param} (h : Numbers n k ps) : ps.Nodup := by
  have positions : (ps.map Param.position).Nodup := by
    rw [h]
    exact List.Nodup.map (fun _ _ => Option.some.inj) List.nodup_range'
  exact positions.of_map _

theorem numbers_condition (s : Segment) (n : Nat) :
    Numbers n s.terminal.arity (s.condition n).params := by
  have leaf : Numbers n s.terminal.arity (s.leaf n).params := by
    cases h : s.terminal <;>
      simp [Numbers, Segment.leaf, h, Condition.eq, Condition.params_leaf, Segment.param,
        Operand.params, Operand.paramsAll, Param.indexed, Terminal.arity, List.range']
  have cased : Numbers n s.terminal.arity
      (if s.ignoreCase then (s.leaf n).ignoreCase else s.leaf n).params := by
    split
    · simpa [Condition.ignoreCase, Condition.params_node] using leaf
    · exact leaf
  simp only [Segment.condition]
  split
  · simpa [Condition.not, Condition.params_node] using cased
  · exact cased

theorem numbers_conditions (segments : List Segment) (n : Nat) :
    Numbers n (arity segments) ((conditions n segments).flatMap Condition.params) := by
  induction segments generalizing n with
  | nil => rfl
  | cons s rest ih => exact (s.numbers_condition n).append (ih _)

def groupArity (groups : List (List Segment)) : Nat := (groups.map arity).sum

theorem numbers_groupConditions (groups : List (List Segment)) (n : Nat) :
    Numbers n (groupArity groups) ((groupConditions n groups).flatMap Condition.params) := by
  induction groups generalizing n with
  | nil => rfl
  | cons g rest ih =>
    rw [groupConditions, List.flatMap_cons, Condition.params_join]
    exact (numbers_conditions g n).append (ih _)

end Segment

theorem Derivation.numbers_condition {d : Derivation} {c : Condition Operand}
    (h : c ∈ d.condition) : Segment.Numbers 1 (Segment.groupArity d.groups) c.params := by
  unfold Derivation.condition at h
  split at h
  · cases h
  · obtain rfl := Option.some.inj h
    rw [Condition.params_join]
    exact Segment.numbers_groupConditions d.groups 1

theorem Derivation.condition_statement_eq (d : Derivation) (entity : String) :
    (d.statement entity).condition = d.condition := by
  unfold Derivation.statement
  split <;> rfl

end MethodName

open MethodName

theorem exists_derivation_of_derive {method entity : String} {s : Statement}
    (h : derive method entity = .ok s) : ∃ d : Derivation, s = d.statement entity := by
  unfold derive at h
  split at h
  · cases h
  · split at h
    · next d _ => exact ⟨d, (Except.ok.inj h).symm⟩
    · cases h

theorem nodup_params_of_derive {method entity : String} {s : Statement} {c : Condition Operand}
    (h : derive method entity = .ok s) (hc : c ∈ s.condition) : c.params.Nodup := by
  obtain ⟨d, rfl⟩ := exists_derivation_of_derive h
  rw [d.condition_statement_eq] at hc
  exact (Derivation.numbers_condition hc).nodup

end QueryTree
