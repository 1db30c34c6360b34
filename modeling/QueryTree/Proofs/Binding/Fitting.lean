import Mathlib.Data.List.Basic
import QueryTree.Binding.Binder

/-! # Values that fit their operators

A collection fits `IN`, two bounds fit `BETWEEN`, and a single value fits every other operator.
Every other value is reported.
-/

namespace QueryTree

inductive Fits : Operator → Value → Prop where
  | collection {items} : Fits .in_ (.list items)
  | bounds {low high} : Fits .between (.list [low, high])
  | single {op w} : op ≠ .in_ → op ≠ .between → ¬ w.isCollection → Fits op w

theorem Fits.not_isCollection {op : Operator} {w : Value} (h : Fits op w) (collects : op ≠ .in_)
    (bounds : op ≠ .between) : ¬ w.isCollection := by
  cases h with
  | collection => exact absurd rfl collects
  | bounds => exact absurd rfl bounds
  | single _ _ single => exact single

inductive Misfit (field : String) : Operator → Value → BindError → Prop where
  | collection {op w} : op = .in_ ∨ op = .between → ¬ w.isCollection →
      Misfit field op w (.expectedCollection field op w.typeName)
  | arity {items} : items.length ≠ 2 →
      Misfit field .between (.list items) (.betweenArity field items.length)
  | single {op w} : op ≠ .in_ → op ≠ .between → w.isCollection →
      Misfit field op w (.expectedScalar field op)

namespace Binder

variable {field : String} {op : Operator} {w : Value} {e : BindError}

theorem shapeError?_of_ne (collects : op ≠ .in_) (bounds : op ≠ .between) :
    shapeError? field op w = if w.isCollection then some (.expectedScalar field op) else none := by
  cases op with
  | in_ => exact absurd rfl collects
  | between => exact absurd rfl bounds
  | _ => rfl

theorem shapeError?_of_single (collects : op = .in_ ∨ op = .between) (single : ¬ w.isCollection) :
    shapeError? field op w = some (.expectedCollection field op w.typeName) := by
  cases w with
  | list => exact absurd rfl single
  | _ => rcases collects with rfl | rfl <;> rfl

theorem shapeError?_cases (field : String) (op : Operator) (w : Value) :
    (shapeError? field op w = none ∧ Fits op w) ∨
      ∃ e, shapeError? field op w = some e ∧ Misfit field op w e := by
  by_cases collects : op = .in_ ∨ op = .between
  · cases w with
    | list items =>
      rcases collects with rfl | rfl
      · exact .inl ⟨rfl, .collection⟩
      · by_cases two : items.length = 2
        · obtain ⟨low, high, rfl⟩ := List.length_eq_two.mp two
          exact .inl ⟨rfl, .bounds⟩
        · exact .inr ⟨_, if_neg two, .arity two⟩
    | _ =>
      have single := Bool.false_ne_true
      exact .inr ⟨_, shapeError?_of_single collects single, .collection collects single⟩
  · obtain ⟨collects, bounds⟩ := not_or.mp collects
    by_cases several : w.isCollection
    · refine .inr ⟨_, ?_, .single collects bounds several⟩
      rw [shapeError?_of_ne collects bounds, if_pos several]
    · refine .inl ⟨?_, .single collects bounds several⟩
      rw [shapeError?_of_ne collects bounds, if_neg several]

theorem shapeError?_eq_none_iff : shapeError? field op w = none ↔ Fits op w := by
  constructor
  · intro fits
    obtain ⟨-, shape⟩ | ⟨e, same, -⟩ := shapeError?_cases field op w
    · exact shape
    · cases fits.symm.trans same
  · rintro (_ | _ | ⟨collects, bounds, single⟩)
    · rfl
    · rfl
    · rw [shapeError?_of_ne collects bounds, if_neg single]

theorem shapeError?_eq_some_iff : shapeError? field op w = some e ↔ Misfit field op w e := by
  constructor
  · intro reported
    obtain ⟨same, -⟩ | ⟨e', same, misfit⟩ := shapeError?_cases field op w
    · cases reported.symm.trans same
    · obtain rfl := Option.some.inj (reported.symm.trans same)
      exact misfit
  · rintro (⟨collects, single⟩ | two | ⟨collects, bounds, several⟩)
    · exact shapeError?_of_single collects single
    · exact if_neg two
    · rw [shapeError?_of_ne collects bounds, if_pos several]

end Binder

end QueryTree
