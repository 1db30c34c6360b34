import QueryTree.Proofs.Binding.History
import QueryTree.Proofs.Binding.Outcome

/-! # The latest values count

Binding looks at nothing but the values that parameters have. For the placeholders of a statement
these are the latest that have been given, so histories that agree on the latest values cannot be
told apart.
-/

namespace QueryTree

namespace Params

variable {s : Statement} {history : List Binding} {p : Param} {t : Target} {v : Value}

theorem valueAt?_eq_some_iff_latest :
    ((ofStatement s).giveAll history).valueAt? t = some v ↔ Latest history t v := by
  rw [valueAt?_giveAll_eq_some_iff, valueAt?_ofStatement]
  simp

theorem valueAt?_eq_none_iff_not_given :
    ((ofStatement s).giveAll history).valueAt? t = none ↔ ¬ Given history t := by
  rw [valueAt?_giveAll_eq_none_iff, valueAt?_ofStatement]
  simp

theorem get?_eq_none_iff_not_given :
    ((ofStatement s).giveAll history).get? p = none ↔ ∀ t ∈ p.targets, ¬ Given history t := by
  simp only [get?_eq_none_iff, valueAt?_eq_none_iff_not_given]

/-- A value given at the position goes before one given by the name. -/
theorem get?_eq_some_iff_latest :
    ((ofStatement s).giveAll history).get? p = some v ↔
      (∃ n, p.position = some n ∧ Latest history (.position n) v) ∨
        (∀ n, p.position = some n → ¬ Given history (.position n)) ∧
          Latest history (.name p.name) v := by
  obtain ⟨name, position⟩ := p
  simp only [get?, Option.or_eq_some_iff, ← valueAt?_eq_some_iff_latest (s := s),
    ← valueAt?_eq_none_iff_not_given (s := s)]
  cases position <;> simp [valueAt?]

theorem unbound_eq_filter :
    ((ofStatement s).giveAll history).unbound =
      (ofStatement s).placeholders.filter fun p => ∀ t ∈ p.targets, ¬ Given history t := by
  rw [unbound, placeholders_giveAll]
  refine List.filter_congr fun p _ => ?_
  rw [Bool.eq_iff_iff, Option.isNone_iff_eq_none, get?_eq_none_iff_not_given, decide_eq_true_eq]

theorem get?_congr {history' : List Binding}
    (same : ∀ t v, Latest history t v ↔ Latest history' t v) :
    ((ofStatement s).giveAll history).get? = ((ofStatement s).giveAll history').get? := by
  funext p
  have values : ((ofStatement s).giveAll history).valueAt? =
      ((ofStatement s).giveAll history').valueAt? := by
    funext t
    apply Option.ext
    intro v
    rw [valueAt?_eq_some_iff_latest, valueAt?_eq_some_iff_latest, same]
  rw [get?_eq, get?_eq, values]

end Params

namespace Operand

variable {ps qs : Params}

mutual

theorem filled_congr (agree : ps.get? = qs.get?) : (v : Operand) → v.filled ps = v.filled qs
  | .string _ | .integer _ | .decimal _ | .boolean _ | .null | .enum _ => rfl
  | .param p => by rw [filled, filled, agree]
  | .list items => by rw [filled, filled, filledAll_congr agree items]
  | .call name args => by rw [filled, filled, filledAll_congr agree args]

theorem filledAll_congr (agree : ps.get? = qs.get?) :
    (vs : List Operand) → filledAll ps vs = filledAll qs vs
  | [] => rfl
  | v :: rest => by rw [filledAll, filledAll, filled_congr agree v, filledAll_congr agree rest]

end

end Operand

namespace Binder

variable {ps qs : Params} (agree : ps.get? = qs.get?) (enums : Option EnumRegistry)
include agree

theorem missing?_congr : missing? ⟨ps, enums⟩ = missing? ⟨qs, enums⟩ := by
  funext r
  cases r with
  | param p => simp only [missing?, agree]
  | path path => rfl

theorem fault?_congr : fault? ⟨ps, enums⟩ = fault? ⟨qs, enums⟩ := by
  funext x
  rw [fault?, fault?, missing?_congr agree, Operand.filled_congr agree]

theorem eq_of_get?_eq :
    value ⟨ps, enums⟩ = value ⟨qs, enums⟩ ∧ condition ⟨ps, enums⟩ = condition ⟨qs, enums⟩ ∧
      assignments ⟨ps, enums⟩ = assignments ⟨qs, enums⟩ := by
  have filled : Operand.filled ps = Operand.filled qs := funext (Operand.filled_congr agree)
  refine ⟨funext fun v => ?_, funext fun c => ?_, funext fun items => ?_⟩
  · rw [value_eq, value_eq, missing?_congr agree, filled]
  · rw [condition_eq, condition_eq, fault?_congr agree, filled]
  · rw [assignments_eq, assignments_eq, missing?_congr agree, filled]

end Binder

/-- Giving values leaves the placeholders of a statement as they are. A parameter has the value that
was given at its position last, or if none was, the one that was given by its name last, and the
placeholders for which nothing was given are those without a value. So binding does the same after
histories that agree on the latest value for each name and each position. -/
theorem latest_values_count (s : Statement) (history : List Binding) :
    let start := Params.ofStatement s
    let params := start.giveAll history
    params.placeholders = start.placeholders ∧ params.names = start.names ∧
      params.contains = start.contains ∧
      (∀ p v, params.get? p = some v ↔
        (∃ n, p.position = some n ∧ Latest history (.position n) v) ∨
          (∀ n, p.position = some n → ¬ Given history (.position n)) ∧
            Latest history (.name p.name) v) ∧
      (∀ p, params.get? p = none ↔ ∀ t ∈ p.targets, ¬ Given history t) ∧
      (params.unbound = start.placeholders.filter fun p => ∀ t ∈ p.targets, ¬ Given history t) ∧
      ∀ history', (∀ t v, Latest history t v ↔ Latest history' t v) →
        ∀ enums, let binder : Binder := ⟨params, enums⟩
          let binder' : Binder := ⟨start.giveAll history', enums⟩
          binder.value = binder'.value ∧ binder.condition = binder'.condition ∧
            binder.assignments = binder'.assignments := by
  intro start params
  have kept : params.placeholders = start.placeholders := start.placeholders_giveAll history
  refine ⟨kept, ?_, ?_, fun p v => Params.get?_eq_some_iff_latest,
    fun p => Params.get?_eq_none_iff_not_given, Params.unbound_eq_filter,
    fun history' same enums => Binder.eq_of_get?_eq (Params.get?_congr same) enums⟩
  · rw [Params.names, kept, Params.names]
  · funext name
    rw [Params.contains, kept, Params.contains]

/-- `?2` has the value given at its position, whatever is given by the name `?2` and in what order. -/
theorem latest_values_count_reordered :
    let s := Statement.ofCondition "Person" (some (.leaf "age" .between
      (.list [.param (.named "low"), .param (.positional 2)])))
    let history : List Binding := [.byPosition 2 (.integer 9), .byName "low" .null,
      .byName "?2" (.integer 5), .byName "low" (.integer 1)]
    let history' : List Binding := [.byName "?2" (.integer 5), .byName "low" (.integer 1),
      .byPosition 2 (.integer 9)]
    let params := (Params.ofStatement s).giveAll history
    params.get? (.positional 2) = some (.integer 9) ∧ params.unbound = [] ∧
      (∀ t v, Latest history t v ↔ Latest history' t v) ∧
      Binder.condition ⟨params, none⟩ =
        Binder.condition ⟨(Params.ofStatement s).giveAll history', none⟩ := by
  intro s history history' params
  obtain ⟨-, -, -, found, -, unbound, same⟩ := latest_values_count s history
  have agree (t : Target) (v : Value) : Latest history t v ↔ Latest history' t v := by
    simp only [history, history', latest_cons_iff, given_cons_iff, not_latest_nil, not_given_nil,
      Binding.target, Binding.value]
    cases t <;> grind
  have latest : Latest history (.position 2) (.integer 9) :=
    ⟨[], _, _, rfl, rfl, rfl, by decide⟩
  refine ⟨(found _ _).mpr (.inl ⟨2, rfl, latest⟩), ?_, agree, (same history' agree none).2.1⟩
  rw [unbound]
  decide

end QueryTree
