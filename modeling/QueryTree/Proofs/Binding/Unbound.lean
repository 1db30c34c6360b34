import QueryTree.Proofs.Binding.History
import QueryTree.Proofs.Binding.Outcome

/-! # Placeholders without values

The placeholders of a statement without a value are exactly those that binding the statement
complains of, whatever has been given and whichever constants are known.
-/

namespace QueryTree

namespace Binder

variable {b : Binder} {name : String}

/-- One of the parameters goes by a name and has no value. -/
def Lacks (b : Binder) (ps : List Param) (name : String) : Prop :=
  ∃ p ∈ ps, b.params.get? p = none ∧ p.name = name

theorem Lacks.mono {ps qs : List Param} (h : b.Lacks ps name) (sub : ps ⊆ qs) :
    b.Lacks qs name := by
  obtain ⟨p, mem, lacking⟩ := h
  exact ⟨p, sub mem, lacking⟩

theorem lacks_of_missing {v : Operand} {r : Reference} (mem : r ∈ v.references)
    (h : b.missing? r = some (.unboundParameter name)) : b.Lacks v.params name := by
  cases r with
  | param p =>
    simp only [missing?, Option.ite_none_right_eq_some, Option.isNone_iff_eq_none,
      Option.some.injEq, BindError.unboundParameter.injEq] at h
    exact ⟨p, Operand.param_mem_references_iff.mp mem, h⟩
  | path path => simp [missing?] at h

theorem lacks_of_fault {x : Comparison Operand}
    (h : b.fault? x = some (.unboundParameter name)) : b.Lacks x.value.params name := by
  have shaped {op : Operator} {w : Value} : ¬ Misfit x.field op w (.unboundParameter name) := by
    rintro ⟨⟩
  rcases Option.or_eq_some_iff.mp h with missing | ⟨-, misfit⟩
  · obtain ⟨r, mem, missing⟩ := List.exists_of_findSome?_eq_some missing
    exact lacks_of_missing mem missing
  · exact absurd (shapeError?_eq_some_iff.mp misfit) shaped

theorem lacks_of_condition {c : Condition Operand}
    (h : b.condition c = .error (.unboundParameter name)) : b.Lacks c.params name := by
  rw [condition_eq, settle_eq_error_iff] at h
  obtain ⟨x, mem, fault⟩ := List.exists_of_findSome?_eq_some h
  apply (lacks_of_fault fault).mono
  rw [c.params_eq_flatMap_comparisons]
  exact fun p hp => List.mem_flatMap_of_mem mem hp

theorem lacks_of_assignments {items : List Assignment}
    (h : b.assignments items = .error (.unboundParameter name)) :
    b.Lacks (items.flatMap (·.value.params)) name := by
  rw [assignments_eq, settle_eq_error_iff] at h
  obtain ⟨r, mem, missing⟩ := List.exists_of_findSome?_eq_some h
  obtain ⟨a, ha, mem⟩ := List.mem_flatMap.mp mem
  exact (lacks_of_missing mem missing).mono fun p hp => List.mem_flatMap_of_mem ha hp

theorem get?_of_condition {c : Condition Operand} {p : Param}
    (h : ∃ d, b.condition c = .ok d) (mem : p ∈ c.params) : ∃ w, b.params.get? p = some w := by
  obtain ⟨d, bound⟩ := h
  obtain ⟨-, known, -⟩ := b.condition_eq_ok_iff.mp bound
  rw [c.params_eq_flatMap_comparisons] at mem
  obtain ⟨x, hx, mem⟩ := List.mem_flatMap.mp mem
  exact (known x hx).params p mem

theorem get?_of_assignments {items : List Assignment} {p : Param}
    (h : ∃ bound, b.assignments items = .ok bound) (mem : p ∈ items.flatMap (·.value.params)) :
    ∃ w, b.params.get? p = some w := by
  obtain ⟨a, ha, mem⟩ := List.mem_flatMap.mp mem
  have known := (b.value_ok_iff a.value).mp (b.assignments_ok_iff.mp h a ha)
  exact known.params p mem

end Binder

section Statements

variable {s : Statement} {b : Binder} {name : String}

/-- A statement is bound by binding its condition and its assignments. -/
def Statement.Binds (s : Statement) (b : Binder) : Prop :=
  (∀ c ∈ s.condition, ∃ d, b.condition c = .ok d) ∧
    ∃ items, b.assignments s.assignments = .ok items

def Statement.Fails (s : Statement) (b : Binder) (e : BindError) : Prop :=
  (∃ c ∈ s.condition, b.condition c = .error e) ∨ b.assignments s.assignments = .error e

theorem Statement.Fails.lacks (h : s.Fails b (.unboundParameter name)) : b.Lacks s.params name := by
  rcases h with ⟨c, hc, failed⟩ | failed
  · apply (Binder.lacks_of_condition failed).mono
    rw [Statement.params, Option.mem_def.mp hc]
    exact List.subset_append_right _ _
  · exact (Binder.lacks_of_assignments failed).mono (List.subset_append_left _ _)

theorem Statement.Binds.get? (h : s.Binds b) {p : Param} (mem : p ∈ s.params) :
    ∃ w, b.params.get? p = some w := by
  obtain ⟨condition, assignments⟩ := h
  rcases List.mem_append.mp mem with mem | mem
  · exact Binder.get?_of_assignments assignments mem
  · cases hc : s.condition with
    | none =>
      rw [hc] at mem
      cases mem
    | some c =>
      rw [hc] at mem
      exact Binder.get?_of_condition (condition c hc) mem

end Statements

/-- If no placeholder of a statement is reported to be without a value, then binding the statement
does not complain of one. If binding succeeds, then none is reported. If binding complains of a
name, then a placeholder of that name is reported. -/
theorem unbound_agrees_with_binding (s : Statement) (history : List Binding)
    (enums : Option EnumRegistry) :
    let params := (Params.ofStatement s).giveAll history
    (params.unbound = [] → ∀ name, ¬ s.Fails ⟨params, enums⟩ (.unboundParameter name)) ∧
      (s.Binds ⟨params, enums⟩ → params.unbound = []) ∧
      ∀ name, s.Fails ⟨params, enums⟩ (.unboundParameter name) →
        ∃ p ∈ params.unbound, p.name = name := by
  intro params
  have reported {p : Param} : p ∈ params.unbound ↔ p ∈ s.params ∧ params.get? p = none := by
    rw [Params.mem_unbound_iff, Params.placeholders_giveAll]
    exact and_congr_left fun _ => List.mem_eraseDups
  have named (name : String) (failed : s.Fails ⟨params, enums⟩ (.unboundParameter name)) :
      ∃ p ∈ params.unbound, p.name = name := by
    obtain ⟨p, mem, lacking, same⟩ := failed.lacks
    exact ⟨p, reported.mpr ⟨mem, lacking⟩, same⟩
  refine ⟨fun none name failed => ?_, fun binds => ?_, named⟩
  · obtain ⟨p, mem, -⟩ := named name failed
    rw [none] at mem
    cases mem
  · rw [List.eq_nil_iff_forall_not_mem]
    intro p mem
    obtain ⟨mem, lacking⟩ := reported.mp mem
    obtain ⟨w, found⟩ := binds.get? mem
    cases lacking.symm.trans found

theorem unbound_agrees_with_binding_update :
    let s : Statement := .update
      { entity := "Person", items := [⟨"a", .call "f" [.param (.named "x")]⟩],
        condition := some (.leaf "c" .in_ (.list [.param (.named "x"), .param (.positional 2)])) }
    let named := (Params.ofStatement s).giveAll [.byName "x" .null]
    let both := named.give (.byPosition 2 (.integer 4))
    (∃ p ∈ named.unbound, p.name = "?2") ∧ both.unbound = [] ∧
      ∀ name, ¬ s.Fails ⟨both, none⟩ (.unboundParameter name) := by
  intro s named both
  obtain ⟨-, -, reported⟩ := unbound_agrees_with_binding s [.byName "x" .null] none
  obtain ⟨silent, bound, -⟩ :=
    unbound_agrees_with_binding s [.byName "x" .null, .byPosition 2 (.integer 4)] none
  have none : both.unbound = [] := by
    refine bound ⟨fun c hc => ?_, _, rfl⟩
    obtain rfl := Option.some.inj hc
    exact ⟨_, rfl⟩
  exact ⟨reported "?2" (.inl ⟨_, rfl, rfl⟩), none, silent none⟩

end QueryTree
