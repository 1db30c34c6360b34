import Mathlib.Data.List.Lattice
import Mathlib.Data.List.Pairwise
import QueryTree.Proofs.Binding.Outcome
import QueryTree.Proofs.Condition.Shape
import QueryTree.Proofs.MethodName.Positions

/-! # Suitable values

Whatever is parsed or derived can be bound. All it takes is a value for each placeholder: a
collection where `IN` is given the placeholder alone, a single value elsewhere.
-/

namespace QueryTree

section Paths

open Text

theorem segments_append_dot (a b : List Char) :
    segments (String.ofList (a ++ '.' :: b)) =
      segments (String.ofList a) ++ segments (String.ofList b) := by
  simp only [segments, String.toList_ofList, List.splitOn]
  rw [List.splitOnP_append_cons a b (by decide), List.map_append]

theorem exists_lastTwo?_of_dot {s : String} (h : '.' ∈ s.toList) : ∃ p, lastTwo? s = some p := by
  obtain ⟨a, b, split⟩ := List.append_of_mem h
  have two : 2 ≤ (segments s).reverse.length := by
    have := List.length_pos_iff.mpr (segments_ne_nil (String.ofList a))
    have := List.length_pos_iff.mpr (segments_ne_nil (String.ofList b))
    rw [← String.ofList_toList (s := s), split, segments_append_dot, List.length_reverse,
      List.length_append]
    omega
  unfold lastTwo?
  match (segments s).reverse, two with
  | last :: secondLast :: _, _ => exact ⟨_, rfl⟩

end Paths

def Operand.Dotted (v : Operand) : Prop := ∀ path ∈ v.paths, '.' ∈ path.toList

theorem Operand.dotted_list {items : List Operand} (h : ∀ v ∈ items, v.Dotted) :
    (list items).Dotted := by
  intro path mem
  rw [paths, pathsAll_eq_flatMap] at mem
  obtain ⟨v, hv, mem⟩ := List.mem_flatMap.mp mem
  exact h v hv path mem

namespace Grammar.Rule

variable {ls rest : List Lexeme} {c : Condition Operand} {fallback : Option String}

theorem Value.dotted {v : Operand} (h : Value ls v rest) : v.Dotted := by
  apply Value.induction (P := fun _ v _ => v.Dotted) _ h
  constructor
  · intro t v text rest hl path mem
    cases hl <;> cases mem
  · intro name text opening closing rest path mem
    cases mem
  · intro name text opening ls args closing rest chained path mem
    exact Operand.dotted_list (chained.forall_mem id) path mem
  · intro name text dot ls segments rest chained path mem
    obtain rfl := List.mem_singleton.mp mem
    rw [String.intercalate_cons_of_ne_nil chained.ne_nil]
    simp

theorem WordComparison.dotted {field : String} (h : WordComparison field ls c rest) :
    ∀ v ∈ c.values, v.Dotted := by
  cases h with
  | like hv => exact List.forall_mem_singleton.mpr hv.dotted
  | in_ hi => exact List.forall_mem_singleton.mpr (Operand.dotted_list (hi.forall_mem Value.dotted))
  | @between _ _ low _ _ high _ hl hh =>
    have bounds : ∀ v ∈ [low, high], v.Dotted := by
      simpa using ⟨hl.dotted, hh.dotted⟩
    exact List.forall_mem_singleton.mpr (Operand.dotted_list bounds)

theorem Comparison.dotted (h : Comparison ls c rest) : ∀ v ∈ c.values, v.Dotted := by
  have null : Operand.null.Dotted := List.forall_mem_nil _
  cases h with
  | mark _ _ hv => exact List.forall_mem_singleton.mpr hv.dotted
  | word _ hw => exact hw.dotted
  | notWord _ hw => simpa [Condition.values, Condition.valuesAll] using hw.dotted
  | isNull => exact List.forall_mem_singleton.mpr null
  | isNotNull => simpa [Condition.values, Condition.valuesAll] using null

theorem Disjunction.dotted (h : Disjunction ls c rest) : ∀ v ∈ c.values, v.Dotted := by
  apply Disjunction.induction (P := fun _ c _ => ∀ v ∈ c.values, v.Dotted) _ h
  constructor
  · intro ls c rest hc
    exact hc.dotted
  · intro opening ls c closing rest inside
    exact inside
  · intro text ls c rest negated
    simpa [Condition.values, Condition.valuesAll] using negated
  · intro ls cs rest chained v mem
    rw [Condition.values_join] at mem
    obtain ⟨c, hc, mem⟩ := List.mem_flatMap.mp mem
    exact chained.forall_mem id c hc v mem
  · intro ls cs rest chained v mem
    rw [Condition.values_join] at mem
    obtain ⟨c, hc, mem⟩ := List.mem_flatMap.mp mem
    exact chained.forall_mem id c hc v mem

theorem Sentence.dotted {s : Statement} (h : Sentence fallback ls s) (hc : c ∈ s.condition) :
    ∀ v ∈ c.values, v.Dotted := by
  obtain ⟨_, d, _, derived, rfl⟩ := h.exists_disjunction hc
  rw [Condition.values_simplify]
  exact derived.dotted

theorem Sentence.assignments_dotted {s : Statement} (h : Sentence fallback ls s) :
    ∀ a ∈ s.assignments, a.value.Dotted := by
  intro a ha
  obtain ⟨_, _, derived⟩ := h.exists_value ha
  exact derived.dotted

end Grammar.Rule

/-- Only for a parameter can a flat operand be filled with a collection. -/
theorem Operand.isCollection_filled_iff {params : Params} {v : Operand} (flat : v.isFlat) :
    (v.filled params).isCollection ↔
      ∃ p, v = .param p ∧ ∃ w, params.get? p = some w ∧ w.isCollection := by
  cases v with
  | list => cases flat
  | param p => cases found : params.get? p <;> simp [filled, found, Value.isCollection]
  | enum path =>
    cases constant : Value.ofEnumPath? path with
    | none => simp [filled, constant, Value.isCollection]
    | some w =>
      obtain ⟨⟨type, name⟩, -, rfl⟩ := Option.map_eq_some_iff.mp constant
      simp [filled, constant, Value.isCollection]
  | _ => simp [filled, Value.isCollection]

namespace Comparison

/-- The comparisons of queries and method names. -/
inductive Plain : Comparison Operand → Prop where
  | single {field op v} : op ≠ .between → v.isFlat → Plain ⟨field, op, v⟩
  | items {field vs} : (∀ v ∈ vs, v.isFlat) → Plain ⟨field, .in_, .list vs⟩
  | bounds {field low high} : low.isFlat → high.isFlat →
      Plain ⟨field, .between, .list [low, high]⟩

variable {x : Comparison Operand}

/-- A list that is written out is bound once everything in it is found. -/
theorem Plain.list_bound_iff (plain : x.Plain) {vs : List Operand} (written : x.value = .list vs)
    (b : Binder) :
    (∃ d, b.condition x.condition = .ok d) ↔ b.Knows x.value.params x.value.paths := by
  rw [b.comparison_bound_iff, Binder.fault?_eq_none_iff, and_iff_left_iff_imp]
  intro _
  cases plain with
  | single _ flat =>
    subst written
    cases flat
  | items => exact .collection
  | bounds => exact .bounds

end Comparison

namespace Condition

variable {x : Comparison Operand}

theorem WellFormed.plain (h : x.condition.WellFormed) : x.Plain := by
  obtain ⟨field, op, v⟩ := x
  cases h with
  | single hop flat =>
    have hop : op ∈ singleOperators := hop
    refine .single ?_ flat
    rintro rfl
    exact absurd hop (by decide)
  | in_ _ flat => exact .items flat
  | between hl hh => exact .bounds hl hh

theorem Elementary.plain (h : x.condition.Elementary) : x.Plain := by
  obtain ⟨field, op, v⟩ := x
  cases h with
  | param hop =>
    have hop : op ∈ paramOperators := hop
    refine .single ?_ rfl
    rintro rfl
    exact absurd hop (by decide)
  | between => exact .bounds rfl rfl
  | _ => exact .single (by decide) rfl

end Condition

/-- Every parameter has a value, which is a collection for those that are `collected` and a single
value for the others. -/
def Params.Suits (params : Params) (collected ps : List Param) : Prop :=
  ∀ p ∈ ps, ∃ v, params.get? p = some v ∧ (v.isCollection ↔ p ∈ collected)

theorem Params.Suits.mono {params : Params} {collected ps qs : List Param}
    (h : params.Suits collected ps) (sub : qs ⊆ ps) : params.Suits collected qs :=
  fun p hp => h p (sub hp)

namespace Condition

variable {c : Condition Operand} {field field' : String} {op op' : Operator} {v v' : Operand}

def collected (c : Condition Operand) : List Param :=
  c.parts.flatMap fun
    | leaf _ .in_ v => v.params
    | _ => []

theorem mem_collected_iff {p : Param} :
    p ∈ c.collected ↔ ∃ field v, leaf field .in_ v ∈ c.parts ∧ p ∈ v.params := by
  rw [collected, List.mem_flatMap]
  constructor
  · rintro ⟨d, hd, hp⟩
    split at hp
    · exact ⟨_, _, hd, hp⟩
    · cases hp
  · rintro ⟨field, v, hd, hp⟩
    exact ⟨_, hd, hp⟩

theorem params_subset_of_mem_parts (h : leaf field op v ∈ c.parts) : v.params ⊆ c.params := by
  intro p hp
  exact List.mem_flatMap.mpr ⟨v, value_mem_of_mem_parts h, hp⟩

theorem leaf_eq_of_mem_params (nodup : c.params.Nodup) {p : Param}
    (h : leaf field op v ∈ c.parts) (h' : leaf field' op' v' ∈ c.parts) (hp : p ∈ v.params)
    (hp' : p ∈ v'.params) : leaf field op v = leaf field' op' v' := by
  induction c with
  | leaf => exact (List.mem_singleton.mp h).trans (List.mem_singleton.mp h').symm
  | node _ cs ih =>
    rw [parts_node, List.mem_cons, or_iff_right (by rintro ⟨⟩), List.mem_flatMap] at h h'
    obtain ⟨d, hd, h⟩ := h
    obtain ⟨d', hd', h'⟩ := h'
    rw [params_node, List.nodup_flatMap] at nodup
    obtain ⟨each, apart⟩ := nodup
    by_cases same : d = d'
    · subst same
      exact ih d hd (each d hd) h h'
    · have : Std.Symm (Function.onFun List.Disjoint params) := ⟨fun _ _ => List.Disjoint.symm⟩
      have disjoint : d.params.Disjoint d'.params := apart.forall hd hd' same
      exact absurd (params_subset_of_mem_parts h' hp')
        (disjoint (params_subset_of_mem_parts h hp))

theorem not_mem_collected (nodup : c.params.Nodup) (other : op ≠ .in_)
    (h : leaf field op v ∈ c.parts) {p : Param} (hp : p ∈ v.params) : p ∉ c.collected := by
  rw [mem_collected_iff]
  rintro ⟨field', v', h', hp'⟩
  exact other (leaf.inj (leaf_eq_of_mem_params nodup h h' hp hp')).2.1

end Condition

namespace Binder

variable {b : Binder} {params : Params} {field : String} {op : Operator} {v : Operand} {w : Value}

section Shape

theorem not_isCollection_of_value (h : b.value v = .ok w) (flat : v.isFlat)
    (single : ∀ p ∈ v.params, ∀ u, b.params.get? p = some u → ¬ u.isCollection) :
    ¬ w.isCollection := by
  rw [value_eq, settle_eq_ok_iff] at h
  obtain ⟨-, rfl⟩ := h
  rw [Operand.isCollection_filled_iff flat]
  rintro ⟨p, rfl, u, found, collection⟩
  exact single p List.mem_cons_self u found collection

theorem fits_in (collects : w.isCollection) : Fits .in_ w := by
  cases w with
  | list items => exact .collection
  | _ => cases collects

end Shape

section Comparisons

theorem enum_ok_of_dot {path : String} (h : '.' ∈ path.toList) :
    ∃ w, Binder.enum ⟨params, none⟩ path = .ok w := by
  obtain ⟨⟨type, constant⟩, found⟩ := exists_lastTwo?_of_dot h
  exact ⟨.enum type constant, by simp [enum, Value.ofEnumPath?, found]⟩

theorem knows_of_suits {collected : List Param} (suits : params.Suits collected v.params)
    (dotted : v.Dotted) : Knows ⟨params, none⟩ v.params v.paths where
  params p hp := by
    obtain ⟨w, found, -⟩ := suits p hp
    exact ⟨w, found⟩
  constants path hp := enum_ok_of_dot (dotted path hp)

theorem leaf_ok_of_wellFormed (formed : (Condition.leaf field op v).WellFormed) (dotted : v.Dotted)
    (suits : params.Suits [] v.params) :
    ∃ d, Binder.leaf ⟨params, none⟩ field op v = .ok d := by
  have known := knows_of_suits suits dotted
  have plain : Comparison.Plain ⟨field, op, v⟩ := Condition.WellFormed.plain formed
  cases formed with
  | single hop flat =>
    obtain ⟨w, hw⟩ := (value_ok_iff _ v).mpr known
    refine (leaf_ok_iff _).mpr ⟨w, hw, .single ?_ ?_ (not_isCollection_of_value hw flat ?_)⟩
    · rintro rfl
      exact absurd hop (by decide)
    · rintro rfl
      exact absurd hop (by decide)
    · intro p hp u found
      obtain ⟨u', found', single⟩ := suits p hp
      obtain rfl := Option.some.inj (found.symm.trans found')
      exact fun h => List.not_mem_nil (single.mp h)
  | in_ => exact (plain.list_bound_iff rfl _).mpr known
  | between => exact (plain.list_bound_iff rfl _).mpr known

theorem leaf_ok_of_elementary {c : Condition Operand} (nodup : c.params.Nodup)
    (mem : .leaf field op v ∈ c.parts) (elementary : (Condition.leaf field op v).Elementary)
    (suits : params.Suits c.collected v.params) :
    ∃ d, Binder.leaf ⟨params, none⟩ field op v = .ok d := by
  have plain : Comparison.Plain ⟨field, op, v⟩ := Condition.Elementary.plain elementary
  cases elementary with
  | @param _ _ p hop =>
    obtain ⟨w, found, collection⟩ := suits p List.mem_cons_self
    refine (leaf_ok_iff _).mpr ⟨w, by simp [value, param, found], ?_⟩
    by_cases collects : op = .in_
    · subst collects
      apply fits_in
      rw [collection, Condition.mem_collected_iff]
      exact ⟨field, .param p, mem, List.mem_cons_self⟩
    · refine .single collects ?_ ?_
      · rintro rfl
        exact absurd hop (by decide)
      · rw [collection]
        exact Condition.not_mem_collected nodup collects mem List.mem_cons_self
  | between => exact (plain.list_bound_iff rfl _).mpr (knows_of_suits suits (by rintro _ ⟨⟩))
  | boolean => exact ⟨_, rfl⟩
  | null => exact ⟨_, rfl⟩

end Comparisons

end Binder

section Statements

variable {s : Statement} {c : Condition Operand}

theorem Statement.params_subset_placeholders (s : Statement) :
    s.params ⊆ (Params.ofStatement s).placeholders := by
  intro p hp
  exact List.mem_eraseDups.mpr hp

theorem Statement.condition_params_subset (hc : c ∈ s.condition) : c.params ⊆ s.params := by
  obtain hc : s.condition = some c := hc
  intro p hp
  simp [Statement.params, hc, hp]

theorem Statement.assignment_params_subset {a : Assignment} (ha : a ∈ s.assignments) :
    a.value.params ⊆ s.params := by
  intro p hp
  exact List.mem_append_left _ (List.mem_flatMap.mpr ⟨a, ha, hp⟩)

end Statements

open Grammar

/-- With suitable values for its placeholders a statement is bound. A query needs single values, a
method name collections for the parameters of `IN` and single values for the others. -/
theorem binds_of_suits (params : Params) :
    (∀ text fallback s, parse text fallback = .ok s →
      params.Suits [] (Params.ofStatement s).placeholders →
        (∀ c ∈ s.condition, ∃ d, Binder.condition ⟨params, none⟩ c = .ok d) ∧
          ∃ items, Binder.assignments ⟨params, none⟩ s.assignments = .ok items) ∧
    ∀ method entity s, derive method entity = .ok s → ∀ c ∈ s.condition,
      params.Suits c.collected (Params.ofStatement s).placeholders →
        ∃ d, Binder.condition ⟨params, none⟩ c = .ok d := by
  constructor
  · intro text fallback s parsed suits
    obtain ⟨ls, -, sentence⟩ := parse_eq_ok_iff.mp parsed
    have suits := suits.mono s.params_subset_placeholders
    constructor
    · intro c hc
      have suits := suits.mono (Statement.condition_params_subset hc)
      obtain ⟨d, formed, rfl⟩ := sentence.simplified hc
      rw [Binder.condition_ok_iff]
      intro field op v mem
      apply Binder.leaf_ok_of_wellFormed (formed.simplify.of_mem_parts mem)
      · exact sentence.dotted hc v (Condition.value_mem_of_mem_parts mem)
      · exact suits.mono (Condition.params_subset_of_mem_parts mem)
    · rw [Binder.assignments_ok_iff]
      intro a ha
      have suits := suits.mono (Statement.assignment_params_subset ha)
      have known := Binder.knows_of_suits suits (sentence.assignments_dotted a ha)
      exact (Binder.value_ok_iff _ _).mpr known
  · intro method entity s derived c hc suits
    have suits := suits.mono s.params_subset_placeholders
    have suits := suits.mono (Statement.condition_params_subset hc)
    have layered : c.Layered := layered_of_derive derived hc
    rw [Binder.condition_ok_iff]
    intro field op v mem
    apply Binder.leaf_ok_of_elementary (nodup_params_of_derive derived hc) mem (layered.leaf mem)
    exact suits.mono (Condition.params_subset_of_mem_parts mem)

theorem binds_of_suits_person :
    (∃ s c, parse "UPDATE Person SET a = f(:x), b = T.U WHERE c IN (:x, 3) OR d BETWEEN 1 AND ?2"
          none = .ok s ∧ s.condition = some c ∧
        (∃ d, Binder.condition ⟨⟨[], [("x", .integer 4)], [(2, .null)]⟩, none⟩ c = .ok d) ∧
        ∃ items, Binder.assignments ⟨⟨[], [("x", .integer 4)], [(2, .null)]⟩, none⟩ s.assignments =
          .ok items) ∧
      ∃ s c, derive "findByNameInAndAgeBetween" "Person" = .ok s ∧ s.condition = some c ∧
        ∃ d, Binder.condition ⟨⟨[], [("age", .null)], [(1, .list [.null])]⟩, none⟩ c = .ok d := by
  let text := "UPDATE Person SET a = f(:x), b = T.U WHERE c IN (:x, 3) OR d BETWEEN 1 AND ?2"
  let method := "findByNameInAndAgeBetween"
  have queried : (parse text none).map (fun s =>
      (s.condition.isSome, (Params.ofStatement s).placeholders)) =
        .ok (true, [.named "x", .positional 2]) := by decide +kernel
  have named : (derive method "Person").map (fun s =>
      (s.condition.map Condition.collected, (Params.ofStatement s).placeholders)) =
        .ok (some [.indexed "name" 1],
          [.indexed "name" 1, .indexed "age" 2, .indexed "age" 3]) := by
    decide +kernel
  constructor
  · obtain ⟨s, parsed, same⟩ := Except.map_eq_ok_iff.mp queried
    obtain ⟨given, placeholders⟩ := Prod.mk.inj same
    obtain ⟨c, hc⟩ := Option.isSome_iff_exists.mp given
    have suits : Params.Suits ⟨[], [("x", .integer 4)], [(2, .null)]⟩ []
        (Params.ofStatement s).placeholders := by
      rw [placeholders]
      simp [Params.Suits, Params.get?, Param.named, Param.positional, Value.isCollection]
    obtain ⟨condition, assignments⟩ := (binds_of_suits _).1 text none s parsed suits
    exact ⟨s, c, parsed, hc, condition c hc, assignments⟩
  · obtain ⟨s, derived, same⟩ := Except.map_eq_ok_iff.mp named
    obtain ⟨collected, placeholders⟩ := Prod.mk.inj same
    obtain ⟨c, hc, collected⟩ := Option.map_eq_some_iff.mp collected
    have suits : Params.Suits ⟨[], [("age", .null)], [(1, .list [.null])]⟩ c.collected
        (Params.ofStatement s).placeholders := by
      rw [placeholders, collected]
      simp [Params.Suits, Params.get?, Param.indexed, Value.isCollection]
    exact ⟨s, c, derived, hc, (binds_of_suits _).2 method "Person" s derived c hc suits⟩

end QueryTree
