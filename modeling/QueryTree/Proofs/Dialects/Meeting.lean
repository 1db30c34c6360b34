import QueryTree.Proofs.Dialects.Spelling
import QueryTree.Proofs.MethodName.Placement

/-! # Where the dialects meet

A statement that is derived from a method name, and that a query can ask for, is the statement of
the query written for it, up to the names of its parameters. Bound by position, both give the same.
-/

namespace QueryTree

open Grammar

/-- The operators of method names that no query has. -/
def Operator.unwritten : List Operator := [ignoreCase, in_, contains, startsWith, endsWith]

/-- A condition that a query can ask for. -/
structure Condition.Shared (c : Condition Operand) : Prop where
  operators : ∀ op ∈ c.operators, op ∉ Operator.unwritten
  fields : ∀ f ∈ c.fields, PathText f

theorem Condition.Shared.of_join {op : Operator} {c : Condition Operand}
    {cs : List (Condition Operand)} (h : Shared (join op cs)) (mem : c ∈ cs) : c.Shared :=
  ⟨fun o ho => h.operators o (operators_subset_join op mem ho),
    fun f hf => h.fields f (fields_subset_join op mem hf)⟩

theorem Condition.Shared.of_not {c : Condition Operand} (h : Shared (.node .not [c])) :
    c.Shared := by
  obtain ⟨operators, fields⟩ := h
  simp only [Condition.operators, operatorsAll, Condition.fields, fieldsAll, List.append_nil]
    at operators fields
  exact ⟨fun o ho => operators o (List.mem_cons_of_mem _ ho), fields⟩

namespace MethodName

/-! ## Segments -/

section Segment

variable {f name : String} {n : Nat}

theorem Test.spells {t : Test} (pos : 0 < n) (fits : n + t.arity ≤ UInt64.size)
    (shared : (t.comparison f (fun i => .param (.indexed name i)) n).Shared) :
    Spells Rule.Comparison (t.comparison f (fun i => .param (.indexed name i)) n).written
      (t.comparison f (fun i => .param (.indexed name i)) n).numbered := by
  have path : Spells Rule.Path f f :=
    PathText.spells (shared.fields f (by cases t <;> exact List.mem_singleton_self f))
  have first (h : 0 < t.arity) : n < UInt64.size := by omega
  cases t with
  | equals => exact path.mark .equal (spells_positional pos (first (by decide)))
  | greaterThan => exact path.mark .greater (spells_positional pos (first (by decide)))
  | greaterThanEqual => exact path.mark .greaterEqual (spells_positional pos (first (by decide)))
  | lessThan => exact path.mark .less (spells_positional pos (first (by decide)))
  | lessThanEqual => exact path.mark .lessEqual (spells_positional pos (first (by decide)))
  | like => exact path.like (spells_positional pos (first (by decide)))
  | between =>
    exact path.between (spells_positional pos (first (by decide)))
      (spells_positional n.succ_pos (Nat.lt_of_succ_le fits))
  | true_ => exact path.mark .equal (spells_boolean true)
  | false_ => exact path.mark .equal (spells_boolean false)
  | null => exact path.mark .equal spells_null
  | in_ | contains | startsWith | endsWith =>
    exact absurd (by decide) (shared.operators _ (List.mem_singleton_self _))

theorem Test.simple (t : Test) :
    (t.comparison f (fun i => .param (.indexed name i)) n).numbered.simplify =
      (t.comparison f (fun i => .param (.indexed name i)) n).numbered ∧
    (Condition.node .not [t.comparison f (fun i => .param (.indexed name i)) n]).numbered.simplify =
      (Condition.node .not [t.comparison f (fun i => .param (.indexed name i)) n]).numbered := by
  cases t <;> exact ⟨rfl, rfl⟩

theorem segment_readsBack (x : Wording.Segment) (pos : 0 < n)
    (fits : n + x.test.arity ≤ UInt64.size) (shared : (x.condition n).Shared) :
    ReadsBack Rule.Negation (x.condition n) := by
  have param : x.param = fun i => .param (.indexed (Text.lastSegment (x.field)) i) := rfl
  have uncased : .ignoreCase ∉ x.modifiers := by
    intro cased
    refine shared.operators .ignoreCase ?_ (by decide)
    simp only [Wording.Segment.condition, cased, if_true]
    split <;> simp [Condition.operators, Condition.operatorsAll]
  simp only [Wording.Segment.condition, uncased, if_false, param] at shared ⊢
  split at shared
  · next negated =>
    rw [if_pos negated]
    exact ⟨(Test.spells pos fits shared.of_not).not, (Test.simple _).2⟩
  · next plain =>
    rw [if_neg plain]
    exact ⟨(Test.spells pos fits shared).plain, (Test.simple _).1⟩

end Segment

/-! ## Numbering -/

section Numbering

variable {n : Nat}

open Wording (parameters)

theorem conditions_readBack {xs : List Wording.Segment} (pos : 0 < n)
    (fits : n + parameters xs ≤ UInt64.size)
    (shared : ∀ c ∈ Segment.conditions n (xs.map Wording.Segment.reading), c.Shared) :
    ∀ c ∈ Segment.conditions n (xs.map Wording.Segment.reading), ReadsBack Rule.Negation c := by
  induction xs generalizing n with
  | nil => exact fun c hc => absurd hc List.not_mem_nil
  | cons x xs ih =>
    have arity : x.reading.terminal.arity = x.test.arity := x.test.arity_terminal
    have total : parameters (x :: xs) = x.test.arity + parameters xs := by simp [parameters]
    rw [List.map_cons, Segment.conditions, x.condition_reading, arity,
      List.forall_mem_cons] at shared ⊢
    refine ⟨segment_readsBack x pos (by omega) shared.1, ih (by omega) (by omega) shared.2⟩

theorem conditions_ne_nil {xs : List Segment} (some : xs ≠ []) : Segment.conditions n xs ≠ [] := by
  cases xs with
  | nil => exact absurd rfl some
  | cons x xs => simp [Segment.conditions]

theorem groupConditions_readBack {groups : List Wording.Group} (pos : 0 < n)
    (fits : n + parameters (groups.flatMap Wording.Group.segments) ≤ UInt64.size)
    (shared : ∀ c ∈ Segment.groupConditions n (groups.map Wording.Group.reading), c.Shared) :
    ∀ c ∈ Segment.groupConditions n (groups.map Wording.Group.reading),
      ReadsBack Rule.Conjunction c := by
  induction groups generalizing n with
  | nil => exact fun c hc => absurd hc List.not_mem_nil
  | cons group groups ih =>
    have arity : Segment.arity group.reading = parameters group.segments :=
      Wording.arity_map_reading group.segments
    rw [List.flatMap_cons, Wording.parameters_append] at fits
    rw [List.map_cons, Segment.groupConditions, arity, List.forall_mem_cons] at shared ⊢
    refine ⟨?_, ih (by omega) (by omega) shared.2⟩
    refine ReadsBack.join (by decide) rfl .mk (conditions_ne_nil ?_) ?_
    · simpa [Wording.Group.reading] using group.some
    · exact conditions_readBack pos (by omega) fun c hc => shared.1.of_join hc

end Numbering

/-! ## Positions

A parameter takes a word of its own, so there are fewer parameters than characters.
-/

section Positions

theorem sum_length_le_intercalate (separator : List String) (ls : List (List String)) :
    (ls.map List.length).sum ≤ (separator.intercalate ls).length := by
  induction ls with
  | nil => exact Nat.zero_le _
  | cons l ls ih =>
    cases ls with
    | nil => simp
    | cons l' ls =>
      rw [List.intercalate_cons_cons, List.map_cons, List.sum_cons]
      simp only [List.length_append]
      omega

namespace Wording

theorem Segment.arity_le (x : Segment) : x.test.arity ≤ x.words.length := by
  have two : ∀ t : Test, t.arity ≤ 2 := by
    intro t
    cases t <;> decide
  obtain ⟨property, field, modifiers, stands, plain, once⟩ := x
  cases modifiers with
  | nil => exact Nat.le_refl 1
  | cons m modifiers =>
    refine (two _).trans ?_
    simp [Segment.words]

theorem Group.parameters_le (group : Group) : parameters group.segments ≤ group.words.length := by
  refine Nat.le_trans ?_ (sum_length_le_intercalate _ _)
  induction group.segments with
  | nil => exact Nat.zero_le _
  | cons x xs ih => exact Nat.add_le_add x.arity_le ih

theorem parameters_le (groups : List Group) :
    parameters (groups.flatMap Group.segments) ≤ (predicateWords groups).length := by
  refine Nat.le_trans ?_ (sum_length_le_intercalate _ _)
  induction groups with
  | nil => exact Nat.zero_le _
  | cons group groups ih =>
    rw [List.flatMap_cons, parameters_append]
    exact Nat.add_le_add group.parameters_le ih

theorem parameters_lt {method : String} {w : Wording} (h : MethodName.words method = w.words) :
    parameters ((w.predicate.getD []).flatMap Group.segments) < method.length := by
  refine Nat.lt_of_lt_of_le ?_ (h ▸ length_words_le method)
  cases hp : w.predicate with
  | none => simp [parameters, words]
  | some groups =>
    have := parameters_le groups
    simp only [Option.getD_some, words, clauseWords, hp, Option.elim, List.length_cons,
      List.length_append]
    omega

end Wording

end Positions

end MethodName

namespace Statement

def limit : Statement → Nat
  | select q => q.limit
  | _ => 0

structure Shared (s : Statement) : Prop where
  condition : ∀ c ∈ s.condition, c.Shared
  sorts : ∀ k ∈ s.sorts, PathText k.property
  limit : (s.limit : Int) ≤ Int64.maxValue.toInt

/-- The parameters of a statement with values that are given by position one after the other. -/
def bound (s : Statement) (values : List (Nat × Value)) : Params :=
  values.foldl (fun ps (n, v) => ps.bindPosition n v) (.ofStatement s)

theorem bound_eq (s : Statement) (values : List (Nat × Value)) :
    s.bound values = { Params.ofStatement s with byPosition := values.reverse } := by
  have given (ps : Params) : values.foldl (fun ps (n, v) => ps.bindPosition n v) ps =
      { ps with byPosition := values.reverse ++ ps.byPosition } := by
    induction values generalizing ps with
    | nil => rfl
    | cons value values ih =>
      rw [List.foldl_cons, ih, List.reverse_cons, List.append_assoc]
      rfl
  rw [bound, given]
  simp [Params.ofStatement]

end Statement

open MethodName

namespace MethodName.Wording

variable (w : Wording)

theorem condition_readsBack {c : Condition Operand}
    (fits : parameters ((w.predicate.getD []).flatMap Group.segments) < UInt64.size)
    (hc : c ∈ w.condition) (shared : c.Shared) : ReadsBack Rule.Disjunction c := by
  rw [← condition_derivation, Derivation.condition] at hc
  split at hc
  · cases hc
  · next some =>
    obtain rfl := Option.some.inj hc
    refine ReadsBack.join (by decide) rfl .mk ?_ ?_
    · cases groups : w.derivation.groups with
      | nil => exact absurd groups some
      | cons => simp [Segment.groupConditions]
    · exact groupConditions_readBack Nat.one_pos (by omega) fun c hc => shared.of_join hc

end MethodName.Wording

/-- The query written for a derived statement is a sentence for its numbered form. -/
theorem derive_sentence {method entity name : String} {s : Statement} (fallback : Option String)
    (derived : derive method entity = .ok s) (fits : method.length < UInt64.size)
    (identifier : lexemes entity = .ok [⟨.identifier name, entity⟩]) (shared : s.Shared) :
    ∃ ls, lexemes s.written = .ok ls ∧ Rule.Sentence fallback ls s.numbered := by
  obtain ⟨w, hw, rfl⟩ := derive_eq_ok_iff.mp derived
  have positions := Wording.parameters_lt hw
  obtain ⟨conditions, keys, bound⟩ := shared
  rw [w.condition_statement] at conditions
  have condition : ∀ c ∈ w.condition, ReadsBack Rule.Disjunction c := fun c hc =>
    w.condition_readsBack (positions.trans fits) hc (conditions c hc)
  have identifier := lexemes_eq_ok_iff_lexes.mp identifier
  simp only [lexemes_eq_ok_iff_lexes]
  unfold Wording.statement at keys bound ⊢
  split
  · exact sentence_delete fallback rfl identifier condition
  · next kept =>
    rw [if_neg kept] at keys bound
    exact sentence_select fallback rfl rfl identifier condition
      (fun k hk => (keys k hk).spells) bound

/-- A method name and the query written for it have the same statement up to the names of the
parameters, and the same condition once values are given by position. The number of characters of a
name is a machine word. -/
theorem dialects_meet (method entity name : String) (s : Statement)
    (derived : derive method entity = .ok s) (fits : method.length < UInt64.size)
    (identifier : lexemes entity = .ok [⟨.identifier name, entity⟩]) (shared : s.Shared) :
    (∀ fallback, parse s.written fallback = .ok s.numbered) ∧
      ∀ (values : List (Nat × Value)) (enums : Option EnumRegistry), ∀ c ∈ s.condition,
        ∃ c' ∈ s.numbered.condition,
          Binder.Agree (Binder.Misses ⟨s.bound values, enums⟩ c.params)
            (Binder.condition ⟨s.bound values, enums⟩ c)
            (Binder.condition ⟨s.numbered.bound values, enums⟩ c') := by
  refine ⟨fun fallback => parse_eq_ok_iff.mpr ?_, fun values enums c hc => ⟨c.numbered, ?_, ?_⟩⟩
  · exact derive_sentence fallback derived fits identifier shared
  · rw [Statement.condition_numbered]
    exact Option.mem_map_of_mem _ hc
  · have same : Binder.Positional ⟨s.bound values, enums⟩ ⟨s.numbered.bound values, enums⟩ := by
      rw [s.bound_eq, s.numbered.bound_eq]
      exact ⟨rfl, rfl, rfl, rfl⟩
    exact same.condition_numbered c

/-- The wording of `findTop3ByNameAndAgeNotBetweenOrActiveTrueOrderByNameDesc`. -/
def personWording : Wording where
  verb := .find
  before := 0
  bound := some ⟨true, some "3", by decide⟩
  after := 0
  predicate := some
    [⟨[⟨"Name", "name", [], standsFor_iff.mpr (by decide), by decide, by decide⟩,
       ⟨"Age", "age", [.not, .test .between], standsFor_iff.mpr (by decide), by decide, by decide⟩],
      by decide⟩,
     ⟨[⟨"Active", "active", [.test .true_], standsFor_iff.mpr (by decide), by decide, by decide⟩],
      by decide⟩]
  sorts := [⟨"Name", "name", some .desc, standsFor_iff.mpr (by decide), by decide⟩]
  searches _ := rfl
  kept h := by cases h
  goesOn _ h := by cases h

theorem dialects_meet_personWording :
    derive "findTop3ByNameAndAgeNotBetweenOrActiveTrueOrderByNameDesc" "Person" =
        .ok (personWording.statement "Person") ∧
      (personWording.statement "Person").Shared ∧
      parse ("FROM Person WHERE name = ?1 AND NOT age BETWEEN ?2 AND ?3 OR active = TRUE " ++
          "ORDER BY name DESC LIMIT 3") none =
        .ok (personWording.statement "Person").numbered := by
  have derived : derive "findTop3ByNameAndAgeNotBetweenOrActiveTrueOrderByNameDesc" "Person" =
      .ok (personWording.statement "Person") :=
    derive_eq_ok_iff.mpr ⟨personWording, by decide +kernel, rfl⟩
  have identifier : lexemes "Person" = .ok [⟨.identifier "Person", "Person"⟩] := by decide +kernel
  have path : ∀ f ∈ ["name", "age", "active"], PathText f := by
    have read : ∀ f ∈ ["name", "age", "active"], f.toList.all (!Text.isBlank ·) ∧
        lexemes f = .ok [⟨.identifier f, f⟩] := by
      decide +kernel
    exact fun f hf => ⟨by simpa using (read f hf).1, _, f, (read f hf).2, .single⟩
  have shared : (personWording.statement "Person").Shared := by
    refine ⟨fun c hc => ?_, fun k hk => path _ ?_, by decide⟩
    · obtain rfl : Wording.demand (personWording.predicate.getD []) = c := Option.some.inj hc
      have fields : (Wording.demand (personWording.predicate.getD [])).fields =
          ["name", "age", "active"] := by
        decide
      exact ⟨by decide, fields ▸ path⟩
    · obtain rfl := List.mem_singleton.mp hk
      decide
  have meet := dialects_meet _ _ _ _ derived (by decide) identifier shared
  exact ⟨derived, shared, meet.1 none⟩

end QueryTree
