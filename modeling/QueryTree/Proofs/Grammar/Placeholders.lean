import QueryTree.Binding.Params
import QueryTree.Proofs.Condition.Normal
import QueryTree.Proofs.Grammar.Induction
import QueryTree.Proofs.Grammar.Parse

/-! # The placeholders of a text

Whatever a rule derives has the parameters of the tokens that it takes, in their order. So the
parameters of a statement are those of its text.
-/

namespace QueryTree

namespace Token

def param? : Token → Option Param
  | named name => some (.named name)
  | positional n => some (.positional n)
  | _ => none

@[simp] theorem param?_integer (n : Int) : (integer n).param? = none := rfl

@[simp] theorem param?_null : null.param? = none := rfl

@[simp] theorem param?_identifier (name : String) : (identifier name).param? = none := rfl

@[simp] theorem param?_keyword (k : Keyword) : (keyword k).param? = none := rfl

@[simp] theorem param?_mark (m : Mark) : (mark m).param? = none := rfl

end Token

namespace Grammar

/-- The parameters that lexemes stand for, with repeats. -/
def placeholders (ls : List Lexeme) : List Param := ls.filterMap (·.token.param?)

@[simp] theorem placeholders_nil : placeholders [] = [] := rfl

@[simp] theorem placeholders_cons (t : Token) (text : String) (ls : List Lexeme) :
    placeholders (⟨t, text⟩ :: ls) = t.param?.toList ++ placeholders ls := by
  cases h : t.param? <;> simp [placeholders, h]

namespace Rule

variable {α : Type} {X : Rule α} {params : α → List Param} {fallback : Option String}

/-- What is derived has the parameters of the lexemes that are taken for it. -/
def Carries (X : Rule α) (params : α → List Param) : Prop :=
  ∀ ⦃ls a rest⦄, X ls a rest → placeholders ls = params a ++ placeholders rest

def Silent (X : Rule α) : Prop :=
  ∀ ⦃ls a rest⦄, X ls a rest → placeholders ls = placeholders rest

theorem Carries.chain (h : X.Carries params) {separator : Token}
    (silent : separator.param? = none) : (Chain separator X).Carries (·.flatMap params) := by
  intro ls as rest chained
  induction chained with
  | last first => simpa using h first
  | more first _ ih => simp [h first, ih, silent]

theorem Silent.carries (h : X.Silent) : X.Carries fun _ => [] := h

theorem Silent.chain (h : X.Silent) {separator : Token} (silent : separator.param? = none) :
    (Chain separator X).Silent := by
  intro ls as rest chained
  have none : as.flatMap (fun _ => ([] : List Param)) = [] := by simp [List.flatMap_eq_nil_iff]
  simpa [none] using h.carries.chain silent chained

theorem Carries.clause (h : X.Carries params) {k : Keyword} {absent : α}
    (none : params absent = []) : (Clause k X absent).Carries params := by
  intro ls a rest clause
  cases clause with
  | omitted => simp [none]
  | given body => simp [h body]

theorem Silent.clause (h : X.Silent) (k : Keyword) (absent : α) : (Clause k X absent).Silent :=
  h.carries.clause rfl

section Operands

theorem segment_silent : Segment.Silent := by
  intro ls s rest h
  cases h <;> simp

theorem segments_silent : (Chain (.mark .dot) Segment).Silent := segment_silent.chain rfl

theorem path_silent : Path.Silent := by
  intro ls p rest h
  cases h with
  | single => simp
  | dotted segments => simp [segments_silent segments]

theorem Literal.param?_toList {t : Token} {v : Operand} (h : Literal t v) :
    t.param?.toList = v.params := by
  cases h <;> simp [Token.param?, Operand.params]

theorem value_carries : Value.Carries Operand.params := by
  intro ls v rest h
  apply Value.induction (P := fun ls v rest => placeholders ls = v.params ++ placeholders rest) _ h
  constructor
  · intro t v text rest hl
    rw [placeholders_cons, hl.param?_toList]
  · intro name text opening closing rest
    simp [Operand.params, Operand.paramsAll]
  · intro name text opening ls args closing rest chained
    have carried := Carries.chain (fun _ _ _ h => h) rfl chained
    simp [carried, Operand.params, Operand.paramsAll_eq_flatMap]
  · intro name text dot ls segments rest hs
    simp [segments_silent hs, Operand.params]

theorem values_carry : (Chain (.mark .comma) Value).Carries (·.flatMap Operand.params) :=
  value_carries.chain rfl

end Operands

section Conditions

theorem wordComparison_carries (field : String) :
    (WordComparison field).Carries Condition.params := by
  intro ls c rest h
  cases h with
  | like hv => simp [value_carries hv, Condition.params_leaf]
  | in_ hi =>
    simp [values_carry hi, Condition.params_leaf, Operand.params, Operand.paramsAll_eq_flatMap]
  | between hl hh =>
    simp [value_carries hl, value_carries hh, Condition.params_leaf, Operand.params,
      Operand.paramsAll]

theorem comparison_carries : Comparison.Carries Condition.params := by
  intro ls c rest h
  cases h with
  | mark hp _ hv => simp [path_silent hp, value_carries hv, Condition.params_leaf]
  | word hp hw => rw [path_silent hp, wordComparison_carries _ hw]
  | notWord hp hw => simp [path_silent hp, wordComparison_carries _ hw, Condition.params_node]
  | isNull hp => simp [path_silent hp, Condition.params_leaf, Operand.params]
  | isNotNull hp =>
    simp [path_silent hp, Condition.params_node, Condition.params_leaf, Operand.params]

theorem disjunction_carries : Disjunction.Carries Condition.params := by
  intro ls c rest h
  refine Disjunction.induction
    (P := fun ls c rest => placeholders ls = c.params ++ placeholders rest) ?_ h
  constructor
  · intro ls c rest hc
    exact comparison_carries hc
  · intro opening ls c closing rest inside
    simpa using inside
  · intro text ls c rest negated
    simpa [Condition.params_node] using negated
  · intro ls cs rest chained
    rw [Condition.params_join]
    exact Carries.chain (fun _ _ _ h => h) rfl chained
  · intro ls cs rest chained
    rw [Condition.params_join]
    exact Carries.chain (fun _ _ _ h => h) rfl chained

theorem where_carries : Where.Carries fun o => (o.map Condition.params).getD [] := by
  rintro ls o rest ⟨h, collapsed⟩
  simpa [collapsed_iff.mp collapsed, Condition.params_simplify] using disjunction_carries h

end Conditions

section Statements

theorem key_silent : Key.Silent := by
  intro ls k rest h
  cases h with
  | plain hp => exact path_silent hp
  | asc hp => simp [path_silent hp]
  | desc hp => simp [path_silent hp]

theorem order_silent : Order.Silent := by
  rintro ls keys rest ⟨h⟩
  simp [key_silent.chain rfl h]

theorem rows_silent : Rows.Silent := by
  rintro ls n rest ⟨⟩
  simp

theorem entity_silent : (Entity fallback).Silent := by
  intro ls name rest h
  cases h <;> simp

theorem paths_silent : (Chain (.mark .comma) Path).Silent := path_silent.chain rfl

theorem selection_silent : Selection.Silent := by
  intro ls selected rest h
  cases h with
  | star => simp
  | count => simp
  | fields hp => exact paths_silent hp

theorem source_silent : (Source fallback).Silent := by
  intro ls entity rest h
  cases h with
  | from_ he => simp [entity_silent he]
  | bare _ he => exact entity_silent he

theorem head_silent : (Head fallback).Silent := by
  intro ls head rest h
  cases h with
  | from_ he => simp [entity_silent he]
  | selectFrom he => simp [entity_silent he]
  | selection hs source => simp [selection_silent hs, source_silent source]

theorem deleted_silent : Deleted.Silent := by
  intro ls fields rest h
  cases h with
  | whole => simp
  | fields hp => simp [paths_silent hp]

theorem item_carries : Item.Carries (·.value.params) := by
  rintro ls a rest ⟨hp, hv⟩
  simp [path_silent hp, value_carries hv]

theorem whereClause_carries :
    (Clause .where_ Where none).Carries fun o => (o.map Condition.params).getD [] :=
  where_carries.clause rfl

theorem Clauses.placeholders_eq {fields : List String} {count : Bool} {entity : String}
    {ls : List Lexeme} {s : Statement} (h : Clauses fields count entity ls s) :
    placeholders ls = s.params := by
  obtain ⟨hw, ho, hs, hl⟩ := h
  rw [whereClause_carries hw, order_silent.clause _ _ ho, rows_silent.clause _ _ hs,
    rows_silent.clause _ _ hl]
  simp [Statement.params, Statement.assignments, Statement.condition]

theorem Sentence.placeholders_eq {ls : List Lexeme} {s : Statement}
    (h : Sentence fallback ls s) : placeholders ls = s.params := by
  cases h with
  | select head clauses => rw [head_silent head, clauses.placeholders_eq]
  | delete hd he hw =>
    simp [deleted_silent hd, entity_silent he, whereClause_carries hw, Statement.params,
      Statement.assignments, Statement.condition]
  | update he hi hw =>
    simp [entity_silent he, item_carries.chain rfl hi, whereClause_carries hw, Statement.params,
      Statement.assignments, Statement.condition]

end Statements

end Rule

end Grammar

open Grammar

/-- The parameters of a statement are those of its text in their order, and its placeholders are
these without what occurred before. -/
theorem params_eq_of_parse (text : String) (fallback : Option String) (s : Statement)
    (parsed : parse text fallback = .ok s) :
    ∃ ts, tokenize text = .ok ts ∧ s.params = ts.filterMap Token.param? ∧
      (Params.ofStatement s).placeholders = (ts.filterMap Token.param?).eraseDups := by
  obtain ⟨ls, read, sentence⟩ := parse_eq_ok_iff.mp parsed
  have same : s.params = (ls.map Lexeme.token).filterMap Token.param? := by
    rw [← sentence.placeholders_eq, List.filterMap_map]
    rfl
  refine ⟨ls.map Lexeme.token, ?_, same, ?_⟩
  · rw [tokenize, read]
    rfl
  · rw [Params.ofStatement, same]

theorem params_eq_of_parse_update :
    ∃ s, parse "UPDATE Person SET a = f(:x, ?1) WHERE b IN (:x, ?3) AND NOT c BETWEEN ?1 AND :y"
        none = .ok s ∧
      s.params = [.named "x", .positional 1, .named "x", .positional 3, .positional 1, .named "y"] ∧
      (Params.ofStatement s).placeholders =
        [.named "x", .positional 1, .positional 3, .named "y"] := by
  let text := "UPDATE Person SET a = f(:x, ?1) WHERE b IN (:x, ?3) AND NOT c BETWEEN ?1 AND :y"
  have isUpdate : (parse text none).map Statement.kind = .ok .update := by decide +kernel
  have occurring : (tokenize text).map (·.filterMap Token.param?) =
      .ok [.named "x", .positional 1, .named "x", .positional 3, .positional 1, .named "y"] := by
    decide +kernel
  obtain ⟨s, parsed, -⟩ := Except.map_eq_ok_iff.mp isUpdate
  obtain ⟨ts, read, params, placeholders⟩ := params_eq_of_parse text none s parsed
  simp only [read, Except.map, Except.ok.injEq] at occurring
  rw [occurring] at params placeholders
  exact ⟨s, parsed, params, placeholders.trans (by decide)⟩

end QueryTree
