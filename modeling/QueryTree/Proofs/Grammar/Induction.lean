import QueryTree.Proofs.Grammar.Clause

/-! # Induction on derivations

The rules of operands and of conditions refer to each other, and to themselves through chains. A
relation that is closed under the steps of these rules holds of all that they derive.
-/

namespace QueryTree.Grammar.Rule

section Operands

/-- A relation that the steps of the rule of operands do not lead out of. -/
structure ClosedOnValues (P : Rule Operand) : Prop where
  literal : ∀ {t v text rest}, Literal t v → P (⟨t, text⟩ :: rest) v rest
  emptyCall : ∀ {name text opening closing rest},
    P (⟨.identifier name, text⟩ :: ⟨.mark .opening, opening⟩ :: ⟨.mark .closing, closing⟩ :: rest)
      (.call (Text.upper name) []) rest
  call : ∀ {name text opening ls args closing rest},
    Chain (.mark .comma) P ls args (⟨.mark .closing, closing⟩ :: rest) →
      P (⟨.identifier name, text⟩ :: ⟨.mark .opening, opening⟩ :: ls)
        (.call (Text.upper name) args) rest
  constant : ∀ {name text dot ls segments rest}, Chain (.mark .dot) Segment ls segments rest →
    P (⟨.identifier name, text⟩ :: ⟨.mark .dot, dot⟩ :: ls)
      (.enum (".".intercalate (name :: segments))) rest

variable {P : Rule Operand}

mutual

theorem Value.induction (closed : ClosedOnValues P) {ls rest : List Lexeme} {v : Operand} :
    Value ls v rest → P ls v rest
  | .literal hl => closed.literal hl
  | .emptyCall => closed.emptyCall
  | .call args => closed.call (Value.chain closed args)
  | .constant segments => closed.constant segments

theorem Value.chain (closed : ClosedOnValues P) {ls rest : List Lexeme} {vs : List Operand} :
    Chain (.mark .comma) Value ls vs rest → Chain (.mark .comma) P ls vs rest
  | .last first => .last (Value.induction closed first)
  | .more first others => .more (Value.induction closed first) (Value.chain closed others)

end

end Operands

section Conditions

structure ClosedOnConditions (P : Rule (Condition Operand)) : Prop where
  comparison : ∀ {ls c rest}, Comparison ls c rest → P ls c rest
  parentheses : ∀ {opening ls c closing rest}, P ls c (⟨.mark .closing, closing⟩ :: rest) →
    P (⟨.mark .opening, opening⟩ :: ls) c rest
  not : ∀ {text ls c rest}, P ls c rest → P (⟨.keyword .not, text⟩ :: ls) (.node .not [c]) rest
  and : ∀ {ls cs rest}, Chain (.keyword .and) P ls cs rest → P ls (.join .and cs) rest
  or : ∀ {ls cs rest}, Chain (.keyword .or) P ls cs rest → P ls (.join .or cs) rest

variable {P : Rule (Condition Operand)}

mutual

theorem Primary.induction (closed : ClosedOnConditions P) {ls rest : List Lexeme}
    {c : Condition Operand} : Primary ls c rest → P ls c rest
  | .comparison hc => closed.comparison hc
  | .parentheses inside => closed.parentheses (Disjunction.induction closed inside)

theorem Negation.induction (closed : ClosedOnConditions P) {ls rest : List Lexeme}
    {c : Condition Operand} : Negation ls c rest → P ls c rest
  | .plain hp => Primary.induction closed hp
  | .not hp => closed.not (Primary.induction closed hp)

theorem Negation.chain (closed : ClosedOnConditions P) {ls rest : List Lexeme}
    {cs : List (Condition Operand)} :
    Chain (.keyword .and) Negation ls cs rest → Chain (.keyword .and) P ls cs rest
  | .last first => .last (Negation.induction closed first)
  | .more first others => .more (Negation.induction closed first) (Negation.chain closed others)

theorem Conjunction.induction (closed : ClosedOnConditions P) {ls rest : List Lexeme}
    {c : Condition Operand} : Conjunction ls c rest → P ls c rest
  | .mk items joined => (joined_iff.mp joined).2 ▸ closed.and (Negation.chain closed items)

theorem Conjunction.chain (closed : ClosedOnConditions P) {ls rest : List Lexeme}
    {cs : List (Condition Operand)} :
    Chain (.keyword .or) Conjunction ls cs rest → Chain (.keyword .or) P ls cs rest
  | .last first => .last (Conjunction.induction closed first)
  | .more first others =>
    .more (Conjunction.induction closed first) (Conjunction.chain closed others)

theorem Disjunction.induction (closed : ClosedOnConditions P) {ls rest : List Lexeme}
    {c : Condition Operand} : Disjunction ls c rest → P ls c rest
  | .mk items joined => (joined_iff.mp joined).2 ▸ closed.or (Conjunction.chain closed items)

end

end Conditions

section Statements

variable {fallback : Option String} {ls rest : List Lexeme} {s : Statement}
  {c : Condition Operand}

theorem Chain.forall_mem {α : Type} {separator : Token} {item : Rule α} {Q : α → Prop}
    {as : List α} (h : Chain separator item ls as rest)
    (each : ∀ {ls a rest}, item ls a rest → Q a) : ∀ a ∈ as, Q a := by
  induction h with
  | last first => simpa using each first
  | more first _ ih => exact List.forall_mem_cons.mpr ⟨each first, ih⟩

theorem Clause.exists_disjunction {o : Option (Condition Operand)}
    (h : Clause .where_ Where none ls o rest) (hc : c ∈ o) :
    ∃ ls d rest, Disjunction ls d rest ∧ c = d.simplify := by
  cases h with
  | omitted => cases hc
  | given body =>
    obtain ⟨derived, collapsed⟩ := body
    exact ⟨_, _, _, derived, (Option.some.inj hc) ▸ collapsed_iff.mp collapsed⟩

/-- The condition of a sentence has been derived and then simplified. -/
theorem Sentence.exists_disjunction (h : Sentence fallback ls s) (hc : c ∈ s.condition) :
    ∃ ls d rest, Disjunction ls d rest ∧ c = d.simplify := by
  cases h with
  | select _ clauses =>
    obtain ⟨hw, -, -, -⟩ := clauses
    exact hw.exists_disjunction hc
  | delete _ _ hw => exact hw.exists_disjunction hc
  | update _ _ hw => exact hw.exists_disjunction hc

theorem Sentence.exists_value (h : Sentence fallback ls s) {a : Assignment}
    (ha : a ∈ s.assignments) : ∃ ls rest, Value ls a.value rest := by
  cases h with
  | select _ clauses =>
    cases clauses
    cases ha
  | delete => cases ha
  | update _ items _ =>
    exact items.forall_mem (Q := fun a => ∃ ls rest, Value ls a.value rest)
      (fun ⟨_, derived⟩ => ⟨_, _, derived⟩) a ha

end Statements

end QueryTree.Grammar.Rule
