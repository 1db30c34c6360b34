import QueryTree.Proofs.Grammar.Statement

/-! # Where the entity stands

A sentence consists of what stands before the entity, of the entity and of what stands after it. The
default matters to the entity only, and what stands around it does not depend on the default.
-/

namespace QueryTree

namespace Grammar.Rule

/-- The lexemes before the entity. They stand for the fields of a select or delete, and for whether
the instances are only counted. -/
inductive Before : StatementKind → Rule (List String × Bool) where
  | from_ {text ls} : Before .select (⟨.keyword .from_, text⟩ :: ls) ([], false) ls
  | selectFrom {select from_ ls} :
      Before .select (⟨.keyword .select, select⟩ :: ⟨.keyword .from_, from_⟩ :: ls) ([], false) ls
  | selectionFrom {select ls head from_ mid} :
      Selection ls head (⟨.keyword .from_, from_⟩ :: mid) →
      Before .select (⟨.keyword .select, select⟩ :: ls) head mid
  | selection {select ls head mid} : Selection ls head mid →
      (∀ text more, mid ≠ ⟨.keyword .from_, text⟩ :: more) →
      Before .select (⟨.keyword .select, select⟩ :: ls) head mid
  | delete {text ls fields mid} : Deleted ls fields mid →
      Before .delete (⟨.keyword .delete, text⟩ :: ls) (fields, false) mid
  | update {text ls} : Before .update (⟨.keyword .update, text⟩ :: ls) ([], false) ls

/-- The statements that the lexemes after the entity complete. -/
inductive After (entity : String) :
    StatementKind → List String × Bool → List Lexeme → Statement → Prop where
  | select {fields count ls s} : Clauses fields count entity ls s →
      After entity .select (fields, count) ls s
  | delete {fields count ls condition} : Clause .where_ Where none ls condition [] →
      After entity .delete (fields, count) ls (.delete { entity, fields, condition })
  | update {head set ls items mid condition} : Chain (.mark .comma) Item ls items mid →
      Clause .where_ Where none mid condition [] →
      After entity .update head (⟨.keyword .set_, set⟩ :: ls) (.update { entity, items, condition })

variable {fallback : Option String} {kind kind' : StatementKind} {head head' : List String × Bool}
  {entity : String} {ls mid mid' rest : List Lexeme} {k : Keyword} {text : String}
  {s s' : Statement}

section Parts

/-- The default matters between what stands before the entity and what stands after it. -/
theorem sentence_iff :
    Sentence fallback ls s ↔ ∃ kind head mid entity rest, Before kind ls head mid ∧
      Entity fallback mid entity rest ∧ After entity kind head rest s := by
  constructor
  · intro h
    cases h with
    | select head clauses =>
      cases head with
      | from_ he => exact ⟨_, _, _, _, _, .from_, he, .select clauses⟩
      | selectFrom he => exact ⟨_, _, _, _, _, .selectFrom, he, .select clauses⟩
      | selection hs source =>
        cases source with
        | from_ he => exact ⟨_, _, _, _, _, .selectionFrom hs, he, .select clauses⟩
        | bare other he => exact ⟨_, _, _, _, _, .selection hs other, he, .select clauses⟩
    | delete hd he hw => exact ⟨_, _, _, _, _, .delete hd, he, .delete hw⟩
    | update he hi hw => exact ⟨_, _, _, _, _, .update, he, .update hi hw⟩
  · rintro ⟨kind, head, mid, entity, rest, before, he, after⟩
    cases after with
    | select clauses =>
      cases before with
      | from_ => exact .select (.from_ he) clauses
      | selectFrom => exact .select (.selectFrom he) clauses
      | selectionFrom hs => exact .select (.selection hs (.from_ he)) clauses
      | selection hs other => exact .select (.selection hs (.bare other he)) clauses
    | delete hw =>
      cases before with
      | delete hd => exact .delete hd he hw
    | update hi hw =>
      cases before with
      | update => exact .update he hi hw

theorem After.entity_eq (h : After entity kind head rest s) : s.entity = entity := by
  cases h with
  | select clauses =>
    cases clauses
    rfl
  | delete => rfl
  | update => rfl

end Parts

section Before

theorem Chain.suffix {α : Type} {separator : Token} {X : Rule α} {as : List α}
    (h : Chain separator X ls as rest) (item : ∀ {ls a rest}, X ls a rest → rest <:+ ls) :
    rest <:+ ls := by
  induction h with
  | last first => exact item first
  | more first _ ih => exact (ih.trans (List.suffix_cons _ _)).trans (item first)

theorem Segment.suffix {name : String} (h : Segment ls name rest) : rest <:+ ls := by
  cases h <;> exact List.suffix_cons _ _

theorem Path.suffix {name : String} (h : Path ls name rest) : rest <:+ ls := by
  cases h with
  | single => exact List.suffix_cons _ _
  | dotted hs => exact (hs.suffix Segment.suffix).trans ⟨[_, _], rfl⟩

theorem Selection.suffix (h : Selection ls head rest) : rest <:+ ls := by
  cases h with
  | star => exact List.suffix_cons _ _
  | count => exact ⟨[_, _, _, _], rfl⟩
  | fields hp => exact hp.suffix Path.suffix

theorem Deleted.suffix {fields : List String} (h : Deleted ls fields rest) : rest <:+ ls := by
  cases h with
  | whole => exact List.suffix_cons _ _
  | fields hp => exact (List.suffix_cons _ _).trans (hp.suffix Path.suffix)

theorem Before.suffix (h : Before kind ls head mid) : mid <:+ ls := by
  cases h with
  | from_ => exact List.suffix_cons _ _
  | selectFrom => exact ⟨[_, _], rfl⟩
  | selectionFrom hs =>
    exact ((List.suffix_cons _ _).trans hs.suffix).trans (List.suffix_cons _ _)
  | selection hs => exact hs.suffix.trans (List.suffix_cons _ _)
  | delete hd => exact hd.suffix.trans (List.suffix_cons _ _)
  | update => exact List.suffix_cons _ _

theorem Selection.front (h : Selection ls head rest) : Stops [.keyword .from_] ls := by
  cases h with
  | star => simp
  | count => simp
  | fields hp =>
    cases hp with
    | last hp => exact hp.stops (by simp)
    | more hp _ => exact hp.stops (by simp)

theorem Selection.unique_rest (h : Selection ls head mid) (h' : Selection ls head' mid')
    (stop : Stops [.mark .comma, .mark .opening, .mark .dot] mid)
    (stop' : Stops [.mark .comma, .mark .opening, .mark .dot] mid') : mid = mid' := by
  obtain ⟨-, same⟩ := (selection_complete h stop).unique (selection_complete h' stop')
  exact Reader.ofLexemes_injective same

theorem Deleted.unique_rest {fields fields' : List String} (h : Deleted ls fields mid)
    (h' : Deleted ls fields' mid') : mid = mid' := by
  obtain ⟨_, read⟩ := deletedFields_complete h
  obtain ⟨_, read'⟩ := deletedFields_complete h'
  obtain ⟨-, same⟩ := read.unique read'
  exact (List.cons.inj (Reader.ofLexemes_injective same)).2

/-- Where the entity stands does not depend on it. -/
theorem Before.unique (h : Before kind ls head mid) (h' : Before kind' ls head' mid')
    (stop : Stops [.mark .comma, .mark .opening, .mark .dot] mid)
    (stop' : Stops [.mark .comma, .mark .opening, .mark .dot] mid') :
    kind = kind' ∧ mid = mid' := by
  cases h with
  | from_ =>
    cases h' with
    | from_ => exact ⟨rfl, rfl⟩
  | selectFrom =>
    cases h' with
    | selectFrom => exact ⟨rfl, rfl⟩
    | selectionFrom hs' => exact absurd hs'.front (by simp)
    | selection hs' => exact absurd hs'.front (by simp)
  | selectionFrom hs =>
    cases h' with
    | selectFrom => exact absurd hs.front (by simp)
    | selectionFrom hs' =>
      exact ⟨rfl, (List.cons.inj (hs.unique_rest hs' (by simp) (by simp))).2⟩
    | selection hs' other =>
      exact absurd (hs.unique_rest hs' (by simp) stop').symm (other _ _)
  | selection hs other =>
    cases h' with
    | selectFrom => exact absurd hs.front (by simp)
    | selectionFrom hs' => exact absurd (hs.unique_rest hs' stop (by simp)) (other _ _)
    | selection hs' => exact ⟨rfl, hs.unique_rest hs' stop stop'⟩
  | delete hd =>
    cases h' with
    | delete hd' => exact ⟨rfl, hd.unique_rest hd'⟩
  | update =>
    cases h' with
    | update => exact ⟨rfl, rfl⟩

end Before

section After

theorem Clauses.front {fields : List String} {count : Bool} (h : Clauses fields count entity ls s) :
    ls = [] ∨ ∃ k text more, ls = ⟨.keyword k, text⟩ :: more ∧
      k ∈ [Keyword.where_, .order, .skip, .limit] := by
  obtain ⟨hw, ho, hs, hl⟩ := h
  cases hw with
  | given => exact .inr ⟨_, _, _, rfl, by simp⟩
  | omitted =>
    cases ho with
    | given => exact .inr ⟨_, _, _, rfl, by simp⟩
    | omitted =>
      cases hs with
      | given => exact .inr ⟨_, _, _, rfl, by simp⟩
      | omitted =>
        cases hl with
        | given => exact .inr ⟨_, _, _, rfl, by simp⟩
        | omitted => exact .inl rfl

theorem Clauses.not_keyword {fields fields' : List String} {count count' : Bool} {other : String}
    (h : Clauses fields count entity rest s)
    (h' : Clauses fields' count' other (⟨.keyword k, text⟩ :: rest) s') : k = .where_ := by
  have order {keys ls} : ¬ Order rest keys ls := by
    rintro ⟨-⟩
    obtain ⟨_, _, _, same, hk⟩ := h.front.resolve_left (List.cons_ne_nil _ _)
    cases same
    exact absurd hk (by decide)
  have rows {n ls} : ¬ Rows rest n ls := by
    rintro ⟨⟩
    obtain ⟨_, _, _, same, -⟩ := h.front.resolve_left (List.cons_ne_nil _ _)
    cases same
  obtain ⟨hw, ho, hs, hl⟩ := h'
  cases hw with
  | given => rfl
  | omitted =>
    cases ho with
    | given body => exact absurd body order
    | omitted =>
      cases hs with
      | given body => exact absurd body rows
      | omitted =>
        cases hl with
        | given body => exact absurd body rows

theorem Item.front {a : Assignment} {k : Keyword} (h : Item ls a rest) : Stops [.keyword k] ls := by
  obtain ⟨hp, -⟩ := h
  exact hp.stops (by simp)

/-- A statement goes on either at a reserved word or after it. -/
theorem After.not_both {other : String} (h : After entity kind head rest s)
    (h' : After other kind head' (⟨.keyword k, text⟩ :: rest) s') : k = .where_ := by
  cases h' with
  | select clauses' =>
    cases h with
    | select clauses => exact clauses.not_keyword clauses'
  | delete hw' =>
    cases hw' with
    | given => rfl
  | update hi' hw' =>
    cases h with
    | @update _ set ls _ _ _ hi hw =>
      have front : Stops [.keyword .set_] (⟨.keyword .set_, set⟩ :: ls) := by
        cases hi' with
        | last item => exact item.front
        | more item => exact item.front
      exact absurd front (by simp)

end After

section Entity

variable {d : String}

/-- Without a default the entity is a word of the text. If the word is not reserved, then a default
makes no difference, and otherwise nothing can be read with one. -/
theorem Sentence.settled (h : Sentence none ls s) :
    (∃ name, ⟨.identifier name, s.entity⟩ ∈ ls ∧ ∀ d, Sentence (some d) ls s) ∨
      ∃ k, ⟨.keyword k, s.entity⟩ ∈ ls ∧ ∀ d s', ¬ Sentence (some d) ls s' := by
  obtain ⟨kind, head, mid, entity, rest, before, he, after⟩ := sentence_iff.mp h
  obtain rfl := after.entity_eq
  cases he with
  | @identifier name =>
    refine .inl ⟨name, before.suffix.subset List.mem_cons_self, fun d => ?_⟩
    exact sentence_iff.mpr ⟨kind, head, _, _, rest, before, .identifier, after⟩
  | atKeyword default => cases default
  | atEnd default => cases default
  | @keyword k _ _ _ other =>
    refine .inr ⟨k, before.suffix.subset List.mem_cons_self, fun d s' h' => ?_⟩
    obtain ⟨kind', head', mid', entity', rest', before', he', after'⟩ := sentence_iff.mp h'
    obtain ⟨rfl, rfl⟩ := before.unique before' (by simp) (he'.stops (by simp) (by simp))
    cases he' with
    | keyword default => cases default
    | atKeyword => exact other (after.not_both after')

/-- With a default the entity is the default or a word of the text that is not reserved. -/
theorem Sentence.entity_cases (h : Sentence (some d) ls s) :
    (∃ name, ⟨.identifier name, s.entity⟩ ∈ ls) ∨ s.entity = d := by
  obtain ⟨kind, head, mid, entity, rest, before, he, after⟩ := sentence_iff.mp h
  obtain rfl := after.entity_eq
  cases he with
  | @identifier name => exact .inl ⟨name, before.suffix.subset List.mem_cons_self⟩
  | keyword default => cases default
  | atKeyword same => exact .inr (Option.some.inj same).symm
  | atEnd same => exact .inr (Option.some.inj same).symm

end Entity

end Grammar.Rule

end QueryTree
