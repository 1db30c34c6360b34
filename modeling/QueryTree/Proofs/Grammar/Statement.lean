import QueryTree.Proofs.Grammar.Clause

/-! # Statements are read by their rules

A query is read to its end exactly if its lexemes are a sentence of the grammar. Since reading is a
function, no sequence of lexemes is a sentence for two statements.
-/

namespace QueryTree.Grammar

open Reader Phrase Trail

variable {r r' : Reader} {ls mid rest : List Lexeme} {fallback : Option String} {s : Statement}
  {fields : List String} {count : Bool} {entity : String}

section Select

theorem selectFrom_sound (h : (selectFrom fallback fields count r).Yields s (ofLexemes [])) :
    ∃ ls entity mid, r = ofLexemes ls ∧ Rule.Source fallback ls entity mid ∧
      Rule.Clauses fields count entity mid s := by
  obtain ⟨taken, r₀, hf, h₀⟩ := yields_bind.mp h
  obtain ⟨entity, r₁, he, h₁⟩ := yields_bind.mp h₀
  obtain ⟨condition, r₂, hw, h₂⟩ := yields_bind.mp h₁
  obtain ⟨sorts, r₃, ho, h₃⟩ := yields_bind.mp h₂
  obtain ⟨skip, r₄, hs, h₄⟩ := yields_bind.mp h₃
  obtain ⟨limit, r₅, hl, rfl, rfl⟩ := yields_bind.mp h₄
  obtain ⟨l₄, rfl, hL⟩ := (rowClause_parses .limit).sound hl
  obtain ⟨l₃, rfl, hS⟩ := (rowClause_parses .skip).sound hs
  obtain ⟨l₂, rfl, hO⟩ := sortClause_parses.sound ho
  obtain ⟨l₁, rfl, hW⟩ := whereClause_parses.sound hw
  obtain ⟨l₀, rfl, hE⟩ := entity_parses.sound he
  obtain ⟨-, text, rfl⟩ | ⟨-, other, rfl⟩ := yields_accept.mp hf
  · exact ⟨⟨.keyword .from_, text⟩ :: l₀, entity, l₁, by simp, .from_ hE, hW, hO, hS, hL⟩
  · exact ⟨l₀, entity, l₁, rfl, .bare (fun text more hl => other
      (token?_ofLexemes_eq_some_iff.mpr ⟨text, more, hl⟩)) hE, hW, hO, hS, hL⟩

theorem selectFrom_complete (source : Rule.Source fallback ls entity mid)
    (clauses : Rule.Clauses fields count entity mid s) :
    (selectFrom fallback fields count (ofLexemes ls)).Yields s finished := by
  obtain @⟨condition, l₂, sorts, l₃, skip, l₄, limit, hW, hO, hS, hL⟩ := clauses
  have stop₄ : Stops [.keyword .skip, .keyword .order, .mark .comma, .keyword .asc,
      .keyword .desc, .mark .dot, .keyword .where_, .keyword .or, .keyword .and] l₄ :=
    hL.stops stops_nil (by simp)
  have stop₃ : Stops [.keyword .order, .mark .comma, .keyword .asc, .keyword .desc, .mark .dot,
      .keyword .where_, .keyword .or, .keyword .and] l₃ :=
    hS.stops (stop₄.mono (by simp)) (by simp)
  have stop₂ : Stops [.keyword .where_, .keyword .or, .keyword .and, .mark .dot] l₂ :=
    hO.stops (stop₃.mono (by simp)) (by simp)
  obtain ⟨taken, l₀, accepted, hE⟩ : ∃ taken l₀,
      (accept (.keyword .from_) (ofLexemes ls)).Yields taken (ofLexemes l₀) ∧
        Rule.Entity fallback l₀ entity mid := by
    cases source with
    | @from_ text l₀ _ _ hE =>
      exact ⟨true, l₀, yields_accept.mpr (Or.inl ⟨rfl, text, by simp⟩), hE⟩
    | bare other hE =>
      refine ⟨false, ls, yields_accept.mpr (Or.inr ⟨rfl, fun front => ?_, rfl⟩), hE⟩
      obtain ⟨text, more, hl⟩ := token?_ofLexemes_eq_some_iff.mp front
      exact other text more hl
  refine yields_bind.mpr ⟨taken, _, accepted, ?_⟩
  refine yields_bind.mpr ⟨entity, _, entity_parses.complete hE stops_empty, ?_⟩
  refine yields_bind.mpr ⟨condition, _, whereClause_parses.complete hW stop₂, ?_⟩
  refine yields_bind.mpr ⟨sorts, _, sortClause_parses.complete hO (stop₃.mono (by simp)), ?_⟩
  refine yields_bind.mpr ⟨skip, _, (rowClause_parses .skip).complete hS (stop₄.mono (by simp)), ?_⟩
  exact yields_bind.mpr ⟨limit, _, (rowClause_parses .limit).complete hL stops_nil, rfl⟩

theorem selectStatement_sound
    (h : (selectStatement fallback r).Yields s (ofLexemes []))
    (front : r.token? = some (.keyword .select) ∨ r.token? = some (.keyword .from_)) :
    ∃ ls fields count entity mid, r = ofLexemes ls ∧
      Rule.Head fallback ls (fields, count, entity) mid ∧
      Rule.Clauses fields count entity mid s := by
  obtain ⟨select, r₁, rfl, h₁⟩ | ⟨other, h₁⟩ := yields_ite_accept.mp h
  · obtain ⟨⟨fields, count⟩, r₂, hs, h₂⟩ := yields_bind.mp h₁
    obtain ⟨l₁, entity, mid, rfl, source, clauses⟩ := selectFrom_sound h₂
    obtain ⟨⟨⟩, rfl, from_⟩ | ⟨ls, rfl, selection⟩ := selection_sound hs
    · refine ⟨⟨.keyword .select, select⟩ :: l₁, [], false, entity, mid, by simp, ?_, clauses⟩
      cases source with
      | from_ hE => exact .selectFrom hE
      | bare other hE =>
        obtain ⟨text, more, hl⟩ := token?_ofLexemes_eq_some_iff.mp from_
        exact absurd hl (other text more)
    · exact ⟨⟨.keyword .select, select⟩ :: ls, fields, count, entity, mid, by simp,
        .selection selection source, clauses⟩
  · obtain ⟨ls, entity, mid, rfl, source, clauses⟩ := selectFrom_sound h₁
    refine ⟨ls, [], false, entity, mid, rfl, ?_, clauses⟩
    cases source with
    | from_ hE => exact .from_ hE
    | bare bare hE =>
      obtain ⟨text, more, hl⟩ := token?_ofLexemes_eq_some_iff.mp (front.resolve_left other)
      exact absurd hl (bare text more)

theorem selectStatement_complete (head : Rule.Head fallback ls (fields, count, entity) mid)
    (clauses : Rule.Clauses fields count entity mid s) :
    (selectStatement fallback (ofLexemes ls)).Yields s finished := by
  cases head with
  | from_ hE =>
    exact yields_ite_accept.mpr (Or.inr ⟨by simp, selectFrom_complete (.from_ hE) clauses⟩)
  | @selectFrom select from_ l₁ _ _ hE =>
    refine yields_ite_accept.mpr
      (Or.inl ⟨select, ofLexemes (⟨.keyword .from_, from_⟩ :: l₁), by simp, ?_⟩)
    refine yields_bind.mpr ⟨([], false), ofLexemes (⟨.keyword .from_, from_⟩ :: l₁), ?_,
      selectFrom_complete (.from_ hE) clauses⟩
    exact yields_ite_peek.mpr (Or.inl ⟨by simp, rfl⟩)
  | @selection select l₁ _ _ l₂ _ _ selection source =>
    have stop : Stops [.mark .comma, .mark .opening, .mark .dot] l₂ := by
      cases source with
      | from_ => simp
      | bare _ hE => exact hE.stops (by simp) (by simp)
    refine yields_ite_accept.mpr (Or.inl ⟨select, ofLexemes l₁, by simp, ?_⟩)
    exact yields_bind.mpr ⟨(fields, count), _, selection_complete selection stop,
      selectFrom_complete source clauses⟩

end Select

section Delete

theorem paths_parse :
    Parses (fun r => (chain (.mark .comma) path r).Yields) [.mark .comma, .mark .dot]
      (Rule.Chain (.mark .comma) Rule.Path) :=
  path_parses.chain (by simp)

theorem deletedFields_sound {text : String}
    (h : (deletedFields r).Yields fields (ofLexemes (⟨.keyword .from_, text⟩ :: rest))) :
    ∃ ls, r = ofLexemes ls ∧ Rule.Deleted ls fields rest := by
  obtain ⟨-, ⟨⟩⟩ | ⟨-, hf⟩ := yields_ite_peek.mp h
  · exact ⟨_, rfl, .whole⟩
  · obtain ⟨ls, rfl, chained⟩ := paths_parse.sound (yields_lift.mp hf)
    exact ⟨ls, rfl, .fields chained⟩

theorem deletedFields_complete (h : Rule.Deleted ls fields rest) :
    ∃ text, (deletedFields (ofLexemes ls)).Yields fields
      (ofLexemes (⟨.keyword .from_, text⟩ :: rest)) := by
  cases h with
  | @whole text => exact ⟨text, yields_ite_peek.mpr (Or.inl ⟨by simp, rfl⟩)⟩
  | @fields _ _ text _ chained =>
    have front : Stops [.keyword .from_] ls := by
      cases chained with
      | last hp => exact hp.stops (by simp)
      | more hp _ => exact hp.stops (by simp)
    exact ⟨text, yields_ite_peek.mpr (Or.inr ⟨front.token?_ne (by simp),
      yields_lift.mpr (paths_parse.complete chained (by simp))⟩)⟩

theorem deleteStatement_sound (h : (deleteStatement fallback r).Yields s (ofLexemes [])) :
    ∃ ls, r = ofLexemes ls ∧ Rule.Sentence fallback ls s := by
  obtain ⟨_, r₁, hd, h₁⟩ := yields_lift_bind.mp h
  obtain ⟨fields, r₂, hfs, h₂⟩ := yields_bind.mp h₁
  obtain ⟨_, r₃, hf, h₃⟩ := yields_lift_bind.mp h₂
  obtain ⟨entity, r₄, he, h₄⟩ := yields_bind.mp h₃
  obtain ⟨condition, r₅, hw, ⟨⟩⟩ := yields_bind.mp h₄
  obtain ⟨l₄, rfl, hW⟩ := whereClause_parses.sound hw
  obtain ⟨l₃, rfl, hE⟩ := entity_parses.sound he
  obtain ⟨from_, rfl⟩ := yields_expect.mp hf
  rw [events_ofLexemes, ← ofLexemes_cons] at hfs
  obtain ⟨l₂, rfl, hD⟩ := deletedFields_sound hfs
  obtain ⟨delete, rfl⟩ := yields_expect.mp hd
  exact ⟨⟨.keyword .delete, delete⟩ :: l₂, by simp, .delete hD hE hW⟩

end Delete

section Update

theorem assignment_parses :
    Parses (fun r => (assignment r).Yields) [.mark .dot] Rule.Item where
  sound := by
    intro r item rest h
    obtain ⟨field, r₁, hp, h₁⟩ := Phrase.yields_andThen.mp h
    obtain ⟨_, r₂, he, h₂⟩ := yields_lift_bind.mp h₁
    obtain ⟨v, r₃, hv, ⟨⟩⟩ := yields_lift_bind.mp h₂
    obtain ⟨mid, rfl, hV⟩ := operand_parses.sound hv
    obtain ⟨text, rfl⟩ := yields_expect.mp he
    rw [events_ofLexemes, ← ofLexemes_cons] at hp
    obtain ⟨ls, rfl, hP⟩ := path_parses.sound hp
    exact ⟨ls, rfl, .mk hP hV⟩
  complete := by
    rintro ls item rest (@⟨_, field, text, mid, v, _, hP, hV⟩) stop
    refine Phrase.yields_andThen.mpr ⟨field, _, path_parses.complete hP (by simp), ?_⟩
    refine yields_lift_bind.mpr ⟨(), ofLexemes mid, yields_expect.mpr ⟨text, by simp⟩, ?_⟩
    exact yields_lift_bind.mpr ⟨v, _, operand_parses.complete hV stop, rfl⟩

theorem assignments_parse :
    Parses (fun r => (chain (.mark .comma) assignment r).Yields) [.mark .comma, .mark .dot]
      (Rule.Chain (.mark .comma) Rule.Item) :=
  assignment_parses.chain (by simp)

theorem updateStatement_sound (h : (updateStatement fallback r).Yields s (ofLexemes [])) :
    ∃ ls, r = ofLexemes ls ∧ Rule.Sentence fallback ls s := by
  obtain ⟨_, r₁, hu, h₁⟩ := yields_lift_bind.mp h
  obtain ⟨entity, r₂, he, h₂⟩ := yields_bind.mp h₁
  obtain ⟨_, r₃, hs, h₃⟩ := yields_lift_bind.mp h₂
  obtain ⟨items, r₄, hi, h₄⟩ := yields_lift_bind.mp h₃
  obtain ⟨condition, r₅, hw, ⟨⟩⟩ := yields_bind.mp h₄
  obtain ⟨l₄, rfl, hW⟩ := whereClause_parses.sound hw
  obtain ⟨l₃, rfl, hI⟩ := assignments_parse.sound hi
  obtain ⟨set, rfl⟩ := yields_expect.mp hs
  rw [events_ofLexemes, ← ofLexemes_cons] at he
  obtain ⟨l₂, rfl, hE⟩ := entity_parses.sound he
  obtain ⟨update, rfl⟩ := yields_expect.mp hu
  exact ⟨⟨.keyword .update, update⟩ :: l₂, by simp, .update hE hI hW⟩

end Update

section Sentence

variable {goal : Goal}

theorem yields_announced :
    (announced goal fallback r).Yields s r' ↔
      ∃ kind, r.token?.bind kindOf? = some kind ∧ goal.all (· = kind) ∧
        (statementOf fallback kind r).Yields s r' := by
  refine yields_peek_bind.trans ?_
  cases h : r.token?.bind kindOf? with
  | none => simp
  | some kind =>
    by_cases wanted : goal.all (· = kind)
    · simp [wanted]
    · simp [wanted]

theorem kindOf?_eq_select_iff {t : Token} :
    kindOf? t = some .select ↔ t = .keyword .select ∨ t = .keyword .from_ := by
  cases t with
  | keyword k => cases k <;> simp [kindOf?]
  | _ => simp [kindOf?]

theorem statementOf_sound {kind : StatementKind} (front : r.token?.bind kindOf? = some kind)
    (h : (statementOf fallback kind r).Yields s (ofLexemes [])) :
    ∃ ls, r = ofLexemes ls ∧ Rule.Sentence fallback ls s := by
  cases kind with
  | select =>
    obtain ⟨t, ht, hk⟩ := Option.bind_eq_some_iff.mp front
    have first : r.token? = some (.keyword .select) ∨ r.token? = some (.keyword .from_) := by
      rw [ht, Option.some.injEq, Option.some.injEq]
      exact kindOf?_eq_select_iff.mp hk
    obtain ⟨ls, fields, count, entity, mid, rfl, head, clauses⟩ := selectStatement_sound h first
    exact ⟨ls, rfl, .select head clauses⟩
  | delete => exact deleteStatement_sound h
  | update => exact updateStatement_sound h

theorem statementOf_complete (h : Rule.Sentence fallback ls s) :
    (ofLexemes ls).token?.bind kindOf? = some s.kind ∧
      (statementOf fallback s.kind (ofLexemes ls)).Yields s finished := by
  cases h with
  | select head clauses =>
    have done := selectStatement_complete head clauses
    cases clauses
    refine ⟨?_, done⟩
    cases head <;> simp [kindOf?, Statement.kind]
  | @delete text l₁ fields l₂ entity l₃ condition hD hE hW =>
    refine ⟨by simp [kindOf?, Statement.kind], ?_⟩
    obtain ⟨from_, hF⟩ := deletedFields_complete hD
    refine yields_lift_bind.mpr ⟨(), ofLexemes l₁, yields_expect.mpr ⟨text, by simp⟩, ?_⟩
    refine yields_bind.mpr ⟨fields, _, hF, ?_⟩
    refine yields_lift_bind.mpr ⟨(), ofLexemes l₂, yields_expect.mpr ⟨from_, by simp⟩, ?_⟩
    refine yields_bind.mpr ⟨entity, _, entity_parses.complete hE stops_empty, ?_⟩
    exact yields_bind.mpr ⟨condition, _, whereClause_parses.complete hW stops_nil, rfl⟩
  | @update text l₁ entity set l₂ items l₃ condition hE hI hW =>
    refine ⟨by simp [kindOf?, Statement.kind], ?_⟩
    refine yields_lift_bind.mpr ⟨(), ofLexemes l₁, yields_expect.mpr ⟨text, by simp⟩, ?_⟩
    refine yields_bind.mpr ⟨entity, _, entity_parses.complete hE stops_empty, ?_⟩
    refine yields_lift_bind.mpr ⟨(), ofLexemes l₂, yields_expect.mpr ⟨set, by simp⟩, ?_⟩
    refine yields_lift_bind.mpr ⟨items, ofLexemes l₃,
      assignments_parse.complete hI (hW.stops stops_nil (by simp)), ?_⟩
    exact yields_bind.mpr ⟨condition, _, whereClause_parses.complete hW stops_nil, rfl⟩

/-- A query is read to its end if it is read at all. -/
theorem yields_query :
    (query goal fallback r).Yields s r' ↔
      r' = finished ∧ goal.all (· = s.kind) ∧
        ∃ ls, r = ofLexemes ls ∧ Rule.Sentence fallback ls s := by
  constructor
  · intro h
    obtain ⟨statement, r₁, ha, h₁⟩ := yields_bind.mp h
    obtain ⟨_, r₂, hf, ⟨⟩⟩ := yields_bind.mp h₁
    obtain ⟨rfl, rfl⟩ := yields_finish.mp hf
    obtain ⟨kind, front, wanted, hs⟩ := yields_announced.mp ha
    obtain ⟨ls, rfl, sentence⟩ := statementOf_sound front hs
    obtain ⟨announced, -⟩ := statementOf_complete sentence
    obtain rfl : kind = s.kind := Option.some.inj (front.symm.trans announced)
    exact ⟨rfl, wanted, ls, rfl, sentence⟩
  · rintro ⟨rfl, wanted, ls, rfl, sentence⟩
    obtain ⟨front, done⟩ := statementOf_complete sentence
    refine yields_bind.mpr ⟨s, finished, yields_announced.mpr ⟨_, front, wanted, done⟩, ?_⟩
    exact yields_bind.mpr ⟨(), finished, yields_finish.mpr ⟨rfl, rfl⟩, rfl⟩

/-- No two statements are derived from the same lexemes. -/
theorem Rule.Sentence.unique {s' : Statement} (h : Rule.Sentence fallback ls s)
    (h' : Rule.Sentence fallback ls s') : s = s' := by
  have read {s : Statement} (h : Rule.Sentence fallback ls s) :
      (query none fallback (ofLexemes ls)).Yields s finished :=
    yields_query.mpr ⟨rfl, rfl, ls, rfl, h⟩
  exact ((read h).unique (read h')).1

theorem not_sentence_nil : ¬ Rule.Sentence fallback [] s := by
  rintro (⟨head, -⟩ | - | -)
  cases head

end Sentence

end QueryTree.Grammar
