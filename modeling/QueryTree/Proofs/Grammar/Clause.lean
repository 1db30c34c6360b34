import QueryTree.Proofs.Condition.Normal
import QueryTree.Proofs.Grammar.Condition

/-! # The parts of statements are read by their rules

A clause may be left out, so a clause that follows it may begin where it would have begun.
-/

namespace QueryTree.Grammar

open Reader Phrase Trail

variable {r r' : Reader} {ls rest : List Lexeme} {fallback : Option String}

section Clause

variable {α : Type} {k : Keyword} {x : Trail α} {body : Rule α} {absent : α} {ts : List Token}

theorem Rule.Clause.stops {a : α} (h : Rule.Clause k body absent ls a rest) (stop : Stops ts rest)
    (fresh : .keyword k ∉ ts) : Stops ts ls := by
  cases h with
  | omitted => exact stop
  | given => simpa using fresh

theorem clause_parses (hx : Parses (fun r => (x r).Yields) ts body) :
    Parses (fun r => ((accept (.keyword k) >>= fun taken =>
      if taken = true then x else pure absent) r).Yields) (.keyword k :: ts)
      (Rule.Clause k body absent) where
  sound := by
    intro r a rest h
    obtain ⟨text, r₁, rfl, given⟩ | ⟨-, ⟨⟩⟩ := yields_ite_accept.mp h
    · obtain ⟨ls, rfl, hX⟩ := hx.sound given
      exact ⟨⟨.keyword k, text⟩ :: ls, by simp, .given hX⟩
    · exact ⟨rest, rfl, .omitted⟩
  complete := by
    intro ls a rest h stop
    cases h with
    | omitted => exact yields_ite_accept.mpr (Or.inr ⟨stop.token?_ne (by simp), rfl⟩)
    | @given text mid _ _ hX =>
      exact yields_ite_accept.mpr
        (Or.inl ⟨text, ofLexemes mid, by simp, hx.complete hX (stop.mono (by simp))⟩)

end Clause

section Collapse

variable {c d : Condition Operand}

theorem collapsed_simplify (c : Condition Operand) : Rule.Collapsed c c.simplify := by
  induction c with
  | leaf field op v => exact .comparison
  | node op cs ih =>
    have children : List.Forall₂ Rule.Collapsed cs (cs.map Condition.simplify) :=
      List.forall₂_map_right_iff.mpr (List.forall₂_same.mpr ih)
    rw [Condition.simplify_node]
    obtain ⟨field, v, redex, same⟩ | ⟨plain, same⟩ :=
      Condition.simplifyNode_eq op (cs.map Condition.simplify)
    · obtain ⟨rfl, one⟩ := Condition.node.inj redex
      obtain ⟨c, rfl, inner⟩ := List.map_eq_singleton_iff.mp one
      rw [same]
      exact .negated (inner ▸ ih c List.mem_cons_self)
    · rw [same]
      refine .node children fun field v negation differs => plain ⟨field, v, ?_⟩
      rw [negation, differs]

theorem Rule.Collapsed.eq_simplify (h : Rule.Collapsed c d) : d = c.simplify := by
  induction c generalizing d with
  | leaf field op v =>
    cases h
    rfl
  | node op cs ih =>
    rw [Condition.simplify_node]
    cases h with
    | @negated c field v inner =>
      rw [List.map_singleton, ← ih c List.mem_cons_self inner]
      rfl
    | @node _ _ ds children plain =>
      have each := (List.forall₂_and_left _ _).mpr ⟨fun c mem => mem, children⟩
      have same : cs.map Condition.simplify = ds := by
        rw [← List.forall₂_eq_eq_eq, List.forall₂_map_left_iff]
        exact each.imp fun c d both => (ih c both.1 both.2).symm
      -- The rule for nodes leaves out exactly the node that is rewritten.
      obtain ⟨field, v, redex, -⟩ | ⟨-, kept⟩ := Condition.simplifyNode_eq op ds
      · obtain ⟨negation, differs⟩ := Condition.node.inj redex
        exact absurd differs (plain field v negation)
      · rw [same, kept]

/-- Simplifying computes what a condition collapses to. -/
theorem collapsed_iff : Rule.Collapsed c d ↔ d = c.simplify :=
  ⟨Rule.Collapsed.eq_simplify, fun same => same ▸ collapsed_simplify c⟩

end Collapse

theorem whereClause_parses :
    Parses (fun r => (whereClause r).Yields)
      [.keyword .where_, .keyword .or, .keyword .and, .mark .dot]
      (Rule.Clause .where_ Rule.Where none) := by
  refine clause_parses ⟨?_, ?_⟩
  · intro r o rest h
    obtain ⟨c, r₁, hc, ⟨⟩⟩ := yields_lift_bind.mp h
    obtain ⟨ls, rfl, hX⟩ := condition_parses.sound hc
    exact ⟨ls, rfl, .mk hX (collapsed_simplify c)⟩
  · rintro ls o rest ⟨hX, collapsed⟩ stop
    rw [collapsed_iff.mp collapsed]
    exact yields_lift_bind.mpr ⟨_, _, condition_parses.complete hX stop, rfl⟩

theorem sortKey_parses :
    Parses (fun r => (sortKey r).Yields) [.keyword .asc, .keyword .desc, .mark .dot] Rule.Key where
  sound := by
    intro r key rest h
    obtain ⟨property, r₁, hp, h₁⟩ := Phrase.yields_andThen.mp h
    obtain ⟨text, r₂, rfl, ⟨⟩⟩ | ⟨-, h₂⟩ := yields_ite_accept.mp h₁
    · rw [events_ofLexemes, ← ofLexemes_cons] at hp
      obtain ⟨ls, rfl, hX⟩ := path_parses.sound hp
      exact ⟨ls, rfl, .asc hX⟩
    obtain ⟨text, r₂, rfl, ⟨⟩⟩ | ⟨-, ⟨⟩⟩ := yields_ite_accept.mp h₂
    · rw [events_ofLexemes, ← ofLexemes_cons] at hp
      obtain ⟨ls, rfl, hX⟩ := path_parses.sound hp
      exact ⟨ls, rfl, .desc hX⟩
    · obtain ⟨ls, rfl, hX⟩ := path_parses.sound hp
      exact ⟨ls, rfl, .plain hX⟩
  complete := by
    intro ls key rest h stop
    refine Phrase.yields_andThen.mpr ?_
    cases h with
    | @plain _ property _ hp =>
      refine ⟨property, _, path_parses.complete hp (stop.mono (by simp)), ?_⟩
      refine yields_ite_accept.mpr (Or.inr ⟨stop.token?_ne (by simp), ?_⟩)
      exact yields_ite_accept.mpr (Or.inr ⟨stop.token?_ne (by simp), rfl⟩)
    | @asc _ property text _ hp =>
      refine ⟨property, _, path_parses.complete hp (by simp), ?_⟩
      exact yields_ite_accept.mpr (Or.inl ⟨text, ofLexemes rest, by simp, rfl⟩)
    | @desc _ property text _ hp =>
      refine ⟨property, _, path_parses.complete hp (by simp), ?_⟩
      refine yields_ite_accept.mpr (Or.inr ⟨by simp, ?_⟩)
      exact yields_ite_accept.mpr (Or.inl ⟨text, ofLexemes rest, by simp, rfl⟩)

theorem sortClause_parses :
    Parses (fun r => (sortClause r).Yields)
      [.keyword .order, .mark .comma, .keyword .asc, .keyword .desc, .mark .dot]
      (Rule.Clause .order Rule.Order []) := by
  have keys : Parses (fun r => (chain (.mark .comma) sortKey r).Yields)
      [.mark .comma, .keyword .asc, .keyword .desc, .mark .dot]
      (Rule.Chain (.mark .comma) Rule.Key) := sortKey_parses.chain (by simp)
  refine clause_parses ⟨?_, ?_⟩
  · intro r sorts rest h
    obtain ⟨_, r₁, hb, h₁⟩ := yields_lift_bind.mp h
    obtain ⟨text, rfl⟩ := yields_expect.mp hb
    obtain ⟨ls, rfl, hX⟩ := keys.sound (yields_lift.mp h₁)
    exact ⟨⟨.keyword .by_, text⟩ :: ls, by simp, .mk hX⟩
  · rintro ls sorts rest (@⟨text, mid, _, _, hX⟩) stop
    exact yields_lift_bind.mpr ⟨(), ofLexemes mid, yields_expect.mpr ⟨text, by simp⟩,
      yields_lift.mpr (keys.complete hX stop)⟩

theorem natural?_eq_some_iff {t : Token} {n : Nat} : natural? t = some n ↔ t = .integer n := by
  constructor
  · intro h
    cases t with
    | integer m =>
      simp only [natural?, Option.ite_none_right_eq_some, Option.some.injEq] at h
      rw [← h.2, Int.toNat_of_nonneg h.1]
    | _ => cases h
  · rintro rfl
    simp [natural?]

theorem rowClause_parses (k : Keyword) :
    Parses (fun r => (rowClause k r).Yields) [.keyword k] (Rule.Clause k Rule.Rows 0) := by
  refine clause_parses ⟨?_, ?_⟩
  · intro r n rest h
    obtain ⟨⟨t, text⟩, hn, rfl⟩ := yields_tokenAs.mp (yields_lift.mp h)
    obtain rfl := natural?_eq_some_iff.mp hn
    exact ⟨⟨.integer n, text⟩ :: rest, by simp, .mk⟩
  · rintro ls n rest (@⟨_, text, _⟩) -
    exact yields_lift.mpr
      (yields_tokenAs.mpr ⟨⟨.integer n, text⟩, natural?_eq_some_iff.mpr rfl, by simp⟩)

section Entity

theorem yields_givenEntity {name : String} :
    (givenEntity fallback r).Yields name r' ↔ fallback = some name ∧ r = r' := by
  cases fallback with
  | none => simp [givenEntity]
  | some given => simp [givenEntity]

theorem yields_entity_identifier {name text a : String} {ahead : List Event} :
    (entity fallback (facing ⟨.identifier name, text⟩ ahead)).Yields a r' ↔
      text = a ∧ ahead = r'.events :=
  Reading.yields_loosen.trans yields_takeWord

theorem entity_word {k : Keyword} {text : String} {ahead : List Event} (hk : k ≠ .where_) :
    entity none (facing ⟨.keyword k, text⟩ ahead) = (takeWord ⟨.keyword k, text⟩ ahead).loosen := by
  cases k with
  | where_ => exact absurd rfl hk
  | _ => rfl

theorem entity_left_out {k : Keyword} {text : String} {ahead : List Event}
    (h : fallback = none → k = .where_) :
    entity fallback (facing ⟨.keyword k, text⟩ ahead) =
      givenEntity fallback (facing ⟨.keyword k, text⟩ ahead) := by
  cases fallback with
  | none => cases h rfl; rfl
  | some given => cases k <;> rfl

theorem yields_entity_keyword {k : Keyword} {text a : String} {ahead : List Event} :
    (entity fallback (facing ⟨.keyword k, text⟩ ahead)).Yields a r' ↔
      (fallback = none ∧ k ≠ .where_ ∧ text = a ∧ ahead = r'.events) ∨
        (fallback = some a ∧ facing ⟨.keyword k, text⟩ ahead = r') := by
  by_cases word : fallback = none ∧ k ≠ .where_
  · obtain ⟨rfl, hk⟩ := word
    rw [entity_word hk]
    refine (Reading.yields_loosen.trans yields_takeWord).trans ?_
    simp [hk]
  · rw [entity_left_out (by grind), yields_givenEntity]
    grind

theorem entity_parses :
    Parses (fun r => (entity fallback r).Yields) [] (Rule.Entity fallback) where
  sound := by
    intro r a rest h
    cases r with
    | finished =>
      obtain ⟨rfl, hr⟩ := yields_givenEntity.mp h
      obtain rfl : rest = [] := ofLexemes_injective hr.symm
      exact ⟨[], rfl, .atEnd rfl⟩
    | facing l ahead =>
      obtain ⟨t, text⟩ := l
      cases t with
      | identifier name =>
        obtain ⟨rfl, rfl⟩ := yields_entity_identifier.mp h
        exact ⟨⟨.identifier name, text⟩ :: rest, by simp, .identifier⟩
      | keyword k =>
        obtain ⟨hf, hk, rfl, rfl⟩ | ⟨hf, hr⟩ := yields_entity_keyword.mp h
        · exact ⟨⟨.keyword k, text⟩ :: rest, by simp, .keyword hf hk⟩
        · cases rest with
          | nil => cases hr
          | cons l ls =>
            obtain ⟨rfl, rfl⟩ := Reader.facing.inj hr
            exact ⟨_, rfl, .atKeyword hf⟩
      | _ => exact (Reading.yields_failed.mp h).elim
  complete := by
    intro ls a rest h _
    cases h with
    | identifier => exact yields_entity_identifier.mpr ⟨rfl, by simp⟩
    | keyword hf hk => exact yields_entity_keyword.mpr (Or.inl ⟨hf, hk, rfl, by simp⟩)
    | atKeyword hf => exact yields_entity_keyword.mpr (Or.inr ⟨hf, rfl⟩)
    | atEnd hf => exact yields_givenEntity.mpr ⟨hf, rfl⟩

theorem Rule.Entity.stops {name : String} {ts : List Token}
    (h : Rule.Entity fallback ls name rest) (identifiers : ∀ name, .identifier name ∉ ts)
    (keywords : ∀ k, .keyword k ∉ ts) : Stops ts ls := by
  cases h <;> simp [identifiers, keywords]

end Entity

section Selection

theorem not_sameWord_dotted {first word : String} {segments : List String} (some : segments ≠ [])
    (plain : '.' ∉ word.toList.map Char.toUpper) :
    ¬ sameWord (".".intercalate (first :: segments)) word := by
  intro same
  have folded : Token.foldCase (".".intercalate (first :: segments)) = Token.foldCase word := by
    simpa [sameWord] using same
  have dot : '.' ∈ (".".intercalate (first :: segments)).toList := by
    rw [String.intercalate_cons_of_ne_nil some]
    simp
  apply plain
  rw [← String.ofList_injective folded]
  exact List.mem_map.mpr ⟨'.', dot, rfl⟩

theorem isThis_iff {t : Token} :
    isThis t ↔ ∃ this, t = .identifier this ∧ sameWord this "this" := by
  cases t <;> simp [isThis]

theorem yields_countOrField {w : String} {o : Option String} :
    (countOrField w r).Yields o r' ↔
      (o = none ∧ ∃ opening this text closing, sameWord this "this" ∧
        r = facing ⟨.mark .opening, opening⟩ (.lexeme ⟨.identifier this, text⟩ ::
          .lexeme ⟨.mark .closing, closing⟩ :: r'.events)) ∨
      (r.token? ≠ some (.mark .opening) ∧ o = some w ∧ r = r') := by
  refine yields_ite_accept.trans (or_congr ?_ ?_)
  · constructor
    · rintro ⟨opening, r₁, rfl, h⟩
      obtain ⟨_, r₂, ht, h₂⟩ := yields_lift_bind.mp h
      obtain ⟨_, r₃, hc, rfl, rfl⟩ := yields_lift_bind.mp h₂
      obtain ⟨⟨t, text⟩, this, rfl⟩ := yields_tokenAs.mp ht
      obtain ⟨name, rfl, named⟩ := isThis_iff.mp (by simpa using this)
      obtain ⟨closing, rfl⟩ := yields_expect.mp hc
      exact ⟨rfl, opening, name, text, closing, named, rfl⟩
    · rintro ⟨rfl, opening, this, text, closing, named, rfl⟩
      refine ⟨opening, facing ⟨.identifier this, text⟩
        (facing ⟨.mark .closing, closing⟩ r'.events).events, rfl, ?_⟩
      refine yields_lift_bind.mpr ⟨(), facing ⟨.mark .closing, closing⟩ r'.events, ?_, ?_⟩
      · exact yields_tokenAs.mpr ⟨⟨.identifier this, text⟩, by simp [isThis, named], rfl⟩
      · exact yields_lift_bind.mpr ⟨(), r', yields_expect.mpr ⟨closing, rfl⟩, rfl⟩
  · simp only [yields_pure, eq_comm]

theorem yields_selected_some {f : String} :
    (selected r).Yields (some f) r' ↔
      (path r).Yields f r' ∧ (sameWord f "count" → r'.token? ≠ some (.mark .opening)) := by
  unfold selected
  rw [Phrase.yields_andThen]
  constructor
  · rintro ⟨field, r₁, hp, h⟩
    split at h
    · obtain ⟨⟨⟩, -⟩ | ⟨front, ⟨⟩, rfl⟩ := yields_countOrField.mp h
      exact ⟨hp, fun _ => front⟩
    · next other =>
      obtain ⟨⟨⟩, rfl⟩ := yields_pure.mp h
      exact ⟨hp, fun same => absurd same other⟩
  · rintro ⟨hp, front⟩
    refine ⟨f, r', hp, ?_⟩
    split
    · next same => exact yields_countOrField.mpr (Or.inr ⟨front same, rfl, rfl⟩)
    · exact yields_pure.mpr ⟨rfl, rfl⟩

theorem yields_selected_none :
    (selected r).Yields none r' ↔ ∃ count opening this text closing,
      (path r).Yields count (facing ⟨.mark .opening, opening⟩
        (.lexeme ⟨.identifier this, text⟩ :: .lexeme ⟨.mark .closing, closing⟩ :: r'.events)) ∧
      sameWord count "count" ∧ sameWord this "this" := by
  unfold selected
  rw [Phrase.yields_andThen]
  constructor
  · rintro ⟨field, r₁, hp, h⟩
    split at h
    · next same =>
      obtain ⟨-, opening, this, text, closing, named, rfl⟩ | ⟨-, ⟨⟩, -⟩ :=
        yields_countOrField.mp h
      exact ⟨field, opening, this, text, closing, hp, same, named⟩
    · cases (yields_pure.mp h).1
  · rintro ⟨count, opening, this, text, closing, hp, same, named⟩
    refine ⟨count, _, hp, ?_⟩
    rw [if_pos same]
    exact yields_countOrField.mpr
      (Or.inl ⟨rfl, opening, this, text, closing, named, rfl⟩)

theorem furtherField_parses :
    Parses (fun r => (furtherField r).Yields) [.mark .opening, .mark .dot] Rule.Path where
  sound := by
    intro r f rest h
    obtain ⟨o, r₁, hs, h₁⟩ := Phrase.yields_andThen.mp h
    cases o with
    | none => exact (yields_fail.mp h₁).elim
    | some field =>
      obtain ⟨rfl, rfl⟩ := yields_pure.mp h₁
      exact path_parses.sound (yields_selected_some.mp hs).1
  complete := by
    intro ls f rest hp stop
    refine Phrase.yields_andThen.mpr ⟨some f, ofLexemes rest, ?_, rfl⟩
    exact yields_selected_some.mpr
      ⟨path_parses.complete hp (stop.mono (by simp)), fun _ => stop.token?_ne (by simp)⟩

theorem furtherFields_parse :
    Parses (fun r => (chain (.mark .comma) furtherField r).Yields)
      [.mark .comma, .mark .opening, .mark .dot] (Rule.Chain (.mark .comma) Rule.Path) :=
  furtherField_parses.chain (by simp)

theorem count_sound {count opening this text closing : String}
    (hp : (path r).Yields count (facing ⟨.mark .opening, opening⟩
      (.lexeme ⟨.identifier this, text⟩ :: .lexeme ⟨.mark .closing, closing⟩ ::
        rest.map .lexeme)))
    (same : sameWord count "count") (named : sameWord this "this") :
    ∃ ls, r = ofLexemes ls ∧ Rule.Selection ls ([], true) rest := by
  have named_path : (path r).Yields count (ofLexemes (⟨.mark .opening, opening⟩ ::
      ⟨.identifier this, text⟩ :: ⟨.mark .closing, closing⟩ :: rest)) := hp
  obtain ⟨ls, rfl, hX⟩ := path_parses.sound named_path
  refine ⟨ls, rfl, ?_⟩
  cases hX with
  | single => exact .count same named
  | dotted hs => exact absurd same (not_sameWord_dotted hs.ne_nil (by decide))

/-- Before `FROM` the selection may be left out. -/
theorem selection_sound {selected : List String × Bool}
    (h : (selection r).Yields selected (ofLexemes rest)) :
    (selected = ([], false) ∧ r = ofLexemes rest ∧ r.token? = some (.keyword .from_)) ∨
      ∃ ls, r = ofLexemes ls ∧ Rule.Selection ls selected rest := by
  obtain ⟨front, ⟨rfl⟩, rfl⟩ | ⟨-, h₁⟩ := yields_ite_peek.mp h
  · exact Or.inl ⟨rfl, rfl, front⟩
  refine Or.inr ?_
  obtain ⟨text, r₁, rfl, ⟨⟩⟩ | ⟨-, h₂⟩ := yields_ite_accept.mp h₁
  · exact ⟨⟨.mark .star, text⟩ :: rest, by simp, .star⟩
  obtain ⟨o, r₁, hs, h₃⟩ := yields_lift_bind.mp h₂
  cases o with
  | none =>
    obtain ⟨count, opening, this, text, closing, hp, same, named⟩ := yields_selected_none.mp hs
    obtain ⟨-, h₄⟩ | ⟨-, ⟨rfl⟩, rfl⟩ := yields_ite_peek.mp h₃
    · exact (yields_fail.mp h₄).elim
    · rw [events_ofLexemes] at hp
      exact count_sound hp same named
  | some field =>
    obtain ⟨text, r₂, rfl, h₄⟩ | ⟨-, ⟨⟩⟩ := yields_ite_accept.mp h₃
    · obtain ⟨others, r₃, ho, ⟨⟩⟩ := yields_lift_bind.mp h₄
      obtain ⟨mid, rfl, chained⟩ := furtherFields_parse.sound ho
      have hp := (yields_selected_some.mp hs).1
      rw [events_ofLexemes, ← ofLexemes_cons] at hp
      obtain ⟨ls, rfl, hX⟩ := path_parses.sound hp
      exact ⟨ls, rfl, .fields (.more hX chained)⟩
    · obtain ⟨ls, rfl, hX⟩ := path_parses.sound (yields_selected_some.mp hs).1
      exact ⟨ls, rfl, .fields (.last hX)⟩

theorem selection_complete {selected : List String × Bool} (h : Rule.Selection ls selected rest)
    (stop : Stops [.mark .comma, .mark .opening, .mark .dot] rest) :
    (selection (ofLexemes ls)).Yields selected (ofLexemes rest) := by
  cases h with
  | @star text =>
    refine yields_ite_peek.mpr (Or.inr ⟨by simp, ?_⟩)
    exact yields_ite_accept.mpr (Or.inl ⟨text, ofLexemes rest, by simp, rfl⟩)
  | @count name count this opening text closing _ same named =>
    refine yields_ite_peek.mpr (Or.inr ⟨by simp, ?_⟩)
    refine yields_ite_accept.mpr (Or.inr ⟨by simp, ?_⟩)
    refine yields_lift_bind.mpr ⟨none, ofLexemes rest, ?_, ?_⟩
    · have hp : Rule.Path (⟨.identifier name, count⟩ :: ⟨.mark .opening, opening⟩ ::
          ⟨.identifier this, text⟩ :: ⟨.mark .closing, closing⟩ :: rest) count
          (⟨.mark .opening, opening⟩ :: ⟨.identifier this, text⟩ ::
            ⟨.mark .closing, closing⟩ :: rest) := .single
      refine yields_selected_none.mpr ⟨count, opening, this, text, closing, ?_, same, named⟩
      rw [events_ofLexemes]
      exact path_parses.complete hp (by simp)
    · exact yields_ite_peek.mpr (Or.inr ⟨stop.token?_ne (by simp), rfl⟩)
  | fields chained =>
    have front : Stops [.keyword .from_, .mark .star] ls := by
      cases chained with
      | last hp => exact hp.stops (by simp)
      | more hp _ => exact hp.stops (by simp)
    refine yields_ite_peek.mpr (Or.inr ⟨front.token?_ne (by simp), ?_⟩)
    refine yields_ite_accept.mpr (Or.inr ⟨front.token?_ne (by simp), ?_⟩)
    refine yields_lift_bind.mpr ?_
    cases chained with
    | @last _ field _ hp =>
      refine ⟨some field, ofLexemes rest, yields_selected_some.mpr
        ⟨path_parses.complete hp (stop.mono (by simp)), fun _ => stop.token?_ne (by simp)⟩, ?_⟩
      exact yields_ite_accept.mpr (Or.inr ⟨stop.token?_ne (by simp), rfl⟩)
    | @more _ field text mid others _ hp chained =>
      refine ⟨some field, ofLexemes (⟨.mark .comma, text⟩ :: mid), yields_selected_some.mpr
        ⟨path_parses.complete hp (by simp), fun _ => by simp⟩, ?_⟩
      refine yields_ite_accept.mpr (Or.inl ⟨text, ofLexemes mid, by simp, ?_⟩)
      exact yields_lift_bind.mpr ⟨others, _, furtherFields_parse.complete chained stop, rfl⟩

end Selection

end QueryTree.Grammar
