import QueryTree.Grammar.Condition
import QueryTree.Proofs.Grammar.Operand

/-! # Conditions are read by their rules -/

namespace QueryTree.Grammar

open Reader Phrase Trail

variable {r r' : Reader} {ls rest : List Lexeme} {field : String} {c : Condition Operand}

theorem comparator?_eq_some_iff {t : Token} {op : Operator} :
    comparator? t = some op ↔ ∃ m, t = .mark m ∧ Rule.Comparator m op := by
  constructor
  · intro h
    unfold comparator? at h
    split at h <;> cases h
    · exact ⟨_, rfl, .equal⟩
    · exact ⟨_, rfl, .notEqual⟩
    · exact ⟨_, rfl, .less⟩
    · exact ⟨_, rfl, .lessEqual⟩
    · exact ⟨_, rfl, .greater⟩
    · exact ⟨_, rfl, .greaterEqual⟩
  · rintro ⟨m, rfl, h⟩
    cases h <;> rfl

theorem wordComparison_sound {e : Expectation}
    (h : (wordComparison field e r).Yields c (ofLexemes rest)) :
    ∃ ls, r = ofLexemes ls ∧ Rule.WordComparison field ls c rest := by
  obtain ⟨text, r₁, rfl, like⟩ | ⟨-, notLike⟩ := yields_ite_accept.mp h
  · obtain ⟨v, r₂, hv, ⟨⟩⟩ := yields_lift_bind.mp like
    obtain ⟨ls, rfl, hX⟩ := operand_parses.sound hv
    exact ⟨⟨.keyword .like, text⟩ :: ls, by simp, .like hX⟩
  obtain ⟨text, r₁, rfl, in_⟩ | ⟨-, notIn⟩ := yields_ite_accept.mp notLike
  · obtain ⟨_, r₂, ho, listed⟩ := yields_lift_bind.mp in_
    obtain ⟨opening, rfl⟩ := yields_expect.mp ho
    obtain ⟨items, r₃, hi, closed⟩ := yields_lift_bind.mp listed
    obtain ⟨_, r₄, hc, ⟨⟩⟩ := yields_lift_bind.mp closed
    obtain ⟨closing, rfl⟩ := yields_expect.mp hc
    rw [events_ofLexemes, ← ofLexemes_cons] at hi
    obtain ⟨ls, rfl, hX⟩ := operands_parse.sound hi
    exact ⟨⟨.keyword .in_, text⟩ :: ⟨.mark .opening, opening⟩ :: ls, by simp, .in_ hX⟩
  obtain ⟨text, r₁, rfl, between⟩ | ⟨-, other⟩ := yields_ite_accept.mp notIn
  · obtain ⟨low, r₂, hl, bounds⟩ := yields_lift_bind.mp between
    obtain ⟨_, r₃, ha, bound⟩ := yields_lift_bind.mp bounds
    obtain ⟨and, rfl⟩ := yields_expect.mp ha
    obtain ⟨high, r₄, hh, ⟨⟩⟩ := yields_lift_bind.mp bound
    obtain ⟨mid, rfl, hhigh⟩ := operand_parses.sound hh
    rw [events_ofLexemes, ← ofLexemes_cons] at hl
    obtain ⟨ls, rfl, hlow⟩ := operand_parses.sound hl
    exact ⟨⟨.keyword .between, text⟩ :: ls, by simp, .between hlow hhigh⟩
  · exact (yields_unexpected.mp other).elim

theorem wordComparison_complete {e : Expectation} (h : Rule.WordComparison field ls c rest)
    (stop : Stops [.mark .dot] rest) :
    (wordComparison field e (ofLexemes ls)).Yields c (ofLexemes rest) := by
  cases h with
  | @like text mid v _ hv =>
    refine yields_ite_accept.mpr (Or.inl ⟨text, ofLexemes mid, by simp, ?_⟩)
    exact yields_lift_bind.mpr ⟨v, _, operand_parses.complete hv stop, rfl⟩
  | @in_ text opening mid items closing _ hi =>
    refine yields_ite_accept.mpr (Or.inr ⟨by simp, ?_⟩)
    refine yields_ite_accept.mpr
      (Or.inl ⟨text, ofLexemes (⟨.mark .opening, opening⟩ :: mid), by simp, ?_⟩)
    refine yields_lift_bind.mpr
      ⟨(), ofLexemes mid, yields_expect.mpr ⟨opening, by simp⟩, ?_⟩
    refine yields_lift_bind.mpr ⟨items, _, operands_parse.complete hi (by simp), ?_⟩
    exact yields_lift_bind.mpr ⟨(), _, yields_expect.mpr ⟨closing, by simp⟩, rfl⟩
  | @between text mid₁ low and mid₂ high _ hl hh =>
    refine yields_ite_accept.mpr (Or.inr ⟨by simp, ?_⟩)
    refine yields_ite_accept.mpr (Or.inr ⟨by simp, ?_⟩)
    refine yields_ite_accept.mpr (Or.inl ⟨text, ofLexemes mid₁, by simp, ?_⟩)
    refine yields_lift_bind.mpr ⟨low, _, operand_parses.complete hl (by simp), ?_⟩
    refine yields_lift_bind.mpr
      ⟨(), ofLexemes mid₂, yields_expect.mpr ⟨and, by simp⟩, ?_⟩
    exact yields_lift_bind.mpr ⟨high, _, operand_parses.complete hh stop, rfl⟩

theorem wordComparison_parses (field : String) (e : Expectation) :
    Parses (fun r => (wordComparison field e r).Yields) [.mark .dot] (Rule.WordComparison field) :=
  ⟨wordComparison_sound, wordComparison_complete⟩

theorem comparison_sound (h : (comparison r).Yields c (ofLexemes rest)) :
    ∃ ls, r = ofLexemes ls ∧ Rule.Comparison ls c rest := by
  obtain ⟨field, r₁, hf, h₁⟩ := Phrase.yields_andThen.mp h
  obtain ⟨o, r₂, ho, h₂⟩ := yields_bind.mp h₁
  obtain ⟨⟨t, text⟩, op, rfl, hop, rfl⟩ | ⟨rfl, -, rfl⟩ := yields_acceptAs.mp ho
  · obtain ⟨v, r₃, hv, ⟨⟩⟩ := yields_lift_bind.mp h₂
    obtain ⟨m, rfl, hm⟩ := comparator?_eq_some_iff.mp hop
    obtain ⟨mid, rfl, hX⟩ := operand_parses.sound hv
    rw [events_ofLexemes, ← ofLexemes_cons] at hf
    obtain ⟨ls, rfl, hp⟩ := path_parses.sound hf
    exact ⟨ls, rfl, .mark hp hm hX⟩
  obtain ⟨is, r₃, rfl, h₃⟩ | ⟨-, h₃⟩ := yields_ite_accept.mp h₂
  · obtain ⟨negated, r₄, hn, h₄⟩ := yields_bind.mp h₃
    obtain ⟨_, r₅, he, ⟨⟩⟩ := yields_lift_bind.mp h₄
    obtain ⟨null, rfl⟩ := yields_expect.mp he
    obtain ⟨rfl, not, rfl⟩ | ⟨rfl, -, rfl⟩ := yields_accept.mp hn
    · rw [events_facing, events_facing, events_ofLexemes, ← List.map_cons, ← List.map_cons,
        ← ofLexemes_cons] at hf
      obtain ⟨ls, rfl, hp⟩ := path_parses.sound hf
      exact ⟨ls, rfl, .isNotNull hp⟩
    · rw [events_facing, events_ofLexemes, ← List.map_cons, ← ofLexemes_cons] at hf
      obtain ⟨ls, rfl, hp⟩ := path_parses.sound hf
      exact ⟨ls, rfl, .isNull hp⟩
  obtain ⟨not, r₄, rfl, h₄⟩ | ⟨-, h₄⟩ := yields_ite_accept.mp h₃
  · obtain ⟨d, r₅, hd, ⟨⟩⟩ := yields_bind.mp h₄
    obtain ⟨mid, rfl, hX⟩ := (wordComparison_parses _ _).sound hd
    rw [events_ofLexemes, ← ofLexemes_cons] at hf
    obtain ⟨ls, rfl, hp⟩ := path_parses.sound hf
    exact ⟨ls, rfl, .notWord hp hX⟩
  · obtain ⟨mid, rfl, hX⟩ := (wordComparison_parses _ _).sound h₄
    obtain ⟨ls, rfl, hp⟩ := path_parses.sound hf
    exact ⟨ls, rfl, .word hp hX⟩

theorem Rule.WordComparison.stops (h : Rule.WordComparison field ls c rest) :
    Stops [.mark .dot, .keyword .is, .keyword .not] ls ∧
      (ofLexemes ls).token?.bind comparator? = none := by
  cases h <;> simp [comparator?]

theorem not_comparator (k : Keyword) (text : String) (ls : List Lexeme) :
    (acceptAs comparator? (ofLexemes (⟨.keyword k, text⟩ :: ls))).Yields none
      (ofLexemes (⟨.keyword k, text⟩ :: ls)) :=
  yields_acceptAs.mpr (Or.inr ⟨rfl, by simp [comparator?], rfl⟩)

theorem comparison_complete (h : Rule.Comparison ls c rest) (stop : Stops [.mark .dot] rest) :
    (comparison (ofLexemes ls)).Yields c (ofLexemes rest) := by
  refine Phrase.yields_andThen.mpr ?_
  cases h with
  | @mark _ field m text mid op v _ hp hm hv =>
    have front : m ≠ .dot := by
      rintro rfl
      cases hm
    refine ⟨field, _, path_parses.complete hp (by simpa using front), ?_⟩
    refine yields_bind.mpr ⟨some op, ofLexemes mid, yields_acceptAs.mpr (Or.inl ?_), ?_⟩
    · exact ⟨⟨.mark m, text⟩, op, rfl, comparator?_eq_some_iff.mpr ⟨m, rfl, hm⟩, by simp⟩
    · exact yields_lift_bind.mpr ⟨v, _, operand_parses.complete hv stop, rfl⟩
  | @word _ field mid _ _ hp hw =>
    obtain ⟨front, other⟩ := hw.stops
    refine ⟨field, _, path_parses.complete hp (front.mono (by simp)), ?_⟩
    refine yields_bind.mpr ⟨none, _, yields_acceptAs.mpr (Or.inr ⟨rfl, other, rfl⟩), ?_⟩
    refine yields_ite_accept.mpr (Or.inr ⟨front.token?_ne (by simp), ?_⟩)
    refine yields_ite_accept.mpr (Or.inr ⟨front.token?_ne (by simp), ?_⟩)
    exact (wordComparison_parses _ _).complete hw stop
  | @notWord _ field not mid d _ hp hw =>
    refine ⟨field, _, path_parses.complete hp (by simp), ?_⟩
    refine yields_bind.mpr ⟨none, _, not_comparator _ _ _, ?_⟩
    refine yields_ite_accept.mpr (Or.inr ⟨by simp, ?_⟩)
    refine yields_ite_accept.mpr (Or.inl ⟨not, ofLexemes mid, by simp, ?_⟩)
    exact yields_bind.mpr ⟨d, _, (wordComparison_parses _ _).complete hw stop, rfl⟩
  | @isNull _ field is null _ hp =>
    refine ⟨field, _, path_parses.complete hp (by simp), ?_⟩
    refine yields_bind.mpr ⟨none, _, not_comparator _ _ _, ?_⟩
    refine yields_ite_accept.mpr (Or.inl ⟨is, ofLexemes (⟨.null, null⟩ :: rest), by simp, ?_⟩)
    refine yields_bind.mpr ⟨false, _, yields_accept.mpr (Or.inr ⟨rfl, by simp, rfl⟩), ?_⟩
    exact yields_lift_bind.mpr ⟨(), _, yields_expect.mpr ⟨null, by simp⟩, rfl⟩
  | @isNotNull _ field is not null _ hp =>
    refine ⟨field, _, path_parses.complete hp (by simp), ?_⟩
    refine yields_bind.mpr ⟨none, _, not_comparator _ _ _, ?_⟩
    refine yields_ite_accept.mpr
      (Or.inl ⟨is, ofLexemes (⟨.keyword .not, not⟩ :: ⟨.null, null⟩ :: rest), by simp, ?_⟩)
    refine yields_bind.mpr
      ⟨true, ofLexemes (⟨.null, null⟩ :: rest), yields_accept.mpr (Or.inl ⟨rfl, not, by simp⟩), ?_⟩
    exact yields_lift_bind.mpr ⟨(), _, yields_expect.mpr ⟨null, by simp⟩, rfl⟩

theorem comparison_parses : Parses (fun r => (comparison r).Yields) [.mark .dot] Rule.Comparison :=
  ⟨comparison_sound, comparison_complete⟩

/-! The readings of nested conditions are phrases, once their bounds are left out. -/

theorem size_le_self (r : Reader) : r.size ≤ r.size := Nat.le_refl _

def primary : Phrase (Condition Operand) := fun r =>
  primaryWith r.size (fun r₁ _ => condition r₁) r (size_le_self r)

def negation : Phrase (Condition Operand) := fun r =>
  negationWith r.size (fun r₁ _ => condition r₁) r (size_le_self r)

def conjunction : Phrase (Condition Operand) := (chain (.keyword .and) negation).map (.join .and)

theorem condition_eq : condition r = (chain (.keyword .or) conjunction r).map (.join .or) := by
  have conjunct : ∀ n, conjunctionWith n (fun r₁ _ => condition r₁) = fun r _ => conjunction r := by
    intro n
    funext r h
    exact congrArg (Reading.map _) (chainWithin_congr (p := negation) h (Nat.le_refl _))
  rw [condition, disjunctionWith, conjunct]
  rfl

theorem yields_primary :
    (primary r).Yields c r' ↔
      (∃ opening r₁ closing, r = facing ⟨.mark .opening, opening⟩ r₁.events ∧
        (condition r₁).Yields c (facing ⟨.mark .closing, closing⟩ r'.events)) ∨
      (r.token? ≠ some (.mark .opening) ∧ (comparison r).Yields c r') := by
  unfold primary primaryWith
  split
  · next ht =>
    have other := accept?_eq_none_iff.mp ht
    constructor
    · exact fun h => Or.inr ⟨other, h⟩
    · rintro (⟨opening, r₁, closing, rfl, -⟩ | ⟨-, h⟩)
      · exact absurd rfl other
      · exact h
  · next taken ht =>
    refine Reading.yields_thenPhrase.trans ?_
    constructor
    · rintro ⟨_, r₁, ho, h⟩
      obtain ⟨opening, rfl⟩ := (yields_of_accept? ht).mp ho
      obtain ⟨d, r₂, hd, h⟩ := Reading.yields_thenPhrase.mp h
      obtain ⟨_, he, rfl⟩ := Reading.yields_map.mp h
      obtain ⟨closing, rfl⟩ := yields_expect.mp he
      exact Or.inl ⟨opening, r₁, closing, rfl, hd⟩
    · rintro (⟨opening, r₁, closing, hr, h⟩ | ⟨other, -⟩)
      · refine ⟨(), r₁, (yields_of_accept? ht).mpr ⟨opening, hr⟩, ?_⟩
        refine Reading.yields_thenPhrase.mpr ⟨c, _, h, ?_⟩
        exact Reading.yields_map.mpr ⟨(), yields_expect.mpr ⟨closing, rfl⟩, rfl⟩
      · rw [accept?_eq_none_iff.mpr other] at ht
        cases ht

theorem yields_negation :
    (negation r).Yields c r' ↔
      (∃ text r₁ d, r = facing ⟨.keyword .not, text⟩ r₁.events ∧ (primary r₁).Yields d r' ∧
        c = .node .not [d]) ∨
      (r.token? ≠ some (.keyword .not) ∧ (primary r).Yields c r') := by
  unfold negation negationWith
  split
  · next ht =>
    have other := accept?_eq_none_iff.mp ht
    constructor
    · exact fun h => Or.inr ⟨other, h⟩
    · rintro (⟨text, r₁, d, rfl, -⟩ | ⟨-, h⟩)
      · exact absurd rfl other
      · exact h
  · next taken ht =>
    refine Reading.yields_thenPhrase.trans ?_
    constructor
    · rintro ⟨_, r₁, hn, h⟩
      obtain ⟨text, rfl⟩ := (yields_of_accept? ht).mp hn
      obtain ⟨d, hd, rfl⟩ := Reading.yields_map.mp h
      exact Or.inl ⟨text, r₁, d, rfl, hd, rfl⟩
    · rintro (⟨text, r₁, d, hr, hd, rfl⟩ | ⟨other, -⟩)
      · exact ⟨(), r₁, (yields_of_accept? ht).mpr ⟨text, hr⟩, Reading.yields_map.mpr ⟨d, hd, rfl⟩⟩
      · rw [accept?_eq_none_iff.mpr other] at ht
        cases ht

theorem joined_iff {op : Operator} {cs : List (Condition Operand)} :
    Rule.Joined op cs c ↔ cs ≠ [] ∧ c = .join op cs := by
  constructor
  · intro h
    cases h <;> simp [Condition.join]
  · rintro ⟨some, rfl⟩
    rcases cs with - | ⟨d, - | ⟨e, ds⟩⟩
    · exact absurd rfl some
    · exact .single
    · exact .several

/-- What conditions derive is known of every reader smaller than `r`. -/
def SoundBelow (r : Reader) : Prop :=
  ∀ r₁ : Reader, r₁.size < r.size → ∀ c rest, (condition r₁).Yields c (ofLexemes rest) →
    ∃ ls, r₁ = ofLexemes ls ∧ Rule.Disjunction ls c rest

theorem SoundBelow.mono (h : SoundBelow r) (smaller : r'.size ≤ r.size) : SoundBelow r' :=
  fun r₁ h₁ => h r₁ (Nat.lt_of_lt_of_le h₁ smaller)

theorem primary_sound (nested : SoundBelow r) (h : (primary r).Yields c (ofLexemes rest)) :
    ∃ ls, r = ofLexemes ls ∧ Rule.Primary ls c rest := by
  obtain ⟨opening, r₁, closing, rfl, hc⟩ | ⟨-, hc⟩ := yields_primary.mp h
  · rw [events_ofLexemes, ← ofLexemes_cons] at hc
    obtain ⟨ls, rfl, hX⟩ := nested r₁ (by simp [size_facing_events]) c _ hc
    exact ⟨⟨.mark .opening, opening⟩ :: ls, by simp, .parentheses hX⟩
  · obtain ⟨ls, rfl, hX⟩ := comparison_parses.sound hc
    exact ⟨ls, rfl, .comparison hX⟩

theorem negation_sound (nested : SoundBelow r) (h : (negation r).Yields c (ofLexemes rest)) :
    ∃ ls, r = ofLexemes ls ∧ Rule.Negation ls c rest := by
  obtain ⟨text, r₁, d, rfl, hd, rfl⟩ | ⟨-, hc⟩ := yields_negation.mp h
  · have smaller : SoundBelow r₁ := SoundBelow.mono nested (by simp [size_facing_events])
    obtain ⟨ls, rfl, hX⟩ := primary_sound smaller hd
    exact ⟨⟨.keyword .not, text⟩ :: ls, by simp, .not hX⟩
  · obtain ⟨ls, rfl, hX⟩ := primary_sound nested hc
    exact ⟨ls, rfl, .plain hX⟩

theorem Rule.Chain.ne_nil {α : Type} {separator : Token} {item : Rule α} {as : List α}
    (h : Rule.Chain separator item ls as rest) : as ≠ [] := by
  cases h <;> simp

theorem conjunction_sound (nested : SoundBelow r) (h : (conjunction r).Yields c (ofLexemes rest)) :
    ∃ ls, r = ofLexemes ls ∧ Rule.Conjunction ls c rest := by
  obtain ⟨cs, hcs, rfl⟩ := Reading.yields_map.mp h
  obtain ⟨ls, rfl, hX⟩ := chain_sound
    (fun r₁ h₁ d rest' hd => negation_sound (nested.mono h₁) hd) (Nat.le_refl _) hcs
  exact ⟨ls, rfl, .mk hX (joined_iff.mpr ⟨hX.ne_nil, rfl⟩)⟩

theorem condition_sound {r : Reader} {c : Condition Operand} {rest : List Lexeme}
    (h : (condition r).Yields c (ofLexemes rest)) :
    ∃ ls, r = ofLexemes ls ∧ Rule.Disjunction ls c rest := by
  have nested : SoundBelow r := fun r₁ h₁ d rest' hd => condition_sound hd
  rw [condition_eq] at h
  obtain ⟨cs, hcs, rfl⟩ := Reading.yields_map.mp h
  obtain ⟨ls, rfl, hX⟩ := chain_sound
    (fun r₁ h₁ d rest' hd => conjunction_sound (nested.mono h₁) hd) (Nat.le_refl _) hcs
  exact ⟨ls, rfl, .mk hX (joined_iff.mpr ⟨hX.ne_nil, rfl⟩)⟩
termination_by r.size

theorem Rule.Comparison.stops (h : Rule.Comparison ls c rest) :
    Stops [.mark .opening, .keyword .not] ls := by
  cases h with
  | mark hp => exact hp.stops (by simp)
  | word hp => exact hp.stops (by simp)
  | notWord hp => exact hp.stops (by simp)
  | isNull hp => exact hp.stops (by simp)
  | isNotNull hp => exact hp.stops (by simp)

theorem Rule.Primary.stops (h : Rule.Primary ls c rest) : Stops [.keyword .not] ls := by
  cases h with
  | comparison hc => exact hc.stops.mono (by simp)
  | parentheses => simp

mutual

theorem primary_complete {ls rest : List Lexeme} {c : Condition Operand} :
    Rule.Primary ls c rest → Stops [.mark .dot] rest →
      (primary (ofLexemes ls)).Yields c (ofLexemes rest)
  | .comparison hc, stop =>
    yields_primary.mpr (Or.inr ⟨hc.stops.token?_ne (by simp), comparison_parses.complete hc stop⟩)
  | @Rule.Primary.parentheses opening mid _ closing _ hd, _ => by
    have inside := condition_complete hd (by simp)
    rw [ofLexemes_cons, ← events_ofLexemes] at inside
    exact yields_primary.mpr (Or.inl ⟨opening, ofLexemes mid, closing, by simp, inside⟩)

theorem negation_complete {ls rest : List Lexeme} {c : Condition Operand} :
    Rule.Negation ls c rest → Stops [.mark .dot] rest →
      (negation (ofLexemes ls)).Yields c (ofLexemes rest)
  | .plain hp, stop =>
    yields_negation.mpr (Or.inr ⟨hp.stops.token?_ne (by simp), primary_complete hp stop⟩)
  | @Rule.Negation.not text mid d _ hp, stop =>
    yields_negation.mpr
      (Or.inl ⟨text, ofLexemes mid, d, by simp, primary_complete hp stop, rfl⟩)

theorem negations_complete {ls rest : List Lexeme} {cs : List (Condition Operand)} :
    Rule.Chain (.keyword .and) Rule.Negation ls cs rest →
      Stops [.keyword .and, .mark .dot] rest →
        (chain (.keyword .and) negation (ofLexemes ls)).Yields cs (ofLexemes rest)
  | .last first, stop => yields_chain_last (negation_complete first (stop.mono (by simp))) stop
  | .more first others, stop =>
    yields_chain_more (negation_complete first (by simp)) (negations_complete others stop)

theorem conjunction_complete {ls rest : List Lexeme} {c : Condition Operand} :
    Rule.Conjunction ls c rest → Stops [.keyword .and, .mark .dot] rest →
      (conjunction (ofLexemes ls)).Yields c (ofLexemes rest)
  | .mk hs hj, stop =>
    Reading.yields_map.mpr ⟨_, negations_complete hs stop, (joined_iff.mp hj).2.symm⟩

theorem conjunctions_complete {ls rest : List Lexeme} {cs : List (Condition Operand)} :
    Rule.Chain (.keyword .or) Rule.Conjunction ls cs rest →
      Stops [.keyword .or, .keyword .and, .mark .dot] rest →
        (chain (.keyword .or) conjunction (ofLexemes ls)).Yields cs (ofLexemes rest)
  | .last first, stop => yields_chain_last (conjunction_complete first (stop.mono (by simp))) stop
  | .more first others, stop =>
    yields_chain_more (conjunction_complete first (by simp)) (conjunctions_complete others stop)

theorem condition_complete {ls rest : List Lexeme} {c : Condition Operand} :
    Rule.Disjunction ls c rest → Stops [.keyword .or, .keyword .and, .mark .dot] rest →
      (condition (ofLexemes ls)).Yields c (ofLexemes rest)
  | .mk hs hj, stop => by
    rw [condition_eq]
    exact Reading.yields_map.mpr ⟨_, conjunctions_complete hs stop, (joined_iff.mp hj).2.symm⟩

end

theorem condition_parses :
    Parses (fun r => (condition r).Yields) [.keyword .or, .keyword .and, .mark .dot]
      Rule.Disjunction :=
  ⟨condition_sound, condition_complete⟩

end QueryTree.Grammar
