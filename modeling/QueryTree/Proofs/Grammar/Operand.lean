import QueryTree.Proofs.Grammar.Rules
import QueryTree.Proofs.Grammar.Yield

/-! # Names and operands are read by their rules

What a phrase yields is what its rule derives. In one direction the lexemes that are left do not
matter; in the other they must not start with a token that the phrase would go on with.
-/

namespace QueryTree.Grammar

open Reader Reading Phrase

/-- None of the tokens comes first. -/
def Stops (ts : List Token) (ls : List Lexeme) : Prop := ∀ l ∈ ls.head?, l.token ∉ ts

section Stops

variable {t : Token} {ts us : List Token} {l : Lexeme} {ls : List Lexeme}

@[simp] theorem stops_nil : Stops ts [] := by
  simp [Stops]

@[simp] theorem stops_empty : Stops [] ls := by
  simp [Stops]

@[simp] theorem stops_cons : Stops ts (l :: ls) ↔ l.token ∉ ts := by
  simp [Stops]

theorem Stops.mono (h : Stops ts ls) (sub : us ⊆ ts) : Stops us ls :=
  fun l hl hu => h l hl (sub hu)

theorem Stops.token?_ne (h : Stops ts ls) (ht : t ∈ ts) : (ofLexemes ls).token? ≠ some t := by
  rw [token?_ofLexemes]
  intro front
  obtain ⟨l, hl, rfl⟩ := Option.map_eq_some_iff.mp front
  exact h l hl ht

end Stops

/-- The readings yield what the rule `X` derives, and they would go on only with a token of
`more`. -/
structure Parses {α : Type} (yields : Reader → α → Reader → Prop) (more : List Token)
    (X : Rule α) : Prop where
  sound : ∀ {r a rest}, yields r a (ofLexemes rest) → ∃ ls, r = ofLexemes ls ∧ X ls a rest
  complete : ∀ {ls a rest}, X ls a rest → Stops more rest →
    yields (ofLexemes ls) a (ofLexemes rest)

section Chain

variable {α : Type} {p : Phrase α} {X : Rule α} {more : List Token} {separator : Token} {n : Nat}

/-- The bound `n` serves items that contain chains themselves. -/
theorem chain_sound
    (item : ∀ r, r.size ≤ n → ∀ a rest, (p r).Yields a (ofLexemes rest) →
      ∃ ls, r = ofLexemes ls ∧ X ls a rest)
    {r : Reader} (hr : r.size ≤ n) {as : List α} {rest : List Lexeme}
    (h : (chain separator p r).Yields as (ofLexemes rest)) :
    ∃ ls, r = ofLexemes ls ∧ Rule.Chain separator X ls as rest := by
  obtain ⟨a, r₁, ha, ⟨-, rfl, rfl⟩ | ⟨text, r₂, others, rfl, ho, rfl⟩⟩ := yields_chain.mp h
  · obtain ⟨ls, rfl, hX⟩ := item r hr a rest ha
    exact ⟨ls, rfl, .last hX⟩
  · have shorter : r₂.size < r.size := ha.size_lt_of_facing
    obtain ⟨mid, rfl, chained⟩ := chain_sound item (size_le_of_lt shorter hr) ho
    rw [events_ofLexemes, ← ofLexemes_cons] at ha
    obtain ⟨ls, rfl, hX⟩ := item r hr a _ ha
    exact ⟨ls, rfl, .more hX chained⟩
termination_by r.size

theorem yields_chain_last {ls rest : List Lexeme} {a : α}
    (h : (p (ofLexemes ls)).Yields a (ofLexemes rest)) (stop : Stops (separator :: more) rest) :
    (chain separator p (ofLexemes ls)).Yields [a] (ofLexemes rest) :=
  yields_chain.mpr ⟨a, _, h, Or.inl ⟨stop.token?_ne List.mem_cons_self, rfl, rfl⟩⟩

theorem yields_chain_more {ls mid rest : List Lexeme} {a : α} {as : List α} {text : String}
    (h : (p (ofLexemes ls)).Yields a (ofLexemes (⟨separator, text⟩ :: mid)))
    (others : (chain separator p (ofLexemes mid)).Yields as (ofLexemes rest)) :
    (chain separator p (ofLexemes ls)).Yields (a :: as) (ofLexemes rest) :=
  yields_chain.mpr ⟨a, _, h, Or.inr ⟨text, ofLexemes mid, as, by simp, others, rfl⟩⟩

theorem Parses.chain (h : Parses (fun r => (p r).Yields) more X) (fresh : separator ∉ more) :
    Parses (fun r => (chain separator p r).Yields) (separator :: more)
      (Rule.Chain separator X) where
  sound hr := chain_sound (fun _ _ _ _ => h.sound) (Nat.le_refl _) hr
  complete := by
    intro ls as rest hX stop
    induction hX with
    | last first =>
      exact yields_chain_last (h.complete first (stop.mono (List.subset_cons_self ..))) stop
    | more first _ ih => exact yields_chain_more (h.complete first (by simpa using fresh)) (ih stop)

end Chain

theorem segment_parses : Parses (fun r => (segment r).Yields) [] Rule.Segment where
  sound := by
    intro r w rest h
    obtain ⟨t, ht, rfl⟩ := yields_word.mp h
    refine ⟨⟨t, w⟩ :: rest, by simp, ?_⟩
    cases t <;> simp [Token.isIdentifier, Token.isKeyword] at ht
    case identifier => exact .identifier
    case keyword => exact .keyword
  complete := by
    intro ls w rest h _
    cases h with
    | @identifier name => exact yields_word.mpr ⟨.identifier name, rfl, by simp⟩
    | @keyword k => exact yields_word.mpr ⟨.keyword k, rfl, by simp⟩

theorem yields_dotted {first s : String} {r r' : Reader} :
    (dotted first r).Yields s r' ↔
      (∃ dot r₁ segments, r = facing ⟨.mark .dot, dot⟩ r₁.events ∧
        (chain (.mark .dot) segment r₁).Yields segments r' ∧
        s = ".".intercalate (first :: segments)) ∨
      (r.token? ≠ some (.mark .dot) ∧ s = first ∧ r = r') := by
  refine Trail.yields_ite_accept.trans (or_congr ?_ ?_)
  · constructor
    · rintro ⟨dot, r₁, rfl, h⟩
      obtain ⟨segments, r₂, hs, ⟨⟩⟩ := Trail.yields_lift_bind.mp h
      exact ⟨dot, r₁, segments, rfl, hs, rfl⟩
    · rintro ⟨dot, r₁, segments, rfl, hs, rfl⟩
      exact ⟨dot, r₁, rfl, Trail.yields_lift_bind.mpr ⟨segments, r', hs, rfl⟩⟩
  · simp only [Trail.yields_pure, eq_comm]

theorem segments_parse :
    Parses (fun r => (chain (.mark .dot) segment r).Yields) [.mark .dot]
      (Rule.Chain (.mark .dot) Rule.Segment) :=
  segment_parses.chain List.not_mem_nil

theorem path_parses : Parses (fun r => (path r).Yields) [.mark .dot] Rule.Path where
  sound := by
    intro r s rest h
    obtain ⟨first, r₁, hf, hd⟩ := Phrase.yields_andThen.mp h
    obtain ⟨t, ht, rfl⟩ := yields_word.mp hf
    obtain ⟨name, rfl⟩ : ∃ name, t = .identifier name := by
      cases t <;> simp [Token.isIdentifier] at ht
      exact ⟨_, rfl⟩
    obtain ⟨dot, r₂, segments, rfl, hs, rfl⟩ | ⟨-, rfl, rfl⟩ := yields_dotted.mp hd
    · obtain ⟨ls, rfl, hX⟩ := segments_parse.sound hs
      exact ⟨⟨.identifier name, first⟩ :: ⟨.mark .dot, dot⟩ :: ls, by simp, .dotted hX⟩
    · exact ⟨⟨.identifier name, s⟩ :: rest, by simp, .single⟩
  complete := by
    intro ls s rest h stop
    refine Phrase.yields_andThen.mpr ?_
    cases h with
    | @single name =>
      exact ⟨s, ofLexemes rest, yields_word.mpr ⟨.identifier name, rfl, by simp⟩,
        yields_dotted.mpr (Or.inr ⟨stop.token?_ne (by simp), rfl, rfl⟩)⟩
    | @dotted name text dot mid segments _ hX =>
      exact ⟨text, ofLexemes (⟨.mark .dot, dot⟩ :: mid),
        yields_word.mpr ⟨.identifier name, rfl, by simp⟩,
        yields_dotted.mpr (Or.inl ⟨dot, ofLexemes mid, segments, by simp,
          segments_parse.complete hX stop, rfl⟩)⟩

theorem Rule.Path.stops {ls rest : List Lexeme} {p : String} {ts : List Token}
    (h : Rule.Path ls p rest) (hts : ∀ name, .identifier name ∉ ts) : Stops ts ls := by
  cases h <;> simp [hts]

theorem literal?_eq_some_iff {t : Token} {v : Operand} :
    literal? t = some v ↔ Rule.Literal t v := by
  constructor
  · intro h
    cases t <;> simp only [literal?, Option.some.injEq, reduceCtorEq] at h <;> subst h
    · exact .integer
    · exact .decimal
    · exact .string
    · exact .boolean
    · exact .null
    · exact .named
    · exact .positional
  · intro h
    cases h <;> rfl

section Operand

variable {n : Nat} {r r' : Reader} {v : Operand}

def YieldsArguments (r : Reader) (args : List Operand) (r' : Reader) : Prop :=
  (args = [] ∧ ∃ closing, r = facing ⟨.mark .closing, closing⟩ r'.events) ∨
    (r.token? ≠ some (.mark .closing) ∧ ∃ closing,
      (chain (.mark .comma) operand r).Yields args (facing ⟨.mark .closing, closing⟩ r'.events))

theorem yields_argumentsWith {h : r.size < n} {args : List Operand} :
    (argumentsWith n (fun r _ => operand r) r h).Yields args r' ↔ YieldsArguments r args r' := by
  have closes : ∀ {items : List Operand} {r₁ : Reader},
      (((expect (.mark .closing) r₁).map fun _ => items).Yields args r' ↔
        ∃ closing, r₁ = facing ⟨.mark .closing, closing⟩ r'.events ∧ items = args) := by
    simp [yields_expect]
  unfold argumentsWith YieldsArguments
  by_cases front : r.token? = some (.mark .closing)
  · simp only [front, if_true, ne_eq, not_true_eq_false, false_and, or_false]
    refine yields_thenPhrase.trans ?_
    simp only [closes, yields_stay]
    constructor
    · rintro ⟨items, r₁, ⟨rfl, rfl⟩, closing, rfl, rfl⟩
      exact ⟨rfl, closing, rfl⟩
    · rintro ⟨rfl, closing, rfl⟩
      exact ⟨[], _, ⟨rfl, rfl⟩, closing, rfl, rfl⟩
  · have other : ∀ closing, r ≠ facing ⟨.mark .closing, closing⟩ r'.events := by
      rintro closing rfl
      exact front rfl
    simp only [front, if_false, other, and_false, exists_false, false_or, ne_eq,
      not_false_eq_true, true_and]
    refine yields_thenPhrase.trans ?_
    simp only [closes, yields_loosen]
    constructor
    · rintro ⟨items, r₁, ha, closing, rfl, rfl⟩
      exact ⟨closing, ha⟩
    · rintro ⟨closing, ha⟩
      exact ⟨args, _, ha, closing, rfl, rfl⟩

def YieldsAfterName (name : String) (r : Reader) (v : Operand) (r' : Reader) : Prop :=
  (∃ opening r₁ args, r = facing ⟨.mark .opening, opening⟩ r₁.events ∧
    YieldsArguments r₁ args r' ∧ v = .call (Text.upper name) args) ∨
  (∃ path, r.token? = some (.mark .dot) ∧ (dotted name r).Yields path r' ∧ v = .enum path)

theorem yields_afterNameWith {name : String} {h : r.size < n} :
    (afterNameWith n (fun r _ => operand r) name r h).Yields v r' ↔
      YieldsAfterName name r v r' := by
  unfold afterNameWith YieldsAfterName
  split
  · next taken ht =>
    have front : r.token? ≠ some (.mark .dot) := by
      intro hd
      have none : r.accept? (.mark .opening) = none := accept?_eq_none_iff.mpr (by simp [hd])
      rw [ht] at none
      cases none
    simp only [front, false_and, exists_false, or_false]
    refine yields_loosen.trans (yields_bind.trans ?_)
    simp only [yields_relax, yields_map, yields_argumentsWith, yields_of_accept? ht]
    constructor
    · rintro ⟨_, r₁, ⟨opening, rfl⟩, args, ha, rfl⟩
      exact ⟨opening, r₁, args, rfl, ha, rfl⟩
    · rintro ⟨opening, r₁, args, hr, ha, rfl⟩
      exact ⟨(), r₁, ⟨opening, hr⟩, args, ha, rfl⟩
  · next ht =>
    by_cases hd : r.token? = some (.mark .dot)
    · rw [if_pos hd, yields_map]
      constructor
      · rintro ⟨path, hp, rfl⟩
        exact Or.inr ⟨path, hd, hp, rfl⟩
      · rintro (⟨opening, r₁, args, rfl, -⟩ | ⟨path, -, hp, rfl⟩)
        · exact absurd ht accept?_facing_ne_none
        · exact ⟨path, hp, rfl⟩
    · rw [if_neg hd]
      refine iff_of_false yields_failed.mp ?_
      rintro (⟨opening, r₁, args, rfl, -⟩ | ⟨path, front, -⟩)
      · exact absurd ht accept?_facing_ne_none
      · exact hd front

theorem yields_operand_identifier {name text : String} {ahead : List Event} :
    (operand (facing ⟨.identifier name, text⟩ ahead)).Yields v r' ↔
      ∃ r₁, ahead = r₁.events ∧ YieldsAfterName name r₁ v r' := by
  rw [operand]
  refine yields_bind.trans ?_
  constructor
  · rintro ⟨_, r₁, h₁, hv⟩
    exact ⟨r₁, yields_step.mp h₁, yields_afterNameWith.mp (yields_relax.mp hv)⟩
  · rintro ⟨r₁, rfl, hv⟩
    exact ⟨(), r₁, yields_step.mpr rfl, yields_relax.mpr (yields_afterNameWith.mpr hv)⟩

theorem yields_operand_literal {t : Token} {w : Operand} {text : String} {ahead : List Event}
    (hw : Rule.Literal t w) :
    (operand (facing ⟨t, text⟩ ahead)).Yields v r' ↔ w = v ∧ ahead = r'.events := by
  rw [operand]
  cases hw <;>
    exact yields_map.trans ⟨fun ⟨_, h, hv⟩ => ⟨hv, yields_step.mp h⟩,
      fun ⟨hv, h⟩ => ⟨(), yields_step.mpr h, hv⟩⟩

theorem not_yields_operand {t : Token} {text : String} {ahead : List Event}
    (hl : ∀ w, ¬ Rule.Literal t w) (hi : ∀ name, t ≠ .identifier name) :
    ¬ (operand (facing ⟨t, text⟩ ahead)).Yields v r' := by
  rw [operand]
  cases t with
  | identifier name => exact absurd rfl (hi name)
  | keyword k => exact yields_failed.mp
  | mark m => exact yields_failed.mp
  | _ => exact absurd (literal?_eq_some_iff.mp rfl) (hl _)

theorem operand_sound {r : Reader} {v : Operand} {rest : List Lexeme}
    (h : (operand r).Yields v (ofLexemes rest)) :
    ∃ ls, r = ofLexemes ls ∧ Rule.Value ls v rest := by
  cases r with
  | finished =>
    rw [operand] at h
    exact (yields_failed.mp h).elim
  | facing l ahead =>
    obtain ⟨t, text⟩ := l
    by_cases hl : ∃ w, Rule.Literal t w
    · obtain ⟨w, hw⟩ := hl
      obtain ⟨rfl, rfl⟩ := (yields_operand_literal hw).mp h
      exact ⟨⟨t, text⟩ :: rest, by simp, .literal hw⟩
    by_cases hi : ∃ name, t = .identifier name
    · obtain ⟨name, rfl⟩ := hi
      obtain ⟨r₁, rfl, hv⟩ := yields_operand_identifier.mp h
      obtain ⟨opening, r₂, args, rfl, hargs, rfl⟩ | ⟨path, front, hd, rfl⟩ := hv
      · obtain ⟨rfl, closing, rfl⟩ | ⟨-, closing, ha⟩ := hargs
        · exact ⟨⟨.identifier name, text⟩ :: ⟨.mark .opening, opening⟩ ::
            ⟨.mark .closing, closing⟩ :: rest, by simp, .emptyCall⟩
        · rw [events_ofLexemes, ← ofLexemes_cons] at ha
          obtain ⟨ls, rfl, hX⟩ :=
            chain_sound (fun r₃ h₃ w rest' hw => operand_sound hw) (Nat.le_refl r₂.size) ha
          exact ⟨⟨.identifier name, text⟩ :: ⟨.mark .opening, opening⟩ :: ls, by simp, .call hX⟩
      · obtain ⟨dot, r₂, segments, rfl, hs, rfl⟩ | ⟨other, -⟩ := yields_dotted.mp hd
        · obtain ⟨ls, rfl, hX⟩ := segments_parse.sound hs
          exact ⟨⟨.identifier name, text⟩ :: ⟨.mark .dot, dot⟩ :: ls, by simp, .constant hX⟩
        · exact absurd front other
    · exact absurd h (not_yields_operand (fun w hw => hl ⟨w, hw⟩) fun name hn => hi ⟨name, hn⟩)
termination_by r.size
decreasing_by
  subst_vars
  simp only [size_facing_events]
  omega

theorem Rule.Value.stops {ls rest : List Lexeme} {v : Operand} (h : Rule.Value ls v rest) :
    Stops [.mark .closing] ls := by
  cases h with
  | literal hl => cases hl <;> simp
  | _ => simp

theorem Rule.Chain.stops {ls rest : List Lexeme} {vs : List Operand}
    (h : Rule.Chain (.mark .comma) Rule.Value ls vs rest) : Stops [.mark .closing] ls := by
  cases h with
  | last first => exact first.stops
  | more first _ => exact first.stops

mutual

theorem operand_complete {ls rest : List Lexeme} {v : Operand} (h : Rule.Value ls v rest)
    (stop : Stops [.mark .dot] rest) : (operand (ofLexemes ls)).Yields v (ofLexemes rest) := by
  cases h with
  | literal hl => exact (yields_operand_literal hl).mpr ⟨rfl, by simp⟩
  | @emptyCall name text opening closing =>
    refine yields_operand_identifier.mpr
      ⟨ofLexemes (⟨.mark .opening, opening⟩ :: ⟨.mark .closing, closing⟩ :: rest), by simp, ?_⟩
    exact Or.inl ⟨opening, ofLexemes (⟨.mark .closing, closing⟩ :: rest), [], by simp,
      Or.inl ⟨rfl, closing, by simp⟩, rfl⟩
  | @call name text opening mid args closing _ hargs =>
    have chained := operands_complete hargs (by simp)
    rw [ofLexemes_cons, ← events_ofLexemes] at chained
    refine yields_operand_identifier.mpr
      ⟨ofLexemes (⟨.mark .opening, opening⟩ :: mid), by simp, ?_⟩
    exact Or.inl ⟨opening, ofLexemes mid, args, by simp,
      Or.inr ⟨hargs.stops.token?_ne (by simp), closing, chained⟩, rfl⟩
  | @constant name text dot mid segments _ hs =>
    refine yields_operand_identifier.mpr
      ⟨ofLexemes (⟨.mark .dot, dot⟩ :: mid), by simp, ?_⟩
    exact Or.inr ⟨_, rfl, yields_dotted.mpr
      (Or.inl ⟨dot, ofLexemes mid, segments, by simp, segments_parse.complete hs stop, rfl⟩), rfl⟩

theorem operands_complete {ls rest : List Lexeme} {vs : List Operand}
    (h : Rule.Chain (.mark .comma) Rule.Value ls vs rest)
    (stop : Stops [.mark .comma, .mark .dot] rest) :
    (chain (.mark .comma) operand (ofLexemes ls)).Yields vs (ofLexemes rest) := by
  cases h with
  | last first => exact yields_chain_last (operand_complete first (stop.mono (by simp))) stop
  | more first others =>
    exact yields_chain_more (operand_complete first (by simp)) (operands_complete others stop)

end

theorem operand_parses : Parses (fun r => (operand r).Yields) [.mark .dot] Rule.Value :=
  ⟨operand_sound, operand_complete⟩

theorem operands_parse :
    Parses (fun r => (chain (.mark .comma) operand r).Yields) [.mark .comma, .mark .dot]
      (Rule.Chain (.mark .comma) Rule.Value) :=
  operand_parses.chain (by simp)

end Operand

end QueryTree.Grammar
