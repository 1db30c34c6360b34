import QueryTree.Proofs.Grammar.Entity
import QueryTree.Proofs.Token.Spacing

/-! # The default entity

A query that can be read without a default is read in the same way with one, unless a reserved word
names its entity: then it cannot be read. Two defaults make a difference to the entity only.
-/

namespace QueryTree

def Statement.withEntity (s : Statement) (entity : String) : Statement :=
  match s with
  | .select q => .select { q with entity }
  | .delete q => .delete { q with entity }
  | .update q => .update { q with entity }

section Alike

variable {α β γ δ : Type} {m n : Nat} {R : α → β → Prop} {S : γ → δ → Prop}

/-- Two readings with the same fault, or with related values before the same lexemes. -/
inductive Reading.Alike (R : α → β → Prop) : Reading α n → Reading β n → Prop where
  | read {a b r h} : R a b → Alike R (.read a r h) (.read b r h)
  | failed {f stand} : Alike R (.failed f stand) (.failed f stand)

theorem Reading.alike_refl {R : α → α → Prop} (related : ∀ a, R a a) (x : Reading α n) :
    x.Alike R x := by
  cases x with
  | read a => exact .read (related a)
  | failed => exact .failed

theorem Reading.Alike.relax {x : Reading α m} {y : Reading β m} (h : x.Alike R y) (le : m ≤ n) :
    (x.relax le).Alike R (y.relax le) := by
  cases h with
  | read related => exact .read related
  | failed => exact .failed

theorem Reading.Alike.andThen {x : Reading α n} {y : Reading β n}
    {f : α → (r : Reader) → Reading γ (r.size + 1)} {g : β → (r : Reader) → Reading δ (r.size + 1)}
    (h : x.Alike R y) (next : ∀ a b r, R a b → (f a r).Alike S (g b r)) :
    (x.andThen f).Alike S (y.andThen g) := by
  cases h with
  | @read a b r shorter related => exact (next a b r related).relax shorter
  | failed => exact .failed

namespace Trail

def Alike (R : α → β → Prop) (x : Trail α) (y : Trail β) : Prop := ∀ r, (x r).Alike R (y r)

theorem alike_pure {a : α} {b : β} (h : R a b) : Alike R (pure a) (pure b) := fun _ => .read h

theorem alike_unexpected {e : Expectation} : Alike R (unexpected e) (unexpected e) :=
  fun _ => .failed

theorem Alike.bind {x : Trail α} {y : Trail β} {f : α → Trail γ} {g : β → Trail δ}
    (h : x.Alike R y) (next : ∀ a b, R a b → (f a).Alike S (g b)) :
    (x >>= f).Alike S (y >>= g) :=
  fun r => (h r).andThen fun a b r₁ related => next a b related r₁

theorem alike_bind (x : Trail α) {f : α → Trail γ} {g : α → Trail δ}
    (next : ∀ a, (f a).Alike S (g a)) : (x >>= f).Alike S (x >>= g) := by
  have same : x.Alike Eq x := fun r => Reading.alike_refl (fun _ => rfl) (x r)
  apply same.bind
  rintro a _ rfl
  exact next a

end Trail

end Alike

namespace Grammar

open Trail Phrase

variable {d₁ d₂ : String}

/-- The same entity, or the defaults. -/
def Placed (d₁ d₂ entity₁ entity₂ : String) : Prop :=
  entity₁ = entity₂ ∨ entity₁ = d₁ ∧ entity₂ = d₂

/-- Statements that differ in the entity only, and in the entity only by the defaults. -/
def PlacedAlike (d₁ d₂ : String) (s₁ s₂ : Statement) : Prop :=
  s₂ = s₁.withEntity s₂.entity ∧ Placed d₁ d₂ s₁.entity s₂.entity

theorem alike_entity : (entity (some d₁)).Alike (Placed d₁ d₂) (entity (some d₂)) := by
  have given : (givenEntity (some d₁)).Alike (Placed d₁ d₂) (givenEntity (some d₂)) :=
    alike_pure (.inr ⟨rfl, rfl⟩)
  intro r
  cases r with
  | finished => exact given _
  | facing l ahead =>
    obtain ⟨t, text⟩ := l
    cases t with
    | identifier name => exact Reading.alike_refl (fun _ => .inl rfl) _
    | keyword k => cases k <;> exact given _
    | _ => exact .failed

theorem alike_selectFrom (fields : List String) (count : Bool) :
    (selectFrom (some d₁) fields count).Alike (PlacedAlike d₁ d₂)
      (selectFrom (some d₂) fields count) := by
  apply alike_bind
  intro _
  apply alike_entity.bind
  intro entity₁ entity₂ placed
  apply alike_bind
  intro condition
  apply alike_bind
  intro sorts
  apply alike_bind
  intro skip
  apply alike_bind
  intro limit
  exact alike_pure ⟨rfl, placed⟩

theorem alike_statementOf (kind : StatementKind) :
    (statementOf (some d₁) kind).Alike (PlacedAlike d₁ d₂) (statementOf (some d₂) kind) := by
  cases kind with
  | select =>
    apply alike_bind
    intro taken
    cases taken with
    | true =>
      apply alike_bind
      intro head
      exact alike_selectFrom head.1 head.2
    | false => exact alike_selectFrom [] false
  | delete =>
    apply alike_bind
    intro _
    apply alike_bind
    intro fields
    apply alike_bind
    intro _
    apply alike_entity.bind
    intro entity₁ entity₂ placed
    apply alike_bind
    intro condition
    exact alike_pure ⟨rfl, placed⟩
  | update =>
    apply alike_bind
    intro _
    apply alike_entity.bind
    intro entity₁ entity₂ placed
    apply alike_bind
    intro _
    apply alike_bind
    intro items
    apply alike_bind
    intro condition
    exact alike_pure ⟨rfl, placed⟩

theorem alike_query (goal : Goal) :
    (query goal (some d₁)).Alike (PlacedAlike d₁ d₂) (query goal (some d₂)) := by
  have announced : (announced goal (some d₁)).Alike (PlacedAlike d₁ d₂)
      (announced goal (some d₂)) := by
    apply alike_bind
    intro front
    cases front.bind kindOf? with
    | none => exact alike_unexpected
    | some kind =>
      dsimp only
      split_ifs
      · exact alike_statementOf kind
      · exact alike_unexpected
  apply announced.bind
  intro s₁ s₂ placed
  apply alike_bind
  intro _
  exact alike_pure placed

end Grammar

section Texts

open Grammar

variable {text word name : String} {s : Statement}

theorem parse_alike (text d₁ d₂ : String) :
    (∃ e, parse text (some d₁) = .error e ∧ parse text (some d₂) = .error e) ∨
      ∃ s₁ s₂, parse text (some d₁) = .ok s₁ ∧ parse text (some d₂) = .ok s₂ ∧
        PlacedAlike d₁ d₂ s₁ s₂ := by
  unfold parse
  cases Session.start text with
  | error e => exact .inl ⟨e, rfl, rfl⟩
  | ok session =>
    obtain ⟨query, fallback, stand⟩ := session
    cases stand with
    | cutOff => exact .inl ⟨_, rfl, rfl⟩
    | reader r =>
      have alike : (Grammar.query none (some d₁) r).Alike (PlacedAlike d₁ d₂)
          (Grammar.query none (some d₂) r) := alike_query none r
      simp only [Session.parse]
      revert alike
      generalize Grammar.query none (some d₁) r = x
      generalize Grammar.query none (some d₂) r = y
      intro alike
      cases alike with
      | read placed => exact .inr ⟨_, _, rfl, rfl, placed⟩
      | failed => exact .inl ⟨_, rfl, rfl⟩

theorem isReserved_of_keyword {k : Keyword} (h : Token.ofWord word = .keyword k) :
    Token.ofReserved? word ≠ none := by
  intro plain
  rw [Token.ofWord, plain] at h
  cases h

/-- What the lexer takes for an identifier or a reserved word is spelled like one. -/
theorem word_of_mem_lexemes {ls : List Lexeme} (read : lexemes text = .ok ls) (word : String) :
    (∀ name, ⟨.identifier name, word⟩ ∈ ls → Token.ofReserved? word = none ∧ name = word) ∧
      ∀ k, ⟨.keyword k, word⟩ ∈ ls → Token.ofReserved? word ≠ none := by
  have lexed : Lexes text.toList ls := lexemes_eq_ok_iff_lexes.mp read
  constructor
  · intro name mem
    exact ofWord_eq_identifier (lexed.eq_ofWord mem rfl).symm
  · intro k mem
    exact isReserved_of_keyword (lexed.eq_ofWord mem rfl).symm

theorem parse_default_of_parse (parsed : parse text none = .ok s) (d : String) :
    (Token.ofReserved? s.entity = none → parse text (some d) = .ok s) ∧
      (Token.ofReserved? s.entity ≠ none → ∃ e, parse text (some d) = .error e) := by
  obtain ⟨ls, read, sentence⟩ := parse_eq_ok_iff.mp parsed
  obtain ⟨identifiers, keywords⟩ := word_of_mem_lexemes read s.entity
  rcases sentence.settled with ⟨name, mem, placed⟩ | ⟨k, mem, none⟩
  · constructor
    · intro _
      exact parse_eq_ok_iff.mpr ⟨ls, read, placed d⟩
    · intro reserved
      exact absurd (identifiers name mem).1 reserved
  · constructor
    · intro plain
      exact absurd plain (keywords k mem)
    · intro _
      cases outcome : parse text (some d) with
      | error e => exact ⟨e, rfl⟩
      | ok s' =>
        obtain ⟨ls', read', sentence'⟩ := parse_eq_ok_iff.mp outcome
        obtain rfl := Except.ok.inj (read.symm.trans read')
        exact absurd sentence' (none d s')

/-- The entity is an identifier of the text or the default. -/
theorem entity_of_parse_default {d : String} (parsed : parse text (some d) = .ok s) :
    (∃ ts, tokenize text = .ok ts ∧ .identifier s.entity ∈ ts) ∨ s.entity = d := by
  obtain ⟨ls, read, sentence⟩ := parse_eq_ok_iff.mp parsed
  rcases sentence.entity_cases with ⟨name, mem⟩ | same
  · obtain ⟨-, rfl⟩ := (word_of_mem_lexemes read _).1 name mem
    refine .inl ⟨ls.map Lexeme.token, ?_, List.mem_map.mpr ⟨_, mem, rfl⟩⟩
    rw [tokenize, read]
    rfl
  · exact .inr same

/-- A default entity is a fallback. What a text means without one it means with one, unless it names
its entity by a reserved word; then it means nothing with one. Two defaults lead to the same error
or to statements that differ by the defaults only. -/
theorem default_entity_conservative (text : String) :
    (∀ d s, parse text none = .ok s →
      (Token.ofReserved? s.entity = none → parse text (some d) = .ok s) ∧
      (Token.ofReserved? s.entity ≠ none → ∃ e, parse text (some d) = .error e)) ∧
    (∀ d s s', parse text none = .ok s → parse text (some d) = .ok s' → s' = s) ∧
    ∀ d₁ d₂,
      (∃ e, parse text (some d₁) = .error e ∧ parse text (some d₂) = .error e) ∨
      ∃ s₁ s₂, parse text (some d₁) = .ok s₁ ∧ parse text (some d₂) = .ok s₂ ∧
        s₂ = s₁.withEntity s₂.entity ∧
        ((s₁.entity = s₂.entity ∧ ∃ ts, tokenize text = .ok ts ∧ .identifier s₁.entity ∈ ts) ∨
          (s₁.entity = d₁ ∧ s₂.entity = d₂)) := by
  refine ⟨fun d s parsed => parse_default_of_parse parsed d, ?_, ?_⟩
  · intro d s s' parsed parsed'
    obtain ⟨kept, refused⟩ := parse_default_of_parse parsed d
    by_cases plain : Token.ofReserved? s.entity = none
    · exact Except.ok.inj (parsed'.symm.trans (kept plain))
    · obtain ⟨e, error⟩ := refused plain
      cases parsed'.symm.trans error
  · intro d₁ d₂
    rcases parse_alike text d₁ d₂ with same | ⟨s₁, s₂, parsed₁, parsed₂, alike, placed⟩
    · exact .inl same
    · refine .inr ⟨s₁, s₂, parsed₁, parsed₂, alike, ?_⟩
      rcases placed with same | defaults
      · rcases entity_of_parse_default parsed₁ with named | default₁
        · exact .inl ⟨same, named⟩
        · rcases entity_of_parse_default parsed₂ with named | default₂
          · exact .inl ⟨same, same ▸ named⟩
          · exact .inr ⟨default₁, default₂⟩
      · exact .inr defaults

theorem default_entity_conservative_order :
    (∃ s, parse "UPDATE Person SET a = 1" none = .ok s ∧
      parse "UPDATE Person SET a = 1" (some "Cat") = .ok s ∧
      ∀ s', parse "UPDATE Person SET a = 1" (some "Cat") = .ok s' → s' = s) ∧
    ∃ s e, parse "FROM Order ORDER BY a" none = .ok s ∧ s.entity = "Order" ∧
      parse "FROM Order ORDER BY a" (some "Cat") = .error e := by
  have named : (parse "UPDATE Person SET a = 1" none).map Statement.entity = .ok "Person" := by
    decide +kernel
  have reserved : (parse "FROM Order ORDER BY a" none).map Statement.entity = .ok "Order" := by
    decide +kernel
  constructor
  · obtain ⟨s, parsed, entity⟩ := Except.map_eq_ok_iff.mp named
    have plain : Token.ofReserved? s.entity = none := entity ▸ by decide
    obtain ⟨settled, unique, -⟩ := default_entity_conservative "UPDATE Person SET a = 1"
    exact ⟨s, parsed, (settled "Cat" s parsed).1 plain, fun s' => unique "Cat" s s' parsed⟩
  · obtain ⟨s, parsed, entity⟩ := Except.map_eq_ok_iff.mp reserved
    have word : Token.ofReserved? s.entity ≠ none := entity ▸ by decide
    obtain ⟨settled, -⟩ := default_entity_conservative "FROM Order ORDER BY a"
    obtain ⟨e, refused⟩ := (settled "Cat" s parsed).2 word
    exact ⟨s, e, parsed, entity, refused⟩

end Texts

end QueryTree
