import QueryTree.Grammar.Session
import QueryTree.Proofs.Grammar.Yield

/-! # What reading keeps

Reading goes from reader to reader and may end in a fault. A property of readers that passes on from
one reader to the next holds of every reader that is reached, and a fault is met at such a reader.
-/

namespace QueryTree

open Grammar Reader

/-- `R` passes on from a reader to the one after it, and wherever `R` holds, each fault that may be
met there leaves a stand that `F` holds of. -/
structure Passes (R : Reader → Prop) (F : ParseFault → Stand → Prop) : Prop where
  next {l r} : R (facing l r.events) → R r
  lexical {l e rest} : R (facing l (.error e :: rest)) →
    F (.lexical e) (facing l (e.unread rest)) ∧
      F (.lexical e) (facing { l with text := "" } (e.unread rest)) ∧
      F (.lexical e) (.cutOff l.text (e.unread rest))
  unexpected {r e} : R r → F (r.unexpected e) r
  afterName {name text} {r : Reader} : R (facing ⟨.identifier name, text⟩ r.events) →
    F (.unexpected name .operandAfterName) r
  loneCount {r} : R r → F (.unexpected "count(this)" .loneCount) r
  missingEntity {r} : R r → F .missingEntity r

variable {α β : Type} {m n : Nat} {R : Reader → Prop} {F : ParseFault → Stand → Prop}

namespace Reading

/-- `R` holds of the reader that is left, or `F` of the fault and of the stand. -/
def Keeps (R : Reader → Prop) (F : ParseFault → Stand → Prop) : Reading α n → Prop
  | read _ r _ => R r
  | failed f s => F f s

variable {x : Reading α n}

theorem Keeps.stand {W : Stand → Prop} (h : x.Keeps (fun r => W r) fun _ s => W s) :
    W x.result.2 := by
  cases x <;> exact h

theorem Keeps.map (h : x.Keeps R F) (f : α → β) : (x.map f).Keeps R F := by
  cases x <;> exact h

theorem Keeps.relax (h : x.Keeps R F) (le : n ≤ m) : (x.relax le).Keeps R F := by
  cases x <;> exact h

theorem Keeps.loosen (h : x.Keeps R F) : x.loosen.Keeps R F := h.relax _

theorem Keeps.bind {f : α → (r : Reader) → r.size < n → Reading β n} (h : x.Keeps R F)
    (next : ∀ a r (hx : x.Yields a r), R r → (f a r hx.size_lt).Keeps R F) :
    (x.bind f).Keeps R F := by
  cases x with
  | read a r shorter => exact next a r rfl h
  | failed => exact h

theorem Keeps.thenPhrase {f : α → (r : Reader) → r.size < n → Reading β r.size} (h : x.Keeps R F)
    (next : ∀ a r shorter, R r → (f a r shorter).Keeps R F) : (x.thenPhrase f).Keeps R F :=
  h.bind fun a r hx hr => (next a r hx.size_lt hr).relax _

theorem Keeps.andThen {f : α → (r : Reader) → Reading β (r.size + 1)} (h : x.Keeps R F)
    (next : ∀ a r, R r → (f a r).Keeps R F) : (x.andThen f).Keeps R F :=
  h.bind fun a r _ hr => (next a r hr).relax _

end Reading

def Phrase.Keeps (R : Reader → Prop) (F : ParseFault → Stand → Prop) (p : Phrase α) : Prop :=
  ∀ r, R r → (p r).Keeps R F

def Trail.Keeps (R : Reader → Prop) (F : ParseFault → Stand → Prop) (x : Trail α) : Prop :=
  ∀ r, R r → (x r).Keeps R F

namespace Trail

theorem keeps_pure (a : α) : Keeps R F (pure a : Trail α) := fun _ hr => hr

theorem keeps_peek : Keeps R F peek := fun _ hr => hr

theorem Keeps.bind {x : Trail α} {f : α → Trail β} (h : x.Keeps R F)
    (next : ∀ a, (f a).Keeps R F) : (x >>= f).Keeps R F :=
  fun r hr => (h r hr).andThen fun a r₁ hr₁ => next a r₁ hr₁

theorem Keeps.ite {x y : Trail α} (p : Prop) [Decidable p] (h : x.Keeps R F) (h' : y.Keeps R F) :
    (if p then x else y).Keeps R F := by
  split
  · exact h
  · exact h'

theorem keeps_lift {p : Phrase α} (h : p.Keeps R F) : Keeps R F (liftM p : Trail α) :=
  fun r hr => (h r hr).loosen

end Trail

theorem Phrase.Keeps.andThen {p : Phrase α} {f : α → Trail β} (h : p.Keeps R F)
    (next : ∀ a, (f a).Keeps R F) : (p.andThen f).Keeps R F :=
  fun r hr => (h r hr).andThen fun a r₁ hr₁ => next a r₁ hr₁

variable (passes : Passes R F)
include passes

section Lexemes

variable {r : Reader} {l : Lexeme} {ahead : List Event}

theorem keeps_step {kept : List Event → Stand} (hr : R (facing l ahead))
    (hk : ∀ e rest, ahead = .error e :: rest → F (.lexical e) (kept (e.unread rest))) :
    (step kept ahead).Keeps R F := by
  match ahead with
  | [] => exact passes.next (r := finished) hr
  | .lexeme l' :: rest => exact passes.next (r := facing l' rest) hr
  | .error e :: rest => exact hk e rest rfl

theorem keeps_takeWord (hr : R (facing l ahead)) : (takeWord l ahead).Keeps R F := by
  apply Reading.Keeps.map
  apply keeps_step passes hr
  rintro e rest rfl
  exact (passes.lexical hr).2.1

theorem keeps_step_cutOff (hr : R (facing l ahead)) :
    (step (.cutOff l.text) ahead).Keeps R F := by
  apply keeps_step passes hr
  rintro e rest rfl
  exact (passes.lexical hr).2.2

theorem keeps_of_acceptAs? {f : Token → Option α} {x : Reading α r.size}
    (h : r.acceptAs? f = some x) (hr : R r) : x.Keeps R F := by
  cases r with
  | finished => cases h
  | facing l ahead =>
    obtain ⟨a, -, rfl⟩ := Option.map_eq_some_iff.mp h
    apply Reading.Keeps.map
    apply keeps_step passes hr
    rintro e rest rfl
    exact (passes.lexical hr).1

theorem keeps_tokenAs (f : Token → Option α) (e : Expectation) :
    (Phrase.tokenAs f e).Keeps R F := by
  intro r hr
  unfold Phrase.tokenAs
  cases h : r.acceptAs? f with
  | none => exact passes.unexpected hr
  | some x => exact keeps_of_acceptAs? passes h hr

theorem keeps_expect (t : Token) : (Phrase.expect t).Keeps R F := by
  rw [Phrase.expect_eq_tokenAs]
  exact keeps_tokenAs passes _ _

theorem keeps_word (p : Token → Bool) (e : Expectation) : (Phrase.word p e).Keeps R F := by
  intro r hr
  cases r with
  | finished => exact passes.unexpected hr
  | facing l ahead =>
    by_cases taken : p l.token
    · simp only [Phrase.word, taken]
      exact keeps_takeWord passes hr
    · simp only [Phrase.word, taken]
      exact passes.unexpected hr

theorem keeps_unexpected (e : Expectation) : (Trail.unexpected e : Trail α).Keeps R F :=
  fun _ hr => passes.unexpected hr

theorem keeps_acceptAs (f : Token → Option α) : (Trail.acceptAs f).Keeps R F := by
  intro r hr
  unfold Trail.acceptAs
  split
  · exact hr
  · next x h => exact ((keeps_of_acceptAs? passes h hr).map some).loosen

theorem keeps_accept (t : Token) : (Trail.accept t).Keeps R F := by
  intro r hr
  rw [Trail.accept_eq_map]
  exact (keeps_acceptAs passes _ r hr).map _

theorem keeps_chainWithin {separator : Token}
    {item : (r : Reader) → r.size ≤ n → Reading α r.size}
    (each : ∀ r h, R r → (item r h).Keeps R F) (r : Reader) (h : r.size ≤ n) (hr : R r) :
    (Phrase.chainWithin separator n item r h).Keeps R F := by
  rw [Phrase.chainWithin]
  apply (each r h hr).bind
  intro a r₁ h₁ hr₁
  split
  · exact hr₁
  · next taken ht =>
    apply ((keeps_of_acceptAs? passes ht hr₁).relax _).thenPhrase
    intro _ r₂ h₂ hr₂
    exact (keeps_chainWithin each r₂ (size_le_of_lt h₂ h) hr₂).map _
termination_by r.size

theorem keeps_chain {separator : Token} {p : Phrase α} (h : p.Keeps R F) :
    (Phrase.chain separator p).Keeps R F :=
  fun r hr => keeps_chainWithin passes (fun r₁ _ hr₁ => h r₁ hr₁) r _ hr

end Lexemes

section Operands

theorem keeps_identifier : identifier.Keeps R F := keeps_word passes _ _

theorem keeps_segment : segment.Keeps R F := keeps_word passes _ _

theorem keeps_dotted (first : String) : (dotted first).Keeps R F := by
  apply (keeps_accept passes _).bind
  intro taken
  apply Trail.Keeps.ite
  · apply (Trail.keeps_lift (keeps_chain passes (keeps_segment passes))).bind
    intro rest
    exact Trail.keeps_pure _
  · exact Trail.keeps_pure _

theorem keeps_path : path.Keeps R F := (keeps_identifier passes).andThen (keeps_dotted passes)

variable {inner : (r : Reader) → r.size < n → Reading Operand r.size}

theorem keeps_argumentsWith (each : ∀ r h, R r → (inner r h).Keeps R F) (r : Reader)
    (h : r.size < n) (hr : R r) : (argumentsWith n inner r h).Keeps R F := by
  unfold argumentsWith
  apply Reading.Keeps.thenPhrase
  · split
    · exact hr
    · apply Reading.Keeps.loosen
      exact keeps_chainWithin passes (fun r₁ _ hr₁ => each r₁ _ hr₁) r _ hr
  · intro items r₁ _ hr₁
    exact (keeps_expect passes _ r₁ hr₁).map _

theorem keeps_afterNameWith (each : ∀ r h, R r → (inner r h).Keeps R F) {name text : String}
    (r : Reader) (h : r.size < n) (before : R (facing ⟨.identifier name, text⟩ r.events)) :
    (afterNameWith n inner name r h).Keeps R F := by
  have hr : R r := passes.next before
  unfold afterNameWith
  split
  · next taken ht =>
    apply Reading.Keeps.loosen
    apply (keeps_of_acceptAs? passes ht hr).bind
    intro _ r₁ h₁ hr₁
    exact ((keeps_argumentsWith passes each r₁ _ hr₁).map _).relax _
  · split
    · exact (keeps_dotted passes name r hr).map _
    · exact passes.afterName before

theorem keeps_operandWith (each : ∀ r h, R r → (inner r h).Keeps R F) (r : Reader)
    (h : r.size ≤ n) (hr : R r) : (operandWith n inner r h).Keeps R F := by
  cases r with
  | finished => exact passes.unexpected hr
  | facing l ahead =>
    obtain ⟨t, text⟩ := l
    cases t with
    | identifier name =>
      apply (keeps_step_cutOff passes hr).bind
      intro _ r₁ h₁ _
      obtain rfl := yields_step.mp h₁
      exact (keeps_afterNameWith passes each r₁ _ hr).relax _
    | keyword k => exact passes.unexpected hr
    | mark m => exact passes.unexpected hr
    | _ => exact (keeps_step_cutOff passes hr).map _

theorem keeps_operand : operand.Keeps R F := by
  intro r hr
  rw [operand]
  apply keeps_operandWith passes _ r _ hr
  intro r₁ h hr₁
  exact keeps_operand r₁ hr₁
termination_by r => r.size

end Operands

section Conditions

theorem keeps_wordComparison (field : String) (e : Expectation) :
    (wordComparison field e).Keeps R F := by
  have value : Trail.Keeps R F (liftM operand) := Trail.keeps_lift (keeps_operand passes)
  apply (keeps_accept passes _).bind
  intro like
  apply Trail.Keeps.ite
  · exact value.bind fun v => Trail.keeps_pure _
  apply (keeps_accept passes _).bind
  intro within
  apply Trail.Keeps.ite
  · apply (Trail.keeps_lift (keeps_expect passes _)).bind
    intro _
    apply (Trail.keeps_lift (keeps_chain passes (keeps_operand passes))).bind
    intro items
    apply (Trail.keeps_lift (keeps_expect passes _)).bind
    intro _
    exact Trail.keeps_pure _
  apply (keeps_accept passes _).bind
  intro between
  apply Trail.Keeps.ite
  · apply value.bind
    intro low
    apply (Trail.keeps_lift (keeps_expect passes _)).bind
    intro _
    exact value.bind fun high => Trail.keeps_pure _
  · exact keeps_unexpected passes e

theorem keeps_comparisonOf (field : String) : (comparisonOf field).Keeps R F := by
  apply (keeps_acceptAs passes _).bind
  intro marked
  cases marked with
  | some op =>
    apply (Trail.keeps_lift (keeps_operand passes)).bind
    intro v
    exact Trail.keeps_pure _
  | none =>
    apply (keeps_accept passes _).bind
    intro is
    apply Trail.Keeps.ite
    · apply (keeps_accept passes _).bind
      intro negated
      apply (Trail.keeps_lift (keeps_expect passes _)).bind
      intro _
      exact Trail.keeps_pure _
    apply (keeps_accept passes _).bind
    intro negated
    apply Trail.Keeps.ite
    · exact (keeps_wordComparison passes _ _).bind fun c => Trail.keeps_pure _
    · exact keeps_wordComparison passes _ _

theorem keeps_comparison : comparison.Keeps R F :=
  (keeps_path passes).andThen (keeps_comparisonOf passes)

variable {inner : (r : Reader) → r.size < n → Reading (Condition Operand) r.size}

theorem keeps_primaryWith (each : ∀ r h, R r → (inner r h).Keeps R F) (r : Reader)
    (h : r.size ≤ n) (hr : R r) : (primaryWith n inner r h).Keeps R F := by
  unfold primaryWith
  split
  · exact keeps_comparison passes r hr
  · next taken ht =>
    apply (keeps_of_acceptAs? passes ht hr).thenPhrase
    intro _ r₁ h₁ hr₁
    apply (each r₁ _ hr₁).thenPhrase
    intro c r₂ _ hr₂
    exact (keeps_expect passes _ r₂ hr₂).map _

theorem keeps_negationWith (each : ∀ r h, R r → (inner r h).Keeps R F) (r : Reader)
    (h : r.size ≤ n) (hr : R r) : (negationWith n inner r h).Keeps R F := by
  unfold negationWith
  split
  · exact keeps_primaryWith passes each r h hr
  · next taken ht =>
    apply (keeps_of_acceptAs? passes ht hr).thenPhrase
    intro _ r₁ h₁ hr₁
    exact (keeps_primaryWith passes each r₁ _ hr₁).map _

theorem keeps_disjunctionWith (each : ∀ r h, R r → (inner r h).Keeps R F) (r : Reader)
    (h : r.size ≤ n) (hr : R r) : (disjunctionWith n inner r h).Keeps R F := by
  have conjunction (r : Reader) (h : r.size ≤ n) (hr : R r) :
      (conjunctionWith n inner r h).Keeps R F :=
    (keeps_chainWithin passes (keeps_negationWith passes each) r h hr).map _
  exact (keeps_chainWithin passes conjunction r h hr).map _

theorem keeps_condition : condition.Keeps R F := by
  intro r hr
  rw [condition]
  apply keeps_disjunctionWith passes _ r _ hr
  intro r₁ h hr₁
  exact keeps_condition r₁ hr₁
termination_by r => r.size

theorem keeps_whereClause : whereClause.Keeps R F := by
  apply (keeps_accept passes _).bind
  intro given
  apply Trail.Keeps.ite
  · apply (Trail.keeps_lift (keeps_condition passes)).bind
    intro c
    exact Trail.keeps_pure _
  · exact Trail.keeps_pure _

end Conditions

section Statements

variable {fallback : Option String}

theorem keeps_refuseCount : (refuseCount : Trail α).Keeps R F := fun _ hr => passes.loneCount hr

theorem keeps_selected : selected.Keeps R F := by
  apply (keeps_path passes).andThen
  intro field
  apply Trail.Keeps.ite
  · apply (keeps_accept passes _).bind
    intro opening
    apply Trail.Keeps.ite
    · apply (Trail.keeps_lift (keeps_tokenAs passes _ _)).bind
      intro _
      apply (Trail.keeps_lift (keeps_expect passes _)).bind
      intro _
      exact Trail.keeps_pure _
    · exact Trail.keeps_pure _
  · exact Trail.keeps_pure _

theorem keeps_furtherField : furtherField.Keeps R F := by
  apply (keeps_selected passes).andThen
  intro field
  cases field with
  | some field => exact Trail.keeps_pure _
  | none => exact keeps_refuseCount passes

theorem keeps_selection : selection.Keeps R F := by
  apply Trail.keeps_peek.bind
  intro front
  apply Trail.Keeps.ite
  · exact Trail.keeps_pure _
  apply (keeps_accept passes _).bind
  intro star
  apply Trail.Keeps.ite
  · exact Trail.keeps_pure _
  apply (Trail.keeps_lift (keeps_selected passes)).bind
  intro field
  cases field with
  | none =>
    apply Trail.keeps_peek.bind
    intro front
    apply Trail.Keeps.ite
    · exact keeps_refuseCount passes
    · exact Trail.keeps_pure _
  | some field =>
    apply (keeps_accept passes _).bind
    intro comma
    apply Trail.Keeps.ite
    · apply (Trail.keeps_lift (keeps_chain passes (keeps_furtherField passes))).bind
      intro fields
      exact Trail.keeps_pure _
    · exact Trail.keeps_pure _

theorem keeps_givenEntity : (givenEntity fallback).Keeps R F := by
  cases fallback with
  | some name => exact Trail.keeps_pure name
  | none => exact fun _ hr => passes.missingEntity hr

theorem keeps_entity : (entity fallback).Keeps R F := by
  intro r hr
  have given : (givenEntity fallback).Keeps R F := keeps_givenEntity passes
  cases r with
  | finished => exact given _ hr
  | facing l ahead =>
    have word : (takeWord l ahead).loosen.Keeps R F := (keeps_takeWord passes hr).loosen
    obtain ⟨t, text⟩ := l
    cases t with
    | identifier name => exact word
    | keyword k =>
      cases fallback with
      | none =>
        cases k with
        | where_ => exact given _ hr
        | _ => exact word
      | some name => cases k <;> exact given _ hr
    | _ => exact passes.unexpected hr

theorem keeps_sortClause : sortClause.Keeps R F := by
  have key : sortKey.Keeps R F := by
    apply (keeps_path passes).andThen
    intro property
    apply (keeps_accept passes _).bind
    intro ascending
    apply Trail.Keeps.ite
    · exact Trail.keeps_pure _
    apply (keeps_accept passes _).bind
    intro descending
    apply Trail.Keeps.ite
    · exact Trail.keeps_pure _
    · exact Trail.keeps_pure _
  apply (keeps_accept passes _).bind
  intro given
  apply Trail.Keeps.ite
  · apply (Trail.keeps_lift (keeps_expect passes _)).bind
    intro _
    exact Trail.keeps_lift (keeps_chain passes key)
  · exact Trail.keeps_pure _

theorem keeps_rowClause (k : Keyword) : (rowClause k).Keeps R F := by
  apply (keeps_accept passes _).bind
  intro given
  apply Trail.Keeps.ite
  · exact Trail.keeps_lift (keeps_tokenAs passes _ _)
  · exact Trail.keeps_pure _

theorem keeps_selectFrom (fields : List String) (count : Bool) :
    (selectFrom fallback fields count).Keeps R F := by
  apply (keeps_accept passes _).bind
  intro _
  apply (keeps_entity passes).bind
  intro entity
  apply (keeps_whereClause passes).bind
  intro condition
  apply (keeps_sortClause passes).bind
  intro sorts
  apply (keeps_rowClause passes _).bind
  intro skip
  apply (keeps_rowClause passes _).bind
  intro limit
  exact Trail.keeps_pure _

theorem keeps_selectStatement : (selectStatement fallback).Keeps R F := by
  apply (keeps_accept passes _).bind
  intro taken
  apply Trail.Keeps.ite
  · apply (keeps_selection passes).bind
    intro head
    exact keeps_selectFrom passes _ _
  · exact keeps_selectFrom passes _ _

theorem keeps_deleteStatement : (deleteStatement fallback).Keeps R F := by
  have fields : deletedFields.Keeps R F := by
    apply Trail.keeps_peek.bind
    intro front
    apply Trail.Keeps.ite
    · exact Trail.keeps_pure _
    · exact Trail.keeps_lift (keeps_chain passes (keeps_path passes))
  apply (Trail.keeps_lift (keeps_expect passes _)).bind
  intro _
  apply fields.bind
  intro fields
  apply (Trail.keeps_lift (keeps_expect passes _)).bind
  intro _
  apply (keeps_entity passes).bind
  intro entity
  apply (keeps_whereClause passes).bind
  intro condition
  exact Trail.keeps_pure _

theorem keeps_updateStatement : (updateStatement fallback).Keeps R F := by
  have item : assignment.Keeps R F := by
    apply (keeps_path passes).andThen
    intro field
    apply (Trail.keeps_lift (keeps_expect passes _)).bind
    intro _
    apply (Trail.keeps_lift (keeps_operand passes)).bind
    intro v
    exact Trail.keeps_pure _
  apply (Trail.keeps_lift (keeps_expect passes _)).bind
  intro _
  apply (keeps_entity passes).bind
  intro entity
  apply (Trail.keeps_lift (keeps_expect passes _)).bind
  intro _
  apply (Trail.keeps_lift (keeps_chain passes item)).bind
  intro items
  apply (keeps_whereClause passes).bind
  intro condition
  exact Trail.keeps_pure _

theorem keeps_announced (goal : Goal) : (announced goal fallback).Keeps R F := by
  apply Trail.keeps_peek.bind
  intro front
  cases front.bind kindOf? with
  | none => exact keeps_unexpected passes _
  | some kind =>
    apply Trail.Keeps.ite
    · cases kind with
      | select => exact keeps_selectStatement passes
      | delete => exact keeps_deleteStatement passes
      | update => exact keeps_updateStatement passes
    · exact keeps_unexpected passes _

theorem keeps_query (goal : Goal) : (query goal fallback).Keeps R F := by
  apply (keeps_announced passes goal).bind
  intro statement
  apply Trail.Keeps.bind
  · apply Trail.keeps_peek.bind
    intro front
    apply Trail.Keeps.ite
    · exact keeps_unexpected passes _
    · exact Trail.keeps_pure _
  · intro _
    exact Trail.keeps_pure _

end Statements

end QueryTree
