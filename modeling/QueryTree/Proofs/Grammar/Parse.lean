import Mathlib.Data.List.TakeWhile
import QueryTree.Grammar.Session
import QueryTree.Proofs.Fallible
import QueryTree.Proofs.Grammar.Statement

/-! # Texts and their sentences

A text is parsed exactly if it is free of errors and its lexemes are a sentence of the grammar.
-/

namespace QueryTree

open Grammar

theorem lexemes_eq_ok_iff {text : String} {ls : List Lexeme} :
    lexemes text = .ok ls ↔ events text = ls.map .lexeme := by
  refine (mapM_eq_ok_iff Event.lexeme id ?_).trans (by simp)
  intro e l
  cases e <;> simp [eq_comm]

theorem lexemes_of_error {text : String} {ls : List Lexeme} {e : LexError} {rest : List Event}
    (h : events text = ls.map .lexeme ++ .error e :: rest) : lexemes text = .error e := by
  rw [lexemes, h]
  clear h
  induction ls with
  | nil => rfl
  | cons l ls ih =>
    rw [List.map_cons, List.cons_append, List.mapM_cons, ih]
    rfl

theorem events_of_allBlank {text : String} (h : Text.allBlank text) : events text = [] := by
  have blank : (Cursor.ofText text).rest.dropWhile Text.isBlank = [] :=
    List.dropWhile_eq_nil_iff.mpr (List.all_eq_true.mp h)
  have finished : (Cursor.ofText text).scan.outcome = .finished := by
    unfold Cursor.scan
    rw [blank]
    rfl
  unfold events
  rw [Cursor.events]
  split <;> simp_all

namespace Session

variable {session : Session}

theorem start_eq_ok_iff {text : String} :
    start text = .ok session ↔
      ¬ Text.allBlank text ∧ session.query = text ∧ session.fallback = none ∧
        ∃ r, session.stand = .reader r ∧ r.events = events text := by
  obtain ⟨query, fallback, stand⟩ := session
  unfold start
  by_cases blank : Text.allBlank text
  · simp [blank]
  · cases events text with
    | nil =>
      simp [blank, Reader.events_eq_nil_iff]
      grind
    | cons e ahead =>
      cases e <;> simp [blank, Reader.events_eq_cons_iff]
      grind

theorem start_of_lexemes {text : String} {l : Lexeme} {ls : List Lexeme}
    (h : events text = (l :: ls).map .lexeme) : ∃ session, start text = .ok session := by
  have visible : ¬ Text.allBlank text := by
    intro blank
    rw [events_of_allBlank blank] at h
    cases h
  refine ⟨⟨text, none, Reader.ofLexemes (l :: ls)⟩,
    start_eq_ok_iff.mpr ⟨visible, rfl, rfl, .ofLexemes (l :: ls), rfl, ?_⟩⟩
  rw [h, Reader.events_ofLexemes]

theorem parse_reader (query : String) (fallback : Option String) (r : Reader) (goal : Goal) :
    (Session.mk query fallback (.reader r)).parse goal =
      ((Grammar.query goal fallback r).result.1.mapError (ParseError.inQuery · query),
        ⟨query, fallback, (Grammar.query goal fallback r).result.2⟩) := by
  simp only [parse]
  cases Grammar.query goal fallback r <;> rfl

theorem parse_fst_eq_ok_iff {goal : Goal} {s : Statement} :
    (session.parse goal).1 = .ok s ↔
      goal.all (· = s.kind) ∧
        ∃ ls, session.stand = .reader (.ofLexemes ls) ∧ Rule.Sentence session.fallback ls s := by
  unfold parse
  cases session.stand with
  | cutOff => simp
  | reader r =>
    have read : (∃ r', (Grammar.query goal session.fallback r).Yields s r') ↔
        goal.all (· = s.kind) ∧
          ∃ ls, r = .ofLexemes ls ∧ Rule.Sentence session.fallback ls s := by
      simp only [yields_query, exists_eq_left]
    simp only [Stand.reader.injEq, ← read]
    cases Grammar.query goal session.fallback r <;> simp

end Session

theorem Reader.events_eq_map_lexeme_iff {r : Reader} {ls : List Lexeme} :
    r.events = ls.map .lexeme ↔ r = .ofLexemes ls := by
  cases r <;> cases ls <;> simp [events]

theorem parse_eq_ok_iff {text : String} {fallback : Option String} {s : Statement} :
    parse text fallback = .ok s ↔
      ∃ ls, lexemes text = .ok ls ∧ Rule.Sentence fallback ls s := by
  simp only [lexemes_eq_ok_iff]
  cases started : Session.start text with
  | ok session =>
    obtain ⟨-, -, -, r, stand, same⟩ := Session.start_eq_ok_iff.mp started
    simp only [parse, started, Session.parse_fst_eq_ok_iff, Option.all_none, true_and, ← same,
      Reader.events_eq_map_lexeme_iff, stand, Stand.reader.injEq]
  | error e =>
    simp only [parse, started, reduceCtorEq, false_iff]
    rintro ⟨ls, he, sentence⟩
    cases ls with
    | nil => exact not_sentence_nil sentence
    | cons l ls =>
      obtain ⟨session, ok⟩ := Session.start_of_lexemes he
      cases started.symm.trans ok

/-- Parsing decides the grammar: a text has a statement exactly if its lexemes are a sentence for
the statement, and they are a sentence for no other. -/
theorem parse_eq_ok_iff_only_sentence (text : String) (fallback : Option String) :
    (∀ s, parse text fallback = .ok s ↔
      ∃ ls, lexemes text = .ok ls ∧ Rule.Sentence fallback ls s) ∧
    ∀ ls s s', Rule.Sentence fallback ls s → Rule.Sentence fallback ls s' → s' = s := by
  constructor
  · intro s
    exact parse_eq_ok_iff
  · intro ls s s' sentence sentence'
    exact sentence'.unique sentence

/-- The rules take the negation and `<>` together, and so does parsing. -/
theorem parse_eq_ok_iff_only_sentence_negated :
    ∃ ls, lexemes "FROM Person WHERE NOT age <> 10" = .ok ls ∧
      Rule.Sentence none ls
        (.ofCondition "Person" (some (.leaf "age" .equals (.integer 10)))) ∧
      parse "FROM Person WHERE NOT age <> 10" none =
        .ok (.ofCondition "Person" (some (.leaf "age" .equals (.integer 10)))) ∧
      ∀ s, Rule.Sentence none ls s →
        s = .ofCondition "Person" (some (.leaf "age" .equals (.integer 10))) := by
  obtain ⟨decides, only⟩ := parse_eq_ok_iff_only_sentence "FROM Person WHERE NOT age <> 10" none
  let ls : List Lexeme :=
    [⟨.keyword .from_, "FROM"⟩, ⟨.identifier "Person", "Person"⟩, ⟨.keyword .where_, "WHERE"⟩,
      ⟨.keyword .not, "NOT"⟩, ⟨.identifier "age", "age"⟩, ⟨.mark .notEqual, "<>"⟩,
      ⟨.integer 10, "10"⟩]
  have read : lexemes "FROM Person WHERE NOT age <> 10" = .ok ls := by decide +kernel
  have comparison : Rule.Comparison (ls.drop 4) (.leaf "age" .notEquals (.integer 10)) [] :=
    .mark .single .notEqual (.literal .integer)
  have negation : Rule.Negation (ls.drop 3)
      (.node .not [.leaf "age" .notEquals (.integer 10)]) [] := .not (.comparison comparison)
  have condition : Rule.Where (ls.drop 3) (some (.leaf "age" .equals (.integer 10))) [] :=
    .mk (.mk (.last (.mk (.last negation) .single)) .single) (.negated .comparison)
  have sentence : Rule.Sentence none ls
      (.ofCondition "Person" (some (.leaf "age" .equals (.integer 10)))) :=
    .select (.from_ .identifier) (.mk (.given condition) .omitted .omitted .omitted)
  exact ⟨ls, read, sentence, (decides _).mpr ⟨ls, read, sentence⟩, fun s => only ls _ s sentence⟩

end QueryTree
