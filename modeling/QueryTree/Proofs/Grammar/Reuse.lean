import QueryTree.Proofs.Grammar.Keeping
import QueryTree.Proofs.Grammar.Parse
import QueryTree.Proofs.Token.Cursor

/-! # Asking a session again

A session may be asked for statements again and again, also after errors. It gives one statement at
most: with that the text has come to an end, and every later request fails and changes nothing.
-/

namespace QueryTree

open Grammar Reader

namespace Stand

/-- The events from the cursor on are those that have not been looked at. -/
def At : Stand → Cursor → Prop
  | reader finished, c => c.rest = []
  | reader (facing _ ahead), c => ahead = c.events
  | cutOff _ unread, c => unread = c.events

def Within (text : String) (s : Stand) : Prop := ∃ c : Cursor, c.Reached text ∧ s.At c

variable {text : String} {c : Cursor} {r : Reader}

theorem at_next (h : r.events = c.events) : (reader r).At c.scan.next := by
  cases r with
  | finished => exact Cursor.rest_of_events_nil h.symm
  | facing l ahead => exact (Cursor.scan_of_events_lexeme h.symm).2.2.symm

theorem passes_within (text : String) :
    Passes (fun r => Within text r) fun _ s => Within text s where
  next := by
    rintro l r ⟨c, reached, ahead⟩
    exact ⟨c.scan.next, reached.scan, at_next ahead⟩
  lexical := by
    rintro l e rest ⟨c, reached, ahead⟩
    have unread : e.unread rest = c.scan.next.events :=
      (Cursor.events_of_events_error ahead.symm).symm
    exact ⟨⟨c.scan.next, reached.scan, unread⟩, ⟨c.scan.next, reached.scan, unread⟩,
      ⟨c.scan.next, reached.scan, unread⟩⟩
  unexpected h := h
  afterName := by
    rintro name text r ⟨c, reached, ahead⟩
    exact ⟨c.scan.next, reached.scan, at_next ahead⟩
  loneCount h := h
  missingEntity h := h

end Stand

namespace Session

inductive Call where
  | withEntity (name : String)
  | parse (goal : Goal)

def after (session : Session) : Call → Session
  | .withEntity name => session.withEntity name
  | .parse goal => (session.parse goal).2

def run (session : Session) (calls : List Call) : Session := calls.foldl after session

/-- The results of the calls for a statement. -/
def answers (session : Session) : List Call → List (Except ParseError Statement)
  | [] => []
  | .withEntity name :: calls => (session.withEntity name).answers calls
  | .parse goal :: calls => (session.parse goal).1 :: (session.parse goal).2.answers calls

def Announces (session : Session) (goal : Goal) : Prop :=
  ∃ kind, session.stand.token?.bind kindOf? = some kind ∧ goal.all (· = kind)

variable {session : Session} {text : String} {goal : Goal} {s : Statement}

section Calls

theorem run_keeps {P : Session → Prop} (h : P session)
    (entity : ∀ session name, P session → P (session.withEntity name))
    (parse : ∀ session goal, P session → P (session.parse goal).2) (calls : List Call) :
    P (session.run calls) := by
  induction calls generalizing session with
  | nil => exact h
  | cons call calls ih =>
    apply ih
    cases call with
    | withEntity name => exact entity session name h
    | parse goal => exact parse session goal h

theorem query_parse (session : Session) (goal : Goal) :
    (session.parse goal).2.query = session.query := by
  obtain ⟨query, fallback, stand⟩ := session
  cases stand with
  | cutOff => rfl
  | reader r => rw [parse_reader]

theorem query_run (session : Session) (calls : List Call) :
    (session.run calls).query = session.query := by
  apply run_keeps (P := fun s => s.query = session.query) rfl
  · intro s name same
    exact same
  · intro s goal same
    rw [query_parse, same]

theorem within_start (started : start text = .ok session) : session.stand.Within text := by
  obtain ⟨-, -, -, r, stand, same⟩ := start_eq_ok_iff.mp started
  rw [stand]
  exact ⟨_, Cursor.Reached.start.scan, Stand.at_next same⟩

theorem within_parse (h : session.stand.Within text) (goal : Goal) :
    (session.parse goal).2.stand.Within text := by
  obtain ⟨query, fallback, stand⟩ := session
  cases stand with
  | cutOff => exact h
  | reader r =>
    rw [parse_reader]
    exact (keeps_query (Stand.passes_within text) goal r h).stand

theorem within_run (h : session.stand.Within text) (calls : List Call) :
    (session.run calls).stand.Within text :=
  run_keeps (P := fun s => s.stand.Within text) h (fun _ _ => id)
    (fun _ goal within => within_parse within goal) calls

end Calls

section Refusals

theorem query_refused {fallback : Option String} {r : Reader}
    (h : ∀ kind, r.token?.bind kindOf? = some kind → ¬ goal.all (· = kind)) :
    Grammar.query goal fallback r = .failed (r.unexpected goal.expectation) r := by
  have refused : announced goal fallback r = .failed (r.unexpected goal.expectation) r := by
    rw [announced, Trail.peek_bind]
    cases front : r.token?.bind kindOf? with
    | none => rfl
    | some kind => simp only [if_neg (h kind front), Trail.unexpected]
  show (announced goal fallback r).andThen _ = _
  rw [refused]
  rfl

/-- A call that the faced token does not announce changes nothing. -/
theorem parse_refused (h : ¬ session.Announces goal) :
    ∃ e, session.parse goal = (.error e, session) := by
  obtain ⟨query, fallback, stand⟩ := session
  cases stand with
  | cutOff => exact ⟨_, rfl⟩
  | reader r =>
    have refused : Grammar.query goal fallback r = .failed (r.unexpected goal.expectation) r := by
      apply query_refused
      intro kind front wanted
      exact h ⟨kind, front, wanted⟩
    rw [parse_reader, refused]
    exact ⟨_, rfl⟩

end Refusals

section Finished

theorem parse_finished (h : session.stand = .reader .finished) (goal : Goal) :
    session.parse goal = (.error (.inQuery (.ended goal.expectation) session.query), session) := by
  obtain ⟨query, fallback, stand⟩ := session
  obtain rfl := h
  rfl

theorem run_finished (h : session.stand = .reader .finished) (calls : List Call) :
    (session.run calls).stand = .reader .finished := by
  apply run_keeps (P := fun s => s.stand = .reader .finished) h
  · intro s name finished
    exact finished
  · intro s goal finished
    rw [parse_finished finished, finished]

theorem answers_finished (h : session.stand = .reader .finished) (calls : List Call) :
    (session.answers calls).countP Except.isOk = 0 := by
  induction calls generalizing session with
  | nil => rfl
  | cons call calls ih =>
    cases call with
    | withEntity name =>
      have named : (session.withEntity name).stand = .reader .finished := h
      exact ih named
    | parse goal =>
      rw [answers, parse_finished h, List.countP_cons_of_neg Bool.false_ne_true]
      exact ih h

theorem finished_of_parse_ok (h : (session.parse goal).1 = .ok s) :
    (session.parse goal).2.stand = .reader .finished := by
  obtain ⟨query, fallback, stand⟩ := session
  cases stand with
  | cutOff => cases h
  | reader r =>
    rw [parse_reader] at h ⊢
    obtain ⟨r', yields⟩ := Reading.exists_yields_of_result (Except.mapError_eq_ok_iff.mp h)
    obtain ⟨rfl, -⟩ := yields_query.mp yields
    exact congrArg Prod.snd yields

theorem countP_answers_le (session : Session) (calls : List Call) :
    (session.answers calls).countP Except.isOk ≤ 1 := by
  induction calls generalizing session with
  | nil => exact Nat.zero_le 1
  | cons call calls ih =>
    cases call with
    | withEntity name => exact ih (session.withEntity name)
    | parse goal =>
      rw [answers]
      cases answer : (session.parse goal).1 with
      | error e =>
        rw [List.countP_cons_of_neg Bool.false_ne_true]
        exact ih _
      | ok s => rw [List.countP_cons_of_pos rfl, answers_finished (finished_of_parse_ok answer)]

end Finished

end Session

/-- A text gives one statement at most, however often its session is asked. With that statement the
text has come to an end, and every later request fails and leaves the session where it stands. A
request that the faced token does not announce fails and leaves the session as it is. -/
theorem session_gives_one_statement (text : String) (session : Session)
    (started : Session.start text = .ok session) (calls : List Session.Call) :
    (session.answers calls).countP Except.isOk ≤ 1 ∧
    (∃ c : Cursor, c.Reached text ∧ (session.run calls).stand.At c) ∧
    (∀ goal s, ((session.run calls).parse goal).1 = .ok s →
      let done := ((session.run calls).parse goal).2
      (∃ c : Cursor, c.Reached text ∧ done.stand.At c ∧ c.rest = [] ∧ c.position = text.length) ∧
        ∀ more goal', (done.run more).stand = done.stand ∧ (done.run more).parse goal' =
          (.error (.inQuery (.ended goal'.expectation) text), done.run more)) ∧
    ∀ goal, ¬ (session.run calls).Announces goal →
      ∃ e, (session.run calls).parse goal = (.error e, session.run calls) := by
  have within : (session.run calls).stand.Within text :=
    Session.within_run (Session.within_start started) calls
  refine ⟨Session.countP_answers_le session calls, within, ?_, fun goal => Session.parse_refused⟩
  intro goal s answer
  have finished := Session.finished_of_parse_ok answer
  constructor
  · obtain ⟨c, reached, here⟩ := Session.within_parse within goal
    have rest : c.rest = [] := by
      rw [finished] at here
      exact here
    have position : c.position = text.length := by
      rw [← reached.length_add_position, rest, List.length_nil, Nat.zero_add]
    exact ⟨c, reached, here, rest, position⟩
  · intro more goal'
    obtain ⟨-, asked, -⟩ := Session.start_eq_ok_iff.mp started
    have ended := Session.run_finished finished more
    have query : (((session.run calls).parse goal).2.run more).query = text := by
      rw [Session.query_run, Session.query_parse, Session.query_run, asked]
    constructor
    · rw [ended, finished]
    · rw [Session.parse_finished ended, query]

theorem session_gives_one_statement_person :
    ∃ session, Session.start "FROM ?0 Person" = .ok session ∧
      (session.answers [.parse none, .withEntity "Cat", .parse (some .delete), .parse none,
        .parse none]).countP Except.isOk ≤ 1 ∧
      (∃ e, (session.run [.parse none]).parse (some .delete) =
        (.error e, session.run [.parse none])) ∧
      ∃ s, ((session.run [.parse none]).parse none).1 = .ok s ∧
        ∀ goal, (((session.run [.parse none]).parse none).2.parse goal).1 =
          .error (.inQuery (.ended goal.expectation) "FROM ?0 Person") := by
  have outcome : (Session.start "FROM ?0 Person").map (fun session =>
      (((session.run [.parse none]).parse none).1.map Statement.kind,
        (session.run [.parse none]).stand.token?.bind kindOf?)) =
          .ok (.ok .select, some .select) := by decide +kernel
  obtain ⟨session, started, same⟩ := Except.map_eq_ok_iff.mp outcome
  obtain ⟨answer, front⟩ := Prod.mk.inj same
  obtain ⟨s, answer, -⟩ := Except.map_eq_ok_iff.mp answer
  obtain ⟨-, -, ended, refused⟩ :=
    session_gives_one_statement "FROM ?0 Person" session started [.parse none]
  refine ⟨session, started, ?_, ?_, s, answer, ?_⟩
  · exact (session_gives_one_statement "FROM ?0 Person" session started _).1
  · apply refused
    rintro ⟨kind, announced, wanted⟩
    obtain rfl := Option.some.inj (front.symm.trans announced)
    exact absurd wanted (by decide)
  · intro goal
    exact congrArg Prod.fst ((ended none s answer).2 [] goal).2

end QueryTree
