import Mathlib.Data.List.Infix
import QueryTree.Proofs.Grammar.Parse
import QueryTree.Proofs.Token.Cursor
import QueryTree.Proofs.Token.Lexer

/-! # Going through a text from start to end

Every step starts where the one before has stopped. It passes over blanks and takes the characters
of what it meets, so that what has been passed over and taken is always the front of the text.
Reading comes to an end or to an error within as many steps as there are characters. A lexer makes
these steps one call after the other, so its positions never leave the text.
-/

namespace QueryTree

open Text Lexed

def Scan.answer (s : Scan) : Except LexError (Option Token) := s.outcome.answer s.start

theorem LexFault.recurs_iff {f : LexFault} : f.recurs ↔ ∃ ch, f = .unexpectedChar ch := by
  cases f <;> simp [recurs]

namespace Cursor

variable {text : String} {c : Cursor}

section Step

def skipped (c : Cursor) : List Char := c.rest.takeWhile isBlank

/-- What stands in a text between the start of the next step and the cursor after it. -/
def spelling (text : String) (c : Cursor) : List Char :=
  text.toList.extract c.scan.start c.scan.next.position

theorem text_append_next (c : Cursor) :
    c.scan.text.toList ++ c.scan.next.rest = c.rest.dropWhile isBlank := by
  have body := List.suffix_iff_eq_append.mp (ofChars_suffix (c.rest.dropWhile isBlank))
  simpa [scan] using body

theorem rest_eq (c : Cursor) :
    c.rest = c.skipped ++ (c.scan.text.toList ++ c.scan.next.rest) := by
  rw [text_append_next, skipped, List.takeWhile_append_dropWhile]

theorem start_eq (c : Cursor) : c.scan.start = c.position + c.skipped.length := rfl

theorem next_position_eq (c : Cursor) :
    c.scan.next.position = c.scan.start + c.scan.text.toList.length := by
  simp [scan]

theorem length_text_pos (h : c.scan.outcome.advances) : 0 < c.scan.text.toList.length := by
  have short : c.scan.next.rest.length < (c.rest.dropWhile isBlank).length := length_ofChars_lt h
  rw [← c.text_append_next, List.length_append] at short
  omega

theorem outcome_eq_finished_iff : c.scan.outcome = .finished ↔ ∀ ch ∈ c.rest, isBlank ch := by
  rw [← List.dropWhile_eq_nil_iff]
  constructor
  · exact ofChars_eq_finished
  · intro nothing
    rw [scan_outcome, nothing]
    rfl

theorem Reached.rest_eq_drop (h : Reached text c) : c.rest = text.toList.drop c.position := by
  induction h with
  | start => rfl
  | @scan c _ ih =>
    rw [next_position_eq, start_eq, Nat.add_assoc, ← List.drop_drop, ← ih]
    conv_rhs => rw [c.rest_eq, ← List.append_assoc]
    rw [List.drop_left' List.length_append]

theorem extract_of_drop {l front rest : List Char} {n : Nat} (h : l.drop n = front ++ rest) :
    l.extract n (n + front.length) = front := by
  rw [List.extract_eq_take_drop, h, Nat.add_sub_cancel_left, List.take_left]

theorem Reached.extract_start (h : Reached text c) :
    text.toList.extract c.position c.scan.start = c.skipped :=
  extract_of_drop (h.rest_eq_drop.symm.trans c.rest_eq)

theorem Reached.spelling_eq (h : Reached text c) : spelling text c = c.scan.text.toList := by
  have behind : text.toList.drop c.scan.start = c.scan.text.toList ++ c.scan.next.rest := by
    rw [start_eq, ← List.drop_drop, ← h.rest_eq_drop]
    conv_lhs => rw [c.rest_eq]
    rw [List.drop_left]
  rw [spelling, next_position_eq]
  exact extract_of_drop behind

theorem start_lt_of_advances (h : c.scan.outcome.advances) :
    c.scan.start < c.scan.next.position := by
  have := length_text_pos h
  rw [next_position_eq]
  omega

theorem position_of_recurs {f : LexFault} (fault : c.scan.outcome = .fault f) (recurs : f.recurs) :
    c.scan.next.position = c.scan.start := by
  have kept : (ofChars (c.rest.dropWhile isBlank)).2 = c.rest.dropWhile isBlank :=
    ofChars_of_recurs fault recurs
  have nothing := c.text_append_next
  rw [scan_next_rest, kept, List.append_left_eq_self] at nothing
  rw [next_position_eq, nothing]
  rfl

theorem Reached.start_lt_of_fault {f : LexFault} (h : Reached text c)
    (fault : c.scan.outcome = .fault f) : c.scan.start < text.length := by
  have visible : c.rest.dropWhile isBlank ≠ [] := by
    intro nothing
    rw [scan_outcome, nothing] at fault
    cases fault
  have whole := h.length_add_position
  have blanks := c.length_blanks_add_body
  have some := List.length_pos_iff.mpr visible
  rw [start_eq, skipped]
  omega

end Step

section Run

def after (c : Cursor) (n : Nat) : Cursor := (fun c => c.scan.next)^[n] c

theorem after_succ (c : Cursor) (n : Nat) : c.after (n + 1) = c.scan.next.after n :=
  Function.iterate_succ_apply _ n c

theorem after_succ' (c : Cursor) (n : Nat) : c.after (n + 1) = (c.after n).scan.next :=
  Function.iterate_succ_apply' _ n c

/-- What has been passed over and taken is the front of the text. -/
theorem after_append_rest (c : Cursor) (n : Nat) :
    (List.ofFn fun i : Fin n => (c.after i).skipped ++ (c.after i).scan.text.toList).flatten ++
      (c.after n).rest = c.rest := by
  induction n generalizing c with
  | zero => rfl
  | succ n ih =>
    simp only [List.ofFn_succ, Fin.val_succ, after_succ, List.flatten_cons, List.append_assoc, ih]
    exact c.rest_eq.symm

/-- The end of a text and an unexpected character are met again. -/
theorem answer_next (h : c.scan.answer = .ok none ∨
    ∃ ch p, c.scan.answer = .error ⟨.unexpectedChar ch, p⟩) :
    c.scan.next.scan.answer = c.scan.answer := by
  rcases h with finished | ⟨ch, p, met⟩
  · -- The step at the end takes the last blanks, so the next one finds nothing at all.
    have nothing := rest_of_events_nil (events_of_finished (answer_eq_none_iff.mp finished))
    have finished' : c.scan.next.scan.outcome = .finished := by
      rw [outcome_eq_finished_iff, nothing]
      simp
    rw [finished]
    exact answer_eq_none_iff.mpr finished'
  · obtain ⟨fault, start⟩ := answer_eq_error_iff.mp met
    obtain ⟨fault', start'⟩ := scan_of_recurs fault rfl
    rw [met]
    exact answer_eq_error_iff.mpr ⟨fault', start.trans start'.symm⟩

theorem answer_after {n m : Nat} (h : (c.after n).scan.answer = .ok none ∨
    ∃ ch p, (c.after n).scan.answer = .error ⟨.unexpectedChar ch, p⟩) (le : n ≤ m) :
    (c.after m).scan.answer = (c.after n).scan.answer := by
  induction m, le using Nat.le_induction with
  | base => rfl
  | succ m _ ih =>
    rw [after_succ', answer_next, ih]
    rwa [ih]

/-- The steps up to the end of the text or to the first error meet the events one by one. -/
theorem exists_lexemes (c : Cursor) :
    ∃ ls : List Lexeme, ls.length ≤ c.rest.length ∧
      (∀ i, (h : i < ls.length) →
        (c.after i).scan.outcome = .token ls[i].token ∧ (c.after i).scan.text = ls[i].text) ∧
      ((c.after ls.length).scan.outcome = .finished ∧ c.events = ls.map .lexeme ∨
        ∃ e rest, (c.after ls.length).scan.answer = .error e ∧
          c.events = ls.map .lexeme ++ .error e :: rest) := by
  induction c using Cursor.events.induct with
  | case1 c finished =>
    exact ⟨[], Nat.zero_le _, by simp, .inl ⟨finished, events_of_finished finished⟩⟩
  | case2 c t token short ih =>
    obtain ⟨ls, few, tokens, last⟩ := ih
    refine ⟨⟨t, c.scan.text⟩ :: ls, Nat.lt_of_le_of_lt few short, fun i hi => ?_, ?_⟩
    · cases i with
      | zero => exact ⟨token, rfl⟩
      | succ i =>
        rw [after_succ]
        exact tokens i (Nat.lt_of_succ_lt_succ hi)
    · rw [List.length_cons, after_succ, events_of_token token]
      simpa using last
  | case3 c f fault =>
    refine ⟨[], Nat.zero_le _, by simp, .inr ⟨⟨f, c.scan.start⟩, _, ?_, events_of_fault fault⟩⟩
    exact answer_eq_error_iff.mpr ⟨fault, rfl⟩

end Run

end Cursor

namespace Lexer

/-- The lexer stands in the text where the cursor does. -/
structure At (text : String) (c : Cursor) (l : Lexer) : Prop where
  reached : c.Reached text
  faces : l = facing text.toList l.tokenStart c.rest
  behind : l.tokenStart ≤ l.position

/-- The characters that the next call passes over. -/
def gap (l : Lexer) : List Char := l.input.toList.extract l.position l.next.2.tokenStart

def after (l : Lexer) (n : Nat) : Lexer := (fun l => l.next.2)^[n] l

/-- What a call of a lexer in a text keeps to. -/
structure Orderly (text : String) (l : Lexer) : Prop where
  input : l.input = text.toList.toArray
  inside : l.tokenStart ≤ l.position ∧ l.position ≤ text.length
  lexeme : l.lexeme?.isSome
  forward : l.position ≤ l.next.2.tokenStart ∧ l.next.2.tokenStart ≤ l.next.2.position
  blank : ∀ ch ∈ l.gap, isBlank ch
  token : ∀ t, l.next.1 = .ok (some t) → l.next.2.tokenStart < l.next.2.position
  finished : l.next.1 = .ok none ↔ ∀ ch ∈ text.toList.drop l.position, isBlank ch
  error : ∀ e, l.next.1 = .error e → e.position = l.next.2.tokenStart ∧ e.position < text.length
  passed : ∀ e, l.next.1 = .error e → (∀ ch, e.fault ≠ .unexpectedChar ch) →
    l.next.2.tokenStart < l.next.2.position
  stuck : ∀ e ch, l.next.1 = .error e → e.fault = .unexpectedChar ch →
    l.next.2.position = l.next.2.tokenStart

variable {text : String} {c : Cursor} {l : Lexer} {t : Token} {e : LexError}

section Step

theorem at_ofText (text : String) : At text (Cursor.ofText text) (ofText text) where
  reached := .start
  faces := by simp [ofText, facing, Cursor.ofText]
  behind := Nat.le_refl _

namespace At

theorem position_eq (h : At text c l) : l.position = c.position := by
  have whole := h.reached.length_add_position
  have place : l.position = text.toList.length - c.rest.length := congrArg Lexer.position h.faces
  rw [place, String.length_toList]
  omega

/-- A call of the lexer is a step of the cursor. -/
theorem next_eq (h : At text c l) :
    l.next = (c.scan.answer, facing text.toList c.scan.start c.scan.next.rest) := by
  have tail : c.rest <:+ text.toList := by
    rw [h.reached.rest_eq_drop]
    exact List.drop_suffix _ _
  have whole := h.reached.length_add_position
  have blanks := c.length_blanks_add_body
  have place : text.toList.length - (c.rest.dropWhile isBlank).length = c.scan.start := by
    rw [Cursor.start_eq, Cursor.skipped, String.length_toList]
    omega
  rw [h.faces, next_facing tail]
  simp only [place]
  rfl

theorem start_eq (h : At text c l) : l.next.2.tokenStart = c.scan.start := by
  rw [h.next_eq]
  rfl

theorem next (h : At text c l) : At text c.scan.next l.next.2 where
  reached := h.reached.scan
  faces := by
    rw [h.next_eq]
    rfl
  behind := by
    have whole := h.reached.scan.length_add_position
    have place : l.next.2.position = text.toList.length - c.scan.next.rest.length :=
      congrArg (Lexer.position ∘ Prod.snd) h.next_eq
    have order := c.next_position_eq
    rw [h.start_eq, place, String.length_toList]
    omega

theorem input_eq (h : At text c l) : l.input = text.toList.toArray :=
  congrArg Lexer.input h.faces

theorem gap_eq (h : At text c l) : l.gap = c.skipped := by
  rw [gap, h.input_eq, h.position_eq, h.start_eq]
  exact h.reached.extract_start

theorem inside (h : At text c l) : l.tokenStart ≤ l.position ∧ l.position ≤ text.length := by
  have whole := h.reached.length_add_position
  have place := h.position_eq
  exact ⟨h.behind, by omega⟩

theorem lexeme?_eq (h : At text c l) :
    l.lexeme? = some (String.ofList (text.toList.extract l.tokenStart l.position)) := by
  have range : l.position ≤ l.input.size := by
    rw [h.input_eq, List.size_toArray, String.length_toList]
    exact h.inside.2
  rw [lexeme?, if_pos ⟨h.behind, range⟩, h.input_eq]

theorem lexeme?_next (h : At text c l) : l.next.2.lexeme? = some c.scan.text := by
  have spelled := h.reached.spelling_eq
  rw [Cursor.spelling] at spelled
  rw [h.next.lexeme?_eq, h.start_eq, h.next.position_eq, spelled, String.ofList_toList]

theorem orderly (h : At text c l) : Orderly text l where
  input := h.input_eq
  inside := h.inside
  lexeme := by
    rw [h.lexeme?_eq]
    rfl
  forward := by
    rw [h.position_eq, h.start_eq, h.next.position_eq, c.next_position_eq, c.start_eq]
    omega
  blank := by
    rw [h.gap_eq]
    exact fun ch => List.mem_takeWhile_imp
  token t ht := by
    rw [h.next_eq] at ht
    rw [h.start_eq, h.next.position_eq]
    apply Cursor.start_lt_of_advances
    rw [answer_eq_token_iff.mp ht]
    rfl
  finished := by
    rw [h.next_eq, h.position_eq, ← h.reached.rest_eq_drop]
    exact answer_eq_none_iff.trans Cursor.outcome_eq_finished_iff
  error e he := by
    rw [h.next_eq] at he
    obtain ⟨fault, same⟩ := answer_eq_error_iff.mp he
    rw [h.start_eq]
    exact ⟨same, same ▸ h.reached.start_lt_of_fault fault⟩
  passed e he other := by
    rw [h.next_eq] at he
    obtain ⟨fault, -⟩ := answer_eq_error_iff.mp he
    have passes : e.fault.recurs = false := by
      rw [Bool.eq_false_iff, Ne, LexFault.recurs_iff]
      exact fun ⟨ch, same⟩ => other ch same
    rw [h.start_eq, h.next.position_eq]
    apply Cursor.start_lt_of_advances
    rw [fault, advances, passes]
    rfl
  stuck e ch he same := by
    rw [h.next_eq] at he
    obtain ⟨fault, -⟩ := answer_eq_error_iff.mp he
    rw [h.start_eq, h.next.position_eq]
    exact Cursor.position_of_recurs fault (LexFault.recurs_iff.mpr ⟨ch, same⟩)

end At

end Step

section Run

theorem after_succ (l : Lexer) (n : Nat) : l.after (n + 1) = l.next.2.after n :=
  Function.iterate_succ_apply _ n l

theorem after_succ' (l : Lexer) (n : Nat) : l.after (n + 1) = (l.after n).next.2 :=
  Function.iterate_succ_apply' _ n l

theorem At.after (h : At text c l) (n : Nat) : At text (c.after n) (l.after n) := by
  induction n generalizing c l with
  | zero => exact h
  | succ n ih => exact ih h.next

theorem tokens_of_error (h : l.next.1 = .error e) : l.tokens = .error e := by
  rw [tokens]
  split <;> simp_all

theorem tokens_of_none (h : l.next.1 = .ok none) : l.tokens = .ok [] := by
  rw [tokens]
  split <;> simp_all

theorem tokens_of_token (h : l.next.1 = .ok (some t)) :
    l.tokens = l.next.2.tokens.map (t :: ·) := by
  rw [tokens]
  split <;> simp_all

/-- The tokens of the calls that have been made come before those of the calls to come. -/
theorem tokens_eq_map {ts : List Token}
    (h : ∀ i, (hi : i < ts.length) → (l.after i).next.1 = .ok (some ts[i])) :
    l.tokens = (l.after ts.length).tokens.map (ts ++ ·) := by
  induction ts generalizing l with
  | nil => exact (congrFun Except.map_id _).symm
  | cons t ts ih =>
    have first : l.next.1 = .ok (some t) := h 0 (Nat.zero_lt_succ _)
    have later := ih (l := l.next.2) fun i hi => h (i + 1) (Nat.succ_lt_succ hi)
    rw [tokens_of_token first, later, List.length_cons, after_succ]
    cases (l.next.2.after ts.length).tokens <;> rfl

theorem gaps_append_lexemes {ls : List Lexeme}
    (spelled : ∀ i, (h : i < ls.length) →
      ((Cursor.ofText text).after i).scan.text = ls[i].text)
    (last : ((Cursor.ofText text).after ls.length).scan.outcome = .finished) :
    text.toList = (List.ofFn fun i : Fin ls.length =>
      ((ofText text).after i).gap ++ ls[i].text.toList).flatten ++
        ((ofText text).after ls.length).gap := by
  have here := (at_ofText text).after
  have taken : ∀ i : Fin ls.length, ((ofText text).after i).gap ++ ls[i].text.toList =
      ((Cursor.ofText text).after i).skipped ++
        ((Cursor.ofText text).after i).scan.text.toList := by
    intro i
    rw [(here i).gap_eq, spelled i i.isLt, Fin.getElem_fin]
  have blank : ((Cursor.ofText text).after ls.length).skipped =
      ((Cursor.ofText text).after ls.length).rest :=
    List.takeWhile_eq_self_iff.mpr (Cursor.outcome_eq_finished_iff.mp last)
  simp only [taken, (here ls.length).gap_eq, blank]
  exact (Cursor.after_append_rest (Cursor.ofText text) ls.length).symm

/-- The calls up to the end of a text or to its first error give its lexemes one by one. -/
theorem exists_calls (text : String) :
    ∃ ls : List Lexeme, ls.length ≤ text.length ∧
      (∀ i, (h : i < ls.length) →
        ((ofText text).after i).next.1 = .ok (some ls[i].token) ∧
          ((ofText text).after (i + 1)).lexeme? = some ls[i].text) ∧
      (((ofText text).after ls.length).next.1 = .ok none ∧
          tokenize text = .ok (ls.map Lexeme.token) ∧
          text.toList = (List.ofFn fun i : Fin ls.length =>
            ((ofText text).after i).gap ++ ls[i].text.toList).flatten ++
              ((ofText text).after ls.length).gap ∨
        ∃ e, ((ofText text).after ls.length).next.1 = .error e ∧ tokenize text = .error e) := by
  have here := (at_ofText text).after
  obtain ⟨ls, few, tokens, last⟩ := Cursor.exists_lexemes (Cursor.ofText text)
  refine ⟨ls, few, fun i hi => ⟨?_, ?_⟩, ?_⟩
  · rw [(here i).next_eq]
    exact answer_eq_token_iff.mpr (tokens i hi).1
  · rw [after_succ', (here i).lexeme?_next, (tokens i hi).2]
  · rw [(here ls.length).next_eq]
    rcases last with ⟨finished, read⟩ | ⟨e, rest, met, read⟩
    · refine .inl ⟨answer_eq_none_iff.mpr finished, ?_, ?_⟩
      · rw [tokenize, lexemes_eq_ok_iff.mpr read]
        rfl
      · exact gaps_append_lexemes (fun i hi => (tokens i hi).2) finished
    · refine .inr ⟨e, met, ?_⟩
      rw [tokenize, lexemes_of_error read]
      rfl

end Run

end Lexer

open Lexer

/-- A lexer keeps its place within its text however often it is called. Its calls up to the end of
the text or to the first error give the lexemes of the text, which with the blanks between them are
the text. -/
theorem orderly_run (text : String) :
    let place := (Lexer.ofText text).after
    (∀ n, Orderly text (place n)) ∧
    (∀ n m, n ≤ m → ((place n).next.1 = .ok none ∨
        ∃ ch p, (place n).next.1 = .error ⟨.unexpectedChar ch, p⟩) →
      (place m).next.1 = (place n).next.1) ∧
    (Lexer.ofText text).tokens = tokenize text ∧
    ∃ ls : List Lexeme, ls.length ≤ text.length ∧
      (∀ i, (h : i < ls.length) →
        (place i).next.1 = .ok (some ls[i].token) ∧
          (place (i + 1)).lexeme? = some ls[i].text) ∧
      ((place ls.length).next.1 = .ok none ∧ tokenize text = .ok (ls.map Lexeme.token) ∧
          text.toList = (List.ofFn fun i : Fin ls.length =>
            (place i).gap ++ ls[i].text.toList).flatten ++ (place ls.length).gap ∨
        ∃ e, (place ls.length).next.1 = .error e ∧ tokenize text = .error e) := by
  -- The calls of the lexer are the steps of the cursor, of which all this is known.
  have here := (at_ofText text).after
  refine ⟨fun n => (here n).orderly, fun n m le h => ?_, ?_, exists_calls text⟩
  · rw [(here n).next_eq] at h
    rw [(here n).next_eq, (here m).next_eq]
    exact Cursor.answer_after h le
  · obtain ⟨ls, -, given, last⟩ := exists_calls text
    have answers : ∀ i, (h : i < (ls.map Lexeme.token).length) →
        ((Lexer.ofText text).after i).next.1 = .ok (some (ls.map Lexeme.token)[i]) := by
      intro i hi
      rw [List.getElem_map]
      exact (given i (by simpa using hi)).1
    rw [tokens_eq_map answers, List.length_map]
    rcases last with ⟨finished, read, -⟩ | ⟨e, met, read⟩
    · rw [tokens_of_none finished, read, Except.map, List.append_nil]
    · rw [tokens_of_error met, read]
      rfl

/-- The second call for `a #` meets the `#`, and so does every later one. -/
theorem orderly_run_unexpected :
    (∀ m, 1 ≤ m →
        ((Lexer.ofText "a #").after m).next.1 = .error ⟨.unexpectedChar '#', 2⟩) ∧
      ∀ n, ((Lexer.ofText "a #").after n).position ≤ 3 := by
  obtain ⟨orderly, again, -⟩ := orderly_run "a #"
  have met : ((Lexer.ofText "a #").after 1).next.1 = .error ⟨.unexpectedChar '#', 2⟩ := by
    rw [((at_ofText "a #").after 1).next_eq]
    decide
  exact ⟨fun m le => (again 1 m le (.inr ⟨_, _, met⟩)).trans met, fun n => (orderly n).inside.2⟩

end QueryTree
