import QueryTree.Proofs.Grammar.Keeping
import QueryTree.Proofs.MethodName.Placement
import QueryTree.Proofs.Token.Discipline

/-! # Faults report what they were met in

A fault of a query is about a lexeme as it is written, about the end of a text that can be read to
its end, or about the first error of the text. A fault of a method name is about one of its words.
-/

namespace QueryTree

section Queries

open Grammar Reader Cursor

variable {text : String} {r : Reader} {l : Lexeme} {ahead : List Event} {expected : Expectation}

/-- What the fault says of the text is true. -/
def ParseFault.TrueOf (text : String) : ParseFault → Prop
  | unexpected fragment _ =>
    fragment = "count(this)" ∨
      ∃ c t, Reached text c ∧ c.scan.answer = .ok (some t) ∧
        fragment.toList = spelling text c ∧ fragment ≠ ""
  | ended _ => ∃ ts, tokenize text = .ok ts
  | lexical e => tokenize text = .error e
  | missingEntity => True

namespace Reader

/-- The reader stands somewhere in the text, and there is no error up to there. -/
def Fresh (text : String) (r : Reader) : Prop :=
  ∃ (c : Cursor) (before : List Lexeme),
    Reached text c ∧ c.events = r.events ∧ QueryTree.events text = before.map .lexeme ++ r.events

theorem fresh_of_start (h : r.events = QueryTree.events text) : r.Fresh text :=
  ⟨ofText text, [], .start, h.symm, h.symm⟩

namespace Fresh

theorem next (h : (facing l r.events).Fresh text) : r.Fresh text := by
  obtain ⟨c, before, reached, here, split⟩ := h
  refine ⟨c.scan.next, before ++ [l], reached.scan, (scan_of_events_lexeme here).2.2, ?_⟩
  rw [split]
  simp [Reader.events]

theorem trueOf_lexical {e : LexError} {rest : List Event}
    (h : (facing l (.error e :: rest)).Fresh text) : (ParseFault.lexical e).TrueOf text := by
  obtain ⟨-, before, -, -, split⟩ := h
  have met : QueryTree.events text = (before ++ [l]).map .lexeme ++ .error e :: rest := by
    rw [split]
    simp [Reader.events]
  rw [ParseFault.TrueOf, tokenize, lexemes_of_error met]
  rfl

theorem trueOf_unexpected_text (h : (facing l ahead).Fresh text) :
    (ParseFault.unexpected l.text expected).TrueOf text := by
  obtain ⟨c, -, reached, here, -⟩ := h
  obtain ⟨outcome, same, -⟩ := scan_of_events_lexeme here
  have pos : 0 < c.scan.text.toList.length := length_text_pos (by rw [outcome]; rfl)
  refine .inr ⟨c, l.token, reached, Lexed.answer_eq_token_iff.mpr outcome, ?_, ?_⟩
  · rw [reached.spelling_eq, same]
  · rintro empty
    rw [same, empty] at pos
    exact absurd pos (by decide)

theorem trueOf_unexpected (h : r.Fresh text) : (r.unexpected expected).TrueOf text := by
  cases r with
  | finished =>
    obtain ⟨-, before, -, -, split⟩ := h
    have read : lexemes text = .ok before := by
      rw [lexemes_eq_ok_iff, split]
      exact List.append_nil _
    exact ⟨_, Except.map_eq_ok_iff.mpr ⟨before, read, rfl⟩⟩
  | facing l ahead => exact h.trueOf_unexpected_text

theorem text_eq {name word : String} (h : (facing ⟨.identifier name, word⟩ ahead).Fresh text) :
    word = name := by
  obtain ⟨c, -, -, here, -⟩ := h
  obtain ⟨outcome, same, -⟩ := scan_of_events_lexeme here
  have read : Lexed.ofChars (c.scan.text.toList ++ c.scan.next.rest) =
      (.token (.identifier name), c.scan.next.rest) := by
    rw [text_append_next]
    exact Prod.ext outcome rfl
  have token := eq_ofWord_of_ofChars read rfl
  rw [String.ofList_toList] at token
  rw [(ofWord_eq_identifier token.symm).2]
  exact same.symm

end Fresh

end Reader

/-- From a fresh reader on, faults are true of the text. -/
theorem passes_fresh (text : String) :
    Passes (Reader.Fresh text) fun fault _ => fault.TrueOf text where
  next h := h.next
  lexical h := ⟨h.trueOf_lexical, h.trueOf_lexical, h.trueOf_lexical⟩
  unexpected h := h.trueOf_unexpected
  afterName h := by
    obtain rfl := h.text_eq
    exact h.trueOf_unexpected_text
  loneCount _ := .inl rfl
  missingEntity _ := trivial

def Session.ask (text : String) (fallback : Option String) (goal : Goal) :
    Except ParseError Statement :=
  (Session.start text).bind fun session => ({ session with fallback }.parse goal).1

theorem parse_eq_ask (text : String) (fallback : Option String) :
    parse text fallback = Session.ask text fallback none := by
  unfold parse Session.ask
  cases Session.start text <;> rfl

def ParseError.TrueOf (text : String) : ParseError → Prop
  | emptyQuery => Text.allBlank text
  | inQuery fault query => ¬ Text.allBlank text ∧ query = text ∧ fault.TrueOf text

namespace Session

variable {session : Session} {goal : Goal} {fallback : Option String} {e : ParseError}

theorem start_eq_error (h : start text = .error e) : e.TrueOf text := by
  unfold start at h
  split_ifs at h with blank
  · obtain rfl := Except.error.inj h
    exact blank
  · split at h
    · cases h
    · cases h
    · next error rest first =>
      obtain rfl := Except.error.inj h
      have met : events text = List.map .lexeme [] ++ .error error :: rest := first
      refine ⟨blank, rfl, ?_⟩
      rw [ParseFault.TrueOf, tokenize, lexemes_of_error met]
      rfl

theorem parse_eq_error (started : start text = .ok session)
    (h : ({ session with fallback }.parse goal).1 = .error e) : e.TrueOf text := by
  obtain ⟨visible, asked, -, r, stand, here⟩ := start_eq_ok_iff.mp started
  have kept : (Grammar.query goal fallback r).Keeps (Fresh text) fun fault _ => fault.TrueOf text :=
    keeps_query (passes_fresh text) goal r (fresh_of_start here)
  rw [parse, stand] at h
  cases outcome : Grammar.query goal fallback r with
  | read s r' shorter =>
    simp [outcome] at h
  | failed fault stand' =>
    simp only [outcome] at h
    obtain rfl := Except.error.inj h
    rw [outcome] at kept
    exact ⟨visible, asked, kept⟩

theorem ask_eq_error (h : ask text fallback goal = .error e) : e.TrueOf text := by
  unfold ask at h
  cases started : start text with
  | error e' =>
    rw [started] at h
    obtain rfl := Except.error.inj h
    exact start_eq_error started
  | ok session =>
    rw [started] at h
    exact parse_eq_error started h

end Session

end Queries

section Methods

namespace MethodName

variable {ws ws' : List String} {f : MethodFault}

/-- The fault is not about the verb, and a word that it reports is among these. -/
inductive MethodFault.Among (ws : List String) : MethodFault → Prop where
  | unexpectedWord {w : String} : w ∈ ws → Among ws (.unexpectedWord w)
  | invalidLimit {w : String} : w ∈ ws → Among ws (.invalidLimit w)
  | missingProperty : Among ws .missingProperty
  | verbOnly : Among ws .verbOnly

def MethodFault.TrueOf (ws : List String) : MethodFault → Prop
  | unknownVerb w => ws.head? = some w
  | unexpectedWord w => w ∈ ws
  | invalidLimit w => w ∈ ws
  | missingProperty => True
  | verbOnly => True

theorem MethodFault.Among.mono (h : f.Among ws) (sub : ws ⊆ ws') : f.Among ws' := by
  cases h with
  | unexpectedWord mem => exact .unexpectedWord (sub mem)
  | invalidLimit mem => exact .invalidLimit (sub mem)
  | missingProperty => exact .missingProperty
  | verbOnly => exact .verbOnly

theorem MethodFault.Among.trueOf (h : f.Among ws) : f.TrueOf ws := by
  cases h with
  | unexpectedWord mem => exact mem
  | invalidLimit mem => exact mem
  | missingProperty => trivial
  | verbOnly => trivial

def Blames {α : Type} (ws : List String) (x : Except MethodFault α) : Prop :=
  Ensures (fun _ => True) (MethodFault.Among ws) x

/-- An end of these words is left, and only these words are blamed for a fault. -/
def Leaves {α : Type} (ws : List String) (x : Except MethodFault (α × List String)) : Prop :=
  Ensures (fun out => out.2 <:+ ws) (MethodFault.Among ws) x

theorem Blames.mono {α : Type} {x : Except MethodFault α} (h : Blames ws x) (sub : ws ⊆ ws') :
    Blames ws' x :=
  h.imp (fun _ => id) fun _ among => among.mono sub

theorem Blames.map {α β : Type} {x : Except MethodFault α} {f : α → β} (h : Blames ws x) :
    Blames ws (x.map f) :=
  Ensures.map h

theorem Leaves.mono {α : Type} {x : Except MethodFault (α × List String)} (h : Leaves ws x)
    (left : ws <:+ ws') : Leaves ws' x :=
  h.imp (fun _ left' => left'.trans left) fun _ among => among.mono left.subset

variable (ws)

theorem leaves_subject (verb : Verb) (limit : Nat) : Leaves ws (subject verb limit ws) := by
  fun_induction subject verb limit ws with
  | case1 => exact List.suffix_rfl
  | case2 => exact List.suffix_rfl
  | case3 limit rest other ih => exact ih.mono (List.suffix_cons ..)
  | case4 => exact List.nil_suffix
  | case5 limit word _ _ _ next rest _ n _ ih =>
    exact ih.mono ((List.suffix_cons ..).trans (List.suffix_cons ..))
  | case6 => exact .invalidLimit (by simp)
  | case7 limit word _ _ _ next rest _ ih => exact ih.mono (List.suffix_cons ..)
  | case8 => exact .unexpectedWord List.mem_cons_self

theorem blames_modifiers (m : Modifiers) : Blames ws (modifiers m ws) := by
  fun_induction modifiers m ws with
  | case1 => exact trivial
  | case5 => exact .unexpectedWord List.mem_cons_self
  | case2 m word rest _ ih | case3 m word rest _ _ ih | case4 m word rest _ _ _ _ _ ih =>
    exact ih.mono (List.subset_cons_self ..)

theorem blames_segment : Blames ws (segment ws) := by
  unfold segment
  split
  · exact .missingProperty
  · next property rest =>
    split_ifs
    · exact .unexpectedWord List.mem_cons_self
    · exact ((blames_modifiers rest _).mono (List.subset_cons_self ..)).map

theorem blames_parts {α : Type} {part : List String → Except MethodFault α} (separator : String)
    (each : ∀ ws, Blames ws (part ws)) : Blames ws ((ws.splitOn separator).mapM part) := by
  apply ensures_mapM
  intro words mem
  have within : words ⊆ [separator].intercalate (ws.splitOn separator) := subset_intercalate mem
  rw [List.intercalate_splitOn] at within
  exact (each words).mono within

theorem blames_predicate : Blames ws (predicate ws) := by
  unfold predicate
  split_ifs
  · exact trivial
  · apply blames_parts
    intro group
    exact blames_parts group _ blames_segment

theorem leaves_predicateClause : Leaves ws (predicateClause ws) := by
  unfold predicateClause
  split
  · exact List.suffix_rfl
  · next word rest =>
    split_ifs
    · apply Ensures.map
      apply (blames_predicate _).imp
      · intro _ _
        exact (List.dropWhile_suffix _).trans (List.suffix_cons ..)
      · intro _ among
        exact among.mono (List.subset_cons_of_subset _ (List.takeWhile_prefix _).subset)
    · exact List.suffix_rfl

theorem blames_sorts : Blames ws (sorts ws) := by
  fun_induction sorts ws with
  | case1 => exact trivial
  | case2 => exact .unexpectedWord List.mem_cons_self
  | case3 => exact trivial
  | case4 word _ rest ih | case5 word _ rest _ ih =>
    exact (ih.mono (List.subset_cons_of_subset _ (List.subset_cons_self ..))).map
  | case6 word _ next rest _ _ ih => exact (ih.mono (List.subset_cons_self ..)).map

theorem blames_order (verb : Verb) : Blames ws (order verb ws) := by
  unfold order
  split
  · exact trivial
  · next word rest =>
    split_ifs
    · exact .unexpectedWord List.mem_cons_self
    · exact .missingProperty
    · exact (blames_sorts rest).mono (List.subset_cons_self ..)

theorem ensures_ofWords (some : ws ≠ []) :
    Ensures (fun _ => True) (MethodFault.TrueOf ws) (Derivation.ofWords ws) := by
  match ws with
  | [] => exact absurd rfl some
  | first :: rest =>
    rw [Derivation.ofWords]
    split
    · exact rfl
    · next verb _ =>
      by_cases only : rest = []
      · subst only
        exact trivial
      -- After the verb every step goes on with an end of the words before it.
      suffices Blames rest _ from
        (this.mono (List.subset_cons_self ..)).imp (fun _ => id) fun _ => MethodFault.Among.trueOf
      simp only [if_neg only]
      apply (leaves_subject rest verb 0).bind
      rintro ⟨limit, rest₁⟩ left₁
      apply ((leaves_predicateClause rest₁).mono left₁).bind
      rintro ⟨groups, rest₂⟩ left₂
      apply ((blames_order rest₂ verb).mono left₂.subset).bind
      intro sorts _
      exact trivial

theorem words_ne_nil {method : String} (visible : ¬ Text.allBlank method) : words method ≠ [] := by
  intro none
  apply visible
  rw [Text.allBlank, ← spell_words method, none]
  rfl

end MethodName

open MethodName

def MethodError.TrueOf (method : String) : MethodError → Prop
  | emptyMethod => Text.allBlank method
  | inMethod fault name => ¬ Text.allBlank method ∧ name = method ∧ fault.TrueOf (words method)

theorem derive_eq_error {method entity : String} {e : MethodError}
    (h : derive method entity = .error e) : e.TrueOf method := by
  unfold derive at h
  split_ifs at h with blank
  · obtain rfl := Except.error.inj h
    exact blank
  · cases outcome : Derivation.ofWords (words method) with
    | ok d =>
      rw [outcome] at h
      cases h
    | error fault =>
      rw [outcome] at h
      obtain rfl := Except.error.inj h
      exact ⟨blank, rfl, (ensures_ofWords _ (words_ne_nil blank)).error outcome⟩

end Methods

open MethodName

/-- The errors of both dialects report the input as it is. An error is that of an empty input
exactly if the input is blank, every other error carries the input, and what it says of a text or of
the words of a method name is true. -/
theorem errors_report_input (text method entity : String) (fallback : Option String)
    (goal : Grammar.Goal) :
    (∀ e, Session.ask text fallback goal = .error e →
      (e = .emptyQuery ↔ Text.allBlank text) ∧
      (e ≠ .emptyQuery → e.query? = some text) ∧
      ∀ fault query, e = .inQuery fault query → fault.TrueOf text) ∧
    ∀ e, derive method entity = .error e →
      (e = .emptyMethod ↔ Text.allBlank method) ∧
      (e ≠ .emptyMethod → e.method? = some method) ∧
      ∀ fault name, e = .inMethod fault name → fault.TrueOf (words method) := by
  constructor
  · intro e refused
    have reported := Session.ask_eq_error refused
    cases e with
    | emptyQuery => exact ⟨iff_of_true rfl reported, by simp, by simp⟩
    | inQuery fault query =>
      obtain ⟨visible, rfl, told⟩ := reported
      exact ⟨iff_of_false (by simp) visible, fun _ => rfl, by rintro _ _ ⟨⟩; exact told⟩
  · intro e refused
    have reported := derive_eq_error refused
    cases e with
    | emptyMethod => exact ⟨iff_of_true rfl reported, by simp, by simp⟩
    | inMethod fault name =>
      obtain ⟨visible, rfl, told⟩ := reported
      exact ⟨iff_of_false (by simp) visible, fun _ => rfl, by rintro _ _ ⟨⟩; exact told⟩

/-- A word out of place is reported as it is written. -/
theorem errors_report_input_misplaced :
    (ParseFault.unexpected "like" .operand).TrueOf "from a where b like like" ∧
      (MethodFault.unexpectedWord "By").TrueOf (words "findByBy") := by
  have refused : (parse "from a where b like like" none).map Statement.kind =
      .error (.inQuery (.unexpected "like" .operand) "from a where b like like") := by
    decide +kernel
  have refused' : (derive "findByBy" "a").map Statement.kind =
      .error (.inMethod (.unexpectedWord "By") "findByBy") := by
    decide +kernel
  rw [parse_eq_ask] at refused
  obtain ⟨query, name⟩ := errors_report_input "from a where b like like" "findByBy" "a" none none
  exact ⟨(query _ (Except.map_eq_error_iff.mp refused)).2.2 _ _ rfl,
    (name _ (Except.map_eq_error_iff.mp refused')).2.2 _ _ rfl⟩

end QueryTree
