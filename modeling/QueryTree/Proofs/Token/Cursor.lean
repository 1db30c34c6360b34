import Mathlib.Data.List.DropRight
import QueryTree.Proofs.Token.Front
import QueryTree.Token.Cursor

/-! # Going through a text, step by step

The events at a cursor are what one step meets and the events at the next cursor. No character is
lost on the way, and an error that recurs is met again in the same place.
-/

namespace QueryTree.Cursor

open Text Lexed

inductive Reached (text : String) : Cursor → Prop where
  | start : Reached text (ofText text)
  | scan {c} : Reached text c → Reached text c.scan.next

variable {c : Cursor} {t : Token} {f : LexFault} {e : LexError} {l : Lexeme} {rest : List Event}

section Events

theorem scan_outcome : c.scan.outcome = (ofChars (c.rest.dropWhile isBlank)).1 := rfl

theorem scan_next_rest : c.scan.next.rest = (ofChars (c.rest.dropWhile isBlank)).2 := rfl

theorem scan_append_blanks {blanks more : List Char} (blank : ∀ b ∈ blanks, isBlank b) (p : Nat) :
    (Cursor.mk (blanks ++ more) p).scan = (Cursor.mk more (p + blanks.length)).scan := by
  simp only [scan, List.takeWhile_append_of_pos blank, List.dropWhile_append_of_pos blank,
    List.length_append, Nat.add_assoc]

theorem events_of_finished (h : c.scan.outcome = .finished) : c.events = [] := by
  rw [events]
  split <;> simp_all

theorem events_of_token (h : c.scan.outcome = .token t) :
    c.events = .lexeme ⟨t, c.scan.text⟩ :: c.scan.next.events := by
  rw [events]
  split <;> simp_all

theorem events_of_fault (h : c.scan.outcome = .fault f) :
    c.events = .error ⟨f, c.scan.start⟩ :: if f.recurs then [] else c.scan.next.events := by
  rw [events]
  split <;> simp_all

theorem events_cases (c : Cursor) :
    (c.scan.outcome = .finished ∧ c.events = []) ∨
      (∃ t, c.scan.outcome = .token t ∧
        c.events = .lexeme ⟨t, c.scan.text⟩ :: c.scan.next.events) ∨
      ∃ f, c.scan.outcome = .fault f ∧
        c.events = .error ⟨f, c.scan.start⟩ :: if f.recurs then [] else c.scan.next.events := by
  cases outcome : c.scan.outcome with
  | finished => exact .inl ⟨rfl, events_of_finished outcome⟩
  | token t => exact .inr (.inl ⟨t, rfl, events_of_token outcome⟩)
  | fault f => exact .inr (.inr ⟨f, rfl, events_of_fault outcome⟩)

theorem outcome_of_events_nil (h : c.events = []) : c.scan.outcome = .finished := by
  rcases c.events_cases with ⟨finished, -⟩ | ⟨t, -, met⟩ | ⟨f, -, met⟩
  · exact finished
  · cases h.symm.trans met
  · cases h.symm.trans met

theorem rest_of_events_nil (h : c.events = []) : c.scan.next.rest = [] := by
  have finished := outcome_of_events_nil h
  rw [scan_next_rest, ofChars_eq_finished finished]
  rfl

theorem scan_of_events_lexeme (h : c.events = .lexeme l :: rest) :
    c.scan.outcome = .token l.token ∧ c.scan.text = l.text ∧ c.scan.next.events = rest := by
  rcases c.events_cases with ⟨-, met⟩ | ⟨t, token, met⟩ | ⟨f, -, met⟩
  · cases h.symm.trans met
  · cases h.symm.trans met
    exact ⟨token, rfl, rfl⟩
  · cases h.symm.trans met

/-- A step from a character that is no blank starts there. -/
theorem scan_of_visible {o : Lexed} {used left : List Char} {p : Nat}
    (visible : (used ++ left).dropWhile isBlank = used ++ left)
    (read : ofChars (used ++ left) = (o, left)) :
    (Cursor.mk (used ++ left) p).scan =
      { outcome := o, text := String.ofList used, start := p, next := ⟨left, p + used.length⟩ } := by
  have none : (used ++ left).takeWhile isBlank = [] := by
    have split := List.takeWhile_append_dropWhile (p := isBlank) (l := used ++ left)
    rwa [visible, List.append_left_eq_self] at split
  simp only [scan, visible, none, read, List.length_append, Nat.add_sub_cancel, List.take_left,
    List.length_nil, Nat.add_zero]

theorem scan_of_recurs (h : c.scan.outcome = .fault f) (recurs : f.recurs) :
    c.scan.next.scan.outcome = .fault f ∧ c.scan.next.scan.start = c.scan.start := by
  have same : (ofChars (c.rest.dropWhile isBlank)).2 = c.rest.dropWhile isBlank :=
    ofChars_of_recurs h recurs
  have next : c.scan.next = ⟨c.rest.dropWhile isBlank, c.scan.start⟩ := by
    simp [scan, same]
  have again : (Cursor.mk ([] ++ c.rest.dropWhile isBlank) c.scan.start).scan = _ :=
    scan_of_visible (List.dropWhile_idempotent isBlank c.rest) (Prod.ext h same)
  rw [next]
  rw [List.nil_append] at again
  rw [again]
  exact ⟨rfl, rfl⟩

theorem events_of_recurs (h : c.scan.outcome = .fault f) (recurs : f.recurs) :
    c.scan.next.events = c.events := by
  obtain ⟨outcome, start⟩ := scan_of_recurs h recurs
  rw [events_of_fault outcome, events_of_fault h, start, if_pos recurs, if_pos recurs]

/-- After an error the events go on with what is unread. -/
theorem events_of_events_error (h : c.events = .error e :: rest) :
    c.scan.next.events = e.unread rest := by
  rcases c.events_cases with ⟨-, met⟩ | ⟨t, -, met⟩ | ⟨f, fault, met⟩
  · cases h.symm.trans met
  · cases h.symm.trans met
  · obtain ⟨same, left⟩ := List.cons.inj (h.symm.trans met)
    obtain rfl := Event.error.inj same
    by_cases recurs : f.recurs
    · rw [events_of_recurs fault recurs, h, LexError.unread, if_pos recurs]
    · rw [if_neg recurs] at left
      rw [LexError.unread, if_neg recurs, left]

end Events

section Positions

theorem length_blanks_add_body (c : Cursor) :
    (c.rest.takeWhile isBlank).length + (c.rest.dropWhile isBlank).length = c.rest.length := by
  rw [← List.length_append, List.takeWhile_append_dropWhile]

theorem length_scan_next (c : Cursor) :
    c.scan.next.rest.length + c.scan.next.position = c.rest.length + c.position := by
  have blanks := c.length_blanks_add_body
  have short := (ofChars_suffix (c.rest.dropWhile isBlank)).length_le
  simp only [scan, List.length_take]
  omega

theorem Reached.length_add_position {text : String} (h : Reached text c) :
    c.rest.length + c.position = text.length := by
  induction h with
  | start => exact String.length_toList
  | scan _ ih => rw [length_scan_next, ih]

end Positions

end QueryTree.Cursor
