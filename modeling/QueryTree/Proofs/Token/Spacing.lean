import Mathlib.Data.List.DropRight
import QueryTree.Proofs.Grammar.Parse
import QueryTree.Proofs.Token.Cursor

/-! # Texts without errors

The lexemes of a text without errors do not depend on where it stands, and two such texts with a
blank between them have the lexemes of both.
-/

namespace QueryTree

open Text Lexed Cursor

/-- A text consists of blanks and of the lexemes `ls`. -/
inductive Lexes : List Char → List Lexeme → Prop where
  | blank {cs} : cs.dropWhile isBlank = [] → Lexes cs []
  | cons {cs t used rest ls} : cs.dropWhile isBlank = used ++ rest →
      ofChars (used ++ rest) = (.token t, rest) → Lexes rest ls →
      Lexes cs (⟨t, String.ofList used⟩ :: ls)

variable {cs more used rest body : List Char} {ls ls' : List Lexeme} {t : Token}

section Cursor

variable {c : Cursor}

theorem scan_text (hb : c.rest.dropWhile isBlank = used ++ rest)
    (h : (ofChars (used ++ rest)).2 = rest) : c.scan.text = String.ofList used := by
  simp only [Cursor.scan, hb, h, List.length_append, Nat.add_sub_cancel, List.take_left]

theorem Lexes.events (h : Lexes cs ls) (p : Nat) : (Cursor.mk cs p).events = ls.map .lexeme := by
  induction h generalizing p with
  | blank hb =>
    refine events_of_finished ?_
    rw [scan_outcome, hb]
    rfl
  | @cons cs t used rest ls hb h _ ih =>
    have outcome : (Cursor.mk cs p).scan.outcome = .token t := by rw [scan_outcome, hb, h]
    have next : (Cursor.mk cs p).scan.next.rest = rest := by rw [scan_next_rest, hb, h]
    have text : (Cursor.mk cs p).scan.text = String.ofList used := scan_text hb (by rw [h])
    rw [events_of_token outcome, text, List.map_cons, ← ih (Cursor.mk cs p).scan.next.position,
      ← next]

theorem lexes_of_events (h : c.events = ls.map .lexeme) : Lexes c.rest ls := by
  induction ls generalizing c with
  | nil => exact .blank (ofChars_eq_finished (outcome_of_events_nil h))
  | cons l ls ih =>
    obtain ⟨outcome, spelled, next⟩ := scan_of_events_lexeme h
    obtain ⟨used, hu⟩ := ofChars_suffix (c.rest.dropWhile isBlank)
    have same : l = ⟨l.token, String.ofList used⟩ := by
      rw [← scan_text hu.symm (by rw [hu]), spelled]
    rw [same]
    refine .cons hu.symm ?_ (ih next)
    rw [hu]
    exact Prod.ext outcome rfl

end Cursor

/-- Where a text stands does not matter for its lexemes. -/
theorem lexemes_eq_ok_iff_lexes {s : String} : lexemes s = .ok ls ↔ Lexes s.toList ls := by
  rw [lexemes_eq_ok_iff]
  exact ⟨lexes_of_events, fun h => h.events 0⟩

theorem tokenize_eq_ok_iff {text : String} {ts : List Token} :
    tokenize text = .ok ts ↔ ∃ ls, Lexes text.toList ls ∧ ls.map Lexeme.token = ts := by
  simp only [tokenize, Except.map_eq_ok_iff, lexemes_eq_ok_iff_lexes]

theorem Lexes.front {blanks : List Char} (h : Lexes cs ls) (blank : ∀ c ∈ blanks, isBlank c) :
    Lexes (blanks ++ cs) ls := by
  have skipped : (blanks ++ cs).dropWhile isBlank = cs.dropWhile isBlank :=
    List.dropWhile_append_of_pos blank
  cases h with
  | blank rest => exact .blank (skipped.trans rest)
  | cons rest read tail => exact .cons (skipped.trans rest) read tail

/-- A text keeps its lexemes before a text that starts with a delimiter. -/
theorem Lexes.append_delimiter {b : Char} (hb : Delimits b) (h : Lexes cs ls)
    (h' : Lexes (b :: more) ls') : Lexes (cs ++ b :: more) (ls ++ ls') := by
  induction h with
  | blank skipped => exact h'.front (List.dropWhile_eq_nil_iff.mp skipped)
  | @cons cs t used rest ls skipped read _ ih =>
    refine .cons ?_ ?_ ih
    · rw [List.dropWhile_append, skipped]
      simp [ne_nil_of_ofChars read]
    · rw [← List.append_assoc]
      exact ofChars_append_delimiter hb read

theorem Lexes.append_blank {b : Char} (hb : isBlank b) (h : Lexes cs ls) (h' : Lexes more ls') :
    Lexes (cs ++ b :: more) (ls ++ ls') := by
  have blank : ∀ c ∈ [b], isBlank c := by simpa using hb
  exact h.append_delimiter (delimits_of_isBlank hb) (h'.front blank)

theorem Lexes.spaced {a b : String} (h : Lexes a.toList ls) (h' : Lexes b.toList ls') :
    Lexes (a ++ " " ++ b).toList (ls ++ ls') := by
  rw [String.toList_append, String.toList_append, List.append_assoc]
  exact h.append_blank (by decide) h'

/-! ## Spellings -/

theorem Lexes.flatMap_text (h : Lexes cs ls) (unspaced : ∀ c ∈ cs, ¬ isBlank c) :
    ls.flatMap (·.text.toList) = cs := by
  induction h with
  | @blank cs hb =>
    cases cs with
    | nil => rfl
    | cons c cs =>
      rw [List.dropWhile_cons_of_neg (unspaced c List.mem_cons_self)] at hb
      cases hb
  | @cons cs t used rest ls hb _ _ ih =>
    have same : cs.dropWhile isBlank = cs := by
      cases cs with
      | nil => rfl
      | cons c cs => exact List.dropWhile_cons_of_neg (unspaced c List.mem_cons_self)
    rw [same] at hb
    subst hb
    rw [List.flatMap_cons, String.toList_ofList,
      ih fun c hc => unspaced c (List.mem_append_right _ hc)]

theorem Lexes.exists_read {l : Lexeme} (h : Lexes cs ls) (mem : l ∈ ls) :
    ∃ rest, (l.text.toList ++ rest).dropWhile isBlank = l.text.toList ++ rest ∧
      ofChars (l.text.toList ++ rest) = (.token l.token, rest) := by
  induction h with
  | blank => cases mem
  | @cons cs t used rest ls skipped read _ ih =>
    rcases List.mem_cons.mp mem with rfl | mem
    · refine ⟨rest, ?_, ?_⟩
      · rw [String.toList_ofList, ← skipped]
        exact List.dropWhile_idempotent _ _
      · rwa [String.toList_ofList]
    · exact ih mem

theorem Lexes.spelling_of_mark {m : Mark} {text : String} (h : Lexes cs ls)
    (mem : ⟨.mark m, text⟩ ∈ ls) : (text.toList, m) ∈ Mark.spellings := by
  obtain ⟨rest, -, read⟩ := h.exists_read mem
  exact spelling_of_ofChars read

theorem Lexes.eq_ofWord {text : String} (h : Lexes cs ls) (mem : ⟨t, text⟩ ∈ ls)
    (word : t.isWord) : t = .ofWord text := by
  obtain ⟨rest, -, read⟩ := h.exists_read mem
  have token := eq_ofWord_of_ofChars read word
  rwa [String.ofList_toList] at token

theorem Lexes.token (s : String) (front : (s.toList ++ rest).dropWhile isBlank = s.toList ++ rest)
    (read : ofChars (s.toList ++ rest) = (.token t, rest)) (h : Lexes rest ls) :
    Lexes (s.toList ++ rest) (⟨t, s⟩ :: ls) := by
  have := Lexes.cons front read h
  rwa [String.ofList_toList] at this

theorem lexes_token {s : String} (front : s.toList.dropWhile isBlank = s.toList)
    (read : ofChars s.toList = (.token t, [])) : Lexes s.toList [⟨t, s⟩] := by
  have nothing : Lexes [] [] := .blank rfl
  have := Lexes.token (t := t) s (by rwa [List.append_nil]) (by rwa [List.append_nil]) nothing
  rwa [List.append_nil] at this

theorem lexes_keyword (k : Keyword) : Lexes k.name.toList [⟨.keyword k, k.name⟩] := by
  cases k <;> exact lexes_token (by decide) (by decide)

theorem lexes_mark (m : Mark) : Lexes m.name.toList [⟨.mark m, m.name⟩] := by
  cases m <;> exact lexes_token (by decide) (by decide)

theorem Lexes.lone (m : Mark) (lone : m ∈ [.opening, .closing, .comma, .dot, .star])
    (h : Lexes cs ls) : Lexes (m.name.toList ++ cs) (⟨.mark m, m.name⟩ :: ls) := by
  simp only [List.mem_cons, List.not_mem_nil, or_false] at lone
  rcases lone with rfl | rfl | rfl | rfl | rfl <;> exact .token _ rfl rfl h

theorem Lexes.comma {a b : String} (h : Lexes a.toList ls) (h' : Lexes b.toList ls') :
    Lexes (a ++ ", " ++ b).toList (ls ++ ⟨.mark .comma, ","⟩ :: ls') := by
  have blank : ∀ c ∈ [' '], isBlank c := List.forall_mem_singleton.mpr rfl
  have tail : Lexes (',' :: ([' '] ++ b.toList)) (⟨.mark .comma, ","⟩ :: ls') :=
    .lone .comma (by decide) (h'.front blank)
  rw [String.toList_append, String.toList_append, List.append_assoc]
  exact h.append_delimiter ⟨by decide, by decide⟩ tail

theorem Lexes.parentheses {inner : String} (h : Lexes inner.toList ls) :
    Lexes ("(" ++ inner ++ ")").toList
      (⟨.mark .opening, "("⟩ :: (ls ++ [⟨.mark .closing, ")"⟩])) := by
  have closed : Lexes (inner.toList ++ [')']) (ls ++ [⟨.mark .closing, ")"⟩]) :=
    h.append_delimiter ⟨by decide, by decide⟩ (lexes_mark .closing)
  rw [String.append_assoc, String.toList_append, String.toList_append]
  exact .lone .opening (by decide) closed

theorem ofDigitChars_repr (n : Nat) : Nat.ofDigitChars 10 n.repr.toList 0 = n := by
  rw [Nat.toList_repr, Nat.ofDigitChars_ten_toDigits]

theorem isDigit_of_mem_repr {n : Nat} {c : Char} (h : c ∈ n.repr.toList) : c.isDigit := by
  rw [Nat.toList_repr] at h
  exact Nat.isDigit_of_mem_toDigits (by decide) (by decide) h

theorem takeWhile_isDigit_repr (n : Nat) :
    n.repr.toList.takeWhile Char.isDigit = n.repr.toList ∧
      n.repr.toList.dropWhile Char.isDigit = [] :=
  ⟨List.takeWhile_eq_self_iff.mpr fun _ => isDigit_of_mem_repr,
    List.dropWhile_eq_nil_iff.mpr fun _ => isDigit_of_mem_repr⟩

theorem mark?_eq_none {c : Char} (h : ∀ s ∈ Mark.spellings, s.1.head? ≠ some c) :
    mark? (c :: cs) = none := by
  have nonempty : ∀ s ∈ Mark.spellings, s.1 ≠ [] := by decide
  refine List.findSome?_eq_none_iff.mpr fun ⟨spelling, m⟩ hs => if_neg fun front => ?_
  cases spelling with
  | nil => exact nonempty _ hs rfl
  | cons d spelling =>
    obtain ⟨rfl, -⟩ := List.cons_prefix_cons.mp (List.isPrefixOf_iff_prefix.mp front)
    exact h _ hs rfl

theorem lexes_positional {n : Nat} (pos : 0 < n) (fits : n < UInt64.size) :
    Lexes ("?" ++ n.repr).toList [⟨.positional n, "?" ++ n.repr⟩] := by
  have spelling : ("?" ++ n.repr).toList = '?' :: n.repr.toList := String.toList_append
  have unmarked : mark? ('?' :: n.repr.toList) = none := mark?_eq_none (by decide)
  obtain ⟨digits, nothing⟩ := takeWhile_isDigit_repr n
  have read : positional n.repr.toList = (.token (.positional n), []) := by
    simp only [positional, digits, nothing, ofDigitChars_repr]
    exact if_pos ⟨pos, fits⟩
  refine lexes_token ?_ ?_
  · rw [spelling]
    rfl
  · have unquoted : ¬ ('?' = '\'' ∨ '?' = '"') := by decide
    have unnamed : '?' ≠ ':' := by decide
    rw [spelling, ← read]
    simp only [ofChars, unmarked, unquoted, unnamed, if_false, if_true]

theorem ofChars_of_isDigit {d : Char} (h : d.isDigit) :
    ofChars (d :: cs) = number false (d :: cs) := by
  have others : ∀ s ∈ Mark.spellings, ¬ startsWithDigit s.1 := by decide
  have unmarked : mark? (d :: cs) = none := by
    refine mark?_eq_none fun s hs hd => others s hs ?_
    obtain ⟨rest, hr⟩ := List.head?_eq_some_iff.mp hd
    rw [hr]
    exact h
  have unquoted : ¬ (d = '\'' ∨ d = '"') := by
    rintro (rfl | rfl) <;> exact absurd h (by decide)
  have unnamed : d ≠ ':' := by
    rintro rfl
    exact absurd h (by decide)
  have unnumbered : d ≠ '?' := by
    rintro rfl
    exact absurd h (by decide)
  simp only [ofChars, unmarked, unquoted, unnamed, unnumbered, h, if_false, if_true]

def signed (negative : Bool) (cs : List Char) : List Char := (if negative then ['-'] else []) ++ cs

section Signed

variable {negative : Bool}

theorem ofChars_signed (h : startsWithDigit cs) :
    ofChars (signed negative cs) = number negative cs := by
  cases negative with
  | true =>
    have unmarked : mark? ('-' :: cs) = none := mark?_eq_none (by decide)
    simp [signed, ofChars, unmarked, h]
  | false =>
    cases cs with
    | nil => cases h
    | cons c cs => exact ofChars_of_isDigit h

theorem dropWhile_signed (h : startsWithDigit cs) :
    (signed negative cs).dropWhile isBlank = signed negative cs := by
  cases negative with
  | true => exact List.dropWhile_cons_of_neg (by decide)
  | false =>
    cases cs with
    | nil => cases h
    | cons c cs => exact List.dropWhile_cons_of_neg (not_isBlank_of_isDigit h)

theorem lexes_number {s : String} (spelling : s.toList = signed negative cs)
    (some : startsWithDigit cs) (read : number negative cs = (.token t, [])) :
    Lexes s.toList [⟨t, s⟩] := by
  apply lexes_token
  · rw [spelling, dropWhile_signed some]
  · rw [spelling, ofChars_signed some, read]

end Signed

theorem startsWithDigit_of_forall (some : cs ≠ []) (digits : ∀ c ∈ cs, c.isDigit) :
    startsWithDigit cs := by
  cases cs with
  | nil => exact absurd rfl some
  | cons c cs => exact digits c List.mem_cons_self

theorem startsWithDigit_repr (n : Nat) : startsWithDigit n.repr.toList :=
  startsWithDigit_of_forall (mt String.toList_eq_nil_iff.mp Nat.repr_ne_empty)
    fun _ => isDigit_of_mem_repr

theorem lexes_integer {n : Int} (low : Int64.minValue.toInt ≤ n)
    (high : n ≤ Int64.maxValue.toInt) : Lexes n.repr.toList [⟨.integer n, n.repr⟩] := by
  have spelling : n.repr.toList = signed (n < 0) n.natAbs.repr.toList := by
    cases n with
    | ofNat n => rfl
    | negSucc n =>
      rw [decide_eq_true (Int.negSucc_lt_zero n)]
      exact String.toList_append
  have value : (if n < 0 then -(n.natAbs : Int) else n.natAbs) = n := by omega
  have read : ofInteger (n < 0) n.natAbs.repr.toList = .token (.integer n) := by
    simp only [ofInteger, ofDigitChars_repr, decide_eq_true_eq, value]
    exact if_pos ⟨low, high⟩
  apply lexes_number spelling (startsWithDigit_repr n.natAbs)
  rw [number_integer fun _ => isDigit_of_mem_repr, read]

end QueryTree
