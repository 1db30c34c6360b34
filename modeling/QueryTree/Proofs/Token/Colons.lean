import QueryTree.Binding.Style
import QueryTree.Proofs.Grammar.Placeholders
import QueryTree.Proofs.Token.Layout
import QueryTree.Proofs.Token.Quoting

/-! # Colons

In a text without errors a colon stands at the front of a named parameter or within a string. So
the style of such a text is that of its parameters, unless a string has a colon that looks like one.
-/

namespace QueryTree

open Text Lexed

variable {c : Char} {cs a b used rest : List Char} {t : Token} {ls : List Lexeme}

section Marks

theorem marksName_cons (c : Char) (cs : List Char) :
    marksName (c :: cs) = (c == ':' && !startsWithDigit cs || marksName cs) := by
  cases cs <;> simp [marksName, startsWithDigit]

theorem marksName_cons_of_ne (hc : c ≠ ':') : marksName (c :: cs) = marksName cs := by
  rw [marksName_cons, beq_false_of_ne hc, Bool.false_and, Bool.false_or]

theorem marksName_iff :
    marksName cs ↔ ∃ before after, cs = before ++ ':' :: after ∧ ¬ startsWithDigit after := by
  induction cs with
  | nil => simp [marksName]
  | cons c cs ih =>
    simp only [marksName_cons, Bool.or_eq_true, Bool.and_eq_true, beq_iff_eq, Bool.not_eq_true', ih]
    constructor
    · rintro (⟨rfl, alone⟩ | ⟨before, after, rfl, alone⟩)
      · exact ⟨[], cs, rfl, Bool.not_eq_true _ ▸ alone⟩
      · exact ⟨c :: before, after, rfl, alone⟩
    · rintro ⟨before, after, split, alone⟩
      cases before with
      | nil =>
        obtain ⟨rfl, rfl⟩ := List.cons.inj split
        exact .inl ⟨rfl, Bool.not_eq_true _ ▸ alone⟩
      | cons d before =>
        obtain ⟨rfl, rfl⟩ := List.cons.inj split
        exact .inr ⟨before, after, rfl, alone⟩

theorem not_marksName (free : ':' ∉ cs) : ¬ marksName cs := by
  rw [marksName_iff]
  rintro ⟨before, after, rfl, -⟩
  exact free (List.mem_append_right _ List.mem_cons_self)

/-- The front of a text can be judged alone, unless it ends in a colon. -/
theorem marksName_append (h : a.getLast? ≠ some ':') :
    marksName (a ++ b) = (marksName a || marksName b) := by
  induction a with
  | nil => rfl
  | cons c a ih =>
    cases a with
    | nil =>
      have other : c ≠ ':' := by simpa using h
      rw [List.singleton_append, marksName_cons_of_ne other, marksName_cons_of_ne other]
      rfl
    | cons d a =>
      rw [List.cons_append, marksName_cons, ih (getLast?_ne_of_cons h), marksName_cons c,
        Bool.or_assoc]
      rfl

theorem marksName_iff_of_getLast? (h : cs.getLast? ≠ some ':') :
    marksName cs ↔ ∃ before c after, cs = before ++ ':' :: c :: after ∧ ¬ c.isDigit := by
  rw [marksName_iff]
  constructor
  · rintro ⟨before, after, rfl, alone⟩
    cases after with
    | nil => exact absurd List.getLast?_concat h
    | cons c after => exact ⟨before, c, after, rfl, alone⟩
  · rintro ⟨before, c, after, rfl, alone⟩
    exact ⟨before, c :: after, rfl, alone⟩

end Marks

section Front

theorem digits_of_number {negative : Bool} {o : Lexed} (h : number negative cs = (o, [])) :
    ∀ c ∈ cs, c.isDigit ∨ c = '.' := by
  have split := List.takeWhile_append_dropWhile (p := Char.isDigit) (l := cs)
  have whole : ∀ c ∈ cs.takeWhile Char.isDigit, c.isDigit := fun c => List.mem_takeWhile_imp
  intro c mem
  rw [← split, List.mem_append] at mem
  rcases mem with digit | mem
  · exact .inl (whole c digit)
  · simp only [number] at h
    split at h
    · next more point =>
      split at h
      · have fraction := List.dropWhile_eq_nil_iff.mp (Prod.mk.inj h).2
        rw [point] at mem
        rcases List.mem_cons.mp mem with rfl | mem
        · exact .inr rfl
        · exact .inl (fraction c mem)
      · rw [(Prod.mk.inj h).2] at mem
        cases mem
    · rw [(Prod.mk.inj h).2] at mem
      cases mem

theorem token_of_colon (h : ofChars used = (.token t, [])) (colon : ':' ∈ used) :
    (∃ name, t = .named name) ∨ ∃ s, t = .string s := by
  cases origin_of_ofChars h with
  | mark same =>
    have free : ∀ s ∈ Mark.spellings, ':' ∉ s.1 := by decide
    rw [same, ← List.append_nil used] at h
    exact absurd colon (free _ (spelling_of_ofChars h))
  | quoted _ same => exact .inr ⟨_, same⟩
  | named _ _ same => exact .inl ⟨_, same⟩
  | positional split _ _ left =>
    subst split
    have digits := List.dropWhile_eq_nil_iff.mp left.symm
    exact absurd (digits _ (List.mem_of_ne_of_mem (by decide) colon)) (by decide)
  | number split signs read =>
    subst split
    rcases List.mem_append.mp colon with sign | digit
    · exact absurd (signs _ sign) (by decide)
    · exact absurd (digits_of_number read _ digit) (by decide)
  | word split _ _ left =>
    subst split
    have word := List.dropWhile_eq_nil_iff.mp left.symm
    exact absurd (word _ colon) (by decide)

theorem spelling_of_named {name : String} (h : ofChars used = (.token (.named name), [])) :
    ∃ c word, used = ':' :: c :: word ∧ isWordStart c ∧ ∀ d ∈ c :: word, isWordChar d := by
  cases origin_of_ofChars h with
  | mark same => cases same
  | quoted _ same => cases same
  | named split start _ left =>
    exact ⟨_, _, split, start, List.dropWhile_eq_nil_iff.mp left.symm⟩
  | positional _ same => cases same
  | number _ _ read =>
    rcases token_of_number (congrArg Prod.fst read) with ⟨_, same⟩ | ⟨_, same⟩ <;> cases same
  | word _ _ same =>
    have word : (Token.named name).isWord := same ▸ isWord_ofWord _
    cases word

/-- A named parameter, or a string spelled with a colon that no digit follows. -/
def Lexeme.MarksName (l : Lexeme) : Prop :=
  (∃ name, l.token = .named name) ∨
    (∃ s, l.token = .string s) ∧
      ∃ before c after, l.text.toList = before ++ ':' :: c :: after ∧ ¬ c.isDigit

/-- How a token is spelled tells whether its colons mark a name, whatever follows it. -/
theorem marksName_spelling (h : ofChars used = (.token t, [])) :
    used.getLast? ≠ some ':' ∧ (marksName used ↔ Lexeme.MarksName ⟨t, String.ofList used⟩) := by
  have last : used.getLast? ≠ some ':' := by
    intro last
    rcases token_of_colon h (List.mem_of_getLast? last) with ⟨name, rfl⟩ | ⟨s, rfl⟩
    · obtain ⟨c, word, rfl, -, inside⟩ := spelling_of_named h
      rw [List.getLast?_cons_cons] at last
      exact absurd (inside _ (List.mem_of_getLast? last)) (by decide)
    · obtain ⟨quote, kind, rfl, -⟩ := ofChars_eq_string_iff.mp h
      rw [List.append_nil, enclosed, ← List.cons_append, List.getLast?_concat] at last
      rcases kind with rfl | rfl <;> cases last
  rw [Lexeme.MarksName, String.toList_ofList]
  refine ⟨last, fun marks => ?_, ?_⟩
  · have marked := (marksName_iff_of_getLast? last).mp marks
    have colon : ':' ∈ used := by
      by_contra free
      exact not_marksName free marks
    exact (token_of_colon h colon).imp_right fun string => ⟨string, marked⟩
  · rintro (⟨name, rfl⟩ | ⟨-, marked⟩)
    · obtain ⟨c, word, rfl, start, -⟩ := spelling_of_named h
      exact (marksName_iff_of_getLast? last).mpr
        ⟨[], c, word, rfl, not_isDigit_of_isWordStart start⟩
    · exact (marksName_iff_of_getLast? last).mpr marked

end Front

/-- The names in a text without errors are marked by its tokens. -/
theorem Lexes.marksName_iff (h : Lexes cs ls) : marksName cs ↔ ∃ l ∈ ls, l.MarksName := by
  have colonless {blanks : List Char} (blank : ∀ c ∈ blanks, isBlank c) : ':' ∉ blanks :=
    fun colon => absurd (blank _ colon) (by decide)
  induction h with
  | blank skipped =>
    have free := colonless (List.dropWhile_eq_nil_iff.mp skipped)
    simp [not_marksName free]
  | @cons cs t used rest ls skipped read _ ih =>
    have free : ':' ∉ cs.takeWhile isBlank := colonless fun c => List.mem_takeWhile_imp
    have last : (cs.takeWhile isBlank).getLast? ≠ some ':' :=
      fun last => free (List.mem_of_getLast? last)
    obtain ⟨last', marks⟩ := marksName_spelling (ofChars_of_append read)
    rw [← List.takeWhile_append_dropWhile (p := isBlank) (l := cs), skipped, marksName_append last,
      Bool.eq_false_iff.mpr (not_marksName free), Bool.false_or, marksName_append last',
      Bool.or_eq_true]
    simp only [marks, ih, List.mem_cons, exists_eq_or_imp]

theorem ofText_eq_named_iff {text : String} (read : lexemes text = .ok ls) :
    BindStyle.ofText text = .named ↔
      (∃ name, .named name ∈ ls.map Lexeme.token) ∨
        ∃ l ∈ ls, (∃ s, l.token = .string s) ∧
          ∃ before c after, l.text.toList = before ++ ':' :: c :: after ∧ ¬ c.isDigit := by
  have style : BindStyle.ofText text = .named ↔ marksName text.toList := by
    unfold BindStyle.ofText
    split_ifs with marks <;> simp [marks]
  have names : (∃ name, .named name ∈ ls.map Lexeme.token) ↔
      ∃ l ∈ ls, ∃ name, l.token = .named name := by
    simp only [List.mem_map]
    exact ⟨fun ⟨name, l, mem, same⟩ => ⟨l, mem, name, same⟩,
      fun ⟨l, mem, name, same⟩ => ⟨name, l, mem, same⟩⟩
  rw [style, (lexemes_eq_ok_iff_lexes.mp read).marksName_iff, names]
  simp only [Lexeme.MarksName, and_or_left, exists_or]

theorem Token.eq_named_of_param? {name : String} (h : t.param? = some (.named name)) :
    t = .named name := by
  unfold param? at h
  split at h
  · cases h
    rfl
  · cases h
  · cases h

/-- A text without errors has the style of names exactly if it has a named parameter or a string
that is spelled with a colon which no digit follows. So it has that style if its statement has a
named placeholder, and without strings in no other case. -/
theorem style_agrees_with_tokens (text : String) :
    (∀ ls, lexemes text = .ok ls →
      (BindStyle.ofText text = .named ↔
        (∃ name, .named name ∈ ls.map Lexeme.token) ∨
          ∃ l ∈ ls, (∃ s, l.token = .string s) ∧
            ∃ before c after, l.text.toList = before ++ ':' :: c :: after ∧ ¬ c.isDigit)) ∧
    (∀ fallback s name, parse text fallback = .ok s → .named name ∈ s.params →
      BindStyle.ofText text = .named) ∧
    ∀ ts, tokenize text = .ok ts → (∀ s, .string s ∉ ts) → BindStyle.ofText text = .named →
      ∃ name, .named name ∈ ts := by
  refine ⟨fun ls read => ofText_eq_named_iff read, fun fallback s name parsed mem => ?_,
    fun ts read free style => ?_⟩
  · obtain ⟨ls, read, sentence⟩ := parse_eq_ok_iff.mp parsed
    rw [← sentence.placeholders_eq] at mem
    obtain ⟨l, mem, stands⟩ := List.mem_filterMap.mp mem
    have marks := List.mem_map.mpr ⟨l, mem, Token.eq_named_of_param? stands⟩
    exact (ofText_eq_named_iff read).mpr (.inl ⟨name, marks⟩)
  · obtain ⟨ls, lexed, rfl⟩ := Except.map_eq_ok_iff.mp read
    rcases (ofText_eq_named_iff lexed).mp style with named | ⟨l, mem, ⟨s, same⟩, -⟩
    · exact named
    · exact absurd (List.mem_map.mpr ⟨l, mem, same⟩) (free s)

/-- A colon before the closing quote counts, as does a placeholder, but no number of one. -/
theorem style_agrees_with_tokens_quoted :
    BindStyle.ofText "at = '10:' OR at = '10:30'" = .named ∧
      BindStyle.ofText "DELETE FROM Person WHERE at = :at" = .named ∧
      BindStyle.ofText "at = ?1" ≠ .named := by
  refine ⟨?_, ?_, fun style => ?_⟩
  · have read : lexemes "at = '10:' OR at = '10:30'" = .ok
        [⟨.identifier "at", "at"⟩, ⟨.mark .equal, "="⟩, ⟨.string "10:", "'10:'"⟩,
          ⟨.keyword .or, "OR"⟩, ⟨.identifier "at", "at"⟩, ⟨.mark .equal, "="⟩,
          ⟨.string "10:30", "'10:30'"⟩] := by
      decide +kernel
    refine ((style_agrees_with_tokens _).1 _ read).mpr (.inr ⟨⟨.string "10:", "'10:'"⟩, ?_, ?_⟩)
    · decide
    · exact ⟨⟨_, rfl⟩, ['\'', '1', '0'], '\'', [], rfl, by decide⟩
  · have params : (parse "DELETE FROM Person WHERE at = :at" none).map Statement.params =
        .ok [.named "at"] := by
      decide +kernel
    obtain ⟨s, parsed, same⟩ := Except.map_eq_ok_iff.mp params
    refine (style_agrees_with_tokens _).2.1 none s "at" parsed ?_
    rw [same]
    exact List.mem_cons_self
  · have read : tokenize "at = ?1" =
        .ok [.identifier "at", .mark .equal, .positional 1] := by
      decide +kernel
    obtain ⟨name, mem⟩ := (style_agrees_with_tokens _).2.2 _ read (by simp) style
    simp at mem

end QueryTree
