import QueryTree.Proofs.Token.Spellable

/-! # Tokens written out and read again

The tokens of a text, in their standard spelling and with a space between them, are a text with the
same tokens. The only exceptions are decimals that have lost all digits after the point, and these
end in an error.
-/

namespace QueryTree

open Text Lexed Cursor

/-- The tokens in their standard spelling, with a space between them. -/
def written (ts : List Token) : String := " ".intercalate (ts.map Token.fragment)

variable {cs more : List Char} {ls : List Lexeme} {t : Token} {ts : List Token} {d : Decimal}

section Continued

theorem events_congr {c c' : Cursor} (h : c.scan = c'.scan) : c.events = c'.events := by
  rcases c.events_cases with ⟨outcome, met⟩ | ⟨t, outcome, met⟩ | ⟨f, outcome, met⟩
  · rw [h] at outcome
    rw [met, events_of_finished outcome]
  · rw [h] at outcome met
    rw [met, events_of_token outcome]
  · rw [h] at outcome met
    rw [met, events_of_fault outcome]

theorem Lexes.events_append {b : Char} (hb : isBlank b) (h : Lexes cs ls) (p : Nat) :
    ∃ p', (Cursor.mk (cs ++ b :: more) p).events =
      ls.map .lexeme ++ (Cursor.mk more p').events := by
  induction h generalizing p with
  | @blank cs skipped =>
    have blank : ∀ c ∈ cs ++ [b], isBlank c :=
      List.forall_mem_append.mpr ⟨List.dropWhile_eq_nil_iff.mp skipped, by simpa using hb⟩
    refine ⟨p + (cs ++ [b]).length, events_congr ?_⟩
    rw [← scan_append_blanks blank, List.append_assoc]
    rfl
  | @cons cs t used rest ls skipped read _ ih =>
    have body : (cs ++ b :: more).dropWhile isBlank = used ++ (rest ++ b :: more) := by
      rw [List.dropWhile_append, skipped]
      simp [ne_nil_of_ofChars read]
    have read : ofChars (used ++ (rest ++ b :: more)) = (.token t, rest ++ b :: more) := by
      rw [← List.append_assoc]
      exact ofChars_append_delimiter (delimits_of_isBlank hb) read
    have outcome : (Cursor.mk (cs ++ b :: more) p).scan.outcome = .token t := by
      rw [scan_outcome, body, read]
    have next : (Cursor.mk (cs ++ b :: more) p).scan.next.rest = rest ++ b :: more := by
      rw [scan_next_rest, body, read]
    obtain ⟨p', later⟩ := ih (Cursor.mk (cs ++ b :: more) p).scan.next.position
    refine ⟨p', ?_⟩
    rw [events_of_token outcome, scan_text body (by rw [read]), List.map_cons, List.cons_append,
      ← later, ← next]

end Continued

section Written

theorem written_cons (some : ts ≠ []) : written (t :: ts) = t.fragment ++ " " ++ written ts := by
  rw [written, List.map_cons, String.intercalate_cons_of_ne_nil (mt List.map_eq_nil_iff.mp some)]
  rfl

theorem lexes_written (spellable : ∀ t ∈ ts, t.Spellable)
    (scaled : ∀ d, .decimal d ∈ ts → d.scale ≠ 0) :
    Lexes (written ts).toList (ts.map fun t => ⟨t, t.fragment⟩) := by
  induction ts with
  | nil => exact .blank rfl
  | cons t ts ih =>
    obtain ⟨first, others⟩ := List.forall_mem_cons.mp spellable
    have head := lexes_fragment first fun d same => scaled d (same ▸ List.mem_cons_self)
    have tail := ih others fun d mem => scaled d (List.mem_cons_of_mem _ mem)
    by_cases some : ts = []
    · subst some
      simpa [written] using head
    · rw [written_cons some]
      exact head.spaced tail

theorem events_decimal {tail : List Char} (h : (Token.decimal d).Spellable) (scale : d.scale = 0)
    (apart : tail = [] ∨ ∃ more, tail = ' ' :: more) (p : Nat) :
    ∃ position rest, (Cursor.mk (d.render.toList ++ tail) p).events =
      .error ⟨.invalidNumber d.render, position⟩ :: rest := by
  have spelling : d.render.toList ++ tail = signed d.negative (d.digits ++ tail) := by
    rw [render_of_scale scale, signed, List.append_assoc]
    rfl
  have some : startsWithDigit (d.digits ++ tail) :=
    startsWithDigit_append (startsWithDigit_digits d)
  have read : (number d.negative (d.digits ++ tail)).1 = .fault (.invalidNumber d.render) := by
    rcases apart with rfl | ⟨more, rfl⟩
    · rw [List.append_nil, number_digits h scale]
    · rw [number_append_delimiter (delimits_of_isBlank (by decide)), number_digits h scale]
  have fault : (Cursor.mk (d.render.toList ++ tail) p).scan.outcome =
      .fault (.invalidNumber d.render) := by
    rw [scan_outcome, spelling, dropWhile_signed some, ofChars_signed some, read]
  exact ⟨_, _, events_of_fault fault⟩

theorem written_append (t : Token) (ts : List Token) :
    ∃ tail, (written (t :: ts)).toList = t.fragment.toList ++ tail ∧
      (tail = [] ∨ ∃ more, tail = ' ' :: more) := by
  by_cases some : ts = []
  · subst some
    exact ⟨[], by simp [written], .inl rfl⟩
  · refine ⟨' ' :: (written ts).toList, ?_, .inr ⟨_, rfl⟩⟩
    rw [written_cons some, String.toList_append, String.toList_append, List.append_assoc]
    rfl

/-- The first decimal that has lost its digits after the point is the first error. -/
theorem events_written (spellable : ∀ t ∈ ts, t.Spellable)
    (rounded : ∃ d, .decimal d ∈ ts ∧ d.scale = 0) (p : Nat) :
    ∃ (ls : List Lexeme) (d : Decimal) (position : Nat) (rest : List Event),
      .decimal d ∈ ts ∧ d.scale = 0 ∧ (Cursor.mk (written ts).toList p).events =
        ls.map .lexeme ++ .error ⟨.invalidNumber d.render, position⟩ :: rest := by
  -- Tokens before the first such decimal are read as themselves, at whatever place they start.
  induction ts generalizing p with
  | nil =>
    obtain ⟨d, mem, -⟩ := rounded
    cases mem
  | cons t ts ih =>
    obtain ⟨first, others⟩ := List.forall_mem_cons.mp spellable
    by_cases here : ∃ d, t = .decimal d ∧ d.scale = 0
    · obtain ⟨d, rfl, scale⟩ := here
      obtain ⟨tail, spelling, apart⟩ := written_append (.decimal d) ts
      obtain ⟨position, rest, met⟩ := events_decimal first scale apart p
      exact ⟨[], d, position, rest, List.mem_cons_self, scale, by rw [spelling]; exact met⟩
    · have later : ∃ d, .decimal d ∈ ts ∧ d.scale = 0 := by
        obtain ⟨d, mem, scale⟩ := rounded
        rcases List.mem_cons.mp mem with same | mem
        · exact absurd ⟨d, same.symm, scale⟩ here
        · exact ⟨d, mem, scale⟩
      have some : ts ≠ [] := by
        rintro rfl
        obtain ⟨d, mem, -⟩ := later
        cases mem
      have head := lexes_fragment first fun d same scale => here ⟨d, same, scale⟩
      obtain ⟨p', met⟩ : ∃ p',
          (Cursor.mk (t.fragment.toList ++ ' ' :: (written ts).toList) p).events =
            .lexeme ⟨t, t.fragment⟩ :: (Cursor.mk (written ts).toList p').events :=
        head.events_append (by decide) p
      obtain ⟨ls, d, position, rest, mem, scale, met'⟩ := ih others later p'
      refine ⟨⟨t, t.fragment⟩ :: ls, d, position, rest, List.mem_cons_of_mem _ mem, scale, ?_⟩
      rw [written_cons some, String.toList_append, String.toList_append, List.append_assoc]
      exact met.trans (congrArg _ met')

end Written

/-- Written out and read again, the tokens of a text are the same tokens. If decimals among them
have lost all digits after the point, then reading ends at one of them. -/
theorem tokenize_written (text : String) (ts : List Token) (read : tokenize text = .ok ts) :
    ((∀ d, .decimal d ∈ ts → d.scale ≠ 0) → tokenize (written ts) = .ok ts) ∧
      ((∃ d, .decimal d ∈ ts ∧ d.scale = 0) → ∃ d position, .decimal d ∈ ts ∧ d.scale = 0 ∧
        tokenize (written ts) = .error ⟨.invalidNumber d.render, position⟩) := by
  have spellable : ∀ t ∈ ts, t.Spellable := by
    obtain ⟨ls, lexed, rfl⟩ := tokenize_eq_ok_iff.mp read
    exact List.forall_mem_map.mpr fun l mem => lexed.spellable mem
  constructor
  · intro scaled
    refine tokenize_eq_ok_iff.mpr ⟨_, lexes_written spellable scaled, ?_⟩
    rw [List.map_map]
    exact List.map_id ts
  · intro rounded
    obtain ⟨ls, d, position, rest, mem, scale, met⟩ := events_written spellable rounded 0
    refine ⟨d, position, mem, scale, ?_⟩
    rw [tokenize, lexemes_of_error met]
    rfl

theorem tokenize_written_literals :
    tokenize "a <> 'it''s' :n ?7 -1.50 NULL" = tokenize "a!=\"it's\":n?007 -1.50null" ∧
      ∃ d position, tokenize "a 79228162514264337593543950335 -0.5" =
        .error ⟨.invalidNumber (Decimal.render d), position⟩ := by
  constructor
  · have read : tokenize "a!=\"it's\":n?007 -1.50null" = .ok [.identifier "a", .mark .notEqual,
        .string "it's", .named "n", .positional 7,
        .decimal ⟨true, 150, 2, by decide, by decide, by decide⟩, .null] := by
      decide +kernel
    rw [read]
    exact (tokenize_written _ _ read).1 (by simp)
  · have read : tokenize "a 79228162514264337593543950335.04 -0.5" = .ok [.identifier "a",
        .decimal ⟨false, 79228162514264337593543950335, 0, by decide, by decide, by decide⟩,
        .decimal ⟨true, 5, 1, by decide, by decide, by decide⟩] := by
      decide +kernel
    obtain ⟨d, position, -, -, fault⟩ := (tokenize_written _ _ read).2
      ⟨_, List.mem_cons_of_mem _ List.mem_cons_self, rfl⟩
    exact ⟨d, position, fault⟩

end QueryTree
