import Mathlib.Data.List.TakeWhile
import QueryTree.Token.Scan

/-! # The token at the front of a text

What follows a token does not belong to it. So a token is read just as well at the end of a text,
and a delimiter after a text, such as a blank, leaves its first token as it is.
-/

namespace QueryTree

open Text Lexed

variable {cs more used rest body : List Char} {t : Token}

section Quoted

variable {quote : Char} {content : List Char}

theorem unquote?_cons {c : Char} (hc : c ≠ quote) :
    unquote? quote (c :: cs) = (unquote? quote cs).map fun (text, after) => (c :: text, after) := by
  cases cs <;> simp [unquote?, hc]

/-- A quoted text ends at a quote with no quote after it. -/
theorem unquote?_eq_some_iff :
    unquote? quote cs = some (content, rest) ↔
      cs = doubled quote content ++ quote :: rest ∧ rest.head? ≠ some quote := by
  constructor
  · intro h
    fun_induction unquote? quote cs generalizing content rest with
    | case1 => cases h
    | case2 =>
      cases h
      exact ⟨rfl, by simp⟩
    | case3 => cases h
    | case4 r ih =>
      obtain ⟨⟨inner, after⟩, hr, same⟩ := Option.map_eq_some_iff.mp h
      cases same
      obtain ⟨rfl, alone⟩ := ih hr
      exact ⟨by simp [doubled], alone⟩
    | case5 d r hd =>
      cases h
      exact ⟨rfl, by simpa using hd⟩
    | case6 c d r hc ih =>
      obtain ⟨⟨inner, after⟩, hr, same⟩ := Option.map_eq_some_iff.mp h
      cases same
      obtain ⟨split, alone⟩ := ih hr
      exact ⟨by simp [doubled, hc, split], alone⟩
  · rintro ⟨rfl, alone⟩
    induction content with
    | nil =>
      cases rest with
      | nil => simp [doubled, unquote?]
      | cons d r =>
        have hd : d ≠ quote := by simpa using alone
        simp [doubled, unquote?, hd]
    | cons c content ih =>
      by_cases hc : c = quote
      · subst hc
        simp [doubled, unquote?, ih]
      · rw [doubled, if_neg hc, List.cons_append, unquote?_cons hc, ih]
        rfl

theorem text_eq_token_iff :
    text quote cs = (.token t, rest) ↔
      ∃ content, t = .string (String.ofList content) ∧
        cs = doubled quote content ++ quote :: rest ∧ rest.head? ≠ some quote := by
  simp only [← unquote?_eq_some_iff]
  unfold text
  cases closed : unquote? quote cs with
  | none => simp
  | some found =>
    obtain ⟨content, after⟩ := found
    simp only [Prod.mk.injEq, token.injEq, Option.some.injEq]
    grind

end Quoted

section Kinds

def Token.isWord : Token → Bool
  | identifier _ | keyword _ | boolean _ | null => true
  | _ => false

/-- Neither the end nor a mark nor a word nor an error that recurs. -/
def Lexed.isPlain : Lexed → Bool
  | finished | token (.mark _) => false
  | token t => !t.isWord
  | fault f => !f.recurs

theorem isPlain_text (quote : Char) (cs : List Char) : (text quote cs).1.isPlain := by
  unfold text
  split <;> rfl

theorem isPlain_named (cs : List Char) : (named cs).1.isPlain := by
  unfold named
  split
  · rfl
  · split <;> rfl

theorem isPlain_positional (cs : List Char) : (positional cs).1.isPlain := by
  simp only [positional]
  split <;> rfl

theorem isPlain_number (negative : Bool) (cs : List Char) : (number negative cs).1.isPlain := by
  have integer (digits : List Char) : (ofInteger negative digits).isPlain := by
    simp only [ofInteger]
    split_ifs <;> rfl
  have decimal (whole fraction : List Char) : (ofDecimal negative whole fraction).isPlain := by
    unfold ofDecimal
    split <;> rfl
  simp only [number]
  split
  · split
    · exact decimal _ _
    · exact integer _
  · exact integer _

theorem token_of_number {negative : Bool} (h : (number negative cs).1 = .token t) :
    (∃ n, t = .integer n) ∨ ∃ d, t = .decimal d := by
  have integer {digits : List Char} (read : ofInteger negative digits = .token t) :
      ∃ n, t = .integer n := by
    simp only [ofInteger] at read
    split_ifs at read <;> exact ⟨_, (token.inj read).symm⟩
  have decimal {whole fraction : List Char}
      (read : ofDecimal negative whole fraction = .token t) : ∃ d, t = .decimal d := by
    unfold ofDecimal at read
    split at read
    · exact ⟨_, (token.inj read).symm⟩
    · cases read
  simp only [number] at h
  split at h
  · split at h
    · exact .inr (decimal h)
    · exact .inl (integer h)
  · exact .inl (integer h)

theorem mem_reserved_of_ofReserved? {word : String} (h : Token.ofReserved? word = some t) :
    (Token.foldCase word, t) ∈ Token.reserved := by
  obtain ⟨before, after, split, -⟩ := List.lookup_eq_some_iff.mp h
  exact split ▸ List.mem_append_cons_self

theorem isWord_ofWord (word : String) : (Token.ofWord word).isWord := by
  have reserved : ∀ e ∈ Token.reserved, e.2.isWord := by decide
  unfold Token.ofWord
  cases h : Token.ofReserved? word with
  | none => rfl
  | some t => exact reserved _ (mem_reserved_of_ofReserved? h)

theorem ofWord_eq_identifier {word name : String} (h : Token.ofWord word = .identifier name) :
    Token.ofReserved? word = none ∧ name = word := by
  have reserved : ∀ e ∈ Token.reserved, ¬ e.2.isIdentifier := by decide
  unfold Token.ofWord at h
  cases found : Token.ofReserved? word with
  | none =>
    rw [found] at h
    exact ⟨rfl, (Token.identifier.inj h).symm⟩
  | some t =>
    rw [found] at h
    obtain rfl : t = .identifier name := h
    exact absurd rfl (reserved _ (mem_reserved_of_ofReserved? found))

/-- What a token has been read from, and what is left of it. -/
inductive Origin (body : List Char) (t : Token) (rest : List Char) : Prop
  | mark {m : Mark} (same : t = .mark m) (marked : mark? body = some (m, rest))
  | quoted {quote : Char} {content : List Char} (kind : quote = '\'' ∨ quote = '"')
      (same : t = .string (String.ofList content))
      (split : body = quote :: (doubled quote content ++ quote :: rest))
      (alone : rest.head? ≠ some quote)
  | named {c : Char} {cs : List Char} (split : body = ':' :: c :: cs) (start : isWordStart c)
      (same : t = .named (String.ofList ((c :: cs).takeWhile isWordChar)))
      (left : rest = (c :: cs).dropWhile isWordChar)
  | positional {cs : List Char} {n : Nat} (split : body = '?' :: cs) (same : t = .positional n)
      (fits : 0 < n ∧ n < UInt64.size) (left : rest = cs.dropWhile Char.isDigit)
  | number {sign cs : List Char} {negative : Bool} (split : body = sign ++ cs)
      (signs : ∀ c ∈ sign, c = '-' ∨ c = '+') (read : number negative cs = (token t, rest))
  | word {c : Char} {cs : List Char} (split : body = c :: cs) (start : isWordStart c)
      (same : t = .ofWord (String.ofList ((c :: cs).takeWhile isWordChar)))
      (left : rest = (c :: cs).dropWhile isWordChar)

theorem origin_of_ofChars (h : ofChars body = (.token t, rest)) : Origin body t rest := by
  cases body with
  | nil => cases h
  | cons c cs =>
    cases marked : mark? (c :: cs) with
    | some found =>
      simp only [ofChars, marked, Prod.mk.injEq, token.injEq] at h
      exact .mark h.1.symm (h.2 ▸ marked)
    | none =>
      simp only [ofChars, marked] at h
      split_ifs at h with quote colon question digit sign start
      · obtain ⟨content, same, rfl, alone⟩ := text_eq_token_iff.mp h
        exact .quoted quote same rfl alone
      · subst colon
        unfold Lexed.named at h
        split at h
        · cases h
        · next d word =>
          split at h
          · next start =>
            obtain ⟨same, left⟩ := Prod.mk.inj h
            exact .named rfl start (token.inj same).symm left.symm
          · cases h
      · subst question
        simp only [Lexed.positional] at h
        split at h
        · next fits =>
          obtain ⟨same, left⟩ := Prod.mk.inj h
          exact .positional rfl (token.inj same).symm fits left.symm
        · cases h
      · exact .number rfl (List.forall_mem_nil _) h
      · exact .number rfl (List.forall_mem_singleton.mpr sign.1) h
      · obtain ⟨same, left⟩ := Prod.mk.inj h
        exact .word rfl start (token.inj same).symm left.symm
      · cases h

/-- What starts with no mark is something plain or a word, or its first character is unexpected. -/
theorem ofChars_cons_cases {c : Char} (h : mark? (c :: cs) = none) :
    (ofChars (c :: cs)).1.isPlain ∨
      (isWordStart c ∧
        ofChars (c :: cs) = (token (.ofWord (String.ofList ((c :: cs).takeWhile isWordChar))),
          (c :: cs).dropWhile isWordChar)) ∨
      ofChars (c :: cs) = (fault (.unexpectedChar c), c :: cs) := by
  simp only [ofChars, h]
  split_ifs with _ _ _ _ _ start
  · exact .inl (isPlain_text _ _)
  · exact .inl (isPlain_named _)
  · exact .inl (isPlain_positional _)
  · exact .inl (isPlain_number _ _)
  · exact .inl (isPlain_number _ _)
  · exact .inr (.inl ⟨start, rfl⟩)
  · exact .inr (.inr rfl)

theorem ofChars_eq_finished (h : (ofChars body).1 = .finished) : body = [] := by
  cases body with
  | nil => rfl
  | cons c cs =>
    cases marked : mark? (c :: cs) with
    | none =>
      rcases ofChars_cons_cases marked with plain | ⟨-, word⟩ | unexpected
      · rw [h] at plain
        cases plain
      · rw [word] at h
        cases h
      · rw [unexpected] at h
        cases h
    | some found => simp [ofChars, marked] at h

theorem mark?_of_ofChars {m : Mark} (h : ofChars body = (.token (.mark m), rest)) :
    mark? body = some (m, rest) := by
  cases origin_of_ofChars h with
  | mark same marked =>
    obtain rfl := Token.mark.inj same
    exact marked
  | quoted _ same => cases same
  | named _ _ same => cases same
  | positional _ same => cases same
  | number _ _ read =>
    rcases token_of_number (congrArg Prod.fst read) with ⟨_, same⟩ | ⟨_, same⟩ <;> cases same
  | word _ _ same =>
    have word : (Token.mark m).isWord := same ▸ isWord_ofWord _
    cases word

/-- A word is read up to the first character that is not part of one. -/
theorem word_of_ofChars (h : ofChars body = (.token t, rest)) (word : t.isWord) :
    (∃ c cs, body = c :: cs ∧ isWordStart c) ∧
      t = .ofWord (String.ofList (body.takeWhile isWordChar)) ∧
      rest = body.dropWhile isWordChar := by
  cases origin_of_ofChars h with
  | mark same =>
    subst same
    cases word
  | quoted _ same =>
    subst same
    cases word
  | named _ _ same =>
    subst same
    cases word
  | positional _ same =>
    subst same
    cases word
  | number _ _ read =>
    rcases token_of_number (congrArg Prod.fst read) with ⟨_, rfl⟩ | ⟨_, rfl⟩ <;> cases word
  | word split start same left =>
    subst split
    exact ⟨⟨_, _, rfl, start⟩, same, left⟩

/-- What is read as a word are all characters that may be part of it. -/
theorem takeWhile_of_ofChars (h : ofChars (used ++ rest) = (.token t, rest)) (word : t.isWord) :
    (used ++ rest).takeWhile isWordChar = used := by
  obtain ⟨-, -, left⟩ := word_of_ofChars h word
  have split := List.takeWhile_append_dropWhile (p := isWordChar) (l := used ++ rest)
  rw [← left] at split
  exact List.append_cancel_right split

theorem eq_ofWord_of_ofChars (h : ofChars (used ++ rest) = (.token t, rest)) (word : t.isWord) :
    t = .ofWord (String.ofList used) := by
  obtain ⟨-, token, -⟩ := word_of_ofChars h word
  rwa [takeWhile_of_ofChars h word] at token

theorem ofChars_of_recurs {f : LexFault} (h : (ofChars body).1 = .fault f) (recurs : f.recurs) :
    (ofChars body).2 = body := by
  cases body with
  | nil => cases h
  | cons c cs =>
    cases marked : mark? (c :: cs) with
    | none =>
      rcases ofChars_cons_cases marked with plain | ⟨-, word⟩ | unexpected
      · rw [h] at plain
        simp [Lexed.isPlain, recurs] at plain
      · rw [word] at h
        cases h
      · rw [unexpected]
    | some found => simp [ofChars, marked] at h

theorem ne_nil_of_ofChars (h : ofChars (used ++ rest) = (.token t, rest)) : used ≠ [] := by
  rintro rfl
  have advance : (ofChars ([] ++ rest)).2.length < ([] ++ rest).length :=
    length_ofChars_lt (by rw [h]; rfl)
  rw [h] at advance
  exact Nat.lt_irrefl _ advance

end Kinds

/-! ## A delimiter ends every token

Blanks are delimiters, and so are parentheses and commas.
-/

section Delimiter

variable {b : Char}

/-- A character that no token goes on with. -/
structure Delimits (b : Char) : Prop where
  word : isWordChar b = false
  other : b ∉ ['.', '\'', '"', '=', '>']

theorem not_isBlank_of_visible {c : Char} (low : 33 ≤ c.toNat) (high : c.toNat < 127) :
    ¬ isBlank c := by
  have none : ∀ n < 127, 33 ≤ n → inRanges blankRanges n = false := by decide
  rw [isBlank, none c.toNat high low]
  exact Bool.false_ne_true

theorem not_isBlank_of_isDigit {c : Char} (h : c.isDigit) : ¬ isBlank c := by
  obtain ⟨low, high⟩ := Char.isDigit_iff_toNat.mp h
  have zero : 33 ≤ '0'.toNat := by decide
  have nine : '9'.toNat < 127 := by decide
  exact not_isBlank_of_visible (zero.trans low) (high.trans_lt nine)

theorem isWordChar_of_isDigit {c : Char} (h : c.isDigit) : isWordChar c := by
  have numerals : ∀ n < 58, 48 ≤ n → inRanges numeralRanges n := by decide
  obtain ⟨low, high⟩ := Char.isDigit_iff_toNat.mp h
  simp [isWordChar, isNumeral, numerals c.toNat (Nat.lt_succ_of_le high) low]

theorem isWordChar_eq_false_of_isBlank (hb : isBlank b) : isWordChar b = false := by
  have none : ∀ r ∈ blankRanges, ∀ n ∈ List.range' r.1 (r.2 + 1 - r.1),
      inRanges letterRanges n = false ∧ inRanges numeralRanges n = false ∧ n ≠ '_'.toNat := by
    decide +kernel
  obtain ⟨r, hr, low, high⟩ := (inRanges_iff_exists (by decide)).mp hb
  obtain ⟨letter, numeral, underscore⟩ := none r hr b.toNat (List.mem_range'_1.mpr (by omega))
  have other : b ≠ '_' := by
    rintro rfl
    exact underscore rfl
  simp [isWordChar, isLetter, isNumeral, letter, numeral, other]

theorem not_isBlank_of_isWordStart {c : Char} (h : isWordStart c) : ¬ isBlank c := by
  intro blank
  have word := isWordChar_of_isWordStart h
  rw [isWordChar_eq_false_of_isBlank blank] at word
  cases word

theorem delimits_of_isBlank (hb : isBlank b) : Delimits b where
  word := isWordChar_eq_false_of_isBlank hb
  other mem := by
    have visible : ['.', '\'', '"', '=', '>'].all (!isBlank ·) := by decide
    have other := List.all_eq_true.mp visible b mem
    rw [hb] at other
    cases other

theorem Delimits.isDigit_eq_false (hb : Delimits b) : b.isDigit = false := by
  rw [Bool.eq_false_iff]
  intro digit
  have word := isWordChar_of_isDigit digit
  rw [hb.word] at word
  cases word

theorem Delimits.not_mem_tail (hb : Delimits b) : ∀ s ∈ Mark.spellings, b ∉ s.1.tail := by
  have tails : ∀ s ∈ Mark.spellings, s.1.tail ⊆ ['=', '>'] := by decide
  exact fun s hs mem => hb.other (List.mem_append_right ['.', '\'', '"'] (tails s hs mem))

theorem takeWhile_append_delimiter {p : Char → Bool} (hp : p b = false) :
    (cs ++ b :: more).takeWhile p = cs.takeWhile p := by
  induction cs with
  | nil => simp [hp]
  | cons c cs ih => by_cases h : p c <;> simp [h, ih]

theorem dropWhile_append_delimiter {p : Char → Bool} (hp : p b = false) :
    (cs ++ b :: more).dropWhile p = cs.dropWhile p ++ b :: more := by
  induction cs with
  | nil => simp [hp]
  | cons c cs ih => by_cases h : p c <;> simp [h, ih]

theorem startsWithDigit_append_delimiter (hb : Delimits b) :
    startsWithDigit (cs ++ b :: more) = startsWithDigit cs := by
  cases cs with
  | nil => exact hb.isDigit_eq_false
  | cons c cs => rfl

theorem prefix_append_delimiter {spelling : List Char} (h : b ∉ spelling) :
    spelling <+: cs ++ b :: more ↔ spelling <+: cs := by
  refine ⟨fun front => ?_, fun front => front.trans (List.prefix_append _ _)⟩
  rcases List.prefix_or_prefix_of_prefix front (List.prefix_append _ _) with short | ⟨past, rfl⟩
  · exact short
  · cases past with
    | nil => simp
    | cons c past =>
      rw [List.prefix_append_right_inj, List.cons_prefix_cons] at front
      simp [front.1] at h

/-- The delimiter may be a mark itself, so something has to stand before it. -/
theorem mark?_append_delimiter {c : Char} (hb : Delimits b) :
    mark? (c :: cs ++ b :: more) =
      (mark? (c :: cs)).map fun (m, rest) => (m, rest ++ b :: more) := by
  have apart := hb.not_mem_tail
  unfold mark?
  generalize Mark.spellings = spellings at apart
  induction spellings with
  | nil => rfl
  | cons s spellings ih =>
    obtain ⟨spelling, m⟩ := s
    have same : spelling.isPrefixOf (c :: cs ++ b :: more) = spelling.isPrefixOf (c :: cs) := by
      rw [Bool.eq_iff_iff, List.isPrefixOf_iff_prefix, List.isPrefixOf_iff_prefix]
      cases spelling with
      | nil => simp
      | cons d spelling =>
        have tail : b ∉ spelling := apart _ List.mem_cons_self
        rw [List.cons_append, List.cons_prefix_cons, List.cons_prefix_cons,
          prefix_append_delimiter tail]
    rw [List.findSome?_cons, List.findSome?_cons, ih fun s hs =>
      apart s (List.mem_cons_of_mem _ hs)]
    simp only [same]
    cases front : spelling.isPrefixOf (c :: cs) with
    | true =>
      have := (List.isPrefixOf_iff_prefix.mp front).length_le
      simp only [if_true, Option.map_some, List.drop_append_of_le_length this]
    | false => simp

theorem number_append_delimiter (hb : Delimits b) (negative : Bool) :
    number negative (cs ++ b :: more) =
      ((number negative cs).1, (number negative cs).2 ++ b :: more) := by
  have digit := hb.isDigit_eq_false
  have point : b ≠ '.' := fun same => hb.other (same ▸ List.mem_cons_self)
  simp only [number, takeWhile_append_delimiter digit, dropWhile_append_delimiter digit]
  cases cs.dropWhile Char.isDigit with
  | nil => simp [point]
  | cons c past =>
    by_cases point : c = '.'
    · subst point
      simp only [List.cons_append, startsWithDigit_append_delimiter hb,
        takeWhile_append_delimiter digit, dropWhile_append_delimiter digit]
      split <;> rfl
    · simp [point]

theorem text_append_delimiter {quote : Char} (hq : b ≠ quote)
    (h : text quote cs = (.token t, rest)) :
    text quote (cs ++ b :: more) = (.token t, rest ++ b :: more) := by
  obtain ⟨content, rfl, rfl, alone⟩ := text_eq_token_iff.mp h
  refine text_eq_token_iff.mpr ⟨content, rfl, by simp, ?_⟩
  cases rest with
  | nil => simpa using hq
  | cons => exact alone

theorem named_append_delimiter (hb : Delimits b) (h : named cs = (.token t, rest)) :
    named (cs ++ b :: more) = (.token t, rest ++ b :: more) := by
  cases cs with
  | nil => cases h
  | cons c cs =>
    rw [List.cons_append]
    simp only [named] at h ⊢
    rw [← List.cons_append, takeWhile_append_delimiter hb.word, dropWhile_append_delimiter hb.word]
    split at h <;> simp_all

theorem positional_append_delimiter (hb : Delimits b) (h : positional cs = (.token t, rest)) :
    positional (cs ++ b :: more) = (.token t, rest ++ b :: more) := by
  have digit := hb.isDigit_eq_false
  simp only [positional, takeWhile_append_delimiter digit, dropWhile_append_delimiter digit] at h ⊢
  split at h <;> simp_all

theorem ofChars_append_delimiter (hb : Delimits b) (h : ofChars body = (.token t, rest)) :
    ofChars (body ++ b :: more) = (.token t, rest ++ b :: more) := by
  cases body with
  | nil => cases h
  | cons c cs =>
    have marked : mark? (c :: cs ++ b :: more) = _ := mark?_append_delimiter hb
    rw [List.cons_append] at marked ⊢
    cases found : mark? (c :: cs) with
    | some m =>
      simp only [ofChars, marked, found, Option.map_some, Prod.mk.injEq] at h ⊢
      exact ⟨h.1, by rw [h.2]⟩
    | none =>
      simp only [ofChars, marked, found, Option.map_none,
        startsWithDigit_append_delimiter hb] at h ⊢
      rw [← List.cons_append, takeWhile_append_delimiter hb.word,
        dropWhile_append_delimiter hb.word, number_append_delimiter hb,
        number_append_delimiter hb]
      split_ifs at h ⊢ with quote colon mark
      · apply text_append_delimiter _ h
        rintro rfl
        rcases quote with rfl | rfl <;> exact hb.other (by decide)
      · exact named_append_delimiter hb h
      · exact positional_append_delimiter hb h
      · rw [h]
      · rw [h]
      · obtain ⟨outcome, left⟩ := Prod.mk.inj h
        rw [outcome, left]
      · cases h

end Delimiter

/-! ## A token is read without what follows it -/

section Spans

variable {p : Char → Bool}

/-- If everything up to `rest` is taken, then it is taken at the end of a text as well. -/
theorem span_of_dropWhile (h : (cs ++ rest).dropWhile p = rest) :
    (cs ++ rest).takeWhile p = cs ∧ cs.takeWhile p = cs ∧ cs.dropWhile p = [] := by
  have split := List.takeWhile_append_dropWhile (p := p) (l := cs ++ rest)
  rw [h] at split
  have taken : (cs ++ rest).takeWhile p = cs := List.append_cancel_right split
  have all : ∀ c ∈ cs, p c := by
    rw [← taken]
    exact fun c hc => List.mem_takeWhile_imp hc
  exact ⟨taken, List.takeWhile_eq_self_iff.mpr all, List.dropWhile_eq_nil_iff.mpr all⟩

theorem startsWithDigit_takeWhile (h : startsWithDigit cs) :
    startsWithDigit (cs.takeWhile Char.isDigit) := by
  cases cs with
  | nil => exact h
  | cons d cs =>
    have digit : d.isDigit := h
    rwa [List.takeWhile_cons_of_pos digit]

theorem number_decimal {negative : Bool} {whole fraction : List Char}
    (digits : ∀ c ∈ whole, c.isDigit) (digits' : ∀ c ∈ fraction, c.isDigit)
    (some : startsWithDigit fraction) :
    number negative (whole ++ '.' :: fraction) = (ofDecimal negative whole fraction, []) := by
  have point : Char.isDigit '.' = false := by decide
  have before : (whole ++ '.' :: fraction).takeWhile Char.isDigit = whole := by
    simp [List.takeWhile_append_of_pos digits, point]
  have after : (whole ++ '.' :: fraction).dropWhile Char.isDigit = '.' :: fraction := by
    simp [List.dropWhile_append_of_pos digits, point]
  simp only [number, before, after, some, if_true, List.takeWhile_eq_self_iff.mpr digits',
    List.dropWhile_eq_nil_iff.mpr digits']

theorem number_integer {negative : Bool} (digits : ∀ c ∈ cs, c.isDigit) :
    number negative cs = (ofInteger negative cs, []) := by
  simp only [number, List.takeWhile_eq_self_iff.mpr digits, List.dropWhile_eq_nil_iff.mpr digits]

theorem number_of_append {negative : Bool} (h : number negative (cs ++ rest) = (.token t, rest)) :
    number negative cs = (.token t, []) := by
  have integer (left : (cs ++ rest).dropWhile Char.isDigit = rest)
      (read : ofInteger negative ((cs ++ rest).takeWhile Char.isDigit) = .token t) :
      number negative cs = (.token t, []) := by
    obtain ⟨taken, whole, nothing⟩ := span_of_dropWhile left
    rw [taken] at read
    simp only [number, whole, nothing, read]
  simp only [number] at h
  split at h
  · next more point =>
    split at h
    · next digit =>
      obtain ⟨read, left⟩ := Prod.mk.inj h
      have whole := List.takeWhile_append_dropWhile (p := Char.isDigit) (l := cs ++ rest)
      have fraction := List.takeWhile_append_dropWhile (p := Char.isDigit) (l := more)
      rw [left] at fraction
      rw [point, ← fraction, ← List.cons_append, ← List.append_assoc] at whole
      rw [← List.append_cancel_right whole,
        number_decimal _ _ (startsWithDigit_takeWhile digit), read]
      · exact fun c hc => List.mem_takeWhile_imp hc
      · exact fun c hc => List.mem_takeWhile_imp hc
    · obtain ⟨read, left⟩ := Prod.mk.inj h
      exact integer left read
  · obtain ⟨read, left⟩ := Prod.mk.inj h
    exact integer left read

theorem startsWithDigit_append (h : startsWithDigit cs) : startsWithDigit (cs ++ rest) := by
  cases cs with
  | nil => cases h
  | cons => exact h

theorem startsWithDigit_of_number {negative : Bool}
    (h : number negative (cs ++ rest) = (.token t, rest)) (digit : startsWithDigit (cs ++ rest)) :
    startsWithDigit cs := by
  cases cs with
  | nil =>
    cases rest with
    | nil => cases digit
    | cons d rest =>
      have short : (number negative (d :: rest)).2.length < (d :: rest).length :=
        length_number_lt digit
      rw [List.nil_append] at h
      rw [h] at short
      exact absurd short (Nat.lt_irrefl _)
  | cons => exact digit

theorem named_of_append (h : named (cs ++ rest) = (.token t, rest)) :
    named cs = (.token t, []) := by
  cases cs with
  | nil =>
    cases rest with
    | nil => cases h
    | cons c rest =>
      simp only [List.nil_append, named] at h
      split at h
      · next start =>
        rw [List.dropWhile_cons_of_pos (isWordChar_of_isWordStart start)] at h
        have short := length_dropWhile_le isWordChar rest
        rw [(Prod.mk.inj h).2, List.length_cons] at short
        omega
      · cases h
  | cons c cs =>
    simp only [List.cons_append, named] at h ⊢
    split at h
    · next start =>
      obtain ⟨read, left⟩ := Prod.mk.inj h
      rw [← List.cons_append] at read left
      obtain ⟨taken, word, nothing⟩ := span_of_dropWhile left
      rw [taken] at read
      rw [if_pos start, word, nothing, read]
    · cases h

theorem positional_of_append (h : positional (cs ++ rest) = (.token t, rest)) :
    positional cs = (.token t, []) := by
  simp only [positional] at h
  split at h
  · next fits =>
    obtain ⟨read, left⟩ := Prod.mk.inj h
    obtain ⟨taken, digits, nothing⟩ := span_of_dropWhile left
    rw [taken] at fits read
    rw [positional, digits, nothing, if_pos fits, read]
  · cases h

theorem text_of_append {quote : Char} (h : text quote (cs ++ rest) = (.token t, rest)) :
    text quote cs = (.token t, []) := by
  obtain ⟨content, rfl, split, -⟩ := text_eq_token_iff.mp h
  rw [← List.singleton_append, ← List.append_assoc] at split
  exact text_eq_token_iff.mpr ⟨content, rfl, List.append_cancel_right split, by simp⟩

theorem mark?_of_append (h : mark? (cs ++ rest) = none) : mark? cs = none := by
  rw [mark?, List.findSome?_eq_none_iff] at h ⊢
  intro s hs
  have other := h s hs
  simp only [ite_eq_right_iff, reduceCtorEq, imp_false, List.isPrefixOf_iff_prefix] at other ⊢
  exact fun front => other (front.trans (List.prefix_append _ _))

theorem spelling_of_ofChars {m : Mark} (h : ofChars (used ++ rest) = (.token (.mark m), rest)) :
    (used, m) ∈ Mark.spellings := by
  obtain ⟨⟨spelling, m'⟩, known, found⟩ := List.exists_of_findSome?_eq_some (mark?_of_ofChars h)
  simp only [Option.ite_none_right_eq_some, Option.some.injEq, Prod.mk.injEq] at found
  obtain ⟨front, rfl, dropped⟩ := found
  obtain ⟨past, split⟩ := List.isPrefixOf_iff_prefix.mp front
  rw [← split, List.drop_left] at dropped
  subst dropped
  rw [← List.append_cancel_right split]
  exact known

/-- A token is read just as well if nothing follows it. -/
theorem ofChars_of_append (h : ofChars (used ++ rest) = (.token t, rest)) :
    ofChars used = (.token t, []) := by
  obtain ⟨c, cs, rfl⟩ := List.exists_cons_of_ne_nil (ne_nil_of_ofChars h)
  cases marked : mark? (c :: cs ++ rest) with
  | some found =>
    have spelled : ∀ s ∈ Mark.spellings, ofChars s.1 = (.token (.mark s.2), []) := by decide
    obtain ⟨m, left⟩ := found
    have same : t = .mark m := by
      simp only [List.cons_append] at marked h
      simp only [ofChars, marked, Prod.mk.injEq, token.injEq] at h
      exact h.1.symm
    subst same
    exact spelled _ (spelling_of_ofChars h)
  | none =>
    have unmarked := mark?_of_append marked
    rw [List.cons_append] at marked h
    simp only [ofChars, marked, unmarked] at h ⊢
    split_ifs at h with quote colon question digit sign start
    · rw [if_pos quote]
      exact text_of_append h
    · rw [if_neg quote, if_pos colon]
      exact named_of_append h
    · rw [if_neg quote, if_neg colon, if_pos question]
      exact positional_of_append h
    · rw [if_neg quote, if_neg colon, if_neg question, if_pos digit]
      rw [← List.cons_append] at h
      exact number_of_append h
    · have digits : startsWithDigit cs := startsWithDigit_of_number h sign.2
      rw [if_neg quote, if_neg colon, if_neg question, if_neg digit, if_pos ⟨sign.1, digits⟩]
      exact number_of_append h
    · have unsigned : ¬ ((c = '-' ∨ c = '+') ∧ startsWithDigit cs) := by
        rintro ⟨sign', digits⟩
        exact sign ⟨sign', startsWithDigit_append digits⟩
      obtain ⟨read, left⟩ := Prod.mk.inj h
      rw [← List.cons_append] at read left
      obtain ⟨taken, word, nothing⟩ := span_of_dropWhile left
      rw [taken] at read
      rw [if_neg quote, if_neg colon, if_neg question, if_neg digit, if_neg unsigned, if_pos start,
        word, nothing, read]
    · cases h

end Spans

end QueryTree
