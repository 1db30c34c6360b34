import QueryTree.Proofs.Decimal
import QueryTree.Proofs.Token.Layout
import QueryTree.Proofs.Token.Quoting

/-! # Tokens in their standard spelling

What can be read is within the limits of its kind, and every such token is read back from its
standard spelling. A decimal without digits after the point is not: it reads as an integer, for
which it is too large.
-/

namespace QueryTree

open Text Lexed

def IsWord (s : String) : Prop :=
  ∃ c cs, s.toList = c :: cs ∧ isWordStart c ∧ ∀ d ∈ cs, isWordChar d

/-- Within the limits of the tokens that are read. A decimal without digits after the point has lost
them to its mantissa, which has no room for another digit. -/
def Token.Spellable : Token → Prop
  | integer n => Int64.minValue.toInt ≤ n ∧ n ≤ Int64.maxValue.toInt
  | decimal d => d.scale = 0 → Decimal.capacity ≤ d.mantissa * 10 + 9
  | named name => IsWord name
  | positional n => 0 < n ∧ n < UInt64.size
  | identifier name => IsWord name ∧ ofWord name = identifier name
  | string _ | boolean _ | null | keyword _ | mark _ => True

variable {cs : List Char} {t : Token} {negative : Bool}

section Read

theorem isWord_takeWhile {c : Char} (start : isWordStart c) :
    IsWord (String.ofList ((c :: cs).takeWhile isWordChar)) := by
  refine ⟨c, cs.takeWhile isWordChar, ?_, start, fun d => List.mem_takeWhile_imp⟩
  rw [String.toList_ofList, List.takeWhile_cons_of_pos (isWordChar_of_isWordStart start)]

theorem spellable_ofInteger (h : ofInteger negative cs = .token t) : t.Spellable := by
  simp only [ofInteger] at h
  generalize (if negative then _ else _ : Int) = n at h
  split_ifs at h with fits
  cases h
  exact fits

theorem spellable_ofDecimal {whole fraction : List Char} (digits : ∀ c ∈ fraction, c.isDigit)
    (some : fraction ≠ []) (h : ofDecimal negative whole fraction = .token t) : t.Spellable := by
  unfold ofDecimal at h
  split at h
  · next d read =>
    cases h
    exact Decimal.capacity_le_of_ofDigits? digits some read
  · cases h

theorem spellable_number (h : (number negative cs).1 = .token t) : t.Spellable := by
  simp only [number] at h
  split at h
  · split at h
    · next digit =>
      apply spellable_ofDecimal (fun c => List.mem_takeWhile_imp) _ h
      intro none
      have some := startsWithDigit_takeWhile digit
      rw [none] at some
      cases some
    · exact spellable_ofInteger h
  · exact spellable_ofInteger h

theorem Token.spellable_of_isReserved (h : t.isReserved) : t.Spellable := by
  cases t <;> trivial

theorem spellable_ofWord {s : String} (word : IsWord s) (h : .ofWord s = t) : t.Spellable := by
  have reserved : ∀ e ∈ Token.reserved, e.2.isReserved := by decide
  cases found : Token.ofReserved? s with
  | none =>
    have same : Token.ofWord s = .identifier s := by
      rw [Token.ofWord, found]
      rfl
    rw [← h, same]
    exact ⟨word, same⟩
  | some u =>
    rw [Token.ofWord, found] at h
    rw [← h]
    exact Token.spellable_of_isReserved (reserved _ (mem_reserved_of_ofReserved? found))

theorem spellable_of_ofChars (h : (ofChars cs).1 = .token t) : t.Spellable := by
  cases origin_of_ofChars (Prod.ext h rfl) with
  | mark same => exact same ▸ trivial
  | quoted _ same => exact same ▸ trivial
  | named _ start same => exact same ▸ isWord_takeWhile start
  | positional _ same fits => exact same ▸ fits
  | number _ _ read => exact spellable_number (congrArg Prod.fst read)
  | word _ start same => exact spellable_ofWord (isWord_takeWhile start) same.symm

theorem Lexes.spellable {ls : List Lexeme} {l : Lexeme} (h : Lexes cs ls) (mem : l ∈ ls) :
    l.token.Spellable := by
  obtain ⟨rest, -, read⟩ := h.exists_read mem
  apply spellable_of_ofChars
  rw [read]

theorem Lexes.isWord {s : String} {ls : List Lexeme} (h : Lexes cs ls) (mem : ⟨t, s⟩ ∈ ls)
    (word : t.isWord) : IsWord s := by
  obtain ⟨rest, -, read⟩ := h.exists_read mem
  obtain ⟨⟨c, cs, split, start⟩, -⟩ := word_of_ofChars read word
  have front := takeWhile_of_ofChars read word
  rw [split] at front
  have spelled : IsWord (String.ofList ((c :: cs).takeWhile isWordChar)) :=
    isWord_takeWhile start
  rwa [front, String.ofList_toList] at spelled

end Read

section Written

theorem lexes_decimal {d : Decimal} (scaled : d.scale ≠ 0) :
    Lexes d.render.toList [⟨.decimal d, d.render⟩] := by
  have digits : ∀ c ∈ d.wholeDigits ++ d.fractionDigits, c.isDigit := by
    rw [d.wholeDigits_append_fractionDigits]
    exact fun _ => d.isDigit_of_mem_digits
  obtain ⟨whole, fraction⟩ := List.forall_mem_append.mp digits
  have spelling : d.render.toList =
      signed d.negative (d.wholeDigits ++ '.' :: d.fractionDigits) := by
    rw [d.toList_render, if_neg scaled, List.append_assoc]
    rfl
  have some : startsWithDigit (d.wholeDigits ++ '.' :: d.fractionDigits) :=
    startsWithDigit_append (startsWithDigit_of_forall d.wholeDigits_ne_nil whole)
  have more : startsWithDigit d.fractionDigits := by
    apply startsWithDigit_of_forall _ fraction
    apply List.ne_nil_of_length_pos
    rw [d.length_fractionDigits]
    exact Nat.pos_of_ne_zero scaled
  apply lexes_number spelling some
  rw [number_decimal whole fraction more, ofDecimal, d.ofDigits?_wholeDigits]

theorem lexes_string (s : String) : Lexes (quoted s).toList [⟨.string s, quoted s⟩] :=
  lexes_enclosed (.inl rfl)

theorem lexes_named {name : String} (word : IsWord name) :
    Lexes (":" ++ name).toList [⟨.named name, ":" ++ name⟩] := by
  obtain ⟨c, cs, split, start, inside⟩ := word
  have all : ∀ d ∈ c :: cs, isWordChar d :=
    List.forall_mem_cons.mpr ⟨isWordChar_of_isWordStart start, inside⟩
  have spelling : (":" ++ name).toList = ':' :: c :: cs := by
    rw [String.toList_append, split]
    rfl
  have unmarked : mark? (':' :: c :: cs) = none := mark?_eq_none (by decide)
  have read : named (c :: cs) = (.token (.named name), []) := by
    rw [named, if_pos start, List.takeWhile_eq_self_iff.mpr all, List.dropWhile_eq_nil_iff.mpr all,
      ← split, String.ofList_toList]
  apply lexes_token
  · rw [spelling]
    exact List.dropWhile_cons_of_neg (by decide)
  · rw [spelling, ← read]
    simp [ofChars, unmarked]

theorem lexes_identifier {name : String} (word : IsWord name)
    (free : Token.ofWord name = .identifier name) :
    Lexes name.toList [⟨.identifier name, name⟩] := by
  obtain ⟨c, cs, split, start, inside⟩ := word
  apply lexes_token
  · rw [split]
    exact List.dropWhile_cons_of_neg (not_isBlank_of_isWordStart start)
  · rw [split, ofChars_of_word start inside, ← split, String.ofList_toList, free]

theorem Lexes.dotted {s more : String} {ls' : List Lexeme} (h : Lexes s.toList [⟨t, s⟩])
    (word : t.isWord) (h' : Lexes more.toList ls') :
    Lexes (s ++ "." ++ more).toList (⟨t, s⟩ :: ⟨.mark .dot, "."⟩ :: ls') := by
  obtain ⟨c, cs, split, start, inside⟩ := h.isWord (List.mem_singleton_self _) word
  have same := h.eq_ofWord (List.mem_singleton_self _) word
  have dot : Lexes ('.' :: more.toList) (⟨.mark .dot, "."⟩ :: ls') := .lone .dot (by decide) h'
  have apart : ∀ d ∈ ('.' :: more.toList).head?, ¬ isWordChar d := by
    rintro d ⟨⟩
    decide
  have read := ofChars_word_append start inside apart
  rw [← split, String.ofList_toList, ← same] at read
  have spelling : (s ++ "." ++ more).toList = s.toList ++ '.' :: more.toList := by simp
  rw [spelling]
  refine .token s ?_ read dot
  rw [split]
  exact List.dropWhile_cons_of_neg (not_isBlank_of_isWordStart start)

/-- The standard spelling of a token is read as that token. -/
theorem lexes_fragment (h : t.Spellable) (scaled : ∀ d, t = .decimal d → d.scale ≠ 0) :
    Lexes t.fragment.toList [⟨t, t.fragment⟩] := by
  cases t with
  | integer n => exact lexes_integer h.1 h.2
  | decimal d => exact lexes_decimal (scaled d rfl)
  | string s => exact lexes_string s
  | boolean b => cases b <;> exact lexes_reserved (by decide)
  | null => exact lexes_reserved (by decide)
  | named name => exact lexes_named h
  | positional n => exact lexes_positional h.1 h.2
  | identifier name => exact lexes_identifier h.1 h.2
  | keyword k => exact lexes_keyword k
  | mark m => exact lexes_mark m

/-- An integer as large as a mantissa without room for another digit is no integer token. -/
theorem ofInteger_of_large (large : Decimal.capacity ≤ Nat.ofDigitChars 10 cs 0 * 10 + 9) :
    ofInteger negative cs = .fault (.invalidNumber (String.ofList (signed negative cs))) := by
  have least : Int64.minValue.toInt = -9223372036854775808 := by decide
  have greatest : Int64.maxValue.toInt = 9223372036854775807 := by decide
  unfold Decimal.capacity at large
  cases negative with
  | true => exact if_neg (by simp only [if_true]; omega)
  | false => exact if_neg (by simp only [Bool.false_eq_true, if_false]; omega)

theorem render_of_scale {d : Decimal} (h : d.scale = 0) :
    d.render.toList = signed d.negative d.digits := by
  rw [d.toList_render, if_pos h, List.append_nil, d.wholeDigits_of_scale h]
  rfl

theorem startsWithDigit_digits (d : Decimal) : startsWithDigit d.digits := by
  have := d.scale_lt_length_digits
  apply startsWithDigit_of_forall
  · exact List.ne_nil_of_length_pos (Nat.zero_lt_of_lt this)
  · exact fun _ => d.isDigit_of_mem_digits

theorem number_digits {d : Decimal} (h : (Token.decimal d).Spellable) (scale : d.scale = 0) :
    number d.negative d.digits = (.fault (.invalidNumber d.render), []) := by
  have large : Decimal.capacity ≤ Nat.ofDigitChars 10 d.digits 0 * 10 + 9 := by
    rw [d.ofDigitChars_digits]
    exact h scale
  rw [number_integer fun _ => d.isDigit_of_mem_digits, ofInteger_of_large large,
    ← render_of_scale scale, String.ofList_toList]

end Written

end QueryTree
