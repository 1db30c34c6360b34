import Mathlib.Data.List.Infix
import QueryTree.Token.Lexer

/-! # Positions never leave the text

A lexer that stands within a text stands in front of an end of it. Reading takes it to another end
of the text, the one that reading from the characters themselves leaves, so however it moves on it
stays within the text.
-/

namespace QueryTree

namespace Lexed

variable {read : Lexed} {t : Token} {e : LexError} {place : Nat}

theorem answer_eq_token_iff : read.answer place = .ok (some t) ↔ read = .token t := by
  cases read <;> simp [answer]

theorem answer_eq_none_iff : read.answer place = .ok none ↔ read = .finished := by
  cases read <;> simp [answer]

theorem answer_eq_error_iff :
    read.answer place = .error e ↔ read = .fault e.fault ∧ e.position = place := by
  obtain ⟨fault, position⟩ := e
  cases read <;> simp [answer, eq_comm]

end Lexed

namespace Lexer

open Text Lexed

variable {text rest : List Char} {start : Nat} {c : Char} {p : Char → Bool}

/-- The lexer of a text in front of its last characters. -/
def facing (text : List Char) (start : Nat) (rest : List Char) : Lexer :=
  ⟨text.toArray, text.length - rest.length, start⟩

section Moves

theorem suffix_of_cons (h : c :: rest <:+ text) : rest <:+ text := (List.suffix_cons c rest).trans h

theorem peek?_facing (h : rest <:+ text) (offset : Nat) :
    (facing text start rest).peek? offset = rest[offset]? := by
  obtain ⟨front, rfl⟩ := h
  have place : (front ++ rest).length - rest.length = front.length := by simp
  rw [peek?, facing, place, List.getElem?_toArray,
    List.getElem?_append_right (Nat.le_add_right _ _), Nat.add_sub_cancel_left]

theorem head?_facing (h : rest <:+ text) : (facing text start rest).peek? 0 = rest.head? := by
  rw [peek?_facing h, List.head?_eq_getElem?]

theorem second?_facing (h : c :: rest <:+ text) :
    (facing text start (c :: rest)).peek? 1 = rest.head? := by
  rw [peek?_facing h, List.getElem?_cons_succ, List.head?_eq_getElem?]

theorem advance_facing (h : c :: rest <:+ text) :
    (facing text start (c :: rest)).advance = facing text start rest := by
  have := h.length_le
  rw [List.length_cons] at this
  simp only [advance, facing, List.length_cons, Lexer.mk.injEq, true_and, and_true]
  omega

theorem readWhile_of_none {l : Lexer} (h : l.peek? 0 = none) : l.readWhile p = ([], l) := by
  rw [readWhile]
  split
  · next found => cases h.symm.trans found
  · rfl

theorem readWhile_of_some {l : Lexer} (h : l.peek? 0 = some c) :
    l.readWhile p =
      if p c then (c :: (l.advance.readWhile p).1, (l.advance.readWhile p).2) else ([], l) := by
  rw [readWhile]
  split
  · next found =>
    obtain rfl := Option.some.inj (h.symm.trans found)
    rfl
  · next found => cases h.symm.trans found

theorem readWhile_facing (h : rest <:+ text) :
    (facing text start rest).readWhile p =
      (rest.takeWhile p, facing text start (rest.dropWhile p)) := by
  induction rest with
  | nil => exact readWhile_of_none (head?_facing h)
  | cons c rest ih =>
    rw [readWhile_of_some (head?_facing h), advance_facing h,
      ih (suffix_of_cons h)]
    split_ifs with found
    · rw [List.takeWhile_cons_of_pos found, List.dropWhile_cons_of_pos found]
    · rw [List.takeWhile_cons_of_neg found, List.dropWhile_cons_of_neg found]

theorem readQuoted_of_none {l : Lexer} {quote : Char} (h : l.peek? 0 = none) :
    l.readQuoted quote = (none, l) := by
  rw [readQuoted]
  split
  · next found => cases h.symm.trans found
  · rfl

theorem readQuoted_of_some {l : Lexer} {quote : Char} (h : l.peek? 0 = some c) :
    l.readQuoted quote =
      if c = quote then
        if l.peek? 1 = some quote then
          ((l.advance.advance.readQuoted quote).1.map (quote :: ·),
            (l.advance.advance.readQuoted quote).2)
        else (some [], l.advance)
      else ((l.advance.readQuoted quote).1.map (c :: ·), (l.advance.readQuoted quote).2) := by
  rw [readQuoted]
  split
  · next found =>
    obtain rfl := Option.some.inj (h.symm.trans found)
    rfl
  · next found => cases h.symm.trans found

theorem readQuoted_facing {quote : Char} (h : rest <:+ text) :
    (facing text start rest).readQuoted quote =
      ((unquote? quote rest).map Prod.fst,
        facing text start (((unquote? quote rest).map Prod.snd).getD [])) := by
  fun_induction unquote? quote rest with
  | case1 => exact readQuoted_of_none (head?_facing h)
  | case2 =>
    rw [readQuoted_of_some (head?_facing h), peek?_facing h, advance_facing h, if_pos rfl]
    rfl
  | case3 c hc =>
    rw [readQuoted_of_some (head?_facing h), advance_facing h, if_neg hc,
      readQuoted_of_none (head?_facing List.nil_suffix)]
    rfl
  | case4 r ih =>
    have tail := suffix_of_cons h
    rw [readQuoted_of_some (head?_facing h), peek?_facing h, advance_facing h, advance_facing tail,
      ih (suffix_of_cons tail)]
    cases unquote? quote r <;> simp
  | case5 d r hd =>
    rw [readQuoted_of_some (head?_facing h), peek?_facing h, advance_facing h]
    simp [hd]
  | case6 c d r hc ih =>
    rw [readQuoted_of_some (head?_facing h), advance_facing h,
      ih (suffix_of_cons h), if_neg hc]
    cases unquote? quote (d :: r) <;> simp

end Moves

section Readers

variable {quote : Char} {read : Lexed × List Char} {place : Nat} {negative : Bool}

/-- What has been read of a text, by a lexer that has come to what is left. -/
def found (text : List Char) (start place : Nat) (read : Lexed × List Char) : Step :=
  (read.1.answer place, facing text start read.2)

theorem readText_facing (h : c :: rest <:+ text) :
    (facing text start (c :: rest)).readText quote =
      found text start (text.length - (c :: rest).length) (Lexed.text quote rest) := by
  rw [readText, advance_facing h, readQuoted_facing (suffix_of_cons h), Lexed.text]
  cases unquote? quote rest <;> rfl

theorem readNamed_facing (h : c :: rest <:+ text) :
    (facing text start (c :: rest)).readNamed =
      found text start (text.length - (c :: rest).length) (named rest) := by
  have tail := suffix_of_cons h
  rw [readNamed, advance_facing h, head?_facing tail]
  cases rest with
  | nil => rfl
  | cons d rest =>
    simp only [List.head?_cons, named, readWhile_facing tail]
    split_ifs <;> rfl

theorem readPositional_facing (h : c :: rest <:+ text) :
    (facing text start (c :: rest)).readPositional =
      found text start (text.length - (c :: rest).length) (positional rest) := by
  rw [readPositional, advance_facing h, readWhile_facing (suffix_of_cons h)]
  simp only [positional]
  split_ifs <;> rfl

theorem any_isDigit_head? : rest.head?.any Char.isDigit = startsWithDigit rest := by
  cases rest <;> rfl

theorem readUnsigned_facing (h : rest <:+ text) :
    (facing text start rest).readUnsigned place negative =
      found text start place (number negative rest) := by
  have behind := (List.dropWhile_suffix Char.isDigit (l := rest)).trans h
  simp only [readUnsigned, readWhile_facing h, number]
  generalize rest.dropWhile Char.isDigit = left at behind ⊢
  cases left with
  | nil =>
    rw [head?_facing behind]
    rfl
  | cons d more =>
    have tail := suffix_of_cons behind
    rw [head?_facing behind, second?_facing behind, advance_facing behind, readWhile_facing tail,
      any_isDigit_head?]
    by_cases point : d = '.'
    · subst point
      simp only [List.head?_cons, true_and]
      split_ifs <;> rfl
    · rw [if_neg (fun pointed => point (Option.some.inj pointed.1))]
      split
      · next same =>
        cases same
        exact absurd rfl point
      · rfl

theorem readNumber_of_isDigit (h : c :: rest <:+ text) (digit : c.isDigit) :
    (facing text start (c :: rest)).readNumber =
      found text start (text.length - (c :: rest).length) (number false (c :: rest)) := by
  have plain : c ≠ '-' ∧ c ≠ '+' := by
    constructor <;> rintro rfl <;> exact absurd digit (by decide)
  simp only [readNumber, head?_facing h, List.head?_cons, Option.some.injEq, plain.1, plain.2,
    if_false, readUnsigned_facing h]
  rfl

theorem readNumber_of_sign (h : c :: rest <:+ text) (sign : c = '-' ∨ c = '+') :
    (facing text start (c :: rest)).readNumber =
      found text start (text.length - (c :: rest).length) (number (c = '-') rest) := by
  have tail := suffix_of_cons h
  rw [readNumber, head?_facing h, advance_facing h, readUnsigned_facing tail,
    readUnsigned_facing tail]
  rcases sign with rfl | rfl <;> rfl

theorem readWord_facing (h : rest <:+ text) :
    (facing text start rest).readWord =
      found text start place (.token (.ofWord (String.ofList (rest.takeWhile isWordChar))),
        rest.dropWhile isWordChar) := by
  rw [readWord, readWhile_facing h]
  rfl

end Readers

section Next

def markStarts : List Char := ['<', '>', '(', ')', ',', '.', '*', '=']

theorem mark?_less {d : Char} (rest : List Char) (h : d ≠ '=') (h' : d ≠ '>') :
    mark? ('<' :: d :: rest) = some (.less, d :: rest) := by
  simp [mark?, Mark.spellings, h.symm, h'.symm]

theorem mark?_greater {d : Char} (rest : List Char) (h : d ≠ '=') :
    mark? ('>' :: d :: rest) = some (.greater, d :: rest) := by
  simp [mark?, Mark.spellings, h.symm]

/-- The one mark that starts with no such character is the other spelling of `<>`. -/
theorem mark?_of_not_mem (h : c ∉ markStarts) :
    mark? (c :: rest) =
      if c = '!' ∧ rest.head? = some '=' then some (.notEqual, rest.tail) else none := by
  split_ifs with unequal
  · obtain ⟨rfl, second⟩ := unequal
    obtain ⟨rest, rfl⟩ := List.head?_eq_some_iff.mp second
    rfl
  · have first : ∀ s ∈ Mark.spellings,
        s.1 = ['!', '='] ∨ s.1.head?.any markStarts.contains := by decide
    refine List.findSome?_eq_none_iff.mpr fun s hs => if_neg fun front => ?_
    obtain ⟨more, split⟩ := List.isPrefixOf_iff_prefix.mp front
    rcases first s hs with bang | marked
    · rw [bang] at split
      cases split
      exact unequal ⟨rfl, rfl⟩
    · obtain ⟨d, start, mem⟩ := (Option.any_eq_true _ _).mp marked
      obtain ⟨tail, spelled⟩ := List.head?_eq_some_iff.mp start
      rw [spelled] at split
      cases split
      exact h (List.contains_iff_mem.mp mem)

theorem ofChars_of_unmarked (h : mark? (c :: rest) = none) :
    ofChars (c :: rest) =
      if c = '\'' ∨ c = '"' then Lexed.text c rest
      else if c = ':' then named rest
      else if c = '?' then positional rest
      else if c.isDigit then number false (c :: rest)
      else if (c = '-' ∨ c = '+') ∧ startsWithDigit rest then number (c = '-') rest
      else if isWordStart c then
        (token (.ofWord (String.ofList ((c :: rest).takeWhile isWordChar))),
          (c :: rest).dropWhile isWordChar)
      else (fault (.unexpectedChar c), c :: rest) := by
  rw [ofChars, h]

theorem readPlain_facing (h : c :: rest <:+ text) (unmarked : mark? (c :: rest) = none) :
    (facing text start (c :: rest)).readPlain c =
      found text start (text.length - (c :: rest).length) (ofChars (c :: rest)) := by
  rw [ofChars_of_unmarked unmarked, readPlain, second?_facing h, any_isDigit_head?]
  have signless : (c = '-' ∨ c = '+') → c.isDigit = false := by rintro (rfl | rfl) <;> rfl
  split_ifs with quote colon question sign digit digit word
  · exact readText_facing h
  · exact readNamed_facing h
  · exact readPositional_facing h
  · cases digit.symm.trans (signless sign.1)
  · exact readNumber_of_sign h sign.1
  · exact readNumber_of_isDigit h digit
  · exact readWord_facing h
  · rfl

theorem read_less (h : '<' :: rest <:+ text) :
    (facing text start ('<' :: rest)).read =
      found text start (text.length - ('<' :: rest).length) (ofChars ('<' :: rest)) := by
  have tail := suffix_of_cons h
  simp only [read, head?_facing h, second?_facing h, advance_facing h, List.head?_cons]
  cases rest with
  | nil => rfl
  | cons d rest =>
    simp only [List.head?_cons, advance_facing tail]
    split
    · next equal =>
      cases equal
      rfl
    · next greater =>
      cases greater
      rfl
    · next equal greater =>
      have single := mark?_less rest (fun same => equal (congrArg some same))
        (fun same => greater (congrArg some same))
      rw [ofChars, single]
      rfl

theorem read_greater (h : '>' :: rest <:+ text) :
    (facing text start ('>' :: rest)).read =
      found text start (text.length - ('>' :: rest).length) (ofChars ('>' :: rest)) := by
  have tail := suffix_of_cons h
  simp only [read, head?_facing h, second?_facing h, advance_facing h, List.head?_cons]
  cases rest with
  | nil => rfl
  | cons d rest =>
    simp only [List.head?_cons, advance_facing tail]
    split_ifs with equal
    · cases equal
      rfl
    · have single := mark?_greater rest (fun same => equal (congrArg some same))
      rw [ofChars, single]
      rfl

theorem read_of_not_mem (h : c :: rest <:+ text) (plain : c ∉ markStarts) :
    (facing text start (c :: rest)).read =
      found text start (text.length - (c :: rest).length) (ofChars (c :: rest)) := by
  have marks : mark? (c :: rest) = _ := mark?_of_not_mem plain
  simp only [read, head?_facing h, second?_facing h, advance_facing h, List.head?_cons]
  split
  case h_1 nothing => cases nothing
  case h_10 same =>
    cases same
    split_ifs with unequal
    · obtain ⟨rfl, second⟩ := unequal
      obtain ⟨rest, rfl⟩ := List.head?_eq_some_iff.mp second
      rw [advance_facing (suffix_of_cons h)]
      rfl
    · exact readPlain_facing h (marks.trans (if_neg unequal))
  -- What is left are the characters that marks start with.
  all_goals
    next same =>
    cases same
    exact absurd (by decide) plain

/-- The lexer reads what stands at its place, and comes to what reading it leaves. -/
theorem read_facing (h : rest <:+ text) :
    (facing text start rest).read =
      found text start (text.length - rest.length) (ofChars rest) := by
  cases rest with
  | nil =>
    rw [read, head?_facing h]
    rfl
  | cons c rest =>
    by_cases marked : c ∈ markStarts
    · simp only [markStarts, List.mem_cons, List.not_mem_nil, or_false] at marked
      rcases marked with rfl | rfl | rfl | rfl | rfl | rfl | rfl | rfl
      · exact read_less h
      · exact read_greater h
      all_goals
        simp only [read, head?_facing h, List.head?_cons, advance_facing h]
        rfl
    · exact read_of_not_mem h marked

theorem next_facing (h : rest <:+ text) :
    (facing text start rest).next =
      let body := rest.dropWhile isBlank
      let place := text.length - body.length
      found text place place (ofChars body) := by
  have behind := (List.dropWhile_suffix isBlank (l := rest)).trans h
  rw [next, readWhile_facing h]
  exact read_facing behind

end Next

section Loop

theorem eq_facing {l : Lexer} (h : l.position ≤ l.input.size) :
    l = facing l.input.toList l.tokenStart (l.input.toList.drop l.position) := by
  obtain ⟨input, position, start⟩ := l
  simp only [facing, List.length_drop, Array.length_toList, Array.toArray_toList, mk.injEq,
    true_and, and_true] at h ⊢
  omega

theorem next_of_size_le {l : Lexer} (h : l.input.size ≤ l.position) : l.next.1 = .ok none := by
  have nothing : l.peek? 0 = none := Array.getElem?_eq_none h
  have nothing' : ({ l with tokenStart := l.position } : Lexer).peek? 0 = none := nothing
  rw [next, readWhile_of_none nothing, read, nothing']

theorem remaining_facing (h : rest <:+ text) :
    (facing text start rest).remaining = rest.length := by
  have := h.length_le
  simp only [remaining, facing, List.size_toArray]
  omega

theorem remaining_next_lt {l : Lexer} {t : Token} (h : l.next.1 = .ok (some t)) :
    l.next.2.remaining < l.remaining := by
  -- Any lexer within its text faces an end of it, and beyond the text no token is read.
  rcases Nat.lt_or_ge l.position l.input.size with inside | beyond
  · have tail := List.drop_suffix l.position l.input.toList
    rw [eq_facing inside.le, next_facing tail] at h ⊢
    generalize l.input.toList.drop l.position = rest at tail h ⊢
    have behind := List.dropWhile_suffix isBlank (l := rest)
    have advances : (ofChars (rest.dropWhile isBlank)).1.advances := by
      rw [answer_eq_token_iff.mp h]
      rfl
    have short := length_ofChars_lt advances
    rw [found, remaining_facing tail,
      remaining_facing ((ofChars_suffix _).trans (behind.trans tail))]
    exact short.trans_le behind.length_le
  · cases h.symm.trans (next_of_size_le beyond)

def tokens (l : Lexer) : Except LexError (List Token) :=
  match h : l.next.1 with
  | .error e => .error e
  | .ok none => .ok []
  | .ok (some t) =>
    have := remaining_next_lt h
    l.next.2.tokens.map (t :: ·)
termination_by l.remaining

end Loop

end Lexer

end QueryTree
