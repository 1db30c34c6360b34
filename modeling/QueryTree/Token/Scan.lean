import QueryTree.Text.Blank
import QueryTree.Text.Letter
import QueryTree.Token.Basic

/-! # Reading tokens

The longest token at the front of a text, without regard to where the text stands. Integers are the
64-bit ones, the numbers of parameters the positive ones below `2 ^ 64`.
-/

namespace QueryTree

inductive LexFault where
  | unexpectedChar (c : Char)
  | unterminatedString
  | invalidNumber (text : String)
  | invalidParameter (text : String)
  deriving DecidableEq

/-- An unexpected character is not passed over: reading again meets it again. -/
def LexFault.recurs : LexFault → Bool
  | unexpectedChar _ => true
  | _ => false

inductive Lexed where
  | token (t : Token)
  | fault (f : LexFault)
  | finished
  deriving DecidableEq

namespace Lexed

open Text

def ofInteger (negative : Bool) (digits : List Char) : Lexed :=
  let size : Int := Nat.ofDigitChars 10 digits 0
  let value := if negative then -size else size
  if Int64.minValue.toInt ≤ value ∧ value ≤ Int64.maxValue.toInt then token (.integer value)
  else fault (.invalidNumber (String.ofList (if negative then '-' :: digits else digits)))

def ofDecimal (negative : Bool) (whole fraction : List Char) : Lexed :=
  match Decimal.ofDigits? negative whole fraction with
  | some d => token (.decimal d)
  | none =>
    let digits := whole ++ '.' :: fraction
    fault (.invalidNumber (String.ofList (if negative then '-' :: digits else digits)))

/-- A number after its sign. A point belongs to it only if a digit follows. -/
def number (negative : Bool) (cs : List Char) : Lexed × List Char :=
  let whole := cs.takeWhile Char.isDigit
  let rest := cs.dropWhile Char.isDigit
  match rest with
  | '.' :: more =>
    if startsWithDigit more then
      (ofDecimal negative whole (more.takeWhile Char.isDigit), more.dropWhile Char.isDigit)
    else
      (ofInteger negative whole, rest)
  | _ => (ofInteger negative whole, rest)

def text (quote : Char) (cs : List Char) : Lexed × List Char :=
  match unquote? quote cs with
  | some (content, rest) => (token (.string (String.ofList content)), rest)
  | none => (fault .unterminatedString, [])

def named : List Char → Lexed × List Char
  | [] => (fault (.invalidParameter ":"), [])
  | c :: rest =>
    if isWordStart c then
      (token (.named (String.ofList ((c :: rest).takeWhile isWordChar))),
        (c :: rest).dropWhile isWordChar)
    else
      (fault (.invalidParameter (String.ofList [':', c])), c :: rest)

def positional (cs : List Char) : Lexed × List Char :=
  let digits := cs.takeWhile Char.isDigit
  let n := Nat.ofDigitChars 10 digits 0
  let rest := cs.dropWhile Char.isDigit
  if 0 < n ∧ n < UInt64.size then (token (.positional n), rest)
  else (fault (.invalidParameter (String.ofList ('?' :: digits))), rest)

def mark? (cs : List Char) : Option (Mark × List Char) :=
  Mark.spellings.findSome? fun (spelling, m) =>
    if spelling.isPrefixOf cs then some (m, cs.drop spelling.length) else none

/-- The front of a text that starts with no blank, and the rest of the text. -/
def ofChars (cs : List Char) : Lexed × List Char :=
  match mark? cs with
  | some (m, rest) => (token (.mark m), rest)
  | none =>
    match cs with
    | [] => (finished, [])
    | c :: rest =>
      if c = '\'' ∨ c = '"' then text c rest
      else if c = ':' then named rest
      else if c = '?' then positional rest
      else if c.isDigit then number false cs
      else if (c = '-' ∨ c = '+') ∧ startsWithDigit rest then number (c = '-') rest
      else if isWordStart c then
        (token (.ofWord (String.ofList (cs.takeWhile isWordChar))), cs.dropWhile isWordChar)
      else (fault (.unexpectedChar c), cs)

/-- Whether reading on starts further on in the text. -/
def advances : Lexed → Bool
  | token _ => true
  | fault f => !f.recurs
  | finished => false

theorem length_dropWhile_le {α : Type} (p : α → Bool) (l : List α) :
    (l.dropWhile p).length ≤ l.length :=
  (List.dropWhile_suffix p).length_le

theorem number_suffix (negative : Bool) (cs : List Char) : (number negative cs).2 <:+ cs := by
  have whole : cs.dropWhile Char.isDigit <:+ cs := List.dropWhile_suffix _
  simp only [number]
  split
  · next more heq =>
    split
    · exact ((List.dropWhile_suffix _).trans (List.suffix_cons '.' more)).trans (heq ▸ whole)
    · exact whole
  · exact whole

theorem length_number_lt {negative : Bool} {c : Char} {rest : List Char} (h : c.isDigit) :
    (number negative (c :: rest)).2.length < (c :: rest).length := by
  have whole : ((c :: rest).dropWhile Char.isDigit).length ≤ rest.length := by
    simpa [h] using length_dropWhile_le Char.isDigit rest
  simp only [number, List.length_cons]
  split
  · next more heq =>
    have := length_dropWhile_le Char.isDigit more
    rw [heq, List.length_cons] at whole
    split
    · simp only; omega
    · simp only [heq, List.length_cons]; omega
  · simp only; omega

theorem unquote?_suffix {quote : Char} {cs content rest : List Char}
    (h : unquote? quote cs = some (content, rest)) : rest <:+ cs := by
  fun_induction unquote? quote cs generalizing content rest with
  | case1 => simp at h
  | case2 => cases h; exact List.nil_suffix
  | case3 => simp at h
  | case4 r ih =>
    obtain ⟨⟨_, _⟩, hr, heq⟩ := Option.map_eq_some_iff.mp h
    cases heq
    exact (ih hr).trans ((List.suffix_cons _ _).trans (List.suffix_cons _ _))
  | case5 d r _ => cases h; exact List.suffix_cons _ _
  | case6 c d r _ ih =>
    obtain ⟨⟨_, _⟩, hr, heq⟩ := Option.map_eq_some_iff.mp h
    cases heq
    exact (ih hr).trans (List.suffix_cons _ _)

theorem text_suffix (quote : Char) (cs : List Char) : (text quote cs).2 <:+ cs := by
  unfold text
  split
  · next h => exact unquote?_suffix h
  · exact List.nil_suffix

theorem named_suffix (cs : List Char) : (named cs).2 <:+ cs := by
  cases cs with
  | nil => exact List.nil_suffix
  | cons c rest =>
    simp only [named]
    split
    · exact List.dropWhile_suffix _
    · exact List.suffix_rfl

theorem positional_suffix (cs : List Char) : (positional cs).2 <:+ cs := by
  simp only [positional]
  split <;> exact List.dropWhile_suffix _

theorem mark?_suffix {cs rest : List Char} {m : Mark} (h : mark? cs = some (m, rest)) :
    rest <:+ cs ∧ rest.length < cs.length := by
  obtain ⟨⟨spelling, m'⟩, mem, hm⟩ := List.exists_of_findSome?_eq_some h
  simp only [Option.ite_none_right_eq_some, Option.some.injEq, Prod.mk.injEq] at hm
  obtain ⟨front, rfl, rfl⟩ := hm
  have nonempty : ∀ s ∈ Mark.spellings, 0 < s.1.length := by decide
  have : 0 < spelling.length := nonempty _ mem
  have : spelling.length ≤ cs.length := (List.isPrefixOf_iff_prefix.mp front).length_le
  exact ⟨List.drop_suffix _ _, by simp; omega⟩

theorem ofChars_suffix (cs : List Char) : (ofChars cs).2 <:+ cs := by
  unfold ofChars
  split
  · next h => exact (mark?_suffix h).1
  · cases cs with
    | nil => exact List.suffix_rfl
    | cons c rest =>
      have tail := List.suffix_cons c rest
      simp only
      split
      · exact (text_suffix c rest).trans tail
      split
      · exact (named_suffix rest).trans tail
      split
      · exact (positional_suffix rest).trans tail
      split
      · exact number_suffix false _
      split
      · exact (number_suffix _ rest).trans tail
      split
      · exact List.dropWhile_suffix _
      · exact List.suffix_rfl

theorem length_ofChars_lt {cs : List Char} (h : (ofChars cs).1.advances) :
    (ofChars cs).2.length < cs.length := by
  revert h
  unfold ofChars
  split
  · next h => exact fun _ => (mark?_suffix h).2
  · cases cs with
    | nil => exact fun h => absurd h (by simp [advances])
    | cons c rest =>
      have short : ∀ {l : List Char}, l <:+ rest → l.length < (c :: rest).length :=
        fun h => Nat.lt_succ_of_le h.length_le
      simp only
      split
      · exact fun _ => short (text_suffix c rest)
      split
      · exact fun _ => short (named_suffix rest)
      split
      · exact fun _ => short (positional_suffix rest)
      split
      · next hc => exact fun _ => length_number_lt hc
      split
      · exact fun _ => short (number_suffix _ rest)
      split
      · next hc =>
        intro _
        rw [List.dropWhile_cons_of_pos (isWordChar_of_isWordStart hc)]
        exact short (List.dropWhile_suffix _)
      · exact fun h => absurd h (by simp [advances, LexFault.recurs])

end Lexed

end QueryTree
