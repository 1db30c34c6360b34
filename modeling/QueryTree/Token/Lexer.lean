import QueryTree.Token.Cursor

/-! # Reading by position

A lexer stands at a position of a text. Moving on never looks at the end of the text: whether a
character is there is asked only when it is read. The position where the last token started is kept
beside the one where the lexer stands.
-/

namespace QueryTree

def Lexed.answer (start : Nat) : Lexed → Except LexError (Option Token)
  | token t => .ok (some t)
  | finished => .ok none
  | fault f => .error ⟨f, start⟩

structure Lexer where
  input : Array Char
  position : Nat
  tokenStart : Nat

namespace Lexer

open Text

def ofText (text : String) : Lexer := ⟨text.toList.toArray, 0, 0⟩

def peek? (l : Lexer) (offset : Nat) : Option Char := l.input[l.position + offset]?

def advance (l : Lexer) : Lexer := { l with position := l.position + 1 }

/-- The spelling of the token read last, unless its positions are out of order or out of range. -/
def lexeme? (l : Lexer) : Option String :=
  if l.tokenStart ≤ l.position ∧ l.position ≤ l.input.size then
    some (String.ofList (l.input.toList.extract l.tokenStart l.position))
  else none

def remaining (l : Lexer) : Nat := l.input.size - l.position

theorem remaining_advance_le (l : Lexer) : l.advance.remaining ≤ l.remaining :=
  Nat.sub_le_sub_left (Nat.le_succ _) _

theorem remaining_advance_lt {l : Lexer} {c : Char} (h : l.peek? 0 = some c) :
    l.advance.remaining < l.remaining := by
  have : l.position < l.input.size := (Array.getElem?_eq_some_iff.mp h).1
  simp only [remaining, advance]
  omega

/-- The characters from here on that have a property, and the lexer behind them. -/
def readWhile (p : Char → Bool) (l : Lexer) : List Char × Lexer :=
  match h : l.peek? 0 with
  | some c =>
    if p c then
      have := remaining_advance_lt h
      let (cs, later) := l.advance.readWhile p
      (c :: cs, later)
    else ([], l)
  | none => ([], l)
termination_by l.remaining

def readQuoted (quote : Char) (l : Lexer) : Option (List Char) × Lexer :=
  match h : l.peek? 0 with
  | some c =>
    have shorter := remaining_advance_lt h
    if c = quote then
      if l.peek? 1 = some quote then
        have := Nat.lt_of_le_of_lt l.advance.remaining_advance_le shorter
        let (content, later) := l.advance.advance.readQuoted quote
        (content.map (quote :: ·), later)
      else (some [], l.advance)
    else
      let (content, later) := l.advance.readQuoted quote
      (content.map (c :: ·), later)
  | none => (none, l)
termination_by l.remaining

abbrev Step : Type := Except LexError (Option Token) × Lexer

def readText (quote : Char) (l : Lexer) : Step :=
  let start := l.position
  match l.advance.readQuoted quote with
  | (some content, later) => (.ok (some (.string (String.ofList content))), later)
  | (none, later) => (.error ⟨.unterminatedString, start⟩, later)

def readUnsigned (start : Nat) (negative : Bool) (l : Lexer) : Step :=
  let (whole, l) := l.readWhile Char.isDigit
  if l.peek? 0 = some '.' ∧ (l.peek? 1).any Char.isDigit then
    let (fraction, l) := l.advance.readWhile Char.isDigit
    ((Lexed.ofDecimal negative whole fraction).answer start, l)
  else ((Lexed.ofInteger negative whole).answer start, l)

def readNumber (l : Lexer) : Step :=
  if l.peek? 0 = some '-' then l.advance.readUnsigned l.position true
  else if l.peek? 0 = some '+' then l.advance.readUnsigned l.position false
  else l.readUnsigned l.position false

def readNamed (l : Lexer) : Step :=
  let start := l.position
  let l := l.advance
  match l.peek? 0 with
  | some c =>
    if isWordStart c then
      let (name, l) := l.readWhile isWordChar
      (.ok (some (.named (String.ofList name))), l)
    else (.error ⟨.invalidParameter (String.ofList [':', c]), start⟩, l)
  | none => (.error ⟨.invalidParameter ":", start⟩, l)

def readPositional (l : Lexer) : Step :=
  let start := l.position
  let (digits, l) := l.advance.readWhile Char.isDigit
  let n := Nat.ofDigitChars 10 digits 0
  if 0 < n ∧ n < UInt64.size then (.ok (some (.positional n)), l)
  else (.error ⟨.invalidParameter (String.ofList ('?' :: digits)), start⟩, l)

def readWord (l : Lexer) : Step :=
  let (word, l) := l.readWhile isWordChar
  (.ok (some (.ofWord (String.ofList word))), l)

def mark (m : Mark) (l : Lexer) : Step := (.ok (some (.mark m)), l)

/-- What starts with a character `c` that is a mark of its own neither alone nor with another. -/
def readPlain (c : Char) (l : Lexer) : Step :=
  if c = '\'' ∨ c = '"' then l.readText c
  else if c = ':' then l.readNamed
  else if c = '?' then l.readPositional
  else if (c = '-' ∨ c = '+') ∧ (l.peek? 1).any Char.isDigit then l.readNumber
  else if c.isDigit then l.readNumber
  else if isWordStart c then l.readWord
  else (.error ⟨.unexpectedChar c, l.position⟩, l)

def read (l : Lexer) : Step :=
  match l.peek? 0 with
  | none => (.ok none, l)
  | some '(' => mark .opening l.advance
  | some ')' => mark .closing l.advance
  | some ',' => mark .comma l.advance
  | some '.' => mark .dot l.advance
  | some '*' => mark .star l.advance
  | some '=' => mark .equal l.advance
  | some '<' =>
    match l.peek? 1 with
    | some '=' => mark .lessEqual l.advance.advance
    | some '>' => mark .notEqual l.advance.advance
    | _ => mark .less l.advance
  | some '>' =>
    if l.peek? 1 = some '=' then mark .greaterEqual l.advance.advance
    else mark .greater l.advance
  | some c =>
    if c = '!' ∧ l.peek? 1 = some '=' then mark .notEqual l.advance.advance else l.readPlain c

/-- Passes over blanks and reads the token that follows. -/
def next (l : Lexer) : Step :=
  let l := (l.readWhile isBlank).2
  read { l with tokenStart := l.position }

end Lexer

end QueryTree
