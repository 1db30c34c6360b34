import QueryTree.Token.Scan

/-! # Going through a text

A cursor stands somewhere in a text. Each step passes over blanks and reads the token that follows.
Faults do not end the reading, so a text yields a list of events: its lexemes and its errors.
-/

namespace QueryTree

/-- A fault and the place where the token at fault starts. -/
structure LexError where
  fault : LexFault
  position : Nat
  deriving DecidableEq

def LexError.message (e : LexError) : String :=
  match e.fault with
  | .unexpectedChar c =>
    "unexpected character '" ++ String.singleton c ++ "' at position " ++ e.position.repr
  | .unterminatedString => "unterminated string starting at position " ++ e.position.repr
  | .invalidNumber text => "invalid number '" ++ text ++ "' at position " ++ e.position.repr
  | .invalidParameter text => "invalid parameter '" ++ text ++ "' at position " ++ e.position.repr

structure Lexeme where
  token : Token
  text : String
  deriving DecidableEq

inductive Event where
  | lexeme (l : Lexeme)
  | error (e : LexError)
  deriving DecidableEq

/-- What is met after an error that `rest` follows. An error that recurs is met again. -/
def LexError.unread (e : LexError) (rest : List Event) : List Event :=
  if e.fault.recurs then .error e :: rest else rest

/-- What is left of a text, and the number of characters before it. -/
structure Cursor where
  rest : List Char
  position : Nat
  deriving DecidableEq

/-- One step of reading: what was met, the characters it took, where they start and what is left. -/
structure Scan where
  outcome : Lexed
  text : String
  start : Nat
  next : Cursor

namespace Cursor

def ofText (text : String) : Cursor := ⟨text.toList, 0⟩

def scan (c : Cursor) : Scan :=
  let blanks := c.rest.takeWhile Text.isBlank
  let body := c.rest.dropWhile Text.isBlank
  let (outcome, rest) := Lexed.ofChars body
  let used := body.take (body.length - rest.length)
  let start := c.position + blanks.length
  { outcome, text := String.ofList used, start, next := ⟨rest, start + used.length⟩ }

theorem length_scan_lt {c : Cursor} (h : c.scan.outcome.advances) :
    c.scan.next.rest.length < c.rest.length :=
  Nat.lt_of_lt_of_le (Lexed.length_ofChars_lt h) (Lexed.length_dropWhile_le _ _)

/-- The lexemes and errors up to the end of the text, or up to the first error that recurs. -/
def events (c : Cursor) : List Event :=
  match h : c.scan.outcome with
  | .finished => []
  | .token t =>
    have := length_scan_lt (c := c) (by simp [h, Lexed.advances])
    .lexeme ⟨t, c.scan.text⟩ :: c.scan.next.events
  | .fault f =>
    .error ⟨f, c.scan.start⟩ ::
      if hf : f.recurs then []
      else
        have := length_scan_lt (c := c) (by simpa [h, Lexed.advances] using hf)
        c.scan.next.events
termination_by c.rest.length

/-- The steps from here on up to the end or an error, which is met `stops` times more. -/
def trace (stops : Nat) (c : Cursor) : List Scan :=
  match h : c.scan.outcome, stops with
  | .token _, stops =>
    have := length_scan_lt (c := c) (by simp [h, Lexed.advances])
    c.scan :: c.scan.next.trace stops
  | _, 0 => [c.scan]
  | _, stops + 1 => c.scan :: c.scan.next.trace stops
termination_by (stops, c.rest.length)

end Cursor

def events (text : String) : List Event := (Cursor.ofText text).events

def lexemes (text : String) : Except LexError (List Lexeme) :=
  (events text).mapM fun
    | .lexeme l => .ok l
    | .error e => .error e

def tokenize (text : String) : Except LexError (List Token) :=
  (lexemes text).map fun ls => ls.map Lexeme.token

def fragments (text : String) : Except LexError (List String) :=
  (tokenize text).map fun ts => ts.map Token.fragment ++ [endOfQuery]

end QueryTree
