/-! # JSON values and their text

Objects keep their fields in the order in which they are listed. Text is compact or indented by two
blanks a level; only quotes, backslashes and control characters are escaped.
-/

namespace QueryTree

inductive Json where
  | null
  | bool (b : Bool)
  | num (n : Int)
  | str (s : String)
  | arr (items : List Json)
  | obj (fields : List (String × Json))

namespace Json

def hexDigit (n : Nat) : Char := "0123456789abcdef".toList.getD n '0'

def escapeChar (c : Char) : List Char :=
  if c = '"' then ['\\', '"']
  else if c = '\\' then ['\\', '\\']
  else if c = '\n' then ['\\', 'n']
  else if c = '\r' then ['\\', 'r']
  else if c = '\t' then ['\\', 't']
  else if c = '\x08' then ['\\', 'b']
  else if c = '\x0c' then ['\\', 'f']
  else if c.toNat < 0x20 then
    ['\\', 'u', '0', '0', hexDigit (c.toNat / 16), hexDigit (c.toNat % 16)]
  else [c]

def escape (s : String) : String :=
  String.ofList ('"' :: s.toList.flatMap escapeChar ++ ['"'])

mutual

def compact : Json → String
  | null => "null"
  | bool true => "true"
  | bool false => "false"
  | num n => n.repr
  | str s => escape s
  | arr items => "[" ++ ",".intercalate (compactItems items) ++ "]"
  | obj fields => "\x7b" ++ ",".intercalate (compactFields fields) ++ "\x7d"

def compactItems : List Json → List String
  | [] => []
  | v :: rest => compact v :: compactItems rest

def compactFields : List (String × Json) → List String
  | [] => []
  | f :: rest => compactField f :: compactFields rest

def compactField : String × Json → String
  | (key, v) => escape key ++ ":" ++ compact v

end

def newline (depth : Nat) : String := String.ofList ('\n' :: List.replicate (2 * depth) ' ')

def enclose (depth : Nat) (opening closing : String) : List String → String
  | [] => opening ++ closing
  | parts =>
    opening ++ newline (depth + 1) ++ ("," ++ newline (depth + 1)).intercalate parts ++
      newline depth ++ closing

mutual

def indented (depth : Nat) : Json → String
  | arr items => enclose depth "[" "]" (indentedItems (depth + 1) items)
  | obj fields => enclose depth "\x7b" "\x7d" (indentedFields (depth + 1) fields)
  | null => compact null
  | bool b => compact (bool b)
  | num n => compact (num n)
  | str s => compact (str s)

def indentedItems (depth : Nat) : List Json → List String
  | [] => []
  | v :: rest => indented depth v :: indentedItems depth rest

def indentedFields (depth : Nat) : List (String × Json) → List String
  | [] => []
  | f :: rest => indentedField depth f :: indentedFields depth rest

def indentedField (depth : Nat) : String × Json → String
  | (key, v) => escape key ++ ": " ++ indented depth v

end

def pretty (v : Json) : String := indented 0 v

end Json

end QueryTree
