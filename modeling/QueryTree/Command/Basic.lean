import QueryTree.Binding.Params
import QueryTree.Command.Arguments
import QueryTree.Grammar.Session
import QueryTree.Json.Statement
import QueryTree.Manual
import QueryTree.MethodName.Derive

/-! # Commands

What the program does with its arguments and its input: it shows the tree of a query, or a page of
the manual. Trees are printed as JSON.
-/

namespace QueryTree

inductive Command where
  | check (query entity : Option String) (pretty syntaxOnly : Bool)
  | derive (method entity : String) (pretty : Bool)
  | tokens (method : String)
  | overview
  | topic (name : String)
  | version

inductive CommandError where
  | parse (e : ParseError)
  | method (e : MethodError)
  | invalidText
  | unknownTopic (name : String)
  deriving DecidableEq

def CommandError.message : CommandError → String
  | parse e => "Parse error: " ++ e.message
  | method e => "Method error: " ++ e.message
  | invalidText => "IO error: stream did not contain valid UTF-8"
  | unknownTopic name =>
    "Unknown category: '" ++ name ++ "'\nRun 'equery docs' to see available categories."

structure Output where
  code : Nat
  out : String
  err : String
  deriving DecidableEq

namespace Command

def entitySwitch : Switch := ⟨"entity", some 'e', true⟩

def prettySwitch : Switch := ⟨"pretty", some 'p', false⟩

def syntaxSwitch : Switch := ⟨"syntax-only", none, false⟩

def checkOf? (args : List String) : Option Command := do
  let a ← Arguments.ofList? [entitySwitch, prettySwitch, syntaxSwitch] args
  let query ←
    match a.plain with
    | [] => some none
    | [query] => some (some query)
    | _ => none
  return check query (a.values.lookup "entity") ("pretty" ∈ a.flags) ("syntax-only" ∈ a.flags)

def deriveOf? (args : List String) : Option Command := do
  let a ← Arguments.ofList? [entitySwitch, prettySwitch] args
  let entity ← a.values.lookup "entity"
  match a.plain with
  | [method] => return derive method entity ("pretty" ∈ a.flags)
  | _ => none

def single? (args : List String) : Option String := do
  match (← Arguments.ofList? [] args).plain with
  | [text] => return text
  | _ => none

def ofArguments? : List String → Option Command
  | [] => none
  | word :: args =>
    if word = "check" ∨ word = "parse" then checkOf? args
    else if word = "derive" then deriveOf? args
    else if word = "tokens" then (single? args).map tokens
    else if word = "docs" then
      (Arguments.ofList? [] args).bind fun a => if a.plain = [] then some overview else none
    else if word = "doc" then (single? args).map topic
    else if word = "--version" ∨ word.startsWith "-V" then some version
    else none

def checkTree (query : String) (entity : Option String) : Except CommandError Json :=
  match QueryTree.parse query entity with
  | .error e => .error (.parse e)
  | .ok s =>
    let names := Json.arr ((Params.ofStatement s).names.map .str)
    .ok (.obj (Json.insertField "params" names s.jsonFields))

def deriveTree (method entity : String) : Except CommandError Json :=
  match QueryTree.derive method entity with
  | .error e => .error (.method e)
  | .ok s => .ok s.toJson

def topicText (name : String) : Except CommandError String :=
  match Manual.Topic.ofName? name with
  | some t => .ok t.text
  | none => .error (.unknownTopic name)

def printed (pretty : Bool) (tree : Json) : String :=
  (if pretty then tree.pretty else tree.compact) ++ "\n"

/-- The query of a check is read from the input if the arguments give none. -/
def readsInput : Command → Bool
  | check none .. => true
  | _ => false

def text (input : ByteArray) : Command → Except CommandError String
  | check query entity pretty syntaxOnly => do
    let query ←
      match query with
      | some query => pure query
      | none =>
        match String.fromUTF8? input with
        | some query => pure query
        | none => throw .invalidText
    let tree ← checkTree query entity
    return if syntaxOnly then "Syntax is valid\n" else printed pretty tree
  | derive method entity pretty => (deriveTree method entity).map (printed pretty)
  | tokens method => .ok (Manual.lines (MethodName.words method))
  | overview => .ok Manual.overview
  | topic name => topicText name
  | version => .ok "equery 0.1.0\n"

/-- Arguments that are not understood end the run with code 2. -/
def run (args : List String) (input : ByteArray) : Output :=
  match ofArguments? args with
  | none => ⟨2, "", ""⟩
  | some command =>
    match command.text input with
    | .ok out => ⟨0, out, ""⟩
    | .error e => ⟨1, "", e.message ++ "\n"⟩

end Command

end QueryTree
