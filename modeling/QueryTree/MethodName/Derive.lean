import QueryTree.MethodName.Derivation
import QueryTree.MethodName.Words
import QueryTree.Text.Blank

/-! # Deriving statements from method names

Every word of a method name has to find its place: the verb, the subject up to `By` or `OrderBy`,
the predicate up to `OrderBy`, and the order up to the end.
-/

namespace QueryTree

namespace MethodName

inductive MethodFault where
  | unknownVerb (verb : String)
  | unexpectedWord (word : String)
  | missingProperty
  | invalidLimit (limit : String)
  | verbOnly
  deriving DecidableEq

def verbs : List (String × Verb) :=
  [("find", .find), ("count", .count), ("exists", .exists_), ("delete", .delete)]

def terminals : List (String × Terminal) :=
  [("Equals", .compare .equals), ("GreaterThan", .compare .greaterThan),
   ("GreaterThanEqual", .compare .greaterEqualsThan), ("LessThan", .compare .lesserThan),
   ("LessThanEqual", .compare .lesserEqualsThan), ("Like", .compare .like), ("In", .compare .in_),
   ("Contains", .compare .contains), ("StartsWith", .compare .startsWith),
   ("EndsWith", .compare .endsWith), ("Between", .between), ("True", .boolean true),
   ("False", .boolean false), ("Null", .null)]

def isKeyword (word : String) : Bool :=
  (terminals.lookup word).isSome ||
    ["And", "Or", "Not", "IgnoreCase", "OrderBy", "By", "Asc", "Desc"].contains word

/-- A positive number below `2 ^ 64`. -/
def limit? (word : String) : Option Nat :=
  let n := Nat.ofDigitChars 10 word.toList 0
  if word.toList.all Char.isDigit ∧ 0 < n ∧ n < UInt64.size then some n else none

/-- The limit that the subject sets, starting from `limit`, and the words from `By` or `OrderBy` on.
Only a search can be limited, and only once. -/
def subject (verb : Verb) (limit : Nat) : List String → Except MethodFault (Nat × List String)
  | [] => .ok (limit, [])
  | word :: rest =>
    if word = "By" ∨ word = "OrderBy" then .ok (limit, word :: rest)
    else if word = "All" then subject verb limit rest
    else if (word = "First" ∨ word = "Top") ∧ verb = .find ∧ limit = 0 then
      match rest with
      | [] => .ok (1, [])
      | next :: rest =>
        if Text.startsWithDigit next.toList then
          match limit? next with
          | some n => subject verb n rest
          | none => .error (.invalidLimit next)
        else subject verb 1 (next :: rest)
    else .error (.unexpectedWord word)

structure Modifiers where
  negated : Bool
  ignoreCase : Bool
  terminal : Option Terminal

def modifiers (m : Modifiers) : List String → Except MethodFault Modifiers
  | [] => .ok m
  | word :: rest =>
    if word = "Not" ∧ !m.negated then modifiers { m with negated := true } rest
    else if word = "IgnoreCase" ∧ !m.ignoreCase then modifiers { m with ignoreCase := true } rest
    else
      match terminals.lookup word, m.terminal with
      | some t, none => modifiers { m with terminal := some t } rest
      | _, _ => .error (.unexpectedWord word)

/-- Without a terminal the property is tested for equality. -/
def segment : List String → Except MethodFault Segment
  | [] => .error .missingProperty
  | property :: rest =>
    if isKeyword property then .error (.unexpectedWord property)
    else
      (modifiers ⟨false, false, none⟩ rest).map fun m =>
        ⟨property, m.negated, m.ignoreCase, m.terminal.getD (.compare .equals)⟩

def predicate (words : List String) : Except MethodFault (List (List Segment)) :=
  if words = [] then .ok []
  else (words.splitOn "Or").mapM fun group => (group.splitOn "And").mapM segment

def sorts : List String → Except MethodFault (List SortKey)
  | [] => .ok []
  | word :: rest =>
    if isKeyword word then .error (.unexpectedWord word)
    else
      match rest with
      | [] => .ok [⟨fieldOf word, true⟩]
      | next :: rest =>
        if next = "Asc" then (sorts rest).map (⟨fieldOf word, true⟩ :: ·)
        else if next = "Desc" then (sorts rest).map (⟨fieldOf word, false⟩ :: ·)
        else (sorts (next :: rest)).map (⟨fieldOf word, true⟩ :: ·)

/-- The order from the word `OrderBy` on. A delete has none. -/
def order (verb : Verb) : List String → Except MethodFault (List SortKey)
  | [] => .ok []
  | word :: rest =>
    if verb = .delete then .error (.unexpectedWord word)
    else if rest = [] then .error .missingProperty
    else sorts rest

def predicateClause : List String → Except MethodFault (List (List Segment) × List String)
  | [] => .ok ([], [])
  | word :: rest =>
    if word = "By" then
      (predicate (rest.takeWhile (· ≠ "OrderBy"))).map (·, rest.dropWhile (· ≠ "OrderBy"))
    else .ok ([], word :: rest)

def Derivation.ofWords : List String → Except MethodFault Derivation
  | [] => .error (.unknownVerb "")
  | first :: rest =>
    match verbs.lookup first with
    | none => .error (.unknownVerb first)
    | some verb => do
      if rest = [] then throw .verbOnly
      let (limit, rest) ← subject verb 0 rest
      let (groups, rest) ← predicateClause rest
      let sorts ← order verb rest
      return { verb, limit, groups, sorts }

end MethodName

open MethodName

inductive MethodError where
  | emptyMethod
  | inMethod (fault : MethodFault) (method : String)
  deriving DecidableEq

namespace MethodError

def method? : MethodError → Option String
  | emptyMethod => none
  | inMethod _ method => some method

def message : MethodError → String
  | emptyMethod => "method name is empty"
  | inMethod (.unknownVerb verb) method =>
    "unsupported verb '" ++ verb ++ "' in method: " ++ method
  | inMethod (.unexpectedWord word) method => "unexpected '" ++ word ++ "' in method: " ++ method
  | inMethod .missingProperty method => "missing property in method: " ++ method
  | inMethod (.invalidLimit limit) method =>
    "invalid limit '" ++ limit ++ "' in method: " ++ method
  | inMethod .verbOnly method => "nothing follows the verb in method: " ++ method

end MethodError

def derive (method entity : String) : Except MethodError Statement :=
  if Text.allBlank method then .error .emptyMethod
  else
    match Derivation.ofWords (words method) with
    | .ok d => .ok (d.statement entity)
    | .error fault => .error (.inMethod fault method)

end QueryTree
