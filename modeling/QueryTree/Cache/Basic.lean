import QueryTree.Cache.Settings
import QueryTree.Grammar.Session
import QueryTree.MethodName.Derive

/-! # The query cache

Each query is parsed once and kept under what it was asked by: its text, or a method name with its
entity. Entries are never replaced, and a full cache keeps no more of them. The serial number of an
entry tells whether two answers are one and the same stored query.
-/

namespace QueryTree

namespace Cache

inductive Key where
  | text (query : String)
  | method (entity name : String)
  deriving DecidableEq

structure Entry where
  serial : Nat
  statement : Statement

inductive Failure where
  | parse (e : ParseError)
  | method (e : MethodError)
  | wrongKind (expected : StatementKind) (query : String)
  deriving DecidableEq

def Failure.message : Failure → String
  | parse e => e.message
  | method e => e.message
  | wrongKind expected query => "expected a " ++ expected.name ++ " query: " ++ query

/-- A statement, and the serial number of the entry it is kept in, if it is kept. -/
structure Answer where
  statement : Statement
  serial : Option Nat

end Cache

/-- The entries, the latest first, and the serial number of the next one. -/
structure Cache where
  settings : Settings
  entries : List (Cache.Key × Cache.Entry)
  nextSerial : Nat

namespace Cache

def empty (settings : Settings) : Cache := ⟨settings, [], 0⟩

def size (c : Cache) : Nat := c.entries.length

def isFull (c : Cache) : Bool :=
  match c.settings.cacheCapacity with
  | some capacity => capacity ≤ c.size
  | none => false

def clear (c : Cache) : Cache := { c with entries := [] }

def insert (c : Cache) (key : Key) (s : Statement) : Cache :=
  { c with entries := (key, ⟨c.nextSerial, s⟩) :: c.entries, nextSerial := c.nextSerial + 1 }

/-- The statement that a key asks for, found without the cache. -/
def Key.resolve : Key → Except Failure Statement
  | text query => (QueryTree.parse query none).mapError .parse
  | method entity name => (QueryTree.derive name entity).mapError .method

/-- The statement that a key asks for, which is kept if there is room. -/
def lookup (c : Cache) (key : Key) : Except Failure Answer × Cache :=
  match c.entries.lookup key with
  | some entry => (.ok ⟨entry.statement, some entry.serial⟩, c)
  | none =>
    match key.resolve with
    | .error e => (.error e, c)
    | .ok s =>
      if c.isFull then (.ok ⟨s, none⟩, c)
      else (.ok ⟨s, some c.nextSerial⟩, c.insert key s)

def Answer.ofKind (kind : StatementKind) (query : String) (a : Answer) : Except Failure Answer :=
  if a.statement.kind = kind then .ok a else .error (.wrongKind kind query)

inductive Request where
  | query (text : String)
  | ofKind (kind : StatementKind) (text : String)
  | derive (method entity : String)
  deriving DecidableEq

/-- A query of the wrong kind is kept like any other. -/
def answer (c : Cache) : Request → Except Failure Answer × Cache
  | .query text => c.lookup (.text text)
  | .ofKind kind text =>
    let (result, c) := c.lookup (.text text)
    (result.bind (Answer.ofKind kind text), c)
  | .derive method entity => c.lookup (.method entity method)

end Cache

end QueryTree
