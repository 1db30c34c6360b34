import QueryTree.Grammar.Fault

/-! # Readers

A reader faces one lexeme of a query and knows the events after it. An error may leave no reader
behind.
-/

namespace QueryTree

/-- Where reading stands: at the end of the query, or at a lexeme with events after it. -/
inductive Reader where
  | finished
  | facing (current : Lexeme) (ahead : List Event)
  deriving DecidableEq

/-- Where reading leaves a query: at a reader, or cut off before events that are read no more. The
spelling of the lexeme that was faced then is kept. -/
inductive Stand where
  | reader (r : Reader)
  | cutOff (text : String) (unread : List Event)
  deriving DecidableEq

instance : Coe Reader Stand := ⟨.reader⟩

namespace Reader

def size : Reader → Nat
  | finished => 0
  | facing _ ahead => ahead.length + 1

theorem size_le_of_lt {r r₁ : Reader} {n : Nat} (h₁ : r₁.size < r.size) (h : r.size ≤ n) :
    r₁.size ≤ n :=
  Nat.le_of_lt (Nat.lt_of_lt_of_le h₁ h)

def token? : Reader → Option Token
  | finished => none
  | facing l _ => some l.token

def unexpected (r : Reader) (expected : Expectation) : ParseFault :=
  match r with
  | finished => .ended expected
  | facing l _ => .unexpected l.text expected

end Reader

/-- The token that is faced. A query that is cut off counts as ended. -/
def Stand.token? : Stand → Option Token
  | reader r => r.token?
  | cutOff .. => none

end QueryTree
