/-! # Settings

Read from the environment: how many queries a cache may hold, and what is logged.
-/

namespace QueryTree

/-- Without a capacity a cache holds any number of queries. -/
structure Settings where
  cacheCapacity : Option Nat
  logLevel : String
  deriving DecidableEq

namespace Settings

def initial : Settings := ⟨none, "warn"⟩

/-- ASCII digits, after a plus sign or none, for a number below `2 ^ 64`. -/
def capacity? (text : String) : Option Nat :=
  let digits :=
    match text.toList with
    | '+' :: rest => rest
    | cs => cs
  let n := Nat.ofDigitChars 10 digits 0
  if digits ≠ [] ∧ digits.all Char.isDigit ∧ n < UInt64.size then some n else none

/-- A variable that cannot be read as what it sets is passed over. -/
def ofEnvironment (get : String → Option String) : Settings where
  cacheCapacity := (get "QUERY_CACHE_CAPACITY").bind capacity?
  logLevel := (get "LOG_LEVEL").getD initial.logLevel

end Settings

end QueryTree
