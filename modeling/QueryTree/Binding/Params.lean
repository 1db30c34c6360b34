import QueryTree.Binding.Value
import QueryTree.Statement

/-! # Values for parameters

The placeholders of a statement, each once, and the values given so far by name and by position. A
later value replaces an earlier one, and a value given by position goes before one given by name.
-/

namespace QueryTree

structure Params where
  placeholders : List Param
  byName : List (String × Value)
  byPosition : List (Nat × Value)

namespace Params

/-- The placeholders stand in the order of their first occurrence, and none has a value yet. -/
def ofStatement (s : Statement) : Params := ⟨s.params.eraseDups, [], []⟩

def names (ps : Params) : List String := ps.placeholders.map Param.name

def contains (ps : Params) (name : String) : Bool := ps.placeholders.any (·.name = name)

def bind (ps : Params) (name : String) (v : Value) : Params :=
  { ps with byName := (name, v) :: ps.byName }

def bindPosition (ps : Params) (position : Nat) (v : Value) : Params :=
  { ps with byPosition := (position, v) :: ps.byPosition }

def get? (ps : Params) (p : Param) : Option Value :=
  (p.position.bind fun n => ps.byPosition.lookup n).or (ps.byName.lookup p.name)

def unbound (ps : Params) : List Param := ps.placeholders.filter fun p => (ps.get? p).isNone

end Params

end QueryTree
