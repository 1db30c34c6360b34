/-! # Parameters

Placeholders for values that are given later. A query in text names them or numbers them; a method
name gives each both a name and a position.
-/

namespace QueryTree

structure Param where
  name : String
  position : Option Nat
  deriving DecidableEq

namespace Param

def named (name : String) : Param := ⟨name, none⟩

/-- The name of a numbered placeholder is its spelling, such as `?1`. -/
def positional (position : Nat) : Param := ⟨"?" ++ position.repr, some position⟩

def indexed (name : String) (position : Nat) : Param := ⟨name, some position⟩

def render (p : Param) : String :=
  match p.position with
  | some n => if p.name = "?" ++ n.repr then "?" ++ n.repr else ":" ++ p.name
  | none => ":" ++ p.name

end Param

end QueryTree
