import QueryTree.Binding.Value
import QueryTree.Text.Dotted

/-! # Enum constants

A path names a constant by its last segment and the type by the one before. A registry lists the
constants of types, which are known by the last segment of their names.
-/

namespace QueryTree

/-- The constant that a path names, whether it exists or not. -/
def Value.ofEnumPath? (path : String) : Option Value :=
  (Text.lastTwo? path).map fun (type, constant) => .enum type constant

structure EnumRegistry where
  types : List (String × List String)

namespace EnumRegistry

def empty : EnumRegistry := ⟨[]⟩

/-- Takes the place of an earlier type with the same last segment. -/
def register (r : EnumRegistry) (type : String) (constants : List String) : EnumRegistry :=
  ⟨(Text.lastSegment type, constants) :: r.types⟩

def resolve? (r : EnumRegistry) (path : String) : Option Value :=
  match Text.lastTwo? path with
  | none => none
  | some (type, constant) =>
    match r.types.lookup type with
    | none => none
    | some constants => if constant ∈ constants then some (.enum type constant) else none

end EnumRegistry

end QueryTree
