import QueryTree.Text.Case
import QueryTree.Text.Letter

/-! # Property words

The word `Salary_Currency` stands for the field `salary.currency`.
-/

namespace QueryTree.MethodName

open Text

/-- The first letter becomes small, unless the word opens with an acronym. -/
def decapitalize : List Char → List Char
  | [] => []
  | [c] => lowerChar c
  | c :: d :: rest =>
    if isCapital c && isCapital d then c :: d :: rest else lowerChar c ++ d :: rest

/-- Underscores divide the segments of the field; empty segments are left out. -/
def fieldOf (word : String) : String :=
  ".".intercalate
    (((word.toList.splitOn '_').filter (· ≠ [])).map fun part => String.ofList (decapitalize part))

end QueryTree.MethodName
