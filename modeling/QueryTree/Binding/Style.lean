/-! # Styles of parameters

Whether a query gives its parameters by name or by position, judged by its text alone.
-/

namespace QueryTree

inductive BindStyle where
  | named | positional
  deriving DecidableEq

/-- A colon at the end or before anything but an ASCII digit. -/
def marksName : List Char → Bool
  | [] => false
  | [c] => c == ':'
  | c :: d :: rest => c == ':' && !d.isDigit || marksName (d :: rest)

def BindStyle.ofText (text : String) : BindStyle :=
  if marksName text.toList then named else positional

end QueryTree
