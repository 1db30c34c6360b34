/-! # Quoted text

A quote inside a quoted text is written twice. Reading goes on to the first quote that stands
alone and leaves what follows it.
-/

namespace QueryTree.Text

def doubled (quote : Char) : List Char → List Char
  | [] => []
  | c :: rest => if c = quote then quote :: quote :: doubled quote rest else c :: doubled quote rest

def quoted (s : String) : String := String.ofList ('\'' :: doubled '\'' s.toList ++ ['\''])

/-- The text up to the closing quote and what follows that quote, if there is one. -/
def unquote? (quote : Char) : List Char → Option (List Char × List Char)
  | [] => none
  | [c] => if c = quote then some ([], []) else none
  | c :: d :: rest =>
    if c = quote then
      if d = quote then (unquote? quote rest).map fun (text, after) => (quote :: text, after)
      else some ([], d :: rest)
    else
      (unquote? quote (d :: rest)).map fun (text, after) => (c :: text, after)

end QueryTree.Text
