import QueryTree.Text.Ranges

/-! # Blank characters

The characters with the Unicode property `White_Space`. They separate the words of a query and
carry no meaning of their own.
-/

namespace QueryTree.Text

def blankRanges : List (Nat × Nat) :=
  [(0x9, 0xD), (0x20, 0x20), (0x85, 0x85), (0xA0, 0xA0), (0x1680, 0x1680), (0x2000, 0x200A),
   (0x2028, 0x2029), (0x202F, 0x202F), (0x205F, 0x205F), (0x3000, 0x3000)]

def isBlank (c : Char) : Bool := inRanges blankRanges c.toNat

/-- True of the empty text as well. -/
def allBlank (s : String) : Bool := s.toList.all isBlank

end QueryTree.Text
