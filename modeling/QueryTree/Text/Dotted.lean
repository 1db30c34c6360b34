/-! # Dotted names

Names such as `address.city`, taken apart at their dots.
-/

namespace QueryTree.Text

/-- A name without a dot is its only segment. -/
def segments (s : String) : List String := (s.toList.splitOn '.').map String.ofList

theorem segments_ne_nil (s : String) : segments s ≠ [] := by
  rw [segments, Ne, List.map_eq_nil_iff]
  exact List.splitOn_ne_nil _ _

def lastSegment (s : String) : String := ((segments s).getLast?).getD s

theorem lastSegment_eq_iff {s last : String} :
    lastSegment s = last ↔ ∃ front, segments s = front ++ [last] := by
  rw [← List.getLast?_eq_some_iff, lastSegment]
  cases ends : (segments s).getLast? with
  | none => exact absurd (List.getLast?_eq_none_iff.mp ends) (segments_ne_nil s)
  | some segment => simp

def lastTwo? (s : String) : Option (String × String) :=
  match (segments s).reverse with
  | last :: secondLast :: _ => some (secondLast, last)
  | _ => none

end QueryTree.Text
