import QueryTree.MethodName.Words

/-! # Words cut off by their lengths in bytes

A text is cut at an offset in bytes. The cut fails unless a character of the text starts there or
the text ends there. A word of a method name is taken by computing its length in bytes and cutting
the name at this offset.
-/

namespace QueryTree.MethodName.Slicing

open Text

/-- An offset in bytes at which a text cannot be cut. -/
structure BadCut where
  text : String
  offset : Nat
  deriving DecidableEq

def splitAt (s : String) (offset : Nat) : Except BadCut (String × String) :=
  if h : (String.Pos.Raw.mk offset).IsValid s then
    let cut : s.Pos := ⟨⟨offset⟩, h⟩
    .ok ((s.sliceTo cut).copy, (s.sliceFrom cut).copy)
  else .error ⟨s, offset⟩

def dropBytes (s : String) (offset : Nat) : Except BadCut String := (splitAt s offset).map Prod.snd

theorem utf8ByteSize_of_dropBytes {s rest : String} {offset : Nat}
    (h : dropBytes s offset = .ok rest) : rest.utf8ByteSize = s.utf8ByteSize - offset := by
  simp only [dropBytes, splitAt] at h
  split at h
  · cases h
    simp
  · cases h

def find? (p : Char → Bool) (offset : Nat) : List Char → Option Nat
  | [] => none
  | c :: rest => if p c then some offset else find? p (offset + c.utf8Size) rest

/-- The offset of the next capital that does not follow an underscore, or of the end. -/
def humpEnd (glued : Bool) (offset : Nat) : List Char → Nat
  | [] => offset
  | c :: rest =>
    if isCapital c && !glued then offset else humpEnd (c == '_') (offset + c.utf8Size) rest

def humpLength (s : String) : Nat :=
  match s.toList with
  | [] => 0
  | c :: rest => humpEnd (c == '_') c.utf8Size rest

theorem le_humpEnd (glued : Bool) (offset : Nat) (cs : List Char) :
    offset ≤ humpEnd glued offset cs := by
  induction cs generalizing glued offset with
  | nil => exact Nat.le_refl _
  | cons c rest ih =>
    unfold humpEnd
    split
    · exact Nat.le_refl _
    · exact Nat.le_trans (Nat.le_add_right _ _) (ih _ _)

theorem humpLength_pos {s : String} (some : s ≠ "") : 0 < humpLength s := by
  unfold humpLength
  split
  · next none => exact absurd (String.toList_eq_nil_iff.mp none) some
  · next c rest _ => exact Nat.lt_of_lt_of_le c.utf8Size_pos (le_humpEnd _ _ _)

def keywordAt (s : String) : List String → Except BadCut (Option String)
  | [] => .ok none
  | k :: keywords =>
    if k.toList.isPrefixOf s.toList then do
      let rest ← dropBytes s k.utf8ByteSize
      if bounded k rest.toList then return some k else keywordAt s keywords
    else keywordAt s keywords

theorem mem_of_keywordAt {s k : String} {keywords : List String}
    (h : keywordAt s keywords = .ok (some k)) : k ∈ keywords := by
  induction keywords with
  | nil => cases h
  | cons first keywords ih =>
    unfold keywordAt at h
    split at h
    · cases cut : dropBytes s first.utf8ByteSize with
      | error e =>
        rw [cut] at h
        cases h
      | ok rest =>
        rw [cut] at h
        simp only [bind, Except.bind, pure, Except.pure] at h
        split at h
        · cases h
          exact List.mem_cons_self
        · exact List.mem_cons_of_mem _ (ih h)
    · exact List.mem_cons_of_mem _ (ih h)

theorem utf8ByteSize_lt_of_dropBytes {s k rest : String} {keywords : List String}
    (nonempty : "" ∉ keywords) (more : s ≠ "") (found : keywordAt s keywords = .ok (some k))
    (cut : dropBytes s k.utf8ByteSize = .ok rest) : rest.utf8ByteSize < s.utf8ByteSize := by
  have word : k.utf8ByteSize ≠ 0 := fun none =>
    nonempty (String.utf8ByteSize_eq_zero_iff.mp none ▸ mem_of_keywordAt found)
  have text : s.utf8ByteSize ≠ 0 := mt String.utf8ByteSize_eq_zero_iff.mp more
  have := utf8ByteSize_of_dropBytes cut
  omega

def suffixRun (s : String) : Except BadCut Bool :=
  if more : s = "" then .ok true
  else
    match keywordAt s connectors with
    | .error e => .error e
    | .ok (some _) => .ok true
    | .ok none =>
      match found : keywordAt s suffixes with
      | .error e => .error e
      | .ok none => .ok false
      | .ok (some k) =>
        match cut : dropBytes s k.utf8ByteSize with
        | .error e => .error e
        | .ok rest =>
          have := utf8ByteSize_lt_of_dropBytes (by decide) more found cut
          suffixRun rest
termination_by s.utf8ByteSize

def suffixAt (s : String) : Except BadCut (Option String) := do
  match ← keywordAt s suffixes with
  | none => return none
  | some k =>
    let run ← suffixRun (← dropBytes s k.utf8ByteSize)
    return if run then some k else none

theorem sub_humpLength_lt {s rest : String} {length : Nat} (more : length < s.utf8ByteSize)
    (cut : dropBytes s length = .ok rest) :
    s.utf8ByteSize - (length + humpLength rest) < s.utf8ByteSize - length := by
  have size := utf8ByteSize_of_dropBytes cut
  have some : rest ≠ "" := fun none => by
    rw [none, String.utf8ByteSize_empty] at size
    omega
  have := humpLength_pos some
  omega

/-- The length of a property that takes `length` bytes or more and ends before a hump where `ends`
holds. -/
def propertyLength (ends : String → Except BadCut Bool) (s : String) (length : Nat) :
    Except BadCut Nat :=
  if more : length < s.utf8ByteSize then
    match cut : dropBytes s length with
    | .error e => .error e
    | .ok rest =>
      match ends rest with
      | .error e => .error e
      | .ok true => .ok length
      | .ok false =>
        have := sub_humpLength_lt more cut
        propertyLength ends s (length + humpLength rest)
  else .ok length
termination_by s.utf8ByteSize - length

/-- The length of the next word, whether it is a keyword, and the part that the word after it
stands in. -/
structure Extent where
  length : Nat
  keyword : Bool
  part : Part

def extent (s : String) : Part → Except BadCut Extent
  | .verb =>
    let small := (find? isCapital 0 s.toList).filter (0 < ·)
    .ok ⟨small.getD (humpLength s), false, .subject⟩
  | .subject =>
    let digits := (find? (!Char.isDigit ·) 0 s.toList).getD s.utf8ByteSize
    if 0 < digits then .ok ⟨digits, false, .subject⟩
    else do
      match ← keywordAt s subjectKeywords with
      | some k => return ⟨k.utf8ByteSize, true, .afterSubject k⟩
      | none => return ⟨humpLength s, false, .subject⟩
  | .predicate => do
    match ← keywordAt s connectors with
    | some k => return ⟨k.utf8ByteSize, true, .afterConnector k⟩
    | none =>
      match ← suffixAt s with
      | some k => return ⟨k.utf8ByteSize, true, .predicate⟩
      | none =>
        let ends rest := do
          if (← keywordAt rest connectors).isSome then return true
          return (← suffixAt rest).isSome
        return ⟨← propertyLength ends s (humpLength s), false, .predicate⟩
  | .order => do
    match ← keywordAt s orderKeywords with
    | some k => return ⟨k.utf8ByteSize, true, .order⟩
    | none =>
      let ends rest := do return (← keywordAt rest orderKeywords).isSome
      return ⟨← propertyLength ends s (humpLength s), false, .order⟩

end Slicing

structure Slicer where
  part : Part
  rest : String

namespace Slicer

open Slicing

def start (method : String) : Slicer := ⟨.verb, method⟩

def next (s : Slicer) : Except BadCut (Option (String × Slicer)) :=
  if s.rest = "" then .ok none
  else do
    let e ← extent s.rest s.part
    let (word, rest) ← splitAt s.rest e.length
    return some (word, ⟨e.part, rest⟩)

def take : Nat → Slicer → Except BadCut (List String × Slicer)
  | 0, s => .ok ([], s)
  | n + 1, s => do
    match ← s.next with
    | none => return ([], s)
    | some (word, later) =>
      let (words, left) ← later.take n
      return (word :: words, left)

end Slicer

end QueryTree.MethodName
