import Mathlib.Data.List.TakeWhile
import QueryTree.MethodName.Slicing
import QueryTree.Proofs.MethodName.Scanning

/-! # Lengths in bytes fall between characters

Every length that is computed for a word is that of some characters at the front of the name. So no
cut fails, and the word that is cut off consists of these characters.
-/

namespace QueryTree.MethodName

open Text

namespace Slicing

variable {cs front back : List Char} {p : Char → Bool} {k : String} {keywords : List String}

def bytes (cs : List Char) : Nat := (String.ofList cs).utf8ByteSize

@[simp] theorem bytes_nil : bytes [] = 0 := rfl

@[simp] theorem bytes_cons (c : Char) (cs : List Char) :
    bytes (c :: cs) = c.utf8Size + bytes cs := by
  have split : String.ofList (c :: cs) = String.singleton c ++ String.ofList cs := by
    simp
  rw [bytes, split, String.utf8ByteSize_append, String.utf8ByteSize_singleton, bytes]

@[simp] theorem bytes_append (front back : List Char) :
    bytes (front ++ back) = bytes front + bytes back := by
  rw [bytes, String.ofList_append, String.utf8ByteSize_append, bytes, bytes]

theorem bytes_toList (s : String) : bytes s.toList = s.utf8ByteSize := by
  rw [bytes, String.ofList_toList]

theorem bytes_pos_iff : 0 < bytes cs ↔ cs ≠ [] := by
  cases cs with
  | nil => simp
  | cons c cs =>
    have := c.utf8Size_pos
    simp
    omega

section Cuts

/-- A cut yields two texts exactly if they make up the text and the first one ends at the offset. -/
theorem splitAt_eq_ok_iff {s before after : String} {offset : Nat} :
    splitAt s offset = .ok (before, after) ↔
      s = before ++ after ∧ before.utf8ByteSize = offset := by
  constructor
  · intro h
    rw [splitAt] at h
    split at h
    · next valid =>
      let cut : s.Pos := ⟨⟨offset⟩, valid⟩
      obtain ⟨rfl, rfl⟩ := Prod.mk.inj (Except.ok.inj h)
      exact ⟨cut.splits.eq_append,
        (congrArg String.Pos.Raw.byteIdx cut.splits.offset_eq_rawEndPos).symm⟩
    · cases h
  · rintro ⟨joined, rfl⟩
    have valid : before.rawEndPos.IsValid s :=
      String.Pos.Raw.isValid_iff_exists_append.mpr ⟨_, _, joined, rfl⟩
    let cut : s.Pos := ⟨before.rawEndPos, valid⟩
    have splits : cut.Splits before after := ⟨joined, rfl⟩
    obtain ⟨front, back⟩ := cut.splits.eq splits
    exact (dif_pos valid).trans (congrArg Except.ok (Prod.ext front back))

example : splitAt "é" 1 = .error ⟨"é", 1⟩ := by decide

theorem splitAt_prefix (h : front <+: cs) :
    splitAt (String.ofList cs) (bytes front) =
      .ok (String.ofList front, String.ofList (cs.drop front.length)) := by
  refine splitAt_eq_ok_iff.mpr ⟨?_, rfl⟩
  rw [← String.ofList_append, List.prefix_iff_eq_append.mp h]

theorem dropBytes_prefix (h : front <+: cs) :
    dropBytes (String.ofList cs) (bytes front) = .ok (String.ofList (cs.drop front.length)) := by
  rw [dropBytes, splitAt_prefix h]
  rfl

theorem find?_eq (offset : Nat) (cs : List Char) :
    find? p offset cs =
      if cs.dropWhile (!p ·) = [] then none else some (offset + bytes (cs.takeWhile (!p ·))) := by
  induction cs generalizing offset with
  | nil => rfl
  | cons c cs ih =>
    unfold find?
    split
    · next found => simp [found]
    · next other => simp [other, ih, Nat.add_assoc]

theorem humpEnd_eq (glued : Bool) (offset : Nat) (cs : List Char) :
    humpEnd glued offset cs = offset + bytes (beforeCapital glued cs) := by
  induction cs generalizing glued offset with
  | nil => rfl
  | cons c cs ih =>
    unfold humpEnd beforeCapital
    split
    · rfl
    · rw [ih, bytes_cons, Nat.add_assoc]

theorem humpLength_eq (cs : List Char) : humpLength (String.ofList cs) = bytes (hump cs) := by
  rw [humpLength, String.toList_ofList]
  cases cs with
  | nil => rfl
  | cons c cs =>
    rw [hump, bytes_cons]
    exact humpEnd_eq _ _ cs

end Cuts

section Keywords

theorem keywordAt_eq (cs : List Char) (keywords : List String) :
    keywordAt (String.ofList cs) keywords = .ok (keywordAt? keywords cs) := by
  induction keywords with
  | nil => rfl
  | cons k keywords ih =>
    rw [keywordAt, String.toList_ofList, ih]
    split
    · next front =>
      rw [← bytes_toList, dropBytes_prefix (List.isPrefixOf_iff_prefix.mp front)]
      simp only [keywordAt?, List.find?_cons, front, Bool.true_and]
      simp only [bind, Except.bind, String.toList_ofList]
      cases bounded k (cs.drop k.toList.length) <;> rfl
    · next other => simp [keywordAt?, other]

theorem dropBytes_keyword (found : keywordAt? keywords cs = some k) :
    dropBytes (String.ofList cs) k.utf8ByteSize =
      .ok (String.ofList (cs.drop k.toList.length)) := by
  rw [← bytes_toList]
  exact dropBytes_prefix (keywordAt?_isPrefix found)

theorem suffixRun_of_ne {s : String} (more : s ≠ "") :
    suffixRun s = (do
      if (← keywordAt s connectors).isSome then return true
      match ← keywordAt s suffixes with
      | none => return false
      | some k => suffixRun (← dropBytes s k.utf8ByteSize)) := by
  rw [suffixRun, dif_neg more]
  cases keywordAt s connectors with
  | error e => rfl
  | ok connector =>
    cases connector with
    | some k => rfl
    | none =>
      simp only [bind, Except.bind]
      split
      · next e found => simp [found]
      · next found => simp [found, pure, Except.pure]
      · next k found =>
        split
        · next e cut => simp [found, cut]
        · next rest cut => simp [found, cut]

theorem suffixRun_eq (cs : List Char) :
    suffixRun (String.ofList cs) = .ok (MethodName.suffixRun cs) := by
  fun_induction MethodName.suffixRun cs with
  | case1 cs ended =>
    rw [suffixRun]
    rcases ended with rfl | connected
    · rfl
    · obtain ⟨k, found⟩ := Option.isSome_iff_exists.mp connected
      rw [keywordAt_eq, found]
      split <;> rfl
  | case2 cs more none =>
    obtain ⟨some, apart⟩ := not_or.mp more
    rw [suffixRun_of_ne (by simpa using some), keywordAt_eq, keywordAt_eq, none]
    simp [bind, Except.bind, pure, Except.pure, apart]
  | case3 cs more k found _ ih =>
    obtain ⟨some, apart⟩ := not_or.mp more
    rw [suffixRun_of_ne (by simpa using some), keywordAt_eq, keywordAt_eq, found]
    simp [bind, Except.bind, apart, dropBytes_keyword found, ih]

theorem suffixAt_eq (cs : List Char) : suffixAt (String.ofList cs) = .ok (suffixAt? cs) := by
  rw [suffixAt, keywordAt_eq, suffixAt?]
  cases found : keywordAt? suffixes cs with
  | none => rfl
  | some k =>
    simp only [bind, Except.bind, dropBytes_keyword found, suffixRun_eq]
    rfl

end Keywords

section Property

variable {ends : String → Except BadCut Bool} {stops : List Char → Bool}

theorem propertyLength_of_lt {s : String} {length : Nat} (more : length < s.utf8ByteSize) :
    propertyLength ends s length = (do
      let rest ← dropBytes s length
      if ← ends rest then return length
      propertyLength ends s (length + humpLength rest)) := by
  rw [propertyLength, dif_pos more]
  split
  · next e cut => simp [bind, Except.bind, cut]
  · next rest cut =>
    simp only [bind, Except.bind, cut]
    cases ends rest with
    | error e => rfl
    | ok ended => cases ended <;> rfl

theorem propertyLength_step (same : ∀ cs, ends (String.ofList cs) = .ok (stops cs))
    (front rest : List Char) :
    propertyLength ends (String.ofList (front ++ rest)) (bytes front) =
      if rest = [] ∨ stops rest then .ok (bytes front)
      else propertyLength ends (String.ofList (front ++ rest)) (bytes (front ++ hump rest)) := by
  have size : (String.ofList (front ++ rest)).utf8ByteSize = bytes front + bytes rest :=
    bytes_append front rest
  by_cases none : rest = []
  · rw [none, bytes_nil] at size
    rw [if_pos (.inl none), propertyLength, none, dif_neg (by omega)]
  · have more : bytes front < (String.ofList (front ++ rest)).utf8ByteSize := by
      have := bytes_pos_iff.mpr none
      omega
    rw [propertyLength_of_lt more, dropBytes_prefix (List.prefix_append _ _), List.drop_left]
    simp only [bind, Except.bind, same, humpLength_eq, none, false_or, bytes_append]
    split_ifs <;> rfl

theorem propertyLength_append (same : ∀ cs, ends (String.ofList cs) = .ok (stops cs))
    (front cs : List Char) :
    propertyLength ends (String.ofList (front ++ cs)) (bytes (front ++ hump cs)) =
      .ok (bytes (front ++ property stops cs)) := by
  have whole (cs : List Char) : hump cs ++ cs.drop (hump cs).length = cs :=
    List.prefix_iff_eq_append.mp (hump_isPrefix cs)
  fun_induction property stops cs generalizing front with
  | case1 cs ended =>
    conv_lhs => rw [← whole cs, ← List.append_assoc]
    rw [whole, propertyLength_step same, if_pos ended]
  | case2 cs more _ ih =>
    have step := propertyLength_step same (front ++ hump cs) (cs.drop (hump cs).length)
    rw [if_neg more, ih, List.append_assoc, whole] at step
    rw [step, List.append_assoc]

theorem propertyLength_eq (stops : List Char → Bool)
    (same : ∀ cs, ends (String.ofList cs) = .ok (stops cs)) (cs : List Char) :
    propertyLength ends (String.ofList cs) (humpLength (String.ofList cs)) =
      .ok (bytes (property stops cs)) := by
  rw [humpLength_eq]
  exact propertyLength_append same [] cs

end Property

theorem beforeCapital_eq_self (small : ∀ c ∈ cs, !isCapital c) (glued : Bool) :
    beforeCapital glued cs = cs := by
  induction cs generalizing glued with
  | nil => rfl
  | cons c cs ih =>
    obtain ⟨first, others⟩ := List.forall_mem_cons.mp small
    rw [Bool.not_eq_true'] at first
    rw [beforeCapital, first, ih others]
    rfl

theorem hump_eq_self (small : ∀ c ∈ cs, !isCapital c) : hump cs = cs := by
  cases cs with
  | nil => rfl
  | cons c cs => rw [hump, beforeCapital_eq_self (List.forall_mem_cons.mp small).2]

/-- The length that is computed for a word is that of the word. -/
theorem extent_eq (p : Part) (cs : List Char) :
    extent (String.ofList cs) p =
      .ok ⟨bytes (p.cut cs).word, (p.cut cs).keyword, (p.cut cs).part⟩ := by
  cases p with
  | verb =>
    simp only [extent, Part.cut, String.toList_ofList, find?_eq, humpLength_eq, Nat.zero_add]
    by_cases small : cs.dropWhile (!isCapital ·) = []
    · have all : ∀ c ∈ cs, !isCapital c := List.dropWhile_eq_nil_iff.mp small
      rw [List.takeWhile_eq_self_iff.mpr all, hump_eq_self all, if_pos small]
      split_ifs <;> rfl
    · rw [if_neg small]
      by_cases none : cs.takeWhile (!isCapital ·) = []
      · simp [none, Option.filter]
      · simp [none, Option.filter, bytes_pos_iff.mpr none]
  | subject =>
    have digits : (find? (!Char.isDigit ·) 0 (String.ofList cs).toList).getD
        (String.ofList cs).utf8ByteSize = bytes (cs.takeWhile Char.isDigit) := by
      simp only [String.toList_ofList, find?_eq, Bool.not_not, Nat.zero_add]
      split_ifs with all
      · rw [List.takeWhile_eq_self_iff.mpr (List.dropWhile_eq_nil_iff.mp all)]
        rfl
      · rfl
    simp only [extent, Part.cut, digits, bytes_pos_iff, keywordAt_eq, humpLength_eq]
    split_ifs with some
    · rfl
    · cases keywordAt? subjectKeywords cs with
      | none => rfl
      | some k =>
        simp only [bind, Except.bind, bytes_toList]
        rfl
  | predicate =>
    simp only [extent, Part.cut, keywordAt_eq, suffixAt_eq, bind, Except.bind]
    cases keywordAt? connectors cs with
    | some k =>
      simp only [bytes_toList]
      rfl
    | none =>
      cases suffixAt? cs with
      | some k =>
        simp only [bytes_toList]
        rfl
      | none =>
        simp only
        rw [propertyLength_eq fun rest =>
          (keywordAt? connectors rest).isSome || (suffixAt? rest).isSome]
        · rfl
        · intro cs
          rw [keywordAt_eq, suffixAt_eq]
          cases keywordAt? connectors cs <;> rfl
  | order =>
    simp only [extent, Part.cut, keywordAt_eq, bind, Except.bind]
    cases keywordAt? orderKeywords cs with
    | some k =>
      simp only [bytes_toList]
      rfl
    | none =>
      simp only
      rw [propertyLength_eq fun rest => (keywordAt? orderKeywords rest).isSome]
      · rfl
      · intro cs
        rw [keywordAt_eq]
        rfl

end Slicing

namespace Slicer

open Slicing

def ofScan (s : Scan) : Slicer := ⟨s.part, String.ofList s.rest⟩

theorem start_eq (method : String) : start method = ofScan (Scan.start method) := by
  rw [start, ofScan, Scan.start, String.ofList_toList]

/-- Cutting a word off at its length never fails, and it yields the next word. -/
theorem next_ofScan (s : Scan) :
    (ofScan s).next = .ok (s.next?.map fun (word, later) => (word, ofScan later)) := by
  obtain ⟨p, cs⟩ := s
  by_cases none : cs = []
  · subst none
    rfl
  · have more : String.ofList cs ≠ "" := by simpa using none
    rw [ofScan, next, if_neg more, extent_eq, Scan.next?, if_neg none]
    simp only [bind, Except.bind, splitAt_prefix (p.cut_isPrefix cs)]
    rfl

theorem take_ofScan (n : Nat) (s : Scan) :
    (ofScan s).take n = .ok ((s.take n).1, ofScan (s.take n).2) := by
  induction n generalizing s with
  | zero => rfl
  | succ n ih =>
    rw [take, next_ofScan, Scan.take]
    cases s.next? with
    | none => rfl
    | some found =>
      simp only [bind, Except.bind, Option.map_some, ih]
      rfl

end Slicer

/-- A name has no more words than characters, none of them empty, and joined they are the name
again. Cutting them off at their lengths in bytes never fails. It yields the words from the first
one on, leaves the rest of the name, and after the last word it is at the end. -/
theorem words_lossless (method : String) :
    (words method).length ≤ method.length ∧ (∀ w ∈ words method, w ≠ "") ∧
      String.join (words method) = method ∧
      ∀ n, ∃ left : Slicer, (Slicer.start method).take n = .ok ((words method).take n, left) ∧
        String.join ((words method).take n) ++ left.rest = method ∧
        (left.next = .ok none ↔ (words method).length ≤ n) := by
  refine ⟨length_words_le method, fun w => ne_empty_of_mem_words, ?_, fun n => ?_⟩
  · rw [join_eq_ofList_spell, spell_words, String.ofList_toList]
  · obtain ⟨first, kept, -, ended⟩ := (Scan.start method).takes n
    have ahead : (Scan.start method).ahead = words method := rfl
    rw [ahead] at first ended
    rw [Slicer.start_eq, Slicer.take_ofScan, first]
    refine ⟨_, rfl, ?_, ?_⟩
    · rw [← first, join_eq_ofList_spell, Slicer.ofScan, ← String.ofList_append, ← kept, Scan.start,
        String.ofList_toList]
    · rw [Slicer.next_ofScan]
      simpa using ended

example : ((Slicer.start "zähleÄpfelByÖl").take 4).map Prod.fst =
    .ok ["zähle", "Äpfel", "By", "Öl"] := by decide +kernel

end QueryTree.MethodName
