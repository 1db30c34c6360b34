import QueryTree.Proofs.MethodName.Wording

/-! # Taking words one by one

The words of a method name can be taken one after the other. Each of them takes something off the
front of what is left and changes nothing of it, so taking comes to an end.
-/

namespace QueryTree.MethodName

/-- What is left of a name, and the part that its next word stands in. -/
structure Scan where
  part : Part
  rest : List Char

namespace Scan

def start (method : String) : Scan := ⟨.verb, method.toList⟩

/-- The next word and what it leaves. At the end of the name there is none. -/
def next? (s : Scan) : Option (String × Scan) :=
  if s.rest = [] then none
  else
    let cut := s.part.cut s.rest
    some (String.ofList cut.word, ⟨cut.part, s.rest.drop cut.word.length⟩)

def take : Nat → Scan → List String × Scan
  | 0, s => ([], s)
  | n + 1, s =>
    match s.next? with
    | none => ([], s)
    | some (word, later) => (word :: (later.take n).1, (later.take n).2)

def ahead (s : Scan) : List String := (wordsFrom s.part s.rest).map Word.text

theorem next?_cases (s : Scan) :
    (s.next? = none ∧ s.rest = [] ∧ s.ahead = []) ∨
      ∃ word later, s.next? = some (word, later) ∧ word ≠ "" ∧
        s.rest = word.toList ++ later.rest ∧ s.ahead = word :: later.ahead := by
  obtain ⟨part, rest⟩ := s
  by_cases nothing : rest = []
  · left
    subst nothing
    refine ⟨rfl, rfl, ?_⟩
    rw [ahead, wordsFrom_nil]
    rfl
  · right
    refine ⟨_, _, if_neg nothing, ?_, ?_, ?_⟩
    · have some : (part.cut rest).word ≠ [] :=
        List.ne_nil_of_length_pos (part.length_cut_pos nothing)
      simpa using some
    · rw [String.toList_ofList]
      exact (List.prefix_iff_eq_append.mp (part.cut_isPrefix rest)).symm
    · rw [ahead, wordsFrom_of_ne_nil _ nothing]
      rfl

structure Takes (s : Scan) (n : Nat) (ws : List String) (left : Scan) : Prop where
  first : ws = s.ahead.take n
  kept : s.rest = spell ws ++ left.rest
  nonempty : ∀ w ∈ ws, w ≠ ""
  ended : left.next? = none ↔ s.ahead.length ≤ n

theorem takes (n : Nat) (s : Scan) : s.Takes n (s.take n).1 (s.take n).2 := by
  induction n generalizing s with
  | zero =>
    refine ⟨List.take_zero.symm, rfl, List.forall_mem_nil _, ?_⟩
    rw [take, Nat.le_zero, List.length_eq_zero_iff]
    rcases s.next?_cases with ⟨none, -, done⟩ | ⟨word, later, some, -, -, more⟩
    · exact iff_of_true none done
    · simp [some, more]
  | succ n ih =>
    rcases s.next?_cases with ⟨none, nothing, done⟩ | ⟨word, later, some, nonempty, front, more⟩
    · have stays : s.take (n + 1) = ([], s) := by simp only [take, none]
      rw [stays]
      exact ⟨by simp [done], rfl, List.forall_mem_nil _, by simp [none, done]⟩
    · have goes : s.take (n + 1) = (word :: (later.take n).1, (later.take n).2) := by
        simp only [take, some]
      obtain ⟨first, kept, others, ended⟩ := ih later
      rw [goes]
      refine ⟨?_, ?_, List.forall_mem_cons.mpr ⟨nonempty, others⟩, ?_⟩
      · rw [more, List.take_succ_cons, first]
      · rw [front, spell_cons, List.append_assoc, kept]
      · rw [more, List.length_cons, Nat.add_le_add_iff_right, ended]

theorem takes_all (s : Scan) : ∃ left, s.Takes s.ahead.length s.ahead left ∧ left.rest = [] := by
  have all := s.takes s.ahead.length
  rw [all.first, List.take_length] at all
  rcases (s.take s.ahead.length).2.next?_cases with ⟨-, nothing, -⟩ | ⟨word, later, some, -⟩
  · exact ⟨_, all, nothing⟩
  · rw [all.ended.mpr (Nat.le_refl _)] at some
    cases some

end Scan

variable {method w : String}

theorem length_le_length_spell {ws : List String} (nonempty : ∀ w ∈ ws, w ≠ "") :
    ws.length ≤ (spell ws).length := by
  induction ws with
  | nil => exact Nat.zero_le _
  | cons w ws ih =>
    obtain ⟨some, others⟩ := List.forall_mem_cons.mp nonempty
    have pos : 0 < w.toList.length :=
      List.length_pos_iff.mpr fun none => some (String.toList_eq_nil_iff.mp none)
    rw [spell_cons, List.length_append, List.length_cons]
    have := ih others
    omega

theorem spell_words (method : String) : spell (words method) = method.toList := by
  obtain ⟨left, all, nothing⟩ := (Scan.start method).takes_all
  have kept := all.kept
  rw [nothing, List.append_nil] at kept
  exact kept.symm

theorem ne_empty_of_mem_words (mem : w ∈ words method) : w ≠ "" := by
  obtain ⟨left, all, -⟩ := (Scan.start method).takes_all
  exact all.nonempty w mem

theorem length_words_le (method : String) : (words method).length ≤ method.length := by
  rw [← String.length_toList, ← spell_words]
  exact length_le_length_spell fun _ => ne_empty_of_mem_words

theorem subset_of_mem_words (mem : w ∈ words method) : w.toList ⊆ method.toList := by
  rw [← spell_words method]
  exact fun c inside => List.mem_flatMap.mpr ⟨w, mem, inside⟩

theorem join_eq_ofList_spell (ws : List String) : String.join ws = String.ofList (spell ws) := by
  rw [← String.toList_inj, String.toList_join, String.toList_ofList, spell]

end QueryTree.MethodName
