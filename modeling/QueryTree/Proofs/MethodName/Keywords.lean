import QueryTree.Proofs.MethodName.Openings
import QueryTree.Proofs.MethodName.Suffixes

/-! # Keywords and properties

A property ends where the name does or before a keyword that ends properties, and a suffix before a
row of suffixes makes a row again. So no property is spelled like a keyword that could have stood in
its place: what a word spells tells whether it was met as a keyword.
-/

namespace QueryTree.MethodName

variable {p : Part} {cs : List Char} {ks : List String} {k word : String}

section Property

theorem drop_property (ends : List Char → Bool) (cs : List Char) :
    cs.drop (property ends cs).length = [] ∨ ends (cs.drop (property ends cs).length) := by
  fun_induction property ends cs with
  | case1 cs stops => exact stops
  | case2 cs _ _ ih => rwa [List.length_append, ← List.drop_drop]

/-- At the end of the name, at a connector and at a suffix there is a row of suffixes. -/
theorem exists_row
    (ends : cs = [] ∨ (keywordAt? connectors cs).isSome ∨ (suffixAt? cs).isSome) :
    ∃ ks rest, SuffixRow cs ks rest := by
  rcases ends with nothing | connector | suffix
  · exact ⟨[], cs, .done (.inl nothing)⟩
  · exact ⟨[], cs, .done (.inr connector)⟩
  · obtain ⟨k, found⟩ := Option.isSome_iff_exists.mp suffix
    obtain ⟨ks, rest, row⟩ := suffixAt?_eq_some_iff_row.mp found
    exact ⟨k :: ks, rest, row⟩

/-- A property that ends before a row of suffixes is no suffix, for the row would start with it. -/
theorem property_ne_of_suffixAt?_eq_none {ends : List Char → Bool}
    (stops : ∀ rest, ends rest → (keywordAt? connectors rest).isSome ∨ (suffixAt? rest).isSome)
    (unmet : suffixAt? cs = none) (mem : k ∈ suffixes) : property ends cs ≠ k.toList := by
  intro same
  have front := property_isPrefix ends cs
  have opens := opens_drop_property ends cs
  have ended := drop_property ends cs
  rw [same] at front opens ended
  obtain ⟨more, rfl⟩ := front
  rw [List.drop_left] at opens ended
  obtain ⟨ks, rest, row⟩ := exists_row (ended.imp_right (stops more))
  rw [suffixAt?_eq_some_iff_row.mpr ⟨ks, rest, .suffix mem opens row⟩] at unmet
  cases unmet

end Property

section Part

def Part.keywords : Part → List String
  | verb => []
  | subject => subjectKeywords
  | predicate => connectors ++ suffixes
  | order => orderKeywords

def Part.after : Part → String → Part
  | verb, _ => subject
  | subject, word => afterSubject word
  | predicate, word => afterConnector word
  | order, _ => order

theorem Part.after_of_not_mem (h : word ∉ p.keywords) (other : p ≠ .verb) : p.after word = p := by
  cases p with
  | verb => exact absurd rfl other
  | subject =>
    have stays : word ≠ "By" ∧ word ≠ "OrderBy" := by
      constructor <;> rintro rfl <;> exact h (by decide)
    rw [after, afterSubject, if_neg stays.1, if_neg stays.2]
  | predicate =>
    have stays : word ≠ "OrderBy" := by
      rintro rfl
      exact h (by decide)
    rw [after, afterConnector, if_neg stays]
  | order => rfl

/-- The word was met as a keyword of the part exactly if it is spelled like one. -/
def Part.Knows (p : Part) (w : Word) : Prop := w.keyword ↔ w.text ∈ p.keywords

/-- A word is told by its spelling, and so is the part that comes after it. -/
structure Part.Tells (p : Part) (cut : Cut) : Prop where
  known : p.Knows ⟨String.ofList cut.word, cut.keyword⟩
  part : cut.part = p.after (String.ofList cut.word)

theorem Part.tells_keyword (mem : k ∈ p.keywords) : p.Tells ⟨k.toList, true, p.after k⟩ := by
  constructor
  · rw [String.ofList_toList]
    exact iff_of_true rfl mem
  · rw [String.ofList_toList]

theorem Part.tells_other {word : List Char} (other : p ≠ .verb)
    (plain : ∀ k ∈ p.keywords, word ≠ k.toList) : p.Tells ⟨word, false, p⟩ := by
  have unlisted : String.ofList word ∉ p.keywords := fun mem =>
    plain _ mem String.toList_ofList.symm
  exact ⟨iff_of_false Bool.false_ne_true unlisted, (after_of_not_mem unlisted other).symm⟩

theorem Part.tells_cut (p : Part) (cs : List Char) : p.Tells (p.cut cs) := by
  cases p with
  | verb => exact ⟨iff_of_false Bool.false_ne_true List.not_mem_nil, rfl⟩
  | subject =>
    simp only [cut]
    split
    · have lettered : ∀ k ∈ subjectKeywords, ¬ k.toList.all Char.isDigit := by decide
      refine tells_other (by decide) fun k mem same => ?_
      exact lettered k mem (same ▸ List.all_takeWhile)
    split
    · next k found => exact tells_keyword (keywordAt?_mem found)
    · next unmet =>
      exact tells_other (by decide) fun k mem => hump_ne_of_keywordAt?_eq_none unmet mem
  | predicate =>
    simp only [cut]
    split
    · next k found => exact tells_keyword (List.mem_append_left _ (keywordAt?_mem found))
    next unconnected =>
    split
    · next k found =>
      have mem : k ∈ suffixes := keywordAt?_mem (keywordAt?_of_suffixAt? found)
      have stays : ∀ k ∈ suffixes, predicate.after k = predicate := by decide
      have told : predicate.Tells _ := tells_keyword (List.mem_append_right _ mem)
      rwa [stays k mem] at told
    · next unmet =>
      refine tells_other (by decide) fun k mem => ?_
      rcases List.mem_append.mp mem with connector | suffix
      · exact property_ne_of_keywordAt?_eq_none _ unconnected connector
      · exact property_ne_of_suffixAt?_eq_none (fun _ => Bool.or_eq_true_iff.mp) unmet suffix
  | order =>
    simp only [cut]
    split
    · next k found => exact tells_keyword (keywordAt?_mem found)
    · next unmet =>
      exact tells_other (by decide) fun k mem => property_ne_of_keywordAt?_eq_none _ unmet mem

end Part

section Words

theorem knows_of_mem_placesFrom {x : Part × Word} (mem : x ∈ placesFrom p cs) :
    x.1.Knows x.2 := by
  fun_induction placesFrom p cs with
  | case1 => cases mem
  | case2 p cs some cut _ ih =>
    rcases List.mem_cons.mp mem with rfl | mem
    · exact (p.tells_cut cs).known
    · exact ih mem

/-- Words from a part on, each of them known to its part. The words before it tell which part that
is. -/
def Told : Part → List Word → Prop
  | _, [] => True
  | p, w :: ws => p.Knows w ∧ Told (p.after w.text) ws

theorem told_wordsFrom (p : Part) (cs : List Char) : Told p (wordsFrom p cs) := by
  induction p, cs using placesFrom.induct with
  | case1 =>
    rw [wordsFrom_nil]
    exact trivial
  | case2 p cs some cut _ ih =>
    obtain ⟨known, part⟩ := p.tells_cut cs
    rw [wordsFrom_of_ne_nil p some]
    exact ⟨known, part ▸ ih⟩

end Words

end QueryTree.MethodName
