import QueryTree.Proofs.MethodName.Cutting

/-! # How words open

In a predicate and an order no word ends but before a capital. So all words after `By` or `OrderBy`
start with a capital.
-/

namespace QueryTree.MethodName

open Text

variable {p : Part} {cs : List Char} {ks : List String} {k : String}

section Cuts

theorem opens_drop_beforeCapital (glued : Bool) (cs : List Char) :
    Opens (cs.drop (beforeCapital glued cs).length) := by
  induction cs generalizing glued with
  | nil => exact opens_nil
  | cons c cs ih =>
    rw [beforeCapital]
    split
    · next starts =>
      rw [Bool.and_eq_true] at starts
      exact opens_cons.mpr starts.1
    · exact ih _

theorem opens_drop_hump (cs : List Char) : Opens (cs.drop (hump cs).length) := by
  cases cs with
  | nil => exact opens_nil
  | cons c cs => exact opens_drop_beforeCapital _ cs

theorem opens_drop_property (ends : List Char → Bool) (cs : List Char) :
    Opens (cs.drop (property ends cs).length) := by
  fun_induction property ends cs with
  | case1 => exact opens_drop_hump _
  | case2 cs _ _ ih => rwa [List.length_append, ← List.drop_drop]

theorem opens_drop_keyword (h : keywordAt? ks cs = some k) (plain : k ≠ "First" ∧ k ≠ "Top") :
    Opens (cs.drop k.toList.length) := by
  obtain ⟨-, more, rfl, bounded⟩ := keywordAt?_eq_some h
  rw [List.drop_left]
  exact opens_of_bounded plain bounded

/-- A word before a capital is no keyword that could have been met in its place. -/
theorem ne_of_keywordAt?_eq_none {word : List Char} (h : keywordAt? ks cs = none) (mem : k ∈ ks)
    (front : word <+: cs) (opens : Opens (cs.drop word.length)) : word ≠ k.toList := by
  rintro rfl
  have starts : k.toList.isPrefixOf cs := List.isPrefixOf_iff_prefix.mpr front
  have unmet := List.find?_eq_none.mp h k mem
  rw [starts, bounded_of_opens opens] at unmet
  exact unmet rfl

theorem hump_ne_of_keywordAt?_eq_none (h : keywordAt? ks cs = none) (mem : k ∈ ks) :
    hump cs ≠ k.toList :=
  ne_of_keywordAt?_eq_none h mem (hump_isPrefix cs) (opens_drop_hump cs)

theorem property_ne_of_keywordAt?_eq_none (ends : List Char → Bool)
    (h : keywordAt? ks cs = none) (mem : k ∈ ks) : property ends cs ≠ k.toList :=
  ne_of_keywordAt?_eq_none h mem (property_isPrefix ends cs) (opens_drop_property ends cs)

/-- The parts of a name after `By` or `OrderBy`. -/
def Part.IsClause (p : Part) : Prop := p = .predicate ∨ p = .order

/-- No part comes after these, and their words end before a capital or with the name. -/
theorem Part.IsClause.cut (h : p.IsClause) (cs : List Char) :
    (p.cut cs).part.IsClause ∧ Opens (cs.drop (p.cut cs).word.length) := by
  rcases h with rfl | rfl
  · simp only [Part.cut]
    split
    · next k found =>
      have plain := (keyword_shape (List.mem_append_left _ (keywordAt?_mem found))).plain
      refine ⟨?_, opens_drop_keyword found plain⟩
      unfold afterConnector
      split
      · exact .inr rfl
      · exact .inl rfl
    split
    · next k found =>
      have found := keywordAt?_of_suffixAt? found
      have plain := (keyword_shape (List.mem_append_right _ (keywordAt?_mem found))).plain
      exact ⟨.inl rfl, opens_drop_keyword found plain⟩
    · exact ⟨.inl rfl, opens_drop_property _ cs⟩
  · simp only [Part.cut]
    split
    · next k found =>
      have plain : ∀ k ∈ orderKeywords, k ≠ "First" ∧ k ≠ "Top" := by decide
      exact ⟨.inr rfl, opens_drop_keyword found (plain k (keywordAt?_mem found))⟩
    · exact ⟨.inr rfl, opens_drop_property _ cs⟩

/-- A subject goes on until one of the words that end it is met. -/
theorem Part.cut_subject (cs : List Char) :
    let cut := Part.subject.cut cs
    (cut.part = .subject ∧ String.ofList cut.word ∉ ["By", "OrderBy"]) ∨
      (cut.part.IsClause ∧ Opens (cs.drop cut.word.length)) := by
  simp only [Part.cut]
  split
  · refine .inl ⟨rfl, fun mem => ?_⟩
    have lettered : ∀ w ∈ ["By", "OrderBy"], ¬ w.toList.all Char.isDigit := by decide
    apply lettered _ mem
    rw [String.toList_ofList]
    exact List.all_takeWhile
  split
  · next k found =>
    have bounds : ∀ k ∈ subjectKeywords, k ∈ ["By", "OrderBy"] ∨ k ∈ ["First", "Top"] := by decide
    rcases bounds k (keywordAt?_mem found) with ends | bound
    · have plain : ∀ k ∈ ["By", "OrderBy"], (k ≠ "First" ∧ k ≠ "Top") ∧
          (afterSubject k = .predicate ∨ afterSubject k = .order) := by
        decide
      obtain ⟨plain, clause⟩ := plain k ends
      exact .inr ⟨clause, opens_drop_keyword found plain⟩
    · have stays : ∀ k ∈ ["First", "Top"], afterSubject k = .subject ∧ k ∉ ["By", "OrderBy"] := by
        decide
      rw [String.ofList_toList]
      exact .inl (stays k bound)
  · next none =>
    have known : ∀ k ∈ ["By", "OrderBy"], k ∈ subjectKeywords := by decide
    refine .inl ⟨rfl, fun mem => ?_⟩
    exact hump_ne_of_keywordAt?_eq_none none (known _ mem) String.toList_ofList.symm

end Cuts

section Words

def Capitalised (word : String) : Prop := ∃ c ∈ word.toList.head?, isCapital c

theorem capitalised_of_front {word : List Char} (front : word <+: cs) (some : word ≠ [])
    (opens : Opens cs) : Capitalised (String.ofList word) := by
  obtain ⟨c, word, rfl⟩ := List.exists_cons_of_ne_nil some
  obtain ⟨rest, rfl⟩ := front
  exact ⟨c, by simp, opens c (by simp)⟩

theorem capitalised_of_mem_wordsFrom (clause : p.IsClause) (opens : Opens cs) :
    ∀ w ∈ wordsFrom p cs, Capitalised w.text := by
  induction p, cs using placesFrom.induct with
  | case1 =>
    rw [wordsFrom_nil]
    exact List.forall_mem_nil _
  | case2 p cs some cut _ ih =>
    obtain ⟨clause', opens'⟩ := clause.cut cs
    rw [wordsFrom_of_ne_nil p some]
    have nonempty := List.ne_nil_of_length_pos (p.length_cut_pos some)
    exact List.forall_mem_cons.mpr
      ⟨capitalised_of_front (p.cut_isPrefix cs) nonempty opens, ih clause' opens'⟩

/-- Behind a word that ends the subject all words start with a capital. -/
theorem capitalised_of_subject {after : List Word} {w : Word} (ends : w.text ∈ ["By", "OrderBy"])
    (p : Part) (cs : List Char) : p = .subject →
      ∀ before, wordsFrom p cs = before ++ w :: after → ∀ v ∈ after, Capitalised v.text := by
  induction p, cs using placesFrom.induct with
  | case1 => simp [wordsFrom_nil]
  | case2 p cs some cut _ ih =>
    rintro rfl before split
    rw [wordsFrom_of_ne_nil _ some] at split
    rcases Part.cut_subject cs with ⟨stays, other⟩ | ⟨clause, opens⟩
    · cases before with
      | nil =>
        obtain ⟨rfl, -⟩ := List.cons.inj split
        exact absurd ends other
      | cons v before => exact ih stays before (List.cons.inj split).2
    · have capitals := capitalised_of_mem_wordsFrom clause opens
      cases before with
      | nil =>
        obtain ⟨-, rfl⟩ := List.cons.inj split
        exact capitals
      | cons v before =>
        have later := (List.cons.inj split).2
        intro v mem
        apply capitals
        rw [later]
        exact List.mem_append_right _ (List.mem_cons_of_mem _ mem)

theorem capitalised_of_words {method verb w : String} {before after : List String}
    (split : words method = verb :: (before ++ w :: after)) (ends : w ∈ ["By", "OrderBy"]) :
    ∀ v ∈ after, Capitalised v := by
  rw [words] at split
  rcases eq_or_ne method.toList [] with nothing | some
  · rw [nothing, wordsFrom_nil] at split
    cases split
  · rw [wordsFrom_of_ne_nil _ some] at split
    obtain ⟨front, _, cuts, -, split⟩ := List.map_eq_append_iff.mp (List.cons.inj split).2
    obtain ⟨w, after, rfl, rfl, rfl⟩ := List.map_eq_cons_iff.mp split
    rw [List.forall_mem_map]
    exact capitalised_of_subject ends .subject _ rfl front cuts

end Words

end QueryTree.MethodName
