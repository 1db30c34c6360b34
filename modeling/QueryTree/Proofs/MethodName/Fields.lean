import QueryTree.Proofs.MethodName.Alignment
import QueryTree.Proofs.MethodName.Openings

/-! # Fields of derived statements

Every property of a derived statement stands for a field with at least one segment, and none of its
segments is empty. Parameters are named after the last one.
-/

namespace QueryTree

namespace Text

variable {c : Char} {expansions : List (Nat × List Nat)} {runs : List CaseRun}

section Case

/-- A number that is none of a character yields the first one. -/
theorem toNat_ofNat_cases (n : Nat) : (Char.ofNat n).toNat = n ∨ (Char.ofNat n).toNat = 0 := by
  by_cases valid : n.isValidChar
  · left
    rw [Char.ofNat, dif_pos valid]
    rfl
  · right
    rw [Char.ofNat, dif_neg valid]
    rfl

/-- What a change of case yields is in one of the tables, or nothing has changed. -/
theorem changeCase_cases (expansions : List (Nat × List Nat)) (runs : List CaseRun) (c : Char) :
    (∃ e ∈ expansions, changeCase expansions runs c = e.2.map Char.ofNat) ∨
      (∃ r ∈ runs, r.first ≤ c.toNat ∧
        changeCase expansions runs c = [Char.ofNat (c.toNat + r.shift).toNat]) ∨
      changeCase expansions runs c = [c] := by
  unfold changeCase
  split
  · next image found =>
    obtain ⟨before, after, split, -⟩ := List.lookup_eq_some_iff.mp found
    exact .inl ⟨_, split ▸ List.mem_append_right _ List.mem_cons_self, rfl⟩
  split
  · next r found =>
    have covers := List.find?_some found
    simp only [CaseRun.covers, Bool.and_eq_true, decide_eq_true_eq] at covers
    exact .inr (.inl ⟨r, List.mem_of_find?_eq_some found, covers.1.1, rfl⟩)
  · exact .inr (.inr rfl)

theorem lowerChar_ne_nil (c : Char) : lowerChar c ≠ [] := by
  have images : ∀ e ∈ lowerExpansions, e.2.map Char.ofNat ≠ [] := by decide
  unfold lowerChar
  rcases changeCase_cases lowerExpansions lowerRuns c with ⟨e, mem, same⟩ | ⟨r, -, -, same⟩ | same
  · rw [same]
    exact images e mem
  · rw [same]
    exact List.cons_ne_nil _ _
  · rw [same]
    exact List.cons_ne_nil _ _

theorem dot_not_mem_lowerChar (hc : c ≠ '.') : '.' ∉ lowerChar c := by
  have images : ∀ e ∈ lowerExpansions, '.' ∉ e.2.map Char.ofNat := by decide
  have shifts : ∀ r ∈ lowerRuns, 46 < r.first + r.shift := by decide +kernel
  unfold lowerChar
  rcases changeCase_cases lowerExpansions lowerRuns c with
    ⟨e, mem, same⟩ | ⟨r, mem, low, same⟩ | same
  · rw [same]
    exact images e mem
  · rw [same, List.mem_singleton]
    intro dot
    have number : 46 = (Char.ofNat (c.toNat + r.shift).toNat).toNat := congrArg Char.toNat dot
    have shift := shifts r mem
    rcases toNat_ofNat_cases (c.toNat + r.shift).toNat with same | zero <;> omega
  · rw [same, List.mem_singleton]
    exact hc.symm

end Case

/-- Segments without points are found again in their join. -/
theorem segments_intercalate {ss : List String} (some : ss ≠ [])
    (undotted : ∀ s ∈ ss, '.' ∉ s.toList) : segments (".".intercalate ss) = ss := by
  have pieces : ∀ l ∈ ss.map String.toList, '.' ∉ l := List.forall_mem_map.mpr undotted
  have split : List.splitOn '.' (['.'].intercalate (ss.map String.toList)) = ss.map String.toList :=
    List.splitOn_intercalate '.' pieces (by simpa using some)
  have point : ".".toList = ['.'] := rfl
  rw [segments, String.toList_intercalate, point, split, List.map_map]
  exact List.map_id'' (fun _ => String.ofList_toList) ss

end Text

namespace MethodName

open Text

variable {cs : List Char} {word : String}

theorem decapitalize_ne_nil (some : cs ≠ []) : decapitalize cs ≠ [] := by
  unfold decapitalize
  split
  · exact some
  · exact lowerChar_ne_nil _
  · split
    · exact List.cons_ne_nil _ _
    · exact List.append_ne_nil_of_left_ne_nil (lowerChar_ne_nil _) _

theorem dot_not_mem_decapitalize (undotted : '.' ∉ cs) : '.' ∉ decapitalize cs := by
  unfold decapitalize
  split
  · exact undotted
  · next c => exact dot_not_mem_lowerChar (by simpa [eq_comm] using undotted)
  · next c d rest =>
    rw [List.mem_cons, not_or] at undotted
    split
    · simpa using undotted
    · rw [List.mem_append, not_or]
      exact ⟨dot_not_mem_lowerChar (Ne.symm undotted.1), undotted.2⟩

/-- A field is the join of segments, none of them empty. -/
structure Joins (segments : List String) (field : String) : Prop where
  joined : field = ".".intercalate segments
  some : segments ≠ []
  nonempty : "" ∉ segments
  undotted : ∀ s ∈ segments, '.' ∉ s.toList

theorem Joins.getLast? {segments : List String} {field : String} (h : Joins segments field) :
    segments.getLast? = Option.some (lastSegment field) := by
  rw [lastSegment, h.joined, segments_intercalate h.some h.undotted,
    List.getLast?_eq_some_getLast h.some]
  rfl

def parts (word : String) : List (List Char) := (word.toList.splitOn '_').filter (· ≠ [])

theorem fieldOf_eq (word : String) :
    fieldOf word =
      ".".intercalate ((parts word).map fun part => String.ofList (decapitalize part)) :=
  rfl

theorem parts_ne_nil (capital : Capitalised word) : parts word ≠ [] := by
  obtain ⟨c, first, capital⟩ := capital
  have mem : c ∈ ['_'].intercalate (word.toList.splitOn '_') := by
    rw [List.intercalate_splitOn]
    exact List.mem_of_mem_head? first
  rcases mem_intercalate mem with rfl | ⟨part, found, inside⟩
  · exact absurd capital (by decide)
  · have kept : part ∈ parts word :=
      List.mem_filter.mpr ⟨found, by simpa using List.ne_nil_of_mem inside⟩
    exact List.ne_nil_of_mem kept

theorem joins_fieldOf (capital : Capitalised word) (undotted : '.' ∉ word.toList) :
    ∃ segments, Joins segments (fieldOf word) := by
  refine ⟨_, fieldOf_eq word, by simpa using parts_ne_nil capital, ?_, ?_⟩
  · rw [List.mem_map]
    rintro ⟨part, mem, empty⟩
    have some : part ≠ [] := by simpa using (List.mem_filter.mp mem).2
    have nothing : (String.ofList (decapitalize part)).toList = [] := congrArg String.toList empty
    rw [String.toList_ofList] at nothing
    exact decapitalize_ne_nil some nothing
  · rw [List.forall_mem_map]
    intro part mem
    have sub : part ⊆ word.toList := by
      have inside : part ⊆ ['_'].intercalate (word.toList.splitOn '_') :=
        subset_intercalate (List.mem_filter.mp mem).1
      rwa [List.intercalate_splitOn] at inside
    rw [String.toList_ofList]
    exact dot_not_mem_decapitalize fun dot => undotted (sub dot)

section Wording

variable {method : String} {w : Wording}

theorem Wording.behind_subject
    (mem : word ∈ predicateWords (w.predicate.getD []) ∨ word ∈ w.sorts.flatMap Key.words) :
    ∃ before ends after, w.words = w.verb.word :: (before ++ ends :: after) ∧
      ends ∈ ["By", "OrderBy"] ∧ word ∈ after := by
  rcases mem with mem | mem
  · cases hp : w.predicate with
    | none =>
      rw [hp] at mem
      cases mem
    | some groups =>
      rw [hp] at mem
      refine ⟨w.subjectWords, "By", predicateWords groups ++ w.orderWords, ?_, by decide,
        List.mem_append_left _ mem⟩
      rw [Wording.words, clauseWords, hp]
      rfl
  · have some : w.sorts ≠ [] := by
      intro none
      rw [none] at mem
      cases mem
    refine ⟨w.subjectWords ++ w.clauseWords, "OrderBy", w.sorts.flatMap Key.words, ?_, by decide,
      mem⟩
    rw [Wording.words, orderWords, if_neg some, List.append_assoc]

theorem joins_property (hw : words method = w.words) (undotted : '.' ∉ method.toList)
    (mem : word ∈ Wording.predicateWords (w.predicate.getD []) ∨
      word ∈ w.sorts.flatMap Wording.Key.words) :
    ∃ segments, Joins segments (fieldOf word) := by
  obtain ⟨before, ends, after, split, known, mem⟩ := Wording.behind_subject mem
  have occurs : word ∈ words method := by
    rw [hw, split]
    exact List.mem_cons_of_mem _ (List.mem_append_right _ (List.mem_cons_of_mem _ mem))
  apply joins_fieldOf
  · exact capitalised_of_words (hw.trans split) known word mem
  · exact fun dot => undotted (subset_of_mem_words occurs dot)

end Wording

end MethodName

open MethodName

theorem MethodName.Wording.property_mem {w : Wording} {s : MethodName.Segment}
    (mem : s ∈ w.derivation.groups.flatten) :
    s.property ∈ predicateWords (w.predicate.getD []) := by
  rw [derivation, ← List.flatMap_def, List.mem_flatMap] at mem
  obtain ⟨g, hg, mem⟩ := mem
  obtain ⟨x, hx, rfl⟩ := List.mem_map.mp mem
  apply subset_intercalate (List.mem_map_of_mem hg)
  apply subset_intercalate (List.mem_map_of_mem hx)
  exact List.mem_cons_self

/-- Every field of a statement that is derived from a name without points is a join of segments,
none of them empty, and its parameters are named after the last one. -/
theorem fields_are_joined (method entity : String) (s : Statement) (undotted : '.' ∉ method.toList)
    (derived : derive method entity = .ok s) :
    (∀ x ∈ s.comparisons, ∃ segments, Joins segments x.field ∧
      ∀ p ∈ x.value.params, segments.getLast? = some p.name ∧ p.name ≠ "") ∧
    ∀ key ∈ s.sorts, ∃ segments, Joins segments key.property := by
  obtain ⟨w, hw, rfl⟩ := derive_eq_ok_iff.mp derived
  constructor
  · have joined : ∀ x ∈ w.derivation.groups.flatten, ∃ segments, Joins segments x.field :=
      fun x mem => joins_property hw undotted (.inl (Wording.property_mem mem))
    have answers := w.derivation.comparisons_statement entity
    rw [w.statement_derivation] at answers
    have both := (List.forall₂_and_left _ _).mpr ⟨joined, answers⟩
    refine ((List.forall₂_and_left _ _).mp (both.flip.imp fun x y h => ⟨?_, h⟩)).1
    obtain ⟨⟨segments, joins⟩, same⟩ := h
    rw [← same.field] at joins
    refine ⟨segments, joins, fun p mem => ?_⟩
    have last : segments.getLast? = some p.name := by
      rw [same.names p mem]
      exact joins.getLast?
    refine ⟨last, fun empty => joins.nonempty ?_⟩
    exact empty ▸ List.mem_of_getLast? last
  · intro key mem
    rw [w.sorts_statement, List.mem_map] at mem
    obtain ⟨k, hk, rfl⟩ := mem
    have mem : k.property ∈ w.sorts.flatMap Wording.Key.words :=
      List.mem_flatMap.mpr ⟨k, hk, List.mem_cons_self⟩
    rw [Wording.Key.sortKey, ← k.stands.fieldOf_eq]
    exact joins_property hw undotted (.inr mem)

/-- Underscores in a row, a digit, an acronym and a letter that changes into two. -/
theorem fields_are_joined_accented :
    let method := "findBySalary__CurrencyBetweenAndURLInOrderByİd_2Desc"
    ∃ s, derive method "Person" = .ok s ∧ s.comparisons.map (·.field) = ["salary.currency", "URL"] ∧
      s.sorts.map (·.property) = ["i\u0307d.2"] ∧
      (∀ x ∈ s.comparisons, ∃ segments, Joins segments x.field ∧
        ∀ p ∈ x.value.params, segments.getLast? = some p.name ∧ p.name ≠ "") ∧
      ∀ key ∈ s.sorts, ∃ segments, Joins segments key.property := by
  intro method
  have succeeds : (derive method "Person").map
      (fun s => (s.comparisons.map (·.field), s.sorts.map (·.property))) =
        .ok (["salary.currency", "URL"], ["i\u0307d.2"]) := by decide +kernel
  obtain ⟨s, derived, found⟩ := Except.map_eq_ok_iff.mp succeeds
  obtain ⟨fields, sorts⟩ := Prod.mk.inj found
  exact ⟨s, derived, fields, sorts, fields_are_joined method "Person" s (by decide) derived⟩

end QueryTree
