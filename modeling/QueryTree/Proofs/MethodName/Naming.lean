import Mathlib.Data.List.Forall2
import QueryTree.MethodName.Property

/-! # Words and the fields they stand for

Underscores divide a word into parts, and the parts that are not empty stand for the segments of a
field. A segment begins with a small letter where its part begins with a single capital.
-/

namespace QueryTree.MethodName

open Text

/-- A part of a word and the segment that it stands for. Two capitals begin an acronym. -/
inductive PartStandsFor : List Char → List Char → Prop where
  | acronym {c d rest} : isCapital c → isCapital d →
      PartStandsFor (c :: d :: rest) (c :: d :: rest)
  | plain {c rest} : (isCapital c → ∀ d ∈ rest.head?, ¬ isCapital d) →
      PartStandsFor (c :: rest) (lowerChar c ++ rest)

def StandsFor (word field : String) : Prop :=
  ∃ parts segments : List (List Char),
    word.toList = ['_'].intercalate parts ∧ (∀ part ∈ parts, '_' ∉ part) ∧
      List.Forall₂ PartStandsFor (parts.filter (· ≠ [])) segments ∧
      field = ".".intercalate (segments.map String.ofList)

variable {part segment cs : List Char} {word field : String}

theorem underscore_not_mem (mem : part ∈ cs.splitOn '_') : '_' ∉ part := by
  induction cs generalizing part with
  | nil => simp_all
  | cons c cs ih =>
    obtain ⟨first, others, split⟩ := List.exists_cons_of_ne_nil (List.splitOn_ne_nil '_' cs)
    rw [List.splitOn_cons_eq_if_modifyHead, split] at mem
    split_ifs at mem with same
    · rcases List.mem_cons.mp mem with rfl | mem
      · exact List.not_mem_nil
      · exact ih (split ▸ mem)
    · rcases List.mem_cons.mp mem with rfl | mem
      · have apart : '_' ≠ c := fun h => same (beq_iff_eq.mpr h.symm)
        exact List.not_mem_cons_of_ne_of_not_mem apart (ih (split ▸ List.mem_cons_self))
      · exact ih (split ▸ List.mem_cons_of_mem first mem)

theorem partStandsFor_iff :
    PartStandsFor part segment ↔ part ≠ [] ∧ segment = decapitalize part := by
  constructor
  · intro h
    cases h with
    | acronym first second => exact ⟨List.cons_ne_nil _ _, by simp [decapitalize, first, second]⟩
    | @plain c rest single =>
      refine ⟨List.cons_ne_nil _ _, ?_⟩
      cases rest with
      | nil => exact List.append_nil _
      | cons d rest =>
        have apart : ¬ (isCapital c ∧ isCapital d) := fun both => single both.1 d rfl both.2
        simp [decapitalize, apart]
  · rintro ⟨some, rfl⟩
    match part with
    | [c] =>
      rw [decapitalize, ← List.append_nil (lowerChar c)]
      exact .plain (by simp)
    | c :: d :: rest =>
      by_cases both : isCapital c ∧ isCapital d
      · simpa [decapitalize, both] using PartStandsFor.acronym both.1 both.2
      · simpa [decapitalize, both] using
          @PartStandsFor.plain c (d :: rest) fun first e he => by simp_all

theorem standsFor_fieldOf (word : String) : StandsFor word (fieldOf word) := by
  refine ⟨word.toList.splitOn '_', ((word.toList.splitOn '_').filter (· ≠ [])).map decapitalize,
    (List.intercalate_splitOn '_').symm, fun part => underscore_not_mem, ?_, ?_⟩
  · rw [List.forall₂_map_right_iff, List.forall₂_same]
    exact fun part mem => partStandsFor_iff.mpr ⟨by simpa using (List.mem_filter.mp mem).2, rfl⟩
  · rw [List.map_map]
    rfl

theorem StandsFor.fieldOf_eq (h : StandsFor word field) : fieldOf word = field := by
  obtain ⟨parts, segments, divided, apart, stand, rfl⟩ := h
  have same : (parts.filter (· ≠ [])).map decapitalize = segments := by
    rw [← List.forall₂_eq_eq_eq, List.forall₂_map_left_iff]
    exact stand.imp fun part segment h => (partStandsFor_iff.mp h).2.symm
  -- Splitting the word gives the parts again, or a single empty one if there are none.
  have kept : (word.toList.splitOn '_').filter (· ≠ []) = parts.filter (· ≠ []) := by
    rw [divided]
    cases parts with
    | nil => rfl
    | cons part parts => rw [List.splitOn_intercalate '_' apart (List.cons_ne_nil _ _)]
  rw [fieldOf, kept, ← same, List.map_map]
  rfl

/-- A word stands for exactly one field. -/
theorem standsFor_iff : StandsFor word field ↔ field = fieldOf word :=
  ⟨fun h => h.fieldOf_eq.symm, fun same => same ▸ standsFor_fieldOf word⟩

end QueryTree.MethodName
