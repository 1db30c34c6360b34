import Mathlib.Data.List.TakeWhile
import QueryTree.Proofs.Binding.History
import QueryTree.Proofs.Condition.Comparisons
import QueryTree.Proofs.MethodName.Placement
import QueryTree.Proofs.MethodName.Positions

/-! # Parameters line up with the words

Each segment of a method name yields one comparison. Its words tell the number of parameters, and
the parameters of all segments are numbered in the order of the words.
-/

namespace QueryTree

namespace MethodName

/-- The words of each segment between `By` and `OrderBy`, from left to right. -/
def segmentWords (ws : List String) : List (List String) :=
  let clause := (ws.dropWhile (· ≠ "By")).tail.takeWhile (· ≠ "OrderBy")
  if clause = [] then [] else (clause.splitOn "Or").flatMap (·.splitOn "And")

/-- The number of parameters that the words of a segment call for. -/
def parameterCount (segment : List String) : Nat :=
  if "Between" ∈ segment then 2
  else if "True" ∈ segment ∨ "False" ∈ segment ∨ "Null" ∈ segment then 0
  else 1

section Words

theorem Modifier.word_injective {m m' : Modifier} (h : m.word = m'.word) : m = m' := by
  have apart : ∀ m ∈ all, ∀ m' ∈ all, m.word = m'.word → m = m' := by decide
  exact apart m m.mem_all m' m'.mem_all h

namespace Wording

/-- No more than one modifier of a segment is a test. -/
theorem Segment.findSome?_test_iff {s : Segment} {t : Test} :
    s.modifiers.findSome? Modifier.test? = some t ↔ .test t ∈ s.modifiers := by
  have once := s.once
  constructor
  · intro found
    obtain ⟨m, mem, same⟩ := List.exists_of_findSome?_eq_some found
    cases m with
    | test t' =>
      obtain rfl := Option.some.inj same
      exact mem
    | _ => cases same
  · intro mem
    obtain ⟨before, after, split⟩ := List.append_of_mem mem
    refine List.findSome?_eq_some_iff.mpr ⟨before, _, after, split, rfl, fun m hm => ?_⟩
    cases m with
    | test t' =>
      rw [split, List.map_append, List.nodup_append] at once
      exact absurd rfl (once.2.2 _ (List.mem_map_of_mem hm) _ List.mem_cons_self)
    | _ => rfl

theorem Segment.word_mem_words_iff {s : Segment} {t : Test} :
    t.word ∈ s.words ↔ s.modifiers.findSome? Modifier.test? = some t := by
  have other : t.word ≠ s.property := fun same =>
    s.plain (mem_reservedWords_iff.mpr (.inr ⟨.test t, same.symm⟩))
  rw [findSome?_test_iff, words, List.mem_cons, or_iff_right other, List.mem_map]
  constructor
  · rintro ⟨m, mem, same⟩
    obtain rfl : m = .test t := Modifier.word_injective same
    exact mem
  · intro mem
    exact ⟨_, mem, rfl⟩

theorem Segment.parameterCount_words (s : Segment) : parameterCount s.words = s.test.arity := by
  have between := s.word_mem_words_iff (t := .between)
  have true_ := s.word_mem_words_iff (t := .true_)
  have false_ := s.word_mem_words_iff (t := .false_)
  have null := s.word_mem_words_iff (t := .null)
  simp only [Test.word] at between true_ false_ null
  simp only [parameterCount, between, true_, false_, null, test]
  cases s.modifiers.findSome? Modifier.test? with
  | none => rfl
  | some t => cases t <;> rfl

theorem Bound.by_not_mem_words (b : Bound) : "By" ∉ b.words := by
  have bounds : ∀ top : Bool, "By" ≠ if top then "Top" else "First" := by decide
  rw [words, List.mem_cons, Option.mem_toList]
  rintro (same | given)
  · exact bounds b.top same
  · exact absurd (b.positive "By" given).1 (by decide)

theorem Key.by_not_mem_words (k : Key) : "By" ∉ k.words := by
  obtain ⟨property, field, direction, stands, plain⟩ := k
  rw [words, List.mem_cons]
  rintro (rfl | mem)
  · exact plain (by decide)
  · obtain ⟨d, -, same⟩ := Option.map_eq_some_iff.mp (Option.mem_toList.mp mem)
    cases d <;> exact absurd same (by decide)

variable (w : Wording)

theorem by_not_mem_subjectWords : "By" ∉ w.verb.word :: w.subjectWords := by
  rw [subjectWords, List.mem_cons, List.mem_append, List.mem_append]
  rintro (same | mem | mem | mem)
  · cases hv : w.verb <;> exact absurd (hv ▸ same) (by decide)
  · exact absurd (List.eq_of_mem_replicate mem) (by decide)
  · cases hb : w.bound with
    | none =>
      rw [hb] at mem
      cases mem
    | some b =>
      rw [hb] at mem
      exact b.by_not_mem_words mem
  · exact absurd (List.eq_of_mem_replicate mem) (by decide)

theorem by_not_mem_orderWords : "By" ∉ w.orderWords := by
  unfold orderWords
  split
  · exact List.not_mem_nil
  · rw [List.mem_cons, List.mem_flatMap]
    rintro (same | ⟨k, -, mem⟩)
    · exact absurd same (by decide)
    · exact k.by_not_mem_words mem

theorem clause_words :
    (w.words.dropWhile (· ≠ "By")).tail.takeWhile (· ≠ "OrderBy") =
      predicateWords (w.predicate.getD []) := by
  have before : ∀ x ∈ w.verb.word :: w.subjectWords, decide (x ≠ "By") := fun x hx =>
    decide_eq_true fun same => w.by_not_mem_subjectWords (same ▸ hx)
  rw [words, ← List.cons_append, List.dropWhile_append_of_pos before, clauseWords]
  cases hp : w.predicate with
  | none =>
    have after : ∀ x ∈ w.orderWords, decide (x ≠ "By") := fun x hx =>
      decide_eq_true fun same => w.by_not_mem_orderWords (same ▸ hx)
    rw [Option.elim, List.nil_append, List.dropWhile_eq_nil_iff.mpr after]
    rfl
  | some groups =>
    have inside : ∀ x ∈ predicateWords groups, decide (x ≠ "OrderBy") := fun x hx =>
      decide_eq_true fun same => orderBy_not_mem_predicateWords groups (same ▸ hx)
    have ends : w.orderWords.takeWhile (· ≠ "OrderBy") = [] := by
      unfold orderWords
      split <;> rfl
    rw [Option.elim, List.cons_append, List.dropWhile_cons_of_neg (by simp), List.tail_cons,
      List.takeWhile_append_of_pos inside, ends, List.append_nil]
    rfl

theorem segmentWords_words :
    segmentWords w.words =
      (w.predicate.getD []).flatMap fun g => g.segments.map Segment.words := by
  rw [segmentWords, w.clause_words]
  by_cases none : w.predicate.getD [] = []
  · rw [none]
    rfl
  · rw [if_neg (predicateWords_ne_nil none), splitOn_predicateWords none, List.flatMap_map]
    exact List.flatMap_congr fun g _ => g.splitOn_words

end Wording

end Words

section Comparisons

/-- What a comparison has of the segment that it comes from. -/
structure Segment.Answers (s : Segment) (x : Comparison Operand) : Prop where
  field : x.field = s.field
  names : ∀ p ∈ x.value.params, p.name = Text.lastSegment x.field
  count : x.value.params.length = s.terminal.arity

namespace Segment

theorem comparisons_leaf (s : Segment) (n : Nat) :
    List.Forall₂ Answers [s] (s.leaf n).comparisons := by
  unfold leaf
  cases h : s.terminal <;> refine .cons ⟨rfl, ?_, ?_⟩ .nil <;>
    simp [h, Terminal.arity, Segment.param, Operand.params, Operand.paramsAll, Param.indexed]

theorem comparisons_condition (s : Segment) (n : Nat) :
    List.Forall₂ Answers [s] (s.condition n).comparisons := by
  have cased : (if s.ignoreCase then (s.leaf n).ignoreCase else s.leaf n).comparisons =
      (s.leaf n).comparisons := by
    split
    · exact (Condition.comparisons_node _ _).trans (List.flatMap_singleton _ _)
    · rfl
  have signed : (s.condition n).comparisons = (s.leaf n).comparisons := by
    simp only [Segment.condition]
    split
    · exact ((Condition.comparisons_node _ _).trans (List.flatMap_singleton _ _)).trans cased
    · exact cased
  rw [signed]
  exact s.comparisons_leaf n

theorem comparisons_conditions (n : Nat) (segments : List Segment) :
    List.Forall₂ Answers segments ((conditions n segments).flatMap Condition.comparisons) := by
  induction segments generalizing n with
  | nil => exact .nil
  | cons s rest ih => exact List.rel_append (s.comparisons_condition n) (ih _)

theorem comparisons_groupConditions (n : Nat) (groups : List (List Segment)) :
    List.Forall₂ Answers groups.flatten
      ((groupConditions n groups).flatMap Condition.comparisons) := by
  induction groups generalizing n with
  | nil => exact .nil
  | cons g rest ih =>
    rw [groupConditions, List.flatMap_cons, Condition.comparisons_join, List.flatten_cons]
    exact List.rel_append (comparisons_conditions n g) (ih _)

end Segment

end Comparisons

end MethodName

open MethodName

def Statement.comparisons (s : Statement) : List (Comparison Operand) :=
  (s.condition.map Condition.comparisons).getD []

theorem MethodName.Derivation.comparisons_statement (d : Derivation) (entity : String) :
    List.Forall₂ Segment.Answers d.groups.flatten (d.statement entity).comparisons := by
  rw [Statement.comparisons, d.condition_statement_eq, Derivation.condition]
  split
  · next none =>
    rw [none]
    exact .nil
  · rw [Option.map_some, Option.getD_some, Condition.comparisons_join]
    exact Segment.comparisons_groupConditions 1 d.groups

theorem MethodName.Derivation.params_statement (d : Derivation) (entity : String) :
    (d.statement entity).params =
      (d.statement entity).comparisons.flatMap (·.value.params) := by
  have assigns : (d.statement entity).assignments = [] := by
    unfold statement
    split <;> rfl
  rw [Statement.params, assigns, Statement.comparisons]
  cases (d.statement entity).condition with
  | none => rfl
  | some c => exact c.params_eq_flatMap_comparisons

theorem MethodName.Derivation.numbers_statement (d : Derivation) (entity : String) :
    Segment.Numbers 1 (Segment.groupArity d.groups) (d.statement entity).params := by
  rw [d.params_statement, Statement.comparisons, d.condition_statement_eq]
  cases given : d.condition with
  | none =>
    have none : d.groups = [] := by
      unfold Derivation.condition at given
      split at given
      · next none => exact none
      · cases given
    rw [none]
    rfl
  | some c =>
    rw [Option.map_some, Option.getD_some, ← c.params_eq_flatMap_comparisons]
    exact Derivation.numbers_condition given

theorem MethodName.Wording.parameterCounts (w : Wording) :
    (segmentWords w.words).map parameterCount =
      w.derivation.groups.flatten.map (·.terminal.arity) := by
  rw [w.segmentWords_words, derivation, List.map_flatMap, ← List.flatMap_def, List.map_flatMap]
  refine List.flatMap_congr fun g _ => ?_
  rw [Group.reading, List.map_map, List.map_map]
  refine List.map_congr_left fun s _ => ?_
  exact s.parameterCount_words.trans s.test.arity_terminal.symm

theorem eraseDups_of_nodup {α : Type} [BEq α] [LawfulBEq α] {l : List α} (h : l.Nodup) :
    l.eraseDups = l := by
  induction l with
  | nil => rfl
  | cons a l ih =>
    obtain ⟨fresh, nodup⟩ := List.nodup_cons.mp h
    have kept : l.filter (fun b => !b == a) = l := by
      rw [List.filter_eq_self]
      rintro b hb
      rw [Bool.not_eq_true', beq_eq_false_iff_ne]
      rintro rfl
      exact fresh hb
    rw [List.eraseDups_cons, kept, ih nodup]

/-- The comparisons of a derived statement are those of the segments of the name, in their order and
each with as many parameters as its words call for. The parameters are numbered through from one on
and named after the fields. None occurs twice, so a value for each position is all they need. -/
theorem positions_line_up (method entity : String) (s : Statement)
    (derived : derive method entity = .ok s) :
    let counts := (segmentWords (words method)).map parameterCount
    s.params = s.comparisons.flatMap (·.value.params) ∧
      s.comparisons.map (·.value.params.length) = counts ∧
      (∀ x ∈ s.comparisons, ∀ p ∈ x.value.params, p.name = Text.lastSegment x.field) ∧
      s.params.map Param.position = (List.range' 1 counts.sum).map some ∧
      (Params.ofStatement s).placeholders = s.params ∧
      ∀ history : List Binding,
        (∀ n ∈ List.range' 1 counts.sum, ∃ v, .byPosition n v ∈ history) →
          ((Params.ofStatement s).giveAll history).unbound = [] := by
  intro counts
  obtain ⟨w, hw, rfl⟩ := derive_eq_ok_iff.mp derived
  rw [← w.statement_derivation]
  set s := w.derivation.statement entity
  have params : s.params = s.comparisons.flatMap (·.value.params) :=
    w.derivation.params_statement entity
  have answers : List.Forall₂ Segment.Answers w.derivation.groups.flatten s.comparisons :=
    w.derivation.comparisons_statement entity
  have lengths : s.comparisons.map (·.value.params.length) = counts := by
    have same := List.rel_map (P := Eq) (fun _ _ h => h.count.symm) answers
    rw [List.forall₂_eq_eq_eq, ← w.parameterCounts, ← hw] at same
    exact same.symm
  have numbers : Segment.Numbers 1 (Segment.groupArity w.derivation.groups) s.params :=
    w.derivation.numbers_statement entity
  have positions : s.params.map Param.position = (List.range' 1 counts.sum).map some := by
    have total : counts.sum = Segment.groupArity w.derivation.groups := by
      rw [← lengths, ← List.length_flatMap, ← params]
      simpa using congrArg List.length numbers
    rw [total]
    exact numbers
  have placeholders : (Params.ofStatement s).placeholders = s.params :=
    eraseDups_of_nodup numbers.nodup
  have named : ∀ x ∈ s.comparisons, ∀ p ∈ x.value.params, p.name = Text.lastSegment x.field :=
    ((List.forall₂_and_left _ _).mp (answers.flip.imp fun x _ h => ⟨h.names, h⟩)).1
  refine ⟨params, lengths, named, positions, placeholders, fun history given => ?_⟩
  rw [← placeholders] at positions
  exact Params.unbound_giveAll_eq_nil positions given

theorem positions_line_up_repeated :
    ∃ s, derive "findByNameInAndAgeBetweenOrActiveTrueAndShop_NameNot" "Person" = .ok s ∧
      s.comparisons.map (·.field) = ["name", "age", "active", "shop.name"] ∧
      s.comparisons.map (·.value.params.length) = [1, 2, 0, 1] ∧
      s.params.map Param.name = ["name", "age", "age", "name"] ∧
      s.params.map Param.position = [some 1, some 2, some 3, some 4] ∧
      (Params.ofStatement s).placeholders = s.params ∧
      ((Params.ofStatement s).giveAll [.byPosition 4 .null, .byPosition 2 .null,
        .byPosition 1 (.list []), .byPosition 3 .null]).unbound = [] := by
  let method := "findByNameInAndAgeBetweenOrActiveTrueAndShop_NameNot"
  have fields : (derive method "Person").map (·.comparisons.map (·.field)) =
      .ok ["name", "age", "active", "shop.name"] := by decide +kernel
  have names : (derive method "Person").map (·.params.map Param.name) =
      .ok ["name", "age", "age", "name"] := by decide +kernel
  have counts : (segmentWords (words method)).map parameterCount = [1, 2, 0, 1] := by
    decide +kernel
  obtain ⟨s, derived, fields⟩ := Except.map_eq_ok_iff.mp fields
  rw [derived] at names
  obtain ⟨-, lengths, -, positions, placeholders, bound⟩ :=
    positions_line_up method "Person" s derived
  rw [counts] at lengths positions bound
  refine ⟨s, derived, fields, lengths, Except.ok.inj names, positions, placeholders, bound _ ?_⟩
  simp [List.range']

end QueryTree
