import QueryTree.Proofs.Fallible
import QueryTree.Proofs.MethodName.Wording

/-! # Segments are read by their wordings

The words of a predicate are read as groups of segments exactly if every word of them has a place.
-/

namespace QueryTree.MethodName

section Table

theorem Verb.lookup_eq_some_iff {w : String} {v : Verb} : verbs.lookup w = some v ↔ w = v.word := by
  constructor
  · intro h
    simp only [verbs, List.lookup_cons, List.lookup_nil] at h
    grind [Verb.word]
  · rintro rfl
    cases v <;> rfl

def Test.terminal : Test → Terminal
  | equals => .compare .equals
  | greaterThan => .compare .greaterThan
  | greaterThanEqual => .compare .greaterEqualsThan
  | lessThan => .compare .lesserThan
  | lessThanEqual => .compare .lesserEqualsThan
  | like => .compare .like
  | in_ => .compare .in_
  | contains => .compare .contains
  | startsWith => .compare .startsWith
  | endsWith => .compare .endsWith
  | between => .between
  | true_ => .boolean true
  | false_ => .boolean false
  | null => .null

theorem terminals_lookup_word (t : Test) : terminals.lookup t.word = some t.terminal := by
  cases t <;> rfl

theorem terminals_lookup_eq_some_iff {w : String} {terminal : Terminal} :
    terminals.lookup w = some terminal ↔ ∃ t : Test, w = t.word ∧ terminal = t.terminal := by
  constructor
  · intro h
    have table : terminals = Test.all.map fun t => (t.word, t.terminal) := rfl
    rw [table, List.lookup_eq_findSome?] at h
    obtain ⟨entry, mem, hit⟩ := List.exists_of_findSome?_eq_some h
    obtain ⟨t, -, rfl⟩ := List.mem_map.mp mem
    simp only [beq_iff_eq, Option.ite_none_right_eq_some, Option.some.injEq] at hit
    exact ⟨t, hit.1, hit.2.symm⟩
  · rintro ⟨t, rfl, rfl⟩
    exact terminals_lookup_word t

theorem Modifier.exists_eq_word_iff {w : String} :
    (∃ m : Modifier, w = m.word) ↔ w = "Not" ∨ w = "IgnoreCase" ∨ ∃ t : Test, w = t.word := by
  constructor
  · rintro ⟨- | - | t, rfl⟩
    · exact Or.inl rfl
    · exact Or.inr (Or.inl rfl)
    · exact Or.inr (Or.inr ⟨t, rfl⟩)
  · rintro (rfl | rfl | ⟨t, rfl⟩)
    · exact ⟨.not, rfl⟩
    · exact ⟨.ignoreCase, rfl⟩
    · exact ⟨.test t, rfl⟩

theorem Modifier.word_not_mem (m : Modifier) : m.word ∉ ["And", "Or", "OrderBy"] := by
  have apart : ∀ m ∈ all, m.word ∉ ["And", "Or", "OrderBy"] := by decide
  exact apart m m.mem_all

theorem mem_reservedWords_iff {w : String} :
    w ∈ reservedWords ↔
      w ∈ ["And", "Or", "OrderBy", "By", "Asc", "Desc"] ∨ ∃ m : Modifier, w = m.word := by
  simp only [reservedWords, List.mem_append, List.mem_map, Modifier.mem_all, true_and, eq_comm]

theorem isKeyword_iff {w : String} : isKeyword w ↔ w ∈ reservedWords := by
  have tests : (terminals.lookup w).isSome ↔ ∃ t : Test, w = t.word := by
    simp only [Option.isSome_iff_exists, terminals_lookup_eq_some_iff]
    grind
  rw [mem_reservedWords_iff, Modifier.exists_eq_word_iff]
  simp only [isKeyword, Bool.or_eq_true, tests, List.contains_iff_mem, List.mem_cons,
    List.not_mem_nil, or_false]
  grind

end Table

section Segment

def Modifiers.has (m : Modifiers) : Modifier.Kind → Bool
  | .negation => m.negated
  | .casing => m.ignoreCase
  | .test => m.terminal.isSome

def Modifiers.add (m : Modifiers) : Modifier → Modifiers
  | .not => { m with negated := true }
  | .ignoreCase => { m with ignoreCase := true }
  | .test t => { m with terminal := some t.terminal }

theorem Modifiers.has_add (m : Modifiers) (x : Modifier) (k : Modifier.Kind) :
    (m.add x).has k = (k = x.kind || m.has k) := by
  cases x <;> cases k <;> simp [add, has, Modifier.kind]

theorem Test.word_ne (t : Test) : t.word ≠ "Not" ∧ t.word ≠ "IgnoreCase" := by
  cases t <;> decide

theorem modifiers_word (m : Modifiers) (x : Modifier) (rest : List String) :
    modifiers m (x.word :: rest) =
      if m.has x.kind then .error (.unexpectedWord x.word) else modifiers (m.add x) rest := by
  cases x with
  | not =>
    have plain : terminals.lookup "Not" = none := rfl
    by_cases met : m.negated <;>
      simp [modifiers, Modifier.word, Modifier.kind, Modifiers.has, Modifiers.add, met, plain]
  | ignoreCase =>
    have plain : terminals.lookup "IgnoreCase" = none := rfl
    by_cases met : m.ignoreCase <;>
      simp [modifiers, Modifier.word, Modifier.kind, Modifiers.has, Modifiers.add, met, plain]
  | test t =>
    cases met : m.terminal <;>
      simp [modifiers, Modifier.word, Modifier.kind, Modifiers.has, Modifiers.add, met, t.word_ne,
        terminals_lookup_word]

theorem modifiers_other {m : Modifiers} {w : String} {rest : List String}
    (other : ∀ x : Modifier, w ≠ x.word) :
    modifiers m (w :: rest) = .error (.unexpectedWord w) := by
  have plain : terminals.lookup w = none := by
    rw [← Option.not_isSome_iff_eq_none, Option.isSome_iff_exists]
    rintro ⟨terminal, h⟩
    obtain ⟨t, rfl, -⟩ := terminals_lookup_eq_some_iff.mp h
    exact other (.test t) rfl
  simp [modifiers, plain, show w ≠ "Not" from other .not, show w ≠ "IgnoreCase" from
    other .ignoreCase]

def Modifiers.addAll (m : Modifiers) (xs : List Modifier) : Modifiers :=
  ⟨m.negated || .not ∈ xs, m.ignoreCase || .ignoreCase ∈ xs,
    m.terminal.or ((xs.findSome? Modifier.test?).map Test.terminal)⟩

theorem Modifiers.addAll_cons {m : Modifiers} {x : Modifier} (fresh : m.has x.kind = false)
    (xs : List Modifier) : m.addAll (x :: xs) = (m.add x).addAll xs := by
  cases x <;> simp_all [addAll, add, has, Modifier.kind, Modifier.test?, List.findSome?_cons]

theorem modifiers_sound {m m' : Modifiers} {ws : List String} (h : modifiers m ws = .ok m') :
    ∃ xs : List Modifier, ws = xs.map Modifier.word ∧ (xs.map Modifier.kind).Nodup ∧
      (∀ x ∈ xs, m.has x.kind = false) ∧ m' = m.addAll xs := by
  induction ws generalizing m with
  | nil =>
    obtain rfl : m = m' := by simpa [modifiers] using h
    exact ⟨[], rfl, by simp, by simp, by simp [Modifiers.addAll]⟩
  | cons w ws ih =>
    by_cases hw : ∃ x : Modifier, w = x.word
    · obtain ⟨x, rfl⟩ := hw
      rw [modifiers_word] at h
      split at h
      · cases h
      next fresh =>
      obtain ⟨xs, rfl, nodup, others, rfl⟩ := ih h
      simp only [Modifiers.has_add, Bool.or_eq_false_iff, decide_eq_false_iff_not] at others
      refine ⟨x :: xs, rfl, ?_, ?_, (Modifiers.addAll_cons (by simpa using fresh) xs).symm⟩
      · refine List.nodup_cons.mpr ⟨fun mem => ?_, nodup⟩
        obtain ⟨y, hy, same⟩ := List.mem_map.mp mem
        exact (others y hy).1 same
      · intro y hy
        obtain rfl | hy := List.mem_cons.mp hy
        · simpa using fresh
        · exact (others y hy).2
    · rw [modifiers_other fun x hx => hw ⟨x, hx⟩] at h
      cases h

theorem modifiers_complete {m : Modifiers} {xs : List Modifier}
    (nodup : (xs.map Modifier.kind).Nodup) (fresh : ∀ x ∈ xs, m.has x.kind = false) :
    modifiers m (xs.map Modifier.word) = .ok (m.addAll xs) := by
  induction xs generalizing m with
  | nil => simp [modifiers, Modifiers.addAll]
  | cons x xs ih =>
    obtain ⟨first, nodup⟩ := List.nodup_cons.mp nodup
    obtain ⟨hx, fresh⟩ := List.forall_mem_cons.mp fresh
    rw [List.map_cons, modifiers_word, hx, if_neg Bool.false_ne_true, Modifiers.addAll_cons hx]
    refine ih nodup fun y hy => ?_
    rw [Modifiers.has_add, fresh y hy, Bool.or_false, decide_eq_false_iff_not]
    exact fun same => first (List.mem_map.mpr ⟨y, hy, same⟩)

namespace Wording

def Segment.reading (s : Wording.Segment) : MethodName.Segment :=
  ⟨s.property, .not ∈ s.modifiers, .ignoreCase ∈ s.modifiers, s.test.terminal⟩

end Wording

theorem reading_of_modifiers (x : Wording.Segment) :
    let m := (⟨false, false, none⟩ : Modifiers).addAll x.modifiers
    x.reading = ⟨x.property, m.negated, m.ignoreCase, m.terminal.getD (.compare .equals)⟩ := by
  have terminal (t : Option Test) :
      (t.map Test.terminal).getD (.compare .equals) = (t.getD .equals).terminal := by
    cases t <;> rfl
  simp only [Wording.Segment.reading, Wording.Segment.test, Modifiers.addAll, Bool.false_or,
    Option.none_or, terminal]

theorem segment_eq_ok_iff {ws : List String} {s : Segment} :
    segment ws = .ok s ↔ ∃ x : Wording.Segment, ws = x.words ∧ s = x.reading := by
  constructor
  · intro h
    cases ws with
    | nil => cases h
    | cons property ws =>
      simp only [segment] at h
      split at h
      · cases h
      next plain =>
      obtain ⟨m, hm, rfl⟩ := Except.map_eq_ok_iff.mp h
      obtain ⟨xs, rfl, once, -, rfl⟩ := modifiers_sound hm
      refine ⟨⟨property, fieldOf property, xs, standsFor_fieldOf property,
        fun mem => plain (isKeyword_iff.mpr mem), once⟩, rfl, ?_⟩
      rw [reading_of_modifiers]
  · rintro ⟨x, rfl, rfl⟩
    have plain : ¬ isKeyword x.property := fun h => x.plain (isKeyword_iff.mp h)
    rw [Wording.Segment.words, segment, if_neg plain, modifiers_complete x.once (by
      intro y _
      cases y <;> rfl), reading_of_modifiers]
    rfl

end Segment

section Predicate

theorem mem_intercalate {α : Type} {separator x : α} {ls : List (List α)}
    (h : x ∈ [separator].intercalate ls) : x = separator ∨ ∃ l ∈ ls, x ∈ l := by
  induction ls with
  | nil => simp at h
  | cons l ls ih =>
    by_cases last : ls = []
    · subst last
      exact Or.inr ⟨l, by simp, by simpa using h⟩
    · rw [List.intercalate_cons_of_ne_nil last] at h
      simp only [List.mem_append, List.mem_singleton] at h
      rcases h with (h | h) | h
      · exact Or.inr ⟨l, by simp, h⟩
      · exact Or.inl h
      · obtain h | ⟨l', mem, h⟩ := ih h
        · exact Or.inl h
        · exact Or.inr ⟨l', by simp [mem], h⟩

theorem subset_intercalate {α : Type} {separator : α} {l : List α} {ls : List (List α)}
    (mem : l ∈ ls) : l ⊆ [separator].intercalate ls := by
  induction ls with
  | nil => cases mem
  | cons l' ls ih =>
    by_cases last : ls = []
    · subst last
      obtain rfl := List.mem_singleton.mp mem
      simp
    · rw [List.intercalate_cons_of_ne_nil last]
      rcases List.mem_cons.mp mem with rfl | mem
      · rw [List.append_assoc]
        exact List.subset_append_left _ _
      · exact List.Subset.trans (ih mem) (List.subset_append_right _ _)

theorem intercalate_ne_nil {α : Type} {separator : α} {ls : List (List α)} (some : ls ≠ [])
    (each : [] ∉ ls) : [separator].intercalate ls ≠ [] := by
  cases ls with
  | nil => exact absurd rfl some
  | cons l ls =>
    by_cases last : ls = []
    · subst last
      simpa [eq_comm] using each
    · rw [List.intercalate_cons_of_ne_nil last]
      simp

namespace Wording

/-- The words between segments, groups and clauses do not occur in a segment. -/
theorem Segment.not_mem_words {s : Segment} {w : String} (h : w ∈ ["And", "Or", "OrderBy"]) :
    w ∉ s.words := by
  intro mem
  obtain rfl | mem := List.mem_cons.mp mem
  · exact s.plain (mem_reservedWords_iff.mpr (Or.inl (by grind)))
  · obtain ⟨x, -, rfl⟩ := List.mem_map.mp mem
    exact x.word_not_mem h

theorem Group.not_mem_words {group : Group} {w : String} (h : w ∈ ["Or", "OrderBy"]) :
    w ∉ group.words := by
  intro mem
  obtain rfl | ⟨l, hl, mem⟩ := mem_intercalate mem
  · simp at h
  · obtain ⟨s, -, rfl⟩ := List.mem_map.mp hl
    exact s.not_mem_words (List.mem_cons_of_mem _ h) mem

theorem orderBy_not_mem_predicateWords (groups : List Group) :
    "OrderBy" ∉ predicateWords groups := by
  intro mem
  obtain same | ⟨l, hl, mem⟩ := mem_intercalate mem
  · exact absurd same (by decide)
  · obtain ⟨group, -, rfl⟩ := List.mem_map.mp hl
    exact group.not_mem_words (by simp) mem

def Group.reading (g : Group) : List MethodName.Segment := g.segments.map Segment.reading

end Wording

theorem Wording.Group.splitOn_words (g : Wording.Group) :
    g.words.splitOn "And" = g.segments.map Wording.Segment.words := by
  refine List.splitOn_intercalate _ ?_ (by simpa using g.some)
  intro l hl
  obtain ⟨s, -, rfl⟩ := List.mem_map.mp hl
  exact s.not_mem_words (by simp)

theorem Wording.splitOn_predicateWords {groups : List Wording.Group} (some : groups ≠ []) :
    (predicateWords groups).splitOn "Or" = groups.map Group.words := by
  refine List.splitOn_intercalate _ ?_ (by simpa using some)
  intro l hl
  obtain ⟨g, -, rfl⟩ := List.mem_map.mp hl
  exact g.not_mem_words (by simp)

theorem group_eq_ok_iff {ws : List String} {g : List Segment} :
    (ws.splitOn "And").mapM segment = .ok g ↔
      ∃ group : Wording.Group, ws = group.words ∧ g = group.reading := by
  rw [mapM_eq_ok_iff Wording.Segment.words Wording.Segment.reading fun _ _ => segment_eq_ok_iff]
  constructor
  · rintro ⟨segments, h, rfl⟩
    refine ⟨⟨segments, ?_⟩, ?_, rfl⟩
    · rintro rfl
      exact List.splitOn_ne_nil _ _ h
    · rw [Wording.Group.words, ← h, List.intercalate_splitOn]
  · rintro ⟨group, rfl, rfl⟩
    exact ⟨group.segments, group.splitOn_words, rfl⟩

theorem Wording.Group.words_ne_nil (g : Wording.Group) : g.words ≠ [] := by
  refine intercalate_ne_nil (by simpa using g.some) fun mem => ?_
  obtain ⟨s, -, h⟩ := List.mem_map.mp mem
  cases h

theorem Wording.predicateWords_ne_nil {groups : List Wording.Group} (some : groups ≠ []) :
    predicateWords groups ≠ [] := by
  refine intercalate_ne_nil (by simpa using some) fun mem => ?_
  obtain ⟨g, -, h⟩ := List.mem_map.mp mem
  exact g.words_ne_nil h

theorem predicate_eq_ok_iff {ws : List String} {gs : List (List Segment)} :
    predicate ws = .ok gs ↔
      ∃ groups : List Wording.Group, ws = Wording.predicateWords groups ∧
        gs = groups.map Wording.Group.reading := by
  unfold predicate
  by_cases empty : ws = []
  · subst empty
    rw [if_pos rfl, Except.ok.injEq]
    constructor
    · rintro rfl
      exact ⟨[], rfl, rfl⟩
    · rintro ⟨groups, h, rfl⟩
      by_contra h'
      exact Wording.predicateWords_ne_nil (by simpa [eq_comm] using h') h.symm
  · rw [if_neg empty, mapM_eq_ok_iff Wording.Group.words Wording.Group.reading
      fun _ _ => group_eq_ok_iff]
    constructor
    · rintro ⟨groups, h, rfl⟩
      exact ⟨groups, by rw [Wording.predicateWords, ← h, List.intercalate_splitOn], rfl⟩
    · rintro ⟨groups, rfl, rfl⟩
      refine ⟨groups, Wording.splitOn_predicateWords ?_, rfl⟩
      rintro rfl
      exact empty rfl

end Predicate

end QueryTree.MethodName
