import QueryTree.Proofs.MethodName.Scanning
import QueryTree.Proofs.MethodName.Segments

/-! # Every word is placed

Words are read as a derivation exactly if they are the words of a wording, and the statement is the
one that the wording stands for.
-/

namespace QueryTree

def Statement.sorts : Statement → List SortKey
  | select q => q.sorts
  | _ => []

namespace MethodName

section Subject

def Breaks (ws : List String) : Prop := ∀ w ∈ ws.head?, w = "By" ∨ w = "OrderBy"

theorem subject_of_breaks {v : Verb} {limit : Nat} {ws : List String} (h : Breaks ws) :
    subject v limit ws = .ok (limit, ws) := by
  cases ws with
  | nil => rfl
  | cons w ws => rw [subject.eq_def]; exact if_pos (h w rfl)

theorem subject_replicate (v : Verb) (limit n : Nat) (ws : List String) :
    subject v limit (.replicate n "All" ++ ws) = subject v limit ws := by
  induction n with
  | zero => rfl
  | succ n ih =>
    rw [List.replicate_succ, List.cons_append, subject.eq_def]
    exact ih

/-- Once there is a limit, no other one is set. -/
theorem subject_bounded_sound {v : Verb} {limit n : Nat} {ws rest : List String} (set : limit ≠ 0)
    (h : subject v limit ws = .ok (n, rest)) :
    n = limit ∧ Breaks rest ∧ ∃ k, ws = .replicate k "All" ++ rest := by
  induction ws with
  | nil =>
    obtain ⟨rfl, rfl⟩ : limit = n ∧ [] = rest := by simpa [subject] using h
    exact ⟨rfl, by simp [Breaks], 0, rfl⟩
  | cons w ws ih =>
    rw [subject.eq_def] at h
    simp only [set, and_false, if_false] at h
    split at h
    · next ends =>
      obtain ⟨rfl, rfl⟩ : limit = n ∧ w :: ws = rest := by simpa using h
      exact ⟨rfl, by simpa [Breaks] using ends, 0, rfl⟩
    split at h
    · next all =>
      obtain ⟨rfl, breaks, k, rfl⟩ := ih h
      exact ⟨rfl, breaks, k + 1, by rw [all]; rfl⟩
    · cases h

/-- The subject after `First` or `Top`. -/
def afterBound (v : Verb) (ws : List String) : Except MethodFault (Nat × List String) :=
  match ws with
  | [] => .ok (1, [])
  | next :: rest =>
    if Text.startsWithDigit next.toList then
      match limit? next with
      | some n => subject v n rest
      | none => .error (.invalidLimit next)
    else subject v 1 (next :: rest)

theorem subject_limiter (top : Bool) (ws : List String) :
    subject .find 0 ((if top then "Top" else "First") :: ws) = afterBound .find ws := by
  rw [subject.eq_def]
  cases top <;> rfl

theorem subject_bound_sound {v : Verb} (top : Bool) {n : Nat} {ws rest : List String}
    (h : afterBound v ws = .ok (n, rest)) :
    Breaks rest ∧ ∃ (bound : Wording.Bound) (after : Nat), bound.top = top ∧ n = bound.limit ∧
      ws = bound.number.toList ++ .replicate after "All" ++ rest := by
  cases ws with
  | nil =>
    obtain ⟨rfl, rfl⟩ : 1 = n ∧ [] = rest := by simpa [afterBound] using h
    exact ⟨by simp [Breaks], ⟨top, none, by simp⟩, 0, rfl, rfl, rfl⟩
  | cons next ws =>
    simp only [afterBound] at h
    split at h
    · split at h
      · next digit m hm =>
        simp only [limit?, Option.ite_none_right_eq_some, Option.some.injEq] at hm
        obtain ⟨valid, rfl⟩ := hm
        obtain ⟨rfl, breaks, k, rfl⟩ := subject_bounded_sound (by omega) h
        exact ⟨breaks, ⟨top, some next, by simpa using valid⟩, k, rfl, rfl, rfl⟩
      · cases h
    · obtain ⟨rfl, breaks, k, hws⟩ := subject_bounded_sound (by decide) h
      exact ⟨breaks, ⟨top, none, by simp⟩, k, rfl, rfl, hws⟩

theorem subject_sound {v : Verb} {n : Nat} {ws rest : List String}
    (h : subject v 0 ws = .ok (n, rest)) :
    Breaks rest ∧ ∃ (before : Nat) (bound : Option Wording.Bound) (after : Nat),
      (bound.isSome → v = .find) ∧ n = bound.elim 0 Wording.Bound.limit ∧
        ws = .replicate before "All" ++
          (bound.elim [] Wording.Bound.words ++ .replicate after "All") ++ rest := by
  induction ws with
  | nil =>
    obtain ⟨rfl, rfl⟩ : 0 = n ∧ [] = rest := by simpa [subject] using h
    exact ⟨by simp [Breaks], 0, none, 0, by simp, rfl, rfl⟩
  | cons w ws ih =>
    rw [subject.eq_def] at h
    simp only at h
    split at h
    · next ends =>
      obtain ⟨rfl, rfl⟩ : 0 = n ∧ w :: ws = rest := by simpa using h
      exact ⟨by simpa [Breaks] using ends, 0, none, 0, by simp, rfl, rfl⟩
    split at h
    · next all =>
      obtain ⟨breaks, before, bound, after, searches, rfl, rfl⟩ := ih h
      exact ⟨breaks, before + 1, bound, after, searches, rfl, by rw [all]; rfl⟩
    split at h
    · next limiter =>
      obtain ⟨first, rfl, -⟩ := limiter
      obtain ⟨breaks, bound, after, top, rfl, rfl⟩ := subject_bound_sound (w = "Top") h
      refine ⟨breaks, 0, some bound, after, by simp, rfl, ?_⟩
      rcases first with rfl | rfl <;> simp [Wording.Bound.words, top]
    · cases h

theorem limit?_eq_some_iff {digits : String} {n : Nat} :
    limit? digits = some n ↔ digits.toList.all Char.isDigit ∧
      0 < n ∧ n < UInt64.size ∧ n = Nat.ofDigitChars 10 digits.toList 0 := by
  simp only [limit?, Option.ite_none_right_eq_some, Option.some.injEq]
  grind

theorem startsWithDigit_of_limit? {digits : String} {n : Nat} (h : limit? digits = some n) :
    Text.startsWithDigit digits.toList := by
  obtain ⟨all, pos, -, value⟩ := limit?_eq_some_iff.mp h
  cases hd : digits.toList with
  | nil => simp [value, hd] at pos
  | cons c cs =>
    rw [hd] at all
    exact (List.all_cons ▸ all |> Bool.and_eq_true_iff.mp).1

theorem afterBound_complete {v : Verb} {rest : List String} (breaks : Breaks rest) (after : Nat)
    (bound : Wording.Bound) :
    afterBound v (bound.number.toList ++ (.replicate after "All" ++ rest)) =
      .ok (bound.limit, rest) := by
  have others (limit : Nat) :
      subject v limit (.replicate after "All" ++ rest) = .ok (limit, rest) := by
    rw [subject_replicate, subject_of_breaks breaks]
  obtain ⟨top, number | digits, positive⟩ := bound
  · cases hws : List.replicate after "All" ++ rest with
    | nil =>
      obtain rfl : rest = [] := (List.append_eq_nil_iff.mp hws).2
      rfl
    | cons next ws =>
      have word : next = "All" ∨ next = "By" ∨ next = "OrderBy" := by
        cases after with
        | zero =>
          obtain rfl : rest = next :: ws := hws
          exact Or.inr (breaks next rfl)
        | succ k => exact Or.inl (List.cons.inj hws).1.symm
      have plain : ¬ Text.startsWithDigit next.toList := by
        rcases word with rfl | rfl | rfl <;> decide
      rw [hws] at others
      simp only [Option.toList, List.nil_append, afterBound, if_neg plain]
      exact others 1
  · obtain ⟨all, pos, bound⟩ := positive digits rfl
    have hl : limit? digits = some (Nat.ofDigitChars 10 digits.toList 0) :=
      limit?_eq_some_iff.mpr ⟨all, pos, bound, rfl⟩
    simp only [Option.toList, List.cons_append, List.nil_append, afterBound,
      if_pos (startsWithDigit_of_limit? hl), hl]
    exact others _

theorem subject_complete {v : Verb} {rest : List String} (breaks : Breaks rest) (before after : Nat)
    {bound : Option Wording.Bound} (searches : bound.isSome → v = .find) :
    subject v 0 (.replicate before "All" ++
      (bound.elim [] Wording.Bound.words ++ .replicate after "All") ++ rest) =
        .ok (bound.elim 0 Wording.Bound.limit, rest) := by
  rw [List.append_assoc, subject_replicate]
  cases bound with
  | none =>
    simp only [Option.elim, List.nil_append, subject_replicate]
    exact subject_of_breaks breaks
  | some bound =>
    obtain rfl := searches rfl
    simp only [Option.elim, Wording.Bound.words, List.cons_append, List.append_assoc,
      subject_limiter]
    exact afterBound_complete breaks after bound

end Subject

section Clauses

def StartsOrder (ws : List String) : Prop := ∀ w ∈ ws.head?, w = "OrderBy"

theorem predicateClause_sound {ws rest : List String} {gs : List (List Segment)}
    (breaks : Breaks ws) (h : predicateClause ws = .ok (gs, rest)) :
    StartsOrder rest ∧ ∃ predicate : Option (List Wording.Group),
      ws = (predicate.elim [] fun groups => "By" :: Wording.predicateWords groups) ++ rest ∧
        gs = (predicate.getD []).map Wording.Group.reading := by
  cases ws with
  | nil =>
    obtain ⟨rfl, rfl⟩ : [] = gs ∧ [] = rest := by simpa [predicateClause] using h
    exact ⟨by simp [StartsOrder], none, rfl, rfl⟩
  | cons w ws =>
    simp only [predicateClause] at h
    split at h
    · next by_ =>
      obtain ⟨gs', hp, ⟨⟩⟩ := Except.map_eq_ok_iff.mp h
      obtain ⟨groups, hw, rfl⟩ := predicate_eq_ok_iff.mp hp
      refine ⟨?_, some groups, ?_, rfl⟩
      · intro w hw
        have front := List.head?_dropWhile_not (· ≠ "OrderBy") ws
        rw [Option.mem_def.mp hw] at front
        simpa using front
      · rw [by_]
        simp [← hw]
    · next other =>
      obtain ⟨rfl, rfl⟩ : [] = gs ∧ w :: ws = rest := by simpa using h
      refine ⟨?_, none, rfl, rfl⟩
      simpa [StartsOrder] using (breaks w rfl).resolve_left other

theorem predicateClause_complete {rest : List String} (order : StartsOrder rest)
    (predicate : Option (List Wording.Group)) :
    predicateClause
        ((predicate.elim [] fun groups => "By" :: Wording.predicateWords groups) ++ rest) =
      .ok ((predicate.getD []).map Wording.Group.reading, rest) := by
  cases predicate with
  | none =>
    cases rest with
    | nil => rfl
    | cons w rest =>
      obtain rfl := order w rfl
      rfl
  | some groups =>
    have inside : ∀ w ∈ Wording.predicateWords groups, decide (w ≠ "OrderBy") := by
      intro w hw
      rw [decide_eq_true_iff]
      rintro rfl
      exact Wording.orderBy_not_mem_predicateWords groups hw
    have ends : rest.takeWhile (· ≠ "OrderBy") = [] ∧ rest.dropWhile (· ≠ "OrderBy") = rest := by
      cases rest with
      | nil => exact ⟨rfl, rfl⟩
      | cons w rest =>
        obtain rfl := order w rfl
        exact ⟨rfl, rfl⟩
    have read := predicate_eq_ok_iff.mpr ⟨groups, rfl, rfl⟩
    simp only [Option.elim, List.cons_append, predicateClause, if_true,
      List.takeWhile_append_of_pos inside, List.dropWhile_append_of_pos inside, ends,
      List.append_nil, read]
    rfl

def key (w : String) (plain : ¬ isKeyword w) (direction : Option Wording.Direction) :
    Wording.Key :=
  ⟨w, fieldOf w, direction, standsFor_fieldOf w, fun mem => plain (isKeyword_iff.mpr mem)⟩

theorem sorts_sound {ws : List String} {keys : List SortKey} (h : sorts ws = .ok keys) :
    ∃ ks : List Wording.Key, ws = ks.flatMap Wording.Key.words ∧
      keys = ks.map Wording.Key.sortKey := by
  fun_induction sorts ws generalizing keys with
  | case1 =>
    cases h
    exact ⟨[], rfl, rfl⟩
  | case2 => cases h
  | case3 w plain =>
    cases h
    exact ⟨[key w plain none], rfl, rfl⟩
  | case4 w plain rest ih =>
    obtain ⟨others, ho, rfl⟩ := Except.map_eq_ok_iff.mp h
    obtain ⟨ks, rfl, rfl⟩ := ih ho
    exact ⟨key w plain (some .asc) :: ks, rfl, rfl⟩
  | case5 w plain rest _ ih =>
    obtain ⟨others, ho, rfl⟩ := Except.map_eq_ok_iff.mp h
    obtain ⟨ks, rfl, rfl⟩ := ih ho
    exact ⟨key w plain (some .desc) :: ks, rfl, rfl⟩
  | case6 w plain next rest _ _ ih =>
    obtain ⟨others, ho, rfl⟩ := Except.map_eq_ok_iff.mp h
    obtain ⟨ks, hw, rfl⟩ := ih ho
    exact ⟨key w plain none :: ks, by rw [hw]; rfl, rfl⟩

theorem Wording.Key.property_ne (k : Wording.Key) :
    k.property ≠ "Asc" ∧ k.property ≠ "Desc" := by
  constructor <;> intro same <;>
    exact k.plain (mem_reservedWords_iff.mpr (Or.inl (by rw [same]; decide)))

/-- A key ends where no direction follows. -/
theorem sorts_key (k : Wording.Key) {ws : List String}
    (ends : ∀ w ∈ ws.head?, w ≠ "Asc" ∧ w ≠ "Desc") :
    sorts (k.words ++ ws) = (sorts ws).map (k.sortKey :: ·) := by
  obtain ⟨property, field, direction, stands, plain⟩ := k
  obtain rfl : fieldOf property = field := stands.fieldOf_eq
  have open_ : ¬ isKeyword property := fun h => plain (isKeyword_iff.mp h)
  cases direction with
  | some direction =>
    change sorts (property :: direction.word :: ws) = _
    rw [sorts.eq_def]
    simp only [if_neg open_]
    cases direction <;> rfl
  | none =>
    change sorts (property :: ws) = _
    rw [sorts.eq_def]
    simp only [if_neg open_]
    cases ws with
    | nil => rfl
    | cons w ws =>
      obtain ⟨asc, desc⟩ := ends w rfl
      simp only [if_neg asc, if_neg desc]
      rfl

theorem sorts_complete (ks : List Wording.Key) :
    sorts (ks.flatMap Wording.Key.words) = .ok (ks.map Wording.Key.sortKey) := by
  induction ks with
  | nil => rfl
  | cons k ks ih =>
    rw [List.flatMap_cons, sorts_key, ih]
    · rfl
    · cases ks with
      | nil => simp
      | cons k' ks =>
        rintro w ⟨⟩
        exact k'.property_ne

theorem order_sound {v : Verb} {ws : List String} {keys : List SortKey} (starts : StartsOrder ws)
    (h : order v ws = .ok keys) :
    ∃ ks : List Wording.Key, (v = .delete → ks = []) ∧
      ws = (if ks = [] then [] else "OrderBy" :: ks.flatMap Wording.Key.words) ∧
        keys = ks.map Wording.Key.sortKey := by
  cases ws with
  | nil =>
    cases h
    exact ⟨[], by simp, rfl, rfl⟩
  | cons w ws =>
    obtain rfl := starts w rfl
    simp only [order] at h
    split at h
    · cases h
    next kept =>
    split at h
    · cases h
    next some =>
    obtain ⟨ks, rfl, rfl⟩ := sorts_sound h
    have : ks ≠ [] := by
      rintro rfl
      exact some rfl
    exact ⟨ks, fun hv => absurd hv kept, by rw [if_neg this], rfl⟩

theorem order_complete {v : Verb} {ks : List Wording.Key} (kept : v = .delete → ks = []) :
    order v (if ks = [] then [] else "OrderBy" :: ks.flatMap Wording.Key.words) =
      .ok (ks.map Wording.Key.sortKey) := by
  by_cases none : ks = []
  · subst none
    rfl
  · have words : ks.flatMap Wording.Key.words ≠ [] := by
      cases ks with
      | nil => exact absurd rfl none
      | cons k ks => simp [Wording.Key.words]
    rw [if_neg none, order, if_neg fun hv => none (kept hv), if_neg words, sorts_complete]

end Clauses

namespace Wording

variable (w : Wording)

def derivation : Derivation where
  verb := w.verb
  limit := w.bound.elim 0 Bound.limit
  groups := (w.predicate.getD []).map Group.reading
  sorts := w.sorts.map Key.sortKey

theorem startsOrder_orderWords : StartsOrder w.orderWords := by
  unfold orderWords
  split <;> simp [StartsOrder]

theorem breaks_clauseWords : Breaks (w.clauseWords ++ w.orderWords) := by
  unfold clauseWords
  cases w.predicate with
  | none => exact fun x hx => Or.inr (w.startsOrder_orderWords x hx)
  | some groups => simp [Breaks]

theorem rest_ne_nil : w.subjectWords ++ (w.clauseWords ++ w.orderWords) ≠ [] := by
  intro none
  obtain ⟨subject, none⟩ := List.append_eq_nil_iff.mp none
  obtain ⟨clause, order⟩ := List.append_eq_nil_iff.mp none
  obtain ⟨before, subject⟩ := List.append_eq_nil_iff.mp subject
  obtain ⟨bound, after⟩ := List.append_eq_nil_iff.mp subject
  refine w.goesOn (by simpa using before) ?_ (by simpa using after) ?_ ?_
  · cases hb : w.bound with
    | none => rfl
    | some b => simp [hb, Bound.words] at bound
  · cases hp : w.predicate with
    | none => rfl
    | some groups => simp [clauseWords, hp] at clause
  · simpa [orderWords] using order

theorem ofWords_words : Derivation.ofWords w.words = .ok w.derivation := by
  have verb : verbs.lookup w.verb.word = some w.verb := Verb.lookup_eq_some_iff.mpr rfl
  have subject := subject_complete w.breaks_clauseWords w.before w.after w.searches
  have clause := predicateClause_complete w.startsOrder_orderWords w.predicate
  have order := order_complete w.kept
  rw [words, Derivation.ofWords]
  simp only [verb, if_neg w.rest_ne_nil]
  exact Except.bind_eq_ok_iff.mpr ⟨_, subject, Except.bind_eq_ok_iff.mpr ⟨_, clause,
    Except.bind_eq_ok_iff.mpr ⟨_, order, rfl⟩⟩⟩

end Wording

/-- Words have their places exactly if they are those of a wording. -/
theorem ofWords_eq_ok_iff {ws : List String} {d : Derivation} :
    Derivation.ofWords ws = .ok d ↔ ∃ w : Wording, ws = w.words ∧ d = w.derivation := by
  constructor
  · intro h
    cases ws with
    | nil => cases h
    | cons first ws =>
      rw [Derivation.ofWords] at h
      split at h
      · cases h
      next verb hv =>
      obtain rfl := Verb.lookup_eq_some_iff.mp hv
      by_cases none : ws = []
      · subst none
        cases h
      simp only [if_neg none] at h
      obtain ⟨⟨limit, ws₁⟩, hs, h₁⟩ := Except.bind_eq_ok_iff.mp h
      obtain ⟨⟨groups, ws₂⟩, hp, h₂⟩ := Except.bind_eq_ok_iff.mp h₁
      obtain ⟨keys, ho, ⟨⟩⟩ := Except.bind_eq_ok_iff.mp h₂
      obtain ⟨breaks, before, bound, after, searches, rfl, rfl⟩ := subject_sound hs
      obtain ⟨starts, predicate, rfl, rfl⟩ := predicateClause_sound breaks hp
      obtain ⟨ks, kept, rfl, rfl⟩ := order_sound starts ho
      refine ⟨⟨verb, before, bound, after, predicate, ks, searches, kept, ?_⟩, ?_, rfl⟩
      · rintro rfl rfl rfl rfl rfl
        exact none rfl
      · simp only [Wording.words, Wording.subjectWords, Wording.clauseWords, Wording.orderWords,
          List.append_assoc]
  · rintro ⟨w, rfl, rfl⟩
    exact w.ofWords_words

section Statement

theorem Test.arity_terminal (t : Test) : t.terminal.arity = t.arity := by
  cases t <;> rfl

namespace Wording

theorem Segment.condition_reading (s : Segment) (n : Nat) :
    s.reading.condition n = s.condition n := by
  obtain ⟨property, field, modifiers, stands, plain, once⟩ := s
  obtain rfl : fieldOf property = field := stands.fieldOf_eq
  set s : Segment := ⟨property, fieldOf property, modifiers, stands, plain, once⟩
  have leaf : s.reading.leaf n = s.test.comparison s.field s.param n := by
    unfold MethodName.Segment.leaf
    rw [show s.reading.terminal = s.test.terminal from rfl]
    cases s.test <;> rfl
  simp only [MethodName.Segment.condition, leaf, Segment.condition]
  simp only [Segment.reading, decide_eq_true_eq]
  rfl

def parameters (segments : List Segment) : Nat := (segments.map fun s => s.test.arity).sum

theorem parameters_append (segments others : List Segment) :
    parameters (segments ++ others) = parameters segments + parameters others := by
  simp [parameters]

theorem arity_map_reading (segments : List Segment) :
    MethodName.Segment.arity (segments.map Segment.reading) = parameters segments := by
  induction segments with
  | nil => rfl
  | cons s segments ih =>
    rw [List.map_cons, MethodName.Segment.arity, ih]
    exact congrArg (· + _) s.test.arity_terminal

theorem conditions_map_reading (n : Nat) (segments : List Segment) :
    MethodName.Segment.conditions n (segments.map Segment.reading) =
      segments.mapIdx fun j s => s.condition (n + parameters (segments.take j)) := by
  induction segments generalizing n with
  | nil => rfl
  | cons s segments ih =>
    have arity : s.reading.terminal.arity = s.test.arity := s.test.arity_terminal
    rw [List.map_cons, MethodName.Segment.conditions, s.condition_reading, ih, List.mapIdx_cons,
      arity]
    simp [parameters, Nat.add_assoc]

theorem groupConditions_map_reading (n : Nat) (groups : List Group) :
    MethodName.Segment.groupConditions n (groups.map Group.reading) =
      groups.mapIdx fun i group => .join .and (group.segments.mapIdx fun j s =>
        s.condition (n + parameters
          ((groups.take i).flatMap Group.segments ++ group.segments.take j))) := by
  induction groups generalizing n with
  | nil => rfl
  | cons group groups ih =>
    rw [List.map_cons, MethodName.Segment.groupConditions, ih, List.mapIdx_cons]
    simp only [Group.reading, conditions_map_reading, arity_map_reading, parameters_append,
      List.take_zero, List.flatMap_nil, List.nil_append, List.take_succ_cons, List.flatMap_cons,
      List.append_assoc, Nat.add_assoc]

theorem condition_derivation (w : Wording) : w.derivation.condition = w.condition := by
  unfold Derivation.condition condition
  cases h : w.predicate.getD [] with
  | nil => simp [derivation, h]
  | cons group groups =>
    simp only [derivation, h, List.map_cons, reduceCtorEq, if_false]
    rw [← List.map_cons, groupConditions_map_reading]
    rfl

theorem statement_derivation (w : Wording) (entity : String) :
    w.derivation.statement entity = w.statement entity := by
  unfold Derivation.statement statement
  rw [condition_derivation]
  cases hv : w.verb <;> simp [derivation, hv]

theorem condition_statement (w : Wording) (entity : String) :
    (w.statement entity).condition = w.condition := by
  unfold statement
  split <;> rfl

theorem sorts_statement (w : Wording) (entity : String) :
    (w.statement entity).sorts = w.sorts.map Key.sortKey := by
  unfold statement
  split
  · next deletes =>
    rw [w.kept deletes]
    rfl
  · rfl

end Wording

end Statement

theorem not_allBlank_of_words {method : String} {v : Verb} {ws : List String}
    (h : words method = v.word :: ws) : ¬ Text.allBlank method := by
  intro blank
  have visible : v.word.toList.all Text.isBlank = false := by
    cases v <;> decide
  apply Bool.eq_false_iff.mp visible
  rw [List.all_eq_true]
  intro c hc
  exact List.all_eq_true.mp blank c (subset_of_mem_words (h ▸ List.mem_cons_self) hc)

end MethodName

open MethodName

theorem derive_eq_ok_iff {method entity : String} {s : Statement} :
    derive method entity = .ok s ↔
      ∃ w : Wording, words method = w.words ∧ s = w.statement entity := by
  have read : derive method entity = .ok s ↔ ¬ Text.allBlank method ∧
      ∃ d, Derivation.ofWords (words method) = .ok d ∧ s = d.statement entity := by
    unfold derive
    by_cases blank : Text.allBlank method
    · simp [blank]
    · cases Derivation.ofWords (words method) <;> simp [blank, eq_comm]
  rw [read]
  simp only [ofWords_eq_ok_iff]
  constructor
  · rintro ⟨-, _, ⟨w, hw, rfl⟩, rfl⟩
    exact ⟨w, hw, w.statement_derivation entity⟩
  · rintro ⟨w, hw, rfl⟩
    exact ⟨not_allBlank_of_words hw, _, ⟨w, hw, rfl⟩, (w.statement_derivation entity).symm⟩

/-- Every word of a name has its place in the statement, or there is no statement. -/
theorem derive_places_every_word (method entity : String) :
    (∀ s, derive method entity = .ok s ↔
      ∃ w : Wording, words method = w.words ∧ s = w.statement entity) ∧
    ((∃ e, derive method entity = .error e) ↔ ∀ w : Wording, words method ≠ w.words) := by
  refine ⟨fun s => derive_eq_ok_iff, ?_⟩
  constructor
  · rintro ⟨e, refused⟩ w hw
    rw [derive_eq_ok_iff.mpr ⟨w, hw, rfl⟩] at refused
    cases refused
  · intro unplaced
    cases h : derive method entity with
    | error e => exact ⟨e, rfl⟩
    | ok s =>
      obtain ⟨w, hw, -⟩ := derive_eq_ok_iff.mp h
      exact absurd hw (unplaced w)

end QueryTree
