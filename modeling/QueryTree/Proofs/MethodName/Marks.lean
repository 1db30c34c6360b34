import QueryTree.Proofs.Fallible
import QueryTree.Proofs.MethodName.Keywords
import QueryTree.Proofs.MethodName.Segments

/-! # Reading words by their marks

A word is marked if it was met as a keyword. Here words are read by their marks, so that a property
is never taken for a keyword, whatever it spells. Every method name comes to the same when its words
are read by what they spell.
-/

namespace QueryTree.MethodName

namespace Marked

/-- The word that was met as this keyword. -/
def met (k : String) : Word := ⟨k, true⟩

/-- A keyword is no property. Nor is a word that is spelled like a keyword of another part: `By`,
`Asc` and `Desc` in a predicate, connectors and suffixes in an order. -/
def refuses (p : Part) (w : Word) : Bool := w.keyword || isKeyword w.text && w.text ∉ p.keywords

def subject (verb : Verb) (limit : Nat) : List Word → Except MethodFault (Nat × List Word)
  | [] => .ok (limit, [])
  | w :: rest =>
    if w = met "By" ∨ w = met "OrderBy" then .ok (limit, w :: rest)
    else if w.text = "All" then subject verb limit rest
    else if (w = met "First" ∨ w = met "Top") ∧ verb = .find ∧ limit = 0 then
      match rest with
      | [] => .ok (1, [])
      | next :: rest =>
        if Text.startsWithDigit next.text.toList then
          match limit? next.text with
          | some n => subject verb n rest
          | none => .error (.invalidLimit next.text)
        else subject verb 1 (next :: rest)
    else .error (.unexpectedWord w.text)

def terminal? (w : Word) : Option Terminal := if w.keyword then terminals.lookup w.text else none

def modifiers (m : Modifiers) : List Word → Except MethodFault Modifiers
  | [] => .ok m
  | w :: rest =>
    if w = met "Not" ∧ !m.negated then modifiers { m with negated := true } rest
    else if w = met "IgnoreCase" ∧ !m.ignoreCase then modifiers { m with ignoreCase := true } rest
    else
      match terminal? w, m.terminal with
      | some t, none => modifiers { m with terminal := some t } rest
      | _, _ => .error (.unexpectedWord w.text)

def segment : List Word → Except MethodFault Segment
  | [] => .error .missingProperty
  | property :: rest =>
    if refuses .predicate property then .error (.unexpectedWord property.text)
    else
      (modifiers ⟨false, false, none⟩ rest).map fun m =>
        ⟨property.text, m.negated, m.ignoreCase, m.terminal.getD (.compare .equals)⟩

def predicate (ws : List Word) : Except MethodFault (List (List Segment)) :=
  if ws = [] then .ok []
  else (ws.splitOn (met "Or")).mapM fun group => (group.splitOn (met "And")).mapM segment

def sorts : List Word → Except MethodFault (List SortKey)
  | [] => .ok []
  | w :: rest =>
    if refuses .order w then .error (.unexpectedWord w.text)
    else
      match rest with
      | [] => .ok [⟨fieldOf w.text, true⟩]
      | next :: rest =>
        if next = met "Asc" then (sorts rest).map (⟨fieldOf w.text, true⟩ :: ·)
        else if next = met "Desc" then (sorts rest).map (⟨fieldOf w.text, false⟩ :: ·)
        else (sorts (next :: rest)).map (⟨fieldOf w.text, true⟩ :: ·)

def order (verb : Verb) : List Word → Except MethodFault (List SortKey)
  | [] => .ok []
  | w :: rest =>
    if verb = .delete then .error (.unexpectedWord w.text)
    else if rest = [] then .error .missingProperty
    else sorts rest

def predicateClause : List Word → Except MethodFault (List (List Segment) × List Word)
  | [] => .ok ([], [])
  | w :: rest =>
    if w = met "By" then
      (predicate (rest.takeWhile (· ≠ met "OrderBy"))).map
        (·, rest.dropWhile (· ≠ met "OrderBy"))
    else .ok ([], w :: rest)

def derivation : List Word → Except MethodFault Derivation
  | [] => .error (.unknownVerb "")
  | first :: rest =>
    match verbs.lookup first.text with
    | none => .error (.unknownVerb first.text)
    | some verb => do
      if rest = [] then throw .verbOnly
      let (limit, rest) ← subject verb 0 rest
      let (groups, rest) ← predicateClause rest
      let sorts ← order verb rest
      return { verb, limit, groups, sorts }

variable {p : Part} {w : Word} {ws : List Word} {k : String}

section Known

theorem eq_met_iff (known : p.Knows w) (mem : k ∈ p.keywords) : w = met k ↔ w.text = k := by
  constructor
  · rintro rfl
    rfl
  · rintro rfl
    exact congrArg (Word.mk w.text) (known.mpr mem)

theorem refuses_eq_isKeyword (known : p.Knows w) (clause : p.IsClause) :
    refuses p w = isKeyword w.text := by
  have listed : ∀ p : Part, p.IsClause → ∀ k ∈ p.keywords, isKeyword k := by
    rintro p (rfl | rfl) <;> decide
  by_cases mem : w.text ∈ p.keywords
  · rw [refuses, known.mpr mem, listed p clause _ mem, Bool.true_or]
  · have plain : w.keyword = false := Bool.eq_false_iff.mpr (mt known.mp mem)
    simp [refuses, plain, mem]

theorem terminal?_eq_lookup (known : Part.predicate.Knows w) :
    terminal? w = terminals.lookup w.text := by
  unfold terminal?
  split_ifs with keyword
  · rfl
  · cases found : terminals.lookup w.text with
    | none => rfl
    | some terminal =>
      obtain ⟨t, same, -⟩ := terminals_lookup_eq_some_iff.mp found
      have suffix : w.text ∈ suffixes := mem_suffixes_iff.mpr ⟨.test t, same⟩
      exact absurd (known.mpr (List.mem_append_right _ suffix)) keyword

end Known

section Agree

/-- Both readings have the same outcome, and the words that they leave satisfy `P`. -/
inductive Agree {α : Type} (P : List Word → Prop) :
    Except MethodFault (α × List String) → Except MethodFault (α × List Word) → Prop
  | ok {a : α} {ws : List Word} : P ws → Agree P (.ok (a, ws.map Word.text)) (.ok (a, ws))
  | error {fault : MethodFault} : Agree P (.error fault) (.error fault)

theorem Agree.bind {α β : Type} {P : List Word → Prop}
    {x : Except MethodFault (α × List String)} {y : Except MethodFault (α × List Word)}
    {f : α × List String → Except MethodFault β} {g : α × List Word → Except MethodFault β}
    (h : Agree P x y) (next : ∀ a ws, P ws → f (a, ws.map Word.text) = g (a, ws)) :
    x >>= f = y >>= g := by
  cases h with
  | ok left => exact next _ _ left
  | error => rfl

inductive Ordered : List Word → Prop
  | nil : Ordered []
  | orderBy {ws : List Word} : Told .order ws → Ordered (met "OrderBy" :: ws)

inductive Ended : List Word → Prop
  | order {ws : List Word} : Ordered ws → Ended ws
  | by_ {ws : List Word} : Told .predicate ws → Ended (met "By" :: ws)

end Agree

section Subject

theorem ended_of_ends (told : Told .subject (w :: ws))
    (ends : w.text = "By" ∨ w.text = "OrderBy") : Ended (w :: ws) := by
  obtain ⟨known, later⟩ := told
  rcases ends with same | same
  · rw [same] at later
    rw [(eq_met_iff known (by decide)).mpr same]
    exact .by_ later
  · rw [same] at later
    rw [(eq_met_iff known (by decide)).mpr same]
    exact .order (.orderBy later)

theorem told_of_goesOn (told : Told .subject (w :: ws))
    (goesOn : ¬ (w.text = "By" ∨ w.text = "OrderBy")) : Told .subject ws := by
  have later : Told (Part.afterSubject w.text) ws := told.2
  rw [not_or] at goesOn
  rwa [Part.afterSubject, if_neg goesOn.1, if_neg goesOn.2] at later

theorem goesOn_of_startsWithDigit (digit : Text.startsWithDigit w.text.toList) :
    ¬ (w.text = "By" ∨ w.text = "OrderBy") := by
  rintro (same | same)
  · exact absurd (same ▸ digit) (by decide)
  · exact absurd (same ▸ digit) (by decide)

theorem agree_subject (verb : Verb) (limit : Nat) (ws : List Word) (told : Told .subject ws) :
    Agree Ended (MethodName.subject verb limit (ws.map Word.text)) (subject verb limit ws) := by
  match ws with
  | [] => exact Agree.ok (Ended.order Ordered.nil)
  | w :: rest =>
    rw [List.map_cons, MethodName.subject.eq_def, subject.eq_def]
    -- Both readings now ask the same of the word.
    simp (disch := decide) only [eq_met_iff told.1]
    split_ifs with ends all bound
    · exact .ok (ended_of_ends told ends)
    · exact agree_subject verb limit rest (told_of_goesOn told ends)
    · have later := told_of_goesOn told ends
      match rest with
      | [] => exact Agree.ok (Ended.order Ordered.nil)
      | next :: rest =>
        simp only [List.map_cons]
        split_ifs with digit
        · cases limit? next.text with
          | none => exact .error
          | some n =>
            have goesOn := goesOn_of_startsWithDigit digit
            exact agree_subject verb n rest (told_of_goesOn later goesOn)
        · exact agree_subject verb 1 (next :: rest) later
    · exact .error
termination_by ws.length

end Subject

section Predicate

variable (known : ∀ w ∈ ws, Part.predicate.Knows w)

include known

theorem modifiers_map_text (m : Modifiers) :
    MethodName.modifiers m (ws.map Word.text) = modifiers m ws := by
  induction ws generalizing m with
  | nil => rfl
  | cons w rest ih =>
    obtain ⟨first, others⟩ := List.forall_mem_cons.mp known
    have terminal := terminal?_eq_lookup first
    cases found : terminals.lookup w.text <;> cases given : m.terminal <;>
      simp (disch := decide) only [List.map_cons, MethodName.modifiers, modifiers,
        eq_met_iff first, terminal, found, given, ih others]

theorem segment_map_text : MethodName.segment (ws.map Word.text) = segment ws := by
  cases ws with
  | nil => rfl
  | cons property rest =>
    obtain ⟨first, others⟩ := List.forall_mem_cons.mp known
    rw [List.map_cons, MethodName.segment, segment, refuses_eq_isKeyword first (.inl rfl),
      modifiers_map_text others]

theorem splitOn_map_text (mem : k ∈ Part.predicate.keywords) :
    (ws.map Word.text).splitOn k = (ws.splitOn (met k)).map (List.map Word.text) := by
  induction ws with
  | nil => rfl
  | cons w rest ih =>
    obtain ⟨first, others⟩ := List.forall_mem_cons.mp known
    have same : (w.text == k) = (w == met k) := by
      rw [Bool.eq_iff_iff, beq_iff_eq, beq_iff_eq, eq_met_iff first mem]
    have pieces := ih others
    simp only [List.splitOn] at pieces
    simp only [List.splitOn, List.map_cons, List.splitOnP_cons_eq_if_modifyHead, same, pieces]
    split
    · rfl
    · cases List.splitOnP (· == met k) rest <;> rfl

theorem parts_map_text {α : Type} {part : List String → Except MethodFault α}
    {part' : List Word → Except MethodFault α} (mem : k ∈ Part.predicate.keywords)
    (each : ∀ {ws : List Word}, (∀ w ∈ ws, Part.predicate.Knows w) →
      part (ws.map Word.text) = part' ws) :
    ((ws.map Word.text).splitOn k).mapM part = (ws.splitOn (met k)).mapM part' := by
  rw [splitOn_map_text known mem, List.mapM_map]
  apply mapM_congr
  intro words inside
  have within : words ⊆ [met k].intercalate (ws.splitOn (met k)) := subset_intercalate inside
  rw [List.intercalate_splitOn] at within
  exact each fun w hw => known w (within hw)

theorem predicate_map_text : MethodName.predicate (ws.map Word.text) = predicate ws := by
  simp only [MethodName.predicate, predicate, List.map_eq_nil_iff]
  split_ifs
  · rfl
  · apply parts_map_text known (by decide)
    intro group known
    exact parts_map_text known (by decide) segment_map_text

end Predicate

section Clauses

/-- A predicate reaches up to `OrderBy` in both readings. -/
structure Reaches (ws : List Word) : Prop where
  inside : (ws.map Word.text).takeWhile (· ≠ "OrderBy") =
    (ws.takeWhile (· ≠ met "OrderBy")).map Word.text
  left : (ws.map Word.text).dropWhile (· ≠ "OrderBy") =
    (ws.dropWhile (· ≠ met "OrderBy")).map Word.text
  known : ∀ w ∈ ws.takeWhile (· ≠ met "OrderBy"), Part.predicate.Knows w
  ordered : Ordered (ws.dropWhile (· ≠ met "OrderBy"))

theorem reaches_of_told (told : Told .predicate ws) : Reaches ws := by
  induction ws with
  | nil => exact ⟨rfl, rfl, List.forall_mem_nil _, .nil⟩
  | cons w ws ih =>
    obtain ⟨first, later⟩ := told
    by_cases ends : w = met "OrderBy"
    · subst ends
      exact ⟨rfl, rfl, List.forall_mem_nil _, .orderBy later⟩
    · have goesOn : w.text ≠ "OrderBy" := fun same =>
        ends ((eq_met_iff first (by decide)).mpr same)
      rw [Part.after, Part.afterConnector, if_neg goesOn] at later
      obtain ⟨inside, left, known, ordered⟩ := ih later
      constructor
      · simpa [ends, goesOn] using inside
      · simpa [ends, goesOn] using left
      · simpa [ends, first] using known
      · simpa [ends] using ordered

theorem agree_predicateClause (ended : Ended ws) :
    Agree Ordered (MethodName.predicateClause (ws.map Word.text)) (predicateClause ws) := by
  cases ended with
  | order ordered =>
    cases ordered with
    | nil => exact Agree.ok Ordered.nil
    | orderBy told => exact Agree.ok (Ordered.orderBy told)
  | @by_ ws told =>
    obtain ⟨inside, left, known, ordered⟩ := reaches_of_told told
    have same := predicate_map_text known
    rw [← inside] at same
    simp only [List.map_cons, predicateClause, MethodName.predicateClause, if_true]
    rw [if_pos (show (met "By").text = "By" from rfl), same, left]
    cases predicate (ws.takeWhile (· ≠ met "OrderBy")) with
    | ok groups => exact Agree.ok ordered
    | error fault => exact Agree.error

theorem sorts_map_text (ws : List Word) (told : Told .order ws) :
    MethodName.sorts (ws.map Word.text) = sorts ws := by
  match ws with
  | [] => rfl
  | w :: rest =>
    rw [List.map_cons, MethodName.sorts.eq_def, sorts.eq_def]
    simp only [refuses_eq_isKeyword told.1 (.inr rfl)]
    match rest with
    | [] => rfl
    | next :: rest =>
      have later : Told .order (next :: rest) := told.2
      simp (disch := decide) only [List.map_cons, eq_met_iff later.1, sorts_map_text rest later.2,
        ← sorts_map_text (next :: rest) later]
termination_by ws.length

theorem order_map_text (verb : Verb) (ordered : Ordered ws) :
    MethodName.order verb (ws.map Word.text) = order verb ws := by
  cases ordered with
  | nil => rfl
  | orderBy told =>
    simp only [List.map_cons, MethodName.order, order, List.map_eq_nil_iff, sorts_map_text _ told]

theorem derivation_map_text (told : Told .verb ws) :
    Derivation.ofWords (ws.map Word.text) = derivation ws := by
  cases ws with
  | nil => rfl
  | cons first rest =>
    rw [List.map_cons, Derivation.ofWords, derivation]
    cases verbs.lookup first.text with
    | none => rfl
    | some verb =>
      simp only [List.map_eq_nil_iff]
      split_ifs
      · rfl
      · apply (agree_subject verb 0 rest told.2).bind
        intro limit rest ended
        apply (agree_predicateClause ended).bind
        intro groups rest ordered
        rw [order_map_text verb ordered]

end Clauses

end Marked

/-- In every part of a name a word is spelled like one of the keywords of the part exactly if it was
met as a keyword there. So it makes no difference whether the words of the name are read by what
they spell or by their marks, neither to what is derived nor to the fault that is found. -/
theorem keywords_told_by_spelling (method : String) :
    (placesFrom .verb method.toList).map Prod.snd = wordsFrom .verb method.toList ∧
      (∀ p w, (p, w) ∈ placesFrom .verb method.toList → (w.keyword ↔ w.text ∈ p.keywords)) ∧
      Derivation.ofWords (words method) = Marked.derivation (wordsFrom .verb method.toList) :=
  ⟨rfl, fun _ _ => knows_of_mem_placesFrom,
    Marked.derivation_map_text (told_wordsFrom .verb method.toList)⟩

/-- `InStock` and `LikeCount` start like suffixes, and `Description` starts like a direction. -/
theorem keywords_told_by_spelling_inStock :
    let method := "findTop3ByInStockNotInOrLikeCountOrderByDescriptionDesc"
    (Part.predicate, ⟨"InStock", false⟩) ∈ placesFrom .verb method.toList ∧
      "InStock" ∉ Part.predicate.keywords ∧
      Marked.derivation (wordsFrom .verb method.toList) =
        .ok ⟨.find, 3, [[⟨"InStock", true, false, .compare .in_⟩],
          [⟨"LikeCount", false, false, .compare .equals⟩]], [⟨"description", false⟩]⟩ := by
  intro method
  obtain ⟨-, told, same⟩ := keywords_told_by_spelling method
  have mem : (Part.predicate, ⟨"InStock", false⟩) ∈ placesFrom .verb method.toList := by
    decide +kernel
  refine ⟨mem, fun spelled => Bool.false_ne_true ((told _ _ mem).mpr spelled), ?_⟩
  rw [← same]
  decide +kernel

end QueryTree.MethodName
