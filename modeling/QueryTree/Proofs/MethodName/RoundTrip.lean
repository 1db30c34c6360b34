import QueryTree.Proofs.MethodName.Cutting
import QueryTree.Proofs.MethodName.Placement

/-! # Names decode what they spell

The name of a wording is cut into its words again if no part of a property looks like a keyword
that could stand there.
-/

namespace QueryTree

namespace MethodName

open Text

variable {tail : List Char}

namespace Wording

/-- A property that is a single word of a predicate: at none of its humps does a connector start,
and none of its ends consists of suffixes only. -/
structure Segment.Clear (s : Segment) : Prop where
  nonempty : s.property.toList ≠ []
  opens : Opens s.property.toList
  loose : s.property.toList.getLast? ≠ some '_'
  unconnected : ∀ q ∈ humpStarts s.property.toList, ¬ Meets connectors q
  unended : ∀ q ∈ humpStarts s.property.toList, ¬ SuffixesOnly q

structure Key.Clear (k : Key) : Prop where
  nonempty : k.property.toList ≠ []
  opens : Opens k.property.toList
  loose : k.direction ≠ none → k.property.toList.getLast? ≠ some '_'
  undirected : ∀ q ∈ humpStarts k.property.toList, ¬ Meets orderKeywords q

/-- Every property is a single word, and only the last key may do without a direction. -/
structure Clear (w : Wording) : Prop where
  segments : ∀ groups ∈ w.predicate, ∀ g ∈ groups, ∀ s ∈ g.segments, s.Clear
  keys : ∀ k ∈ w.sorts, k.Clear
  directed : ∀ k ∈ w.sorts.dropLast, k.direction ≠ none

end Wording

def texts (p : Part) (cs : List Char) : List String := (wordsFrom p cs).map Word.text

@[simp] theorem texts_nil (p : Part) : texts p [] = [] := by
  unfold texts
  rw [wordsFrom_nil]
  rfl

theorem texts_of_cut {p p' : Part} {word : String} {keyword : Bool}
    (cut : p.cut (word.toList ++ tail) = ⟨word.toList, keyword, p'⟩) (some : word.toList ≠ []) :
    texts p (word.toList ++ tail) = word :: texts p' tail := by
  unfold texts
  rw [wordsFrom_of_ne_nil p (by simp [some])]
  simp only [cut, List.drop_left, List.map_cons, String.ofList_toList]

theorem self_mem_humpStarts {P : List Char} (nonempty : P ≠ []) : P ∈ humpStarts P := by
  rw [humpStarts_eq nonempty]
  exact List.mem_cons_self

section Predicate

/-- The property of a segment ends neither before its last hump nor after it. -/
theorem cut_property {s : Wording.Segment} (clear : s.Clear) (closes : Closes tail)
    (ms : List Modifier) :
    Part.predicate.cut (s.property.toList ++ (spell (ms.map Modifier.word) ++ tail)) =
      ⟨s.property.toList, false, .predicate⟩ := by
  have follows := closes.follows ms
  have plain {q : List Char} (hq : q ∈ humpStarts s.property.toList) :
      keywordAt? connectors (q ++ (spell (ms.map Modifier.word) ++ tail)) = none ∧
        suffixAt? (q ++ (spell (ms.map Modifier.word) ++ tail)) = none := by
    have nonempty : q ≠ [] := humpStarts_ne_nil hq
    exact ⟨connectorAt?_append_eq_none nonempty follows (clear.unconnected q hq),
      suffixAt?_append_eq_none nonempty follows
        (fun r hr => clear.unconnected r (humpStarts_trans hq hr)) (clear.unended q hq)⟩
  obtain ⟨connector, suffix⟩ := plain (self_mem_humpStarts clear.nonempty)
  simp only [Part.cut, connector, suffix]
  rw [property_append clear.nonempty follows.opens (Or.inr clear.loose)]
  · intro q hq
    simp [plain (List.mem_of_mem_tail hq)]
  · cases ms with
    | cons m ms =>
      rw [List.map_cons, spell_cons, List.append_assoc]
      exact Or.inr (by simp [suffixAt?_modifier closes m ms])
    | nil =>
      obtain rfl | ⟨k, hk, more, rfl, opens⟩ := closes
      · exact Or.inl rfl
      · exact Or.inr (by simp [keywordAt?_connector hk opens])

theorem cut_modifier (closes : Closes tail) (m : Modifier) (ms : List Modifier) :
    Part.predicate.cut (m.word.toList ++ (spell (ms.map Modifier.word) ++ tail)) =
      ⟨m.word.toList, true, .predicate⟩ := by
  simp only [Part.cut, connectorAt?_modifier m (closes.follows ms), suffixAt?_modifier closes m ms]

theorem cut_connector {k : String} (mem : k ∈ connectors) (opens : Opens tail) :
    Part.predicate.cut (k.toList ++ tail) = ⟨k.toList, true, .afterConnector k⟩ := by
  simp only [Part.cut, keywordAt?_connector mem opens]

/-- The words are read off at the front of a predicate. -/
structure Reads (ws : List String) : Prop where
  nonempty : spell ws ≠ []
  opens : Opens (spell ws)
  texts : ∀ {tail}, Closes tail →
    texts .predicate (spell ws ++ tail) = ws ++ texts .predicate tail

theorem modifiers_texts (closes : Closes tail) (ms : List Modifier) :
    texts .predicate (spell (ms.map Modifier.word) ++ tail) =
      ms.map Modifier.word ++ texts .predicate tail := by
  induction ms with
  | nil => rfl
  | cons m ms ih =>
    have some : m.word.toList ≠ [] := by
      have listed : ∀ m ∈ Modifier.all, m.word.toList ≠ [] := by decide
      exact listed m m.mem_all
    rw [List.map_cons, spell_cons, List.append_assoc,
      texts_of_cut (cut_modifier closes m ms) some, ih, List.cons_append]

theorem segment_reads {s : Wording.Segment} (clear : s.Clear) : Reads s.words where
  nonempty := by simp [Wording.Segment.words, clear.nonempty]
  opens := by
    rw [Wording.Segment.words, spell_cons]
    exact clear.opens.append_of_ne_nil clear.nonempty
  texts closes := by
    rw [Wording.Segment.words, spell_cons, List.append_assoc,
      texts_of_cut (cut_property clear closes s.modifiers) clear.nonempty,
      modifiers_texts closes, List.cons_append]

theorem joined_reads {separator : String} (hs : separator = "And" ∨ separator = "Or")
    {parts : List (List String)} (some : parts ≠ []) (reads : ∀ ws ∈ parts, Reads ws) :
    Reads ([separator].intercalate parts) := by
  obtain ⟨mem, stays, nonempty⟩ : separator ∈ connectors ∧
      Part.afterConnector separator = .predicate ∧ separator.toList ≠ [] := by
    rcases hs with rfl | rfl <;> decide
  induction parts with
  | nil => exact absurd rfl some
  | cons ws parts ih =>
    obtain ⟨first, reads⟩ := List.forall_mem_cons.mp reads
    by_cases last : parts = []
    · subst last
      rwa [List.intercalate_singleton]
    · have rest := ih last reads
      rw [List.intercalate_cons_of_ne_nil last, List.append_assoc, List.singleton_append]
      refine ⟨by simp [first.nonempty], ?_, fun {tail} closes => ?_⟩
      · rw [spell_append]
        exact first.opens.append_of_ne_nil first.nonempty
      · have opens : Opens (spell ([separator].intercalate parts) ++ tail) :=
          rest.opens.append_of_ne_nil rest.nonempty
        have stop : Closes (separator.toList ++ (spell ([separator].intercalate parts) ++ tail)) :=
          Or.inr ⟨separator, mem, _, rfl, opens⟩
        rw [spell_append, spell_cons, List.append_assoc, List.append_assoc, first.texts stop,
          texts_of_cut (cut_connector mem opens) nonempty, stays, rest.texts closes,
          List.append_assoc, List.cons_append]

theorem predicate_reads {groups : List Wording.Group} (some : groups ≠ [])
    (clear : ∀ g ∈ groups, ∀ s ∈ g.segments, s.Clear) : Reads (Wording.predicateWords groups) := by
  refine joined_reads (Or.inr rfl) (by simpa using some) fun ws hws => ?_
  obtain ⟨g, hg, rfl⟩ := List.mem_map.mp hws
  refine joined_reads (Or.inl rfl) (by simpa using g.some) fun ws hws => ?_
  obtain ⟨s, hs, rfl⟩ := List.mem_map.mp hws
  exact segment_reads (clear g hg s hs)

theorem predicate_texts {groups : List Wording.Group}
    (clear : ∀ g ∈ groups, ∀ s ∈ g.segments, s.Clear) (closes : Closes tail) :
    Opens (spell (Wording.predicateWords groups) ++ tail) ∧
      texts .predicate (spell (Wording.predicateWords groups) ++ tail) =
        Wording.predicateWords groups ++ texts .predicate tail := by
  by_cases none : groups = []
  · subst none
    exact ⟨(closes.follows []).opens, rfl⟩
  · have reads := predicate_reads none clear
    exact ⟨reads.opens.append_of_ne_nil reads.nonempty, reads.texts closes⟩

end Predicate

section Order

theorem cut_key {k : Wording.Key} (clear : k.Clear) (opens : Opens tail)
    (loose : tail = [] ∨ k.direction ≠ none) (ended : tail = [] ∨ Meets orderKeywords tail) :
    Part.order.cut (k.property.toList ++ tail) = ⟨k.property.toList, false, .order⟩ := by
  have plain {q : List Char} (hq : q ∈ humpStarts k.property.toList) :
      keywordAt? orderKeywords (q ++ tail) = none :=
    directionAt?_append_eq_none (humpStarts_ne_nil hq) opens (clear.undirected q hq)
  simp only [Part.cut, plain (self_mem_humpStarts clear.nonempty)]
  rw [property_append clear.nonempty opens (loose.imp_right clear.loose)]
  · intro q hq
    simp [plain (List.mem_of_mem_tail hq)]
  · refine ended.imp_right ?_
    rintro ⟨d, hd, more, rfl, after⟩
    simp [directionAt?_direction hd after]

theorem cut_direction {k : String} (mem : k ∈ orderKeywords) (opens : Opens tail) :
    Part.order.cut (k.toList ++ tail) = ⟨k.toList, true, .order⟩ := by
  simp only [Part.cut, directionAt?_direction mem opens]

theorem direction_mem (d : Wording.Direction) : d.word ∈ orderKeywords ∧ d.word.toList ≠ [] ∧
    Opens d.word.toList := by
  cases d <;> decide

theorem keys_opens {ks : List Wording.Key} (clear : ∀ k ∈ ks, k.Clear) :
    Opens (spell (ks.flatMap Wording.Key.words)) := by
  cases ks with
  | nil => exact opens_nil
  | cons k ks =>
    have first := clear k List.mem_cons_self
    rw [List.flatMap_cons, Wording.Key.words, List.cons_append, spell_cons]
    exact first.opens.append_of_ne_nil first.nonempty

theorem keys_texts {ks : List Wording.Key} (clear : ∀ k ∈ ks, k.Clear)
    (directed : ∀ k ∈ ks.dropLast, k.direction ≠ none) :
    texts .order (spell (ks.flatMap Wording.Key.words)) = ks.flatMap Wording.Key.words := by
  induction ks with
  | nil => exact texts_nil _
  | cons k ks ih =>
    obtain ⟨first, others⟩ := List.forall_mem_cons.mp clear
    have rest : texts .order (spell (ks.flatMap Wording.Key.words)) =
        ks.flatMap Wording.Key.words := by
      refine ih others fun k' hk' => directed k' ?_
      cases ks with
      | nil => cases hk'
      | cons k'' ks => exact List.mem_cons_of_mem _ hk'
    have opens := keys_opens others
    rw [List.flatMap_cons, Wording.Key.words, List.cons_append, spell_cons]
    cases hd : k.direction with
    | some d =>
      obtain ⟨mem, nonempty, capital⟩ := direction_mem d
      have after : Opens (d.word.toList ++ spell (ks.flatMap Wording.Key.words)) :=
        capital.append_of_ne_nil nonempty
      simp only [Option.map_some, Option.toList_some, List.singleton_append, spell_cons]
      rw [texts_of_cut (cut_key first after (Or.inr (by simp [hd]))
        (Or.inr ⟨d.word, mem, _, rfl, opens⟩)) first.nonempty,
        texts_of_cut (cut_direction mem opens) nonempty, rest]
    | none =>
      have last : ks = [] := by
        by_contra more
        refine directed k ?_ hd
        rw [List.dropLast_cons_of_ne_nil more]
        exact List.mem_cons_self
      subst last
      change texts .order (k.property.toList ++ []) = [k.property]
      have cut := cut_key first opens_nil (Or.inl rfl) (Or.inl rfl)
      rw [texts_of_cut cut first.nonempty, texts_nil]

end Order

section Subject

theorem append_ne_append {w k more : List Char} (apart : ¬ k <+: w ∧ ¬ w <+: k) :
    w ++ tail ≠ k ++ more := by
  intro front
  obtain ⟨x, rfl, -⟩ | ⟨x, rfl, -⟩ := List.append_eq_append_iff.mp front
  · exact apart.2 (List.prefix_append _ _)
  · exact apart.1 (List.prefix_append _ _)

theorem takeWhile_append_of_opens {p : Char → Bool} {word : List Char} (all : ∀ c ∈ word, p c)
    (stop : ∀ c, isCapital c → p c = false) (opens : Opens tail) :
    (word ++ tail).takeWhile p = word := by
  rw [List.takeWhile_append_of_pos all]
  cases tail with
  | nil => exact List.append_nil _
  | cons c cs =>
    rw [List.takeWhile_cons_of_neg (by simp [stop c (opens_cons.mp opens)]), List.append_nil]

theorem cut_verb (v : Verb) (opens : Opens tail) :
    Part.verb.cut (v.word.toList ++ tail) = ⟨v.word.toList, false, .subject⟩ := by
  obtain ⟨small, some⟩ : v.word.toList.all (!isCapital ·) ∧ v.word.toList ≠ [] := by
    cases v <;> decide
  have front := takeWhile_append_of_opens (List.all_eq_true.mp small) (by simp) opens
  simp only [Part.cut, front, if_neg some]

theorem cut_digits {digits : String} (some : digits.toList ≠ [])
    (all : digits.toList.all Char.isDigit) (opens : Opens tail) :
    Part.subject.cut (digits.toList ++ tail) = ⟨digits.toList, false, .subject⟩ := by
  have front := takeWhile_append_of_opens (List.all_eq_true.mp all)
    (fun c hc => by simpa using mt not_isCapital_of_isDigit (not_not.mpr hc)) opens
  simp only [Part.cut, front, ne_eq, some, not_false_eq_true, if_true]

theorem cut_all (opens : Opens tail) :
    Part.subject.cut ("All".toList ++ tail) = ⟨"All".toList, false, .subject⟩ := by
  have digits : ("All".toList ++ tail).takeWhile Char.isDigit = [] := rfl
  have keyword : keywordAt? subjectKeywords ("All".toList ++ tail) = none := by
    refine keywordAt?_eq_none fun k mem more front _ => ?_
    have apart : ∀ k ∈ subjectKeywords,
        ¬ k.toList <+: "All".toList ∧ ¬ "All".toList <+: k.toList := by
      decide
    exact append_ne_append (apart k mem) front
  have word : hump ("All".toList ++ tail) = "All".toList := by
    rw [hump_append (by decide) opens (Or.inr (by decide))]
    decide
  simp only [Part.cut, digits, ne_eq, not_true_eq_false, if_false, keyword, word]

theorem cut_subjectKeyword {k : String} (mem : k ∈ subjectKeywords) (hb : bounded k tail) :
    Part.subject.cut (k.toList ++ tail) = ⟨k.toList, true, .afterSubject k⟩ := by
  have digits : (k.toList ++ tail).takeWhile Char.isDigit = [] := by
    simp only [subjectKeywords, List.mem_cons, List.not_mem_nil, or_false] at mem
    rcases mem with rfl | rfl | rfl | rfl <;> rfl
  have keyword : keywordAt? subjectKeywords (k.toList ++ tail) = some k := by
    refine keywordAt?_append mem hb fun k' hk' more front _ => ?_
    have apart : ∀ m ∈ subjectKeywords, ∀ k ∈ subjectKeywords.takeWhile (· ≠ m),
        ¬ k.toList <+: m.toList ∧ ¬ m.toList <+: k.toList := by
      decide
    exact append_ne_append (apart k mem k' hk') front
  simp only [Part.cut, digits, ne_eq, not_true_eq_false, if_false, keyword]

theorem all_opens (n : Nat) : Opens (spell (.replicate n "All")) := by
  cases n with
  | zero => exact opens_nil
  | succ n =>
    have capital : Opens "All".toList := by decide
    exact capital.append_of_ne_nil (by decide)

theorem all_texts (n : Nat) (opens : Opens tail) :
    texts .subject (spell (.replicate n "All") ++ tail) =
      .replicate n "All" ++ texts .subject tail := by
  induction n with
  | zero => rfl
  | succ n ih =>
    rw [List.replicate_succ, spell_cons, List.append_assoc,
      texts_of_cut (cut_all ((all_opens n).append opens)) (by decide), ih, List.cons_append]

theorem limiter_mem (top : Bool) : (if top then "Top" else "First") ∈ subjectKeywords ∧
    (if top then "Top" else "First").toList ≠ [] ∧ Opens (if top then "Top" else "First").toList ∧
    Part.afterSubject (if top then "Top" else "First") = .subject := by
  cases top <;> decide

theorem bound_opens (b : Wording.Bound) : Opens (spell b.words) := by
  obtain ⟨-, some, opens, -⟩ := limiter_mem b.top
  rw [Wording.Bound.words, spell_cons]
  exact opens.append_of_ne_nil some

theorem bound_texts (b : Wording.Bound) (opens : Opens tail) :
    texts .subject (spell b.words ++ tail) = b.words ++ texts .subject tail := by
  obtain ⟨top, number, positive⟩ := b
  obtain ⟨mem, some, -, stays⟩ := limiter_mem top
  rw [Wording.Bound.words, spell_cons, List.append_assoc]
  cases number with
  | none =>
    change texts .subject (_ ++ tail) = [_] ++ texts .subject tail
    rw [texts_of_cut (cut_subjectKeyword mem (bounded_of_opens opens)) some, stays]
    rfl
  | some digits =>
    obtain ⟨all, pos, -⟩ := positive digits rfl
    have nonempty : digits.toList ≠ [] := by
      intro none
      simp [none] at pos
    have hb : bounded (if top then "Top" else "First") (digits.toList ++ tail) := by
      cases hd : digits.toList with
      | nil => exact absurd hd nonempty
      | cons c cs =>
        have first : c.isDigit := List.all_eq_true.mp all c (by simp [hd])
        cases top <;> simp [bounded, first]
    change texts .subject (_ ++ (digits.toList ++ [] ++ tail)) = _
    rw [List.append_nil, texts_of_cut (cut_subjectKeyword mem hb) some, stays,
      texts_of_cut (cut_digits nonempty all opens) nonempty]
    rfl

end Subject

namespace Wording

variable {w : Wording}

theorem Clear.order_texts (clear : w.Clear) :
    texts .predicate (spell w.orderWords) = w.orderWords ∧
      texts .subject (spell w.orderWords) = w.orderWords := by
  unfold orderWords
  split
  · exact ⟨texts_nil _, texts_nil _⟩
  · have opens := keys_opens clear.keys
    have some : "OrderBy".toList ≠ [] := by decide
    have rest := keys_texts clear.keys clear.directed
    rw [spell_cons, texts_of_cut (cut_connector (by decide) opens) some,
      texts_of_cut (cut_subjectKeyword (by decide) (bounded_of_opens opens)) some]
    exact ⟨congrArg _ rest, congrArg _ rest⟩

theorem orderWords_closes (clear : w.Clear) : Closes (spell w.orderWords) := by
  unfold orderWords
  split
  · exact Or.inl rfl
  · exact Or.inr ⟨"OrderBy", by decide, _, rfl, keys_opens clear.keys⟩

theorem Clear.clause_texts (clear : w.Clear) :
    Opens (spell (w.clauseWords ++ w.orderWords)) ∧
      texts .subject (spell (w.clauseWords ++ w.orderWords)) = w.clauseWords ++ w.orderWords := by
  have closes := orderWords_closes clear
  obtain ⟨predicate, subject⟩ := clear.order_texts
  unfold clauseWords
  cases hp : w.predicate with
  | none => exact ⟨(closes.follows []).opens, subject⟩
  | some groups =>
    obtain ⟨opens, read⟩ := predicate_texts (clear.segments groups hp) closes
    have some : "By".toList ≠ [] ∧ Opens "By".toList := by decide
    simp only [Option.elim, List.cons_append, spell_cons, spell_append]
    refine ⟨some.2.append_of_ne_nil some.1, ?_⟩
    rw [texts_of_cut (cut_subjectKeyword (by decide) (bounded_of_opens opens)) some.1]
    refine congrArg _ ?_
    change texts .predicate _ = _
    rw [read, predicate]

theorem subject_texts (w : Wording) (opens : Opens tail) :
    Opens (spell w.subjectWords ++ tail) ∧
      texts .subject (spell w.subjectWords ++ tail) = w.subjectWords ++ texts .subject tail := by
  have after := (all_opens w.after).append opens
  have read := all_texts w.after opens
  unfold subjectWords
  cases w.bound with
  | none =>
    simp only [Option.elim, List.nil_append, spell_append, List.append_assoc]
    exact ⟨(all_opens _).append after, by rw [all_texts _ after, read]⟩
  | some b =>
    have bound := (bound_opens b).append after
    simp only [Option.elim, spell_append, List.append_assoc]
    exact ⟨(all_opens _).append bound, by rw [all_texts _ bound, bound_texts b after, read]⟩

/-- The name is cut into the words that it spells. -/
theorem Clear.words_render (clear : w.Clear) : MethodName.words w.render = w.words := by
  obtain ⟨opens, clauses⟩ := clear.clause_texts
  obtain ⟨subject, read⟩ := w.subject_texts opens
  have some : w.verb.word.toList ≠ [] := by
    cases w.verb <;> decide
  have name : w.render.toList = spell w.words := String.toList_ofList
  change texts .verb w.render.toList = w.words
  rw [name, words, spell_cons, spell_append, texts_of_cut (cut_verb w.verb subject) some, read,
    clauses]

end Wording

end MethodName

open MethodName

/-- Spelling a wording and deriving from the name gives back what the wording stands for. -/
theorem derive_render (w : Wording) (clear : w.Clear) (entity : String) :
    words w.render = w.words ∧ derive w.render entity = .ok (w.statement entity) :=
  ⟨clear.words_render, derive_eq_ok_iff.mpr ⟨w, clear.words_render, rfl⟩⟩

/-- The wording of
`findFirst10ByInStockFalseOrSalary_CurrencyIgnoreCaseNotLikeOrderByURLDescInStock`. -/
def stockWording : Wording where
  verb := .find
  before := 0
  bound := some ⟨false, some "10", by decide⟩
  after := 0
  predicate := some
    [⟨[⟨"InStock", "inStock", [.test .false_], standsFor_iff.mpr (by decide), by decide,
        by decide⟩], by decide⟩,
     ⟨[⟨"Salary_Currency", "salary.currency", [.ignoreCase, .not, .test .like],
        standsFor_iff.mpr (by decide), by decide, by decide⟩], by decide⟩]
  sorts :=
    [⟨"URL", "URL", some .desc, standsFor_iff.mpr (by decide), by decide⟩,
     ⟨"InStock", "inStock", none, standsFor_iff.mpr (by decide), by decide⟩]
  searches _ := rfl
  kept h := by cases h
  goesOn _ h := by cases h

theorem derive_render_stockWording :
    stockWording.render =
        "findFirst10ByInStockFalseOrSalary_CurrencyIgnoreCaseNotLikeOrderByURLDescInStock" ∧
      words stockWording.render =
        ["find", "First", "10", "By", "InStock", "False", "Or", "Salary_Currency", "IgnoreCase",
          "Not", "Like", "OrderBy", "URL", "Desc", "InStock"] ∧
      derive stockWording.render "Product" = .ok (.select
        { entity := "Product"
          fields := []
          condition := some (.node .or
            [.leaf "inStock" .equals (.boolean false),
              .node .not [.node .ignoreCase
                [.leaf "salary.currency" .like (.param (.indexed "currency" 1))]]])
          sorts := [⟨"URL", false⟩, ⟨"inStock", true⟩]
          limit := 10
          skip := 0
          count := false }) := by
  have stock : ¬ SuffixesOnly "Stock".toList := by
    rw [suffixesOnly_iff]
    rintro (h | ⟨m, hm, front, -⟩)
    · cases h
    · exact absurd front ((by decide : ∀ m ∈ Modifier.all, ¬ m.word.toList <+: "Stock".toList) m hm)
  have inStock : ¬ SuffixesOnly "InStock".toList := by
    rw [suffixesOnly_iff]
    rintro (h | ⟨m, hm, front, rest⟩)
    · cases h
    · obtain rfl : m = .test .in_ := (by decide : ∀ m ∈ Modifier.all,
        m.word.toList <+: "InStock".toList → m = .test .in_) m hm front
      exact stock rest
  have salary : ¬ SuffixesOnly "Salary_Currency".toList := by
    rw [suffixesOnly_iff]
    rintro (h | ⟨m, hm, front, -⟩)
    · cases h
    · exact absurd front
        ((by decide : ∀ m ∈ Modifier.all, ¬ m.word.toList <+: "Salary_Currency".toList) m hm)
  have humps : humpStarts "InStock".toList = ["InStock".toList, "Stock".toList] ∧
      humpStarts "Salary_Currency".toList = ["Salary_Currency".toList] := by
    decide
  have clear : stockWording.Clear := by
    refine ⟨?_, ?_, by decide⟩
    · simp only [stockWording, Option.mem_def, Option.some.injEq, forall_eq',
        List.forall_mem_cons, List.not_mem_nil, false_imp_iff, implies_true, and_true]
      refine ⟨⟨by decide, by decide, by decide, by decide, ?_⟩,
        ⟨by decide, by decide, by decide, by decide, ?_⟩⟩
      · rw [humps.1]
        simpa using ⟨inStock, stock⟩
      · rw [humps.2]
        simpa using salary
    · simp only [stockWording, List.forall_mem_cons, List.not_mem_nil, false_imp_iff,
        implies_true, and_true]
      exact ⟨⟨by decide, by decide, fun _ => by decide, by decide⟩,
        ⟨by decide, by decide, fun _ => by decide, by decide⟩⟩
  obtain ⟨words, derived⟩ := derive_render stockWording clear "Product"
  exact ⟨by decide, words, derived⟩

end QueryTree
