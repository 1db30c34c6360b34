import QueryTree.Proofs.MethodName.Wording

/-! # Where words are cut

A word is cut where the next one opens. Keywords overlap each other in a few ways only, and none of
them lets a keyword reach from a property into the words after it.
-/

namespace QueryTree.MethodName

open Text

variable {P q tail more : List Char} {ks : List String} {k m : String}

/-- A word may start here: at the end or at a capital. -/
def Opens (cs : List Char) : Prop := ∀ c ∈ cs.head?, isCapital c

@[simp] theorem opens_nil : Opens [] := by
  simp [Opens]

@[simp] theorem opens_cons {c : Char} {cs : List Char} : Opens (c :: cs) ↔ isCapital c := by
  simp [Opens]

theorem Opens.of_append (h : Opens (q ++ tail)) : Opens q := by
  cases q with
  | nil => exact opens_nil
  | cons c q => exact h

theorem Opens.append_of_ne_nil (h : Opens q) (nonempty : q ≠ []) : Opens (q ++ tail) := by
  cases q with
  | nil => exact absurd rfl nonempty
  | cons c q => exact h

theorem Opens.append (h : Opens q) (h' : Opens tail) : Opens (q ++ tail) := by
  cases q with
  | nil => exact h'
  | cons c q => exact h

instance (cs : List Char) : Decidable (Opens cs) :=
  match cs with
  | [] => .isTrue opens_nil
  | _ :: _ => decidable_of_iff _ opens_cons.symm

theorem not_isCapital_of_isDigit {c : Char} (h : c.isDigit) : ¬ isCapital c := by
  have first : capitalRanges = (0x41, 0x5A) :: capitalRanges.tail := rfl
  have small : c.toNat ≤ 57 := by
    simp only [Char.isDigit, Bool.and_eq_true, decide_eq_true_eq] at h
    exact h.2
  rw [isCapital, first]
  simp only [inRanges]
  split
  · simp only [decide_eq_true_eq]; omega
  · omega

/-- One of the keywords stands at the front, and a word may start after it. -/
def Meets (ks : List String) (cs : List Char) : Prop :=
  ∃ k ∈ ks, ∃ more, cs = k.toList ++ more ∧ Opens more

theorem meets_iff {cs : List Char} :
    Meets ks cs ↔ ∃ k ∈ ks, k.toList <+: cs ∧ Opens (cs.drop k.toList.length) := by
  constructor
  · rintro ⟨k, hk, more, rfl, opens⟩
    exact ⟨k, hk, List.prefix_append _ _, by rwa [List.drop_left]⟩
  · rintro ⟨k, hk, ⟨more, rfl⟩, opens⟩
    exact ⟨k, hk, more, rfl, by rwa [List.drop_left] at opens⟩

instance (ks : List String) (cs : List Char) : Decidable (Meets ks cs) :=
  decidable_of_iff _ meets_iff.symm

section Keyword

theorem bounded_of_opens (h : Opens tail) : bounded k tail := by
  cases tail with
  | nil => rfl
  | cons c cs => simp only [bounded, opens_cons.mp h, Bool.true_or]

theorem opens_of_bounded (plain : k ≠ "First" ∧ k ≠ "Top") (h : bounded k tail) : Opens tail := by
  cases tail with
  | nil => exact opens_nil
  | cons c cs => simpa [bounded, plain] using h

theorem keywordAt?_eq_some {cs : List Char} (h : keywordAt? ks cs = some k) :
    k ∈ ks ∧ ∃ more, cs = k.toList ++ more ∧ bounded k more := by
  refine ⟨keywordAt?_mem h, ?_⟩
  have hit := List.find?_some h
  simp only [Bool.and_eq_true] at hit
  obtain ⟨more, rfl⟩ := keywordAt?_isPrefix h
  exact ⟨more, rfl, by simpa using hit.2⟩

theorem keywordAt?_eq_none (h : ∀ k ∈ ks, ∀ more, q = k.toList ++ more → ¬ bounded k more) :
    keywordAt? ks q = none := by
  rw [Option.eq_none_iff_forall_ne_some]
  intro k hk
  obtain ⟨mem, more, rfl, hb⟩ := keywordAt?_eq_some hk
  exact h k mem more rfl hb

theorem keywordAt?_append (mem : m ∈ ks) (hb : bounded m tail)
    (before : ∀ k ∈ ks.takeWhile (· ≠ m), ∀ more, m.toList ++ tail = k.toList ++ more →
      ¬ bounded k more) :
    keywordAt? ks (m.toList ++ tail) = some m := by
  induction ks with
  | nil => cases mem
  | cons k ks ih =>
    unfold keywordAt?
    by_cases same : k = m
    · subst same
      refine List.find?_cons_of_pos ?_
      simpa using hb
    · have front : k ∈ (k :: ks).takeWhile (· ≠ m) := by simp [same]
      rw [List.find?_cons_of_neg]
      · refine ih ((List.mem_cons.mp mem).resolve_left (Ne.symm same)) fun k' hk' => before k' ?_
        simp only [ne_eq, same, not_false_eq_true, decide_true, List.takeWhile_cons_of_pos]
        exact List.mem_cons_of_mem _ hk'
      · simp only [Bool.and_eq_true, List.isPrefixOf_iff_prefix, not_and]
        rintro ⟨more, hm⟩ hb'
        rw [← hm, List.drop_left] at hb'
        exact before k front more hm.symm hb'

/-- A keyword is met before a capital if no keyword that stands before it goes on with one. -/
theorem keywordAt?_append_opens (mem : m ∈ ks) (opens : Opens tail)
    (before : ∀ k ∈ ks.takeWhile (· ≠ m), ¬ k.toList <+: m.toList ∧
      (m.toList <+: k.toList → ¬ Opens (k.toList.drop m.toList.length))) :
    keywordAt? ks (m.toList ++ tail) = some m := by
  refine keywordAt?_append mem (bounded_of_opens opens) fun k hk more front _ => ?_
  obtain ⟨apart, longer⟩ := before k hk
  obtain ⟨x, hx, rfl⟩ | ⟨x, hx, -⟩ := List.append_eq_append_iff.mp front
  · refine longer ⟨x, hx.symm⟩ ?_
    rw [hx, List.drop_left]
    exact opens.of_append
  · exact apart ⟨x, hx.symm⟩

end Keyword

section Hump

/-- The rests of a word at which a hump starts, after a first character that may glue the next. -/
def humpStartsAfter (glued : Bool) : List Char → List (List Char)
  | [] => []
  | c :: cs =>
    if isCapital c && !glued then (c :: cs) :: humpStartsAfter (c == '_') cs
    else humpStartsAfter (c == '_') cs

/-- The rests of a word at which a hump starts: the word itself, and every rest that starts with a
capital and does not come right after an underscore. -/
def humpStarts : List Char → List (List Char)
  | [] => []
  | c :: cs => (c :: cs) :: humpStartsAfter (c == '_') cs

def glues (glued : Bool) : List Char → Bool
  | [] => glued
  | c :: cs => glues (c == '_') cs

theorem humpStartsAfter_eq (glued : Bool) (cs : List Char) :
    humpStartsAfter glued cs = humpStarts (cs.drop (beforeCapital glued cs).length) := by
  induction cs generalizing glued with
  | nil => rfl
  | cons c cs ih =>
    unfold humpStartsAfter beforeCapital
    split
    · rfl
    · exact ih _

/-- After its first hump a word goes on like a word of its own. -/
theorem humpStarts_eq (h : P ≠ []) : humpStarts P = P :: humpStarts (P.drop (hump P).length) := by
  cases P with
  | nil => exact absurd rfl h
  | cons c cs => exact congrArg _ (humpStartsAfter_eq _ cs)

theorem humpStarts_subset_after {glued : Bool} (opens : Opens q) (loose : glues glued P = false) :
    humpStarts q ⊆ humpStartsAfter glued (P ++ q) := by
  induction P generalizing glued with
  | nil =>
    cases q with
    | nil => exact List.nil_subset _
    | cons c cs =>
      obtain rfl : glued = false := loose
      simp [humpStartsAfter, humpStarts, opens_cons.mp opens]
  | cons c P ih =>
    rw [List.cons_append, humpStartsAfter]
    split
    · exact List.Subset.trans (ih loose) (List.subset_cons_self _ _)
    · exact ih loose

theorem glues_of_getLast? {c : Char} (h : (c :: P).getLast? ≠ some '_') :
    glues (c == '_') P = false := by
  induction P generalizing c with
  | nil => simpa [glues] using h
  | cons d P ih => exact ih (by rwa [List.getLast?_cons_cons] at h)

theorem humpStarts_subset (nonempty : P ≠ []) (opens : Opens q) (loose : P.getLast? ≠ some '_') :
    humpStarts q ⊆ humpStarts (P ++ q) := by
  cases P with
  | nil => exact absurd rfl nonempty
  | cons c P =>
    have after := humpStarts_subset_after opens (glues_of_getLast? loose)
    exact List.Subset.trans after (List.subset_cons_self _ _)

theorem humpStarts_subset_of_mem {glued : Bool} (h : q ∈ humpStartsAfter glued P) :
    humpStarts q ⊆ humpStartsAfter glued P := by
  induction P generalizing glued with
  | nil => cases h
  | cons c P ih =>
    rw [humpStartsAfter] at h ⊢
    split at h
    · next starts =>
      rw [if_pos starts]
      obtain rfl | h := List.mem_cons.mp h
      · exact List.Subset.refl _
      · exact List.Subset.trans (ih h) (List.subset_cons_self _ _)
    · next inside =>
      rw [if_neg inside]
      exact ih h

theorem humpStartsAfter_ne_nil {glued : Bool} (h : q ∈ humpStartsAfter glued P) : q ≠ [] := by
  induction P generalizing glued with
  | nil => cases h
  | cons c P ih =>
    rw [humpStartsAfter] at h
    split at h
    · obtain rfl | h := List.mem_cons.mp h
      · exact List.cons_ne_nil _ _
      · exact ih h
    · exact ih h

theorem humpStarts_ne_nil (h : q ∈ humpStarts P) : q ≠ [] := by
  cases P with
  | nil => cases h
  | cons c P =>
    obtain rfl | h := List.mem_cons.mp h
    · exact List.cons_ne_nil _ _
    · exact humpStartsAfter_ne_nil h

theorem humpStarts_trans (h : q ∈ humpStarts P) : humpStarts q ⊆ humpStarts P := by
  cases P with
  | nil => cases h
  | cons c P =>
    obtain rfl | h := List.mem_cons.mp h
    · exact List.Subset.refl _
    · exact List.Subset.trans (humpStarts_subset_of_mem h) (List.subset_cons_self _ _)

theorem beforeCapital_append {glued : Bool} (opens : Opens tail)
    (loose : tail = [] ∨ glues glued q = false) :
    beforeCapital glued (q ++ tail) = beforeCapital glued q := by
  induction q generalizing glued with
  | nil =>
    cases tail with
    | nil => rfl
    | cons c cs =>
      obtain rfl : glued = false := by simpa [glues] using loose
      simp [beforeCapital, opens_cons.mp opens]
  | cons c q ih =>
    rw [List.cons_append, beforeCapital, beforeCapital]
    split
    · rfl
    · rw [ih loose]

/-- A hump ends with the word if another word opens after it. -/
theorem hump_append (nonempty : P ≠ []) (opens : Opens tail)
    (loose : tail = [] ∨ P.getLast? ≠ some '_') : hump (P ++ tail) = hump P := by
  cases P with
  | nil => exact absurd rfl nonempty
  | cons c P =>
    exact congrArg (c :: ·) (beforeCapital_append opens (loose.imp_right glues_of_getLast?))

theorem property_of_ends {ends : List Char → Bool} {cs : List Char}
    (h : cs.drop (hump cs).length = [] ∨ ends (cs.drop (hump cs).length)) :
    property ends cs = hump cs := by
  rw [property, dif_pos h]

theorem property_of_not_ends {ends : List Char → Bool} {cs : List Char}
    (h : ¬ (cs.drop (hump cs).length = [] ∨ ends (cs.drop (hump cs).length))) :
    property ends cs = hump cs ++ property ends (cs.drop (hump cs).length) := by
  rw [property, dif_neg h]

/-- A property reaches to the end of its word if it may not end at a hump before. -/
theorem property_append {ends : List Char → Bool} {P : List Char} (nonempty : P ≠ [])
    (opens : Opens tail)
    (loose : tail = [] ∨ P.getLast? ≠ some '_')
    (inside : ∀ q ∈ (humpStarts P).tail, ¬ ends (q ++ tail))
    (ended : tail = [] ∨ ends tail) : property ends (P ++ tail) = P := by
  obtain ⟨rest, hrest⟩ := hump_isPrefix P
  have left : P.drop (hump P).length = rest := by
    simpa using congrArg (List.drop (hump P).length) hrest.symm
  have first := hump_append nonempty opens loose
  have after : (P ++ tail).drop (hump (P ++ tail)).length = rest ++ tail := by
    rw [first, List.drop_append_of_le_length (hump_isPrefix P).length_le, left]
  have starts : (humpStarts P).tail = humpStarts rest := by
    rw [humpStarts_eq nonempty, left, List.tail_cons]
  by_cases last : rest = []
  · subst last
    rw [List.append_nil] at hrest
    rw [property_of_ends (by rwa [after]), first, hrest]
  · have more : ¬ (rest ++ tail = [] ∨ ends (rest ++ tail)) := by
      rintro (none | stop)
      · exact last (List.append_eq_nil_iff.mp none).1
      · exact inside rest (by rw [starts, humpStarts_eq last]; simp) stop
    have shorter : rest.length < P.length := by
      have := length_hump_pos nonempty
      have := congrArg List.length hrest
      rw [List.length_append] at this
      omega
    have loose_rest : tail = [] ∨ rest.getLast? ≠ some '_' := by
      rwa [← hrest, List.getLast?_append, List.getLast?_eq_some_getLast last, Option.some_or,
        ← List.getLast?_eq_some_getLast last] at loose
    have inside_rest : ∀ q ∈ (humpStarts rest).tail, ¬ ends (q ++ tail) := fun q hq =>
      inside q (starts ▸ List.mem_of_mem_tail hq)
    rw [property_of_not_ends (by rwa [after]), after, first,
      property_append last opens loose_rest inside_rest ended, hrest]
termination_by P.length

end Hump

section Predicate

/-- What all keywords of a predicate have in common. -/
structure KeywordShape (k : String) : Prop where
  nonempty : k.toList ≠ []
  opens : Opens k.toList
  loose : k.toList.getLast? ≠ some '_'
  plain : k ≠ "First" ∧ k ≠ "Top"

theorem keyword_shape (mem : k ∈ connectors ++ suffixes) : KeywordShape k := by
  have table : ∀ k ∈ connectors ++ suffixes, k.toList ≠ [] ∧ Opens k.toList ∧
      k.toList.getLast? ≠ some '_' ∧ k ≠ "First" ∧ k ≠ "Top" := by
    decide
  obtain ⟨nonempty, opens, loose, plain⟩ := table k mem
  exact ⟨nonempty, opens, loose, plain⟩

/-- A keyword goes before those that it extends, never before those that extend it. -/
theorem suffixes_in_order :
    ∀ m ∈ suffixes, ∀ k ∈ suffixes.takeWhile (· ≠ m), ¬ k.toList <+: m.toList := by
  decide

theorem connectors_apart : ∀ k ∈ connectors, ∀ m ∈ suffixes, ¬ k.toList <+: m.toList := by
  decide

/-- No connector and no direction goes on with a word after another one. -/
theorem firm_order : ∀ ks ∈ [connectors, orderKeywords], ∀ m ∈ ks, ∀ k ∈ ks.takeWhile (· ≠ m),
    ¬ k.toList <+: m.toList ∧
      (m.toList <+: k.toList → ¬ Opens (k.toList.drop m.toList.length)) := by
  decide

/-- What may follow a word of a predicate: a connector, a suffix or the end. -/
def Follows (tail : List Char) : Prop :=
  tail = [] ∨ ∃ w ∈ connectors ++ suffixes, ∃ more, tail = w.toList ++ more

/-- A keyword that starts inside another one is not bounded where the other one ends. -/
theorem keywords_apart :
    ∀ k ∈ connectors ++ suffixes, ∀ i < k.toList.length, i ≠ 0 → Opens (k.toList.drop i) →
      ∀ w ∈ connectors ++ suffixes, ¬ w.toList <+: k.toList.drop i ∧
        (k.toList.drop i <+: w.toList → ¬ Opens (w.toList.drop (k.toList.drop i).length)) := by
  decide

theorem isPrefix_of_follows (mem : k ∈ connectors ++ suffixes) (nonempty : q ≠ [])
    (follows : Follows tail) (front : q ++ tail = k.toList ++ more) (hb : bounded k more) :
    ∃ r, q = k.toList ++ r ∧ more = r ++ tail := by
  obtain ⟨as, hk, rfl⟩ | ⟨r, rfl, rfl⟩ := List.append_eq_append_iff.mp front
  · by_cases whole : as = []
    · subst whole
      exact ⟨[], by simpa using hk.symm, rfl⟩
    exfalso
    obtain none | ⟨w, hw, rest, hrest⟩ := follows
    · exact whole (List.append_eq_nil_iff.mp none).1
    have inside : q.length < k.toList.length := by
      rw [hk, List.length_append]
      have := List.length_pos_iff.mpr whole
      omega
    have pos : q.length ≠ 0 := by simpa using nonempty
    have opens : Opens as := by
      have shape := keyword_shape hw
      have both : Opens (as ++ more) := hrest ▸ shape.opens.append_of_ne_nil shape.nonempty
      exact both.of_append
    have apart := keywords_apart k mem _ inside pos
    rw [hk, List.drop_left] at apart
    obtain ⟨far, early⟩ := apart opens w hw
    obtain ⟨x, hx, rfl⟩ | ⟨x, rfl, -⟩ := List.append_eq_append_iff.mp hrest
    · refine early ⟨x, hx.symm⟩ ?_
      rw [hx, List.drop_left]
      exact (opens_of_bounded (keyword_shape mem).plain hb).of_append
    · exact far (List.prefix_append _ _)
  · exact ⟨r, rfl, rfl⟩

theorem Follows.opens (h : Follows tail) : Opens tail := by
  obtain rfl | ⟨w, hw, rest, rfl⟩ := h
  · exact opens_nil
  · have shape := keyword_shape hw
    exact shape.opens.append_of_ne_nil shape.nonempty

def SuffixesOnly (cs : List Char) : Prop :=
  ∃ ms : List Modifier, cs = spell (ms.map Modifier.word)

theorem suffixesOnly_iff : SuffixesOnly q ↔
    q = [] ∨ ∃ m ∈ Modifier.all, m.word.toList <+: q ∧
      SuffixesOnly (q.drop m.word.toList.length) := by
  constructor
  · rintro ⟨ms, rfl⟩
    cases ms with
    | nil => exact Or.inl rfl
    | cons m ms =>
      exact Or.inr ⟨m, m.mem_all, List.prefix_append _ _, ms, by simp⟩
  · rintro (rfl | ⟨m, -, ⟨more, rfl⟩, ms, hms⟩)
    · exact ⟨[], rfl⟩
    · rw [List.drop_left] at hms
      exact ⟨m :: ms, by rw [hms]; rfl⟩

theorem connectorAt?_append_eq_none (nonempty : q ≠ []) (follows : Follows tail)
    (plain : ¬ Meets connectors q) : keywordAt? connectors (q ++ tail) = none := by
  refine keywordAt?_eq_none fun k mem more front hb => ?_
  obtain ⟨r, rfl, rfl⟩ :=
    isPrefix_of_follows (List.mem_append_left _ mem) nonempty follows front hb
  have shape := keyword_shape (List.mem_append_left _ mem)
  exact plain ⟨k, mem, r, rfl, (opens_of_bounded shape.plain hb).of_append⟩

theorem mem_suffixes_iff : k ∈ suffixes ↔ ∃ m : Modifier, k = m.word := by
  constructor
  · have listed : ∀ k ∈ suffixes, ∃ m ∈ Modifier.all, k = m.word := by decide
    intro h
    obtain ⟨m, -, rfl⟩ := listed k h
    exact ⟨m, rfl⟩
  · rintro ⟨m, rfl⟩
    have listed : ∀ m ∈ Modifier.all, m.word ∈ suffixes := by decide
    exact listed m m.mem_all

theorem suffixRun_iff {cs : List Char} :
    suffixRun cs ↔ cs = [] ∨ (keywordAt? connectors cs).isSome ∨
      ∃ k more, keywordAt? suffixes cs = some k ∧ cs = k.toList ++ more ∧ suffixRun more := by
  rw [suffixRun]
  split
  · next stop => simpa [or_assoc] using Or.inl stop
  · next go =>
    rw [← or_assoc, or_iff_right go]
    split
    · next h => simp [h]
    · next k h =>
      obtain ⟨-, more, rfl, -⟩ := keywordAt?_eq_some h
      rw [List.drop_left]
      constructor
      · exact fun run => ⟨k, more, h, rfl, run⟩
      · rintro ⟨k', more', hk, front, run⟩
        obtain rfl := Option.some.inj (hk.symm.trans h)
        obtain rfl := List.append_cancel_left front
        exact run

/-- A suffix in a property is inside the property, and so is a hump after it. -/
theorem suffix_in_property (nonempty : q ≠ []) (follows : Follows tail)
    (hk : keywordAt? suffixes (q ++ tail) = some k) :
    (∃ m : Modifier, k = m.word) ∧ ∃ r, q = k.toList ++ r ∧ humpStarts r ⊆ humpStarts q := by
  obtain ⟨mem, more, front, hb⟩ := keywordAt?_eq_some hk
  obtain ⟨r, rfl, rfl⟩ :=
    isPrefix_of_follows (List.mem_append_right _ mem) nonempty follows front hb
  refine ⟨mem_suffixes_iff.mp mem, r, rfl, ?_⟩
  have shape := keyword_shape (List.mem_append_right _ mem)
  exact humpStarts_subset shape.nonempty (opens_of_bounded shape.plain hb).of_append shape.loose

theorem suffixesOnly_of_suffixRun {q : List Char} (nonempty : q ≠ []) (follows : Follows tail)
    (clean : ∀ r ∈ humpStarts q, ¬ Meets connectors r) (run : suffixRun (q ++ tail)) :
    SuffixesOnly q := by
  have self : q ∈ humpStarts q := by
    rw [humpStarts_eq nonempty]
    exact List.mem_cons_self
  have plain := connectorAt?_append_eq_none nonempty follows (clean q self)
  obtain none | connector | ⟨k, more, hk, front, run⟩ := suffixRun_iff.mp run
  · exact absurd (List.append_eq_nil_iff.mp none).1 nonempty
  · simp [plain] at connector
  obtain ⟨⟨m, rfl⟩, r, rfl, humps⟩ := suffix_in_property nonempty follows hk
  rw [List.append_assoc] at front
  obtain rfl := List.append_cancel_left front
  by_cases last : r = []
  · exact ⟨[m], by simp [last]⟩
  · have shorter : r.length < (m.word.toList ++ r).length := by
      have shape := keyword_shape (List.mem_append_right _ (keywordAt?_mem hk))
      have := List.length_pos_iff.mpr shape.nonempty
      rw [List.length_append]
      omega
    obtain ⟨ms, rfl⟩ :=
      suffixesOnly_of_suffixRun last follows (fun r' hr => clean r' (humps hr)) run
    exact ⟨m :: ms, by simp⟩
termination_by q.length

theorem suffixAt?_append_eq_none (nonempty : q ≠ []) (follows : Follows tail)
    (clean : ∀ r ∈ humpStarts q, ¬ Meets connectors r) (open_ : ¬ SuffixesOnly q) :
    suffixAt? (q ++ tail) = none := by
  unfold suffixAt?
  split
  · next k hk =>
    refine if_neg fun run => open_ (suffixesOnly_of_suffixRun nonempty follows clean ?_)
    obtain ⟨-, more, front, -⟩ := keywordAt?_eq_some hk
    rw [front, List.drop_left] at run
    exact suffixRun_iff.mpr (Or.inr (Or.inr ⟨k, more, hk, front, run⟩))
  · rfl

theorem keywordAt?_modifier (m : Modifier) (follows : Follows tail) :
    keywordAt? suffixes (m.word.toList ++ tail) = some m.word := by
  have mem : m.word ∈ suffixes := mem_suffixes_iff.mpr ⟨m, rfl⟩
  refine keywordAt?_append mem (bounded_of_opens follows.opens) fun k hk more front hb => ?_
  have listed : k ∈ suffixes := (List.takeWhile_prefix _).subset hk
  have shape := keyword_shape (List.mem_append_right _ mem)
  obtain ⟨r, hr, -⟩ :=
    isPrefix_of_follows (List.mem_append_right _ listed) shape.nonempty follows front hb
  exact suffixes_in_order _ mem k hk ⟨r, hr.symm⟩

theorem connectorAt?_modifier (m : Modifier) (follows : Follows tail) :
    keywordAt? connectors (m.word.toList ++ tail) = none := by
  have mem : m.word ∈ suffixes := mem_suffixes_iff.mpr ⟨m, rfl⟩
  have shape := keyword_shape (List.mem_append_right _ mem)
  refine connectorAt?_append_eq_none shape.nonempty follows ?_
  rintro ⟨k, hk, more, hm, -⟩
  exact connectors_apart k hk _ mem ⟨more, hm.symm⟩

theorem keywordAt?_connector (mem : k ∈ connectors) (opens : Opens tail) :
    keywordAt? connectors (k.toList ++ tail) = some k := by
  exact keywordAt?_append_opens mem opens (firm_order connectors (by simp) k mem)

def Closes (tail : List Char) : Prop := tail = [] ∨ Meets connectors tail

theorem Closes.follows (h : Closes tail) (ms : List Modifier) :
    Follows (spell (ms.map Modifier.word) ++ tail) := by
  cases ms with
  | cons m ms =>
    refine Or.inr ⟨m.word, List.mem_append_right _ (mem_suffixes_iff.mpr ⟨m, rfl⟩),
      spell (ms.map Modifier.word) ++ tail, ?_⟩
    rw [List.map_cons, spell_cons, List.append_assoc]
  | nil =>
    obtain rfl | ⟨k, hk, more, rfl, -⟩ := h
    · exact Or.inl rfl
    · exact Or.inr ⟨k, List.mem_append_left _ hk, more, rfl⟩

theorem suffixRun_modifiers (closes : Closes tail) (ms : List Modifier) :
    suffixRun (spell (ms.map Modifier.word) ++ tail) := by
  induction ms with
  | nil =>
    refine suffixRun_iff.mpr ?_
    obtain rfl | ⟨k, hk, more, rfl, opens⟩ := closes
    · exact Or.inl rfl
    · exact Or.inr (Or.inl (by simp [keywordAt?_connector hk opens]))
  | cons m ms ih =>
    rw [List.map_cons, spell_cons, List.append_assoc]
    exact suffixRun_iff.mpr
      (Or.inr (Or.inr ⟨m.word, _, keywordAt?_modifier m (closes.follows ms), rfl, ih⟩))

theorem suffixAt?_modifier (closes : Closes tail) (m : Modifier) (ms : List Modifier) :
    suffixAt? (m.word.toList ++ (spell (ms.map Modifier.word) ++ tail)) = some m.word := by
  unfold suffixAt?
  rw [keywordAt?_modifier m (closes.follows ms)]
  simp only [List.drop_left, suffixRun_modifiers closes ms, if_true]

end Predicate

section Order

theorem directionAt?_append_eq_none (nonempty : q ≠ []) (opens : Opens tail)
    (plain : ¬ Meets orderKeywords q) : keywordAt? orderKeywords (q ++ tail) = none := by
  refine keywordAt?_eq_none fun k mem more front hb => ?_
  have small : ∀ k ∈ orderKeywords, (k ≠ "First" ∧ k ≠ "Top") ∧
      ∀ i < k.toList.length, i ≠ 0 → ¬ Opens (k.toList.drop i) := by
    decide
  obtain ⟨apart, small⟩ := small k mem
  obtain ⟨as, hk, rfl⟩ | ⟨r, rfl, rfl⟩ := List.append_eq_append_iff.mp front
  · cases as with
    | nil => exact plain ⟨k, mem, [], by simpa using hk.symm, opens_nil⟩
    | cons c as =>
      refine small q.length (by simp [hk]) (by simpa using nonempty) ?_
      rw [hk, List.drop_left]
      exact opens
  · exact plain ⟨k, mem, r, rfl, (opens_of_bounded apart hb).of_append⟩

theorem directionAt?_direction (mem : k ∈ orderKeywords) (opens : Opens tail) :
    keywordAt? orderKeywords (k.toList ++ tail) = some k := by
  exact keywordAt?_append_opens mem opens (firm_order orderKeywords (by simp) k mem)

end Order

end QueryTree.MethodName
