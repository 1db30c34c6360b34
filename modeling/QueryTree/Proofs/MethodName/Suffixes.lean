import QueryTree.Proofs.MethodName.Cutting

/-! # Rows of suffixes

A suffix is recognised if nothing but suffixes follows it, up to the end of the name or to a
connector. Some suffixes open with others. Still a text falls into suffixes in one way only, and
taking the first that is met never misses it.
-/

namespace QueryTree.MethodName

/-- The text consists of these suffixes, each of them at the end or before a capital, and of a rest
that is empty or starts with a connector. -/
inductive SuffixRow : List Char → List String → List Char → Prop where
  | done {rest} : rest = [] ∨ (keywordAt? connectors rest).isSome → SuffixRow rest [] rest
  | suffix {k more ks rest} : k ∈ suffixes → Opens more → SuffixRow more ks rest →
      SuffixRow (k.toList ++ more) (k :: ks) rest

variable {cs more rest rest' : List Char} {ks ks' : List String} {k k' : String}

theorem suffixRow_nil_iff :
    SuffixRow cs [] rest ↔ rest = cs ∧ (cs = [] ∨ (keywordAt? connectors cs).isSome) := by
  constructor
  · rintro ⟨closed⟩
    exact ⟨rfl, closed⟩
  · rintro ⟨rfl, closed⟩
    exact .done closed

theorem suffixRow_cons_iff :
    SuffixRow cs (k :: ks) rest ↔
      k ∈ suffixes ∧ ∃ more, cs = k.toList ++ more ∧ Opens more ∧ SuffixRow more ks rest := by
  constructor
  · intro h
    cases h with
    | suffix mem opens row => exact ⟨mem, _, rfl, opens, row⟩
  · rintro ⟨mem, more, rfl, opens, row⟩
    exact .suffix mem opens row

theorem suffix_of_keywordAt? (found : keywordAt? suffixes cs = some k) :
    k ∈ suffixes ∧ ∃ more, cs = k.toList ++ more ∧ Opens more := by
  obtain ⟨mem, more, same, bounded⟩ := keywordAt?_eq_some found
  have plain := (keyword_shape (List.mem_append_right _ mem)).plain
  exact ⟨mem, more, same, opens_of_bounded plain bounded⟩

theorem SuffixRow.follows (h : SuffixRow cs ks rest) : Follows cs := by
  cases h with
  | done closed =>
    rcases closed with rfl | connector
    · exact .inl rfl
    · obtain ⟨k, found⟩ := Option.isSome_iff_exists.mp connector
      obtain ⟨mem, more, rfl, -⟩ := keywordAt?_eq_some found
      exact .inr ⟨k, List.mem_append_left _ mem, more, rfl⟩
  | suffix mem => exact .inr ⟨_, List.mem_append_right _ mem, _, rfl⟩

/-- The suffix at the front of a row is met there, even if others open with it. -/
theorem keywordAt?_suffix (mem : k ∈ suffixes) (row : SuffixRow more ks rest) :
    keywordAt? suffixes (k.toList ++ more) = some k := by
  obtain ⟨m, rfl⟩ := mem_suffixes_iff.mp mem
  exact keywordAt?_modifier m row.follows

theorem SuffixRow.not_closed (h : SuffixRow cs (k :: ks) rest) :
    ¬ (cs = [] ∨ (keywordAt? connectors cs).isSome) := by
  obtain ⟨mem, more, rfl, -, row⟩ := suffixRow_cons_iff.mp h
  obtain ⟨m, rfl⟩ := mem_suffixes_iff.mp mem
  rintro (none | connector)
  · exact (keyword_shape (List.mem_append_right _ mem)).nonempty (List.append_eq_nil_iff.mp none).1
  · rw [connectorAt?_modifier m row.follows] at connector
    cases connector

theorem SuffixRow.head_eq (h : SuffixRow cs (k :: ks) rest) (h' : SuffixRow cs (k' :: ks') rest') :
    k = k' := by
  obtain ⟨mem, more, rfl, -, row⟩ := suffixRow_cons_iff.mp h
  obtain ⟨mem', more', same, -, row'⟩ := suffixRow_cons_iff.mp h'
  have met := keywordAt?_suffix mem row
  rw [same, keywordAt?_suffix mem' row'] at met
  exact (Option.some.inj met).symm

theorem SuffixRow.unique (h : SuffixRow cs ks rest) (h' : SuffixRow cs ks' rest') :
    ks = ks' ∧ rest = rest' := by
  induction ks generalizing cs ks' with
  | nil =>
    cases ks' with
    | nil => exact ⟨rfl, (suffixRow_nil_iff.mp h).1.trans (suffixRow_nil_iff.mp h').1.symm⟩
    | cons k' ks' => exact absurd (suffixRow_nil_iff.mp h).2 h'.not_closed
  | cons k ks ih =>
    cases ks' with
    | nil => exact absurd (suffixRow_nil_iff.mp h').2 h.not_closed
    | cons k' ks' =>
      obtain rfl := h.head_eq h'
      obtain ⟨-, more, rfl, -, row⟩ := suffixRow_cons_iff.mp h
      obtain ⟨-, more', same, -, row'⟩ := suffixRow_cons_iff.mp h'
      obtain rfl := List.append_cancel_left same
      obtain ⟨rfl, rfl⟩ := ih row row'
      exact ⟨rfl, rfl⟩

theorem suffixRun_iff_exists_row : suffixRun cs ↔ ∃ ks rest, SuffixRow cs ks rest := by
  constructor
  · intro run
    fun_induction suffixRun cs with
    | case1 cs closed => exact ⟨[], cs, .done closed⟩
    | case2 => cases run
    | case3 cs _ k found _ ih =>
      obtain ⟨mem, more, rfl, opens⟩ := suffix_of_keywordAt? found
      rw [List.drop_left] at ih run
      obtain ⟨ks, rest, row⟩ := ih run
      exact ⟨k :: ks, rest, .suffix mem opens row⟩
  · rintro ⟨ks, rest, row⟩
    induction row with
    | done closed => exact suffixRun_iff.mpr (closed.imp_right .inl)
    | @suffix k more _ _ mem _ row ih =>
      exact suffixRun_iff.mpr (.inr (.inr ⟨k, more, keywordAt?_suffix mem row, rfl, ih⟩))

theorem suffixAt?_eq_some_iff :
    suffixAt? cs = some k ↔
      ∃ more, cs = k.toList ++ more ∧ keywordAt? suffixes cs = some k ∧ suffixRun more := by
  unfold suffixAt?
  constructor
  · intro h
    split at h
    · next k' found =>
      split at h
      · next run =>
        obtain rfl := Option.some.inj h
        obtain ⟨-, more, rfl, -⟩ := keywordAt?_eq_some found
        rw [List.drop_left] at run
        exact ⟨more, rfl, found, run⟩
      · cases h
    · cases h
  · rintro ⟨more, rfl, found, run⟩
    simp only [found, List.drop_left, run, if_true]

theorem suffixAt?_eq_some_iff_row :
    suffixAt? cs = some k ↔ ∃ ks rest, SuffixRow cs (k :: ks) rest := by
  simp only [suffixAt?_eq_some_iff, suffixRun_iff_exists_row]
  constructor
  · rintro ⟨more, rfl, found, ks, rest, row⟩
    obtain ⟨mem, more', same, opens⟩ := suffix_of_keywordAt? found
    obtain rfl := List.append_cancel_left same
    exact ⟨ks, rest, .suffix mem opens row⟩
  · rintro ⟨ks, rest, row⟩
    obtain ⟨mem, more, rfl, -, row⟩ := suffixRow_cons_iff.mp row
    exact ⟨more, rfl, keywordAt?_suffix mem row, ks, rest, row⟩

/-- A suffix is recognised exactly if the text falls into a row of suffixes that starts with it. A
text falls into such a row in one way at most. -/
theorem suffix_rows_decided (cs : List Char) :
    (∀ k, suffixAt? cs = some k ↔ ∃ ks rest, SuffixRow cs (k :: ks) rest) ∧
      ∀ ks rest ks' rest', SuffixRow cs ks rest → SuffixRow cs ks' rest' →
        ks = ks' ∧ rest = rest' :=
  ⟨fun _ => suffixAt?_eq_some_iff_row, fun _ _ _ _ => SuffixRow.unique⟩

/-- `GreaterThanEqual` is at the front as well, but not before a capital. -/
theorem suffix_rows_decided_greaterThanEquals :
    let cs := "GreaterThanEqualsNotOrAge".toList
    SuffixRow cs ["GreaterThan", "Equals", "Not"] "OrAge".toList ∧
      suffixAt? cs = some "GreaterThan" ∧
      ∀ ks rest, SuffixRow cs ks rest →
        ks = ["GreaterThan", "Equals", "Not"] ∧ rest = "OrAge".toList := by
  intro cs
  have closed : SuffixRow "OrAge".toList [] "OrAge".toList := .done (.inr (by decide))
  have split : cs = "GreaterThan".toList ++
      ("Equals".toList ++ ("Not".toList ++ "OrAge".toList)) := by
    decide
  have row : SuffixRow cs ["GreaterThan", "Equals", "Not"] "OrAge".toList := by
    rw [split]
    exact .suffix (by decide) (by decide)
      (.suffix (by decide) (by decide) (.suffix (by decide) (by decide) closed))
  obtain ⟨recognised, unique⟩ := suffix_rows_decided cs
  exact ⟨row, (recognised _).mpr ⟨_, _, row⟩, fun ks rest other => unique _ _ _ _ other row⟩

end QueryTree.MethodName
