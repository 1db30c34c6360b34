import Mathlib.Algebra.Group.Nat.Even
import QueryTree.Proofs.Token.Discipline
import QueryTree.Proofs.Token.Spacing

/-! # Quoted texts

A text is read back from its quoted form, with quotes of either kind, and a string token is read
from nothing else. A quote is left open exactly if the quotes after it, wherever some of them stand
together, come in pairs.
-/

namespace QueryTree

open Text Lexed Cursor

/-- Every maximal run of quotes has even length. -/
def EvenRuns (quote : Char) (cs : List Char) : Prop :=
  ∀ before n after, cs = before ++ List.replicate n quote ++ after →
    before.getLast? ≠ some quote → after.head? ≠ some quote → Even n

/-- In quotes, where a quote is written twice. -/
def enclosed (quote : Char) (s : String) : List Char := quote :: (doubled quote s.toList ++ [quote])

variable {quote c : Char} {cs body rest : List Char} {s : String} {p : Nat}

section Runs

theorem getLast?_cons_ne (hc : c ≠ quote) (h : cs.getLast? ≠ some quote) :
    (c :: cs).getLast? ≠ some quote := by
  cases cs with
  | nil => simpa using hc
  | cons d cs => rwa [List.getLast?_cons_cons]

theorem getLast?_ne_of_cons (h : (c :: cs).getLast? ≠ some quote) : cs.getLast? ≠ some quote := by
  cases cs with
  | nil => simp
  | cons d cs => rwa [List.getLast?_cons_cons] at h

theorem evenRuns_nil : EvenRuns quote [] := by
  intro before n after split _ _
  have lengths := congrArg List.length split
  simp only [List.length_nil, List.length_append, List.length_replicate] at lengths
  obtain rfl : n = 0 := by omega
  exact Even.zero

theorem evenRuns_cons_of_ne (hc : c ≠ quote) : EvenRuns quote (c :: cs) ↔ EvenRuns quote cs := by
  constructor
  · intro even before n after split last
    refine even (c :: before) n after ?_ (getLast?_cons_ne hc last)
    rw [split]
    rfl
  · intro even before n after split last
    cases before with
    | nil =>
      cases n with
      | zero => exact fun _ => Even.zero
      | succ n => exact absurd (List.cons.inj split).1 hc
    | cons d before => exact even before n after (List.cons.inj split).2 (getLast?_ne_of_cons last)

theorem evenRuns_cons_cons : EvenRuns quote (quote :: quote :: cs) ↔ EvenRuns quote cs := by
  constructor
  · intro even before n after split last next
    cases before with
    | nil =>
      have longer : Even (n + 2) := even [] (n + 2) after (by rw [split]; rfl) (by simp) next
      exact (Nat.even_add.mp longer).mpr (by decide)
    | cons d before =>
      refine even (quote :: quote :: d :: before) n after ?_ last next
      rw [split]
      rfl
  · intro even before n after split last next
    match before with
    | [] =>
      match n with
      | 0 => exact Even.zero
      | 1 =>
        obtain rfl := (List.cons.inj split).2
        exact absurd rfl next
      | n + 2 =>
        have shorter : Even n := even [] n after (List.cons.inj (List.cons.inj split).2).2 last next
        exact shorter.add (by decide)
    | [d] =>
      obtain rfl := (List.cons.inj split).1
      exact absurd rfl last
    | d :: e :: before =>
      have last := getLast?_ne_of_cons (getLast?_ne_of_cons last)
      exact even before n after (List.cons.inj (List.cons.inj split).2).2 last next

theorem not_evenRuns_cons (alone : cs.head? ≠ some quote) : ¬ EvenRuns quote (quote :: cs) := by
  intro even
  have single : Even 1 := even [] 1 cs rfl (by simp) alone
  exact absurd single (by decide)

/-- No quote stands alone, and so none closes the text, exactly if they come in pairs. -/
theorem unquote?_eq_none_iff : unquote? quote cs = none ↔ EvenRuns quote cs := by
  fun_induction unquote? quote cs with
  | case1 => simp [evenRuns_nil]
  | case2 => simpa using not_evenRuns_cons (by simp)
  | case3 c hc => simpa [evenRuns_cons_of_ne hc] using evenRuns_nil
  | case4 r ih => rw [Option.map_eq_none_iff, ih, evenRuns_cons_cons]
  | case5 d r hd => simpa using not_evenRuns_cons (by simpa using hd)
  | case6 c d r hc ih => rw [Option.map_eq_none_iff, ih, evenRuns_cons_of_ne hc]

end Runs

section Front

theorem ofChars_quote (h : quote = '\'' ∨ quote = '"') :
    ofChars (quote :: cs) = text quote cs := by
  have unmarked : mark? (quote :: cs) = none := by
    rcases h with rfl | rfl <;> exact mark?_eq_none (by decide)
  simp only [ofChars, unmarked, if_pos h]

theorem not_isBlank_quote (h : quote = '\'' ∨ quote = '"') : ¬ isBlank quote := by
  rcases h with rfl | rfl <;> decide

/-- A string is read from a quoted form and from nothing else. -/
theorem ofChars_eq_string_iff :
    ofChars body = (.token (.string s), rest) ↔ ∃ quote, (quote = '\'' ∨ quote = '"') ∧
      body = enclosed quote s ++ rest ∧ rest.head? ≠ some quote := by
  constructor
  · intro h
    cases origin_of_ofChars h with
    | mark same => cases same
    | @quoted quote content kind same split alone =>
      obtain rfl := Token.string.inj same
      exact ⟨quote, kind, by simp [split, enclosed], alone⟩
    | named _ _ same => cases same
    | positional _ same => cases same
    | number _ _ read =>
      rcases token_of_number (congrArg Prod.fst read) with ⟨_, same⟩ | ⟨_, same⟩ <;> cases same
    | word _ _ same =>
      have word : (Token.string s).isWord := same ▸ isWord_ofWord _
      cases word
  · rintro ⟨quote, kind, rfl, alone⟩
    rw [enclosed, List.cons_append, ofChars_quote kind]
    exact text_eq_token_iff.mpr ⟨s.toList, by rw [String.ofList_toList], by simp, alone⟩

theorem lexes_enclosed (h : quote = '\'' ∨ quote = '"') :
    Lexes (String.ofList (enclosed quote s)).toList
      [⟨.string s, String.ofList (enclosed quote s)⟩] := by
  apply lexes_token
  · rw [String.toList_ofList]
    exact List.dropWhile_cons_of_neg (not_isBlank_quote h)
  · rw [String.toList_ofList, ofChars_eq_string_iff]
    exact ⟨quote, h, by simp, by simp⟩

end Front

section Step

theorem scan_enclosed (kind : quote = '\'' ∨ quote = '"') (alone : rest.head? ≠ some quote) :
    (Cursor.mk (enclosed quote s ++ rest) p).scan =
      { outcome := .token (.string s), text := String.ofList (enclosed quote s), start := p,
        next := ⟨rest, p + (enclosed quote s).length⟩ } :=
  scan_of_visible (List.dropWhile_cons_of_neg (not_isBlank_quote kind))
    (ofChars_eq_string_iff.mpr ⟨quote, kind, rfl, alone⟩)

/-- A quote that is left open takes the rest of the text. -/
theorem scan_open (kind : quote = '\'' ∨ quote = '"') (even : EvenRuns quote cs) :
    (Cursor.mk (quote :: cs) p).scan =
      { outcome := .fault .unterminatedString, text := String.ofList (quote :: cs), start := p,
        next := ⟨[], p + (quote :: cs).length⟩ } := by
  have read : ofChars (quote :: cs ++ []) = (.fault .unterminatedString, []) := by
    rw [List.append_nil, ofChars_quote kind, text, unquote?_eq_none_iff.mpr even]
  have visible : (quote :: cs ++ []).dropWhile isBlank = quote :: cs ++ [] :=
    List.dropWhile_cons_of_neg (not_isBlank_quote kind)
  have whole := scan_of_visible (p := p) visible read
  rwa [List.append_nil] at whole

theorem evenRuns_of_open (kind : quote = '\'' ∨ quote = '"')
    (h : (Cursor.mk (quote :: cs) p).scan.outcome = .fault .unterminatedString) :
    EvenRuns quote cs := by
  rw [scan_outcome, List.dropWhile_cons_of_neg (not_isBlank_quote kind), ofChars_quote kind] at h
  rw [← unquote?_eq_none_iff]
  unfold text at h
  split at h
  · cases h
  · assumption

end Step

/-- At a quoted form the text in it is read, up to what follows the form, and a text in quotes is
read from its quoted form only. A quote is left open, and everything after it is taken, exactly if
the quotes after it come in pairs. Both kinds of quotes give the same tokens. -/
theorem quoted_texts_decode (quote : Char) (kind : quote = '\'' ∨ quote = '"') :
    (∀ blanks s rest p, (∀ b ∈ blanks, isBlank b) → rest.head? ≠ some quote →
      let here := (Cursor.mk (blanks ++ (enclosed quote s ++ rest)) p).scan
      here.answer = .ok (some (.string s)) ∧
        here.next = ⟨rest, p + blanks.length + (enclosed quote s).length⟩) ∧
    (∀ (c : Cursor) s, c.scan.answer = .ok (some (.string s)) →
      c.scan.text.toList.head? = some quote →
        c.scan.text.toList = enclosed quote s ∧ c.scan.next.rest.head? ≠ some quote) ∧
    (∀ blanks cs p, (∀ b ∈ blanks, isBlank b) →
      let here := (Cursor.mk (blanks ++ quote :: cs) p).scan
      (EvenRuns quote cs ↔ ∃ position, here.answer = .error ⟨.unterminatedString, position⟩) ∧
        ∀ position, here.answer = .error ⟨.unterminatedString, position⟩ →
          position = p + blanks.length ∧
            here.next = ⟨[], p + blanks.length + (quote :: cs).length⟩) ∧
    ∀ s, tokenize (String.ofList (enclosed quote s)) = .ok [.string s] := by
  refine ⟨?_, ?_, ?_, fun s => tokenize_eq_ok_iff.mpr ⟨_, lexes_enclosed kind, rfl⟩⟩
  · intro blanks s rest p blank alone
    rw [scan_append_blanks blank, scan_enclosed kind alone]
    exact ⟨rfl, rfl⟩
  · intro c s answer first
    have outcome := Lexed.answer_eq_token_iff.mp answer
    have read : ofChars (c.rest.dropWhile isBlank) = (.token (.string s), c.scan.next.rest) :=
      Prod.ext outcome rfl
    obtain ⟨q, -, split, alone⟩ := ofChars_eq_string_iff.mp read
    rw [← c.text_append_next] at split
    have spelled := List.append_cancel_right split
    rw [spelled] at first
    obtain rfl : q = quote := Option.some.inj first
    exact ⟨spelled, alone⟩
  · intro blanks cs p blank
    simp only [scan_append_blanks blank]
    have opened : ∀ position, (Cursor.mk (quote :: cs) (p + blanks.length)).scan.answer =
        .error ⟨.unterminatedString, position⟩ → EvenRuns quote cs :=
      fun position answer => evenRuns_of_open kind (Lexed.answer_eq_error_iff.mp answer).1
    refine ⟨⟨fun even => ⟨p + blanks.length, ?_⟩, fun ⟨position, answer⟩ => opened _ answer⟩,
      fun position answer => ?_⟩
    · rw [scan_open kind even]
      rfl
    · have even := opened position answer
      rw [scan_open kind even] at answer ⊢
      exact ⟨(Lexed.answer_eq_error_iff.mp answer).2, rfl⟩

theorem quoted_texts_decode_apostrophe :
    tokenize "\"it's\"" = tokenize "'it''s'" ∧
      (∀ p, (Cursor.mk "\t'it''s')".toList p).scan.next = ⟨[')'], p + 8⟩) ∧
      EvenRuns '\'' "it''s".toList ∧ ¬ EvenRuns '\'' "it''s' ''".toList := by
  obtain ⟨decoded, -, left, single⟩ := quoted_texts_decode '\'' (.inl rfl)
  obtain ⟨-, -, -, double⟩ := quoted_texts_decode '"' (.inr rfl)
  refine ⟨(double "it's").trans (single "it's").symm, fun p => ?_, ?_, fun even => ?_⟩
  · have blank : ∀ c ∈ ['\t'], isBlank c := List.forall_mem_singleton.mpr rfl
    exact (decoded ['\t'] "it's" [')'] p blank (by decide)).2
  · exact (left [] "it''s".toList 0 (List.forall_mem_nil _)).1.mpr ⟨0, by decide⟩
  · have met : (Cursor.mk "'it''s' ''".toList 0).scan.answer = .ok (some (.string "it's")) := by
      decide
    obtain ⟨position, answer⟩ := (left [] "it''s' ''".toList 0 (List.forall_mem_nil _)).1.mp even
    cases met.symm.trans answer

end QueryTree
